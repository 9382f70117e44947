import Mathlib.Data.List.Basic

/-!
# Lists whose elements follow from what is before them

A property of an element and of the list before it, for all elements of a list.
Properties that keep when the list before grows to the left are kept by
concatenation.
-/

namespace BeeGadz
namespace Foundation

variable {α : Type}

/-- Every element has the property, given the elements before it. -/
def Guarded (P : List α -> α -> Prop) (l : List α) : Prop :=
  forall before e after, l = before ++ e :: after -> P before e

theorem split_append {first second front back : List α} {a : α}
    (h : first ++ second = front ++ a :: back) :
    (exists rest, first = front ++ a :: rest ∧ back = rest ++ second) ∨
      exists rest, second = rest ++ a :: back ∧ front = first ++ rest := by
  rcases List.append_eq_append_iff.mp h with
    ⟨rest, hfront, hsecond⟩ | ⟨rest, hfirst, hback⟩
  · exact Or.inr ⟨rest, hsecond, hfront⟩
  · cases rest with
    | nil =>
        rw [List.nil_append] at hback
        rw [List.append_nil] at hfirst
        exact Or.inr ⟨[], hback.symm, by rw [hfirst, List.append_nil]⟩
    | cons b rest =>
        rw [List.cons_append, List.cons.injEq] at hback
        exact Or.inl ⟨rest, hback.left ▸ hfirst, hback.right⟩

theorem guarded_nil (P : List α -> α -> Prop) : Guarded P [] := by
  intro before e after h
  simp at h

theorem guarded_of_forall {P : List α -> α -> Prop} {l : List α}
    (h : forall e, e ∈ l -> forall before, P before e) : Guarded P l := by
  intro before e after hl
  apply h e _ before
  rw [hl]
  exact List.mem_append_right before List.mem_cons_self

theorem guarded_cons {P : List α -> α -> Prop} {a : α} {l : List α}
    (hhead : P [] a) (htail : Guarded (fun before e => P (a :: before) e) l) :
    Guarded P (a :: l) := by
  intro before e after h
  cases before with
  | nil =>
      simp only [List.nil_append, List.cons.injEq] at h
      rw [← h.left]
      exact hhead
  | cons b before =>
      simp only [List.cons_append, List.cons.injEq] at h
      rw [← h.left]
      exact htail before e after h.right

theorem guarded_snoc {P : List α -> α -> Prop} {l : List α} {a : α}
    (hl : Guarded P l) (ha : P l a) : Guarded P (l ++ [a]) := by
  intro before e after h
  rcases split_append h with ⟨rest, hbefore, _⟩ | ⟨rest, hlast, hbefore⟩
  · exact hl before e rest hbefore
  · cases rest with
    | nil =>
        rw [List.nil_append, List.cons.injEq] at hlast
        rw [← hlast.left, hbefore, List.append_nil]
        exact ha
    | cons b rest => simp at hlast

section Growing

variable {P : List α -> α -> Prop}
  (hgrow : forall front before e, P before e -> P (front ++ before) e)

include hgrow

theorem guarded_append {l m : List α} (hl : Guarded P l) (hm : Guarded P m) :
    Guarded P (l ++ m) := by
  intro before e after h
  rcases split_append h with ⟨rest, hleft, _⟩ | ⟨rest, hright, hbefore⟩
  · exact hl before e rest hleft
  · rw [hbefore]
    exact hgrow l rest e (hm rest e after hright)

/-- An element without an obligation in front changes nothing. -/
theorem guarded_cons_of_growing {a : α} {l : List α} (hhead : P [] a)
    (hl : Guarded P l) : Guarded P (a :: l) := by
  apply guarded_cons hhead
  intro before e after h
  exact hgrow [a] before e (hl before e after h)

end Growing

end Foundation
end BeeGadz
