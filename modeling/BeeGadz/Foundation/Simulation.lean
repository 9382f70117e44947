import Mathlib.Data.List.Basic

/-!
# Sequences of operations

Operations that are only used where they are allowed, and the simulation of one
system by another over a sequence of them.
-/

namespace BeeGadz
namespace Foundation

variable {ι σ τ : Type}

def applyAll (apply : ι -> σ -> σ) (is : List ι) (s : σ) : σ :=
  is.foldl (fun s i => apply i s) s

/-- Every operation of the sequence is allowed in the state it is applied in. -/
def Permitted (allowed : ι -> σ -> Prop) (apply : ι -> σ -> σ) :
    List ι -> σ -> Prop
  | [], _ => True
  | i :: is, s => allowed i s ∧ Permitted allowed apply is (apply i s)

@[simp] theorem applyAll_cons (apply : ι -> σ -> σ) (i : ι) (is : List ι)
    (s : σ) :
    applyAll apply (i :: is) s = applyAll apply is (apply i s) := rfl

@[simp] theorem applyAll_append (apply : ι -> σ -> σ) (is js : List ι)
    (s : σ) :
    applyAll apply (is ++ js) s = applyAll apply js (applyAll apply is s) :=
  List.foldl_append

theorem permitted_append {allowed : ι -> σ -> Prop} {apply : ι -> σ -> σ}
    {is js : List ι} {s : σ} :
    Permitted allowed apply (is ++ js) s <->
      Permitted allowed apply is s ∧
        Permitted allowed apply js (applyAll apply is s) := by
  induction is generalizing s with
  | nil => exact ⟨fun h => ⟨trivial, h⟩, fun h => h.right⟩
  | cons i is ih =>
      constructor
      · intro h
        rcases ih.mp h.right with ⟨hfirst, hsecond⟩
        exact ⟨⟨h.left, hfirst⟩, hsecond⟩
      · intro h
        exact ⟨h.left.left, ih.mpr ⟨h.left.right, h.right⟩⟩

theorem applyAll_invariant {I : σ -> Prop} {allowed : ι -> σ -> Prop}
    {apply : ι -> σ -> σ} {is : List ι} {s : σ}
    (hkeep : forall i s, i ∈ is -> I s -> allowed i s -> I (apply i s))
    (hs : I s) (h : Permitted allowed apply is s) :
    I (applyAll apply is s) := by
  induction is generalizing s with
  | nil => exact hs
  | cons i is ih =>
      apply ih _ _ h.right
      · intro j t hj
        exact hkeep j t (List.mem_cons_of_mem i hj)
      · exact hkeep i s List.mem_cons_self hs h.left

theorem permitted_of_forall {allowed : ι -> Prop} {apply : ι -> σ -> σ}
    {is : List ι} (h : forall i, i ∈ is -> allowed i) (s : σ) :
    Permitted (fun i _ => allowed i) apply is s := by
  induction is generalizing s with
  | nil => trivial
  | cons i is ih =>
      constructor
      · exact h i (List.mem_cons_self ..)
      · exact ih (fun j hj => h j (List.mem_cons_of_mem i hj)) (apply i s)

/-- A relation that is kept by allowed operations is kept by permitted sequences
of them. -/
theorem applyAll_simulates {R : τ -> σ -> Prop} {run : ι -> τ -> τ}
    {allowed : ι -> σ -> Prop} {apply : ι -> σ -> σ}
    (hstep : forall i t s, R t s -> allowed i s -> R (run i t) (apply i s))
    {is : List ι} {t : τ} {s : σ} (hstart : R t s)
    (h : Permitted allowed apply is s) :
    R (applyAll run is t) (applyAll apply is s) := by
  induction is generalizing t s with
  | nil => exact hstart
  | cons i is ih => exact ih (hstep i t s hstart h.left) h.right

/-- Once an operation has the same result in all states, the state before it is
forgotten. -/
theorem applyAll_forgets {apply : ι -> σ -> σ} {is : List ι} {i : ι}
    (hi : i ∈ is) (hsame : forall s s', apply i s = apply i s') (s s' : σ) :
    applyAll apply is s = applyAll apply is s' := by
  induction is generalizing s s' with
  | nil => cases hi
  | cons j is ih =>
      cases List.mem_cons.mp hi with
      | inl heq =>
          subst heq
          rw [applyAll_cons, applyAll_cons, hsame s s']
      | inr hrest => exact ih hrest (apply j s) (apply j s')

/-- A field that every allowed operation either sets or leaves holds the value
it was last set to. -/
theorem applyAll_last {α : Type} (P : σ -> Prop) (field : σ -> α)
    (value : ι -> Option α) {allowed : ι -> σ -> Prop}
    {apply : ι -> σ -> σ}
    (hkeep : forall i s, P s -> allowed i s -> P (apply i s))
    (hfield : forall i s, P s -> allowed i s ->
      field (apply i s) = (value i).getD (field s))
    {is : List ι} {s : σ} (hs : P s) (h : Permitted allowed apply is s) :
    field (applyAll apply is s) =
      (is.filterMap value).getLast?.getD (field s) := by
  induction is generalizing s with
  | nil => rfl
  | cons i is ih =>
      have hrest := ih (hkeep i s hs h.left) h.right
      rw [applyAll_cons, hrest, hfield i s hs h.left]
      cases hi : value i with
      | none => simp [hi]
      | some a =>
          cases hlast : (is.filterMap value).getLast? with
          | none => simp [hi, List.getLast?_cons, hlast]
          | some b => simp [hi, List.getLast?_cons, hlast]

end Foundation
end BeeGadz
