import Mathlib.Data.List.Nodup
import Mathlib.Order.Lattice

/-!
# Maps as sorted lists

A map is the list of its keys and values, in the order of the keys.  What is
inserted replaces what was there under the same key.
-/

namespace BeeGadz
namespace Foundation
namespace Sorted

variable {κ ν : Type} [LinearOrder κ]

def insert (k : κ) (v : ν) : List (κ × ν) -> List (κ × ν)
  | [] => [(k, v)]
  | x :: rest =>
      if k < x.1 then (k, v) :: x :: rest
      else if k = x.1 then (k, v) :: rest
      else x :: insert k v rest

def find (k : κ) : List (κ × ν) -> Option ν
  | [] => none
  | x :: rest => if k = x.1 then some x.2 else find k rest

def Ordered (m : List (κ × ν)) : Prop :=
  m.Pairwise fun x y => x.1 < y.1

def ofList (xs : List (κ × ν)) : List (κ × ν) :=
  xs.foldl (fun m x => insert x.1 x.2 m) []

theorem mem_insert {k : κ} {v : ν} {m : List (κ × ν)} {x : κ × ν}
    (h : x ∈ insert k v m) : x = (k, v) ∨ x ∈ m := by
  induction m with
  | nil => exact Or.inl (List.mem_singleton.mp h)
  | cons y rest ih =>
      rw [insert] at h
      split at h
      · exact List.mem_cons.mp h
      · split at h
        · cases List.mem_cons.mp h with
          | inl heq => exact Or.inl heq
          | inr hrest => exact Or.inr (List.mem_cons_of_mem y hrest)
        · cases List.mem_cons.mp h with
          | inl heq =>
              rw [heq]
              exact Or.inr List.mem_cons_self
          | inr hrest =>
              cases ih hrest with
              | inl heq => exact Or.inl heq
              | inr hmem => exact Or.inr (List.mem_cons_of_mem y hmem)

theorem ordered_insert (k : κ) (v : ν) {m : List (κ × ν)} (h : Ordered m) :
    Ordered (insert k v m) := by
  induction m with
  | nil => exact List.pairwise_singleton _ _
  | cons x rest ih =>
      rcases List.pairwise_cons.mp h with ⟨hfirst, hrest⟩
      rw [insert]
      split
      · rename_i hlt
        apply List.pairwise_cons.mpr ⟨?_, h⟩
        intro y hy
        cases List.mem_cons.mp hy with
        | inl heq =>
            rw [heq]
            exact hlt
        | inr hmem => exact lt_trans hlt (hfirst y hmem)
      · rename_i hnot
        split
        · rename_i heq
          apply List.pairwise_cons.mpr ⟨?_, hrest⟩
          intro y hy
          show k < y.1
          rw [heq]
          exact hfirst y hy
        · rename_i hne
          apply List.pairwise_cons.mpr ⟨?_, ih hrest⟩
          intro y hy
          cases mem_insert hy with
          | inl heq =>
              rw [heq]
              exact lt_of_le_of_ne (not_lt.mp hnot) (Ne.symm hne)
          | inr hmem => exact hfirst y hmem

theorem find_insert (k : κ) (v : ν) (m : List (κ × ν)) (key : κ) :
    find key (insert k v m) = if key = k then some v else find key m := by
  induction m with
  | nil => rfl
  | cons x rest ih =>
      rw [insert]
      split
      · rfl
      · split
        · rename_i heq
          by_cases hkey : key = k
          · rw [find, if_pos hkey, if_pos hkey]
          · have hother : ¬ key = x.1 := heq ▸ hkey
            rw [find, if_neg hkey, if_neg hkey, find, if_neg hother]
        · rename_i hne
          by_cases hfirst : key = x.1
          · have hother : ¬ key = k := by
              rw [hfirst]
              exact Ne.symm hne
            rw [find, if_pos hfirst, if_neg hother, find, if_pos hfirst]
          · rw [find, if_neg hfirst, ih, find, if_neg hfirst]

theorem find_eq_none {m : List (κ × ν)} {k : κ}
    (h : forall x, x ∈ m -> k < x.1) : find k m = none := by
  induction m with
  | nil => rfl
  | cons x rest ih =>
      have hne : ¬ k = x.1 := ne_of_lt (h x List.mem_cons_self)
      rw [find, if_neg hne]
      exact ih fun y hy => h y (List.mem_cons_of_mem x hy)

theorem find_of_mem {m : List (κ × ν)} (h : Ordered m) {x : κ × ν}
    (hx : x ∈ m) : find x.1 m = some x.2 := by
  induction m with
  | nil => cases hx
  | cons y rest ih =>
      rcases List.pairwise_cons.mp h with ⟨hfirst, hrest⟩
      cases List.mem_cons.mp hx with
      | inl heq => rw [heq, find, if_pos rfl]
      | inr hmem =>
          have hne : ¬ x.1 = y.1 := ne_of_gt (hfirst x hmem)
          rw [find, if_neg hne]
          exact ih hrest hmem

theorem mem_of_find {m : List (κ × ν)} {k : κ} {v : ν}
    (h : find k m = some v) : (k, v) ∈ m := by
  induction m with
  | nil => cases h
  | cons x rest ih =>
      rw [find] at h
      split at h
      · rename_i heq
        rw [heq, ← Option.some.inj h]
        exact List.mem_cons_self
      · exact List.mem_cons_of_mem x (ih h)

theorem ordered_ext {m m' : List (κ × ν)} (h : Ordered m) (h' : Ordered m')
    (hfind : forall k, find k m = find k m') : m = m' := by
  induction m generalizing m' with
  | nil =>
      cases m' with
      | nil => rfl
      | cons y rest' =>
          have hfirst := hfind y.1
          rw [find, find, if_pos rfl] at hfirst
          cases hfirst
  | cons x rest ih =>
      cases m' with
      | nil =>
          have hfirst := hfind x.1
          rw [find_of_mem h List.mem_cons_self] at hfirst
          cases hfirst
      | cons y rest' =>
          rcases List.pairwise_cons.mp h with ⟨hx, hrest⟩
          rcases List.pairwise_cons.mp h' with ⟨hy, hrest'⟩
          have hxfind := find_of_mem h List.mem_cons_self
          have hyfind := find_of_mem h' List.mem_cons_self
          rw [hfind] at hxfind
          rw [← hfind] at hyfind
          have hkey : x.1 = y.1 := by
            have hxmem := mem_of_find hxfind
            have hymem := mem_of_find hyfind
            apply le_antisymm
            · cases List.mem_cons.mp hymem with
              | inl heq => rw [← heq]
              | inr hmem => exact le_of_lt (hx _ hmem)
            · cases List.mem_cons.mp hxmem with
              | inl heq => rw [← heq]
              | inr hmem => exact le_of_lt (hy _ hmem)
          have hvalue : x.2 = y.2 := by
            rw [find, if_pos hkey] at hxfind
            exact (Option.some.inj hxfind).symm
          rw [Prod.ext hkey hvalue]
          congr 1
          apply ih hrest hrest'
          intro k
          by_cases hk : k = x.1
          · rw [hk, find_eq_none hx]
            rw [hkey]
            exact (find_eq_none hy).symm
          · have hone := hfind k
            have hk' : ¬ k = y.1 := hkey ▸ hk
            rwa [find, if_neg hk, find, if_neg hk'] at hone

/-!
## Maps of lists
-/

theorem ordered_foldl (xs : List (κ × ν)) {m : List (κ × ν)} (h : Ordered m) :
    Ordered (xs.foldl (fun m x => insert x.1 x.2 m) m) := by
  induction xs generalizing m with
  | nil => exact h
  | cons x xs ih => exact ih (ordered_insert x.1 x.2 h)

theorem ordered_ofList (xs : List (κ × ν)) : Ordered (ofList xs) :=
  ordered_foldl xs List.Pairwise.nil

theorem find_append (k : κ) (xs ys : List (κ × ν)) :
    find k (xs ++ ys) = (find k xs).or (find k ys) := by
  induction xs with
  | nil => rfl
  | cons x xs ih =>
      rw [List.cons_append, find, find]
      split
      · rfl
      · exact ih

theorem find_foldl (xs m : List (κ × ν)) (k : κ) :
    find k (xs.foldl (fun m x => insert x.1 x.2 m) m) =
      (find k xs.reverse).or (find k m) := by
  induction xs generalizing m with
  | nil => rfl
  | cons x xs ih =>
      rw [List.foldl_cons, ih, find_insert, List.reverse_cons, find_append,
        Option.or_assoc]
      congr 1
      rw [find, find]
      split <;> rfl

theorem find_ofList (xs : List (κ × ν)) (k : κ) :
    find k (ofList xs) = find k xs.reverse := by
  rw [ofList, find_foldl]
  cases find k xs.reverse <;> rfl

/-- The order of different keys does not matter. -/
theorem find_perm {xs ys : List (κ × ν)} (h : xs.Perm ys)
    (hkeys : (xs.map Prod.fst).Nodup) (k : κ) : find k xs = find k ys := by
  induction h with
  | nil => rfl
  | cons x h ih =>
      have hrest := (List.nodup_cons.mp hkeys).right
      rw [find, find, ih hrest]
  | swap x y l =>
      have hne : ¬ x.1 = y.1 := by
        intro heq
        simp [heq] at hkeys
      simp only [find]
      split
      · rename_i hky
        have hkx : ¬ k = x.1 := by
          rw [hky]
          exact Ne.symm hne
        rw [if_neg hkx]
      · rfl
  | trans h h' ih ih' =>
      rw [ih hkeys]
      exact ih' ((h.map Prod.fst).nodup_iff.mp hkeys)

theorem ofList_perm {xs ys : List (κ × ν)} (h : xs.Perm ys)
    (hkeys : (xs.map Prod.fst).Nodup) : ofList xs = ofList ys := by
  apply ordered_ext (ordered_ofList xs) (ordered_ofList ys)
  intro k
  have hreverse : (xs.reverse.map Prod.fst).Nodup := by
    rw [List.map_reverse]
    exact List.nodup_reverse.mpr hkeys
  have hperm : xs.reverse.Perm ys.reverse :=
    (xs.reverse_perm.trans h).trans ys.reverse_perm.symm
  rw [find_ofList, find_ofList, find_perm hperm hreverse]

/-!
## The number of a key
-/

def rank (k : κ) (m : List (κ × ν)) : Nat :=
  m.countP fun x => x.1 < k

theorem rank_cons (k : κ) (x : κ × ν) (m : List (κ × ν)) :
    rank k (x :: m) = rank k m + if x.1 < k then 1 else 0 := by
  rw [rank, List.countP_cons, rank]
  by_cases h : x.1 < k
  · rw [decide_eq_true h, if_pos rfl, if_pos h]
  · rw [decide_eq_false h, if_neg Bool.false_ne_true, if_neg h]

theorem getElem?_eq_some_iff {m : List (κ × ν)} (h : Ordered m) {i : Nat}
    {x : κ × ν} : m[i]? = some x <-> x ∈ m ∧ i = rank x.1 m := by
  induction m generalizing i with
  | nil =>
      constructor
      · intro hget
        cases hget
      · rintro ⟨hmem, -⟩
        cases hmem
  | cons y rest ih =>
      rcases List.pairwise_cons.mp h with ⟨hfirst, hrest⟩
      have hown : rank y.1 (y :: rest) = 0 := by
        rw [rank_cons, if_neg (lt_irrefl y.1), Nat.add_zero, rank,
          List.countP_eq_zero]
        intro z hz hless
        exact lt_asymm (hfirst z hz) (of_decide_eq_true hless)
      cases i with
      | zero =>
          constructor
          · intro hget
            rw [← Option.some.inj hget]
            exact ⟨List.mem_cons_self, hown.symm⟩
          · rintro ⟨hmem, hrank⟩
            cases List.mem_cons.mp hmem with
            | inl heq => rw [heq]; rfl
            | inr hx =>
                rw [rank_cons, if_pos (hfirst x hx)] at hrank
                omega
      | succ i =>
          rw [List.getElem?_cons_succ, ih hrest]
          constructor
          · rintro ⟨hmem, hrank⟩
            refine ⟨List.mem_cons_of_mem y hmem, ?_⟩
            rw [rank_cons, if_pos (hfirst x hmem), hrank]
          · rintro ⟨hmem, hrank⟩
            cases List.mem_cons.mp hmem with
            | inl heq =>
                rw [heq, hown] at hrank
                cases hrank
            | inr hx =>
                rw [rank_cons, if_pos (hfirst x hx)] at hrank
                exact ⟨hx, Nat.succ.inj hrank⟩

/-- A new key moves those above it by one. -/
theorem rank_insert {k : κ} {m : List (κ × ν)} (v : ν)
    (hnew : forall x, x ∈ m -> x.1 ≠ k) (key : κ) :
    rank key (insert k v m) = rank key m + if k < key then 1 else 0 := by
  induction m with
  | nil => exact rank_cons key (k, v) []
  | cons x rest ih =>
      rw [insert]
      split
      · exact rank_cons key (k, v) (x :: rest)
      · have hne : ¬ k = x.1 := Ne.symm (hnew x List.mem_cons_self)
        rw [if_neg hne, rank_cons, rank_cons,
          ih fun y hy => hnew y (List.mem_cons_of_mem x hy)]
        omega

theorem mem_insert_of_mem {k : κ} {m : List (κ × ν)} (v : ν) {x : κ × ν}
    (hx : x ∈ m) (hne : x.1 ≠ k) : x ∈ insert k v m := by
  induction m with
  | nil => cases hx
  | cons y rest ih =>
      rw [insert]
      split
      · exact List.mem_cons_of_mem _ hx
      · split
        · rename_i heq
          cases List.mem_cons.mp hx with
          | inl hfirst =>
              rw [hfirst] at hne
              exact absurd heq.symm hne
          | inr hrest => exact List.mem_cons_of_mem _ hrest
        · cases List.mem_cons.mp hx with
          | inl hfirst =>
              rw [hfirst]
              exact List.mem_cons_self
          | inr hrest => exact List.mem_cons_of_mem _ (ih hrest)

end Sorted
end Foundation
end BeeGadz
