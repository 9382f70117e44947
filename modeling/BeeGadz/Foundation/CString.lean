import Mathlib.Data.List.Basic

/-!
# Strings that end at a zero

A string in memory ends at its first zero, which is found by looking at one cell
after another.  The module gives the text of such a string together with the
cells that are looked at, and says when they are among the first ones.
-/

namespace BeeGadz
namespace Foundation
namespace CString

variable {α : Type} [DecidableEq α] {zero : α}

/-- The offsets that are read, counted from `off` on, and the text before the
zero. -/
def readFrom (zero : α) : Nat -> List α -> List Nat × List α
  | _, [] => ([], [])
  | off, x :: xs =>
      if x = zero then ([off], [])
      else
        let rest := readFrom zero (off + 1) xs
        (off :: rest.1, x :: rest.2)

def read (zero : α) (memory : List α) : List Nat × List α :=
  readFrom zero 0 memory

theorem readFrom_text (off : Nat) (xs : List α) :
    (readFrom zero off xs).2 = xs.takeWhile fun x => x ≠ zero := by
  induction xs generalizing off with
  | nil => rfl
  | cons x xs ih =>
      by_cases hx : x = zero
      · simp [readFrom, hx]
      · simp [readFrom, hx, ih]

theorem readFrom_offsets {xs : List α} (h : zero ∈ xs) (off : Nat) :
    (readFrom zero off xs).1 =
      List.range' off ((xs.takeWhile fun x => x ≠ zero).length + 1) := by
  induction xs generalizing off with
  | nil => cases h
  | cons x xs ih =>
      by_cases hx : x = zero
      · simp [readFrom, hx]
      · have hrest : zero ∈ xs := List.mem_of_ne_of_mem (Ne.symm hx) h
        simp [readFrom, hx, ih hrest, List.range'_succ]

theorem length_takeWhile_lt_iff {xs : List α} {n : Nat} (h : zero ∈ xs) :
    (xs.takeWhile fun x => x ≠ zero).length < n <-> zero ∈ xs.take n := by
  induction xs generalizing n with
  | nil => cases h
  | cons x xs ih =>
      cases n with
      | zero => simp
      | succ n =>
          by_cases hx : x = zero
          · simp [hx]
          · have hne : zero ≠ x := Ne.symm hx
            have hrest : zero ∈ xs := List.mem_of_ne_of_mem hne h
            simpa [hx, hne] using ih (n := n) hrest

theorem offsets_lt_iff {xs : List α} {n : Nat} (h : zero ∈ xs) :
    (forall off, off ∈ (read zero xs).1 -> off < n) <-> zero ∈ xs.take n := by
  rw [← length_takeWhile_lt_iff h, read, readFrom_offsets h]
  simp only [List.mem_range', Nat.one_mul, Nat.zero_add]
  constructor
  · intro hall
    exact hall _ ⟨_, Nat.lt_succ_self _, rfl⟩
  · rintro hlength off ⟨i, hi, rfl⟩
    exact Nat.lt_of_le_of_lt (Nat.lt_succ_iff.mp hi) hlength

theorem exists_takeWhile_append {xs : List α} (h : zero ∈ xs) :
    zero ∉ (xs.takeWhile fun x => x ≠ zero) ∧
      exists rest, xs = (xs.takeWhile fun x => x ≠ zero) ++ zero :: rest := by
  induction xs with
  | nil => cases h
  | cons x xs ih =>
      by_cases hx : x = zero
      · simp [hx]
      · have hrest : zero ∈ xs := List.mem_of_ne_of_mem (Ne.symm hx) h
        rcases ih hrest with ⟨htext, rest, hsplit⟩
        have hcons : ((x :: xs).takeWhile fun x => x ≠ zero) =
            x :: xs.takeWhile fun x => x ≠ zero := by
          simp [hx]
        rw [hcons]
        constructor
        · rw [List.mem_cons, not_or]
          exact ⟨Ne.symm hx, htext⟩
        · exact ⟨rest, by rw [List.cons_append, ← hsplit]⟩

theorem takeWhile_eq_iff {xs text : List α} (h : zero ∈ xs) :
    (xs.takeWhile fun x => x ≠ zero) = text <->
      zero ∉ text ∧ exists rest, xs = text ++ zero :: rest := by
  constructor
  · rintro rfl
    exact exists_takeWhile_append h
  · rintro ⟨htext, rest, rfl⟩
    rw [List.takeWhile_append_of_pos]
    · simp
    · intro x hx
      have hne : x ≠ zero := fun hzero => htext (hzero ▸ hx)
      simpa using hne

end CString
end Foundation
end BeeGadz
