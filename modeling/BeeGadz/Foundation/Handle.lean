import Mathlib.Data.List.Basic

/-!
# Handles in a log of calls

The calls of a library hand out handles and take them back.  The module reads
from a log of such calls which handles of a kind were acquired and how often each
was released, and says what it is for every call to be allowed by the calls
before it.
-/

namespace BeeGadz
namespace Foundation

/-!
## Calls allowed by the calls before them
-/

section Lawful

variable {ε : Type} {allowed : List ε -> ε -> Prop}

def Lawful (allowed : List ε -> ε -> Prop) (log : List ε) : Prop :=
  forall before e after, log = before ++ e :: after -> allowed before e

theorem lawful_nil : Lawful allowed [] := by
  intro before e after h
  simp at h

theorem lawful_concat {log : List ε} {e : ε} :
    Lawful allowed (log ++ [e]) <-> Lawful allowed log ∧ allowed log e := by
  constructor
  · intro h
    constructor
    · intro before e' after hlog
      exact h before e' (after ++ [e]) (by simp [hlog])
    · exact h log e [] rfl
  · intro h before e' after hlog
    rcases List.eq_nil_or_concat after with rfl | ⟨rest, last, rfl⟩
    · have hsame := List.append_inj' hlog rfl
      rw [← hsame.left, ← (List.cons.inj hsame.right).left]
      exact h.right
    · have hlonger : log ++ [e] = (before ++ e' :: rest) ++ [last] := by
        simpa using hlog
      exact h.left before e' rest (List.append_inj' hlonger rfl).left

end Lawful

/-!
## Handles of a kind
-/

/-- The handle of a kind that an event acquires, and the one it releases. -/
structure Kind (ε κ : Type) where
  acquired : ε -> Option κ
  released : ε -> Option κ

namespace Kind

variable {ε κ : Type} [DecidableEq κ]

def Acquired (K : Kind ε κ) (log : List ε) (h : κ) : Prop :=
  exists e, e ∈ log ∧ K.acquired e = some h

def releases (K : Kind ε κ) (log : List ε) (h : κ) : Nat :=
  log.countP fun e => decide (K.released e = some h)

def Alive (K : Kind ε κ) (log : List ε) (h : κ) : Prop :=
  K.Acquired log h ∧ K.releases log h = 0

/-- Every handle that was acquired is still held and was not released, or was
released exactly once. -/
def Accounted (K : Kind ε κ) (log : List ε) (held : κ -> Prop) : Prop :=
  forall h, K.Acquired log h ->
    (held h -> K.releases log h = 0) ∧ (¬ held h -> K.releases log h = 1)

variable {K : Kind ε κ} {log : List ε} {e : ε} {h : κ}

omit [DecidableEq κ] in
theorem not_acquired_nil : ¬ K.Acquired [] h := by
  simp [Acquired]

omit [DecidableEq κ] in
theorem acquired_concat :
    K.Acquired (log ++ [e]) h <-> K.Acquired log h ∨ K.acquired e = some h := by
  simp [Acquired, or_and_right, exists_or]

theorem releases_concat :
    K.releases (log ++ [e]) h =
      K.releases log h + if K.released e = some h then 1 else 0 := by
  simp [releases, List.countP_append, List.countP_singleton]

theorem releases_idle (he : K.released e = none) :
    K.releases (log ++ [e]) h = K.releases log h := by
  simp [releases_concat, he]

theorem old_concat {K : Kind ε Nat}
    (hold : forall h, K.Acquired log h -> h < log.length)
    (he : forall h, K.acquired e = some h -> h ≤ log.length) (h : Nat)
    (hacquired : K.Acquired (log ++ [e]) h) : h < (log ++ [e]).length := by
  rw [List.length_append, List.length_singleton]
  rcases acquired_concat.mp hacquired with hbefore | hnow
  · exact Nat.lt_succ_of_lt (hold h hbefore)
  · exact Nat.lt_succ_of_le (he h hnow)

def Given (K : Kind ε κ) (log : List ε) : Prop :=
  forall h, K.releases log h ≠ 0 -> K.Acquired log h

theorem Given.concat (hgiven : K.Given log)
    (he : forall h, K.released e = some h -> K.Acquired log h) :
    K.Given (log ++ [e]) := by
  intro h hreleases
  rw [releases_concat] at hreleases
  rw [acquired_concat]
  by_cases hnow : K.released e = some h
  · exact Or.inl (he h hnow)
  · rw [if_neg hnow, Nat.add_zero] at hreleases
    exact Or.inl (hgiven h hreleases)

theorem Given.alive_concat (hgiven : K.Given log) (hnew : ¬ K.Acquired log h)
    (hacquired : K.acquired e = some h) (hreleased : K.released e = none) :
    K.Alive (log ++ [e]) h := by
  have hnone : K.releases log h = 0 := by
    by_contra hsome
    exact hnew (hgiven h hsome)
  constructor
  · exact acquired_concat.mpr (Or.inr hacquired)
  · simp [releases_concat, hnone, hreleased]

theorem Alive.concat (halive : K.Alive log h)
    (he : K.released e ≠ some h) : K.Alive (log ++ [e]) h := by
  constructor
  · exact acquired_concat.mpr (Or.inl halive.left)
  · rw [releases_concat, halive.right, if_neg he]

section Accounted

variable {held held' : κ -> Prop}

theorem accounted_congr
    (hsame : forall h, K.Acquired log h -> (held h <-> held' h)) :
    K.Accounted log held <-> K.Accounted log held' := by
  apply forall_congr'
  intro h
  apply forall_congr'
  intro hacquired
  rw [hsame h hacquired]

theorem accounted_idle (hacquired : K.acquired e = none)
    (hreleased : K.released e = none) :
    K.Accounted (log ++ [e]) held <-> K.Accounted log held := by
  simp [Accounted, acquired_concat, releases_concat, hacquired, hreleased]

theorem accounted_acquire (hgiven : K.Given log) (hnew : ¬ K.Acquired log h)
    (hacquired : K.acquired e = some h) (hreleased : K.released e = none) :
    K.Accounted (log ++ [e]) held <-> K.Accounted log held ∧ held h := by
  have halive := hgiven.alive_concat hnew hacquired hreleased
  have hkept : forall g, K.releases (log ++ [e]) g = K.releases log g :=
    fun g => releases_idle hreleased
  constructor
  · intro hall
    constructor
    · intro g hg
      have hlater := hall g (acquired_concat.mpr (Or.inl hg))
      rwa [hkept] at hlater
    · by_contra hheld
      have hone := (hall h halive.left).right hheld
      rw [halive.right] at hone
      cases hone
  · intro hall g hg
    rw [hkept]
    rcases acquired_concat.mp hg with hold | hnow
    · exact hall.left g hold
    · rw [hacquired] at hnow
      cases hnow
      constructor
      · intro _
        rw [← hkept]
        exact halive.right
      · intro hheld
        exact absurd hall.right hheld

theorem accounted_release (halive : K.Alive log h)
    (hacquired : K.acquired e = none) (hreleased : K.released e = some h)
    (hbefore : held h) (hafter : ¬ held' h)
    (hothers : forall g, g ≠ h -> (held g <-> held' g)) :
    K.Accounted (log ++ [e]) held' <-> K.Accounted log held := by
  apply forall_congr'
  intro g
  rw [acquired_concat, hacquired, releases_concat, hreleased]
  simp only [reduceCtorEq, or_false, Option.some.injEq]
  by_cases hg : h = g
  · subst hg
    simp [halive.right, hbefore, hafter]
  · rw [if_neg hg, Nat.add_zero, hothers g (Ne.symm hg)]

end Accounted

end Kind

end Foundation
end BeeGadz
