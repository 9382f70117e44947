import Mathlib.Algebra.Group.Basic

/-!
# Runs of a loop

One round of a loop takes an input and the state at the loop head, and gives the
state at the next head or leaves the loop.  The module defines the runs of such
a loop, the transitions they consist of, and two ways to reason about them: an
invariant of the heads, and a quantity that every transition changes by a known
amount.
-/

namespace BeeGadz
namespace Foundation

structure Transition (ι σ : Type) where
  before : σ
  input : ι
  after : σ

namespace Run

variable {ι σ : Type}

def head (step : ι -> σ -> Option σ) : List ι -> σ -> Option σ
  | [], s => some s
  | i :: is, s =>
      match step i s with
      | none => none
      | some t => head step is t

def transitions (step : ι -> σ -> Option σ) :
    List ι -> σ -> List (Transition ι σ)
  | [], _ => []
  | i :: is, s =>
      match step i s with
      | none => []
      | some t => ⟨s, i, t⟩ :: transitions step is t

def total {M : Type} [AddMonoid M] (step : ι -> σ -> Option σ)
    (f : Transition ι σ -> M) (is : List ι) (s : σ) : M :=
  ((transitions step is s).map f).sum

variable {step : ι -> σ -> Option σ}

theorem mem_transitions_cons {i : ι} {is : List ι} {s : σ}
    {t : Transition ι σ} :
    t ∈ transitions step (i :: is) s <->
      exists next, step i s = some next ∧
        (t = ⟨s, i, next⟩ ∨ t ∈ transitions step is next) := by
  cases hstep : step i s with
  | none => simp [transitions, hstep]
  | some next => simp [transitions, hstep]

theorem mem_transitions_head {i : ι} {is : List ι} {s next : σ}
    (h : step i s = some next) :
    (⟨s, i, next⟩ : Transition ι σ) ∈ transitions step (i :: is) s :=
  mem_transitions_cons.mpr ⟨next, h, Or.inl rfl⟩

theorem mem_transitions_tail {i : ι} {is : List ι} {s next : σ}
    {t : Transition ι σ} (h : step i s = some next)
    (ht : t ∈ transitions step is next) : t ∈ transitions step (i :: is) s :=
  mem_transitions_cons.mpr ⟨next, h, Or.inr ht⟩

theorem head_cons {i : ι} {is : List ι} {s t : σ} :
    head step (i :: is) s = some t <->
      exists next, step i s = some next ∧ head step is next = some t := by
  cases hstep : step i s with
  | none => simp [head, hstep]
  | some next => simp [head, hstep]

theorem mem_transitions_step {is : List ι} {s : σ} {t : Transition ι σ}
    (h : t ∈ transitions step is s) : step t.input t.before = some t.after := by
  induction is generalizing s with
  | nil => cases h
  | cons i is ih =>
      rcases mem_transitions_cons.mp h with ⟨next, hstep, rfl | hrest⟩
      · exact hstep
      · exact ih hrest

theorem mem_transitions_input {is : List ι} {s : σ} {t : Transition ι σ}
    (h : t ∈ transitions step is s) : t.input ∈ is := by
  induction is generalizing s with
  | nil => cases h
  | cons i is ih =>
      rcases mem_transitions_cons.mp h with ⟨next, _, rfl | hrest⟩
      · exact List.mem_cons_self
      · exact List.mem_cons_of_mem i (ih hrest)

theorem invariant_head {I : σ -> Prop} {is : List ι} {s t : σ}
    (hkeep : forall r, r ∈ transitions step is s -> I r.before -> I r.after)
    (hs : I s) (h : head step is s = some t) : I t := by
  induction is generalizing s with
  | nil =>
      cases h
      exact hs
  | cons i is ih =>
      rcases head_cons.mp h with ⟨next, hstep, hrest⟩
      have hfirst : I next := hkeep _ (mem_transitions_head hstep) hs
      apply ih _ hfirst hrest
      intro r hr
      exact hkeep r (mem_transitions_tail hstep hr)

theorem invariant_before {I : σ -> Prop} {is : List ι} {s : σ}
    (hkeep : forall r, r ∈ transitions step is s -> I r.before -> I r.after)
    (hs : I s) {r : Transition ι σ} (hr : r ∈ transitions step is s) :
    I r.before := by
  induction is generalizing s with
  | nil => cases hr
  | cons i is ih =>
      rcases mem_transitions_cons.mp hr with ⟨next, hstep, hcase⟩
      cases hcase with
      | inl heq =>
          rw [heq]
          exact hs
      | inr hrest =>
          have hfirst : I next := hkeep _ (mem_transitions_head hstep) hs
          apply ih _ hfirst hrest
          intro r hr
          exact hkeep r (mem_transitions_tail hstep hr)

/-- An invariant of the heads that also speaks about the rounds before them. -/
theorem invariant_history {I : List (Transition ι σ) -> σ -> Prop}
    {past : List (Transition ι σ)} {is : List ι} {s t : σ}
    (hkeep : forall past s i t, I past s -> step i s = some t ->
      I (past ++ [⟨s, i, t⟩]) t)
    (hs : I past s) (h : head step is s = some t) :
    I (past ++ transitions step is s) t := by
  induction is generalizing past s with
  | nil =>
      cases h
      simpa [transitions] using hs
  | cons i is ih =>
      rcases head_cons.mp h with ⟨next, hstep, hrest⟩
      have hlater := ih (hkeep past s i next hs hstep) hrest
      simpa [transitions, hstep] using hlater

theorem invariant_earlier {I : List (Transition ι σ) -> σ -> Prop}
    {past front back : List (Transition ι σ)} {r : Transition ι σ}
    {is : List ι} {s : σ}
    (hkeep : forall past s i t, I past s -> step i s = some t ->
      I (past ++ [⟨s, i, t⟩]) t)
    (hs : I past s) (h : transitions step is s = front ++ r :: back) :
    I (past ++ front) r.before := by
  induction is generalizing past s front with
  | nil => simp [transitions] at h
  | cons i is ih =>
      cases hstep : step i s with
      | none => simp [transitions, hstep] at h
      | some next =>
          simp only [transitions, hstep] at h
          cases front with
          | nil =>
              rw [List.nil_append, List.cons.injEq] at h
              rw [← h.left, List.append_nil]
              exact hs
          | cons q front =>
              rw [List.cons_append, List.cons.injEq] at h
              have hlater := ih (hkeep past s i next hs hstep) h.right
              rwa [h.left, List.append_assoc] at hlater

theorem related_head {α : Type} {R : List α -> σ -> σ -> Prop}
    {f : Transition ι σ -> List α} (hnil : forall s, R [] s s)
    (htrans : forall as bs s t u, R as s t -> R bs t u -> R (as ++ bs) s u)
    {is : List ι} {s t : σ}
    (hround : forall r, r ∈ transitions step is s -> R (f r) r.before r.after)
    (h : head step is s = some t) :
    R ((transitions step is s).flatMap f) s t := by
  induction is generalizing s with
  | nil =>
      cases h
      exact hnil _
  | cons i is ih =>
      rcases head_cons.mp h with ⟨next, hstep, hrest⟩
      have hfirst : R (f ⟨s, i, next⟩) s next :=
        hround _ (mem_transitions_head hstep)
      have hlater := ih
        (fun r hr => hround r (mem_transitions_tail hstep hr)) hrest
      simp only [transitions, hstep, List.flatMap_cons]
      exact htrans _ _ _ _ _ hfirst hlater

theorem transitions_isPrefix {first is : List ι} {s : σ}
    (h : first <+: is) : transitions step first s <+: transitions step is s := by
  induction first generalizing is s with
  | nil => exact List.nil_prefix
  | cons i first ih =>
      cases is with
      | nil => simp at h
      | cons j is =>
          rw [List.cons_prefix_cons] at h
          rcases h with ⟨rfl, hrest⟩
          cases hstep : step i s with
          | none => simp [transitions, hstep]
          | some next =>
              simp only [transitions, hstep, List.cons_prefix_cons, true_and]
              exact ih hrest

theorem transitions_single {i : ι} {s t : σ} (h : step i s = some t) :
    transitions step [i] s = [⟨s, i, t⟩] := by
  simp [transitions, h]

theorem mem_transitions_single {i : ι} {s t : σ} (h : step i s = some t) :
    ⟨s, i, t⟩ ∈ transitions step [i] s :=
  transitions_single h ▸ List.mem_singleton_self _

theorem transitions_concat {is : List ι} {i : ι} {s t u : σ}
    (hhead : head step is s = some t) (h : step i t = some u) :
    transitions step (is ++ [i]) s = transitions step is s ++ [⟨t, i, u⟩] := by
  induction is generalizing s with
  | nil =>
      cases hhead
      exact transitions_single h
  | cons j is ih =>
      rcases head_cons.mp hhead with ⟨next, hstep, hrest⟩
      simp [transitions, hstep, ih hrest]

/-- A property that every round keeps exactly under a condition on the round
holds at the head exactly when it held before and all rounds met the
condition. -/
theorem kept_head_iff {P : σ -> Prop} {Q : Transition ι σ -> Prop}
    {is : List ι} {s t : σ}
    (hstep : forall r, r ∈ transitions step is s ->
      (P r.after <-> P r.before ∧ Q r))
    (h : head step is s = some t) :
    P t <-> P s ∧ forall r, r ∈ transitions step is s -> Q r := by
  induction is generalizing s with
  | nil =>
      cases h
      simp [transitions]
  | cons i is ih =>
      rcases head_cons.mp h with ⟨next, hfirst, hrest⟩
      have hone : P next <-> P s ∧ Q ⟨s, i, next⟩ :=
        hstep _ (mem_transitions_head hfirst)
      have hlater := ih
        (fun r hr => hstep r (mem_transitions_tail hfirst hr)) hrest
      simp only [transitions, hfirst, List.forall_mem_cons]
      rw [hlater, hone, and_assoc]

/-- A property that holds from the first round on that brings it about. -/
theorem reached_head_iff {P : σ -> Prop} {Q : Transition ι σ -> Prop}
    {is : List ι} {s t : σ}
    (hstep : forall r, r ∈ transitions step is s ->
      (P r.after <-> P r.before ∨ Q r))
    (h : head step is s = some t) :
    P t <-> P s ∨ exists r, r ∈ transitions step is s ∧ Q r := by
  have hkept := kept_head_iff (P := fun s => ¬ P s) (Q := fun r => ¬ Q r)
    (fun r hr => by rw [hstep r hr, not_or]) h
  rw [← not_iff_not, hkept, not_or]
  simp

section Balance

variable {M : Type} [AddCommGroup M] {g : σ -> M} {f : Transition ι σ -> M}

theorem total_nil (s : σ) : total step f [] s = 0 := rfl

theorem total_cons {i : ι} {is : List ι} {s next : σ}
    (h : step i s = some next) :
    total step f (i :: is) s = f ⟨s, i, next⟩ + total step f is next := by
  simp [total, transitions, h]

theorem balance_of_rounds {is : List ι} {s t : σ}
    (hround : forall r, r ∈ transitions step is s ->
      g r.after = g r.before + f r)
    (h : head step is s = some t) : g t = g s + total step f is s := by
  induction is generalizing s with
  | nil =>
      cases h
      rw [total_nil, add_zero]
  | cons i is ih =>
      rcases head_cons.mp h with ⟨next, hstep, hhead⟩
      have hfirst : g next = g s + f ⟨s, i, next⟩ :=
        hround _ (mem_transitions_head hstep)
      have hrest : g t = g next + total step f is next := by
        apply ih _ hhead
        intro r hr
        exact hround r (mem_transitions_tail hstep hr)
      rw [hrest, hfirst, total_cons hstep, add_assoc]

/-- The balance holds at every head of a run exactly when every round keeps
it. -/
theorem balance_iff {is : List ι} {s : σ} :
    (forall first t, first <+: is -> head step first s = some t ->
      g t = g s + total step f first s) <->
      forall r, r ∈ transitions step is s -> g r.after = g r.before + f r := by
  constructor
  · intro hheads r hr
    induction is generalizing s with
    | nil => cases hr
    | cons i is ih =>
        rcases mem_transitions_cons.mp hr with ⟨next, hstep, hcase⟩
        have hone : g next = g s + f ⟨s, i, next⟩ := by
          have hhead := hheads [i] next (by simp) (by simp [head, hstep])
          rwa [total_cons hstep, total_nil, add_zero] at hhead
        cases hcase with
        | inl heq =>
            rw [heq]
            exact hone
        | inr hrest =>
            apply ih ?_ hrest
            intro first t hfirst hhead
            have hlong := hheads (i :: first) t (by simpa using hfirst)
              (head_cons.mpr ⟨next, hstep, hhead⟩)
            rw [hlong, total_cons hstep, hone, add_assoc]
  · intro hround first t hfirst hhead
    apply balance_of_rounds ?_ hhead
    intro r hr
    exact hround r ((transitions_isPrefix hfirst).subset hr)

end Balance

end Run

end Foundation
end BeeGadz
