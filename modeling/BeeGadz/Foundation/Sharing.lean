import BeeGadz.Foundation.Run
import Mathlib.Algebra.BigOperators.Group.Finset.Basic
import Mathlib.Algebra.BigOperators.Group.Finset.Piecewise

/-!
# Parts that share a state

Several parts with states of their own take turns at a state that they share:
it is handed to the part whose turn it is, and taken back afterwards.  What the
turns do to the shared state is told by entries, and every part keeps a list of
what it did.  After any turns, in any order, the shared state is that of the
entries of all parts, and the list of a part is that of its own entries.
-/

namespace BeeGadz
namespace Foundation

structure Shared (ι σ τ : Type) where
  common : σ
  parts : ι -> τ

namespace Shared

variable {ι σ τ α ε ω : Type} [DecidableEq ι]

def own (i : ι) (entries : List (ι × ε)) : List ε :=
  (entries.filter fun e => e.1 = i).map Prod.snd

omit [DecidableEq ι] in
theorem map_snd_tagged (i : ι) (entries : List ε) :
    (entries.map fun e => (i, e)).map Prod.snd = entries := by
  rw [List.map_map]
  exact List.map_id entries

theorem own_append (i : ι) (first second : List (ι × ε)) :
    own i (first ++ second) = own i first ++ own i second := by
  rw [own, List.filter_append, List.map_append]
  rfl

theorem own_tagged_self (i : ι) (entries : List ε) :
    own i (entries.map fun e => (i, e)) = entries := by
  have hall : (entries.map fun e => (i, e)).filter (fun e => e.1 = i) =
      entries.map fun e => (i, e) := by
    simp
  rw [own, hall, map_snd_tagged]

theorem own_tagged_of_ne {i j : ι} (h : i ≠ j) (entries : List ε) :
    own j (entries.map fun e => (i, e)) = [] := by
  simp [own, h]

section Turns

variable (view : τ -> σ) (put : σ -> τ -> τ) (step : ι -> α -> τ -> Option τ)

def turn (x : ι × α) (s : Shared ι σ τ) : Option (Shared ι σ τ) :=
  match step x.1 x.2 (put s.common (s.parts x.1)) with
  | none => none
  | some t => some ⟨view t, Function.update s.parts x.1 t⟩

def entered (f : ι -> α -> τ -> List ε) (xs : List (ι × α))
    (s : Shared ι σ τ) : List (ι × ε) :=
  (Run.transitions (turn view put step) xs s).flatMap fun r =>
    (f r.input.1 r.input.2
      (put r.before.common (r.before.parts r.input.1))).map
        fun e => (r.input.1, e)

variable {view put step}

theorem turn_eq_some {x : ι × α} {s s' : Shared ι σ τ} :
    turn view put step x s = some s' <->
      exists t, step x.1 x.2 (put s.common (s.parts x.1)) = some t ∧
        s' = ⟨view t, Function.update s.parts x.1 t⟩ := by
  unfold turn
  cases step x.1 x.2 (put s.common (s.parts x.1)) with
  | none => simp
  | some t => simp [eq_comm]

variable (R : List ε -> σ -> σ -> Prop) (out : τ -> List ω)
  (post : ε -> List ω) {f : ι -> α -> τ -> List ε}

theorem related_turn (hview : forall s t, view (put s t) = s)
    (hout : forall s t, out (put s t) = out t) {x : ι × α}
    (hstep : forall t t', step x.1 x.2 t = some t' ->
      R (f x.1 x.2 t) (view t) (view t') ∧
        out t' = out t ++ (f x.1 x.2 t).flatMap post)
    {s s' : Shared ι σ τ} (h : turn view put step x s = some s') :
    let entries := (f x.1 x.2 (put s.common (s.parts x.1))).map
      fun e => (x.1, e)
    R (entries.map Prod.snd) s.common s'.common ∧
      forall i, out (s'.parts i) =
        out (s.parts i) ++ (own i entries).flatMap post := by
  intro entries
  rcases turn_eq_some.mp h with ⟨t, ht, rfl⟩
  rcases hstep _ _ ht with ⟨hcommon, hlist⟩
  rw [hview] at hcommon
  rw [hout] at hlist
  constructor
  · rw [map_snd_tagged]
    exact hcommon
  · intro i
    show out (Function.update s.parts x.1 t i) = _
    by_cases hi : x.1 = i
    · subst hi
      rw [own_tagged_self, Function.update_self, hlist]
    · rw [own_tagged_of_ne hi, Function.update_of_ne (Ne.symm hi)]
      exact (List.append_nil _).symm

/-- The entries tell what happens to the shared state and what the parts list,
when they tell it for every turn. -/
theorem related_turns (hnil : forall s, R [] s s)
    (htrans : forall es es' s t u, R es s t -> R es' t u -> R (es ++ es') s u)
    (hview : forall s t, view (put s t) = s)
    (hout : forall s t, out (put s t) = out t) {xs : List (ι × α)}
    (hstep : forall x, x ∈ xs -> forall t t', step x.1 x.2 t = some t' ->
      R (f x.1 x.2 t) (view t) (view t') ∧
        out t' = out t ++ (f x.1 x.2 t).flatMap post)
    {s s' : Shared ι σ τ} (h : Run.head (turn view put step) xs s = some s') :
    let entries := entered view put step f xs s
    R (entries.map Prod.snd) s.common s'.common ∧
      forall i, out (s'.parts i) =
        out (s.parts i) ++ (own i entries).flatMap post := by
  apply Run.related_head
    (R := fun entries (s s' : Shared ι σ τ) =>
      R (entries.map Prod.snd) s.common s'.common ∧
        forall i, out (s'.parts i) =
          out (s.parts i) ++ (own i entries).flatMap post) ?_ ?_ ?_ h
  · intro s
    refine ⟨hnil s.common, ?_⟩
    intro i
    exact (List.append_nil _).symm
  · rintro es es' s t u ⟨hcommon, hparts⟩ ⟨hcommon', hparts'⟩
    constructor
    · rw [List.map_append]
      exact htrans _ _ _ _ _ hcommon hcommon'
    · intro i
      rw [hparts', hparts, own_append, List.flatMap_append, List.append_assoc]
  · intro r hr
    exact related_turn R out post hview hout
      (hstep _ (Run.mem_transitions_input hr)) (Run.mem_transitions_step hr)

end Turns

section Totals

variable {M : Type} [AddCommMonoid M] [Fintype ι] {g : List ω -> M}
  {post : ε -> List ω}

theorem sum_own (hnil : g [] = 0)
    (happend : forall first second, g (first ++ second) = g first + g second)
    (entries : List (ι × ε)) :
    g ((entries.map Prod.snd).flatMap post) =
      Finset.univ.sum fun i => g ((own i entries).flatMap post) := by
  induction entries with
  | nil =>
      have hzero : forall i : ι, g ((own i ([] : List (ι × ε))).flatMap post) =
          0 := fun _ => hnil
      rw [Finset.sum_congr rfl fun i _ => hzero i, Finset.sum_const_zero]
      exact hnil
  | cons e entries ih =>
      have hone : forall i, g ((own i (e :: entries)).flatMap post) =
          (if e.1 = i then g (post e.2) else 0) +
            g ((own i entries).flatMap post) := by
        intro i
        by_cases hi : e.1 = i
        · have howns : own i (e :: entries) = e.2 :: own i entries := by
            simp [own, hi]
          rw [howns, List.flatMap_cons, happend, if_pos hi]
        · have howns : own i (e :: entries) = own i entries := by
            simp [own, hi]
          rw [howns, if_neg hi, zero_add]
      rw [List.map_cons, List.flatMap_cons, happend, ih,
        Finset.sum_congr rfl fun i _ => hone i, Finset.sum_add_distrib,
        Finset.sum_ite_eq, if_pos (Finset.mem_univ _)]

end Totals

end Shared

end Foundation
end BeeGadz
