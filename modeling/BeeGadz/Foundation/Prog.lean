import Mathlib.Data.List.Forall2
import Mathlib.Order.Defs.Unbundled

/-!
# Stateful computations whose state survives an exception

A computation reads and updates a state and either returns a value or throws;
what it did to the state before throwing is kept, as in a C++ program that
mutates objects through references.  The module gives the operations, their
evaluation rules, and a logic of two-state relations: a computation moves the
state along a preorder as soon as each of its steps does.
-/

namespace BeeGadz
namespace Foundation

def Prog (σ ε α : Type) : Type :=
  σ -> Except ε α × σ

namespace Prog

variable {σ τ ε α γ : Type}

instance : Monad (Prog σ ε) where
  pure a := fun s => (.ok a, s)
  bind p f := fun s =>
    match p s with
    | (.ok a, s') => f a s'
    | (.error e, s') => (.error e, s')

def throw (e : ε) : Prog σ ε α :=
  fun s => (.error e, s)

def catching (p : Prog σ ε α) (handler : ε -> Prog σ ε α) : Prog σ ε α :=
  fun s =>
    match p s with
    | (.ok a, s') => (.ok a, s')
    | (.error e, s') => handler e s'

def get : Prog σ ε σ :=
  fun s => (.ok s, s)

def modify (f : σ -> σ) : Prog σ ε Unit :=
  fun s => (.ok (), f s)

def ofExcept (r : Except ε α) : Prog σ ε α :=
  fun s => (r, s)

/-- Run a computation on the part of the state that `view` reads and
`put` writes back. -/
def zoom (view : σ -> τ) (put : τ -> σ -> σ) (p : Prog τ ε α) : Prog σ ε α :=
  fun s => ((p (view s)).1, put (p (view s)).2 s)

/-!
## Evaluation
-/

@[simp] theorem pure_apply (a : α) (s : σ) :
    (pure a : Prog σ ε α) s = (.ok a, s) := rfl

theorem bind_apply (p : Prog σ ε α) (f : α -> Prog σ ε γ) (s : σ) :
    (p >>= f) s =
      match p s with
      | (.ok a, s') => f a s'
      | (.error e, s') => (.error e, s') := rfl

theorem bind_of_ok {p : Prog σ ε α} {s s' : σ} {a : α} (f : α -> Prog σ ε γ)
    (h : p s = (.ok a, s')) : (p >>= f) s = f a s' := by
  rw [bind_apply, h]

theorem bind_of_error {p : Prog σ ε α} {s s' : σ} {e : ε}
    (f : α -> Prog σ ε γ) (h : p s = (.error e, s')) :
    (p >>= f) s = (.error e, s') := by
  rw [bind_apply, h]

theorem bind_eq_ok {p : Prog σ ε α} {f : α -> Prog σ ε γ} {s t : σ} {b : γ} :
    (p >>= f) s = (.ok b, t) <->
      exists a s', p s = (.ok a, s') ∧ f a s' = (.ok b, t) := by
  rw [bind_apply]
  rcases p s with ⟨r, s'⟩
  cases r with
  | error e =>
      constructor
      · intro h
        cases h
      · rintro ⟨a, s'', h, -⟩
        cases h
  | ok a =>
      constructor
      · intro h
        exact ⟨a, s', rfl, h⟩
      · rintro ⟨a', s'', h, hf⟩
        cases h
        exact hf

theorem then_pure_state (p : Prog σ ε α) (b : γ) (s : σ) :
    ((p >>= fun _ => pure b) s).2 = (p s).2 := by
  rw [bind_apply]
  rcases p s with ⟨r, s'⟩
  cases r <;> rfl

theorem then_pure_error {p : Prog σ ε α} {b : γ} {s : σ} {e : ε} :
    ((p >>= fun _ => pure b) s).1 = .error e <-> (p s).1 = .error e := by
  rw [bind_apply]
  rcases p s with ⟨r, s'⟩
  cases r <;> simp

@[simp] theorem throw_apply (e : ε) (s : σ) :
    (throw e : Prog σ ε α) s = (.error e, s) := rfl

theorem catching_apply (p : Prog σ ε α) (handler : ε -> Prog σ ε α) (s : σ) :
    (p.catching handler) s =
      match p s with
      | (.ok a, s') => (.ok a, s')
      | (.error e, s') => handler e s' := rfl

theorem catching_of_ok {p : Prog σ ε α} {s s' : σ} {a : α}
    (handler : ε -> Prog σ ε α) (h : p s = (.ok a, s')) :
    (p.catching handler) s = (.ok a, s') := by
  rw [catching_apply, h]

theorem catching_of_error {p : Prog σ ε α} {s s' : σ} {e : ε}
    (handler : ε -> Prog σ ε α) (h : p s = (.error e, s')) :
    (p.catching handler) s = handler e s' := by
  rw [catching_apply, h]

@[simp] theorem get_apply (s : σ) :
    (get : Prog σ ε σ) s = (.ok s, s) := rfl

@[simp] theorem modify_apply (f : σ -> σ) (s : σ) :
    (modify f : Prog σ ε Unit) s = (.ok (), f s) := rfl

@[simp] theorem ofExcept_apply (r : Except ε α) (s : σ) :
    (ofExcept r : Prog σ ε α) s = (r, s) := rfl

theorem zoom_apply (view : σ -> τ) (put : τ -> σ -> σ) (p : Prog τ ε α)
    (s : σ) :
    zoom view put p s = ((p (view s)).1, put (p (view s)).2 s) := rfl

/-!
## Two-state relations

`Moves R p` says that every execution of `p`, also one that throws,
relates the state before to the state after.  Invariants are the case
`R s s' := I s -> I s'`, frame conditions the case of equal components.
-/

def Moves (R : σ -> σ -> Prop) (p : Prog σ ε α) : Prop :=
  forall s, R s (p s).2

theorem Moves.mono {R S : σ -> σ -> Prop} {p : Prog σ ε α}
    (h : Moves R p) (himp : forall s s', R s s' -> S s s') : Moves S p :=
  fun s => himp _ _ (h s)

section Preorder

variable {R : σ -> σ -> Prop} [IsPreorder σ R]

theorem moves_pure (a : α) : Moves R (pure a : Prog σ ε α) :=
  fun s => refl s

theorem moves_throw (e : ε) : Moves R (throw e : Prog σ ε α) :=
  fun s => refl s

theorem moves_ofExcept (r : Except ε α) :
    Moves R (ofExcept r : Prog σ ε α) :=
  fun s => refl s

omit [IsPreorder σ R] in
theorem moves_modify {f : σ -> σ} (h : forall s, R s (f s)) :
    Moves R (modify f : Prog σ ε Unit) :=
  fun s => h s

theorem moves_bind {p : Prog σ ε α} {f : α -> Prog σ ε γ}
    (hp : Moves R p) (hf : forall a, Moves R (f a)) : Moves R (p >>= f) := by
  intro s
  have hfirst := hp s
  rw [bind_apply]
  rcases hps : p s with ⟨r, s'⟩
  rw [hps] at hfirst
  cases r with
  | error e => exact hfirst
  | ok a => exact IsTrans.trans _ _ _ hfirst (hf a s')

theorem moves_then {p : Prog σ ε α} {q : Prog σ ε γ} (hp : Moves R p)
    (hq : Moves R q) : Moves R (p >>= fun _ => q) :=
  moves_bind hp fun _ => hq

theorem moves_catching {p : Prog σ ε α} {handler : ε -> Prog σ ε α}
    (hp : Moves R p) (hhandler : forall e, Moves R (handler e)) :
    Moves R (p.catching handler) := by
  intro s
  have hfirst := hp s
  rw [catching_apply]
  rcases hps : p s with ⟨r, s'⟩
  rw [hps] at hfirst
  cases r with
  | ok a => exact hfirst
  | error e => exact IsTrans.trans _ _ _ hfirst (hhandler e s')

end Preorder

theorem moves_ite {R : σ -> σ -> Prop} {c : Prop} [Decidable c]
    {p q : Prog σ ε α} (hp : Moves R p) (hq : Moves R q) :
    Moves R (if c then p else q) := by
  split
  · exact hp
  · exact hq

/-!
## Exceptions that are not thrown

`Avoids bad I p` says that from the states with `I` the computation does not
throw `bad` and ends in a state with `I`, also when it throws something else.
-/

def Avoids (bad : ε) (I : σ -> Prop) (p : Prog σ ε α) : Prop :=
  forall s, I s -> (p s).1 ≠ .error bad ∧ I (p s).2

section Avoids

variable {bad : ε} {I : σ -> Prop}

theorem avoids_of_ok {p : Prog σ ε α}
    (h : forall s, I s -> exists a s', p s = (.ok a, s') ∧ I s') :
    Avoids bad I p := by
  intro s hs
  rcases h s hs with ⟨a, s', hrun, hs'⟩
  rw [hrun]
  exact ⟨fun herror => (by cases herror), hs'⟩

theorem avoids_pure (a : α) : Avoids bad I (pure a : Prog σ ε α) :=
  avoids_of_ok fun s hs => ⟨a, s, rfl, hs⟩

theorem avoids_modify {f : σ -> σ} (h : forall s, I s -> I (f s)) :
    Avoids bad I (modify f : Prog σ ε Unit) :=
  avoids_of_ok fun s hs => ⟨(), f s, rfl, h s hs⟩

theorem avoids_ofExcept {r : Except ε α} (h : r ≠ .error bad) :
    Avoids bad I (ofExcept r : Prog σ ε α) :=
  fun _ hs => ⟨h, hs⟩

theorem avoids_bind {p : Prog σ ε α} {f : α -> Prog σ ε γ}
    (hp : Avoids bad I p) (hf : forall a, Avoids bad I (f a)) :
    Avoids bad I (p >>= f) := by
  intro s hs
  have hfirst := hp s hs
  rcases hrun : p s with ⟨r, s'⟩
  rw [hrun] at hfirst
  cases r with
  | error e =>
      rw [bind_of_error f hrun]
      refine ⟨?_, hfirst.right⟩
      intro herror
      cases herror
      exact hfirst.left rfl
  | ok a =>
      rw [bind_of_ok f hrun]
      exact hf a s' hfirst.right

theorem avoids_then {p : Prog σ ε α} {q : Prog σ ε γ}
    (hp : Avoids bad I p) (hq : Avoids bad I q) :
    Avoids bad I (p >>= fun _ => q) :=
  avoids_bind hp fun _ => hq

theorem avoids_ite {c : Prop} [Decidable c] {p q : Prog σ ε α}
    (hp : Avoids bad I p) (hq : Avoids bad I q) :
    Avoids bad I (if c then p else q) := by
  split
  · exact hp
  · exact hq

theorem avoids_catching {p : Prog σ ε α} {handler : ε -> Prog σ ε α}
    (hp : Avoids bad I p)
    (hhandler : forall e, e ≠ bad -> Avoids bad I (handler e)) :
    Avoids bad I (p.catching handler) := by
  intro s hs
  have hfirst := hp s hs
  rcases hrun : p s with ⟨r, s'⟩
  rw [hrun] at hfirst
  cases r with
  | ok a =>
      rw [catching_of_ok handler hrun]
      exact ⟨fun herror => (by cases herror), hfirst.right⟩
  | error e =>
      rw [catching_of_error handler hrun]
      apply hhandler e ?_ s' hfirst.right
      rintro rfl
      exact hfirst.left rfl

end Avoids

/-!
## Computations that are put together from others

`Built bad P p` says that `p` is built by sequencing from computations with `P`
and from results other than `bad`.  What holds of these and is kept by
sequencing holds of `p`.
-/

inductive Built (bad : ε) (P : (α : Type) -> Prog σ ε α -> Prop) :
    (α : Type) -> Prog σ ε α -> Prop
  | of {α : Type} {p : Prog σ ε α} (h : P α p) : Built bad P α p
  | ofExcept {α : Type} {r : Except ε α} (h : r ≠ .error bad) :
      Built bad P α (ofExcept r)
  | bind {α γ : Type} {p : Prog σ ε α} {f : α -> Prog σ ε γ}
      (hp : Built bad P α p) (hf : forall a, Built bad P γ (f a)) :
      Built bad P γ (p >>= f)

section Built

variable {bad : ε} {P : (α : Type) -> Prog σ ε α -> Prop}

theorem built_pure (a : α) : Built bad P α (pure a) :=
  .ofExcept fun h => (by cases h)

theorem built_then {p : Prog σ ε α} {q : Prog σ ε γ} (hp : Built bad P α p)
    (hq : Built bad P γ q) : Built bad P γ (p >>= fun _ => q) :=
  .bind hp fun _ => hq

theorem built_ite {c : Prop} [Decidable c] {p q : Prog σ ε α}
    (hp : Built bad P α p) (hq : Built bad P α q) :
    Built bad P α (if c then p else q) := by
  split
  · exact hp
  · exact hq

theorem Built.moves {R : σ -> σ -> Prop} [IsPreorder σ R] {p : Prog σ ε α}
    (h : Built bad P α p) (hP : forall γ q, P γ q -> Moves R q) :
    Moves R p := by
  induction h with
  | of hp => exact hP _ _ hp
  | ofExcept _ => exact moves_ofExcept _
  | bind _ _ ihp ihf => exact moves_bind ihp ihf

theorem Built.avoids {I : σ -> Prop} {p : Prog σ ε α}
    (h : Built bad P α p) (hP : forall γ q, P γ q -> Avoids bad I q) :
    Avoids bad I p := by
  induction h with
  | of hp => exact hP _ _ hp
  | ofExcept hr => exact avoids_ofExcept hr
  | bind _ _ ihp ihf => exact avoids_bind ihp ihf

end Built

/-!
## Results

`Returns Q p` says that every result of `p` is one with `Q`.
-/

def Returns (Q : α -> Prop) (p : Prog σ ε α) : Prop :=
  forall s a s', p s = (.ok a, s') -> Q a

section Returns

variable {Q : α -> Prop}

theorem returns_pure {a : α} (h : Q a) : Returns Q (pure a : Prog σ ε α) := by
  intro s b s' hrun
  cases hrun
  exact h

theorem returns_fails {p : Prog σ ε α} (h : forall s a, (p s).1 ≠ .ok a) :
    Returns Q p := by
  intro s a s' hrun
  have hne := h s a
  rw [hrun] at hne
  exact absurd rfl hne

theorem returns_bind {P : γ -> Prop} {p : Prog σ ε γ} {f : γ -> Prog σ ε α}
    (hp : Returns P p) (hf : forall a, P a -> Returns Q (f a)) :
    Returns Q (p >>= f) := by
  intro s b s' hrun
  rcases hfirst : p s with ⟨r, t⟩
  cases r with
  | error e =>
      rw [bind_of_error f hfirst] at hrun
      cases hrun
  | ok a =>
      rw [bind_of_ok f hfirst] at hrun
      exact hf a (hp s a t hfirst) t b s' hrun

theorem returns_then {p : Prog σ ε γ} {f : γ -> Prog σ ε α}
    (hf : forall a, Returns Q (f a)) : Returns Q (p >>= f) :=
  returns_bind (P := fun _ => True) (fun _ _ _ _ => trivial)
    fun a _ => hf a

theorem returns_ite {c : Prop} [Decidable c] {p q : Prog σ ε α}
    (hp : Returns Q p) (hq : Returns Q q) :
    Returns Q (if c then p else q) := by
  split
  · exact hp
  · exact hq

theorem returns_catching {p : Prog σ ε α} {handler : ε -> Prog σ ε α}
    (hp : Returns Q p) (hhandler : forall e, Returns Q (handler e)) :
    Returns Q (p.catching handler) := by
  intro s a s' hrun
  rcases hfirst : p s with ⟨r, t⟩
  cases r with
  | ok b =>
      rw [catching_of_ok handler hfirst] at hrun
      cases hrun
      exact hp s _ _ hfirst
  | error e =>
      rw [catching_of_error handler hfirst] at hrun
      exact hhandler e t a s' hrun

end Returns

/-!
## Computations without a state
-/

theorem except_bind_eq_ok {x : Except ε α} {f : α -> Except ε γ} {b : γ} :
    (x >>= f) = .ok b <-> exists a, x = .ok a ∧ f a = .ok b := by
  cases x with
  | error e =>
      constructor
      · intro h
        cases h
      · rintro ⟨a, h, -⟩
        cases h
  | ok a =>
      constructor
      · intro h
        exact ⟨a, rfl, h⟩
      · rintro ⟨a', h, hf⟩
        cases h
        exact hf

theorem forall₂_of_mapM {f : α -> Except ε γ} {xs : List α} {ys : List γ}
    (h : xs.mapM f = .ok ys) : List.Forall₂ (fun x y => f x = .ok y) xs ys := by
  induction xs generalizing ys with
  | nil =>
      cases h
      exact List.Forall₂.nil
  | cons x xs ih =>
      rw [List.mapM_cons, except_bind_eq_ok] at h
      rcases h with ⟨y, hy, h⟩
      rcases except_bind_eq_ok.mp h with ⟨rest, hrest, hys⟩
      cases hys
      exact List.Forall₂.cons hy (ih hrest)

theorem forall₂_getElem? {R : α -> γ -> Prop} {xs : List α} {ys : List γ}
    (h : List.Forall₂ R xs ys) (i : Nat) :
    Option.Rel R xs[i]? ys[i]? := by
  induction h generalizing i with
  | nil => exact Option.Rel.none
  | cons hfirst hrest ih =>
      cases i with
      | zero => exact Option.Rel.some hfirst
      | succ i => exact ih i

end Prog

end Foundation
end BeeGadz
