import BeeGadz.Primitives

/-!
# Which blocks an operation writes

Only what was marked modified is written, and an operation on the record marks
the blocks that it edits.
-/

namespace BeeGadz

open Foundation

/-!
## Edits
-/

namespace Card

variable {β : Type}

/-- Only the listed blocks of the card are going to be written. -/
structure Ready (blocks : List Nat) (c : Card β) : Prop where
  classic : c.Classic
  within : forall a, c.Pending a -> a ∈ blocks

theorem Ready.edited {blocks : List Nat} {c c' : Card β} (h : c.Ready blocks)
    (hedited : Edited blocks c c') : c'.Ready blocks where
  classic := h.classic.of_sameFrame hedited.frame
  within := by
    intro a ha
    cases hedited.pending a ha with
    | inl hpending => exact h.within a hpending
    | inr hmem => exact hmem

end Card

/-!
## Operations
-/

namespace Session

variable {β : Type}

/-- The card stays the same one, and of all blocks of all cards only the listed
ones of this card are written. -/
structure Confines (blocks : List Nat) (s s' : Session β) : Prop where
  ready : s'.card.Ready blocks
  uid : s'.card.uid = s.card.uid
  name : 4 ∉ blocks -> (s'.card.block 1 0).data = (s.card.block 1 0).data
  mem : forall u a, ¬ (u = s.card.uid ∧ a ∈ blocks) ->
    s'.world.mem u a = s.world.mem u a
  log : exists events, s'.world.log = s.world.log ++ events ∧
    forall uid f ok, (uid, f, ok) ∈ sentWrites events ->
      uid = s.card.uid ∧ f.block ∈ blocks

def Confined (blocks : List Nat) (s s' : Session β) : Prop :=
  s.card.Ready blocks -> Confines blocks s s'

instance (blocks : List Nat) :
    IsPreorder (Session β) (Confined blocks) where
  refl s := fun hready =>
    ⟨hready, rfl, fun _ => rfl, fun _ _ _ => rfl, [], by simp, by simp⟩
  trans s t u hst htu := by
    intro hready
    have hfirst := hst hready
    have hsecond := htu hfirst.ready
    rcases hfirst.log with ⟨first, hlog, hwrites⟩
    rcases hsecond.log with ⟨second, hlog', hwrites'⟩
    refine ⟨hsecond.ready, hsecond.uid.trans hfirst.uid,
      fun hname => (hsecond.name hname).trans (hfirst.name hname), ?_,
      first ++ second, by rw [hlog', hlog, List.append_assoc], ?_⟩
    · intro v a hnot
      rw [hsecond.mem v a (by rwa [hfirst.uid]), hfirst.mem v a hnot]
    · intro uid f ok hmem
      rw [sentWrites_append, List.mem_append] at hmem
      cases hmem with
      | inl hmem => exact hwrites uid f ok hmem
      | inr hmem => exact hfirst.uid ▸ hwrites' uid f ok hmem

variable {blocks : List Nat}

theorem confined_onWorld {α : Type} {p : WorldM β α}
    (h : forall w, (p w).2.mem = w.mem ∧
      exists events, (p w).2.log = w.log ++ events ∧
        sentWrites events = []) :
    Prog.Moves (Confined blocks) (onWorld p) := by
  intro s hready
  rcases h s.world with ⟨hmem, events, hlog, hnone⟩
  refine ⟨hready, rfl, fun _ => rfl, fun u a _ => congrFun (congrFun hmem u) a,
    events, hlog, ?_⟩
  rw [hnone]
  simp

theorem confined_emit {e : Event β} (he : e.written = none) :
    Prog.Moves (Confined blocks) (onWorld (emit e)) :=
  confined_onWorld fun _ => ⟨rfl, [e], rfl, by simp [sentWrites, he]⟩

theorem confined_getCard :
    Prog.Moves (Confined blocks) (getCard : SessionM β (Card β)) :=
  fun s => refl s

theorem confined_modifyCard {f : Card β -> Card β}
    (h : forall c, Card.Edited blocks c (f c)) :
    Prog.Moves (Confined blocks) (modifyCard f) := by
  intro s hready
  exact ⟨hready.edited (h s.card), (h s.card).frame.uid, (h s.card).name,
    fun _ _ _ => rfl, [], by simp [modifyCard, Prog.modify], by simp⟩

variable [Cell β]

theorem confined_writeSector (pass : Pass β) :
    Prog.Moves (Confined blocks) (writeSector pass 1) := by
  intro state hready
  rcases state with ⟨c, w⟩
  rcases writeSector_run pass (by decide : 1 < 16) hready.classic w with
    ⟨c', mem', hframe, hblocks, hflushed, hrun⟩
  simp only [Nat.mul_one] at hflushed hrun
  rw [hrun]
  refine ⟨⟨hready.classic.of_sameFrame hframe, ?_⟩, hframe.uid,
    fun _ => by rw [hblocks 1 0], ?_, _, rfl, ?_⟩
  · intro a ha
    exact hready.within a ((hblocks.pending a).mp ha)
  · intro u a hnot
    apply hflushed.kept
    intro hall
    rcases hall with ⟨hu, _, _, hpending, _⟩
    exact hnot ⟨hu, hready.within a hpending⟩
  · intro uid f ok hmem
    rcases c.sentWrites_writeEvents pass 4 4 with ⟨as, hsub, hpending, hsent⟩
    rw [hsent] at hmem
    rcases List.mem_map.mp hmem with ⟨a, ha, heq⟩
    have hrange := hsub.subset ha
    rw [List.mem_range'_1] at hrange
    cases heq
    refine ⟨rfl, ?_⟩
    have hmod : a % 256 = a := Nat.mod_eq_of_lt (by omega)
    rw [Card.writeFrame, hmod]
    exact hready.within a (hpending a ha)

theorem confined_writeCard (pass : Pass β) :
    Prog.Moves (Confined blocks) (writeCard pass) := by
  apply Prog.moves_then (confined_emit rfl)
  apply Prog.moves_catching
  · apply Prog.moves_bind (confined_writeSector pass)
    intro ok
    exact Prog.moves_ite (confined_emit rfl) (confined_emit rfl)
  · intro e
    cases e with
    | exception => exact Prog.moves_pure _
    | crash => exact Prog.moves_throw _

theorem confined_editCard {f : Card β -> Card β} (pass : Pass β)
    (h : forall c, Card.Edited blocks c (f c)) :
    Prog.Moves (Confined blocks)
      (do
        modifyCard f
        writeCard pass : SessionM β Unit) :=
  Prog.moves_bind (confined_modifyCard h) fun _ => confined_writeCard pass

theorem Built.confined {α : Type} {p : SessionM β α} (h : Built blocks p) :
    Prog.Moves (Confined blocks) p := by
  apply h.moves (R := Confined blocks)
  intro γ q hq
  cases hq with
  | getCard => exact confined_getCard
  | onWorld h =>
      apply confined_onWorld
      intro w
      rcases (h.moves w).log with ⟨events, hlog, htalk⟩
      exact ⟨(h.moves w).mem, events, hlog, World.sentWrites_talk htalk⟩
  | editCard pass h => exact confined_editCard pass h

end Session

end BeeGadz
