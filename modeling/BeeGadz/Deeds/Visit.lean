import BeeGadz.Deeds

/-!
# Rounds that leave the record alone

Looking for a card and reading it marks no block and writes none.  What a round
does to the record is what its dispatch does.
-/

namespace BeeGadz

open Foundation

namespace Loop

variable {L β : Type}

def Quiet (s s' : Loop L β) : Prop :=
  s.held.Built -> Rests s.held s'.held

instance : IsPreorder (Loop L β) Quiet where
  refl s := fun _ => refl _
  trans s t u hst htu := by
    intro hs
    have hfirst := hst hs
    exact Trans.trans hfirst (htu (hfirst.built hs))

theorem quiet_keep {s s' : Loop L β} (hcard : s'.card = s.card)
    (hsends : s.world.Sends s'.world []) : Quiet s s' := by
  intro _
  unfold held
  rw [hcard]
  exact rests_keep hsends

theorem Still.quiet {loud : List String} {s s' : Loop L β}
    (h : Still loud s s') : Quiet s s' := by
  rcases h.log with ⟨events, hlog, hstill⟩
  exact quiet_keep h.card ⟨events, hlog, sentWrites_still hstill⟩

theorem Waits.sends {words : List String} {s s' : Loop L β}
    (h : Waits words s s') : s.world.Sends s'.world [] := by
  rcases h.log with ⟨events, hnotices, hlog⟩
  exact ⟨events, hlog, sentWrites_notices hnotices⟩

theorem Sees.sends {words : List String} {reads : List (Event β)}
    {s s' : Loop L β} (h : Sees words reads s s')
    (hreads : sentWrites reads = []) : s.world.Sends s'.world [] :=
  h.unwritten hreads

theorem Idle.quiet {words : List String} {p : LoopM L β Unit} {s : Loop L β}
    (h : Idle words p s) : Quiet s (p s).2 :=
  quiet_keep h.card h.waits.sends

theorem quiet_emit {e : Event β} (he : e.written = none) :
    Prog.Moves Quiet (onWorld (emit e) : LoopM L β Unit) :=
  fun s => quiet_keep rfl (s.world.sends_emit he)

variable [Cell β]

def deedsAt (keys : Vec UInt8) (inp : Input β) (s : Loop L β)
    (deeds : Card β -> Memory β -> List (Deed Nat)) : List (Deed Nat) :=
  match arrival keys inp s.card with
  | none => []
  | some target =>
      deeds (Card.fresh target keys)
        (seen inp keys target (s.world.mem target.uid))

end Loop

end BeeGadz
