import BeeGadz.Card.Dialogue
import BeeGadz.Primitives
import BeeGadz.Serve.Bar
import BeeGadz.Serve.Caisse
import BeeGadz.Serve.Kve

/-!
# The dialogue of a round

Whatever a round does with a card, and however the reader answers, what it adds
to the log is in order and leaves no command open.
-/

namespace BeeGadz

open Foundation

/-!
## Sessions
-/

namespace World

variable {β : Type}

def Converses (w w' : World β) : Prop :=
  exists events, w'.log = w.log ++ events ∧ Dialogue.Complete events

instance : IsPreorder (World β) Converses where
  refl w := ⟨[], (List.append_nil _).symm, Dialogue.complete_nil⟩
  trans w₁ w₂ w₃ h h' := by
    rcases h with ⟨first, hlog, hfirst⟩
    rcases h' with ⟨second, hlog', hsecond⟩
    exact ⟨first ++ second, by rw [hlog', hlog, List.append_assoc],
      hfirst.append hsecond⟩

theorem Converses.since {w w' : World β} (h : w.Converses w') :
    Dialogue.Complete (w.since w') := by
  rcases h with ⟨events, hlog, hevents⟩
  rw [World.since, hlog, List.drop_left]
  exact hevents

theorem converses_of_log {w w' : World β} (h : w'.log = w.log) :
    w.Converses w' :=
  ⟨[], by rw [h, List.append_nil], Dialogue.complete_nil⟩

theorem converses_emit {e : Event β}
    (he : Dialogue.idle.next e = some .idle) :
    Prog.Moves Converses (emit e) :=
  fun _ => ⟨[e], rfl, Dialogue.complete_of_forall (by simpa using he)⟩

theorem Talk.converses {w w' : World β} (h : w.Talk w') : w.Converses w' := by
  rcases h.log with ⟨events, hlog, htalk⟩
  refine ⟨events, hlog, Dialogue.complete_of_forall ?_⟩
  intro e he
  have hidle := htalk e he
  cases e <;> first | rfl | cases hidle

theorem converses_print (timer : Int) (shown : Fin 4 -> Int) :
    Prog.Moves Converses (print timer shown : WorldM β Unit) := by
  refine (showsOnly_print timer shown).mono ?_
  intro w w' h
  rcases h with ⟨_, events, hshown, hlog⟩
  refine ⟨events, hlog, Dialogue.complete_of_forall ?_⟩
  intro e he
  have hscreen := hshown e he
  cases e <;> first | rfl | cases hscreen

end World

namespace Session

variable {β : Type}

/-- A card with its sixteen sectors stays one, and what is exchanged is in
order. -/
def Orderly (s s' : Session β) : Prop :=
  s.card.Classic -> s'.card.Classic ∧ s.world.Converses s'.world

instance : IsPreorder (Session β) Orderly where
  refl s := fun hc => ⟨hc, refl _⟩
  trans s t u hst htu := by
    intro hc
    have hfirst := hst hc
    have hsecond := htu hfirst.left
    exact ⟨hsecond.left, Trans.trans hfirst.right hsecond.right⟩

theorem orderly_onWorld {α : Type} {p : WorldM β α}
    (h : Prog.Moves World.Converses p) : Prog.Moves Orderly (onWorld p) :=
  fun s hc => ⟨hc, h s.world⟩

theorem orderly_emit {e : Event β} (he : Dialogue.idle.next e = some .idle) :
    Prog.Moves Orderly (onWorld (emit e)) :=
  orderly_onWorld (World.converses_emit he)

theorem orderly_getCard :
    Prog.Moves Orderly (getCard : SessionM β (Card β)) :=
  fun s => refl s

theorem orderly_modifyCard {f : Card β -> Card β}
    (h : forall c, Card.SameFrame c (f c)) :
    Prog.Moves Orderly (modifyCard f) :=
  fun s hc => ⟨hc.of_sameFrame (h s.card), refl _⟩

variable [Cell β]

theorem orderly_readSector (pass : Pass β) :
    Prog.Moves Orderly (readSector pass 1) := by
  intro s hc
  rcases readSector_run pass (by decide : 1 < 16) hc s.world with
    ⟨c', hframe, _, hrun⟩
  rw [hrun]
  exact ⟨hc.of_sameFrame hframe, _, rfl, Card.complete_readEvents _ _ _ _ _⟩

theorem orderly_writeSector (pass : Pass β) :
    Prog.Moves Orderly (writeSector pass 1) := by
  intro s hc
  rcases writeSector_run pass (by decide : 1 < 16) hc s.world with
    ⟨c', mem', hframe, _, _, hrun⟩
  rw [hrun]
  exact ⟨hc.of_sameFrame hframe, _, rfl, Card.complete_writeEvents _ _ _ _⟩

theorem orderly_writeCard (pass : Pass β) :
    Prog.Moves Orderly (writeCard pass) := by
  apply Prog.moves_then (orderly_emit rfl)
  apply Prog.moves_catching
  · apply Prog.moves_bind (orderly_writeSector pass)
    intro ok
    exact Prog.moves_ite (orderly_emit rfl) (orderly_emit rfl)
  · intro e
    cases e with
    | exception => exact Prog.moves_pure _
    | crash => exact Prog.moves_throw _

theorem orderly_editCard {f : Card β -> Card β} (pass : Pass β)
    (h : forall c, Card.SameFrame c (f c)) :
    Prog.Moves Orderly
      (do
        modifyCard f
        writeCard pass : SessionM β Unit) :=
  Prog.moves_bind (orderly_modifyCard h) fun _ => orderly_writeCard pass

theorem Built.orderly {blocks : List Nat} {α : Type} {p : SessionM β α}
    (h : Built blocks p) : Prog.Moves Orderly p := by
  apply h.moves (R := Orderly)
  intro γ q hq
  cases hq with
  | getCard => exact orderly_getCard
  | onWorld h => exact orderly_onWorld fun w => (h.moves w).converses
  | editCard pass h => exact orderly_editCard pass fun c => (h c).frame

end Session

/-!
## Loops
-/

namespace Loop

variable {L β : Type}

def Sectored (s : Loop L β) : Prop :=
  forall c, s.card = some c -> c.Classic

/-- A held card keeps its sectors, and what is exchanged is in order. -/
def Orderly (s s' : Loop L β) : Prop :=
  s.Sectored -> s'.Sectored ∧ s.world.Converses s'.world

instance : IsPreorder (Loop L β) Orderly where
  refl s := fun hs => ⟨hs, refl _⟩
  trans s t u hst htu := by
    intro hs
    have hfirst := hst hs
    have hsecond := htu hfirst.left
    exact ⟨hsecond.left, Trans.trans hfirst.right hsecond.right⟩

theorem orderly_of_card {s s' : Loop L β} (hcard : s'.card = s.card)
    (h : s.world.Converses s'.world) : Orderly s s' := by
  intro hs
  refine ⟨?_, h⟩
  intro c hc
  exact hs c (hcard ▸ hc)

theorem orderly_onWorld {α : Type} {p : WorldM β α}
    (h : Prog.Moves World.Converses p) :
    Prog.Moves Orderly (onWorld p : LoopM L β α) :=
  fun s => orderly_of_card rfl (h s.world)

theorem orderly_emit {e : Event β} (he : Dialogue.idle.next e = some .idle) :
    Prog.Moves Orderly (onWorld (emit e) : LoopM L β Unit) :=
  orderly_onWorld (World.converses_emit he)

theorem Still.orderly {loud : List String} {s s' : Loop L β}
    (h : Still loud s s') : Orderly s s' :=
  orderly_of_card h.card h.talk.converses

theorem orderly_still {α : Type} {loud : List String} {p : LoopM L β α}
    (h : Prog.Moves (Still loud) p) : Prog.Moves Orderly p :=
  h.mono fun _ _ hstill => hstill.orderly

theorem orderly_getPointer :
    Prog.Moves Orderly (getPointer : LoopM L β (Option (Card β))) :=
  fun s => refl s

theorem orderly_isRead : Prog.Moves Orderly (isRead : LoopM L β Bool) :=
  fun s => refl s

theorem orderly_setRead (read : Bool) :
    Prog.Moves Orderly (setRead read : LoopM L β Unit) :=
  fun _ => orderly_of_card rfl (refl _)

theorem orderly_idle {words : List String} {p : LoopM L β Unit}
    (h : forall s, Idle words p s) : Prog.Moves Orderly p := by
  intro s
  rcases (h s).log with ⟨messages, _, hlog⟩
  refine orderly_of_card (h s).card ⟨_, hlog, ?_⟩
  apply Dialogue.complete_of_forall
  intro e he
  rcases List.mem_map.mp he with ⟨message, _, rfl⟩
  rfl

theorem orderly_onCard {α : Type} {p : SessionM β α}
    (h : Prog.Moves Session.Orderly p) :
    Prog.Moves Orderly (onCard p : LoopM L β α) := by
  intro state
  rcases state with ⟨l, card, r, w⟩
  cases card with
  | none => exact refl _
  | some c =>
      intro hs
      rcases h ⟨c, w⟩ (hs c rfl) with ⟨hclassic, hconverses⟩
      refine ⟨?_, hconverses⟩
      intro c' hc'
      cases hc'
      exact hclassic

theorem orderly_setPointer_none :
    Prog.Moves Orderly (setPointer none : LoopM L β Unit) := by
  intro s _
  refine ⟨?_, refl _⟩
  intro c hc
  cases hc

variable [Cell β]

theorem Built.orderly {blocks : List Nat} {α : Type} {p : LoopM L β α}
    (h : Built blocks p) : Prog.Moves Orderly p := by
  apply h.moves (R := Orderly)
  intro γ q hq
  cases hq with
  | getLocals => exact fun s => refl s
  | modify hcard hworld =>
      intro s
      apply orderly_of_card (hcard s)
      rw [hworld]
      exact refl _
  | onWorld h => exact orderly_onWorld fun w => (h.moves w).converses
  | onCard h => exact orderly_onCard h.orderly

theorem orderly_found (keys : Vec UInt8) (target : Target) :
    Prog.Moves Orderly
      (do
        let c ← Prog.ofExcept (Card.new target keys)
        setPointer (some c) : LoopM L β Unit) := by
  intro s hs
  by_cases hatqa : target.atqa = 0x4
  · have hnew : (Card.new target keys : Except Exn (Card β)) =
        .ok (Card.fresh target keys) := if_pos hatqa
    rw [Prog.bind_apply, Prog.ofExcept_apply, hnew]
    refine ⟨?_, refl _⟩
    intro c hc
    cases hc
    exact Card.classic_fresh target keys
  · have hnew : (Card.new target keys : Except Exn (Card β)) =
        .error .exception := if_neg hatqa
    rw [Prog.bind_apply, Prog.ofExcept_apply, hnew]
    exact ⟨hs, refl _⟩

theorem orderly_scan (keys : Vec UInt8) (found : Option Target) :
    Prog.Moves Orderly (scan keys found : LoopM L β Unit) := by
  apply Prog.moves_then (orderly_emit rfl)
  cases found with
  | none => exact orderly_setPointer_none
  | some target => exact orderly_found keys target

theorem orderly_poll {words : List String} {ph : Phases L β}
    (hph : ph.Sound words) (hgone : Prog.Moves Orderly ph.gone)
    (inp : Input β) : Prog.Moves Orderly (poll ph inp) := by
  have hlook : Prog.Moves Orderly
      (do
        let card ← getPointer
        pure card.isSome : LoopM L β Bool) :=
    Prog.moves_bind orderly_getPointer fun _ => Prog.moves_pure _
  apply Prog.moves_bind orderly_getPointer
  intro card
  cases card with
  | none =>
      apply Prog.moves_then (orderly_setRead false)
      exact Prog.moves_then (orderly_scan _ _) hlook
  | some c =>
      apply Prog.moves_then (orderly_emit rfl)
      refine Prog.moves_ite (Prog.moves_pure _) ?_
      apply Prog.moves_then hgone
      apply Prog.moves_then (orderly_scan _ _)
      exact Prog.moves_then (orderly_idle hph.scanned) hlook

theorem orderly_load {words : List String} {ph : Phases L β}
    (hph : ph.Sound words) (inp : Input β) :
    Prog.Moves Orderly (load ph inp) := by
  apply Prog.moves_bind orderly_isRead
  intro read
  refine Prog.moves_ite (Prog.moves_pure _) ?_
  apply Prog.moves_then (orderly_idle hph.reading)
  apply Prog.moves_bind
  · apply Prog.moves_catching
      (orderly_onCard (Session.orderly_readSector inp.reading))
    intro e
    cases e with
    | exception =>
        exact Prog.moves_then (orderly_idle hph.lost) (Prog.moves_pure _)
    | crash => exact Prog.moves_throw _
  · intro ok
    refine Prog.moves_ite ?_ (Prog.moves_pure _)
    apply Prog.moves_then (orderly_setRead true)
    exact Prog.moves_then (orderly_idle hph.finished) (Prog.moves_pure _)

theorem orderly_visit {words : List String} {ph : Phases L β}
    (hph : ph.Sound words) (hgone : Prog.Moves Orderly ph.gone)
    (inp : Input β) {dispatch : LoopM L β Exit}
    (h : Prog.Moves Orderly dispatch) :
    Prog.Moves Orderly (visit ph inp dispatch) := by
  apply Prog.moves_bind (orderly_poll hph hgone inp)
  intro found
  refine Prog.moves_ite ?_ (Prog.moves_pure _)
  apply Prog.moves_bind (orderly_load hph inp)
  intro loaded
  exact Prog.moves_ite h (Prog.moves_pure _)

end Loop

/-!
## Rounds of the selling modes
-/

section Dispatch

variable {β : Type} [FloatCell β]

theorem Kve.orderly_round (cfg : Config) (inp : Input β) :
    Prog.Moves Loop.Orderly (Kve.round cfg inp) := by
  apply Loop.moves_guarded
  apply Prog.moves_then (Loop.orderly_idle (Kve.idle_cancelByKey inp))
  apply Prog.moves_then (Loop.orderly_idle (Kve.idle_cancelByTime inp))
  apply Prog.moves_then (Loop.orderly_idle (Kve.idle_addByKey inp))
  exact Loop.orderly_visit (Kve.phases_sound cfg) (Loop.orderly_setRead _)
    inp (Kve.built_dispatch cfg inp).orderly

theorem Bar.orderly_round (cfg : Config) (hash : Bar.HashOrder)
    (inp : Input β) :
    Prog.Moves Loop.Orderly (Bar.round cfg hash inp) := by
  have hgone : Prog.Moves Loop.Orderly (Bar.phases cfg inp).gone := by
    apply Prog.moves_bind (Loop.orderly_onCard Session.orderly_getCard)
    intro c
    exact Prog.moves_ite (Prog.moves_pure _)
      (Loop.orderly_idle (Bar.idle_dropOrder inp))
  apply Prog.moves_then (Loop.orderly_onWorld (World.converses_print _ _))
  apply Loop.moves_guarded
  apply Prog.moves_then (Loop.orderly_idle (Bar.idle_cancelByKey inp))
  apply Prog.moves_then (Loop.orderly_idle (Bar.idle_cancelByTime inp))
  exact Loop.orderly_visit (Bar.phases_sound cfg inp) hgone inp
    (Bar.built_dispatch cfg hash inp).orderly

theorem Caisse.orderly_round (cfg : Config) (inp : Input β) :
    Prog.Moves Loop.Orderly (Caisse.round cfg inp) :=
  Loop.moves_guarded (Loop.orderly_visit (Caisse.phases_sound cfg)
    (Loop.orderly_setRead _) inp (Caisse.built_dispatch cfg inp).orderly)

end Dispatch

end BeeGadz
