import BeeGadz.Application
import BeeGadz.Round

/-!
# The configured mode in a round

A round of a selling mode changes the mode of the configuration only when it ends
at an ADMIN card; a round of Admin changes it only in the menu of modes.
-/

namespace BeeGadz

open Foundation

/-!
## What keeps the mode
-/

namespace Session

variable {β : Type}

def SameMode (s s' : Session β) : Prop :=
  s'.world.mode = s.world.mode

instance : IsPreorder (Session β) SameMode where
  refl _ := rfl
  trans _ _ _ h h' := h'.trans h

theorem sameMode_emit (e : Event β) :
    Prog.Moves SameMode (onWorld (emit e)) :=
  fun _ => rfl

theorem sameMode_getCard :
    Prog.Moves SameMode (getCard : SessionM β (Card β)) :=
  fun _ => rfl

theorem sameMode_modifyCard (f : Card β -> Card β) :
    Prog.Moves SameMode (modifyCard f) :=
  fun _ => rfl

theorem sameMode_mifareCmd (cmd : MifareCmd) (block : Nat) (reply : Reply β) :
    Prog.Moves SameMode (mifareCmd cmd block reply) := by
  intro s
  cases cmd with
  | authA => rfl
  | authB => rfl
  | read =>
      unfold mifareCmd
      dsimp only
      split <;> rfl
  | write => rfl

theorem sameMode_stillThere (present : Bool) :
    Prog.Moves SameMode (stillThere present : SessionM β Unit) := by
  intro s
  cases present <;> rfl

variable [Cell β]

theorem sameMode_tryKey (ans : Answers β) (block j : Nat)
    {next : SessionM β Bool} (hnext : Prog.Moves SameMode next) :
    Prog.Moves SameMode (tryKey ans block j next) := by
  apply Prog.moves_bind sameMode_getCard
  intro c
  apply Prog.moves_then (sameMode_emit _)
  apply Prog.moves_then (sameMode_modifyCard _)
  apply Prog.moves_bind (sameMode_mifareCmd _ _ _)
  intro ok
  refine Prog.moves_ite (Prog.moves_pure _) ?_
  exact Prog.moves_then (sameMode_stillThere _) hnext

theorem sameMode_tryKeys (ans : Answers β) (block more j : Nat) :
    Prog.Moves SameMode (tryKeys ans block more j) := by
  induction more generalizing j with
  | zero =>
      apply sameMode_tryKey
      exact Prog.moves_then (sameMode_emit _) (Prog.moves_pure _)
  | succ more ih => exact sameMode_tryKey ans block j (ih (j + 1))

theorem sameMode_authenticate (ans : Answers β) (block : Nat) :
    Prog.Moves SameMode (authenticate ans block) := by
  apply Prog.moves_then (sameMode_modifyCard _)
  apply Prog.moves_bind sameMode_getCard
  intro c
  exact sameMode_tryKeys ans block _ _

omit [Cell β] in
theorem sameMode_failed (present : Bool) (message : String) :
    Prog.Moves SameMode
      (do
        stillThere present
        onWorld (printError message)
        pure false : SessionM β Bool) := by
  apply Prog.moves_then (sameMode_stillThere present)
  exact Prog.moves_then (sameMode_emit _) (Prog.moves_pure _)

theorem sameMode_loadBlock (ans : Answers β) (block : Nat) :
    Prog.Moves SameMode (loadBlock ans block) := by
  apply Prog.moves_bind (sameMode_authenticate ans block)
  intro ok
  refine Prog.moves_ite ?_ (Prog.moves_pure _)
  apply Prog.moves_bind
  · apply Prog.moves_then (sameMode_modifyCard _)
    apply Prog.moves_bind (sameMode_mifareCmd _ _ _)
    intro answered
    apply Prog.moves_ite
    · exact Prog.moves_then (sameMode_modifyCard _) (Prog.moves_pure _)
    · exact sameMode_failed _ _
  · intro loaded
    exact Prog.moves_ite (Prog.moves_pure _) (sameMode_emit _)

theorem sameMode_readBlocks (pass : Pass β) (n block : Nat) :
    Prog.Moves SameMode (readBlocks pass n block) := by
  induction n generalizing block with
  | zero => exact Prog.moves_pure _
  | succ n ih =>
      exact Prog.moves_then (sameMode_loadBlock _ _) (ih (block + 1))

theorem sameMode_readSector (pass : Pass β) (sector : Nat) :
    Prog.Moves SameMode (readSector pass sector) := by
  apply Prog.moves_bind sameMode_getCard
  intro c
  exact Prog.moves_then (sameMode_readBlocks pass _ _) (Prog.moves_pure _)

theorem sameMode_storeBlock (ans : Answers β) (block : Nat) :
    Prog.Moves SameMode (storeBlock ans block) := by
  apply Prog.moves_bind (sameMode_authenticate ans block)
  intro ok
  refine Prog.moves_ite ?_ (Prog.moves_pure _)
  apply Prog.moves_bind
  · apply Prog.moves_bind sameMode_getCard
    intro c
    refine Prog.moves_ite (Prog.moves_pure _) ?_
    apply Prog.moves_then (sameMode_modifyCard _)
    apply Prog.moves_bind (sameMode_mifareCmd _ _ _)
    intro answered
    refine Prog.moves_ite (Prog.moves_pure _) ?_
    exact Prog.moves_then (sameMode_stillThere _) (Prog.moves_pure _)
  · intro stored
    exact Prog.moves_ite (Prog.moves_pure _) (sameMode_emit _)

theorem sameMode_writeBlocks (pass : Pass β) (sector n k block : Nat) :
    Prog.Moves SameMode (writeBlocks pass sector n k block) := by
  induction n generalizing k block with
  | zero => exact Prog.moves_pure _
  | succ n ih =>
      apply Prog.moves_bind sameMode_getCard
      intro c
      refine Prog.moves_ite (ih _ _) ?_
      exact Prog.moves_then (sameMode_storeBlock _ _) (ih _ _)

theorem sameMode_writeCard (pass : Pass β) :
    Prog.Moves SameMode (writeCard pass) := by
  apply Prog.moves_then (sameMode_emit _)
  apply Prog.moves_catching
  · apply Prog.moves_bind
    · apply Prog.moves_bind sameMode_getCard
      intro c
      exact Prog.moves_then (sameMode_writeBlocks pass _ _ _ _)
        (Prog.moves_pure _)
    · intro ok
      exact Prog.moves_ite (sameMode_emit _) (sameMode_emit _)
  · intro e
    cases e with
    | exception => exact Prog.moves_pure _
    | crash => exact Prog.moves_throw _

theorem sameMode_editCard (f : Card β -> Card β) (pass : Pass β) :
    Prog.Moves SameMode
      (do
        modifyCard f
        writeCard pass : SessionM β Unit) :=
  Prog.moves_then (sameMode_modifyCard f) (sameMode_writeCard pass)

omit [Cell β] in
theorem sameMode_sendHistory (cfg : Config) (kind : RowKind)
    (command : String) (price : Rat) :
    Prog.Moves SameMode
      (sendHistory cfg kind command price : SessionM β Unit) := by
  apply Prog.moves_bind sameMode_getCard
  intro c
  exact sameMode_emit _

omit [Cell β] in
theorem sameMode_sendSOS (cfg : Config) :
    Prog.Moves SameMode (sendSOS cfg : SessionM β Unit) := by
  apply Prog.moves_bind sameMode_getCard
  intro c
  exact sameMode_emit _

end Session

namespace Loop

variable {L β : Type}

def SameMode (s s' : Loop L β) : Prop :=
  s'.world.mode = s.world.mode

instance : IsPreorder (Loop L β) SameMode where
  refl _ := rfl
  trans _ _ _ h h' := h'.trans h

theorem sameMode_emit (e : Event β) :
    Prog.Moves SameMode (onWorld (emit e) : LoopM L β Unit) :=
  fun _ => rfl

theorem sameMode_setCommand (command : String) (line : Fin 4) (time : Nat) :
    Prog.Moves SameMode
      (onWorld (setCommand command line time) : LoopM L β Unit) :=
  fun _ => rfl

theorem sameMode_getLocals :
    Prog.Moves SameMode (getLocals : LoopM L β L) :=
  fun _ => rfl

theorem sameMode_getPointer :
    Prog.Moves SameMode (getPointer : LoopM L β (Option (Card β))) :=
  fun _ => rfl

theorem sameMode_setRead (read : Bool) :
    Prog.Moves SameMode (setRead read : LoopM L β Unit) :=
  fun _ => rfl

theorem sameMode_setPointer (card : Option (Card β)) :
    Prog.Moves SameMode (setPointer card : LoopM L β Unit) :=
  fun _ => rfl

theorem sameMode_isRead : Prog.Moves SameMode (isRead : LoopM L β Bool) :=
  fun _ => rfl

theorem sameMode_onWorld {α : Type} {p : WorldM β α}
    (h : forall w, (p w).2.mode = w.mode) :
    Prog.Moves SameMode (onWorld p : LoopM L β α) :=
  fun s => h s.world

theorem sameMode_modify {f : Loop L β -> Loop L β}
    (h : forall s, (f s).world = s.world) :
    Prog.Moves SameMode (Prog.modify f : LoopM L β Unit) :=
  fun s => congrArg World.mode (h s)

theorem sameMode_onCard {α : Type} {p : SessionM β α}
    (h : Prog.Moves Session.SameMode p) :
    Prog.Moves SameMode (onCard p : LoopM L β α) := by
  intro s
  rcases s with ⟨l, card, r, w⟩
  cases card with
  | none => rfl
  | some c => exact h ⟨c, w⟩

theorem sameMode_scan [Cell β] (keys : Vec UInt8) (found : Option Target) :
    Prog.Moves SameMode (scan keys found : LoopM L β Unit) := by
  apply Prog.moves_then (sameMode_emit _)
  cases found with
  | none => exact sameMode_setPointer none
  | some target =>
      refine Prog.moves_bind (Prog.moves_ofExcept _) ?_
      intro c
      exact sameMode_setPointer _

structure Phases.SameMode (ph : Phases L β) : Prop where
  gone : Prog.Moves Loop.SameMode ph.gone
  scanned : Prog.Moves Loop.SameMode ph.scanned
  reading : Prog.Moves Loop.SameMode ph.reading
  lost : Prog.Moves Loop.SameMode ph.lost
  finished : Prog.Moves Loop.SameMode ph.finished

variable [Cell β]

theorem sameMode_poll {ph : Phases L β} (hph : ph.SameMode)
    (inp : Input β) : Prog.Moves SameMode (poll ph inp) := by
  have hpointer : Prog.Moves SameMode (do
      let card ← getPointer
      pure card.isSome : LoopM L β Bool) := fun _ => rfl
  apply Prog.moves_bind sameMode_getPointer
  intro card
  cases card with
  | none =>
      apply Prog.moves_then (sameMode_setRead false)
      exact Prog.moves_then (sameMode_scan _ _) hpointer
  | some c =>
      apply Prog.moves_then (sameMode_emit _)
      refine Prog.moves_ite (Prog.moves_pure _) ?_
      apply Prog.moves_then hph.gone
      apply Prog.moves_then (sameMode_scan _ _)
      exact Prog.moves_then hph.scanned hpointer

theorem sameMode_load {ph : Phases L β} (hph : ph.SameMode)
    (inp : Input β) : Prog.Moves SameMode (load ph inp) := by
  apply Prog.moves_bind sameMode_isRead
  intro read
  refine Prog.moves_ite (Prog.moves_pure _) ?_
  apply Prog.moves_then hph.reading
  apply Prog.moves_bind
  · apply Prog.moves_catching
    · exact sameMode_onCard (Session.sameMode_readSector _ _)
    · intro e
      cases e with
      | exception => exact Prog.moves_then hph.lost (Prog.moves_pure _)
      | crash => exact Prog.moves_throw _
  · intro ok
    refine Prog.moves_ite ?_ (Prog.moves_pure _)
    apply Prog.moves_then (sameMode_setRead true)
    exact Prog.moves_then hph.finished (Prog.moves_pure _)

/-!
## Leaving at an ADMIN card
-/

/-- What a computation that can leave the loop does: it leaves at an ADMIN card
and sets the ADMIN mode, or it keeps the mode. -/
structure Leaves (s : Loop L β) (r : Except Exn Exit × Loop L β) : Prop where
  leave : r.1 = .ok .leave ->
    r.2.world.mode = .admin ∧
      exists c, r.2.card = some c ∧ c.testCard "ADMIN"
  stay : r.1 ≠ .ok .leave -> r.2.world.mode = s.world.mode

theorem leaves_next (s : Loop L β) :
    Leaves s ((pure .next : LoopM L β Exit) s) where
  leave h := by cases h
  stay _ := rfl

theorem leaves_bind {α : Type} {p : LoopM L β α} {f : α -> LoopM L β Exit}
    (hp : Prog.Moves SameMode p) (hf : forall a s, Leaves s (f a s))
    (s : Loop L β) : Leaves s ((p >>= f) s) := by
  have hfirst := hp s
  rcases hrun : p s with ⟨result, s'⟩
  rw [hrun] at hfirst
  cases result with
  | error e =>
      rw [Prog.bind_of_error _ hrun]
      constructor
      · intro h
        cases h
      · intro _
        exact hfirst
  | ok a =>
      rw [Prog.bind_of_ok _ hrun]
      constructor
      · exact (hf a s').leave
      · intro h
        exact ((hf a s').stay h).trans hfirst

theorem leaves_then {α : Type} {p : LoopM L β α} {q : LoopM L β Exit}
    (hp : Prog.Moves SameMode p) (hq : forall s, Leaves s (q s))
    (s : Loop L β) : Leaves s ((p >>= fun _ => q) s) :=
  leaves_bind hp (fun _ => hq) s

omit [Cell β] in
theorem ite_apply {c : Prop} [Decidable c] (p q : LoopM L β Exit)
    (s : Loop L β) : (if c then p else q) s = if c then p s else q s := by
  split <;> rfl

theorem leaves_ite {c : Prop} [Decidable c] {p q : LoopM L β Exit}
    (hp : forall s, Leaves s (p s)) (hq : forall s, Leaves s (q s))
    (s : Loop L β) : Leaves s ((if c then p else q) s) := by
  rw [ite_apply]
  split
  · exact hp s
  · exact hq s

theorem leaves_isAdmin {rest : LoopM L β Exit}
    (hrest : forall s, Leaves s (rest s)) (s : Loop L β) :
    Leaves s ((do
      let admin ← onCard Session.isAdmin
      if admin then pure .leave else rest : LoopM L β Exit) s) := by
  rcases s with ⟨l, card, r, w⟩
  cases card with
  | none =>
      constructor
      · intro h
        cases h
      · intro _
        rfl
  | some c =>
      by_cases hadmin : c.testCard "ADMIN"
      · rw [isAdmin_leave rest hadmin]
        constructor
        · intro _
          exact ⟨rfl, c, rfl, hadmin⟩
        · intro h
          exact absurd rfl h
      · rw [isAdmin_pass rest hadmin]
        exact hrest _

theorem leaves_visit {ph : Phases L β} (hph : ph.SameMode) (inp : Input β)
    {dispatch : LoopM L β Exit} (hdispatch : forall s, Leaves s (dispatch s))
    (s : Loop L β) : Leaves s (visit ph inp dispatch s) := by
  apply leaves_bind (sameMode_poll hph inp)
  intro found
  apply leaves_ite _ leaves_next
  apply leaves_bind (sameMode_load hph inp)
  intro loaded
  exact leaves_ite hdispatch leaves_next

theorem leaves_guarded {body : LoopM L β Exit}
    (hbody : forall s, Leaves s (body s)) (s : Loop L β) :
    Leaves s (guarded body s) := by
  have h := hbody s
  rcases hrun : body s with ⟨result, s'⟩
  rw [hrun] at h
  cases result with
  | ok e =>
      rw [guarded_of_ok hrun]
      exact h
  | error e =>
      have hkept : s'.world.mode = s.world.mode :=
        h.stay fun hleave => by cases hleave
      cases e with
      | exception =>
          rw [guarded_of_exception hrun]
          exact ⟨fun hleave => (by cases hleave), fun _ => hkept⟩
      | crash =>
          have hcrash : guarded body s = (.error .crash, s') :=
            trying_of_crash _ hrun
          rw [hcrash]
          exact ⟨fun hleave => (by cases hleave), fun _ => hkept⟩

end Loop

/-!
## Bar
-/

theorem mode_printLine {β : Type} (timer shown : Int) (i : Fin 4)
    (w : World β) : (printLine timer shown i w).2.mode = w.mode := by
  rw [printLine, Prog.modify_apply]
  dsimp only
  split
  · rfl
  · split
    · rfl
    · split
      · rfl
      · split <;> rfl

theorem mode_print {β : Type} (timer : Int) (shown : Fin 4 -> Int)
    (w : World β) : (print timer shown w).2.mode = w.mode :=
  (mode_printLine timer _ 3 _).trans
    ((mode_printLine timer _ 2 _).trans
      ((mode_printLine timer _ 1 _).trans (mode_printLine timer _ 0 w)))

namespace Bar

variable {β : Type}

theorem sameMode_setConso (order : Order) :
    Prog.Moves Loop.SameMode (setConso order : LoopM Locals β Unit) :=
  fun _ => rfl

theorem sameMode_setTime (time : Int) :
    Prog.Moves Loop.SameMode (setTime time : LoopM Locals β Unit) :=
  fun _ => rfl

theorem sameMode_cancelByKey (inp : Input β) :
    Prog.Moves Loop.SameMode (cancelByKey inp) := by
  apply Prog.moves_bind Loop.sameMode_getLocals
  intro l
  refine Prog.moves_ite ?_ (Prog.moves_pure _)
  apply Prog.moves_then (sameMode_setConso ∅)
  apply Prog.moves_then (Loop.sameMode_setCommand _ _ _)
  apply Prog.moves_then (Loop.sameMode_setCommand _ _ _)
  apply Prog.moves_then (Loop.sameMode_emit _)
  apply Prog.moves_then (Loop.sameMode_emit _)
  exact sameMode_setTime _

theorem sameMode_cancelByTime (inp : Input β) :
    Prog.Moves Loop.SameMode (cancelByTime inp) := by
  apply Prog.moves_bind Loop.sameMode_getLocals
  intro l
  refine Prog.moves_ite ?_ (Prog.moves_pure _)
  apply Prog.moves_then (sameMode_setConso ∅)
  apply Prog.moves_then (Loop.sameMode_setCommand _ _ _)
  apply Prog.moves_then (Loop.sameMode_setCommand _ _ _)
  exact sameMode_setTime _

theorem sameMode_dropOrder (inp : Input β) :
    Prog.Moves Loop.SameMode (dropOrder inp) := by
  apply Prog.moves_bind Loop.sameMode_getLocals
  intro l
  refine Prog.moves_ite ?_ (Prog.moves_pure _)
  apply Prog.moves_then (Loop.sameMode_emit _)
  apply Prog.moves_then (Loop.sameMode_setCommand _ _ _)
  apply Prog.moves_then (sameMode_setConso ∅)
  exact sameMode_setTime _

theorem mode_printEntries (cfg : Config)
    (entries : List (Sigma fun _ : Nat => Nat)) (w : World β) :
    (printEntries cfg entries w).2.mode = w.mode := by
  induction entries generalizing w with
  | nil => rfl
  | cons i rest ih =>
      rw [printEntries, Prog.bind_apply, Prog.ofExcept_apply]
      cases cfg.getConso i.1 with
      | error e => rfl
      | ok conso => exact ih _

variable [FloatCell β]

theorem phases_sameMode (cfg : Config) (inp : Input β) :
    (phases cfg inp).SameMode where
  gone := by
    apply Prog.moves_bind (Loop.sameMode_onCard Session.sameMode_getCard)
    intro c
    exact Prog.moves_ite (Prog.moves_pure _) (sameMode_dropOrder inp)
  scanned := Loop.sameMode_setRead false
  reading := Prog.moves_then (Loop.sameMode_emit _)
    (Loop.sameMode_setCommand _ _ _)
  lost := Prog.moves_then (sameMode_dropOrder inp)
    (Prog.moves_then (Loop.sameMode_emit _) (Loop.sameMode_setCommand _ _ _))
  finished := Prog.moves_then (Loop.sameMode_emit _)
    (Loop.sameMode_setCommand _ _ _)

theorem sameMode_decrementTicket (pass : Pass β) :
    Prog.Moves Session.SameMode (Session.decrementTicket pass) :=
  Session.sameMode_editCard _ pass

theorem sameMode_decrementCredit (pass : Pass β) (price : Rat) :
    Prog.Moves Session.SameMode (Session.decrementCredit pass price) := by
  apply Prog.moves_bind Session.sameMode_getCard
  intro c
  exact Prog.moves_ite (Prog.moves_pure _) (Session.sameMode_editCard _ pass)

theorem sameMode_useTicket (cfg : Config) (inp : Input β) :
    Prog.Moves Loop.SameMode (useTicket cfg inp) := by
  apply Prog.moves_bind (Loop.sameMode_onCard Session.sameMode_getCard)
  intro c
  apply Prog.moves_bind Loop.sameMode_getLocals
  intro l
  refine Prog.moves_ite ?_ (Prog.moves_pure _)
  refine Prog.moves_bind (Prog.moves_ofExcept _) ?_
  intro conso
  apply Prog.moves_then (sameMode_setConso _)
  apply Prog.moves_then (Loop.sameMode_emit _)
  apply Prog.moves_then (Loop.sameMode_setCommand _ _ _)
  apply Prog.moves_then
    (Loop.sameMode_onCard (Session.sameMode_sendHistory _ _ _ _))
  exact Loop.sameMode_onCard (sameMode_decrementTicket _)

theorem sameMode_sendEntries (cfg : Config)
    (entries : List (Sigma fun _ : Nat => Nat)) :
    Prog.Moves Session.SameMode
      (sendEntries cfg entries : SessionM β Unit) := by
  induction entries with
  | nil => exact Prog.moves_pure _
  | cons i rest ih =>
      refine Prog.moves_bind (Prog.moves_ofExcept _) ?_
      intro conso
      exact Prog.moves_then (Session.sameMode_sendHistory _ _ _ _) ih

theorem sameMode_charge (cfg : Config) (hash : HashOrder) (inp : Input β) :
    Prog.Moves Loop.SameMode (charge cfg hash inp) := by
  apply Prog.moves_bind (Loop.sameMode_onCard Session.sameMode_getCard)
  intro c
  apply Prog.moves_bind Loop.sameMode_getLocals
  intro l
  refine Prog.moves_bind (Prog.moves_ofExcept _) ?_
  intro price
  apply Prog.moves_ite
  · apply Prog.moves_then (Loop.sameMode_emit _)
    apply Prog.moves_then (Loop.sameMode_setCommand _ _ _)
    apply Prog.moves_then (Loop.sameMode_onCard (sameMode_decrementCredit _ _))
    exact Loop.sameMode_onCard (sameMode_sendEntries cfg _)
  · exact Prog.moves_then (Loop.sameMode_emit _)
      (Loop.sameMode_setCommand _ _ _)

theorem leaves_serveOrder (cfg : Config) (hash : HashOrder) (inp : Input β)
    (s : Loop Locals β) : Loop.Leaves s (serveOrder cfg hash inp s) := by
  apply Loop.leaves_then
  · exact Prog.moves_then (sameMode_useTicket cfg inp)
      (sameMode_charge cfg hash inp)
  apply Loop.leaves_then (sameMode_setConso ∅)
  apply Loop.leaves_then (sameMode_setTime _)
  apply Loop.leaves_then (Loop.sameMode_emit _)
  exact Loop.leaves_then (Loop.sameMode_setCommand _ _ _) Loop.leaves_next

theorem leaves_addConso (cfg : Config) (hash : HashOrder) (inp : Input β)
    (c : Card β) (order : Order) (s : Loop Locals β) :
    Loop.Leaves s (addConso cfg hash inp c order s) := by
  apply Loop.leaves_then (sameMode_setConso _)
  apply Loop.leaves_then
  · apply Loop.sameMode_onWorld
    intro w
    exact mode_printEntries cfg _ _
  apply Loop.leaves_then (sameMode_setTime _)
  apply Loop.leaves_then (Loop.sameMode_emit _)
  exact Loop.leaves_then (Loop.sameMode_setCommand _ _ _) Loop.leaves_next

theorem leaves_dispatch (cfg : Config) (hash : HashOrder) (inp : Input β)
    (s : Loop Locals β) : Loop.Leaves s (dispatch cfg hash inp s) := by
  apply Loop.leaves_isAdmin
  apply Loop.leaves_bind (Loop.sameMode_onCard Session.sameMode_getCard)
  intro c
  apply Loop.leaves_bind Loop.sameMode_getLocals
  intro l
  apply Loop.leaves_ite
  · apply Loop.leaves_then (Loop.sameMode_onCard (Session.sameMode_sendSOS cfg))
    exact Loop.leaves_then (Loop.sameMode_emit _) Loop.leaves_next
  apply Loop.leaves_ite
  · apply Loop.leaves_then (Loop.sameMode_emit _)
    apply Loop.leaves_then (Loop.sameMode_setCommand _ _ _)
    exact Loop.leaves_then (Loop.sameMode_setCommand _ _ _) Loop.leaves_next
  apply Loop.leaves_ite (leaves_serveOrder cfg hash inp)
  apply Loop.leaves_ite (leaves_addConso cfg hash inp c l.conso)
  apply Loop.leaves_then (Loop.sameMode_emit _)
  apply Loop.leaves_then (Loop.sameMode_setCommand _ _ _)
  apply Loop.leaves_then (Loop.sameMode_emit _)
  exact Loop.leaves_then (Loop.sameMode_setCommand _ _ _) Loop.leaves_next

theorem leaves_round (cfg : Config) (hash : HashOrder) (inp : Input β)
    (s : Loop Locals β) : Loop.Leaves s (round cfg hash inp s) := by
  apply Loop.leaves_then (Loop.sameMode_onWorld (mode_print _ _))
  apply Loop.leaves_guarded
  apply Loop.leaves_then (sameMode_cancelByKey inp)
  apply Loop.leaves_then (sameMode_cancelByTime inp)
  exact Loop.leaves_visit (phases_sameMode cfg inp) inp
    (leaves_dispatch cfg hash inp)

end Bar

/-!
## Kve
-/

namespace Kve

variable {β : Type}

theorem sameMode_setTicket (ticket : Bool) :
    Prog.Moves Loop.SameMode (setTicket ticket : LoopM Locals β Unit) :=
  fun _ => rfl

theorem sameMode_cancelTicket :
    Prog.Moves Loop.SameMode (cancelTicket : LoopM Locals β Unit) := by
  apply Prog.moves_bind Loop.sameMode_getLocals
  intro l
  refine Prog.moves_ite ?_ (Prog.moves_pure _)
  exact Prog.moves_then (Loop.sameMode_emit _) (sameMode_setTicket false)

theorem sameMode_addByKey (inp : Input β) :
    Prog.Moves Loop.SameMode (addByKey inp) := by
  refine Prog.moves_ite ?_ (Prog.moves_pure _)
  apply Prog.moves_then (sameMode_setTicket true)
  apply Prog.moves_then (Loop.sameMode_emit _)
  exact Loop.sameMode_modify fun _ => rfl

theorem sameMode_cancelByTime (inp : Input β) :
    Prog.Moves Loop.SameMode (cancelByTime inp) := by
  apply Prog.moves_bind Loop.sameMode_getLocals
  intro l
  exact Prog.moves_ite sameMode_cancelTicket (Prog.moves_pure _)

theorem phases_sameMode (cfg : Config) :
    (phases cfg : Loop.Phases Locals β).SameMode where
  gone := Loop.sameMode_setRead false
  scanned := Prog.moves_pure _
  reading := Loop.sameMode_emit _
  lost := Prog.moves_then sameMode_cancelTicket (Loop.sameMode_emit _)
  finished := Loop.sameMode_emit _

variable [FloatCell β]

theorem sameMode_useTicket (cfg : Config) (inp : Input β) :
    Prog.Moves Loop.SameMode (useTicket cfg inp) := by
  apply Prog.moves_then (sameMode_setTicket false)
  apply Prog.moves_then (Loop.sameMode_emit _)
  apply Prog.moves_then
    (Loop.sameMode_onCard (Bar.sameMode_decrementTicket _))
  apply Prog.moves_bind (Loop.sameMode_onCard Session.sameMode_getCard)
  intro c
  refine Prog.moves_bind (Prog.moves_ofExcept _) ?_
  intro conso
  exact Loop.sameMode_onCard (Session.sameMode_sendHistory _ _ _ _)

theorem sameMode_charge (cfg : Config) (inp : Input β) :
    Prog.Moves Loop.SameMode (charge cfg inp) := by
  apply Prog.moves_then (Loop.sameMode_emit _)
  apply Prog.moves_bind (Loop.sameMode_onCard Session.sameMode_getCard)
  intro c
  refine Prog.moves_ite ?_ (Loop.sameMode_emit _)
  apply Prog.moves_then (Loop.sameMode_emit _)
  apply Prog.moves_then
    (Loop.sameMode_onCard (Bar.sameMode_decrementCredit _ _))
  exact Loop.sameMode_onCard (Session.sameMode_sendHistory _ _ _ _)

theorem leaves_dispatch (cfg : Config) (inp : Input β)
    (s : Loop Locals β) : Loop.Leaves s (dispatch cfg inp s) := by
  apply Loop.leaves_isAdmin
  apply Loop.leaves_bind (Loop.sameMode_onCard Session.sameMode_getCard)
  intro c
  apply Loop.leaves_bind Loop.sameMode_getLocals
  intro l
  apply Loop.leaves_ite
  · apply Loop.leaves_then (Loop.sameMode_onCard (Session.sameMode_sendSOS cfg))
    apply Loop.leaves_then (Loop.sameMode_emit _)
    apply Loop.leaves_then sameMode_cancelTicket
    exact Loop.leaves_then (Loop.sameMode_emit _) Loop.leaves_next
  apply Loop.leaves_ite
  · apply Loop.leaves_then (Loop.sameMode_emit _)
    apply Loop.leaves_then (Loop.sameMode_emit _)
    exact Loop.leaves_then sameMode_cancelTicket Loop.leaves_next
  apply Loop.leaves_ite
  · apply Loop.leaves_ite
    · exact Loop.leaves_then (sameMode_useTicket cfg inp) Loop.leaves_next
    · apply Loop.leaves_then (sameMode_charge cfg inp)
      apply Loop.leaves_then sameMode_cancelTicket
      exact Loop.leaves_then (Loop.sameMode_emit _) Loop.leaves_next
  apply Loop.leaves_then (Loop.sameMode_emit _)
  exact Loop.leaves_then (Loop.sameMode_emit _) Loop.leaves_next

theorem leaves_round (cfg : Config) (inp : Input β) (s : Loop Locals β) :
    Loop.Leaves s (round cfg inp s) := by
  apply Loop.leaves_guarded
  apply Loop.leaves_then
    (Prog.moves_ite sameMode_cancelTicket (Prog.moves_pure _))
  apply Loop.leaves_then (sameMode_cancelByTime inp)
  apply Loop.leaves_then (sameMode_addByKey inp)
  exact Loop.leaves_visit (phases_sameMode cfg) inp (leaves_dispatch cfg inp)

end Kve

/-!
## Caisse
-/

namespace Caisse

variable {β : Type} [FloatCell β]

omit [FloatCell β] in
theorem phases_sameMode (cfg : Config) :
    (phases cfg : Loop.Phases Unit β).SameMode where
  gone := Loop.sameMode_setRead false
  scanned := Prog.moves_pure _
  reading := Loop.sameMode_emit _
  lost := Loop.sameMode_emit _
  finished := Loop.sameMode_emit _

theorem sameMode_showTicket (cfg : Config) :
    Prog.Moves Loop.SameMode (showTicket cfg : LoopM Unit β Unit) := by
  apply Prog.moves_bind (Loop.sameMode_onCard Session.sameMode_getCard)
  intro c
  refine Prog.moves_ite ?_ (Prog.moves_pure _)
  split
  · exact Loop.sameMode_emit _
  · exact Prog.moves_pure _

theorem sameMode_incrementCredit (pass : Pass β) (credit : Rat) :
    Prog.Moves Session.SameMode (Session.incrementCredit pass credit) := by
  refine Prog.moves_ite (Prog.moves_pure _) ?_
  apply Prog.moves_bind Session.sameMode_getCard
  intro c
  exact Session.sameMode_editCard _ pass

theorem leaves_topUp (cfg : Config) (inp : Input β) (s : Loop Unit β) :
    Loop.Leaves s (topUp cfg inp s) := by
  apply Loop.leaves_bind (Loop.sameMode_onCard Session.sameMode_getCard)
  intro c
  apply Loop.leaves_then (Loop.sameMode_emit _)
  apply Loop.leaves_then (sameMode_showTicket cfg)
  apply Loop.leaves_then (Loop.sameMode_emit _)
  apply Loop.leaves_ite
  · apply Loop.leaves_then (Loop.sameMode_emit _)
    exact Loop.leaves_then (Loop.sameMode_emit _) Loop.leaves_next
  apply Loop.leaves_then (Loop.sameMode_onCard (sameMode_incrementCredit _ _))
  apply Loop.leaves_then
    (Loop.sameMode_onCard (Session.sameMode_sendHistory _ _ _ _))
  apply Loop.leaves_bind (Loop.sameMode_onCard Session.sameMode_getCard)
  intro charged
  apply Loop.leaves_then (Loop.sameMode_emit _)
  exact Loop.leaves_then (Loop.sameMode_emit _) Loop.leaves_next

theorem leaves_dispatch (cfg : Config) (inp : Input β) (s : Loop Unit β) :
    Loop.Leaves s (dispatch cfg inp s) := by
  apply Loop.leaves_isAdmin
  apply Loop.leaves_bind (Loop.sameMode_onCard Session.sameMode_getCard)
  intro c
  apply Loop.leaves_ite
  · apply Loop.leaves_then (Loop.sameMode_onCard (Session.sameMode_sendSOS cfg))
    exact Loop.leaves_then (Loop.sameMode_emit _) Loop.leaves_next
  apply Loop.leaves_ite
  · apply Loop.leaves_then (Loop.sameMode_emit _)
    exact Loop.leaves_then (Loop.sameMode_emit _) Loop.leaves_next
  apply Loop.leaves_ite
  · apply Loop.leaves_then (Loop.sameMode_emit _)
    exact Loop.leaves_then
      (Loop.sameMode_onCard (Session.sameMode_editCard _ _)) Loop.leaves_next
  · exact leaves_topUp cfg inp

theorem leaves_round (cfg : Config) (inp : Input β) (s : Loop Unit β) :
    Loop.Leaves s (round cfg inp s) := by
  apply Loop.leaves_guarded
  exact Loop.leaves_visit (phases_sameMode cfg) inp (leaves_dispatch cfg inp)

end Caisse

/-!
## Admin
-/

namespace Admin

variable {β : Type}

def selection (inp : Input β) : Option ConfigMode :=
  if inp.key = 48 then some .bar
  else if inp.key = 49 then some .caisse
  else if inp.key = 50 then some .kve
  else none

def selectedIn (inp : Input β) (s : Loop Menu β) : Option ConfigMode :=
  if s.locals = .modes then selection inp else none

theorem sameMode_setMenu (menu : Menu) :
    Prog.Moves Loop.SameMode (setMenu menu : LoopM Menu β Unit) :=
  fun _ => rfl

theorem sameMode_printConsos (consos : List (String × Rat)) (i : Nat) :
    Prog.Moves Loop.SameMode (printConsos consos i : LoopM Menu β Unit) := by
  induction consos generalizing i with
  | nil => exact Prog.moves_pure _
  | cons conso consos ih =>
      exact Prog.moves_then (Loop.sameMode_emit _) (ih (i + 1))

theorem sameMode_closeMenu :
    Prog.Moves Loop.SameMode (closeMenu : LoopM Menu β Unit) := by
  apply Prog.moves_then (Loop.sameMode_emit _)
  exact Prog.moves_then (Loop.sameMode_emit _) (sameMode_setMenu .main)

variable [FloatCell β]

theorem sameMode_findCard (cfg : Config) (inp : Input β) :
    Prog.Moves Loop.SameMode (findCard cfg inp) :=
  Prog.moves_then (Loop.sameMode_emit _) (Loop.sameMode_scan _ _)

theorem sameMode_createConso (cfg : Config) (inp : Input β) :
    Prog.Moves Loop.SameMode (createConso cfg inp) := by
  apply Prog.moves_then (Loop.sameMode_emit _)
  apply Prog.moves_then (Loop.sameMode_emit _)
  apply Prog.moves_then (sameMode_printConsos _ _)
  apply Prog.moves_then (Loop.sameMode_emit _)
  apply Prog.moves_ite
  · exact Prog.moves_then (Loop.sameMode_emit _) (Loop.sameMode_emit _)
  · exact Prog.moves_then (sameMode_findCard cfg inp)
      (Loop.sameMode_onCard (Session.sameMode_editCard _ _))

theorem sameMode_createDebit (cfg : Config) (inp : Input β) :
    Prog.Moves Loop.SameMode (createDebit cfg inp) := by
  apply Prog.moves_then (sameMode_findCard cfg inp)
  apply Prog.moves_then
    (Loop.sameMode_onCard (Session.sameMode_editCard _ _))
  apply Prog.moves_then (Loop.sameMode_emit _)
  refine Prog.moves_ite ?_ (Prog.moves_pure _)
  refine Prog.moves_bind (Prog.moves_ofExcept _) ?_
  intro id
  exact Prog.moves_then
    (Loop.sameMode_onCard (Session.sameMode_editCard _ _))
    (Loop.sameMode_emit _)

theorem sameMode_createMenu (cfg : Config) (inp : Input β) :
    Prog.Moves Loop.SameMode (createMenu cfg inp) := by
  apply Prog.moves_then (Loop.sameMode_emit _)
  apply Prog.moves_then (Loop.sameMode_emit _)
  apply Prog.moves_then (Loop.sameMode_emit _)
  apply Prog.moves_then (Loop.sameMode_emit _)
  apply Prog.moves_then (Loop.sameMode_emit _)
  apply Prog.moves_then (Loop.sameMode_emit _)
  apply Prog.moves_then (Loop.sameMode_emit _)
  apply Prog.moves_then (Loop.sameMode_setPointer none)
  apply Prog.moves_ite
  · exact Prog.moves_then (sameMode_findCard cfg inp)
      (Loop.sameMode_onCard (Session.sameMode_editCard _ _))
  apply Prog.moves_ite (sameMode_createConso cfg inp)
  apply Prog.moves_ite (sameMode_createDebit cfg inp)
  apply Prog.moves_ite
  · exact Prog.moves_then (sameMode_findCard cfg inp)
      (Loop.sameMode_onCard (Session.sameMode_editCard _ _))
  · exact sameMode_closeMenu

omit [FloatCell β] in
theorem goes_on {p : LoopM Menu β Unit} (s : Loop Menu β) :
    ((do
      p
      pure none : LoopM Menu β (Option Bool)) s).1 ≠ .ok (some true) := by
  rcases hrun : p s with ⟨result, s'⟩
  cases result with
  | ok _ =>
      rw [Prog.bind_of_ok _ hrun]
      intro h
      cases h
  | error e =>
      rw [Prog.bind_of_error _ hrun]
      intro h
      cases h

omit [FloatCell β] in
theorem mainMenu_run (inp : Input β) (s : Loop Menu β) :
    (mainMenu inp s).2.world.mode = s.world.mode ∧
      ((mainMenu inp s).1 = .ok (some true) <-> inp.key = 48) := by
  let s₁ : Loop Menu β := { s with
    world := s.world.addLog [.info "--- Menu ---", .info "0 - quit Admin mode",
      .info "1 - quit program", .info "2 - set mode",
      .info "3 - create card"] }
  have happly : mainMenu inp s =
      (if inp.key = 51 then do
        setMenu .create
        pure none
      else if inp.key = 50 then do
        Loop.onWorld (emit .clearScreen)
        setMenu .modes
        pure none
      else if inp.key = 48 then pure (some true)
      else if inp.key = 49 then pure (some false)
      else do
        Loop.onWorld (emit .clearScreen)
        pure none : LoopM Menu β (Option Bool)) s₁ := by
    simp [mainMenu, Prog.bind_apply, Loop.onWorld, Prog.zoom_apply, printInfo,
      emit, s₁]
  rw [happly]
  split
  · rename_i h
    exact ⟨rfl, by simp [h, Prog.bind_apply, setMenu, Loop.setLocals]⟩
  · split
    · rename_i h
      exact ⟨rfl, by
        simp [h, Prog.bind_apply, setMenu, Loop.setLocals, Loop.onWorld,
          Prog.zoom_apply, emit]⟩
    · split
      · rename_i h
        exact ⟨rfl, by simp [h]⟩
      · rename_i h
        split
        · exact ⟨rfl, by simp [h]⟩
        · exact ⟨rfl, by
            simp [h, Prog.bind_apply, Loop.onWorld, Prog.zoom_apply, emit]⟩

omit [FloatCell β] in
theorem modeMenu_mode (inp : Input β) (s : Loop Menu β) :
    (modeMenu inp s).2.world.mode = (selection inp).getD s.world.mode := by
  unfold modeMenu selectMode selection
  split
  · rfl
  · split
    · rfl
    · split <;> rfl

theorem round_run (cfg : Config) (inp : Input β) (s : Loop Menu β) :
    (round cfg inp s).2.world.mode =
        (selectedIn inp s).getD s.world.mode ∧
      ((round cfg inp s).1 = .ok (some true) <->
        s.locals = .main ∧ inp.key = 48) := by
  rcases s with ⟨menu, card, r, w⟩
  cases menu with
  | main =>
      rcases mainMenu_run inp ⟨.main, card, r, w⟩ with ⟨hmode, hquit⟩
      refine ⟨hmode, ?_⟩
      constructor
      · intro h
        exact ⟨rfl, hquit.mp h⟩
      · intro h
        exact hquit.mpr h.right
  | create =>
      constructor
      · exact Prog.moves_then (sameMode_createMenu cfg inp)
          (Prog.moves_pure none) ⟨.create, card, r, w⟩
      · constructor
        · intro h
          exact absurd h (goes_on _)
        · intro hall
          rcases hall with ⟨hmenu, _⟩
          cases hmenu
  | modes =>
      constructor
      · have hstate : (round cfg inp ⟨.modes, card, r, w⟩).2 =
            (modeMenu inp ⟨.modes, card, r, w⟩).2 :=
          Prog.then_pure_state _ none _
        rw [hstate, modeMenu_mode]
        rfl
      · constructor
        · intro h
          exact absurd h (goes_on _)
        · intro hall
          rcases hall with ⟨hmenu, _⟩
          cases hmenu

end Admin

end BeeGadz
