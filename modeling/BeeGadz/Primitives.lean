import BeeGadz.Admin
import BeeGadz.Bar
import BeeGadz.Caisse
import BeeGadz.Kve
import BeeGadz.Round

/-!
# What the modes are built of

What a mode does with a card is put together from a few computations: what is
said without a command to the card, an edit of the record followed by
`writeCard`, and changes of the local variables.  Each function is taken apart
once here.  The invariants of the rounds are then shown for these computations
only.
-/

namespace BeeGadz

open Foundation

/-!
## What is said
-/

/-- No command for a card and no answer to one. -/
def Event.isTalk {β : Type} : Event β -> Bool
  | .frame _ _ _ => false
  | .received _ _ _ => false
  | _ => true

namespace World

variable {β : Type}

structure Talk (w w' : World β) : Prop where
  mem : w'.mem = w.mem
  log : exists events, w'.log = w.log ++ events ∧
    forall e, e ∈ events -> e.isTalk = true

instance : IsPreorder (World β) Talk where
  refl w := ⟨rfl, [], (List.append_nil _).symm, by simp⟩
  trans w₁ w₂ w₃ h h' := by
    rcases h.log with ⟨first, hlog, hfirst⟩
    rcases h'.log with ⟨second, hlog', hsecond⟩
    refine ⟨h'.mem.trans h.mem, first ++ second,
      by rw [hlog', hlog, List.append_assoc], ?_⟩
    intro e he
    rcases List.mem_append.mp he with he | he
    · exact hfirst e he
    · exact hsecond e he

/-- A computation on the world that only talks, and does not crash. -/
structure Talks {α : Type} (p : WorldM β α) : Prop where
  moves : Prog.Moves Talk p
  avoids : Prog.Avoids .crash (fun _ => True) p

theorem talks_emit {e : Event β} (he : e.isTalk = true) : Talks (emit e) where
  moves := fun _ => ⟨rfl, [e], rfl, by simpa using he⟩
  avoids := Prog.avoids_modify fun _ _ => trivial

theorem talks_setCommand (command : String) (line : Fin 4) (time : Nat) :
    Talks (setCommand command line time : WorldM β Unit) where
  moves := fun _ => ⟨rfl, [], (List.append_nil _).symm, by simp⟩
  avoids := Prog.avoids_modify fun _ _ => trivial

theorem talks_setMode (mode : ConfigMode) :
    Talks (setMode mode : WorldM β Unit) where
  moves := fun _ => ⟨rfl, [], (List.append_nil _).symm, by simp⟩
  avoids := Prog.avoids_modify fun _ _ => trivial

theorem sentWrites_talk {events : List (Event β)}
    (h : forall e, e ∈ events -> e.isTalk = true) : sentWrites events = [] := by
  apply List.filterMap_eq_nil_iff.mpr
  intro e he
  have htalk := h e he
  cases e <;> first | rfl | cases htalk

theorem Talks.then {α γ : Type} {p : WorldM β α} {q : WorldM β γ}
    (hp : Talks p) (hq : Talks q) : Talks (p >>= fun _ => q) where
  moves := Prog.moves_then hp.moves hq.moves
  avoids := Prog.avoids_then hp.avoids hq.avoids

end World

theorem Config.getConso_ne_crash (cfg : Config) (nb : Nat) :
    cfg.getConso nb ≠ .error .crash := by
  intro h
  cases Config.getConso_error h

theorem Config.stoi_ne_crash (n : Int) : Config.stoi n ≠ .error .crash := by
  unfold Config.stoi
  split <;> simp

/-!
## Edits
-/

namespace Card

variable {β : Type}

/-- A change of the cached record within the listed blocks. -/
structure Edited (blocks : List Nat) (c c' : Card β) : Prop where
  frame : SameFrame c c'
  pending : forall a, c'.Pending a -> c.Pending a ∨ a ∈ blocks
  name : 4 ∉ blocks -> (c'.block 1 0).data = (c.block 1 0).data

instance (blocks : List Nat) : IsPreorder (Card β) (Edited blocks) where
  refl c := ⟨SameFrame.refl c, fun _ h => Or.inl h, fun _ => rfl⟩
  trans c₁ c₂ c₃ h h' := by
    refine ⟨h.frame.trans h'.frame, ?_,
      fun hname => (h'.name hname).trans (h.name hname)⟩
    intro a ha
    cases h'.pending a ha with
    | inl hpending => exact h.pending a hpending
    | inr hmem => exact Or.inr hmem

theorem edited_edit {blocks : List Nat} (c : Card β) {k : Nat}
    (hk : k < 4) (hmem : 4 + k ∈ blocks) (f : Bytes β 16 -> Bytes β 16) :
    Edited blocks c (c.edit k f) where
  frame := sameFrame_edit _ _ _
  pending := by
    intro a ha
    cases (pending_edit c k hk f a).mp ha with
    | inl heq => exact Or.inr (heq ▸ hmem)
    | inr hpending => exact Or.inl hpending
  name := by
    intro hname
    have hne : 0 ≠ k := by
      intro heq
      subst heq
      exact hname hmem
    rw [edit_block_of_ne c f hne]

end Card

/-!
## Work on a card
-/

namespace Session

variable {β : Type} {blocks : List Nat}

inductive Primitive [Cell β] (blocks : List Nat) :
    (α : Type) -> SessionM β α -> Prop
  | getCard : Primitive blocks (Card β) getCard
  | onWorld {α : Type} {p : WorldM β α} (h : World.Talks p) :
      Primitive blocks α (onWorld p)
  | editCard {f : Card β -> Card β} (pass : Pass β)
      (h : forall c, Card.Edited blocks c (f c)) :
      Primitive blocks Unit (do
        modifyCard f
        writeCard pass)

/-- Of the blocks of the card only the listed ones are edited. -/
abbrev Built [Cell β] (blocks : List Nat) {α : Type} (p : SessionM β α) :
    Prop :=
  Prog.Built .crash (Primitive blocks) α p

section Cells

variable [Cell β]

theorem built_getCard : Built blocks (getCard : SessionM β (Card β)) :=
  .of .getCard

theorem built_emit {e : Event β} (he : e.isTalk = true) :
    Built blocks (onWorld (emit e)) :=
  .of (.onWorld (World.talks_emit he))

theorem built_editCard {f : Card β -> Card β} (pass : Pass β)
    (h : forall c, Card.Edited blocks c (f c)) :
    Built blocks (do
      modifyCard f
      writeCard pass : SessionM β Unit) :=
  .of (.editCard pass h)

theorem built_isAdmin : Built blocks (isAdmin : SessionM β Bool) := by
  apply Prog.Built.bind built_getCard
  intro c
  apply Prog.built_ite
  · apply Prog.built_then (.of (.onWorld (World.talks_setMode _)))
    exact Prog.built_pure _
  · exact Prog.built_pure _

theorem built_sendSOS (cfg : Config) :
    Built blocks (sendSOS cfg : SessionM β Unit) :=
  Prog.Built.bind built_getCard fun _ => built_emit rfl

theorem built_sendHistory (cfg : Config) (kind : RowKind)
    (command : String) (price : Rat) :
    Built blocks (sendHistory cfg kind command price : SessionM β Unit) :=
  Prog.Built.bind built_getCard fun _ => built_emit rfl

theorem built_createAdmin (h : 4 ∈ blocks) (pass : Pass β) :
    Built blocks (createAdmin pass) :=
  built_editCard pass fun c => Card.edited_edit c (by decide) h _

theorem built_createSOS (h : 4 ∈ blocks) (pass : Pass β) :
    Built blocks (createSOS pass) :=
  built_editCard pass fun c => Card.edited_edit c (by decide) h _

theorem built_createConso (h4 : 4 ∈ blocks) (h5 : 5 ∈ blocks)
    (pass : Pass β) (id : UInt8) : Built blocks (createConso pass id) :=
  built_editCard pass fun c =>
    Trans.trans (Card.edited_edit c (by decide) h4 _)
      (Card.edited_edit _ (by decide) h5 _)

theorem built_setTicket (h : 6 ∈ blocks) (pass : Pass β) (id : UInt8) :
    Built blocks (setTicket pass id) :=
  built_editCard pass fun c => Card.edited_edit c (by decide) h _

end Cells

section Amounts

variable [FloatCell β]

theorem built_createDebit (h4 : 4 ∈ blocks) (h5 : 5 ∈ blocks)
    (h6 : 6 ∈ blocks) (pass : Pass β) : Built blocks (createDebit pass) :=
  built_editCard pass fun c =>
    Trans.trans (Card.edited_edit c (by decide) h4 _)
      (Trans.trans (Card.edited_edit _ (by decide) h5 _)
        (Card.edited_edit _ (by decide) h6 _))

theorem built_incrementCredit (h : 5 ∈ blocks) (pass : Pass β)
    (credit : Rat) : Built blocks (incrementCredit pass credit) := by
  apply Prog.built_ite (Prog.built_pure _)
  apply Prog.Built.bind built_getCard
  intro c
  exact built_editCard pass fun c => Card.edited_edit c (by decide) h _

theorem built_decrementCredit (h : 5 ∈ blocks) (pass : Pass β)
    (price : Rat) : Built blocks (decrementCredit pass price) := by
  apply Prog.Built.bind built_getCard
  intro c
  apply Prog.built_ite (Prog.built_pure _)
  exact built_editCard pass fun c => Card.edited_edit c (by decide) h _

theorem built_decrementTicket (h : 6 ∈ blocks) (pass : Pass β) :
    Built blocks (decrementTicket pass) :=
  built_editCard pass fun c => Card.edited_edit c (by decide) h _

theorem built_sendEntries (cfg : Config)
    (entries : List (Sigma fun _ : Nat => Nat)) :
    Built blocks (Bar.sendEntries cfg entries : SessionM β Unit) := by
  induction entries with
  | nil => exact Prog.built_pure _
  | cons i rest ih =>
      apply Prog.Built.bind (.ofExcept (cfg.getConso_ne_crash i.1))
      intro conso
      exact Prog.built_then (built_sendHistory _ _ _ _) ih

end Amounts

end Session

/-!
## Rounds
-/

namespace Loop

variable {L β : Type} [Cell β] {blocks : List Nat}

inductive Primitive (blocks : List Nat) :
    (α : Type) -> LoopM L β α -> Prop
  | getLocals : Primitive blocks L getLocals
  | modify {f : Loop L β -> Loop L β} (hcard : forall s, (f s).card = s.card)
      (hworld : forall s, (f s).world = s.world) :
      Primitive blocks Unit (Prog.modify f)
  | onWorld {α : Type} {p : WorldM β α} (h : World.Talks p) :
      Primitive blocks α (onWorld p)
  | onCard {α : Type} {p : SessionM β α} (h : Session.Built blocks p) :
      Primitive blocks α (onCard p)

/-- Of the blocks of the held card only the listed ones are edited. -/
abbrev Built (blocks : List Nat) {α : Type} (p : LoopM L β α) : Prop :=
  Prog.Built .crash (Primitive blocks) α p

omit [Cell β] in
theorem Still.talk {loud : List String} {s s' : Loop L β}
    (h : Still loud s s') : s.world.Talk s'.world := by
  rcases h.log with ⟨events, hlog, hstill⟩
  refine ⟨h.mem, events, hlog, ?_⟩
  intro e he
  have hidle := hstill e he
  cases e <;> first | rfl | cases hidle

theorem built_getLocals : Built blocks (getLocals : LoopM L β L) :=
  .of .getLocals

theorem built_modify {f : Loop L β -> Loop L β}
    (hcard : forall s, (f s).card = s.card)
    (hworld : forall s, (f s).world = s.world) :
    Built blocks (Prog.modify f : LoopM L β Unit) :=
  .of (.modify hcard hworld)

theorem built_onWorld {α : Type} {p : WorldM β α} (h : World.Talks p) :
    Built blocks (onWorld p : LoopM L β α) :=
  .of (.onWorld h)

theorem built_emit {e : Event β} (he : e.isTalk = true) :
    Built blocks (onWorld (emit e) : LoopM L β Unit) :=
  built_onWorld (World.talks_emit he)

theorem built_printInfo (message : String) :
    Built blocks (onWorld (printInfo message) : LoopM L β Unit) :=
  built_emit rfl

theorem built_setCommand (command : String) (line : Fin 4) (time : Nat) :
    Built blocks (onWorld (setCommand command line time) : LoopM L β Unit) :=
  built_onWorld (World.talks_setCommand _ _ _)

theorem built_onCard {α : Type} {p : SessionM β α}
    (h : Session.Built blocks p) : Built blocks (onCard p : LoopM L β α) :=
  .of (.onCard h)

theorem built_getCard :
    Built blocks (onCard Session.getCard : LoopM L β (Card β)) :=
  built_onCard Session.built_getCard

theorem built_isAdmin {rest : LoopM L β Exit} (h : Built blocks rest) :
    Built blocks (do
      let admin ← onCard Session.isAdmin
      if admin then pure .leave else rest : LoopM L β Exit) := by
  apply Prog.Built.bind (built_onCard Session.built_isAdmin)
  intro admin
  exact Prog.built_ite (Prog.built_pure _) h

end Loop

namespace Kve

variable {β : Type} [FloatCell β] {blocks : List Nat}

theorem built_setTicket (ticket : Bool) :
    Loop.Built blocks (setTicket ticket : LoopM Locals β Unit) :=
  Loop.built_modify (fun _ => rfl) (fun _ => rfl)

theorem built_cancelTicket :
    Loop.Built blocks (cancelTicket : LoopM Locals β Unit) := by
  apply Prog.Built.bind Loop.built_getLocals
  intro l
  refine Prog.built_ite ?_ (Prog.built_pure _)
  exact Prog.built_then (Loop.built_printInfo _) (built_setTicket false)

theorem built_useTicket (cfg : Config) (inp : Input β) (h : 6 ∈ blocks) :
    Loop.Built blocks (useTicket cfg inp) := by
  apply Prog.built_then (built_setTicket false)
  apply Prog.built_then (Loop.built_printInfo _)
  apply Prog.built_then
    (Loop.built_onCard (Session.built_decrementTicket h _))
  apply Prog.Built.bind Loop.built_getCard
  intro c
  apply Prog.Built.bind (.ofExcept (cfg.getConso_ne_crash _))
  intro conso
  exact Loop.built_onCard (Session.built_sendHistory _ _ _ _)

theorem built_charge (cfg : Config) (inp : Input β) (h : 5 ∈ blocks) :
    Loop.Built blocks (charge cfg inp) := by
  apply Prog.built_then (Loop.built_printInfo _)
  apply Prog.Built.bind Loop.built_getCard
  intro c
  refine Prog.built_ite ?_ (Loop.built_printInfo _)
  apply Prog.built_then (Loop.built_printInfo _)
  apply Prog.built_then
    (Loop.built_onCard (Session.built_decrementCredit h _ _))
  exact Loop.built_onCard (Session.built_sendHistory _ _ _ _)

theorem built_answerSOS (cfg : Config) :
    Loop.Built blocks (answerSOS cfg : LoopM Locals β Exit) := by
  apply Prog.built_then (Loop.built_onCard (Session.built_sendSOS cfg))
  apply Prog.built_then (Loop.built_printInfo _)
  apply Prog.built_then built_cancelTicket
  exact Prog.built_then (Loop.built_printInfo _) (Prog.built_pure _)

theorem built_refuseConso :
    Loop.Built blocks (refuseConso : LoopM Locals β Exit) := by
  apply Prog.built_then (Loop.built_printInfo _)
  apply Prog.built_then (Loop.built_printInfo _)
  exact Prog.built_then built_cancelTicket (Prog.built_pure _)

theorem built_serveSale (cfg : Config) (inp : Input β) (h : 5 ∈ blocks) :
    Loop.Built blocks (serveSale cfg inp) := by
  apply Prog.built_then (built_charge cfg inp h)
  apply Prog.built_then built_cancelTicket
  exact Prog.built_then (Loop.built_printInfo _) (Prog.built_pure _)

theorem built_refuseOther :
    Loop.Built blocks (refuseOther : LoopM Locals β Exit) := by
  apply Prog.built_then (Loop.built_printInfo _)
  exact Prog.built_then (Loop.built_printInfo _) (Prog.built_pure _)

theorem built_dispatch (cfg : Config) (inp : Input β) :
    Loop.Built [5, 6] (dispatch cfg inp) := by
  apply Loop.built_isAdmin
  apply Prog.Built.bind Loop.built_getCard
  intro c
  apply Prog.Built.bind Loop.built_getLocals
  intro l
  apply Prog.built_ite (built_answerSOS cfg)
  apply Prog.built_ite built_refuseConso
  refine Prog.built_ite ?_ built_refuseOther
  refine Prog.built_ite ?_ (built_serveSale cfg inp (by decide))
  exact Prog.built_then (built_useTicket cfg inp (by decide))
    (Prog.built_pure _)

end Kve

namespace Bar

variable {β : Type} [FloatCell β] {blocks : List Nat}

theorem built_setConso (order : Order) :
    Loop.Built blocks (setConso order : LoopM Locals β Unit) :=
  Loop.built_modify (fun _ => rfl) (fun _ => rfl)

theorem built_setTime (time : Int) :
    Loop.Built blocks (setTime time : LoopM Locals β Unit) :=
  Loop.built_modify (fun _ => rfl) (fun _ => rfl)

theorem built_useTicket (cfg : Config) (inp : Input β) (h : 6 ∈ blocks) :
    Loop.Built blocks (useTicket cfg inp) := by
  apply Prog.Built.bind Loop.built_getCard
  intro c
  apply Prog.Built.bind Loop.built_getLocals
  intro l
  refine Prog.built_ite ?_ (Prog.built_pure _)
  apply Prog.Built.bind (.ofExcept (cfg.getConso_ne_crash _))
  intro conso
  apply Prog.built_then (built_setConso _)
  apply Prog.built_then (Loop.built_printInfo _)
  apply Prog.built_then (Loop.built_setCommand _ _ _)
  apply Prog.built_then
    (Loop.built_onCard (Session.built_sendHistory _ _ _ _))
  exact Loop.built_onCard (Session.built_decrementTicket h _)

theorem getPrice_ne_crash (cfg : Config) (hash : HashOrder) (order : Order) :
    getPrice β cfg hash order ≠ .error .crash := by
  unfold getPrice
  generalize (0 : Rat) = start
  induction hash.entries order generalizing start with
  | nil => simp [addPrices]
  | cons i rest ih =>
      unfold addPrices
      cases hconso : cfg.getConso i.1 with
      | ok conso => exact ih _
      | error e =>
          cases Config.getConso_error hconso
          simp

theorem built_charge (cfg : Config) (hash : HashOrder) (inp : Input β)
    (h : 5 ∈ blocks) : Loop.Built blocks (charge cfg hash inp) := by
  apply Prog.Built.bind Loop.built_getCard
  intro c
  apply Prog.Built.bind Loop.built_getLocals
  intro l
  apply Prog.Built.bind (.ofExcept (getPrice_ne_crash cfg hash l.conso))
  intro price
  apply Prog.built_ite
  · apply Prog.built_then (Loop.built_printInfo _)
    apply Prog.built_then (Loop.built_setCommand _ _ _)
    apply Prog.built_then
      (Loop.built_onCard (Session.built_decrementCredit h _ _))
    exact Loop.built_onCard (Session.built_sendEntries cfg _)
  · apply Prog.built_then (Loop.built_printInfo _)
    exact Loop.built_setCommand _ _ _

theorem built_answerSOS (cfg : Config) :
    Loop.Built blocks (answerSOS cfg : LoopM Locals β Exit) := by
  apply Prog.built_then (Loop.built_onCard (Session.built_sendSOS cfg))
  exact Prog.built_then (Loop.built_printInfo _) (Prog.built_pure _)

theorem built_showCredit (c : Card β) :
    Loop.Built blocks (showCredit c : LoopM Locals β Exit) := by
  apply Prog.built_then (Loop.built_printInfo _)
  apply Prog.built_then (Loop.built_setCommand _ _ _)
  exact Prog.built_then (Loop.built_setCommand _ _ _) (Prog.built_pure _)

theorem built_serveOrder (cfg : Config) (hash : HashOrder) (inp : Input β)
    (h5 : 5 ∈ blocks) (h6 : 6 ∈ blocks) :
    Loop.Built blocks (serveOrder cfg hash inp) := by
  apply Prog.built_then
  · exact Prog.built_then (built_useTicket cfg inp h6)
      (built_charge cfg hash inp h5)
  · apply Prog.built_then (built_setConso ∅)
    apply Prog.built_then (built_setTime _)
    apply Prog.built_then (Loop.built_printInfo _)
    exact Prog.built_then (Loop.built_setCommand _ _ _) (Prog.built_pure _)

omit [FloatCell β] in
theorem talks_printEntries (cfg : Config)
    (entries : List (Sigma fun _ : Nat => Nat)) :
    World.Talks (printEntries cfg entries : WorldM β Unit) := by
  induction entries with
  | nil => exact ⟨Prog.moves_pure _, Prog.avoids_pure _⟩
  | cons i rest ih =>
      have hsay : forall message : String,
          World.Talks (printInfo message : WorldM β Unit) :=
        fun message => World.talks_emit rfl
      constructor
      · exact Prog.moves_bind (Prog.moves_ofExcept _) fun conso =>
          ((hsay _).then ih).moves
      · exact Prog.avoids_bind
          (Prog.avoids_ofExcept (cfg.getConso_ne_crash i.1)) fun conso =>
            ((hsay _).then ih).avoids

theorem built_addConso (cfg : Config) (hash : HashOrder) (inp : Input β)
    (c : Card β) (order : Order) :
    Loop.Built blocks (addConso cfg hash inp c order) := by
  apply Prog.built_then (built_setConso _)
  apply Prog.built_then
  · apply Loop.built_onWorld
    exact (World.talks_emit rfl).then (talks_printEntries cfg _)
  · apply Prog.built_then (built_setTime _)
    apply Prog.built_then (Loop.built_printInfo _)
    exact Prog.built_then (Loop.built_setCommand _ _ _) (Prog.built_pure _)

theorem built_refuseOther :
    Loop.Built blocks (refuseOther : LoopM Locals β Exit) := by
  apply Prog.built_then (Loop.built_emit rfl)
  apply Prog.built_then (Loop.built_setCommand _ _ _)
  apply Prog.built_then (Loop.built_printInfo _)
  exact Prog.built_then (Loop.built_setCommand _ _ _) (Prog.built_pure _)

theorem built_dispatch (cfg : Config) (hash : HashOrder) (inp : Input β) :
    Loop.Built [5, 6] (dispatch cfg hash inp) := by
  apply Loop.built_isAdmin
  apply Prog.Built.bind Loop.built_getCard
  intro c
  apply Prog.Built.bind Loop.built_getLocals
  intro l
  apply Prog.built_ite (built_answerSOS cfg)
  apply Prog.built_ite (built_showCredit c)
  apply Prog.built_ite
    (built_serveOrder cfg hash inp (by decide) (by decide))
  exact Prog.built_ite (built_addConso cfg hash inp c l.conso)
    built_refuseOther

end Bar

namespace Caisse

variable {β : Type} [FloatCell β] {blocks : List Nat}

theorem built_showTicket (cfg : Config) :
    Loop.Built blocks (showTicket cfg : LoopM Unit β Unit) := by
  apply Prog.Built.bind Loop.built_getCard
  intro c
  refine Prog.built_ite ?_ (Prog.built_pure _)
  cases cfg.getConso c.getTicket.toNat with
  | ok conso => exact Loop.built_printInfo _
  | error e => exact Prog.built_pure _

theorem built_answerSOS (cfg : Config) :
    Loop.Built blocks (answerSOS cfg : LoopM Unit β Exit) := by
  apply Prog.built_then (Loop.built_onCard (Session.built_sendSOS cfg))
  exact Prog.built_then (Loop.built_printInfo _) (Prog.built_pure _)

theorem built_refuseConso :
    Loop.Built blocks (refuseConso : LoopM Unit β Exit) := by
  apply Prog.built_then (Loop.built_printInfo _)
  exact Prog.built_then (Loop.built_printInfo _) (Prog.built_pure _)

theorem built_create (inp : Input β) (h4 : 4 ∈ blocks) (h5 : 5 ∈ blocks)
    (h6 : 6 ∈ blocks) : Loop.Built blocks (create inp) := by
  apply Prog.built_then (Loop.built_printInfo _)
  apply Prog.built_then
    (Loop.built_onCard (Session.built_createDebit h4 h5 h6 _))
  exact Prog.built_pure _

theorem built_deposit (cfg : Config) (inp : Input β) (h : 5 ∈ blocks) :
    Loop.Built blocks (deposit cfg inp) := by
  apply Prog.built_then
    (Loop.built_onCard (Session.built_incrementCredit h _ _))
  apply Prog.built_then
    (Loop.built_onCard (Session.built_sendHistory _ _ _ _))
  apply Prog.Built.bind Loop.built_getCard
  intro c
  apply Prog.built_then (Loop.built_printInfo _)
  exact Prog.built_then (Loop.built_printInfo _) (Prog.built_pure _)

theorem built_refuseAmount :
    Loop.Built blocks (refuseAmount : LoopM Unit β Exit) := by
  apply Prog.built_then (Loop.built_printInfo _)
  exact Prog.built_then (Loop.built_printInfo _) (Prog.built_pure _)

theorem built_topUp (cfg : Config) (inp : Input β) (h : 5 ∈ blocks) :
    Loop.Built blocks (topUp cfg inp) := by
  apply Prog.Built.bind Loop.built_getCard
  intro c
  apply Prog.built_then (Loop.built_printInfo _)
  apply Prog.built_then (built_showTicket cfg)
  apply Prog.built_then (Loop.built_printInfo _)
  exact Prog.built_ite built_refuseAmount (built_deposit cfg inp h)

theorem built_dispatch (cfg : Config) (inp : Input β) :
    Loop.Built [4, 5, 6] (dispatch cfg inp) := by
  apply Loop.built_isAdmin
  apply Prog.Built.bind Loop.built_getCard
  intro c
  apply Prog.built_ite (built_answerSOS cfg)
  apply Prog.built_ite built_refuseConso
  apply Prog.built_ite
    (built_create inp (by decide) (by decide) (by decide))
  exact built_topUp cfg inp (by decide)

end Caisse

namespace Admin

variable {β : Type} [FloatCell β]

omit [FloatCell β] in
theorem still_clearScreen :
    Prog.Moves (Loop.Still [])
      (Loop.onWorld (emit .clearScreen) : LoopM Menu β Unit) :=
  Loop.still_emit rfl

omit [FloatCell β] in
theorem still_setMenu (menu : Menu) :
    Prog.Moves (Loop.Still []) (setMenu menu : LoopM Menu β Unit) :=
  Loop.still_modify (fun _ => rfl) (fun _ => rfl)

omit [FloatCell β] in
theorem still_closeMenu :
    Prog.Moves (Loop.Still []) (closeMenu : LoopM Menu β Unit) := by
  apply Prog.moves_then still_clearScreen
  apply Prog.moves_then still_clearScreen
  exact still_setMenu .main

omit [FloatCell β] in
theorem still_chooseMode (mode : ConfigMode) (message : String) :
    Prog.Moves (Loop.Still [])
      (chooseMode mode message : LoopM Menu β Unit) := by
  have hmode : Prog.Moves (Loop.Still [])
      (Loop.onWorld (setMode mode) : LoopM Menu β Unit) :=
    fun s => ⟨rfl, rfl, [], (List.append_nil _).symm, by simp⟩
  apply Prog.moves_then hmode
  exact Loop.still_printInfo List.not_mem_nil

omit [FloatCell β] in
theorem still_selectMode (inp : Input β) :
    Prog.Moves (Loop.Still []) (selectMode inp) := by
  apply Prog.moves_ite (still_chooseMode _ _)
  apply Prog.moves_ite (still_chooseMode _ _)
  exact Prog.moves_ite (still_chooseMode _ _) (Prog.moves_pure _)

omit [FloatCell β] in
theorem still_modeMenu (inp : Input β) :
    Prog.Moves (Loop.Still []) (modeMenu inp) := by
  apply Prog.moves_then (Loop.still_printInfo List.not_mem_nil)
  apply Prog.moves_then (Loop.still_printInfo List.not_mem_nil)
  apply Prog.moves_then (Loop.still_printInfo List.not_mem_nil)
  apply Prog.moves_then (Loop.still_printInfo List.not_mem_nil)
  apply Prog.moves_then (Loop.still_printInfo List.not_mem_nil)
  apply Prog.moves_then (still_selectMode inp)
  exact still_closeMenu

omit [FloatCell β] in
theorem still_mainMenu (inp : Input β) :
    Prog.Moves (Loop.Still []) (mainMenu inp) := by
  apply Prog.moves_then (Loop.still_printInfo List.not_mem_nil)
  apply Prog.moves_then (Loop.still_printInfo List.not_mem_nil)
  apply Prog.moves_then (Loop.still_printInfo List.not_mem_nil)
  apply Prog.moves_then (Loop.still_printInfo List.not_mem_nil)
  apply Prog.moves_then (Loop.still_printInfo List.not_mem_nil)
  apply Prog.moves_ite
  · apply Prog.moves_then (still_setMenu _)
    exact Prog.moves_pure _
  apply Prog.moves_ite
  · apply Prog.moves_then still_clearScreen
    apply Prog.moves_then (still_setMenu _)
    exact Prog.moves_pure _
  apply Prog.moves_ite
  · exact Prog.moves_pure _
  apply Prog.moves_ite
  · exact Prog.moves_pure _
  · apply Prog.moves_then still_clearScreen
    exact Prog.moves_pure _

def recordBlocks : List Nat :=
  [4, 5, 6]

/-- In the menus a card is also given up and taken from the reader. -/
inductive Primitive (blocks : List Nat) :
    (α : Type) -> LoopM Menu β α -> Prop
  | still {α : Type} {p : LoopM Menu β α} (h : Prog.Moves (Loop.Still []) p) :
      Primitive blocks α p
  | loop {α : Type} {p : LoopM Menu β α} (h : Loop.Built blocks p) :
      Primitive blocks α p
  | giveUp : Primitive blocks Unit (Loop.setPointer none)
  | take (keys : Vec UInt8) (target : Target) :
      Primitive blocks Unit (do
        let c ← Prog.ofExcept (Card.new target keys)
        Loop.setPointer (some c))

abbrev Built (blocks : List Nat) {α : Type} (p : LoopM Menu β α) : Prop :=
  Prog.Built .crash (Primitive blocks) α p

variable {blocks : List Nat}

theorem built_still {α : Type} {p : LoopM Menu β α}
    (h : Prog.Moves (Loop.Still []) p) : Built blocks p :=
  .of (.still h)

theorem built_printInfo (message : String) :
    Built blocks (Loop.onWorld (printInfo message) : LoopM Menu β Unit) :=
  built_still (Loop.still_printInfo List.not_mem_nil)

theorem built_clearScreen :
    Built blocks (Loop.onWorld (emit .clearScreen) : LoopM Menu β Unit) :=
  built_still still_clearScreen

theorem built_onCard {α : Type} {p : SessionM β α}
    (h : Session.Built blocks p) : Built blocks (Loop.onCard p) :=
  .of (.loop (Loop.built_onCard h))

theorem built_printConsos (consos : List (String × Rat)) (i : Nat) :
    Built blocks (printConsos consos i : LoopM Menu β Unit) := by
  induction consos generalizing i with
  | nil => exact Prog.built_pure _
  | cons conso consos ih =>
      apply Prog.built_then (built_printInfo _)
      exact ih _

theorem built_findCard (cfg : Config) (inp : Input β) :
    Built blocks (findCard cfg inp) := by
  apply Prog.built_then (built_printInfo _)
  apply Prog.built_then (built_still (Loop.still_emit rfl))
  cases inp.found with
  | none => exact .of .giveUp
  | some target => exact .of (.take _ target)

theorem built_createAdmin (cfg : Config) (inp : Input β) :
    Built recordBlocks (createAdmin cfg inp) := by
  apply Prog.built_then (built_findCard cfg inp)
  exact built_onCard (Session.built_createAdmin (by decide) _)

theorem built_createConso (cfg : Config) (inp : Input β) :
    Built recordBlocks (createConso cfg inp) := by
  apply Prog.built_then built_clearScreen
  apply Prog.built_then (built_printInfo _)
  apply Prog.built_then (built_printConsos _ _)
  apply Prog.built_then (built_printInfo _)
  apply Prog.built_ite
  · apply Prog.built_then (built_still (Loop.still_emit rfl))
    exact built_clearScreen
  · apply Prog.built_then (built_findCard cfg inp)
    exact built_onCard
      (Session.built_createConso (by decide) (by decide) _ _)

/-- What is done with the card of a new DEBIT record. -/
theorem built_createDebit_rest (cfg : Config) (inp : Input β) :
    Loop.Built recordBlocks (do
      Loop.onCard (Session.createDebit inp.writing)
      Loop.onWorld (printInfo "Ajouter un ticket ? (0/1) ")
      if inp.ticket = 49 then do
        let id ← Prog.ofExcept (Config.stoi cfg.ticket)
        Loop.onCard (Session.setTicket inp.ticketing (UInt8.ofInt id))
        Loop.onWorld (printInfo "Ticket ajouté.")
      else pure () : LoopM Menu β Unit) := by
  apply Prog.built_then (Loop.built_onCard
    (Session.built_createDebit (by decide) (by decide) (by decide) _))
  apply Prog.built_then (Loop.built_printInfo _)
  refine Prog.built_ite ?_ (Prog.built_pure _)
  apply Prog.Built.bind (.ofExcept (Config.stoi_ne_crash _))
  intro id
  apply Prog.built_then
    (Loop.built_onCard (Session.built_setTicket (by decide) _ _))
  exact Loop.built_printInfo _

theorem built_createDebit (cfg : Config) (inp : Input β) :
    Built recordBlocks (createDebit cfg inp) :=
  Prog.built_then (built_findCard cfg inp)
    (.of (.loop (built_createDebit_rest cfg inp)))

theorem built_createSOS (cfg : Config) (inp : Input β) :
    Built recordBlocks (createSOS cfg inp) := by
  apply Prog.built_then (built_findCard cfg inp)
  exact built_onCard (Session.built_createSOS (by decide) _)

theorem built_createMenu (cfg : Config) (inp : Input β) :
    Built recordBlocks (createMenu cfg inp) := by
  apply Prog.built_then built_clearScreen
  apply Prog.built_then (built_printInfo _)
  apply Prog.built_then (built_printInfo _)
  apply Prog.built_then (built_printInfo _)
  apply Prog.built_then (built_printInfo _)
  apply Prog.built_then (built_printInfo _)
  apply Prog.built_then (built_printInfo _)
  apply Prog.built_then (.of .giveUp)
  apply Prog.built_ite (built_createAdmin cfg inp)
  apply Prog.built_ite (built_createConso cfg inp)
  apply Prog.built_ite (built_createDebit cfg inp)
  exact Prog.built_ite (built_createSOS cfg inp) (built_still still_closeMenu)

theorem built_round (cfg : Config) (inp : Input β) :
    Built recordBlocks (round cfg inp) := by
  apply Prog.Built.bind (built_still Loop.still_getLocals)
  intro menu
  cases menu with
  | main => exact built_still (still_mainMenu inp)
  | create =>
      exact Prog.built_then (built_createMenu cfg inp) (Prog.built_pure _)
  | modes =>
      exact Prog.built_then (built_still (still_modeMenu inp))
        (Prog.built_pure _)

end Admin

end BeeGadz
