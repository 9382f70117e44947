import Mathlib.Data.List.AList
import BeeGadz.Visit

/-!
# Bar

The customer's order is collected from CONSO cards and settled from a DEBIT card:
first a ticket, then the credit.
-/

namespace BeeGadz

open Foundation

namespace Session

variable {β : Type} [FloatCell β]

def decrementCredit (pass : Pass β) (price : Rat) : SessionM β Unit := do
  let c ← getCard
  let credit := c.getCredit
  if credit = 0 then pure ()
  else do
    modifyCard fun c => c.edit 1 fun data => data.putCredit (credit - price)
    writeCard pass

def decrementTicket (pass : Pass β) : SessionM β Unit := do
  modifyCard fun c => c.edit 2 fun data =>
    if data.first ≠ 0 then data.putFirst (data.first - 1) else data
  writeCard pass

end Session

namespace Card

variable {β : Type}

/-- `Bar::getConso`. -/
def getConso [Cell β] (c : Card β) : Int :=
  if c.isConso then (c.block 1 1).data.first.toNat else -1

def charged [FloatCell β] (c : Card β) (price : Rat) : Card β :=
  c.edit 1 fun data => data.putCredit (c.getCredit - price)

def chargeSays [FloatCell β] (c : Card β) (pass : Pass β) (price : Rat) :
    List (Event β) :=
  if c.getCredit = 0 then [] else (c.charged price).writeSays pass

def ticketTaken [Cell β] (c : Card β) : Card β :=
  c.edit 2 fun data =>
    if data.first ≠ 0 then data.putFirst (data.first - 1) else data

end Card

namespace Session

variable {β : Type} [FloatCell β]

/-- What taking a price from the credit of a card comes to: nothing when the
credit is 0, a write of the record otherwise. -/
structure Charged (pass : Pass β) (price : Rat) (c : Card β)
    (mem : Uid -> Nat -> Bytes β 16) (c' : Card β)
    (mem' : Uid -> Nat -> Bytes β 16) : Prop where
  frame : Card.SameFrame c c'
  free : c.getCredit = 0 -> Card.SameBlocks c c' ∧ mem' = mem
  paid : c.getCredit ≠ 0 -> Card.SameBlocks (c.charged price) c' ∧
    Card.Flushed (c.charged price) pass mem mem' 4 8

theorem decrementCredit_run (pass : Pass β) (price : Rat) {c : Card β}
    (hc : c.Classic) (w : World β) :
    exists (c' : Card β) (w' : World β),
      Charged pass price c w.mem c' w'.mem ∧
        w.Says w' (c.chargeSays pass price) ∧
        decrementCredit pass price ⟨c, w⟩ = (.ok (), ⟨c', w'⟩) := by
  by_cases hcredit : c.getCredit = 0
  · refine ⟨c, w, ⟨Card.SameFrame.refl c, fun _ => ⟨fun _ _ => rfl, rfl⟩,
      fun h => absurd hcredit h⟩, ?_, ?_⟩
    · rw [Card.chargeSays, if_pos hcredit]
      exact World.Says.refl w
    · rw [decrementCredit, Prog.bind_of_ok _ (getCard_apply c w)]
      simp only [hcredit, if_true, Prog.pure_apply]
  · rcases editCard_run
        (fun c₀ => c₀.edit 1 fun data => data.putCredit (c.getCredit - price))
        pass hc (Card.sameFrame_edit _ _ _) w with
      ⟨c', w', hframe, hblocks, hflushed, hsay, hrun⟩
    refine ⟨c', w', ⟨hframe, fun h => absurd h hcredit,
      fun _ => ⟨hblocks, hflushed⟩⟩, ?_, ?_⟩
    · rw [Card.chargeSays, if_neg hcredit]
      exact hsay
    · rw [decrementCredit, Prog.bind_of_ok _ (getCard_apply c w)]
      simp only [hcredit, if_false]
      exact hrun

theorem decrementTicket_run (pass : Pass β) {c : Card β} (hc : c.Classic)
    (w : World β) :
    exists (c' : Card β) (w' : World β),
      Card.SameFrame c c' ∧ Card.SameBlocks c.ticketTaken c' ∧
        Card.Flushed c.ticketTaken pass w.mem w'.mem 4 8 ∧
        w.Says w' (c.ticketTaken.writeSays pass) ∧
        decrementTicket pass ⟨c, w⟩ = (.ok (), ⟨c', w'⟩) :=
  editCard_run Card.ticketTaken pass hc (Card.sameFrame_edit _ _ _) w

end Session

namespace Bar

/-- `std::unordered_map<size_t, size_t>`. -/
abbrev Order : Type :=
  AList fun _ : Nat => Nat

/-- The order in which the map is iterated, which the library does not
specify. -/
structure HashOrder where
  entries : Order -> List (Sigma fun _ : Nat => Nat)
  perm : forall order, (entries order).Perm order.entries

def HashOrder.filled : HashOrder where
  entries order := order.entries
  perm _ := List.Perm.refl _

/-- `order[key]`, which is 0 for a new key. -/
def count (order : Order) (key : Nat) : Nat :=
  (order.lookup key).getD 0

def increment (order : Order) (key : Nat) : Order :=
  order.insert key ((count order key + 1) % sizeValues)

/-- `--conso[key]`, and the key erased when nothing is left of it. -/
def decrement (order : Order) (key : Nat) : Order :=
  let left := (count order key + sizeValues - 1) % sizeValues
  if left = 0 then (order.insert key left).erase key
  else order.insert key left

def isEmpty (order : Order) : Bool :=
  order.entries.isEmpty

structure Locals where
  conso : Order
  time : Int

variable {β : Type} [FloatCell β]

/-- The loop of `getPrice`. -/
def addPrices (β : Type) [FloatCell β] (cfg : Config) :
    Rat -> List (Sigma fun _ : Nat => Nat) -> Except Exn Rat
  | price, [] => .ok price
  | price, i :: rest =>
      match cfg.getConso i.1 with
      | .ok conso =>
          addPrices β cfg
            (FloatCell.round β (price + FloatCell.times β conso.2 i.2)) rest
      | .error e => .error e

def getPrice (β : Type) [FloatCell β] (cfg : Config) (hash : HashOrder)
    (order : Order) :
    Except Exn Rat :=
  addPrices β cfg 0 (hash.entries order)

/-- The loop of `printCommand`. -/
def printEntries (cfg : Config) :
    List (Sigma fun _ : Nat => Nat) -> WorldM β Unit
  | [] => pure ()
  | i :: rest => do
      let conso ← Prog.ofExcept (cfg.getConso i.1)
      printInfo (conso.1 ++ " x" ++ toString i.2)
      printEntries cfg rest

def printCommand (cfg : Config) (hash : HashOrder) (order : Order) :
    WorldM β Unit := do
  printInfo "Commande : "
  printEntries cfg (hash.entries order)

def sendEntries (cfg : Config) :
    List (Sigma fun _ : Nat => Nat) -> SessionM β Unit
  | [] => pure ()
  | i :: rest => do
      let conso ← Prog.ofExcept (cfg.getConso i.1)
      Session.sendHistory cfg .sale (conso.1 ++ " x" ++ toString i.2)
        (FloatCell.times β conso.2 i.2)
      sendEntries cfg rest

/-!
## One round
-/

def setConso (order : Order) : LoopM Locals β Unit :=
  Prog.modify fun s => { s with locals := { s.locals with conso := order } }

def setTime (time : Int) : LoopM Locals β Unit :=
  Prog.modify fun s => { s with locals := { s.locals with time := time } }

/-- The key `-` cancels the order. -/
def cancelByKey (inp : Input β) : LoopM Locals β Unit := do
  let l ← Loop.getLocals
  if inp.key = 45 ∧ isEmpty l.conso = false then do
    setConso ∅
    Loop.onWorld (setCommand "COMMANDE ANNULEE" 1 1)
    Loop.onWorld (setCommand "POSEZ CARTE CONSO" 0 0)
    Loop.onWorld (printInfo "Commande annulée.")
    Loop.onWorld (printInfo "Posez une carte CONSO.")
    setTime inp.clock
  else pure ()

def cancelByTime (inp : Input β) : LoopM Locals β Unit := do
  let l ← Loop.getLocals
  if isEmpty l.conso = false ∧ inp.clock - l.time ≥ 10 then do
    setConso ∅
    Loop.onWorld (setCommand "COMMANDE ANNULEE" 1 1)
    Loop.onWorld (setCommand "POSEZ CARTE CONSO" 0 0)
    setTime inp.clock
  else pure ()

def dropOrder (inp : Input β) : LoopM Locals β Unit := do
  let l ← Loop.getLocals
  if isEmpty l.conso = false then do
    Loop.onWorld (printInfo "Commande annulée.")
    Loop.onWorld (setCommand "COMMANDE ANNULEE" 1 1)
    setConso ∅
    setTime inp.clock
  else pure ()

def phases (cfg : Config) (inp : Input β) : Loop.Phases Locals β where
  keys := cfg.getKeys false
  gone := do
    let c ← Loop.onCard Session.getCard
    if c.isConso then pure () else dropOrder inp
  scanned := Loop.setRead false
  reading := do
    Loop.onWorld
      (printInfo "Lecture de la carte en cours, ne pas retirer la carte.")
    Loop.onWorld (setCommand "LECTURE EN COURS" 2 0)
  lost := do
    dropOrder inp
    Loop.onWorld (printInfo "Posez une carte CONSO.")
    Loop.onWorld (setCommand "POSEZ CARTE CONSO" 0 0)
  finished := do
    Loop.onWorld (printInfo "Lecture terminée")
    Loop.onWorld (setCommand "LECTURE TERMINEE" 2 1)

def words : List String :=
  ["Commande annulée.", "Posez une carte CONSO.", "Lecture terminée",
    "Lecture de la carte en cours, ne pas retirer la carte."]

omit [FloatCell β] in
theorem idle_dropOrder (inp : Input β) (s : Loop Locals β) :
    Loop.Idle words (dropOrder inp) s := by
  apply Loop.idle_getLocals
  apply Loop.idle_ite
  · apply Loop.idle_bind (Loop.idle_printInfo (by decide) _)
    apply Loop.idle_bind (Loop.idle_setCommand _ _ _ _ _)
    apply Loop.idle_bind (Loop.idle_modify rfl rfl)
    exact Loop.idle_modify rfl rfl
  · exact Loop.idle_pure _ _

theorem phases_sound (cfg : Config) (inp : Input β) :
    (phases cfg inp).Sound words where
  gone := by
    intro s hs
    rcases s with ⟨l, card, r, w⟩
    cases card with
    | none => cases hs
    | some c =>
        apply Loop.idle_getCard
        apply Loop.idle_ite
        · exact Loop.idle_pure _ _
        · exact idle_dropOrder inp _
  scanned := fun _ => Loop.idle_modify rfl rfl
  reading := fun s => Loop.idle_bind (Loop.idle_printInfo (by decide) s)
    (Loop.idle_setCommand _ _ _ _ _)
  lost := fun s => Loop.idle_bind (idle_dropOrder inp s)
    (Loop.idle_bind (Loop.idle_printInfo (by decide) _)
      (Loop.idle_setCommand _ _ _ _ _))
  finished := fun s => Loop.idle_bind (Loop.idle_printInfo (by decide) s)
    (Loop.idle_setCommand _ _ _ _ _)
  unread := fun _ => Or.inl rfl
  scannedLocals := fun _ => rfl
  readingLocals := fun _ => rfl
  finishedLocals := fun _ => rfl

/-- `hasTicket(*card) && conso.count(getTicket(*card))`. -/
def TicketApplies (c : Card β) (order : Order) : Prop :=
  c.hasTicket ∧ c.getTicket.toNat ∈ order

instance (c : Card β) (order : Order) : Decidable (TicketApplies c order) :=
  inferInstanceAs (Decidable (c.hasTicket ∧ c.getTicket.toNat ∈ order))

def takeTicket (cfg : Config) (inp : Input β) (c : Card β) (order : Order) :
    LoopM Locals β Unit := do
  let conso ← Prog.ofExcept (cfg.getConso c.getTicket.toNat)
  setConso (decrement order c.getTicket.toNat)
  Loop.onWorld (printInfo ("Ticket " ++ conso.1 ++ " utilisé."))
  Loop.onWorld (setCommand "TICKET UTILISE" 3 1)
  Loop.onCard (Session.sendHistory cfg .ticket ("ticket " ++ conso.1) conso.2)
  Loop.onCard (Session.decrementTicket inp.ticketing)

def useTicket (cfg : Config) (inp : Input β) : LoopM Locals β Unit := do
  let c ← Loop.onCard Session.getCard
  let l ← Loop.getLocals
  if TicketApplies c l.conso then takeTicket cfg inp c l.conso else pure ()

def pay (cfg : Config) (hash : HashOrder) (inp : Input β) (price : Rat)
    (order : Order) : LoopM Locals β Unit := do
  Loop.onWorld (printInfo "OK")
  Loop.onWorld (setCommand "DEBUCQUAGE OK" 3 1)
  Loop.onCard (Session.decrementCredit inp.writing price)
  Loop.onCard (sendEntries cfg (hash.entries order))

def refuse : LoopM Locals β Unit := do
  Loop.onWorld (printInfo "Pas assez d'argent sur la carte !")
  Loop.onWorld (setCommand "PAS ASSEZ D'ARGENT" 3 1)

def charge (cfg : Config) (hash : HashOrder) (inp : Input β) :
    LoopM Locals β Unit := do
  let c ← Loop.onCard Session.getCard
  let l ← Loop.getLocals
  let price ← Prog.ofExcept (getPrice β cfg hash l.conso)
  if c.getCredit ≥ price then pay cfg hash inp price l.conso else refuse

def settle (cfg : Config) (hash : HashOrder) (inp : Input β) :
    LoopM Locals β Unit := do
  useTicket cfg inp
  charge cfg hash inp

def answerSOS (cfg : Config) : LoopM Locals β Exit := do
  Loop.onCard (Session.sendSOS cfg)
  Loop.onWorld (printInfo "SOS envoyé")
  pure .next

def showCredit (c : Card β) : LoopM Locals β Exit := do
  Loop.onWorld (printInfo "Posez une carte CONSO.")
  Loop.onWorld (setCommand ("plop" ++ FloatCell.fixed β c.getCredit) 0 0)
  Loop.onWorld (setCommand "POSEZ CARTE CONSO" 0 0)
  pure .next

def serveOrder (cfg : Config) (hash : HashOrder) (inp : Input β) :
    LoopM Locals β Exit := do
  settle cfg hash inp
  setConso ∅
  setTime inp.clock
  Loop.onWorld (printInfo "Posez une carte CONSO.")
  Loop.onWorld (setCommand "POSEZ CARTE CONSO" 0 0)
  pure .next

def addConso (cfg : Config) (hash : HashOrder) (inp : Input β) (c : Card β)
    (order : Order) : LoopM Locals β Exit := do
  setConso (increment order c.getConso.toNat)
  Loop.onWorld (printCommand cfg hash (increment order c.getConso.toNat))
  setTime inp.clock
  Loop.onWorld (printInfo "Posez une carte DEBIT.")
  Loop.onWorld (setCommand "POSEZ CARTE DEBIT" 0 0)
  pure .next

def refuseOther : LoopM Locals β Exit := do
  Loop.onWorld (printError "Carte corrompue !")
  Loop.onWorld (setCommand "CARTE CORROMPUE" 3 1)
  Loop.onWorld (printInfo "Posez une carte CONSO.")
  Loop.onWorld (setCommand "POSEZ CARTE CONSO" 0 0)
  pure .next

def dispatch (cfg : Config) (hash : HashOrder) (inp : Input β) :
    LoopM Locals β Exit := do
  let admin ← Loop.onCard Session.isAdmin
  if admin then pure .leave
  else do
    let c ← Loop.onCard Session.getCard
    let l ← Loop.getLocals
    if c.isSOS then answerSOS cfg
    else if c.isDebit ∧ isEmpty l.conso = true then showCredit c
    else if c.isDebit ∧ isEmpty l.conso = false then serveOrder cfg hash inp
    else if c.isConso then addConso cfg hash inp c l.conso
    else refuseOther

/-- One round of the loop of `Bar::run`. -/
def round (cfg : Config) (hash : HashOrder) (inp : Input β) :
    LoopM Locals β Exit := do
  Loop.onWorld (print inp.screenClock inp.shownClock)
  Loop.guarded do
    cancelByKey inp
    cancelByTime inp
    Loop.visit (phases cfg inp) inp (dispatch cfg hash inp)

/-- From a loop head of `Bar::run` to the next one. -/
def step (cfg : Config) (inp : HashOrder × Input β) (s : Loop Locals β) :
    Option (Loop Locals β) :=
  Loop.next (round cfg inp.1 inp.2 s)

/-- What `Bar::run` does before its loop. -/
def enter (clock : Int) (w : World β) : Loop Locals β where
  locals := { conso := ∅, time := clock }
  card := none
  read := false
  world :=
    ((do
      printInfo "Mode bar is running"
      printInfo "Posez une carte CONSO."
      setCommand "------MODE BAR------" 0 2 : WorldM β Unit) w).2

end Bar

end BeeGadz
