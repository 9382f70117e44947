import BeeGadz.Bar

/-!
# Kve

A sale of an amount that the operator types, or of a ticket after the key `0`.
-/

namespace BeeGadz

open Foundation

namespace Kve

structure Locals where
  ticket : Bool
  time : Int

variable {β : Type} [FloatCell β]

def setTicket (ticket : Bool) : LoopM Locals β Unit :=
  Prog.modify fun s => { s with locals := { s.locals with ticket := ticket } }

def setTime (time : Int) : LoopM Locals β Unit :=
  Prog.modify fun s => { s with locals := { s.locals with time := time } }

def cancelTicket : LoopM Locals β Unit := do
  let l ← Loop.getLocals
  if l.ticket then do
    Loop.onWorld (printInfo "Ticket annulé.")
    setTicket false
  else pure ()

/-- The key `-` cancels the ticket. -/
def cancelByKey (inp : Input β) : LoopM Locals β Unit :=
  if inp.key = 45 then cancelTicket else pure ()

def cancelByTime (inp : Input β) : LoopM Locals β Unit := do
  let l ← Loop.getLocals
  if inp.clock - l.time ≥ 10 then cancelTicket else pure ()

/-- The key `0` asks for a ticket. -/
def addByKey (inp : Input β) : LoopM Locals β Unit :=
  if inp.key = 48 then do
    setTicket true
    Loop.onWorld (printInfo "Ticket ajouté.")
    setTime inp.clock
  else pure ()

def phases (cfg : Config) : Loop.Phases Locals β where
  keys := cfg.getKeys false
  gone := Loop.setRead false
  scanned := pure ()
  reading :=
    Loop.onWorld
      (printInfo "Lecture de la carte en cours, ne pas retirer la carte.")
  lost := do
    cancelTicket
    Loop.onWorld (printInfo "Posez une carte DEBIT.")
  finished := Loop.onWorld (printInfo "Lecture terminée")

def words : List String :=
  ["Lecture de la carte en cours, ne pas retirer la carte.",
    "Ticket annulé.", "Ticket ajouté.", "Posez une carte DEBIT.",
    "Lecture terminée"]

omit [FloatCell β] in
theorem idle_cancelTicket (s : Loop Locals β) :
    Loop.Idle words cancelTicket s := by
  apply Loop.idle_getLocals
  apply Loop.idle_ite
  · apply Loop.idle_bind (Loop.idle_printInfo (by decide) _)
    exact Loop.idle_modify rfl rfl
  · exact Loop.idle_pure words s

omit [FloatCell β] in
theorem phases_sound (cfg : Config) :
    (phases cfg : Loop.Phases Locals β).Sound words where
  gone := fun _ _ => Loop.idle_modify rfl rfl
  scanned := Loop.idle_pure words
  reading := Loop.idle_printInfo (by decide)
  lost := fun s => Loop.idle_bind (idle_cancelTicket s)
    (Loop.idle_printInfo (by decide) _)
  finished := Loop.idle_printInfo (by decide)
  unread := fun _ => Or.inr ⟨rfl, fun _ => rfl⟩
  scannedLocals := fun _ => rfl
  readingLocals := fun _ => rfl
  finishedLocals := fun _ => rfl

def useTicket (cfg : Config) (inp : Input β) : LoopM Locals β Unit := do
  setTicket false
  Loop.onWorld (printInfo "TIcket utilisé")
  Loop.onCard (Session.decrementTicket inp.ticketing)
  let c ← Loop.onCard Session.getCard
  let conso ← Prog.ofExcept (cfg.getConso c.getTicket.toNat)
  Loop.onCard (Session.sendHistory cfg .ticket ("ticket " ++ conso.1) conso.2)

def pay (cfg : Config) (inp : Input β) : LoopM Locals β Unit := do
  Loop.onWorld (printInfo "OK")
  Loop.onCard (Session.decrementCredit inp.writing inp.amount)
  Loop.onCard (Session.sendHistory cfg .sale "KVE" inp.amount)

def charge (cfg : Config) (inp : Input β) : LoopM Locals β Unit := do
  Loop.onWorld (printInfo "Entrez le prix du cok'ss : ")
  let c ← Loop.onCard Session.getCard
  if c.getCredit ≥ inp.amount then pay cfg inp
  else Loop.onWorld (printInfo "Pas assez d'argent sur la carte !")

def answerSOS (cfg : Config) : LoopM Locals β Exit := do
  Loop.onCard (Session.sendSOS cfg)
  Loop.onWorld (printInfo "SOS envoyé")
  cancelTicket
  Loop.onWorld (printInfo "Posez une cart DEBIT.")
  pure .next

def refuseConso : LoopM Locals β Exit := do
  Loop.onWorld (printInfo "Ceci est une carte CONSO")
  Loop.onWorld (printInfo "Posez une carte DEBIT.")
  cancelTicket
  pure .next

def serveTicket (cfg : Config) (inp : Input β) : LoopM Locals β Exit := do
  useTicket cfg inp
  pure .next

def serveSale (cfg : Config) (inp : Input β) : LoopM Locals β Exit := do
  charge cfg inp
  cancelTicket
  Loop.onWorld (printInfo "Posez une cart DEBIT.")
  pure .next

def refuseOther : LoopM Locals β Exit := do
  Loop.onWorld (printInfo "Pas assez d'argent sur la carte !")
  Loop.onWorld (printInfo "Posez une cart DEBIT.")
  pure .next

def dispatch (cfg : Config) (inp : Input β) : LoopM Locals β Exit := do
  let admin ← Loop.onCard Session.isAdmin
  if admin then pure .leave
  else do
    let c ← Loop.onCard Session.getCard
    let l ← Loop.getLocals
    if c.isSOS then answerSOS cfg
    else if c.isConso then refuseConso
    else if c.isDebit then
      if l.ticket = true ∧ c.hasTicket then serveTicket cfg inp
      else serveSale cfg inp
    else refuseOther

/-- One round of the loop of `Kve::run`. -/
def round (cfg : Config) (inp : Input β) : LoopM Locals β Exit :=
  Loop.guarded do
    cancelByKey inp
    cancelByTime inp
    addByKey inp
    Loop.visit (phases cfg) inp (dispatch cfg inp)

/-- From a loop head of `Kve::run` to the next one. -/
def step (cfg : Config) (inp : Input β) (s : Loop Locals β) :
    Option (Loop Locals β) :=
  Loop.next (round cfg inp s)

/-- What `Kve::run` does before its loop. -/
def enter (clock : Int) (w : World β) : Loop Locals β where
  locals := { ticket := false, time := clock }
  card := none
  read := false
  world :=
    ((do
      printInfo "Mode Kve"
      printInfo "Posez une carte DEBIT." : WorldM β Unit) w).2

end Kve

end BeeGadz
