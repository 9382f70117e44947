import BeeGadz.Foundation.Run
import BeeGadz.Mode

/-!
# The loops of the selling modes

Bar, Kve and Caisse run the same kind of loop: look whether the held card is
still there, scan for another one if not, read sector 1 of it, and act on its
role.  The state at the loop head is the local variables, the pointer to the
held card, whether it was read, and the world.
-/

namespace BeeGadz

open Foundation

structure Loop (L β : Type) where
  locals : L
  /-- `std::unique_ptr<Card> card` -/
  card : Option (Card β)
  read : Bool
  world : World β

abbrev LoopM (L β : Type) : Type -> Type :=
  Prog (Loop L β) Exn

/-- What one round of a loop is given: the clock, the keyboard, the answers of
the reader, and an amount. -/
structure Input (β : Type) where
  /-- `std::time` in `print` -/
  screenClock : Int
  /-- `std::time` in `set_printed`, by line -/
  shownClock : Fin 4 -> Int
  /-- `std::time` in the round -/
  clock : Int
  /-- `getKeyPressedNB` -/
  key : Int
  /-- `findCard` of the held card -/
  present : Bool
  /-- `findCard` of any card -/
  found : Option Target
  /-- `getFloat` -/
  amount : Rat
  /-- the answers to `readSector(1)` -/
  reading : Pass β
  /-- the answers to the `writeCard` of a ticket -/
  ticketing : Pass β
  /-- the answers to the `writeCard` of a credit or a record -/
  writing : Pass β

def Input.idle {β : Type} : Input β where
  screenClock := 0
  shownClock := fun _ => 0
  clock := 0
  key := -1
  present := false
  found := none
  amount := 0
  reading := Session.accepts
  ticketing := Session.accepts
  writing := Session.accepts

/-- How a round ends: at the next loop head, or out of the loop with true. -/
inductive Exit where
  | next
  | leave
deriving DecidableEq

namespace Loop

variable {L β : Type}

def getLocals : LoopM L β L :=
  fun s => (.ok s.locals, s)

def setLocals (locals : L) : LoopM L β Unit :=
  Prog.modify fun s => { s with locals := locals }

def setRead (read : Bool) : LoopM L β Unit :=
  Prog.modify fun s => { s with read := read }

def isRead : LoopM L β Bool :=
  fun s => (.ok s.read, s)

def getPointer : LoopM L β (Option (Card β)) :=
  fun s => (.ok s.card, s)

def setPointer (card : Option (Card β)) : LoopM L β Unit :=
  Prog.modify fun s => { s with card := card }

def onWorld {α : Type} (p : WorldM β α) : LoopM L β α :=
  Prog.zoom Loop.world (fun w s => { s with world := w }) p

/-- A computation on `*card`. -/
def onCard {α : Type} (p : SessionM β α) : LoopM L β α := fun s =>
  match s.card with
  | none => (.error .crash, s)
  | some c =>
      ((p ⟨c, s.world⟩).1,
        { s with
          card := some (p ⟨c, s.world⟩).2.card
          world := (p ⟨c, s.world⟩).2.world })

/-- `card = m_device->findCard(keys, false)`: the pointer keeps its value when
the constructor throws. -/
def scan [Cell β] (keys : Vec UInt8) (found : Option Target) :
    LoopM L β Unit := do
  onWorld (emit (.scan found))
  match found with
  | none => setPointer none
  | some target => do
      let c ← Prog.ofExcept (Card.new target keys)
      setPointer (some c)

/-- What the three loops do differently around the common part. -/
structure Phases (L β : Type) where
  /-- the keys that a card is authenticated with -/
  keys : Vec UInt8
  /-- after the held card was found missing -/
  gone : LoopM L β Unit
  /-- after the scan that follows -/
  scanned : LoopM L β Unit
  /-- before sector 1 is read -/
  reading : LoopM L β Unit
  /-- when the tag was lost in it -/
  lost : LoopM L β Unit
  /-- after it was read -/
  finished : LoopM L β Unit

/-- The part of a round that looks for a card: false when the round goes on with
`continue`. -/
def poll [Cell β] (ph : Phases L β) (inp : Input β) : LoopM L β Bool := do
  let card ← getPointer
  match card with
  | none => do
      setRead false
      scan ph.keys inp.found
      let card ← getPointer
      pure card.isSome
  | some c => do
      onWorld (emit (.select c.uid inp.present))
      if inp.present then pure false
      else do
        ph.gone
        scan ph.keys inp.found
        ph.scanned
        let card ← getPointer
        pure card.isSome

/-- The part of a round that reads sector 1: false when the round goes on with
`continue`. -/
def load [Cell β] (ph : Phases L β) (inp : Input β) : LoopM L β Bool := do
  let read ← isRead
  if read then pure true
  else do
    ph.reading
    let ok ← trying (onCard (Session.readSector inp.reading 1)) do
      ph.lost
      pure false
    if ok then do
      setRead true
      ph.finished
      pure true
    else pure false

def visit [Cell β] (ph : Phases L β) (inp : Input β)
    (dispatch : LoopM L β Exit) : LoopM L β Exit := do
  let found ← poll ph inp
  if found then do
    let loaded ← load ph inp
    if loaded then dispatch else pure .next
  else pure .next

def guarded (body : LoopM L β Exit) : LoopM L β Exit :=
  trying body (pure .next)

/-- The state at the next loop head: there is none when the loop was left or the
program died. -/
def next (r : Except Exn Exit × Loop L β) : Option (Loop L β) :=
  match r with
  | (.ok .next, s) => some s
  | (.ok .leave, _) => none
  | (.error _, _) => none

end Loop

end BeeGadz
