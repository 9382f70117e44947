import BeeGadz.Foundation.Handle
import BeeGadz.Loop

/-!
# The NFC driver

The reader as an object: the static context that all objects share, the counter
of the objects, the device each of them opens, and the search for a card.  What
the library hands out is numbered by the events before it, so that nothing is
handed out twice.
-/

namespace BeeGadz

open Foundation

/-- The calls of the library that give and take contexts and devices, and the
messages of `printError`. -/
inductive NfcEvent where
  /-- `nfc_init` and the context it leaves -/
  | nfcInit (context : Option Nat)
  /-- `nfc_open` on a context and the device it returns -/
  | nfcOpen (context device : Option Nat)
  /-- `nfc_initiator_init` and whether it succeeds -/
  | nfcInitiatorInit (device : Nat) (ok : Bool)
  | nfcClose (device : Nat)
  | nfcExit (context : Option Nat)
  | error (message : String)
deriving DecidableEq

/-- The static members of `NfcDevice`, and what was called and printed. -/
structure Nfc where
  /-- `m_context`, null or a pointer that may dangle -/
  context : Option Nat
  /-- `m_instances` -/
  instances : Int
  log : List NfcEvent

def Nfc.start : Nfc where
  context := none
  instances := 0
  log := []

abbrev NfcM : Type -> Type :=
  Prog Nfc Exn

/-- An object: `m_infinite` and `m_device`. -/
structure NfcDevice where
  infinite : Bool
  device : Option Nat
deriving DecidableEq

/-- What the library answers to the calls of a construction. -/
structure Opening where
  init : Bool
  opened : Bool
  initiator : Bool

namespace Nfc

def addLog (s : Nfc) (e : NfcEvent) : Nfc :=
  { s with log := s.log ++ [e] }

def handle (s : Nfc) (ok : Bool) : Option Nat :=
  if ok then some s.log.length else none

def printError (message : String) : NfcM Unit :=
  Prog.modify fun s => s.addLog (.error message)

def nfcInit (ok : Bool) : NfcM Unit :=
  Prog.modify fun s =>
    { s with context := s.handle ok }.addLog (.nfcInit (s.handle ok))

def nfcOpen (ok : Bool) : NfcM (Option Nat) :=
  fun s => (.ok (s.handle ok), s.addLog (.nfcOpen s.context (s.handle ok)))

def nfcInitiatorInit (device : Nat) (ok : Bool) : NfcM Bool :=
  fun s => (.ok ok, s.addLog (.nfcInitiatorInit device ok))

def nfcClose (device : Nat) : NfcM Unit :=
  Prog.modify fun s => s.addLog (.nfcClose device)

def nfcExit : NfcM Unit :=
  Prog.modify fun s => s.addLog (.nfcExit s.context)

end Nfc

namespace NfcDevice

open Nfc

/-- The first part of the constructor: the context is initialised when there is
no object and no context. -/
def initContext (a : Opening) : NfcM Unit := do
  let s ← Prog.get
  if s.instances = 0 ∧ s.context = none then do
    nfcInit a.init
    let s ← Prog.get
    if s.context = none then do
      Nfc.printError "Error initialising the context for NFC"
      Prog.throw .exception
    else pure ()
  else pure ()

def openDevice (a : Opening) : NfcM NfcDevice := do
  let device ← nfcOpen a.opened
  match device with
  | none => do
      Nfc.printError "Error, unable to open NFC device"
      Prog.throw .exception
  | some d => do
      let ok ← nfcInitiatorInit d a.initiator
      if ok then do
        Prog.modify fun s => { s with instances := toInt (s.instances + 1) }
        pure { infinite := true, device := some d }
      else do
        Nfc.printError "Error while initializing device"
        Prog.throw .exception

/-- `NfcDevice::NfcDevice`. -/
def new (a : Opening) : NfcM NfcDevice := do
  initContext a
  openDevice a

/-- `NfcDevice::~NfcDevice`.  The context keeps its value when it is exited. -/
def delete (self : NfcDevice) : NfcM Unit := do
  Prog.modify fun s => { s with instances := toInt (s.instances - 1) }
  match self.device with
  | some d => nfcClose d
  | none => pure ()
  let s ← Prog.get
  if s.instances = 0 then nfcExit else pure ()

end NfcDevice

/-!
## The search for a card
-/

structure Driver where
  self : NfcDevice
  nfc : Nfc

namespace Driver

variable {β : Type} [Cell β]

/-- `NfcDevice::infiniteSelect`, where `property` is the answer of
`nfc_device_set_property_bool`. -/
def infiniteSelect (property infinite : Bool) : Prog Driver Exn Bool := do
  let s ← Prog.get
  if s.self.infinite = infinite then pure true
  else if property then do
    Prog.modify fun s => { s with self := { s.self with infinite := infinite } }
    pure true
  else do
    Prog.modify fun s =>
      { s with nfc := s.nfc.addLog (.error "Error while trying to set property") }
    pure false

/-- `NfcDevice::findCard(keys, infinite)`, where `selected` is the tag that
`nfc_initiator_select_passive_target` finds. -/
def findCard (property : Bool) (selected : Option Target) (keys : Vec UInt8)
    (infinite : Bool) : Prog Driver Exn (Option (Card β)) := do
  let _ ← infiniteSelect property infinite
  match selected with
  | some target => do
      let tmp ← Prog.ofExcept (Card.new target keys)
      pure (some tmp)
  | none => pure none

omit [Cell β] in
theorem infiniteSelect_ok (property infinite : Bool) (d : Driver) :
    exists done d', infiniteSelect property infinite d = (.ok done, d') := by
  by_cases hsame : d.self.infinite = infinite
  · exact ⟨true, d, by simp [infiniteSelect, Prog.bind_apply, hsame]⟩
  · cases property with
    | true =>
        refine ⟨true, { d with self := { d.self with infinite := infinite } }, ?_⟩
        simp [infiniteSelect, Prog.bind_apply, hsame]
    | false =>
        let nfc := d.nfc.addLog (.error "Error while trying to set property")
        refine ⟨false, { d with nfc := nfc }, ?_⟩
        simp [infiniteSelect, Prog.bind_apply, hsame, nfc]

/-- A property that cannot be changed does not keep `findCard` from
searching. -/
theorem findCard_fst (property : Bool) (selected : Option Target)
    (keys : Vec UInt8) (infinite : Bool) (d : Driver) :
    (findCard property selected keys infinite d).1 =
      match selected with
      | some target => (Card.new target keys : Except Exn (Card β)).map some
      | none => .ok none := by
  rcases infiniteSelect_ok property infinite d with ⟨done, d', hselect⟩
  unfold findCard
  rw [Prog.bind_of_ok _ hselect]
  cases selected with
  | none => rfl
  | some target =>
      simp only [Prog.bind_apply, Prog.ofExcept_apply]
      cases (Card.new target keys : Except Exn (Card β)) with
      | ok tmp => rfl
      | error e => rfl

theorem findCard_none_iff (property : Bool) (selected : Option Target)
    (keys : Vec UInt8) (infinite : Bool) (d : Driver) :
    (findCard property selected keys infinite d).1 =
      .ok (none : Option (Card β)) <-> selected = none := by
  rw [findCard_fst]
  cases selected with
  | none => simp
  | some target =>
      cases hnew : (Card.new target keys : Except Exn (Card β)) with
      | ok tmp => simp [hnew, Except.map]
      | error e => simp [hnew, Except.map]

/-- The scan of the loops is `findCard`, whatever became of the property. -/
theorem scan_eq {L : Type} (property : Bool) (selected : Option Target)
    (keys : Vec UInt8) (infinite : Bool) (d : Driver) :
    (Loop.scan keys selected : LoopM L β Unit) = (do
      Loop.onWorld (emit (.scan selected))
      let card ← Prog.ofExcept (findCard property selected keys infinite d).1
      Loop.setPointer card) := by
  rw [findCard_fst]
  unfold Loop.scan
  cases selected with
  | none => rfl
  | some target =>
      cases hnew : (Card.new target keys : Except Exn (Card β)) with
      | ok tmp => simp only [hnew]; rfl
      | error e => simp only [hnew]; rfl

end Driver

end BeeGadz
