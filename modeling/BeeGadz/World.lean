import Mathlib.Algebra.GroupWithZero.Nat
import Mathlib.Data.Fintype.Basic
import Mathlib.Data.Rat.Init
import BeeGadz.Card.Block
import BeeGadz.Foundation.Prog
import BeeGadz.Foundation.Vec

/-!
# The world around the program

The program talks to a reader with cards on it, to a database, to a terminal
and to a display.  The world holds the physical memory of every card, the part
of the configuration that the program itself changes, the display queues, and
the log of everything that was exchanged.

The reader's answers are inputs.  `Answers` has one entry for each command that
can be sent for one block during one pass over a sector, so that quantifying
over passes quantifies over all sequences of answers.
-/

namespace BeeGadz

open Foundation

/-- What can be thrown.  A null dereference is not an exception: no handler
sees it. -/
inductive Exn where
  | exception
  | crash
deriving DecidableEq

/-- `try { body } catch (std::exception &e) { handler }`. -/
def trying {σ α : Type} (body handler : Prog σ Exn α) : Prog σ Exn α :=
  body.catching fun e =>
    match e with
    | .exception => handler
    | .crash => Prog.throw .crash

section Trying

variable {σ α : Type} {body : Prog σ Exn α} {s s' : σ}

theorem trying_of_ok (handler : Prog σ Exn α) {a : α}
    (h : body s = (.ok a, s')) : trying body handler s = (.ok a, s') :=
  Prog.catching_of_ok _ h

theorem trying_of_exception (handler : Prog σ Exn α)
    (h : body s = (.error .exception, s')) :
    trying body handler s = handler s' :=
  Prog.catching_of_error _ h

theorem trying_of_crash (handler : Prog σ Exn α)
    (h : body s = (.error .crash, s')) :
    trying body handler s = (.error .crash, s') :=
  Prog.catching_of_error _ h

end Trying

abbrev Uid : Type :=
  Bytes UInt8 4

/-- The fields of `nfc_target` that are read: `abtUid[0..3]` and
`abtAtqa[1]`. -/
structure Target where
  uid : Uid
  atqa : UInt8
deriving DecidableEq

/-!
## Commands and answers
-/

inductive MifareCmd where
  | authA
  | authB
  | read
  | write
deriving DecidableEq

/-- The frame that `nfc_initiator_mifare_cmd` transmits: opcode, block address
and parameter bytes. -/
structure Frame (β : Type) where
  cmd : MifareCmd
  block : Nat
  param : List β

/-- The outcome of a command.  A write that the tag leaves in the middle of is
reported as failed and leaves arbitrary contents in the block. -/
inductive Reply (β : Type) where
  | accepted
  | rejected
  | torn (left : Bytes β 16)

def Reply.ok {β : Type} : Reply β -> Bool
  | .accepted => true
  | .rejected => false
  | .torn _ => false

/-- What a block holding `old` holds after a write of `data` was answered. -/
def Reply.leaves {β : Type} (old data : Bytes β 16) : Reply β -> Bytes β 16
  | .accepted => data
  | .rejected => old
  | .torn left => left

/-- The answers to the commands sent for one block during one pass. -/
structure Answers (β : Type) where
  /-- the authentication with the `j`-th key tried -/
  auth : Nat -> Reply β
  /-- the selection after the `j`-th key was rejected -/
  selected : Nat -> Bool
  /-- the `MC_READ` -/
  read : Reply β
  /-- the `MC_WRITE` -/
  write : Reply β
  /-- the selection after a failed `MC_READ` or `MC_WRITE` -/
  stays : Bool

namespace Answers

variable {β : Type}

def accepting : Answers β where
  auth := fun _ => .accepted
  selected := fun _ => true
  read := .accepted
  write := .accepted
  stays := true

def rejecting : Answers β where
  auth := fun _ => .rejected
  selected := fun _ => true
  read := .rejected
  write := .rejected
  stays := true

end Answers

abbrev Pass (β : Type) : Type :=
  Nat -> Answers β

/-!
## The database
-/

/-- The call of `sendHistory` a row comes from. -/
inductive RowKind where
  | ticket
  | sale
  | topUp
deriving DecidableEq

structure Row where
  kind : RowKind
  pianss : String
  command : String
  price : Rat
deriving DecidableEq

inductive Request where
  | history (row : Row)
  | sos (pianss : String)
deriving DecidableEq

/-!
## Log and state
-/

inductive Event (β : Type) where
  /-- `NfcDevice::findCard(uid, len)` and its answer -/
  | select (uid : Uid) (present : Bool)
  /-- `NfcDevice::findCard(keys, infinite)` and the tag found -/
  | scan (found : Option Target)
  /-- the six bytes from `&m_keys[offset]` on are taken as the key -/
  | key (offset : Nat)
  /-- a frame sent to the card and whether it was accepted -/
  | frame (uid : Uid) (f : Frame β) (ok : Bool)
  /-- the sixteen bytes an accepted `MC_READ` returned -/
  | received (uid : Uid) (block : Nat) (data : Bytes β 16)
  /-- a request to the databases, with the card being processed -/
  | request (uid : Uid) (r : Request)
  | info (message : String)
  | error (message : String)
  | printLCD (message : String) (line : Nat)
  | clearLine (line : Nat)
  | clearScreen

/-- `Config::Mode`. -/
inductive ConfigMode where
  | caisse
  | bar
  | kve
  | admin
deriving DecidableEq

/-- `Line`: a message, its duration and the time it was displayed at, -1 before
that. -/
structure Line where
  message : String
  time : Nat
  printed : Int
deriving DecidableEq

instance neZeroLines : NeZero 4 :=
  ⟨by decide⟩

abbrev Screen : Type :=
  Fin 4 -> List Line

structure World (β : Type) where
  mem : Uid -> Nat -> Bytes β 16
  mode : ConfigMode
  screen : Screen
  log : List (Event β)

def World.start {β : Type} (mem : Uid -> Nat -> Bytes β 16)
    (mode : ConfigMode) : World β where
  mem := mem
  mode := mode
  screen := fun _ => []
  log := []

abbrev WorldM (β : Type) : Type -> Type :=
  Prog (World β) Exn

namespace World

variable {β : Type}

def addLog (w : World β) (events : List (Event β)) : World β :=
  { w with log := w.log ++ events }

def setMem (w : World β) (uid : Uid) (block : Nat) (data : Bytes β 16) :
    World β :=
  { w with
    mem := Function.update w.mem uid (Function.update (w.mem uid) block data) }

def command (w : World β) (command : String) (line : Fin 4) (time : Nat) :
    World β :=
  { w with
    screen := Function.update w.screen line
      (w.screen line ++
        [⟨String.ofList (command.toList.take 21), time, -1⟩]) }

def withMem (w : World β) (mem : Uid -> Nat -> Bytes β 16) : World β :=
  { w with mem := mem }

def since (w w' : World β) : List (Event β) :=
  w'.log.drop w.log.length

@[simp] theorem addLog_mem (w : World β) (events : List (Event β)) :
    (w.addLog events).mem = w.mem := rfl

@[simp] theorem addLog_log (w : World β) (events : List (Event β)) :
    (w.addLog events).log = w.log ++ events := rfl

@[simp] theorem command_mem (w : World β) (command : String)
    (line : Fin 4) (time : Nat) : (w.command command line time).mem = w.mem :=
  rfl

@[simp] theorem command_log (w : World β) (command : String)
    (line : Fin 4) (time : Nat) : (w.command command line time).log = w.log :=
  rfl

@[simp] theorem addLog_nil (w : World β) : w.addLog [] = w := by
  simp [addLog]

@[simp] theorem addLog_addLog (w : World β) (first second : List (Event β)) :
    (w.addLog first).addLog second = w.addLog (first ++ second) := by
  simp [addLog]

@[simp] theorem since_addLog (w w' : World β) (events : List (Event β))
    (h : w'.log = w.log) : w.since (w'.addLog events) = events := by
  simp [since, h]

@[simp] theorem withMem_mem (w : World β) (mem : Uid -> Nat -> Bytes β 16) :
    (w.withMem mem).mem = mem := rfl

@[simp] theorem withMem_log (w : World β) (mem : Uid -> Nat -> Bytes β 16) :
    (w.withMem mem).log = w.log := rfl

@[simp] theorem withMem_self (w : World β) : w.withMem w.mem = w := rfl

@[simp] theorem addLog_withMem (w : World β) (events : List (Event β))
    (mem : Uid -> Nat -> Bytes β 16) :
    (w.addLog events).withMem mem = (w.withMem mem).addLog events := rfl

@[simp] theorem withMem_withMem (w : World β)
    (mem mem' : Uid -> Nat -> Bytes β 16) :
    (w.withMem mem).withMem mem' = w.withMem mem' := rfl

@[simp] theorem withMem_setMem (w : World β) (uid : Uid) (block : Nat)
    (data : Bytes β 16) :
    w.withMem (w.setMem uid block data).mem = w.setMem uid block data := rfl

@[simp] theorem addLog_setMem (w : World β) (events : List (Event β))
    (uid : Uid) (block : Nat) (data : Bytes β 16) :
    (w.addLog events).setMem uid block data =
      (w.setMem uid block data).addLog events := rfl

@[simp] theorem setMem_log (w : World β) (uid : Uid) (block : Nat)
    (data : Bytes β 16) : (w.setMem uid block data).log = w.log := rfl

@[simp] theorem setMem_self (w : World β) (uid : Uid) (block : Nat) :
    w.setMem uid block (w.mem uid block) = w := by
  simp [setMem]

theorem setMem_mem (w : World β) (uid u : Uid) (block a : Nat)
    (data : Bytes β 16) :
    (w.setMem uid block data).mem u a =
      if u = uid ∧ a = block then data else w.mem u a := by
  by_cases hu : u = uid
  · subst hu
    simp [setMem, Function.update_apply]
  · simp [setMem, hu]

end World

/-!
## Output
-/

section Output

variable {β : Type}

def emit (e : Event β) : WorldM β Unit :=
  Prog.modify fun w => w.addLog [e]

def printInfo (message : String) : WorldM β Unit :=
  emit (.info message)

def printError (message : String) : WorldM β Unit :=
  emit (.error message)

/-- `Config::setMode`. -/
def setMode (mode : ConfigMode) : WorldM β Unit :=
  Prog.modify fun w => { w with mode := mode }

/-- `Mode::setCommand`. -/
def setCommand (command : String) (line : Fin 4) (time : Nat) :
    WorldM β Unit :=
  Prog.modify fun w => w.command command line time

/-- One round of the loop of `Mode::print`.  `set_printed` reads the clock
again, at `shown`. -/
def printLine (timer shown : Int) (i : Fin 4) : WorldM β Unit :=
  Prog.modify fun w =>
    match w.screen i with
    | [] => w
    | front :: rest =>
        if front.printed = -1 then
          { w with
            screen := Function.update w.screen i
              ({ front with printed := shown } :: rest) }.addLog
            [.clearLine (i.val + 1), .printLCD front.message (i.val + 1)]
        else if front.time ≠ 0 ∧ timer - front.printed ≥ toInt front.time then
          { w with screen := Function.update w.screen i rest }.addLog
            [.clearLine (i.val + 1)]
        else if front.time = 0 ∧ rest ≠ [] then
          { w with screen := Function.update w.screen i rest }.addLog
            [.clearLine (i.val + 1)]
        else w

/-- `Mode::print`. -/
def print (timer : Int) (shown : Fin 4 -> Int) : WorldM β Unit := do
  printLine timer (shown 0) 0
  printLine timer (shown 1) 1
  printLine timer (shown 2) 2
  printLine timer (shown 3) 3

end Output

end BeeGadz
