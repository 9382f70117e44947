import BeeGadz.Admin
import BeeGadz.Bar
import BeeGadz.Caisse
import BeeGadz.Kve

/-!
# The application

The loop that runs one mode after another.  A mode that returns true is replaced
by the mode of the configuration, which an ADMIN card changes for one run only; a
mode that throws is run again.
-/

namespace BeeGadz

open Foundation

inductive Running (β : Type) where
  | bar (s : Loop Bar.Locals β)
  | kve (s : Loop Kve.Locals β)
  | caisse (s : Loop Unit β)
  | admin (s : Loop Admin.Menu β)
  | ended (w : World β)

structure Application (β : Type) where
  /-- the mode of the configuration when `run` of the current mode was called -/
  tmp : ConfigMode
  running : Running β

def Running.world {β : Type} : Running β -> World β
  | .bar s => s.world
  | .kve s => s.world
  | .caisse s => s.world
  | .admin s => s.world
  | .ended w => w

namespace Application

def world {β : Type} (app : Application β) : World β :=
  app.running.world

/-- What one round is given, whichever mode it is a round of. -/
structure Input (β : Type) where
  sale : BeeGadz.Input β
  hash : Bar.HashOrder
  menu : Admin.Input β
  /-- `std::time` when `run` of a mode is called -/
  clock : Int

/-- A round without a key or a card, with a reader that accepts everything. -/
def Input.idle {β : Type} : Input β where
  sale := BeeGadz.Input.idle
  hash := Bar.HashOrder.filled
  menu :=
    { key := 0
      conso := 0
      ticket := 0
      found := none
      writing := Session.accepts
      ticketing := Session.accepts }
  clock := 0

variable {β : Type} [FloatCell β]

/-- The call of `run` of a mode. -/
def enter (clock : Int) (mode : ConfigMode) (w : World β) : Running β :=
  match mode with
  | .bar => .bar (Bar.enter clock w)
  | .kve => .kve (Kve.enter clock w)
  | .caisse => .caisse (Caisse.enter w)
  | .admin => .admin (Admin.enter w)

def createMode (w : World β) : World β :=
  { w with screen := fun _ => [] }

/-- The application when `run` of its first mode is called. -/
def start (clock : Int) (w : World β) : Application β where
  tmp := w.mode
  running := enter clock w.mode (createMode w)

/-- The mode of the configuration is created, and the mode from before the ADMIN
card is set again. -/
def replace (clock : Int) (tmp : ConfigMode) (w : World β) : Application β :=
  let w₁ := (createMode w).addLog [.clearScreen]
  let w₂ := if w₁.mode = .admin then { w₁ with mode := tmp } else w₁
  { tmp := w₂.mode
    running := enter clock w.mode w₂ }

/-- What follows a round of a mode: the next round, or what the application does
when `run` returned or threw. -/
def finish {L : Type} (clock : Int) (app : Application β) (mode : ConfigMode)
    (next : Loop L β -> Running β)
    (r : Except Exn (Option Bool) × Loop L β) : Application β :=
  match r with
  | (.ok none, s) => { app with running := next s }
  | (.ok (some true), s) => replace clock app.tmp s.world
  | (.ok (some false), s) => { app with running := .ended s.world }
  | (.error .exception, s) =>
      { tmp := s.world.mode
        running := enter clock mode s.world }
  | (.error .crash, s) => { app with running := .ended s.world }

def returned {L : Type} (p : LoopM L β Exit) : LoopM L β (Option Bool) := do
  let e ← p
  match e with
  | .next => pure none
  | .leave => pure (some true)

def step (cfg : Config) (inp : Input β) (app : Application β) :
    Option (Application β) :=
  match app.running with
  | .bar s =>
      some (finish inp.clock app .bar .bar
        (returned (Bar.round cfg inp.hash inp.sale) s))
  | .kve s =>
      some (finish inp.clock app .kve .kve
        (returned (Kve.round cfg inp.sale) s))
  | .caisse s =>
      some (finish inp.clock app .caisse .caisse
        (returned (Caisse.round cfg inp.sale) s))
  | .admin s =>
      some (finish inp.clock app .admin .admin (Admin.round cfg inp.menu s))
  | .ended _ => none

end Application

end BeeGadz
