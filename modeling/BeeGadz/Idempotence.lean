import BeeGadz.Card.Flush
import BeeGadz.Deeds.Once
import BeeGadz.Issued

/-!
# Flushing twice

`writeData` writes a modified block and leaves it modified, so that the next flush
of the sector writes it again, although nothing was edited in between.
-/

namespace BeeGadz

open Foundation Deed

/-!
## Two flushes of a sector
-/

namespace Session

variable {β : Type} [Cell β]

end Session

/-!
## Runs of the application
-/

namespace Running

variable {β : Type}

def held : Running β -> Held β
  | .bar s => s.held
  | .kve s => s.held
  | .caisse s => s.held
  | .admin s => s.held
  | .ended w => (none, w)

end Running

namespace Application

variable {β : Type} [FloatCell β]

def deeds (cfg : Config) (inp : Input β) (app : Application β) :
    List (Deed Nat) :=
  match app.running with
  | .bar s => Bar.deeds cfg inp.hash inp.sale s
  | .kve s => Kve.deeds cfg inp.sale s
  | .caisse s => Caisse.deeds cfg inp.sale s
  | .admin s => Admin.deeds cfg inp.menu s
  | .ended _ => []

end Application

end BeeGadz
