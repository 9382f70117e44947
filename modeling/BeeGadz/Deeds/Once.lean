import BeeGadz.Deeds.Round

/-!
# Edits that a round writes twice

A block stays marked when it was written.  An edit is written twice when two
flushes of one round are successful: by Bar for a ticket and then the credit, by
Admin for a DEBIT card and then its ticket.
-/

namespace BeeGadz

open Foundation Deed

namespace Card

variable {β : Type} (c : Card β)

end Card

/-!
## Rounds of the selling modes
-/

namespace Loop

variable {L β : Type} [Cell β] {keys : Vec UInt8} {inp : Input β}
  {s : Loop L β} {deeds : Card β -> Memory β -> List (Deed Nat)}

end Loop

section Selling

variable {β : Type} [FloatCell β]

namespace Kve

end Kve

namespace Caisse

end Caisse

namespace Bar

end Bar

end Selling

/-!
## Rounds of Admin
-/

namespace Admin

variable {β : Type} [FloatCell β]

end Admin

end BeeGadz
