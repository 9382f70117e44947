import BeeGadz.Card.Coherence
import BeeGadz.Card.Complete
import BeeGadz.Card.KeyTrial
import BeeGadz.Card.Permissions
import BeeGadz.Card.Addressing
import BeeGadz.Card.Copy
import BeeGadz.Card.Flush
import BeeGadz.Card.Frames
import BeeGadz.Settlement
import BeeGadz.Ticket
import BeeGadz.Request
import BeeGadz.Ledger
import BeeGadz.TopUp
import BeeGadz.Till
import BeeGadz.RoundTrip
import BeeGadz.Confinement
import BeeGadz.Presentation
import BeeGadz.ModeMachine
import BeeGadz.Issued
import BeeGadz.Idempotence
import BeeGadz.Sale
import BeeGadz.Screen
import BeeGadz.Mysql
import BeeGadz.Sql
import BeeGadz.LcdBus
import BeeGadz.Nfc.Orderly
import BeeGadz.Nfc.Pn53x
import BeeGadz.Absent
import BeeGadz.RoleTest
import BeeGadz.StartUp
import BeeGadz.Shop
import BeeGadz.JsonCpp.Failure
import BeeGadz.JsonCpp.Writer
import BeeGadz.ConfigFile
import BeeGadz.Dialogue
import BeeGadz.Boxes
