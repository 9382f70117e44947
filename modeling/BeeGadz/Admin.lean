import BeeGadz.Loop

/-!
# Admin

The operator writes ADMIN, CONSO, DEBIT and SOS cards from a menu, and chooses
the mode that runs next.  A card is written without being read: what its new role
does not use stays on it.
-/

namespace BeeGadz

open Foundation

namespace Card

variable {β : Type} [Cell β]

/-- The record that `createConso` builds. -/
def consoRecord (c : Card β) (id : UInt8) : Card β :=
  (c.editName "CONSO").edit 1 fun data => data.putFirst id

/-- The record that `setTicket` builds. -/
def ticketRecord (c : Card β) (id : UInt8) : Card β :=
  c.edit 2 fun data => (data.putFirst 1).putSecond id

end Card

namespace Session

variable {β : Type} [Cell β]

def createConso (pass : Pass β) (id : UInt8) : SessionM β Unit := do
  modifyCard fun c => c.consoRecord id
  writeCard pass

def createAdmin (pass : Pass β) : SessionM β Unit := do
  modifyCard fun c => c.editName "ADMIN"
  writeCard pass

def setTicket (pass : Pass β) (id : UInt8) : SessionM β Unit := do
  modifyCard fun c => c.ticketRecord id
  writeCard pass

def createSOS (pass : Pass β) : SessionM β Unit := do
  modifyCard fun c => c.editName "SOS"
  writeCard pass

end Session

namespace Admin

inductive Menu where
  | main
  | create
  | modes
deriving DecidableEq

structure Input (β : Type) where
  /-- `getKeyPressed` at the menu -/
  key : Int
  /-- `getKeyPressed` for the conso of a card -/
  conso : Int
  /-- `getKeyPressed` for the ticket of a card -/
  ticket : Int
  /-- `findCard` of any card -/
  found : Option Target
  /-- the answers to the `writeCard` of a record -/
  writing : Pass β
  /-- the answers to the `writeCard` of a ticket -/
  ticketing : Pass β

variable {β : Type} [FloatCell β]

def setMenu (menu : Menu) : LoopM Menu β Unit :=
  Loop.setLocals menu

/-- A line for each conso, from number `i` on. -/
def printConsos : List (String × Rat) -> Nat -> LoopM Menu β Unit
  | [], _ => pure ()
  | conso :: consos, i => do
      Loop.onWorld (printInfo (toString i ++ " - " ++ conso.1))
      printConsos consos (i + 1)

/-- `card = m_device->findCard(m_config->getKeys(true), true)`: the search
returns a null pointer when it fails. -/
def findCard (cfg : Config) (inp : Input β) : LoopM Menu β Unit := do
  Loop.onWorld (printInfo "Posez une carte")
  Loop.scan (cfg.getKeys true) inp.found

def createAdmin (cfg : Config) (inp : Input β) : LoopM Menu β Unit := do
  findCard cfg inp
  Loop.onCard (Session.createAdmin inp.writing)

def createConso (cfg : Config) (inp : Input β) : LoopM Menu β Unit := do
  Loop.onWorld (emit .clearScreen)
  Loop.onWorld (printInfo "--- Menu ---")
  printConsos cfg.consos 0
  Loop.onWorld (printInfo "Entrez votre choix de conso : ")
  let tmp := inp.conso - 48
  if tmp < 0 ∨ tmp > cfg.getNbConso then do
    Loop.onWorld (printError "Mauvaise conso, appuyez sur une touche")
    Loop.onWorld (emit .clearScreen)
  else do
    findCard cfg inp
    Loop.onCard (Session.createConso inp.writing (UInt8.ofInt tmp))

def createDebit (cfg : Config) (inp : Input β) : LoopM Menu β Unit := do
  findCard cfg inp
  Loop.onCard (Session.createDebit inp.writing)
  Loop.onWorld (printInfo "Ajouter un ticket ? (0/1) ")
  if inp.ticket = 49 then do
    let id ← Prog.ofExcept (Config.stoi cfg.ticket)
    Loop.onCard (Session.setTicket inp.ticketing (UInt8.ofInt id))
    Loop.onWorld (printInfo "Ticket ajouté.")
  else pure ()

def createSOS (cfg : Config) (inp : Input β) : LoopM Menu β Unit := do
  findCard cfg inp
  Loop.onCard (Session.createSOS inp.writing)

def closeMenu : LoopM Menu β Unit := do
  Loop.onWorld (emit .clearScreen)
  Loop.onWorld (emit .clearScreen)
  setMenu .main

def createMenu (cfg : Config) (inp : Input β) : LoopM Menu β Unit := do
  Loop.onWorld (emit .clearScreen)
  Loop.onWorld (printInfo "--- Menu ---")
  Loop.onWorld (printInfo "0 - create ADMIN card")
  Loop.onWorld (printInfo "1 - create CONSO card")
  Loop.onWorld (printInfo "2 - create DEBIT card")
  Loop.onWorld (printInfo "3 - create SOS card")
  Loop.onWorld (printInfo "Any other key to return to the precedent menu")
  Loop.setPointer none
  if inp.key = 48 then createAdmin cfg inp
  else if inp.key = 49 then createConso cfg inp
  else if inp.key = 50 then createDebit cfg inp
  else if inp.key = 51 then createSOS cfg inp
  else closeMenu

def chooseMode (mode : ConfigMode) (message : String) : LoopM Menu β Unit := do
  Loop.onWorld (setMode mode)
  Loop.onWorld (printInfo message)

def selectMode (inp : Input β) : LoopM Menu β Unit :=
  if inp.key = 48 then chooseMode .bar "Mode Bar activé"
  else if inp.key = 49 then chooseMode .caisse "Mode Caisse activé"
  else if inp.key = 50 then chooseMode .kve "Mode Kve activé"
  else pure ()

def modeMenu (inp : Input β) : LoopM Menu β Unit := do
  Loop.onWorld (printInfo "--- Menu ---")
  Loop.onWorld (printInfo "0 - mode Bar")
  Loop.onWorld (printInfo "1 - mode Caisse")
  Loop.onWorld (printInfo "2 - mode Kve")
  Loop.onWorld (printInfo "Any other key to return to the precedent menu")
  selectMode inp
  closeMenu

/-- One round of the main menu: what `Admin::run` returns if it ends. -/
def mainMenu (inp : Input β) : LoopM Menu β (Option Bool) := do
  Loop.onWorld (printInfo "--- Menu ---")
  Loop.onWorld (printInfo "0 - quit Admin mode")
  Loop.onWorld (printInfo "1 - quit program")
  Loop.onWorld (printInfo "2 - set mode")
  Loop.onWorld (printInfo "3 - create card")
  if inp.key = 51 then do
    setMenu .create
    pure none
  else if inp.key = 50 then do
    Loop.onWorld (emit .clearScreen)
    setMenu .modes
    pure none
  else if inp.key = 48 then pure (some true)
  else if inp.key = 49 then pure (some false)
  else do
    Loop.onWorld (emit .clearScreen)
    pure none

def round (cfg : Config) (inp : Input β) : LoopM Menu β (Option Bool) := do
  let menu ← Loop.getLocals
  match menu with
  | .main => mainMenu inp
  | .create => do
      createMenu cfg inp
      pure none
  | .modes => do
      modeMenu inp
      pure none

/-- What `Admin::run` does before its loop. -/
def enter (w : World β) : Loop Menu β where
  locals := .main
  card := none
  read := false
  world := ((printInfo "Mode admin" : WorldM β Unit) w).2

end Admin

end BeeGadz
