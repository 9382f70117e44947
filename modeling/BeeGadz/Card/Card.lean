import BeeGadz.Card.Sector
import BeeGadz.World

/-!
# The card

The cached copy of a MIFARE Classic card and the commands that synchronise it
with the tag: authentication, reading and writing of single blocks and of whole
sectors.  Commands run on a session, the card object together with the world;
the answers they will be given are their first argument.
-/

namespace BeeGadz

open Foundation

structure Card (β : Type) where
  keys : Vec UInt8
  target : Target
  /-- the `mifare_param` union -/
  param : Bytes β 16
  data : Vec (Sector β)

structure Session (β : Type) where
  card : Card β
  world : World β

abbrev SessionM (β : Type) : Type -> Type :=
  Prog (Session β) Exn

namespace Card

variable {β : Type}

def uid (c : Card β) : Uid :=
  c.target.uid

/-- `card[s][k]`. -/
def block (c : Card β) (s k : Nat) : Block β :=
  (c.data.get s).data.get k

/-- The assignment to `card[s][k]`. -/
def setBlock (c : Card β) (s k : Nat) (b : Block β) : Card β :=
  { c with data := c.data.modify s fun sector => sector.setBlock k b }

def fresh [Cell β] (target : Target) (keys : Vec UInt8) : Card β where
  keys := keys
  target := target
  param :=
    Bytes.copy (fun _ => Cell.ofByte 0) 6 fun i => Cell.ofByte (target.uid i)
  data :=
    (Vec.replicate 16 (Sector.new false 4 false)).modify 0 fun sector =>
      sector.setTrailer true

/-- `Card::Card(device, print, target, keys)`: only a MIFARE Classic tag is
recognised. -/
def new [Cell β] (target : Target) (keys : Vec UInt8) :
    Except Exn (Card β) :=
  if target.atqa = 0x4 then .ok (fresh target keys)
  else .error .exception

/-!
## Addresses
-/

/-- The loop of `calculateBlock`: the index is incremented before it is
used. -/
def blockLoop (data : Vec (Sector β)) : Nat -> Nat
  | 0 => 0
  | i + 1 => blockLoop data i + (data.get (i + 1)).size

def calculateBlock (c : Card β) (sector : Nat) : Nat :=
  blockLoop c.data sector + (c.data.get sector).size - 1

/-- `calculateBlock(sector) - m_data[sector].size() + 1` in the wrapping
arithmetic of `size_t`. -/
def firstBlock (c : Card β) (sector : Nat) : Nat :=
  (c.calculateBlock sector + sizeValues - (c.data.get sector).size + 1) %
    sizeValues

/-- The loop of `calculateSector`, whose index is an `int`; each round takes
away one sector, so that `block + 1` rounds are enough when no sector is
empty. -/
def sectorLoop (data : Vec (Sector β)) : Nat -> Nat -> Int -> Nat × Int
  | 0, sector, b => (sector, b)
  | fuel + 1, sector, b =>
      if 0 ≤ b - toInt (data.get sector).size then
        sectorLoop data fuel (sector + 1) (toInt (b - (data.get sector).size))
      else (sector, b)

def calculateSector (c : Card β) (block : Nat) : Nat × Nat :=
  let found := sectorLoop c.data (block + 1) 0 (toInt block)
  (found.1, toSize found.2)

/-!
## Frames
-/

def frame (c : Card β) (cmd : MifareCmd) (block : Nat) : Frame β where
  cmd := cmd
  block := block % 256
  param :=
    match cmd with
    | .authA => (List.ofFn c.param).take 10
    | .authB => (List.ofFn c.param).take 10
    | .read => []
    | .write => List.ofFn c.param

/-- `memcpy(m_param.mpa.abtAuthUid, getUid(), m_uidLen)`. -/
def loadUid [Cell β] (c : Card β) : Card β :=
  { c with param := c.param.copy 6 fun i => Cell.ofByte (c.uid i) }

/-- The six bytes from `&m_keys[i]` on. -/
def keyAt (c : Card β) (i : Nat) : Bytes UInt8 6 :=
  fun k => c.keys.get (i + k.val)

/-- `m_data[sector].setAuthentificationKey(&m_keys[i])` and the copy of that
key into the union. -/
def loadKey [Cell β] (c : Card β) (sector i : Nat) : Card β :=
  { c with
    data := c.data.modify sector fun s => s.setAuthentificationKey (c.keyAt i)
    param := c.param.copy 0 fun k => Cell.ofByte (c.keyAt i k) }

def loadData (c : Card β) (data : Bytes β 16) : Card β :=
  { c with param := c.param.copy 0 data }

end Card

/-!
## Sessions
-/

namespace Session

variable {β : Type}

def onWorld {α : Type} (p : WorldM β α) : SessionM β α :=
  Prog.zoom Session.world (fun w s => { s with world := w }) p

def getCard : SessionM β (Card β) :=
  fun s => (.ok s.card, s)

def modifyCard (f : Card β -> Card β) : SessionM β Unit :=
  Prog.modify fun s => { s with card := f s.card }

/-- `NfcDevice::findCard(uid, len)` for the card of the session. -/
def findCard (present : Bool) : SessionM β Bool := do
  let c ← getCard
  onWorld (emit (.select c.uid present))
  pure present

/-- `nfc_initiator_mifare_cmd`. -/
def mifareCmd (cmd : MifareCmd) (block : Nat) (reply : Reply β) :
    SessionM β Bool :=
  fun s =>
    let f := s.card.frame cmd block
    let w := s.world.addLog [.frame s.card.uid f reply.ok]
    match cmd with
    | .authA => (.ok reply.ok, { s with world := w })
    | .authB => (.ok reply.ok, { s with world := w })
    | .read =>
        if reply.ok then
          let data := w.mem s.card.uid f.block
          (.ok true,
            { card := { s.card with param := data }
              world := w.addLog [.received s.card.uid f.block data] })
        else (.ok false, { s with world := w })
    | .write =>
        let old := w.mem s.card.uid f.block
        (.ok reply.ok,
          { s with
            world := w.setMem s.card.uid f.block
              (reply.leaves old s.card.param) })

/-- `Printer::valueToString<size_t>(value, true)`. -/
def hex (n : Nat) : String :=
  String.ofList (Nat.toDigits 16 n)

def stillThere (present : Bool) : SessionM β Unit := do
  let there ← findCard present
  if there then pure ()
  else do
    onWorld (printError "The tag was removed !")
    Prog.throw .exception

variable [Cell β]

/-- One round of the loop of `authenticate`, continued by `next` when the key
was rejected. -/
def tryKey (ans : Answers β) (block j : Nat) (next : SessionM β Bool) :
    SessionM β Bool := do
  let c ← getCard
  let sector := (c.calculateSector block).1
  onWorld (emit (.key (6 * j)))
  modifyCard fun c => c.loadKey sector (6 * j)
  let keyB := (c.data.get sector).keyB
  let ok ← mifareCmd (if keyB then .authB else .authA) block (ans.auth j)
  if ok then pure true
  else do
    stillThere (ans.selected j)
    next

/-- The loop of `authenticate` with `more` rounds after the current one. -/
def tryKeys (ans : Answers β) (block : Nat) : Nat -> Nat -> SessionM β Bool
  | 0, j =>
      tryKey ans block j do
        onWorld
          (printError
            ("Error while trying to authenticate block " ++ hex block))
        pure false
  | more + 1, j => tryKey ans block j (tryKeys ans block more (j + 1))

/-- The index of the loop goes up by six and is compared with
`m_keys.size() * 6`, which makes `m_keys.size()` rounds, and one if there is no
key. -/
def authenticate (ans : Answers β) (block : Nat) : SessionM β Bool := do
  modifyCard Card.loadUid
  let c ← getCard
  tryKeys ans block (c.keys.size - 1) 0

def readData (ans : Answers β) (block : Nat) : SessionM β Bool := do
  modifyCard Card.loadUid
  let ok ← mifareCmd .read block ans.read
  if ok then do
    modifyCard fun c =>
      c.setBlock (c.calculateSector block).1 (c.calculateSector block).2
        { data := c.param, state := .clean }
    pure true
  else do
    stillThere ans.stays
    onWorld (printError ("Error while reading block " ++ hex block))
    pure false

/-- The body of the loop of `readMifareClassic`. -/
def loadBlock (ans : Answers β) (block : Nat) : SessionM β Unit := do
  let ok ← authenticate ans block
  if ok then do
    let loaded ← readData ans block
    if loaded then pure ()
    else onWorld (printError ("Error while loading block " ++ hex block))
  else pure ()

/-- The loop of `readMifareClassic` over `n` more blocks. -/
def readBlocks (pass : Pass β) : Nat -> Nat -> SessionM β Unit
  | 0, _ => pure ()
  | n + 1, block => do
      loadBlock (pass block) block
      readBlocks pass n (block + 1)

def readMifareClassic (pass : Pass β) (sector : Nat) : SessionM β Bool := do
  let c ← getCard
  readBlocks pass (c.data.get sector).size (c.firstBlock sector)
  pure true

def readSector (pass : Pass β) (sector : Nat) : SessionM β Bool :=
  readMifareClassic pass sector

/-- The loop of `readAllCard` over `n` more sectors. -/
def readSectors (pass : Pass β) : Nat -> Nat -> SessionM β Bool
  | 0, _ => pure true
  | n + 1, i => do
      let ok ← readSector pass i
      if ok then readSectors pass n (i + 1) else pure false

def readAllCard (pass : Pass β) : SessionM β Bool := do
  let c ← getCard
  readSectors pass c.data.size 0

omit [Cell β] in
def writeData (ans : Answers β) (block : Nat) : SessionM β Bool := do
  let c ← getCard
  let b := c.block (c.calculateSector block).1 (c.calculateSector block).2
  if b.state = .clean ∨ b.state = .dirty then pure true
  else do
    modifyCard fun c => c.loadData b.data
    let ok ← mifareCmd .write block ans.write
    if ok then pure true
    else do
      stillThere ans.stays
      pure false

/-- The body of the loop of `writeMifareClassic` on a modified block. -/
def storeBlock (ans : Answers β) (block : Nat) : SessionM β Unit := do
  let ok ← authenticate ans block
  if ok then do
    let stored ← writeData ans block
    if stored then pure ()
    else onWorld (printError ("Error while writing block " ++ hex block))
  else pure ()

/-- The loop of `writeMifareClassic` over `n` more blocks, the `k`-th block of
the sector being the next one. -/
def writeBlocks (pass : Pass β) (sector : Nat) :
    Nat -> Nat -> Nat -> SessionM β Unit
  | 0, _, _ => pure ()
  | n + 1, k, block => do
      let c ← getCard
      let state := (c.block sector k).state
      if state = .clean ∨ state = .dirty then
        writeBlocks pass sector n (k + 1) (block + 1)
      else do
        storeBlock (pass block) block
        writeBlocks pass sector n (k + 1) (block + 1)

def writeMifareClassic (pass : Pass β) (sector : Nat) : SessionM β Bool := do
  let c ← getCard
  writeBlocks pass sector (c.data.get sector).size 0 (c.firstBlock sector)
  pure true

def writeSector (pass : Pass β) (sector : Nat) : SessionM β Bool :=
  writeMifareClassic pass sector

/-- The loop of `writeAllCard` over `n` more sectors. -/
def writeSectors (pass : Pass β) : Nat -> Nat -> SessionM β Bool
  | 0, _ => pure true
  | n + 1, i => do
      let ok ← writeSector pass i
      if ok then writeSectors pass n (i + 1) else pure false

def writeAllCard (pass : Pass β) : SessionM β Bool := do
  let c ← getCard
  writeSectors pass c.data.size 0

end Session

end BeeGadz
