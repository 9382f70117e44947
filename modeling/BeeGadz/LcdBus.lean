import BeeGadz.Lcd

/-!
# The bus of the display

The driver sends every byte as two half bytes over a port expander and clocks
each of them with the enable line.  The module models the lines up to the
controller, which may be in any state when the program starts, and shows that
the display memory is written as the calls of the driver say.
-/

namespace BeeGadz

open Foundation

/-!
## The driver
-/

namespace LcdDriver

def backlight : Nat :=
  0x08

def En : Nat :=
  0b00000100

def Rs : Nat :=
  0b00000001

/-- The bytes of `lcd_strobe`. -/
def lcdStrobe (data : Nat) : List Nat :=
  [data ||| En ||| backlight, (data ^^^ (data &&& En)) ||| backlight]

def lcdWriteFourBits (data : Nat) : List Nat :=
  (data ||| backlight) :: lcdStrobe data

def lcdWrite (cmd mode : Nat) : List Nat :=
  lcdWriteFourBits (mode ||| (cmd &&& 0xF0)) ++
    lcdWriteFourBits (mode ||| ((cmd <<< 4) &&& 0xF0))

def lcdDisplayString (string : List Char) (line : Nat) : List Nat :=
  (if line = 1 then lcdWrite 0x80 0 else []) ++
    (if line = 2 then lcdWrite 0xC0 0 else []) ++
    (if line = 3 then lcdWrite 0x94 0 else []) ++
    (if line = 4 then lcdWrite 0xD4 0 else []) ++
    string.flatMap fun char => lcdWrite char.toNat Rs

def lcdClear : List Nat :=
  lcdWrite 0x01 0 ++ lcdWrite 0x02 0

/-- The commands of `__init__` that bring the controller to half bytes. -/
def initBus : List Nat :=
  lcdWrite 0x03 0 ++ lcdWrite 0x03 0 ++ lcdWrite 0x03 0 ++ lcdWrite 0x02 0

/-- The commands of `__init__` that set the display up. -/
def initDisplay : List Nat :=
  lcdWrite (0x20 ||| 0x08 ||| 0x00 ||| 0x00) 0 ++
    lcdWrite (0x08 ||| 0x04) 0 ++ lcdWrite 0x01 0 ++
    lcdWrite (0x04 ||| 0x02) 0

/-- `__init__`. -/
def init : List Nat :=
  initBus ++ initDisplay

end LcdDriver

/-!
## The controller
-/

/-- How the controller takes the data lines: a byte at once, or in halves, of
which one may have come. -/
inductive Link where
  | eight
  | four (half : Option (Fin 16))
deriving DecidableEq

structure Chip where
  link : Link
  /-- what the four data lines that are not connected read -/
  pulled : Fin 16
  ddram : Nat -> Nat
  cgram : Nat -> Nat
  address : Nat
  /-- the address is one of `cgram` -/
  inCgram : Bool
  twoLine : Bool
  increment : Bool
  /-- the display moves with every character -/
  shifts : Bool
  /-- the column of the display memory that is shown first -/
  offset : Nat
  shown : Bool
  cursor : Bool
  blink : Bool

namespace Chip

def previous (address : Nat) : Nat :=
  if address = 0x40 then 0x27
  else if address = 0x00 then 0x67
  else address - 1

def count (up : Bool) (c : Chip) : Chip :=
  { c with
    address :=
      if c.inCgram then
        if up then (c.address + 1) % 64 else (c.address + 63) % 64
      else if c.twoLine then
        if up then Lcd.next c.address else previous c.address
      else if up then (c.address + 1) % 80
      else (c.address + 79) % 80 }

def scroll (left : Bool) (c : Chip) : Chip :=
  { c with
    offset := if left then (c.offset + 1) % 40 else (c.offset + 39) % 40 }

def store (byte : Nat) (c : Chip) : Chip :=
  if c.inCgram then
    { c with cgram := Function.update c.cgram c.address byte }
  else { c with ddram := Function.update c.ddram c.address byte }

def data (byte : Nat) (c : Chip) : Chip :=
  let c := (c.store byte).count c.increment
  if c.shifts then c.scroll c.increment else c

/-- A write with the register select line low: the highest bit that is set says
which instruction it is. -/
def instruct (byte : Nat) (c : Chip) : Chip :=
  if 0x80 ≤ byte then
    { c with address := byte - 0x80, inCgram := false }
  else if 0x40 ≤ byte then
    { c with address := byte - 0x40, inCgram := true }
  else if 0x20 ≤ byte then
    { c with
      link := if byte.testBit 4 then .eight else .four none
      twoLine := byte.testBit 3 }
  else if 0x10 ≤ byte then
    if byte.testBit 3 then c.scroll !(byte.testBit 2)
    else c.count (byte.testBit 2)
  else if 0x08 ≤ byte then
    { c with
      shown := byte.testBit 2
      cursor := byte.testBit 1
      blink := byte.testBit 0 }
  else if 0x04 ≤ byte then
    { c with increment := byte.testBit 1, shifts := byte.testBit 0 }
  else if 0x02 ≤ byte then
    { c with address := 0, offset := 0, inCgram := false }
  else if byte = 0x01 then
    { c with
      ddram := fun _ => Lcd.blank
      address := 0
      offset := 0
      increment := true
      inCgram := false }
  else c

def execute (byte : Nat) (rs rw : Bool) (c : Chip) : Chip :=
  if rw then if rs then c.count c.increment else c
  else if rs then c.data byte
  else c.instruct byte

def latch (half : Fin 16) (rs rw : Bool) (c : Chip) : Chip :=
  match c.link with
  | .eight => c.execute (16 * half.val + c.pulled.val) rs rw
  | .four none => { c with link := .four (some half) }
  | .four (some high) =>
      { c with link := .four none }.execute (16 * high.val + half.val) rs rw

/-- The codes that a row shows, if the display is on and the memory has two
lines: they have forty columns, of which the lower rows show the second half. -/
def visible (c : Chip) (i : Fin 4) : Option (List Nat) :=
  if c.shown ∧ c.twoLine then
    some ((List.range 20).map fun k =>
      let line := if i = 1 ∨ i = 3 then 0x40 else 0
      let column := if i = 2 ∨ i = 3 then 20 + k else k
      c.ddram (line + (column + c.offset) % 40))
  else none

end Chip

/-- The port expander, with the byte on its pins, and the controller behind
it. -/
structure Panel where
  pins : Nat
  chip : Chip

namespace Panel

def half (pins : Nat) : Fin 16 :=
  ⟨pins / 16 % 16, Nat.mod_lt _ (by decide)⟩

/-- `write_cmd`: the controller acts when the enable line falls, on what was on
the other lines before that. -/
def write (p : Panel) (byte : Nat) : Panel where
  pins := byte
  chip :=
    if p.pins.testBit 2 = true ∧ byte.testBit 2 = false then
      p.chip.latch (half p.pins) (p.pins.testBit 0) (p.pins.testBit 1)
    else p.chip

def receive (p : Panel) (bytes : List Nat) : Panel :=
  bytes.foldl write p

@[simp] theorem receive_nil (p : Panel) : p.receive [] = p := rfl

theorem receive_append (p : Panel) (first second : List Nat) :
    p.receive (first ++ second) = (p.receive first).receive second :=
  List.foldl_append

def Resting (p : Panel) : Prop :=
  p.pins.testBit 2 = false

end Panel

/-!
## Half bytes and bytes
-/

namespace LcdDriver

def lines (half : Fin 16) (rs : Bool) : Nat :=
  16 * half.val + rs.toNat

theorem upper_lines (cmd : Nat) (rs : Bool) :
    rs.toNat ||| (cmd &&& 0xF0) =
      lines ⟨cmd / 16 % 16, Nat.mod_lt _ (by decide)⟩ rs := by
  have hcmd : cmd &&& 0xF0 = cmd % 256 &&& 0xF0 := by
    have hmod := Nat.and_mod_two_pow (a := cmd) (b := 0xF0) (n := 8)
    have hlt : cmd &&& 0xF0 < 256 :=
      Nat.lt_of_le_of_lt Nat.and_le_right (by decide)
    rw [Nat.mod_eq_of_lt hlt] at hmod
    exact hmod
  have hhalf : cmd / 16 % 16 = cmd % 256 / 16 := by
    omega
  have hall : forall (b : Fin 256) (rs : Bool),
      rs.toNat ||| (b.val &&& 0xF0) = 16 * (b.val / 16) + rs.toNat := by
    decide +kernel
  rw [hcmd, lines]
  simp only [hhalf]
  exact hall ⟨cmd % 256, Nat.mod_lt _ (by decide)⟩ rs

theorem lower_lines (cmd : Nat) (rs : Bool) :
    rs.toNat ||| ((cmd <<< 4) &&& 0xF0) =
      lines ⟨cmd % 16, Nat.mod_lt _ (by decide)⟩ rs := by
  rw [upper_lines]
  congr 2
  rw [Nat.shiftLeft_eq]
  omega

theorem lines_bits : forall (half : Fin 16) (rs : Bool),
    Panel.half (lines half rs ||| En ||| backlight) = half ∧
      (lines half rs ||| En ||| backlight).testBit 0 = rs ∧
      (lines half rs ||| En ||| backlight).testBit 1 = false ∧
      (lines half rs ||| En ||| backlight).testBit 2 = true ∧
      (lines half rs ||| backlight).testBit 2 = false ∧
      ((lines half rs ^^^ (lines half rs &&& En)) ||| backlight).testBit 2 =
        false := by
  decide

end LcdDriver

namespace Panel

open LcdDriver

/-- A half byte reaches the controller; a strobe that was not finished before
comes first. -/
theorem receive_fourBits (p : Panel) (half : Fin 16) (rs : Bool) :
    (p.receive (lcdWriteFourBits (lines half rs))).Resting ∧
      (p.receive (lcdWriteFourBits (lines half rs))).chip =
        (p.write (lines half rs ||| backlight)).chip.latch half rs false := by
  rcases lines_bits half rs with ⟨hhalf, hrs, hrw, hhigh, hbefore, hafter⟩
  refine ⟨hafter, ?_⟩
  simp [receive, lcdWriteFourBits, lcdStrobe, write, hhalf, hrs, hrw, hhigh,
    hbefore, hafter]

theorem write_resting {p : Panel} (hp : p.Resting) (byte : Nat) :
    (p.write byte).chip = p.chip := by
  unfold Resting at hp
  simp [write, hp]

theorem receive_write (p : Panel) (cmd : Nat) (rs : Bool) :
    exists first : Nat,
      (p.receive (lcdWrite cmd rs.toNat)).Resting ∧
        (p.receive (lcdWrite cmd rs.toNat)).chip =
          ((p.write first).chip.latch
            ⟨cmd / 16 % 16, Nat.mod_lt _ (by decide)⟩ rs false).latch
              ⟨cmd % 16, Nat.mod_lt _ (by decide)⟩ rs false := by
  rw [lcdWrite, upper_lines, lower_lines, receive_append]
  rcases p.receive_fourBits ⟨cmd / 16 % 16, Nat.mod_lt _ (by decide)⟩ rs with
    ⟨hrest, hchip⟩
  rcases (p.receive (lcdWriteFourBits (lines
      ⟨cmd / 16 % 16, Nat.mod_lt _ (by decide)⟩ rs))).receive_fourBits
      ⟨cmd % 16, Nat.mod_lt _ (by decide)⟩ rs with ⟨hrest', hchip'⟩
  rw [write_resting hrest, hchip] at hchip'
  exact ⟨_, hrest', hchip'⟩

end Panel

/-!
## Synchronisation
-/

namespace Link

def told (byte : Nat) (l : Link) : Link :=
  if 0x20 ≤ byte ∧ byte < 0x40 then
    if byte.testBit 4 then .eight else .four none
  else l

def after (pulled : Fin 16) (l : Link) (half : Fin 16) : Link :=
  match l with
  | .eight => told (16 * half.val + pulled.val) .eight
  | .four none => .four (some half)
  | .four (some high) => told (16 * high.val + half.val) (.four none)

def opening : List (Fin 16) :=
  [0, 3, 0, 3, 0, 3, 0, 2]

/-- Wherever the controller is, the driver brings it to a whole byte in
halves. -/
theorem after_opening (pulled : Fin 16) (l : Link) :
    opening.foldl (after pulled) l = .four none := by
  cases l with
  | eight =>
      -- every half byte is an instruction, and only the last one has the
      -- function set with four lines
      revert pulled
      decide +kernel
  | four half =>
      cases half with
      | none =>
          -- the halves pair up: the cursor is sent home four times
          revert pulled
          decide +kernel
      | some high =>
          -- out of step: the first `3` that leads a pair chooses eight lines
          revert pulled high
          decide +kernel

end Link

namespace Chip

theorem link_instruct (byte : Nat) (c : Chip) :
    (c.instruct byte).link = c.link.told byte := by
  unfold instruct Link.told
  grind [scroll, count]

theorem pulled_instruct (byte : Nat) (c : Chip) :
    (c.instruct byte).pulled = c.pulled := by
  unfold instruct
  grind [scroll, count]

theorem link_latch (half : Fin 16) (c : Chip) :
    (c.latch half false false).link = c.link.after c.pulled half ∧
      (c.latch half false false).pulled = c.pulled := by
  rcases c with ⟨link, pulled⟩
  cases link with
  | eight => exact ⟨link_instruct _ _, pulled_instruct _ _⟩
  | four waiting =>
      cases waiting with
      | none => exact ⟨rfl, rfl⟩
      | some high => exact ⟨link_instruct _ _, pulled_instruct _ _⟩

theorem latch_latch {c : Chip} (h : c.link = .four none) (cmd : Nat)
    (rs : Bool) :
    (c.latch ⟨cmd / 16 % 16, Nat.mod_lt _ (by decide)⟩ rs false).latch
        ⟨cmd % 16, Nat.mod_lt _ (by decide)⟩ rs false =
      c.execute (cmd % 256) rs false := by
  have hbyte : 16 * (cmd / 16 % 16) + cmd % 16 = cmd % 256 := by
    omega
  have hsame : { c with link := .four none } = c := by
    rw [← h]
  simp only [latch, h, hbyte]
  rw [hsame]

/-!
## The display memory
-/

/-- The controller is set up as the driver does it, in step, and its display
memory is that of the display. -/
structure Ready (c : Chip) (d : Lcd) : Prop where
  link : c.link = .four none
  ddram : c.ddram = d.ddram
  address : c.address = d.address
  inCgram : c.inCgram = false
  twoLine : c.twoLine = true
  increment : c.increment = true
  shifts : c.shifts = false
  offset : c.offset = 0
  shown : c.shown = true
  cursor : c.cursor = false
  blink : c.blink = false

/-- The commands that the driver sends once the display is set up. -/
def Sent (cmd : Nat) : Prop :=
  0x80 ≤ cmd % 256 ∨ cmd % 256 = 0x01 ∨ cmd % 256 = 0x02

instance (cmd : Nat) : Decidable (Sent cmd) :=
  inferInstanceAs (Decidable (0x80 ≤ cmd % 256 ∨ cmd % 256 = 0x01 ∨
    cmd % 256 = 0x02))

theorem Ready.goto {c : Chip} {d : Lcd} (h : c.Ready d) (address : Nat) :
    { c with address := address, inCgram := false }.Ready
      { d with address := address } :=
  { h with address := rfl, inCgram := rfl }

theorem Ready.command {c : Chip} {d : Lcd} (h : c.Ready d) {cmd : Nat}
    (hcmd : Sent cmd) :
    (c.execute (cmd % 256) false false).Ready (d.writeCommand cmd) := by
  rcases hcmd with haddress | hclear | hhome
  · have hd : d.writeCommand cmd = { d with address := cmd % 256 - 0x80 } :=
      if_pos haddress
    have hc : c.execute (cmd % 256) false false =
        { c with address := cmd % 256 - 0x80, inCgram := false } :=
      if_pos haddress
    rw [hd, hc]
    exact h.goto _
  · have hd : d.writeCommand cmd = Lcd.cleared := by
      simp [Lcd.writeCommand, hclear]
    have hc : c.execute (cmd % 256) false false =
        { c with
          ddram := fun _ => Lcd.blank
          address := 0
          offset := 0
          increment := true
          inCgram := false } := by
      simp [execute, instruct, hclear]
    rw [hd, hc]
    exact { h with
      ddram := rfl
      address := rfl
      offset := rfl
      increment := rfl
      inCgram := rfl }
  · have hd : d.writeCommand cmd = { d with address := 0 } := by
      simp [Lcd.writeCommand, hhome]
    have hc : c.execute (cmd % 256) false false =
        { c with address := 0, offset := 0, inCgram := false } := by
      simp [execute, instruct, hhome]
    rw [hd, hc]
    exact { h with address := rfl, offset := rfl, inCgram := rfl }

theorem Ready.data {c : Chip} {d : Lcd} (h : c.Ready d) (ord : Nat) :
    (c.execute (ord % 256) true false).Ready (d.writeData ord) := by
  have hc : c.execute (ord % 256) true false =
      { c with
        ddram := Function.update c.ddram c.address (ord % 256)
        address := Lcd.next c.address } := by
    simp [execute, Chip.data, store, count, h.inCgram, h.twoLine,
      h.increment, h.shifts]
  rw [hc]
  exact { h with
    ddram := by simp [Lcd.writeData, h.ddram, h.address]
    address := by simp [Lcd.writeData, h.address] }

theorem Ready.visible {c : Chip} {d : Lcd} (h : c.Ready d) (i : Fin 4) :
    c.visible i = some (d.row i) := by
  rw [Chip.visible, if_pos ⟨h.shown, h.twoLine⟩, h.ddram, h.offset, Lcd.row]
  congr 1
  apply List.map_congr_left
  intro k hk
  have hlt : k < 20 := List.mem_range.mp hk
  have hrows : forall i : Fin 4, i = 0 ∨ i = 1 ∨ i = 2 ∨ i = 3 := by
    decide
  rcases hrows i with rfl | rfl | rfl | rfl
  · simp [Lcd.rowStart, Nat.mod_eq_of_lt (by omega : k < 40)]
  · simp [Lcd.rowStart, Nat.mod_eq_of_lt (by omega : k < 40)]
  · simp [Lcd.rowStart, Nat.mod_eq_of_lt (by omega : 20 + k < 40)]
  · simp [Lcd.rowStart, Nat.mod_eq_of_lt (by omega : 20 + k < 40)]
    congr 1
    omega

end Chip

namespace Panel

open LcdDriver

/-- The lines are at rest and the controller has the display memory. -/
structure Follows (p : Panel) (d : Lcd) : Prop where
  resting : p.Resting
  ready : p.chip.Ready d

theorem receive_byte {p : Panel} (hp : p.Resting)
    (hlink : p.chip.link = .four none) (cmd : Nat) (rs : Bool) :
    (p.receive (lcdWrite cmd rs.toNat)).Resting ∧
      (p.receive (lcdWrite cmd rs.toNat)).chip =
        p.chip.execute (cmd % 256) rs false := by
  rcases p.receive_write cmd rs with ⟨first, hrest, hchip⟩
  rw [write_resting hp, Chip.latch_latch hlink] at hchip
  exact ⟨hrest, hchip⟩

theorem receive_command {p : Panel} (hp : p.Resting)
    (hlink : p.chip.link = .four none) (cmd : Nat) :
    (p.receive (lcdWrite cmd 0)).Resting ∧
      (p.receive (lcdWrite cmd 0)).chip = p.chip.instruct (cmd % 256) :=
  receive_byte hp hlink cmd false

theorem Follows.command {p : Panel} {d : Lcd} (h : p.Follows d) (cmd : Nat)
    (hcmd : Chip.Sent cmd) :
    (p.receive (lcdWrite cmd 0)).Follows (d.writeCommand cmd) := by
  rcases receive_command h.resting h.ready.link cmd with ⟨hrest, hchip⟩
  exact ⟨hrest, hchip ▸ h.ready.command hcmd⟩

theorem Follows.data {p : Panel} {d : Lcd} (h : p.Follows d) (ord : Nat) :
    (p.receive (lcdWrite ord Rs)).Follows (d.writeData ord) := by
  rcases receive_byte h.resting h.ready.link ord true with ⟨hrest, hchip⟩
  exact ⟨hrest, hchip ▸ h.ready.data ord⟩

theorem Follows.characters {p : Panel} {d : Lcd} (h : p.Follows d)
    (string : List Char) :
    (p.receive (string.flatMap fun char => lcdWrite char.toNat Rs)).Follows
      (string.foldl (fun d char => d.writeData char.toNat) d) := by
  induction string generalizing p d with
  | nil => exact h
  | cons char string ih =>
      rw [List.flatMap_cons, receive_append, List.foldl_cons]
      exact ih (h.data char.toNat)

theorem Follows.row {p : Panel} {d : Lcd} (h : p.Follows d)
    (line n cmd : Nat) (hcmd : Chip.Sent cmd) :
    (p.receive (if line = n then lcdWrite cmd 0 else [])).Follows
      (if line = n then d.writeCommand cmd else d) := by
  split
  · exact h.command cmd hcmd
  · exact h

theorem Follows.displayString {p : Panel} {d : Lcd} (h : p.Follows d)
    (string : List Char) (line : Nat) :
    (p.receive (lcdDisplayString string line)).Follows
      (d.displayString string line) := by
  simp only [lcdDisplayString, receive_append]
  have h₁ := h.row line 1 0x80 (by decide)
  have h₂ := h₁.row line 2 0xC0 (by decide)
  have h₃ := h₂.row line 3 0x94 (by decide)
  have h₄ := h₃.row line 4 0xD4 (by decide)
  exact h₄.characters string

theorem Follows.clear {p : Panel} {d : Lcd} (h : p.Follows d) :
    (p.receive lcdClear).Follows d.clear := by
  rw [lcdClear, receive_append]
  have hcleared := h.command 0x01 (by decide)
  exact hcleared.command 0x02 (by decide)

/-!
## From the start on
-/

def halves (cmd : Nat) : List (Fin 16) :=
  [⟨cmd / 16 % 16, Nat.mod_lt _ (by decide)⟩,
    ⟨cmd % 16, Nat.mod_lt _ (by decide)⟩]

theorem receive_commands {p : Panel} (hp : p.Resting) (cmds : List Nat) :
    (p.receive (cmds.flatMap fun cmd => lcdWrite cmd 0)).Resting ∧
      (p.receive (cmds.flatMap fun cmd => lcdWrite cmd 0)).chip.link =
        (cmds.flatMap halves).foldl (Link.after p.chip.pulled) p.chip.link := by
  induction cmds generalizing p with
  | nil => exact ⟨hp, rfl⟩
  | cons cmd cmds ih =>
      rcases p.receive_write cmd false with ⟨first, hrest, hchip⟩
      rw [write_resting hp] at hchip
      have hupper := p.chip.link_latch
        ⟨cmd / 16 % 16, Nat.mod_lt _ (by decide)⟩
      have hlower := (p.chip.latch ⟨cmd / 16 % 16, Nat.mod_lt _ (by decide)⟩
        false false).link_latch ⟨cmd % 16, Nat.mod_lt _ (by decide)⟩
      rw [← hchip, hupper.left, hupper.right] at hlower
      rw [List.flatMap_cons, receive_append, List.flatMap_cons,
        List.foldl_append]
      have hall := ih hrest
      rw [hlower.right, hlower.left] at hall
      exact hall

/-- A byte with the enable line low can be sent twice. -/
theorem receive_again (p : Panel) {byte : Nat}
    (hbyte : byte.testBit 2 = false) (rest : List Nat) :
    p.receive (byte :: rest) = (p.write byte).receive (byte :: rest) := by
  have hsame : (p.write byte).write byte = p.write byte := by
    simp [write, hbyte]
  rw [receive, receive, List.foldl_cons, List.foldl_cons, hsame]

/-- However the panel is found, the first commands bring the controller in
step. -/
theorem receive_initBus (p : Panel) :
    (p.receive initBus).Resting ∧
      (p.receive initBus).chip.link = .four none := by
  have hhead : initBus = 0x08 :: initBus.tail := rfl
  have hcmds : initBus =
      [0x03, 0x03, 0x03, 0x02].flatMap fun cmd => lcdWrite cmd 0 := rfl
  have hopening : [0x03, 0x03, 0x03, 0x02].flatMap halves = Link.opening := rfl
  have hresting : (p.write 0x08).Resting := by
    change Nat.testBit 0x08 2 = false
    decide
  have hall := receive_commands hresting [0x03, 0x03, 0x03, 0x02]
  rw [hopening, Link.after_opening, ← hcmds, hhead,
    ← p.receive_again (by decide), ← hhead] at hall
  exact hall

theorem follows_initDisplay {p : Panel} (hp : p.Resting)
    (hlink : p.chip.link = .four none) :
    (p.receive initDisplay).Follows Lcd.cleared := by
  have hbytes : initDisplay =
      lcdWrite 0x28 0 ++ lcdWrite 0x0C 0 ++ lcdWrite 0x01 0 ++
        lcdWrite 0x06 0 := rfl
  rcases receive_command hp hlink 0x28 with ⟨h₁, hc₁⟩
  have hl₁ : (p.receive (lcdWrite 0x28 0)).chip.link = .four none := by
    rw [hc₁]
    rfl
  rcases receive_command h₁ hl₁ 0x0C with ⟨h₂, hc₂⟩
  rw [hc₁] at hc₂
  rw [← receive_append] at h₂ hc₂
  have hl₂ : (p.receive (lcdWrite 0x28 0 ++ lcdWrite 0x0C 0)).chip.link =
      .four none := by
    rw [hc₂]
    rfl
  rcases receive_command h₂ hl₂ 0x01 with ⟨h₃, hc₃⟩
  rw [hc₂] at hc₃
  rw [← receive_append] at h₃ hc₃
  have hl₃ : (p.receive (lcdWrite 0x28 0 ++ lcdWrite 0x0C 0 ++
      lcdWrite 0x01 0)).chip.link = .four none := by
    rw [hc₃]
    rfl
  rcases receive_command h₃ hl₃ 0x06 with ⟨h₄, hc₄⟩
  rw [hc₃] at hc₄
  rw [← receive_append] at h₄ hc₄
  rw [hbytes]
  refine ⟨h₄, ?_⟩
  rw [hc₄]
  constructor <;> rfl

theorem follows_init (p : Panel) : (p.receive init).Follows Lcd.cleared := by
  rcases p.receive_initBus with ⟨hrest, hlink⟩
  rw [init, receive_append]
  exact follows_initDisplay hrest hlink

end Panel

/-!
## Runs
-/

def LcdDriver.sendScript (script : String) : List Nat :=
  match readCall script.toList with
  | some (string, line) => lcdDisplayString string line
  | none => []

def Event.call {β : Type} (d : Lcd) : Event β -> Lcd
  | .printLCD message line => d.displayString message.toList line
  | .clearLine line => d.displayString (List.replicate 20 ' ') line
  | .clearScreen => d.clear
  | _ => d

theorem foldl_play {β : Type} {events : List (Event β)}
    (h : forall message line, .printLCD message line ∈ events ->
      PrintableText message) (d : Lcd) :
    events.foldl Event.play d = events.foldl Event.call d := by
  induction events generalizing d with
  | nil => rfl
  | cons e events ih =>
      have hsame : Event.play d e = Event.call d e := by
        cases e with
        | printLCD message line =>
            exact runScript_printLCD (h message line List.mem_cons_self) line d
        | clearLine line => exact runScript_clearLine line d
        | _ => rfl
      rw [List.foldl_cons, List.foldl_cons, hsame]
      exact ih (fun message line hmem =>
        h message line (List.mem_cons_of_mem _ hmem)) _

def Event.transmit {β : Type} : Event β -> List Nat
  | .printLCD message line =>
      LcdDriver.sendScript (printLCDScript message line)
  | .clearLine line => LcdDriver.sendScript (clearLineScript line)
  | .clearScreen => LcdDriver.lcdClear
  | _ => []

namespace Panel

open LcdDriver

variable {β : Type}

theorem Follows.script {p : Panel} {d : Lcd} (h : p.Follows d)
    (script : String) :
    (p.receive (sendScript script)).Follows (runScript script d) := by
  unfold sendScript runScript
  cases readCall script.toList with
  | none => exact h
  | some call => exact h.displayString call.1 call.2

theorem Follows.event {p : Panel} {d : Lcd} (h : p.Follows d) (e : Event β) :
    (p.receive e.transmit).Follows (e.play d) := by
  cases e with
  | printLCD message line => exact h.script _
  | clearLine line => exact h.script _
  | clearScreen => exact h.clear
  | _ => exact h

theorem Follows.events {p : Panel} {d : Lcd} (h : p.Follows d)
    (events : List (Event β)) :
    (p.receive (events.flatMap Event.transmit)).Follows
      (events.foldl Event.play d) := by
  induction events generalizing p d with
  | nil => exact h
  | cons e events ih =>
      rw [List.flatMap_cons, receive_append, List.foldl_cons]
      exact ih (h.event e)

/-- However the panel is found when the program starts (in the middle of a
strobe, of a byte or of any mode of the controller): after everything that was
sent over the bus the rows that are visible are those of the memory that the
calls of the driver leave. -/
theorem visible_after_log (p : Panel) {w : World β}
    (hprintable : forall message line, .printLCD message line ∈ w.log ->
      PrintableText message) :
    let bytes := init ++ w.log.flatMap Event.transmit
    let d := w.log.foldl Event.call Lcd.cleared
    (p.receive bytes).chip.Ready d ∧
      forall i, (p.receive bytes).chip.visible i = some (d.row i) := by
  intro bytes d
  have hcalls : d = w.log.foldl Event.play Lcd.cleared :=
    (foldl_play hprintable Lcd.cleared).symm
  have hfollows : (p.receive bytes).Follows d := by
    rw [receive_append, hcalls]
    exact (follows_init p).events w.log
  exact ⟨hfollows.ready, hfollows.ready.visible⟩

/-- A panel that was left in the middle of a strobe and of a byte, with the
display off and the address in the other memory. -/
def leftOpen : Panel where
  pins := 0x0c
  chip :=
    { link := .four (some 5)
      pulled := 15
      ddram := fun _ => 0x41
      cgram := fun _ => 0
      address := 7
      inCgram := true
      twoLine := false
      increment := false
      shifts := true
      offset := 3
      shown := false
      cursor := true
      blink := true }

theorem visible_after_log_of_order :
    let w : World Rat := (World.start (fun _ _ _ => 0) .bar).addLog
      [.clearLine 4, .printLCD "POSEZ CARTE CONSO" 1, .printLCD "OK" 4]
    (leftOpen.receive (init ++ w.log.flatMap Event.transmit)).chip.visible 3 =
      some ("OK".toList.map Char.toNat ++ List.replicate 18 0x20) := by
  intro w
  have hprintable : forall message line, .printLCD message line ∈ w.log ->
      PrintableText message := by
    intro message line hmem
    simp only [w, World.addLog_log, World.start, List.nil_append,
      List.mem_cons, Event.printLCD.injEq, reduceCtorEq, List.not_mem_nil,
      false_or, or_false] at hmem
    rcases hmem with ⟨rfl, _⟩ | ⟨rfl, _⟩
    · exact printableText_of_all (by decide +kernel)
    · exact printableText_of_all (by decide +kernel)
  rw [(visible_after_log leftOpen hprintable).right 3]
  decide +kernel

end Panel

end BeeGadz
