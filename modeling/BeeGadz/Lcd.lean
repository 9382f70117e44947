import BeeGadz.Foundation.Literal
import BeeGadz.Screen

/-!
# The display

What the calls of the printer do to a display of four rows with twenty columns:
the script that is handed to the interpreter, the driver that it calls, and the
memory of the controller, in which the end of a row is the beginning of another
one.
-/

namespace BeeGadz

open Foundation

/-!
## The controller
-/

/-- The display memory of the controller, by address, and the address that is
written next. -/
structure Lcd where
  ddram : Nat -> Nat
  address : Nat

namespace Lcd

def blank : Nat :=
  0x20

def next (address : Nat) : Nat :=
  if address = 0x27 then 0x40
  else if address = 0x67 then 0x00
  else address + 1

def cleared : Lcd where
  ddram := fun _ => blank
  address := 0

/-- `lcd_write` with the register select bit set: a character is written. -/
def writeData (ord : Nat) (d : Lcd) : Lcd where
  ddram := Function.update d.ddram d.address (ord % 256)
  address := next d.address

/-- `lcd_write` of a command: `LCD_SETDDRAMADDR`, `LCD_CLEARDISPLAY` or
`LCD_RETURNHOME`. -/
def writeCommand (cmd : Nat) (d : Lcd) : Lcd :=
  if 0x80 ≤ cmd % 256 then { d with address := cmd % 256 - 0x80 }
  else if cmd % 256 = 0x01 then cleared
  else if cmd % 256 = 0x02 then { d with address := 0 }
  else d

def displayString (string : List Char) (line : Nat) (d : Lcd) : Lcd :=
  let d := if line = 1 then d.writeCommand 0x80 else d
  let d := if line = 2 then d.writeCommand 0xC0 else d
  let d := if line = 3 then d.writeCommand 0x94 else d
  let d := if line = 4 then d.writeCommand 0xD4 else d
  string.foldl (fun d char => d.writeData char.toNat) d

def clear (d : Lcd) : Lcd :=
  (d.writeCommand 0x01).writeCommand 0x02

def rowStart : Fin 4 -> Nat
  | 0 => 0x00
  | 1 => 0x40
  | 2 => 0x14
  | 3 => 0x54

def row (d : Lcd) (i : Fin 4) : List Nat :=
  (List.range 20).map fun k => d.ddram (rowStart i + k)

end Lcd

/-!
## The scripts
-/

def callWords : String :=
  "lcd.lcd_display_string("

/-- The script of `Printer::printLCD`. -/
def printLCDScript (message : String) (line : Nat) : String :=
  callWords ++ ("\"" ++ message ++ "\", " ++ toString line ++ ")")

/-- The script of `Printer::clearLine`. -/
def clearLineScript (line : Nat) : String :=
  callWords ++ ("\" \" * 20, " ++ toString line ++ ")")

/-- The arguments of a call of `lcd_display_string`: a string literal, which may
be repeated, and a number.  Literals with escapes are not read. -/
def readCall (script : List Char) : Option (List Char × Nat) := do
  let text ← expect callWords.toList script
  let text ← expect ['"'] text
  let (string, text) ← readRaw '"' text
  let (string, text) ←
    match expect [' ', '*', ' '] text with
    | none => some (string, text)
    | some text => do
        let (n, text) ← readNumber text
        some ((List.replicate n string).flatten, text)
  let text ← expect [',', ' '] text
  let (line, text) ← readNumber text
  if text = [')'] then some (string, line) else none

/-- `PyRun_SimpleString`: a script that is no such call does nothing. -/
def runScript (script : String) (d : Lcd) : Lcd :=
  match readCall script.toList with
  | some (string, line) => d.displayString string line
  | none => d

def Event.play {β : Type} (d : Lcd) : Event β -> Lcd
  | .printLCD message line => runScript (printLCDScript message line) d
  | .clearLine line => runScript (clearLineScript line) d
  | .clearScreen => d.clear
  | _ => d

/-- The characters of texts that the results of this module are about: those that
a string literal of the interpreter may hold as they are. -/
def Printable (ch : Char) : Prop :=
  0x20 ≤ ch.toNat ∧ ch.toNat ≤ 0x7E ∧ ch ≠ '"' ∧ ch ≠ '\\'

def PrintableText (text : String) : Prop :=
  forall ch, ch ∈ text.toList -> Printable ch

theorem printableText_of_all {text : String}
    (h : (text.toList.all fun ch =>
      0x20 ≤ ch.toNat && ch.toNat ≤ 0x7E && ch != '"' && ch != '\\') = true) :
    PrintableText text := by
  intro ch hch
  have hall := List.all_eq_true.mp h ch hch
  simp only [Bool.and_eq_true, decide_eq_true_eq, bne_iff_ne] at hall
  exact ⟨hall.left.left.left, hall.left.left.right, hall.left.right, hall.right⟩

theorem readNumber_line (line : Nat) :
    readNumber (Nat.toDigits 10 line ++ [')']) = some (line, [')']) := by
  apply readNumber_toDigits
  intro ch hch
  cases hch
  rfl

theorem readCall_printLCD {message : String}
    (hmessage : PrintableText message) (line : Nat) :
    readCall (printLCDScript message line).toList =
      some (message.toList, line) := by
  have hquote : "\"".toList = ['"'] := by decide
  have hcomma : "\", ".toList = ['"', ',', ' '] := by decide
  have hend : ")".toList = [')'] := by decide
  have htext : (printLCDScript message line).toList =
      callWords.toList ++ (['"'] ++ (message.toList ++ '"' ::
        ([',', ' '] ++ (Nat.toDigits 10 line ++ [')'])))) := by
    simp [printLCDScript, String.toList_append, hquote, hcomma, hend]
  have hraw := readRaw_append (q := '"') (s := message.toList)
    (fun ch hch => (hmessage ch hch).right.right)
    ([',', ' '] ++ (Nat.toDigits 10 line ++ [')']))
  have hnoTimes : forall text : List Char,
      expect [' ', '*', ' '] ([',', ' '] ++ text) = none := fun _ => rfl
  rw [htext, readCall, expect_append]
  simp only [bind, Option.bind_some, expect_append, hraw, hnoTimes,
    readNumber_line, if_true]

theorem readCall_clearLine (line : Nat) :
    readCall (clearLineScript line).toList =
      some (List.replicate 20 ' ', line) := by
  have hblank : "\" \" * 20, ".toList =
      ['"', ' ', '"', ' ', '*', ' ', '2', '0', ',', ' '] := by decide
  have hend : ")".toList = [')'] := by decide
  have htext : (clearLineScript line).toList =
      callWords.toList ++ (['"'] ++ ([' '] ++ '"' :: ([' ', '*', ' '] ++
        (['2', '0'] ++ ([',', ' '] ++
          (Nat.toDigits 10 line ++ [')'])))))) := by
    simp [clearLineScript, String.toList_append, hblank, hend]
  have hraw := readRaw_append (q := '"') (s := [' '])
    (ordinary_of_all (by decide)) ([' ', '*', ' '] ++ (['2', '0'] ++ ([',', ' '] ++
      (Nat.toDigits 10 line ++ [')']))))
  have htwenty : forall text : List Char,
      readNumber (['2', '0'] ++ ([',', ' '] ++ text)) =
        some (20, [',', ' '] ++ text) :=
    fun text => readNumber_toDigits 20 (by
      intro ch hch
      cases hch
      rfl)
  have hspaces : (List.replicate 20 [' ']).flatten =
      List.replicate 20 ' ' := by decide
  rw [htext, readCall, expect_append]
  simp only [bind, Option.bind_some, expect_append, hraw, htwenty, hspaces,
    readNumber_line, if_true]

theorem runScript_printLCD {message : String}
    (hmessage : PrintableText message) (line : Nat) (d : Lcd) :
    runScript (printLCDScript message line) d =
      d.displayString message.toList line := by
  rw [runScript, readCall_printLCD hmessage]

theorem runScript_clearLine (line : Nat) (d : Lcd) :
    runScript (clearLineScript line) d =
      d.displayString (List.replicate 20 ' ') line := by
  rw [runScript, readCall_clearLine]

namespace Lcd

theorem displayString_line (string : List Char) (i : Fin 4) (d : Lcd) :
    d.displayString string (i.val + 1) =
      string.foldl (fun d char => d.writeData char.toNat)
        { d with address := rowStart i } := by
  match i with
  | 0 => rfl
  | 1 => rfl
  | 2 => rfl
  | 3 => rfl

theorem next_rowStart (i : Fin 4) {k : Nat} (hk : k < 19) :
    next (rowStart i + k) = rowStart i + (k + 1) := by
  have hinside : rowStart i + k ≠ 0x27 ∧ rowStart i + k ≠ 0x67 := by
    match i with
    | 0 | 1 | 2 | 3 =>
        simp only [rowStart]
        omega
  rw [next, if_neg hinside.left, if_neg hinside.right, Nat.add_assoc]

theorem rowStart_add_inj {i j : Fin 4} {k l : Nat} (hk : k < 20)
    (hl : l < 20) (h : rowStart i + k = rowStart j + l) : i = j ∧ k = l := by
  revert h
  match i, j with
  | 0, 0 | 1, 1 | 2, 2 | 3, 3 =>
      intro h
      exact ⟨rfl, Nat.add_left_cancel h⟩
  | 0, 1 | 0, 2 | 0, 3 | 1, 0 | 1, 2 | 1, 3 | 2, 0 | 2, 1 | 2, 3
  | 3, 0 | 3, 1 | 3, 2 =>
      simp only [rowStart]
      omega

theorem writeAll_ddram (i : Fin 4) (s : List Char) {k : Nat} {d : Lcd}
    (haddress : s ≠ [] -> d.address = rowStart i + k)
    (hfit : k + s.length ≤ 20) (a : Nat) :
    (s.foldl (fun d char => d.writeData char.toNat) d).ddram a =
      if rowStart i + k ≤ a ∧ a < rowStart i + k + s.length then
        (s.map fun ch => ch.toNat % 256).getD (a - (rowStart i + k)) 0
      else d.ddram a := by
  induction s generalizing k d with
  | nil =>
      rw [if_neg]
      · rfl
      · simp only [List.length_nil]
        omega
  | cons ch s ih =>
      have hstart : d.address = rowStart i + k := haddress (by simp)
      simp only [List.length_cons] at hfit
      have hnext : s ≠ [] ->
          (d.writeData ch.toNat).address = rowStart i + (k + 1) := by
        intro hne
        have hlength := List.length_pos_of_ne_nil hne
        rw [writeData, hstart]
        exact next_rowStart i (by omega)
      rw [List.foldl_cons, ih hnext (by omega)]
      have hddram : (d.writeData ch.toNat).ddram =
          Function.update d.ddram (rowStart i + k) (ch.toNat % 256) := by
        rw [writeData, hstart]
      rw [hddram, List.length_cons]
      by_cases ha : a = rowStart i + k
      · rw [if_neg (by omega), if_pos (by omega), ha]
        simp
      · rw [Function.update_of_ne ha]
        by_cases hin : rowStart i + (k + 1) ≤ a ∧
            a < rowStart i + (k + 1) + s.length
        · have hindex : a - (rowStart i + k) =
              a - (rowStart i + (k + 1)) + 1 := by omega
          rw [if_pos hin, if_pos (by omega), hindex, List.map_cons,
            List.getD_cons_succ]
        · rw [if_neg hin, if_neg (by omega)]

def following : Fin 4 -> Fin 4
  | 0 => 2
  | 1 => 3
  | 2 => 1
  | 3 => 0

theorem next_lastColumn (i : Fin 4) :
    next (rowStart i + 19) = rowStart (following i) := by
  revert i
  decide

/-- The last character of a text of twenty-one characters goes to another row. -/
theorem writeAll_overlong (i : Fin 4) (s : List Char) (ch : Char) {k : Nat}
    {d : Lcd} (haddress : d.address = rowStart i + k)
    (hfull : k + s.length = 20) (hne : s ≠ []) :
    ((s ++ [ch]).foldl (fun d char => d.writeData char.toNat) d).ddram
      (rowStart (following i)) = ch.toNat % 256 := by
  induction s generalizing k d with
  | nil => exact absurd rfl hne
  | cons first s ih =>
      simp only [List.length_cons] at hfull
      rw [List.cons_append, List.foldl_cons]
      by_cases hlast : s = []
      · subst hlast
        have hk : k = 19 := by simpa using hfull
        have hnext : (d.writeData first.toNat).address =
            rowStart (following i) := by
          rw [writeData, haddress, hk]
          exact next_lastColumn i
        rw [List.nil_append, List.foldl_cons, List.foldl_nil, writeData,
          hnext]
        exact Function.update_self ..
      · have hlength := List.length_pos_of_ne_nil hlast
        have hnext : (d.writeData first.toNat).address =
            rowStart i + (k + 1) := by
          rw [writeData, haddress]
          exact next_rowStart i (by omega)
        exact ih hnext (by omega) hlast

theorem row_overlong (i : Fin 4) {s : List Char} (hs : s.length = 20)
    (ch : Char) (d : Lcd) :
    ((d.displayString (s ++ [ch]) (i.val + 1)).row (following i)).head? =
      some (ch.toNat % 256) := by
  have hne : s ≠ [] := by
    intro hempty
    rw [hempty] at hs
    cases hs
  have hcell := writeAll_overlong i s ch (k := 0)
    (d := { d with address := rowStart i }) rfl (by omega) hne
  rw [displayString_line]
  exact congrArg some hcell

theorem row_displayString {s : List Char} (hs : s.length ≤ 20) (i j : Fin 4)
    (d : Lcd) :
    (d.displayString s (i.val + 1)).row j =
      if j = i then
        (s.map fun ch => ch.toNat % 256) ++ (d.row i).drop s.length
      else d.row j := by
  have hcell := writeAll_ddram i s (k := 0)
    (d := { d with address := rowStart i }) (fun _ => rfl) (by omega)
  rw [displayString_line]
  by_cases hij : j = i
  · subst hij
    rw [if_pos rfl]
    apply List.ext_getElem
    · simp only [row, List.length_map, List.length_range,
        List.length_append, List.length_drop]
      omega
    · intro k hk _
      have hk20 : k < 20 := by simpa [row] using hk
      have hindex : rowStart j + k - (rowStart j + 0) = k := by omega
      simp only [row, List.getElem_map, List.getElem_range, hcell]
      by_cases hlt : k < s.length
      · rw [if_pos (by omega), hindex, List.getElem_append_left (by simpa)]
        simp [List.getD_eq_getElem?_getD, hlt]
      · have hle : s.length ≤ k := Nat.le_of_not_lt hlt
        have hback : s.length + (k - s.length) = k := by omega
        rw [if_neg (by omega), List.getElem_append_right (by simpa)]
        simp only [List.getElem_drop, List.getElem_map, List.getElem_range,
          List.length_map, hback]
  · rw [if_neg hij]
    apply List.map_congr_left
    intro k hk
    have hk20 : k < 20 := List.mem_range.mp hk
    rw [hcell, if_neg]
    intro hinside
    have hsame := rowStart_add_inj (i := i) (j := j)
      (k := rowStart j + k - rowStart i) (l := k) (by omega) hk20 (by omega)
    exact hij hsame.left.symm

end Lcd

/-!
## What the rows show
-/

section Rows

variable {β : Type}

/-- The message that a line shows: what was sent to it last, unless that was a
blank line. -/
def shownNow (i : Fin 4) (w : World β) : Option String :=
  (lineLog i w).getLast?.bind fun e =>
    match e with
    | .printLCD message _ => some message
    | _ => none

def padded (message : Option String) : List Nat :=
  let codes := (message.getD "").toList.map Char.toNat
  codes ++ List.replicate (20 - codes.length) Lcd.blank

def lcdOf (w : World β) : Lcd :=
  w.log.foldl Event.play Lcd.cleared

/-- Every row shows the message of its own line, padded, or blanks. -/
def RowsShow (w : World β) : Prop :=
  forall i, (lcdOf w).row i = padded (shownNow i w)

theorem padded_none : padded none = List.replicate 20 Lcd.blank := rfl

theorem row_cleared (i : Fin 4) : Lcd.cleared.row i = padded none := rfl

theorem row_clearLine (i j : Fin 4) (d : Lcd) :
    (Event.play d (.clearLine (i.val + 1) : Event β)).row j =
      if j = i then padded none else d.row j := by
  rw [Event.play, runScript_clearLine,
    Lcd.row_displayString (by simp)]
  split
  · rename_i hj
    have hdrop : (d.row i).drop 20 = [] :=
      List.drop_eq_nil_of_le (by simp [Lcd.row])
    rw [List.length_replicate, hdrop, List.append_nil]
    rfl
  · rfl

theorem row_printLCD {message : String} (hmessage : PrintableText message)
    (hfit : message.length ≤ 20) (i j : Fin 4) {d : Lcd}
    (hblank : d.row i = padded none) :
    (Event.play d (.printLCD message (i.val + 1) : Event β)).row j =
      if j = i then padded (some message) else d.row j := by
  have hlength : message.toList.length ≤ 20 := by
    rwa [String.length_toList]
  have hcodes : (message.toList.map fun ch => ch.toNat % 256) =
      message.toList.map Char.toNat := by
    apply List.map_congr_left
    intro ch hch
    have hprintable := hmessage ch hch
    exact Nat.mod_eq_of_lt (by
      have hlast := hprintable.right.left
      omega)
  rw [Event.play, runScript_printLCD hmessage,
    Lcd.row_displayString hlength]
  split
  · rw [hblank, padded_none, List.drop_replicate, hcodes, padded]
    simp
  · rfl

theorem lcdOf_printLine (timer shown : Int) (j : Fin 4) (w : World β) :
    lcdOf (printLine timer shown j w).2 =
      ((printQueue β timer shown j (w.screen j)).2).foldl Event.play
        (lcdOf w) := by
  rw [printLine_run, lcdOf, World.addLog_log, List.foldl_append]
  rfl

theorem shownNow_of_lineLog {i : Fin 4} {w w' : World β}
    {events : List (Event β)} (hlog : lineLog i w' = lineLog i w ++ events) :
    shownNow i w' =
      match events.getLast? with
      | none => shownNow i w
      | some (.printLCD message _) => some message
      | some _ => none := by
  rw [shownNow, hlog]
  cases hlast : events.getLast? with
  | none =>
      rw [List.getLast?_eq_none_iff.mp hlast, List.append_nil]
      rfl
  | some e =>
      rw [List.getLast?_append, hlast]
      cases e <;> rfl

/-- The front message of a queue can be displayed on one row. -/
def FrontFits (queue : List Line) : Prop :=
  forall front rest, queue = front :: rest -> front.printed = -1 ->
    front.message.length ≤ 20

theorem rowsShow_printLine (timer shown : Int) {j : Fin 4} {w : World β}
    (h : RowsShow w) (hprintable : Messages PrintableText (w.screen j))
    (hfits : FrontFits (w.screen j)) :
    RowsShow (printLine timer shown j w).2 := by
  intro i
  have hlog := printLine_lineLog timer shown i j w
  have hnow := shownNow_of_lineLog hlog
  have hlcd := lcdOf_printLine timer shown j w
  rw [hlcd, hnow]
  have hprinted := printed_printQueue (β := β) timer shown j (w.screen j)
  generalize (printQueue β timer shown j (w.screen j)).2 = events at *
  generalize (printQueue β timer shown j (w.screen j)).1 = queue' at *
  generalize w.screen j = queue at *
  have hclear := row_clearLine (β := β) j i (lcdOf w)
  have hcleared : forall events : List (Event β),
      events = [.clearLine (j.val + 1)] ->
      (events.foldl Event.play (lcdOf w)).row i =
        padded
          (match (if j = i then events else []).getLast? with
          | none => shownNow i w
          | some (.printLCD message _) => some message
          | some _ => none) := by
    intro events hevents
    rw [hevents, List.foldl_cons, List.foldl_nil, hclear]
    by_cases hji : j = i
    · simp [hji]
    · have hij : i ≠ j := fun heq => hji heq.symm
      simpa [hji, hij] using h i
  cases hprinted with
  | idle => simpa using h i
  | shows front rest hnew =>
      have hblank := row_clearLine (β := β) j j (lcdOf w)
      rw [if_pos rfl] at hblank
      have hrow := row_printLCD (β := β)
        (hprintable front List.mem_cons_self) (hfits front rest rfl hnew) j i
        hblank
      rw [List.foldl_cons, List.foldl_cons, List.foldl_nil, hrow, hclear]
      by_cases hji : j = i
      · simp [hji]
      · have hij : i ≠ j := fun heq => hji heq.symm
        simpa [hji, hij] using h i
  | expires front rest hold htime hlate => exact hcleared _ rfl
  | replaced front rest hold htime hrest => exact hcleared _ rfl

theorem rowsShow_printLines {timer : Int} {shown : Fin 4 -> Int}
    {lines : List (Fin 4)} (hlines : lines.Nodup) {w : World β}
    (h : RowsShow w) (hprintable : forall i, Messages PrintableText (w.screen i))
    (hfits : forall i, i ∈ lines -> FrontFits (w.screen i)) :
    RowsShow (printLines timer shown lines w) := by
  induction lines generalizing w with
  | nil => exact h
  | cons j lines ih =>
      rw [List.nodup_cons] at hlines
      have hfirst := rowsShow_printLine timer (shown j) h (hprintable j)
        (hfits j List.mem_cons_self)
      apply ih hlines.right hfirst
      · intro i
        rw [printLine_screen]
        split
        · exact (hprintable j).printed
            (printed_printQueue (β := β) timer (shown j) j (w.screen j))
        · exact hprintable i
      · intro i hi
        have hij : i ≠ j := fun heq => hlines.left (heq ▸ hi)
        rw [printLine_screen, if_neg hij]
        exact hfits i (List.mem_cons_of_mem j hi)

/-- After every part of a run each row shows the message of its line. -/
def RowsIsolated (start : World β) (ops : List ScreenOp) : Prop :=
  forall past, past <+: ops -> RowsShow (ScreenOp.afterAll past start)

/-- No print of a run finds a message that is to be displayed and is longer than
a row. -/
def FitsRows (start : World β) (ops : List ScreenOp) : Prop :=
  forall past timer shown, past ++ [.print timer shown] <+: ops ->
    forall i, FrontFits ((ScreenOp.afterAll past start).screen i)

theorem rowsShow_start (mem : Uid -> Nat -> Bytes β 16) (mode : ConfigMode) :
    RowsShow (World.start mem mode) := by
  intro i
  exact row_cleared i

theorem rowsShow_after {op : ScreenOp} {w : World β} (h : RowsShow w)
    (hprintable : forall i, Messages PrintableText (w.screen i))
    (hfits : forall timer shown, op = .print timer shown ->
      forall i, FrontFits (w.screen i)) :
    RowsShow (op.after w) := by
  cases op with
  | setCommand command line time => exact h
  | print timer shown =>
      have hlines : ([0, 1, 2, 3] : List (Fin 4)).Nodup := by decide
      exact rowsShow_printLines hlines h hprintable
        fun i _ => hfits timer shown rfl i

theorem rowsShow_afterAll (mem : Uid -> Nat -> Bytes β 16)
    (mode : ConfigMode) {ops : List ScreenOp}
    (hprintable : forall op, op ∈ ops -> op.Queues PrintableText)
    (hfits : FitsRows (World.start mem mode) ops) :
    RowsShow (ScreenOp.afterAll ops (World.start mem mode)) := by
  induction ops using List.reverseRecOn with
  | nil => exact rowsShow_start mem mode
  | append_singleton past op ih =>
      have hpast : forall other, other ∈ past ->
          other.Queues PrintableText :=
        fun other hother => hprintable other (by simp [hother])
      have hrows := ih hpast fun early timer shown hearly =>
        hfits early timer shown (hearly.trans (List.prefix_append _ _))
      rw [ScreenOp.afterAll_concat]
      apply rowsShow_after hrows (messages_afterAll (by simp [Messages,
        World.start]) hpast)
      intro timer shown hop
      exact hfits past timer shown (by rw [hop])

theorem length_le_of_row {d : Lcd} {i : Fin 4} {message : String}
    (h : d.row i = padded (some message)) : message.length ≤ 20 := by
  have hlength := congrArg List.length h
  simp only [Lcd.row, padded, Option.getD_some, List.length_map,
    List.length_range, List.length_append, List.length_replicate,
    String.length_toList] at hlength
  omega

theorem fitsRows_of_isolated {start : World β} {ops : List ScreenOp}
    (h : RowsIsolated start ops) : FitsRows start ops := by
  intro past timer shown hprefix i front rest hqueue hnew
  have hline := (printLines_line timer shown i [0, 1, 2, 3] (by decide)
    (ScreenOp.afterAll past start)).right
  rw [if_pos (mem_allLines i), hqueue, printQueue, if_pos hnew, ← print_run] at hline
  have hrow := h _ hprefix i
  rw [ScreenOp.afterAll_concat] at hrow
  have hnow := shownNow_of_lineLog hline
  have hafter : ScreenOp.after (.print timer shown)
      (ScreenOp.afterAll past start) =
        (print timer shown (ScreenOp.afterAll past start)).2 := rfl
  rw [hafter, hnow] at hrow
  exact length_le_of_row hrow

/-- Whatever printable texts are queued and printed in whatever order: every row
shows the message of its own line after every call, exactly when no print has to
display a message that is longer than a row.  No text of at most twenty
characters is. -/
theorem rows_isolated_iff (mem : Uid -> Nat -> Bytes β 16) (mode : ConfigMode)
    {ops : List ScreenOp}
    (hprintable : forall command line time,
      .setCommand command line time ∈ ops -> PrintableText command) :
    (RowsIsolated (World.start mem mode) ops <->
      FitsRows (World.start mem mode) ops) ∧
    ((forall command line time, .setCommand command line time ∈ ops ->
        command.length ≤ 20) ->
      RowsIsolated (World.start mem mode) ops) := by
  have hqueues : forall op, op ∈ ops -> op.Queues PrintableText := by
    intro op hop
    cases op with
    | setCommand command line time =>
        intro ch hch
        rw [ScreenOp.truncated, String.toList_ofList] at hch
        exact hprintable command line time hop ch (List.mem_of_mem_take hch)
    | print timer shown => trivial
  have hiff : RowsIsolated (World.start mem mode) ops <->
      FitsRows (World.start mem mode) ops := by
    constructor
    · exact fitsRows_of_isolated
    · intro hfits past hpast
      apply rowsShow_afterAll mem mode
      · intro op hop
        exact hqueues op (hpast.subset hop)
      · intro early timer shown hearly
        exact hfits early timer shown (hearly.trans hpast)
  refine ⟨hiff, ?_⟩
  intro hshort
  apply hiff.mpr
  intro past timer shown hpast i front rest hqueue _
  have hlengths := messages_afterAll (P := fun message => message.length ≤ 20)
    (show forall i, Messages _ ((World.start mem mode : World β).screen i) by
      simp [Messages, World.start])
    (show forall op, op ∈ past -> _ from ?_) i
  · exact hlengths front (by simp [hqueue])
  · intro op hop
    cases op with
    | setCommand command line time =>
        have hin : .setCommand command line time ∈ ops :=
          hpast.subset (by simp [hop])
        have hcommand := hshort command line time hin
        simp only [ScreenOp.Queues, ScreenOp.truncated,
          String.length_ofList, List.length_take, String.length_toList]
        omega
    | print timer shown => trivial

theorem rows_isolated_iff_short :
    RowsIsolated (World.start (fun _ _ _ => 0) .bar : World UInt8)
      [.setCommand "OK" 0 1, .print 5 fun _ => 5] := by
  have hops : forall command line time,
      ScreenOp.setCommand command line time ∈
        [.setCommand "OK" 0 1, .print 5 fun _ => 5] -> command = "OK" := by
    intro command line time hop
    simp only [List.mem_cons, List.not_mem_nil, or_false, reduceCtorEq,
      ScreenOp.setCommand.injEq] at hop
    exact hop.left
  have hprintable : PrintableText "OK" :=
    printableText_of_all (by decide)
  refine (rows_isolated_iff _ _ ?_).right ?_
  · intro command line time hop
    rw [hops command line time hop]
    exact hprintable
  · intro command line time hop
    rw [hops command line time hop]
    decide

/-- Twenty-one characters, which `setCommand` leaves as they are. -/
def overlongText : List Char :=
  List.replicate 20 'A' ++ ['A']

def overlong : String :=
  String.ofList overlongText

theorem toList_truncated_overlong :
    (ScreenOp.truncated overlong).toList = overlongText := by
  have htext : overlong.toList = overlongText := String.toList_ofList
  rw [ScreenOp.truncated, String.toList_ofList, htext]
  decide

theorem printableText_overlong :
    PrintableText (ScreenOp.truncated overlong) := by
  have hletter : (overlongText.all fun ch => ch == 'A') = true := by decide
  intro ch hch
  rw [toList_truncated_overlong] at hch
  rw [eq_of_beq (List.all_eq_true.mp hletter ch hch)]
  exact ⟨by decide, by decide, by decide, by decide⟩

theorem printLine_empty {timer shown : Int} {i : Fin 4} {w : World β}
    (h : w.screen i = []) : (printLine timer shown i w).2 = w := by
  have hsame : Function.update w.screen i [] = w.screen := by
    rw [← h, Function.update_eq_self]
  rw [printLine_run, h, printQueue, hsame, World.addLog_nil]

/-- A text of twenty-one characters on the first line leaves its last character
in the first column of the third row, on which nothing is displayed. -/
theorem rows_not_isolated :
    let start : World UInt8 := World.start (fun _ _ _ => 0) .bar
    let ops : List ScreenOp := [.setCommand overlong 0 5, .print 5 fun _ => 5]
    ((lcdOf (ScreenOp.afterAll ops start)).row 2).head? = some 0x41 ∧
      ¬ RowsIsolated start ops := by
  intro start ops
  let w := (setCommand overlong 0 5 start).2
  have hqueues : forall i, w.screen i =
      if 0 = i then [⟨ScreenOp.truncated overlong, 5, -1⟩] else [] :=
    fun i => (ScreenOp.setCommand_line overlong 0 5 i start).left
  have hothers : forall i, i ≠ 0 ->
      (printLine 5 5 0 w).2.screen i = [] := by
    intro i hi
    rw [printLine_screen, if_neg hi, hqueues, if_neg fun h => hi h.symm]
  have hafter : ScreenOp.afterAll ops start = (printLine 5 5 0 w).2 := by
    show (print 5 (fun _ => 5) w).2 = _
    rw [print_run, printLines, List.foldl_cons, List.foldl_cons,
      List.foldl_cons, List.foldl_cons, List.foldl_nil,
      printLine_empty (hothers 1 (by decide)),
      printLine_empty (hothers 2 (by decide)),
      printLine_empty (hothers 3 (by decide))]
  have hleft : ((lcdOf (ScreenOp.afterAll ops start)).row 2).head? =
      some 0x41 := by
    rw [hafter, lcdOf_printLine, hqueues, if_pos rfl, printQueue, if_pos rfl,
      List.foldl_cons, List.foldl_cons, List.foldl_nil, Event.play,
      runScript_printLCD printableText_overlong, toList_truncated_overlong]
    exact Lcd.row_overlong 0 (by decide) 'A' _
  refine ⟨hleft, ?_⟩
  intro h
  have hnone : shownNow 2 (ScreenOp.afterAll ops start) = none := by
    have hline := printLine_lineLog 5 5 2 0 w
    rw [if_neg (by decide), List.append_nil] at hline
    rw [hafter, shownNow, hline]
    rfl
  have hrow := h ops (List.prefix_refl ops) 2
  rw [hrow, hnone] at hleft
  exact absurd hleft (by decide)

end Rows

end BeeGadz
