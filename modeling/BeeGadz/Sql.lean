import BeeGadz.Foundation.Literal
import BeeGadz.Settlement

/-!
# Requests as text

The statements that are sent to the databases, and how their string literals are
read back.  Names are put between double quotes as they are.
-/

namespace BeeGadz

open Foundation

/-!
## The texts
-/

/-- The characters in which a number is printed by `operator<<`, those of `inf`
and `nan` among them. -/
def isNumeric (ch : Char) : Bool :=
  ch.isDigit || ['.', '+', '-', 'e', 'i', 'n', 'f', 'a'].contains ch

structure NumberText where
  text : String
  numeric : text.toList.all isNumeric = true

def insertWords : String :=
  "INSERT INTO history (pianss, command, price) VALUES ("

/-- What `sendHistory` builds. -/
def historyText (pianss command : String) (price : NumberText) : String :=
  insertWords ++
    ("\"" ++ pianss ++ "\", \"" ++ command ++ "\", " ++ price.text ++ ");")

def updateWords : String :=
  "UPDATE SOS SET sos=1 WHERE pianss="

/-- What `sendSOS` builds. -/
def sosText (pianss : String) : String :=
  updateWords ++ ("\"" ++ pianss ++ "\";")

/-- The text of a request, with the prices printed by `number`. -/
def Request.text (number : Rat -> NumberText) : Request -> String
  | .history row => historyText row.pianss row.command (number row.price)
  | .sos pianss => sosText pianss

/-!
## Reading them back
-/

/-- The three values of the statement that `sendHistory` is to send. -/
def readInsert (text : List Char) :
    Option (List Char × List Char × List Char) := do
  let text ← expect insertWords.toList text
  let (pianss, text) ← readLiteral '"' text
  let text ← expect [',', ' '] text
  let (command, text) ← readLiteral '"' text
  let text ← expect [',', ' '] text
  if text.dropWhile isNumeric = [')', ';'] then
    some (pianss, command, text.takeWhile isNumeric)
  else none

/-- The value that the statement `sendSOS` is to send compares with. -/
def readUpdate (text : List Char) : Option (List Char) := do
  let text ← expect updateWords.toList text
  let (pianss, text) ← readLiteral '"' text
  if text = [';'] then some pianss else none

theorem readInsert_eq_some {text pianss command price : List Char}
    (h : readInsert text = some (pianss, command, price)) :
    exists first second : List Char,
      text = insertWords.toList ++ '"' :: first ∧
      readBody '"' first = some (pianss, [',', ' ', '"'] ++ second) ∧
      readBody '"' second =
        some (command, [',', ' '] ++ price ++ [')', ';']) ∧
      price.all isNumeric = true := by
  simp only [readInsert, bind, Option.bind_eq_some_iff] at h
  rcases h with ⟨t₁, hhead, ⟨p, t₂⟩, hfirst, t₃, hcomma, ⟨c, t₄⟩, hsecond, t₅,
    hcomma', hend⟩
  rcases readLiteral_eq_some hfirst with ⟨first, rfl, hread⟩
  rcases readLiteral_eq_some hsecond with ⟨second, rfl, hread'⟩
  have hbetween : t₂ = [',', ' '] ++ '"' :: second :=
    expect_eq_some.mp hcomma
  have hbehind : t₄ = [',', ' '] ++ t₅ := expect_eq_some.mp hcomma'
  split at hend
  · rename_i hlast
    cases hend
    have hsplit := List.takeWhile_append_dropWhile (p := isNumeric) (l := t₅)
    rw [hlast] at hsplit
    refine ⟨first, second, expect_eq_some.mp hhead, ?_, ?_,
      List.all_takeWhile⟩
    · rw [hread, hbetween]
      rfl
    · rw [hread', hbehind, List.append_assoc, hsplit]
  · cases hend

/-!
## Plain names
-/

/-- A name that stands for itself between double quotes: it has no double quote,
and every backslash in it stands before `%` or `_`. -/
def PlainName (name : String) : Prop :=
  Plain '"' name.toList

instance (name : String) : Decidable (PlainName name) :=
  decidable_of_iff
    (readBody '"' (name.toList ++ '"' :: []) = some (name.toList, []))
    (readBody_iff_plain (by decide) _ _ (by simp))

theorem quote_not_mem {s : List Char} (h : Plain '"' s) : '"' ∉ s :=
  h.not_mem (by decide)

theorem quote_not_mem_numeric {s : List Char}
    (h : s.all isNumeric = true) : '"' ∉ s := by
  intro hmem
  have hquote := List.all_eq_true.mp h '"' hmem
  have hnot : isNumeric '"' = false := by simp [isNumeric, Char.isDigit]
  rw [hnot] at hquote
  cases hquote

/-- The text of `sendHistory` behind its opening words and its first quote. -/
def historyTail (pianss command price : List Char) : List Char :=
  pianss ++ '"' :: ([',', ' ', '"'] ++ (command ++ '"' ::
    ([',', ' '] ++ price ++ [')', ';'])))

theorem historyText_toList (pianss command : String) (price : NumberText) :
    (historyText pianss command price).toList =
      insertWords.toList ++
        '"' :: historyTail pianss.toList command.toList
          price.text.toList := by
  have hquote : "\"".toList = ['"'] := by decide
  have hcomma : "\", \"".toList = ['"', ',', ' ', '"'] := by decide
  have hcomma' : "\", ".toList = ['"', ',', ' '] := by decide
  have hend : ");".toList = [')', ';'] := by decide
  simp only [historyText, historyTail, String.toList_append, hquote, hcomma,
    hcomma', hend]
  simp

theorem quote_not_mem_end {price : List Char}
    (h : price.all isNumeric = true) :
    '"' ∉ [',', ' '] ++ price ++ [')', ';'] := by
  have hprice := quote_not_mem_numeric h
  simp [hprice]

/-- Values that the statement gives back are plain: their literals end at the
quotes that were put behind them. -/
theorem plain_of_readInsert {pianss command : String} {price : NumberText}
    {n : List Char}
    (h : readInsert (historyText pianss command price).toList =
      some (pianss.toList, command.toList, n)) :
    PlainName pianss ∧ PlainName command := by
  rcases readInsert_eq_some h with
    ⟨first, second, htext, hfirst, hsecond, hn⟩
  rw [historyText_toList, List.append_cancel_left_eq, List.cons.injEq]
    at htext
  have htail : historyTail pianss.toList command.toList
      price.text.toList = first := htext.right
  rcases (reads_of_readBody hfirst).closed with ⟨raw, hraw, hle, hsame⟩
  rcases (reads_of_readBody hsecond).closed with
    ⟨raw', hraw', hle', hsame'⟩
  -- both texts have the same last quote, so that the prices are the same
  have hboth : (pianss.toList ++ '"' :: ([',', ' ', '"'] ++
        command.toList)) ++ '"' :: ([',', ' '] ++ price.text.toList ++
          [')', ';']) =
      (raw ++ '"' :: ([',', ' ', '"'] ++ raw')) ++ '"' ::
        ([',', ' '] ++ n ++ [')', ';']) := by
    rw [hraw, hraw'] at htail
    simpa [historyTail] using htail
  rcases last_quote_inj (quote_not_mem_end price.numeric)
      (quote_not_mem_end hn) hboth with ⟨hvalues, _⟩
  have hlength := congrArg List.length hvalues
  simp only [List.length_append, List.length_cons, List.length_nil]
    at hlength
  exact ⟨(hsame (by omega)).right, (hsame' (by omega)).right⟩

theorem readInsert_of_plain {pianss command : String} (price : NumberText)
    (hpianss : PlainName pianss) (hcommand : PlainName command) :
    readInsert (historyText pianss command price).toList =
      some (pianss.toList, command.toList, price.text.toList) := by
  have hfirst := readBody_plain (by decide) (q := '"')
    ([',', ' ', '"'] ++ (command.toList ++ '"' ::
      ([',', ' '] ++ price.text.toList ++ [')', ';'])))
    (by simp) hpianss
  have hsecond := readBody_plain (by decide) (q := '"')
    ([',', ' '] ++ price.text.toList ++ [')', ';'])
    (by simp) hcommand
  have hnumeric := List.all_eq_true.mp price.numeric
  have htake : (price.text.toList ++ [')', ';']).takeWhile isNumeric =
      price.text.toList := by
    rw [List.takeWhile_append_of_pos hnumeric]
    simp [isNumeric]
  have hdrop : (price.text.toList ++ [')', ';']).dropWhile isNumeric =
      [')', ';'] := by
    rw [List.dropWhile_append_of_pos hnumeric]
    simp [isNumeric]
  rw [historyText_toList, readInsert, expect_append]
  simp only [bind, Option.bind_some, readLiteral_cons, historyTail, hfirst]
  have hcomma : expect [',', ' '] ([',', ' ', '"'] ++ (command.toList ++
      '"' :: ([',', ' '] ++ price.text.toList ++ [')', ';']))) =
      some ('"' :: (command.toList ++ '"' ::
        ([',', ' '] ++ price.text.toList ++ [')', ';']))) :=
    expect_append [',', ' '] _
  have hcomma' : expect [',', ' '] ([',', ' '] ++ price.text.toList ++
      [')', ';']) = some (price.text.toList ++ [')', ';']) := by
    rw [List.append_assoc]
    exact expect_append _ _
  rw [hcomma]
  simp only [Option.bind_some, readLiteral_cons, hsecond]
  rw [hcomma']
  simp only [Option.bind_some, hdrop, htake, if_true]

theorem readInsert_iff (pianss command : String) (price : NumberText) :
    (exists n, readInsert (historyText pianss command price).toList =
        some (pianss.toList, command.toList, n)) <->
      PlainName pianss ∧ PlainName command := by
  constructor
  · intro hall
    rcases hall with ⟨n, hread⟩
    exact plain_of_readInsert hread
  · intro hboth
    rcases hboth with ⟨hpianss, hcommand⟩
    exact ⟨_, readInsert_of_plain price hpianss hcommand⟩

theorem sosText_toList (pianss : String) :
    (sosText pianss).toList =
      updateWords.toList ++ '"' :: (pianss.toList ++ ['"', ';']) := by
  have hquote : "\"".toList = ['"'] := by decide
  have hend : "\";".toList = ['"', ';'] := by decide
  simp only [sosText, String.toList_append, hquote, hend]
  simp

theorem readUpdate_iff (pianss : String) :
    readUpdate (sosText pianss).toList = some pianss.toList <->
      PlainName pianss := by
  have hplain := readBody_iff_plain (q := '"') (by decide) pianss.toList [';']
    (by simp)
  rw [PlainName, ← hplain, sosText_toList, readUpdate, expect_append]
  simp only [bind, Option.bind_some, readLiteral_cons]
  constructor
  · intro h
    rcases Option.bind_eq_some_iff.mp h with ⟨⟨value, rest⟩, hread, hend⟩
    split at hend
    · rename_i hrest
      have hvalue : value = pianss.toList := Option.some.inj hend
      have hbehind : rest = [';'] := hrest
      rw [hread, hvalue, hbehind]
    · cases hend
  · intro h
    rw [h]
    rfl

theorem historyText_inj {pianss command pianss' command' : String}
    {price price' : NumberText} (hpianss : PlainName pianss)
    (hcommand : PlainName command)
    (h : historyText pianss' command' price' =
      historyText pianss command price) :
    pianss' = pianss ∧ command' = command := by
  have htext := congrArg String.toList h
  rw [historyText_toList, historyText_toList, List.append_cancel_left_eq,
    List.cons.injEq] at htext
  have hboth : forall p c n : List Char, historyTail p c n =
      (p ++ '"' :: ([',', ' ', '"'] ++ c)) ++ '"' ::
        ([',', ' '] ++ n ++ [')', ';']) := by
    intro p c n
    simp [historyTail]
  have htail := htext.right
  rw [hboth, hboth] at htail
  rcases last_quote_inj (quote_not_mem_end price'.numeric)
      (quote_not_mem_end price.numeric) htail with ⟨hvalues, _⟩
  -- both texts have as many quotes, so that the other values have none
  have hcount := congrArg (List.count '"') hvalues
  have hnone := List.count_eq_zero.mpr (quote_not_mem hpianss)
  have hnone' := List.count_eq_zero.mpr (quote_not_mem hcommand)
  have hquote : List.count '"' [',', ' ', '"'] = 1 := by decide
  simp only [List.count_append, List.count_cons_self, hquote, hnone, hnone']
    at hcount
  have hp : '"' ∉ pianss'.toList := List.count_eq_zero.mp (by omega)
  rcases append_quote_inj hp (quote_not_mem hpianss) hvalues with
    ⟨hleft, hright⟩
  rw [List.append_cancel_left_eq] at hright
  exact ⟨String.toList_inj.mp hleft, String.toList_inj.mp hright⟩

/-!
## Rows
-/

/-- The requests for a row give its values back: the text of the row is one
INSERT statement with them, the text of an SOS is one UPDATE statement with the
name of the place, and no other row has the same text. -/
structure Row.Faithful (number : Rat -> NumberText) (row : Row) : Prop where
  insert : exists n,
    readInsert ((Request.history row).text number).toList =
      some (row.pianss.toList, row.command.toList, n)
  update : readUpdate ((Request.sos row.pianss).text number).toList =
    some row.pianss.toList
  unique : forall (other : Row) (number' : Rat -> NumberText),
    (Request.history other).text number' =
        (Request.history row).text number ->
      other.pianss = row.pianss ∧ other.command = row.command

theorem Row.faithful_iff (number : Rat -> NumberText) (row : Row) :
    row.Faithful number <->
      PlainName row.pianss ∧ PlainName row.command := by
  constructor
  · intro h
    exact (readInsert_iff _ _ _).mp h.insert
  · intro hplain
    constructor
    · exact (readInsert_iff _ _ _).mpr hplain
    · exact (readUpdate_iff _).mpr hplain.left
    · intro other number' h
      exact historyText_inj hplain.left hplain.right h

section Commands

theorem plain_append {s t : List Char} (hs : Plain '"' s)
    (ht : Plain '"' t) : Plain '"' (s ++ t) := by
  induction hs with
  | nil => exact ht
  | ordinary hquote hback _ ih => exact .ordinary hquote hback ih
  | wildcard hch _ ih => exact .wildcard hch ih

theorem plain_append_left {s t : List Char}
    (hs : forall ch, ch ∈ s -> ch ≠ '"' ∧ ch ≠ '\\') :
    Plain '"' (s ++ t) <-> Plain '"' t := by
  induction s with
  | nil => rfl
  | cons ch s ih =>
      have hch := hs ch List.mem_cons_self
      have hrest := ih fun c hc => hs c (List.mem_cons_of_mem ch hc)
      constructor
      · intro h
        exact hrest.mp (h.tail hch.right)
      · intro h
        exact .ordinary hch.left hch.right (hrest.mpr h)

theorem plain_append_right {s t : List Char} (ht : Plain '"' t)
    (hhead : t.head? ≠ some '%' ∧ t.head? ≠ some '_') :
    Plain '"' (s ++ t) <-> Plain '"' s := by
  constructor
  · intro h
    induction s using List.twoStepInduction with
    | nil => exact .nil
    | singleton ch =>
        rw [List.singleton_append] at h
        cases h with
        | ordinary hquote hback _ => exact .ordinary hquote hback .nil
        | wildcard hch _ =>
            rename_i next rest
            rcases hch with rfl | rfl
            · exact absurd rfl hhead.left
            · exact absurd rfl hhead.right
    | cons_cons ch next s ih ih' =>
        cases h with
        | ordinary hquote hback htail =>
            exact .ordinary hquote hback (ih' next htail)
        | wildcard hch htail => exact .wildcard hch (ih htail)
  · intro h
    exact plain_append h ht

theorem plainName_ticket (name : String) :
    PlainName ("ticket " ++ name) <-> PlainName name := by
  rw [PlainName, String.toList_append]
  exact plain_append_left (ordinary_of_all (by decide))

theorem plainName_count (name : String) (n : Nat) :
    PlainName (name ++ " x" ++ toString n) <-> PlainName name := by
  have hdigits : forall ch, ch ∈ (toString n).toList ->
      ch ≠ '"' ∧ ch ≠ '\\' := by
    intro ch hch
    rw [Nat.toString_eq_ofList_toDigits, String.toList_ofList] at hch
    have hdigit := Nat.isDigit_of_mem_toDigits (by decide) (by decide) hch
    constructor
    · intro heq
      rw [heq] at hdigit
      exact absurd hdigit (by decide)
    · intro heq
      rw [heq] at hdigit
      exact absurd hdigit (by decide)
  have hnumber : Plain '"' (toString n).toList := by
    have hempty := plain_append_left (t := []) hdigits
    rw [List.append_nil] at hempty
    exact hempty.mpr .nil
  have hspace : " x".toList = [' ', 'x'] := by decide
  rw [PlainName, String.toList_append, String.toList_append,
    List.append_assoc, hspace]
  apply plain_append_right
  · exact .ordinary (by decide) (by decide)
      (.ordinary (by decide) (by decide) hnumber)
  · simp

end Commands

/-- The requests for a ticket and for a sale are faithful exactly when the name
of the place and the name of the conso are plain, and so are those with any
other command. -/
theorem rows_faithful_iff (β : Type) [FloatCell β] (cfg : Config)
    (conso : String × Rat) (number : Rat -> NumberText) :
    ((Bar.ticketRow cfg conso).Faithful number <->
      PlainName cfg.pianss ∧ PlainName conso.1) ∧
    (forall n, (Bar.saleRow β cfg conso n).Faithful number <->
      PlainName cfg.pianss ∧ PlainName conso.1) ∧
    forall row : Row, row.Faithful number <->
      PlainName row.pianss ∧ PlainName row.command := by
  refine ⟨?_, ?_, fun row => row.faithful_iff number⟩
  · rw [Row.faithful_iff, ← plainName_ticket conso.1]
    rfl
  · intro n
    rw [Row.faithful_iff, ← plainName_count conso.1 n]
    rfl

def zeroText : NumberText where
  text := "0"
  numeric := by decide

def namedRow (pianss command : String) : Row where
  kind := .ticket
  pianss := pianss
  command := command
  price := 0

/-- A quote in a name ends its literal: two different pairs have one text, and
an SOS is sent for every place.  A backslash at the end swallows the quote. -/
theorem rows_unfaithful :
    historyText "a\", \"b" "c" zeroText = historyText "a" "b\", \"c" zeroText ∧
      ¬ (namedRow "a\", \"b" "c").Faithful (fun _ => zeroText) ∧
      readUpdate (sosText "\" OR \"1").toList = none ∧
      ¬ (namedRow "a" "b\\").Faithful (fun _ => zeroText) := by
  have hquote : ¬ PlainName "a\", \"b" := by decide
  have hback : ¬ PlainName "b\\" := by decide
  refine ⟨?_, ?_, ?_, ?_⟩
  · have htail : historyTail "a\", \"b".toList "c".toList
          zeroText.text.toList =
        historyTail "a".toList "b\", \"c".toList zeroText.text.toList := by
      decide
    apply String.toList_inj.mp
    rw [historyText_toList, historyText_toList, htail]
  · intro h
    exact hquote ((Row.faithful_iff _ _).mp h).left
  · rw [sosText_toList, readUpdate, expect_append]
    decide
  · intro h
    exact hback ((Row.faithful_iff _ _).mp h).right

end BeeGadz
