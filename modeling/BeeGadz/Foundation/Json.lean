import Mathlib.Algebra.Order.Ring.Rat
import Mathlib.Data.List.Basic

/-!
# JSON texts

JSON documents, and what it means that a text begins with one.  A text is a list
of bytes, each written as the character with its number.  Blanks may stand
between any two tokens, and comments in most of these places.

`Reads phrase text rest` says that `text` is the phrase followed by `rest`.
-/

namespace BeeGadz
namespace Foundation

/-- A JSON document.  Numbers are told apart by how they are written, and the
members of an object may repeat a name. -/
inductive Json where
  | null
  | bool (b : Bool)
  /-- a number without a fraction and an exponent -/
  | integer (n : Int)
  /-- a number with one of them: its sign and its magnitude -/
  | decimal (negative : Bool) (x : Rat)
  | string (s : List Char)
  | array (elements : List Json)
  | object (members : List (List Char × Json))

namespace Json

/-!
## Between the tokens
-/

def isBlank (c : Char) : Bool :=
  c == ' ' || c == '\t' || c == '\r' || c == '\n'

def isNewline (c : Char) : Bool :=
  c == '\r' || c == '\n'

/-- The rest of a comment that ends at the first star with a slash behind it. -/
inductive Block : List Char -> List Char -> Prop where
  | close (rest : List Char) : Block ('*' :: '/' :: rest) rest
  | more {c : Char} {text rest : List Char}
      (inside : ¬ (c = '*' ∧ text.head? = some '/'))
      (h : Block text rest) : Block (c :: text) rest

/-- The rest of a comment that ends with its line, or with the text. -/
inductive Line : List Char -> List Char -> Prop where
  | stop : Line [] []
  | close {c : Char} (newline : isNewline c = true) (rest : List Char) :
      Line (c :: rest) rest
  | more {c : Char} {text rest : List Char} (inside : isNewline c = false)
      (h : Line text rest) : Line (c :: text) rest

inductive Blanks : List Char -> List Char -> Prop where
  | none (text : List Char) : Blanks text text
  | blank {c : Char} {text rest : List Char} (hc : isBlank c = true)
      (h : Blanks text rest) : Blanks (c :: text) rest

inductive Gap : List Char -> List Char -> Prop where
  | none (text : List Char) : Gap text text
  | blank {c : Char} {text rest : List Char} (hc : isBlank c = true)
      (h : Gap text rest) : Gap (c :: text) rest
  | block {text behind rest : List Char} (hblock : Block text behind)
      (h : Gap behind rest) : Gap ('/' :: '*' :: text) rest
  | line {text behind rest : List Char} (hline : Line text behind)
      (h : Gap behind rest) : Gap ('/' :: '/' :: text) rest

/-!
## Numbers
-/

def isNumeric (c : Char) : Bool :=
  c.isDigit || c == '.' || c == 'e' || c == 'E' || c == '+' || c == '-'

def Stops (text : List Char) : Prop :=
  forall c, text.head? = some c -> isNumeric c = false

theorem stops_cons {c : Char} (hc : isNumeric c = false) (rest : List Char) :
    Stops (c :: rest) := by
  intro d hd
  rw [← Option.some.inj hd]
  exact hc

def Digits (text : List Char) : Prop :=
  text ≠ [] ∧ forall c, c ∈ text -> c.isDigit = true

theorem digits_singleton {c : Char} (hc : c.isDigit = true) : Digits [c] :=
  ⟨List.cons_ne_nil c [], fun d hd => by rw [List.mem_singleton.mp hd, hc]⟩

def sign (negative : Bool) : List Char :=
  if negative then ['-'] else []

def signed {α : Type} [Neg α] (negative : Bool) (x : α) : α :=
  if negative then -x else x

/-- The exponent of a number: its mark, its sign and its digits. -/
structure Exponent where
  mark : Char
  sign : List Char
  digits : List Char
deriving DecidableEq

namespace Exponent

structure Wellformed (e : Exponent) : Prop where
  mark : e.mark = 'e' ∨ e.mark = 'E'
  sign : e.sign = [] ∨ e.sign = ['+'] ∨ e.sign = ['-']
  digits : Digits e.digits

def text (e : Exponent) : List Char :=
  e.mark :: (e.sign ++ e.digits)

def value (e : Exponent) : Int :=
  signed (e.sign == ['-']) (Nat.ofDigitChars 10 e.digits 0 : Int)

end Exponent

/-- The parts of a number with a fraction or an exponent. -/
structure Decimal where
  negative : Bool
  whole : List Char
  fraction : Option (List Char)
  exponent : Option Exponent

namespace Decimal

structure Wellformed (d : Decimal) : Prop where
  whole : Digits d.whole
  fraction : forall digits, d.fraction = some digits -> Digits digits
  exponent : forall e, d.exponent = some e -> e.Wellformed
  either : d.fraction ≠ none ∨ d.exponent ≠ none

def fractionText (fraction : Option (List Char)) : List Char :=
  match fraction with
  | none => []
  | some digits => '.' :: digits

def exponentText (exponent : Option Exponent) : List Char :=
  match exponent with
  | none => []
  | some e => e.text

def text (d : Decimal) : List Char :=
  sign d.negative ++
    (d.whole ++ (fractionText d.fraction ++ exponentText d.exponent))

def magnitudeOf (whole fraction : List Char) (exponent : Int) : Rat :=
  (Nat.ofDigitChars 10 (whole ++ fraction) 0 : Rat) *
    (10 : Rat) ^ (exponent - fraction.length)

def magnitude (d : Decimal) : Rat :=
  magnitudeOf d.whole (d.fraction.getD [])
    ((d.exponent.map Exponent.value).getD 0)

end Decimal

/-!
## Strings
-/

inductive Escape : Char -> Char -> Prop where
  | quote : Escape '"' '"'
  | slash : Escape '/' '/'
  | backslash : Escape '\\' '\\'
  | backspace : Escape 'b' '\x08'
  | formFeed : Escape 'f' '\x0c'
  | lineFeed : Escape 'n' '\n'
  | carriageReturn : Escape 'r' '\r'
  | tab : Escape 't' '\t'

def hexDigit (c : Char) : Option Nat :=
  if '0' ≤ c ∧ c ≤ '9' then some (c.toNat - '0'.toNat)
  else if 'a' ≤ c ∧ c ≤ 'f' then some (c.toNat - 'a'.toNat + 10)
  else if 'A' ≤ c ∧ c ≤ 'F' then some (c.toNat - 'A'.toNat + 10)
  else none

inductive Hex : List Char -> Nat -> Prop where
  | digits {a b c d : Char} {i j k l : Nat} (ha : hexDigit a = some i)
      (hb : hexDigit b = some j) (hc : hexDigit c = some k)
      (hd : hexDigit d = some l) :
      Hex [a, b, c, d] (((i * 16 + j) * 16 + k) * 16 + l)

def utf8 (c : Char) : List Char :=
  (String.utf8EncodeChar c).map fun byte => Char.ofNat byte.toNat

def highSurrogate (c : Char) : Nat :=
  0xd800 + (c.toNat - 0x10000) / 0x400

def lowSurrogate (c : Char) : Nat :=
  0xdc00 + (c.toNat - 0x10000) % 0x400

/-- `Body text s rest`: the inside of a string, which stands for `s`, and its
closing quote. -/
inductive Body : List Char -> List Char -> List Char -> Prop where
  | close (rest : List Char) : Body ('"' :: rest) [] rest
  | plain {c : Char} {text s rest : List Char} (hquote : c ≠ '"')
      (hbackslash : c ≠ '\\') (h : Body text s rest) :
      Body (c :: text) (c :: s) rest
  | escape {e c : Char} {text s rest : List Char} (he : Escape e c)
      (h : Body text s rest) : Body ('\\' :: e :: text) (c :: s) rest
  | unicode {digits text s rest : List Char} {c : Char}
      (hdigits : Hex digits c.toNat) (h : Body text s rest) :
      Body ('\\' :: 'u' :: (digits ++ text)) (utf8 c ++ s) rest
  | surrogates {first second text s rest : List Char} {c : Char}
      (hc : 0x10000 ≤ c.toNat) (hfirst : Hex first (highSurrogate c))
      (hsecond : Hex second (lowSurrogate c)) (h : Body text s rest) :
      Body ('\\' :: 'u' :: (first ++ '\\' :: 'u' :: (second ++ text)))
        (utf8 c ++ s) rest

/-!
## Documents
-/

/-- A value, or what stands between the brackets of an array or of an object,
with the closing bracket. -/
inductive Phrase where
  | value (j : Json)
  | elements (js : List Json)
  | members (ms : List (List Char × Json))

inductive Reads : Phrase -> List Char -> List Char -> Prop where
  | null (rest : List Char) :
      Reads (.value .null) ('n' :: 'u' :: 'l' :: 'l' :: rest) rest
  | isTrue (rest : List Char) :
      Reads (.value (.bool true)) ('t' :: 'r' :: 'u' :: 'e' :: rest) rest
  | isFalse (rest : List Char) :
      Reads (.value (.bool false)) ('f' :: 'a' :: 'l' :: 's' :: 'e' :: rest)
        rest
  | integer {digits rest : List Char} (negative : Bool)
      (hdigits : Digits digits) (hrest : Stops rest) :
      Reads
        (.value (.integer (signed negative (Nat.ofDigitChars 10 digits 0))))
        (sign negative ++ (digits ++ rest)) rest
  | decimal {d : Decimal} {rest : List Char} (hd : d.Wellformed)
      (hrest : Stops rest) :
      Reads (.value (.decimal d.negative d.magnitude)) (d.text ++ rest) rest
  | string {text s rest : List Char} (h : Body text s rest) :
      Reads (.value (.string s)) ('"' :: text) rest
  | emptyArray {text rest : List Char} (h : Blanks text (']' :: rest)) :
      Reads (.value (.array [])) ('[' :: text) rest
  | array {text rest : List Char} {js : List Json}
      (h : Reads (.elements js) text rest) :
      Reads (.value (.array js)) ('[' :: text) rest
  | emptyObject {text rest : List Char} (h : Gap text ('}' :: rest)) :
      Reads (.value (.object [])) ('{' :: text) rest
  | object {text rest : List Char} {ms : List (List Char × Json)}
      (h : Reads (.members ms) text rest) :
      Reads (.value (.object ms)) ('{' :: text) rest
  | lastElement {text first behind rest : List Char} {j : Json}
      (before : Gap text first) (h : Reads (.value j) first behind)
      (after : Gap behind (']' :: rest)) : Reads (.elements [j]) text rest
  | element {text first behind next rest : List Char} {j : Json}
      {js : List Json} (before : Gap text first)
      (h : Reads (.value j) first behind) (after : Gap behind (',' :: next))
      (hrest : Reads (.elements js) next rest) :
      Reads (.elements (j :: js)) text rest
  | lastMember {text name colon value first behind rest s : List Char}
      {j : Json} (before : Gap text ('"' :: name)) (hname : Body name s colon)
      (hcolon : Blanks colon (':' :: value)) (between : Gap value first)
      (h : Reads (.value j) first behind)
      (after : Gap behind ('}' :: rest)) : Reads (.members [(s, j)]) text rest
  | member {text name colon value first behind next rest s : List Char}
      {j : Json} {ms : List (List Char × Json)}
      (before : Gap text ('"' :: name)) (hname : Body name s colon)
      (hcolon : Blanks colon (':' :: value)) (between : Gap value first)
      (h : Reads (.value j) first behind) (after : Gap behind (',' :: next))
      (hrest : Reads (.members ms) next rest) :
      Reads (.members ((s, j) :: ms)) text rest

def Text (text : List Char) (j : Json) : Prop :=
  exists first behind,
    Gap text first ∧ Reads (.value j) first behind ∧ Gap behind []

/-!
## What is left

What is behind a phrase is the end of the text.
-/

theorem Block.suffix {text rest : List Char} (h : Block text rest) :
    rest <:+ text := by
  induction h with
  | close rest => exact ⟨['*', '/'], rfl⟩
  | more inside h ih => exact ih.trans (List.suffix_cons _ _)

theorem Line.suffix {text rest : List Char} (h : Line text rest) :
    rest <:+ text := by
  induction h with
  | stop => exact List.suffix_refl []
  | close newline rest => exact List.suffix_cons _ _
  | more inside h ih => exact ih.trans (List.suffix_cons _ _)

theorem Blanks.suffix {text rest : List Char} (h : Blanks text rest) :
    rest <:+ text := by
  induction h with
  | none text => exact List.suffix_refl text
  | blank hc h ih => exact ih.trans (List.suffix_cons _ _)

theorem Gap.suffix {text rest : List Char} (h : Gap text rest) :
    rest <:+ text := by
  have hmark (text : List Char) (c d : Char) : text <:+ c :: d :: text :=
    (List.suffix_cons d text).trans (List.suffix_cons c _)
  induction h with
  | none text => exact List.suffix_refl text
  | blank hc h ih => exact ih.trans (List.suffix_cons _ _)
  | block hblock h ih => exact (ih.trans hblock.suffix).trans (hmark _ _ _)
  | line hline h ih => exact (ih.trans hline.suffix).trans (hmark _ _ _)

theorem Body.suffix {text s rest : List Char} (h : Body text s rest) :
    rest <:+ text := by
  induction h with
  | close rest => exact List.suffix_cons _ _
  | plain hquote hbackslash h ih => exact ih.trans (List.suffix_cons _ _)
  | escape he h ih =>
      exact (ih.trans (List.suffix_cons _ _)).trans (List.suffix_cons _ _)
  | unicode hdigits h ih =>
      exact ((ih.trans (List.suffix_append _ _)).trans
        (List.suffix_cons _ _)).trans (List.suffix_cons _ _)
  | surrogates hc hfirst hsecond h ih =>
      rename_i first second text s rest c
      apply ih.trans
      refine ⟨'\\' :: 'u' :: (first ++ '\\' :: 'u' :: second), ?_⟩
      simp only [List.cons_append, List.append_assoc]

theorem Reads.suffix {phrase : Phrase} {text rest : List Char}
    (h : Reads phrase text rest) : rest <:+ text := by
  induction h with
  | null rest => exact ⟨"null".toList, rfl⟩
  | isTrue rest => exact ⟨"true".toList, rfl⟩
  | isFalse rest => exact ⟨"false".toList, rfl⟩
  | integer negative hdigits hrest =>
      exact (List.suffix_append _ _).trans (List.suffix_append _ _)
  | decimal hd hrest => exact List.suffix_append _ _
  | string h => exact h.suffix.trans (List.suffix_cons _ _)
  | emptyArray h =>
      exact ((List.suffix_cons _ _).trans h.suffix).trans
        (List.suffix_cons _ _)
  | array h ih => exact ih.trans (List.suffix_cons _ _)
  | emptyObject h =>
      exact ((List.suffix_cons _ _).trans h.suffix).trans
        (List.suffix_cons _ _)
  | object h ih => exact ih.trans (List.suffix_cons _ _)
  | lastElement before h after ih =>
      exact (((List.suffix_cons _ _).trans after.suffix).trans ih).trans
        before.suffix
  | element before h after hrest ih ihrest =>
      exact (((ihrest.trans (List.suffix_cons _ _)).trans after.suffix).trans
        ih).trans before.suffix
  | lastMember before hname hcolon between h after ih =>
      have hvalue := ((List.suffix_cons _ _).trans after.suffix).trans ih
      have hbehind := (hvalue.trans between.suffix).trans
        ((List.suffix_cons _ _).trans hcolon.suffix)
      exact ((hbehind.trans hname.suffix).trans (List.suffix_cons _ _)).trans
        before.suffix
  | member before hname hcolon between h after hrest ih ihrest =>
      have hvalue := ((ihrest.trans (List.suffix_cons _ _)).trans
        after.suffix).trans ih
      have hbehind := (hvalue.trans between.suffix).trans
        ((List.suffix_cons _ _).trans hcolon.suffix)
      exact ((hbehind.trans hname.suffix).trans (List.suffix_cons _ _)).trans
        before.suffix

end Json

end Foundation
end BeeGadz
