import Mathlib.Data.List.DropRight
import BeeGadz.JsonCpp.Numbers
import BeeGadz.JsonCpp.Strings

/-!
# Every document is read

A JSON document is read without an error, and what is read is the value that it
stands for.
-/

namespace BeeGadz
namespace JsonCpp

open Foundation

/-!
## The value of a document
-/

mutual

/-- What a document stands for.  A decimal is the nearest `double`, texts end at a
zero, and the last member of a name counts. -/
def Value.ofJson : Json -> Value
  | .null => .null
  | .bool b => .bool b
  | .integer n => Value.ofInteger n
  | .decimal negative x => .real (Double.nearest negative x)
  | .string s => .string (cString s)
  | .array js => .array (ofElements js)
  | .object ms => .object (Sorted.ofList (ofMembers ms))

def Value.ofElements : List Json -> List Value
  | [] => []
  | j :: js => ofJson j :: ofElements js

def Value.ofMembers : List (Text × Json) -> List (Text × Value)
  | [] => []
  | (name, j) :: ms => (cString name, ofJson j) :: ofMembers ms

end

namespace Reader

/-!
## Between the tokens
-/

theorem readCStyleComment_block {text rest : Text} (h : Json.Block text rest) :
    readCStyleComment text = (true, rest) := by
  induction h with
  | close rest => rfl
  | more inside h ih =>
      rename_i c text rest
      have hnot : ¬ (c = '*' ∧ peek text = '/') := by
        rintro ⟨hstar, hslash⟩
        apply inside
        refine ⟨hstar, ?_⟩
        cases text with
        | nil => cases h
        | cons d text => exact congrArg some hslash
      rw [readCStyleComment, if_neg hnot, ih]

theorem readCppStyleComment_line {text rest : Text} (h : Json.Line text rest) :
    readCppStyleComment text = rest := by
  induction h with
  | stop => rfl
  | close newline rest => rw [readCppStyleComment, if_pos newline]
  | more inside h ih =>
      rw [readCppStyleComment, inside, if_neg Bool.false_ne_true, ih]

theorem readToken_blank {c : Char} (hc : Json.isBlank c = true)
    (text : Text) : readToken (c :: text) = readToken text := by
  have hspaces : skipSpaces (c :: text) = skipSpaces text :=
    List.dropWhile_cons_of_pos hc
  unfold readToken
  rw [hspaces]

theorem readToken_blanks {text rest : Text} (h : Json.Blanks text rest) :
    readToken text = readToken rest := by
  induction h with
  | none text => rfl
  | blank hc h ih => rw [readToken_blank hc, ih]

theorem readToken_block {text rest : Text} (h : Json.Block text rest) :
    (readToken ('/' :: '*' :: text)).1.type = .comment ∧
      (readToken ('/' :: '*' :: text)).2 = rest := by
  have hread := readCStyleComment_block h
  constructor
  · show (if (readCStyleComment text).1 then TokenType.comment else .error) =
      .comment
    rw [hread, if_pos rfl]
  · show (readCStyleComment text).2 = rest
    rw [hread]

theorem readToken_line {text rest : Text} (h : Json.Line text rest) :
    (readToken ('/' :: '/' :: text)).1.type = .comment ∧
      (readToken ('/' :: '/' :: text)).2 = rest :=
  ⟨rfl, readCppStyleComment_line h⟩

theorem readToken_gap {text first : Text} (h : Json.Gap text first) :
    readToken text = readToken first ∨
      (readToken text).1.type = .comment ∧
        Json.Gap (readToken text).2 first := by
  induction h with
  | none text => exact Or.inl rfl
  | blank hc h ih =>
      rw [readToken_blank hc]
      exact ih
  | block hblock h ih =>
      rcases readToken_block hblock with ⟨hcomment, hbehind⟩
      rw [hbehind]
      exact Or.inr ⟨hcomment, h⟩
  | line hline h ih =>
      rcases readToken_line hline with ⟨hcomment, hbehind⟩
      rw [hbehind]
      exact Or.inr ⟨hcomment, h⟩

theorem skipComments_gap {n : Nat} {text first : Text}
    (h : Json.Gap text first)
    (hfirst : (readToken first).1.type ≠ .comment) (hn : text.length ≤ n) :
    skipComments n text = readToken first := by
  induction n generalizing text with
  | zero =>
      have hnil : text = [] :=
        List.eq_nil_of_length_eq_zero (Nat.le_zero.mp hn)
      rw [hnil] at h ⊢
      cases h with
      | none => rfl
  | succ n ih =>
      rw [skipComments]
      cases readToken_gap h with
      | inl hequal =>
          rw [hequal, if_neg hfirst]
      | inr hcomment =>
          rcases hcomment with ⟨htype, hbehind⟩
          rw [if_pos htype]
          apply ih hbehind
          have hlength : (readToken text).2.length < text.length :=
            readToken_length (by rw [htype]; decide)
          omega

theorem skipSpaces_blanks {text rest : Text} (h : Json.Blanks text rest) :
    skipSpaces text = skipSpaces rest := by
  induction h with
  | none text => rfl
  | blank hc h ih => rw [skipSpaces, List.dropWhile_cons_of_pos hc]; exact ih

theorem gap_skipSpaces {text first : Text}
    (hfirst : skipSpaces first = first) (h : Json.Gap text first) :
    Json.Gap (skipSpaces text) first := by
  induction h with
  | none text =>
      rw [hfirst]
      exact Json.Gap.none text
  | blank hc h ih =>
      rw [skipSpaces, List.dropWhile_cons_of_pos hc]
      exact ih hfirst
  | block hblock h ih => exact Json.Gap.block hblock h
  | line hline h ih => exact Json.Gap.line hline h

theorem gap_of_skipSpaces {text first : Text}
    (h : Json.Gap (skipSpaces text) first) : Json.Gap text first := by
  induction text with
  | nil => exact h
  | cons c text ih =>
      by_cases hc : Json.isBlank c = true
      · rw [skipSpaces, List.dropWhile_cons_of_pos hc] at h
        exact Json.Gap.blank hc (ih h)
      · rwa [skipSpaces, List.dropWhile_cons_of_neg hc] at h

/-- A gap in front of something that is no bracket does not begin with one. -/
theorem peek_gap {text first : Text} (hfirst : skipSpaces first = first)
    (hbracket : peek first ≠ ']') (h : Json.Gap text first) :
    peek (skipSpaces text) ≠ ']' := by
  induction h with
  | none text => rwa [hfirst]
  | blank hc h ih =>
      rw [skipSpaces, List.dropWhile_cons_of_pos hc]
      exact ih hfirst hbracket
  | block hblock h ih => exact (by decide : '/' ≠ ']')
  | line hline h ih => exact (by decide : '/' ≠ ']')

/-!
## Values
-/

structure Begins (first : Text) : Prop where
  spaces : skipSpaces first = first
  bracket : peek first ≠ ']'
  comment : (readToken first).1.type ≠ .comment

/-- What the reader makes of a value, and of what stands between the brackets of
an array or of an object. -/
def Read : Json.Phrase -> Text -> Text -> Prop
  | .value j, first, behind =>
      Begins first ∧
      forall (fuel : Nat) (errors : List ErrorInfo),
        3 * first.length + 1 ≤ fuel ->
          readValue fuel ⟨first, errors⟩ =
            (.ok (Value.ofJson j), ⟨behind, errors⟩)
  | .elements js, text, rest =>
      peek (skipSpaces text) ≠ ']' ∧
      forall (fuel : Nat) (start : Text) (elements : List Value)
        (errors : List ErrorInfo), skipSpaces start = skipSpaces text ->
          3 * start.length + 2 ≤ fuel ->
            readElements fuel elements ⟨start, errors⟩ =
              (.ok (.array (elements ++ Value.ofElements js)), ⟨rest, errors⟩)
  | .members ms, text, rest =>
      forall (fuel : Nat) (name : Text) (members : Members)
        (errors : List ErrorInfo), 3 * text.length + 2 ≤ fuel ->
          readObject fuel name members ⟨text, errors⟩ =
            (.ok (.object ((Value.ofMembers ms).foldl
              (fun m x => Sorted.insert x.1 x.2 m) members)),
              ⟨rest, errors⟩)

theorem skipCommentTokens_gap {start first : Text}
    (h : Json.Gap start first)
    (hfirst : (readToken first).1.type ≠ .comment)
    (errors : List ErrorInfo) :
    skipCommentTokens ⟨start, errors⟩ =
      (.ok (readToken first).1, ⟨(readToken first).2, errors⟩) := by
  show (Except.ok (skipComments start.length start).1,
    Reader.mk (skipComments start.length start).2 errors) = _
  rw [skipComments_gap h hfirst (le_refl _)]

theorem read_of_token (type : TokenType) {j : Json} {first behind : Text}
    (hspaces : skipSpaces first = first) (hbracket : peek first ≠ ']')
    (htype : (readToken first).1.type = type) (hcomment : type ≠ .comment)
    (hread : forall (fuel : Nat) (errors : List ErrorInfo),
      3 * first.length ≤ fuel ->
        skipCommentTokens ⟨first, errors⟩ =
          (.ok (readToken first).1, ⟨(readToken first).2, errors⟩) ->
        readValue (fuel + 1) ⟨first, errors⟩ =
          (.ok (Value.ofJson j), ⟨behind, errors⟩)) :
    Read (.value j) first behind := by
  have hne : (readToken first).1.type ≠ .comment := by rwa [htype]
  refine ⟨⟨hspaces, hbracket, hne⟩, ?_⟩
  intro fuel errors hfuel
  cases fuel with
  | zero => omega
  | succ fuel =>
      exact hread fuel errors (Nat.le_of_succ_le_succ hfuel)
        (skipCommentTokens_gap (Json.Gap.none first) hne errors)

theorem read_number {text rest : Text} {j : Json}
    (hfront : exists c front, text = c :: front ∧
      (c.isDigit = true ∨ c = '-') ∧
      forall d, d ∈ front -> Json.isNumeric d = true)
    (hrest : Json.Stops rest)
    (hdecode : forall (start : Text) (s : Reader),
      decodeNumber ⟨.number, start, text⟩ s = (.ok (Value.ofJson j), s)) :
    Read (.value j) (text ++ rest) rest := by
  rcases hfront with ⟨c, front, htext, hc, hnumeric⟩
  have htoken := readToken_number hc hnumeric hrest
  rw [← List.cons_append, ← htext] at htoken
  have hstart := readToken_start (text ++ rest)
  have htype : (readToken (text ++ rest)).1.type = .number := by
    rw [htoken]
  rw [htoken] at hstart
  apply read_of_token .number hstart.symm ?_ htype (by decide)
  · intro fuel errors _ hrun
    unfold readValue
    rw [Prog.bind_of_ok _ hrun, htoken]
    exact hdecode _ _
  · rw [htext]
    show c ≠ ']'
    cases hc with
    | inl hdigit => exact isDigit_ne hdigit rfl
    | inr heq =>
        rw [heq]
        decide

theorem read_string {text s rest : Text} (h : Json.Body text s rest) :
    Read (.value (.string s)) ('"' :: text) rest := by
  rcases readToken_body h with ⟨htype, hrest, hdecode⟩
  apply read_of_token .string rfl (by show '"' ≠ ']'; decide) htype (by decide)
  intro fuel errors _ hrun
  unfold readValue
  rw [Prog.bind_of_ok _ hrun, htype, hrest]
  exact Prog.bind_of_ok _ (hdecode _)

theorem read_null (rest : Text) :
    Read (.value .null) ('n' :: 'u' :: 'l' :: 'l' :: rest) rest := by
  apply read_of_token .null rfl (by show 'n' ≠ ']'; decide) rfl
    (by decide)
  intro fuel errors _ hrun
  unfold readValue
  rw [Prog.bind_of_ok _ hrun]
  rfl

theorem read_true (rest : Text) :
    Read (.value (.bool true)) ('t' :: 'r' :: 'u' :: 'e' :: rest) rest := by
  apply read_of_token .isTrue rfl (by show 't' ≠ ']'; decide) rfl
    (by decide)
  intro fuel errors _ hrun
  unfold readValue
  rw [Prog.bind_of_ok _ hrun]
  rfl

theorem read_false (rest : Text) :
    Read (.value (.bool false)) ('f' :: 'a' :: 'l' :: 's' :: 'e' :: rest)
      rest := by
  apply read_of_token .isFalse rfl (by show 'f' ≠ ']'; decide) rfl
    (by decide)
  intro fuel errors _ hrun
  unfold readValue
  rw [Prog.bind_of_ok _ hrun]
  rfl

/-!
### Arrays
-/

theorem readArray_run (fuel : Nat) (text : Text) (errors : List ErrorInfo) :
    readArray (fuel + 1) ⟨text, errors⟩ =
      if peek (skipSpaces text) = ']' then
        (.ok (.array []), ⟨(readToken (skipSpaces text)).2, errors⟩)
      else readElements fuel [] ⟨skipSpaces text, errors⟩ := by
  unfold readArray
  show (if peek (skipSpaces text) = ']' then _ else _ : ReaderM Value)
    ⟨skipSpaces text, errors⟩ = _
  split
  · rfl
  · rfl

theorem read_array {text rest : Text} {js : List Json}
    (h : forall (fuel : Nat) (errors : List ErrorInfo),
      3 * text.length + 3 ≤ fuel ->
        readArray fuel ⟨text, errors⟩ =
          (.ok (.array (Value.ofElements js)), ⟨rest, errors⟩)) :
    Read (.value (.array js)) ('[' :: text) rest := by
  apply read_of_token .arrayBegin rfl (by show '[' ≠ ']'; decide)
    rfl (by decide)
  intro fuel errors hfuel hrun
  unfold readValue
  rw [Prog.bind_of_ok _ hrun]
  exact h fuel errors (by rw [List.length_cons] at hfuel; omega)

theorem read_emptyArray {text rest : Text}
    (h : Json.Blanks text (']' :: rest)) :
    Read (.value (.array [])) ('[' :: text) rest := by
  have hspaces : skipSpaces text = ']' :: rest := skipSpaces_blanks h
  apply read_array
  intro fuel errors hfuel
  cases fuel with
  | zero => omega
  | succ fuel =>
      have hbracket : peek (']' :: rest) = ']' := rfl
      rw [readArray_run, hspaces, if_pos hbracket]
      rfl

theorem Read.array {text rest : Text} {js : List Json}
    (h : Read (.elements js) text rest) :
    Read (.value (.array js)) ('[' :: text) rest := by
  rcases h with ⟨hbracket, hread⟩
  apply read_array
  intro fuel errors hfuel
  cases fuel with
  | zero => omega
  | succ fuel =>
      have hspaces : skipSpaces (skipSpaces text) = skipSpaces text :=
        List.dropWhile_idempotent _ text
      have hlength := (skipSpaces_suffix text).length_le
      rw [readArray_run, if_neg hbracket,
        hread fuel (skipSpaces text) [] errors hspaces (by omega)]
      rfl

theorem Read.gap {j : Json} {start first behind : Text}
    (h : Read (.value j) first behind) (hgap : Json.Gap start first)
    {fuel : Nat} (errors : List ErrorInfo)
    (hfuel : 3 * start.length + 1 ≤ fuel) :
    readValue fuel ⟨start, errors⟩ =
      (.ok (Value.ofJson j), ⟨behind, errors⟩) := by
  rcases h with ⟨hbegins, hread⟩
  have hlength := hgap.suffix.length_le
  rw [← hread fuel errors (by omega)]
  cases fuel with
  | zero => omega
  | succ fuel =>
      unfold readValue
      rw [Prog.bind_of_ok _ (skipCommentTokens_gap hgap hbegins.comment
        errors), Prog.bind_of_ok _ (skipCommentTokens_gap
        (Json.Gap.none first) hbegins.comment errors)]

theorem readElements_run {j : Json} {start text first behind next : Text}
    {c : Char} {token : Token} (h : Read (.value j) first behind)
    (hspaces : skipSpaces start = skipSpaces text)
    (hbefore : Json.Gap text first) (hafter : Json.Gap behind (c :: next))
    (htoken : readToken (c :: next) = (token, next))
    (htype : token.type ≠ .comment) {fuel : Nat} (elements : List Value)
    (errors : List ErrorInfo) (hfuel : 3 * start.length + 1 ≤ fuel) :
    readElements (fuel + 1) elements ⟨start, errors⟩ =
      (if token.type ≠ .arraySeparator ∧ token.type ≠ .arrayEnd then
        addErrorAndRecover "Missing ',' or ']' in array declaration" token
          .arrayEnd
      else if token.type = .arrayEnd then
        pure (.array (elements ++ [Value.ofJson j]))
      else readElements fuel (elements ++ [Value.ofJson j]) :
        ReaderM Value) ⟨next, errors⟩ := by
  have hgap : Json.Gap start first := by
    apply gap_of_skipSpaces
    rw [hspaces]
    exact gap_skipSpaces h.left.spaces hbefore
  have hvalue : orRecover (readValue fuel) .arrayEnd ⟨start, errors⟩ =
      (.ok (Value.ofJson j), ⟨behind, errors⟩) := by
    unfold orRecover
    rw [Prog.catching_of_ok _ (h.gap hgap errors hfuel)]
  have hbehind := skipCommentTokens_gap hafter (by rwa [htoken]) errors
  rw [htoken] at hbehind
  rw [readElements, Prog.bind_of_ok _ hvalue, Prog.bind_of_ok _ hbehind]

theorem Read.lastElement {text first behind rest : Text} {j : Json}
    (hbefore : Json.Gap text first) (h : Read (.value j) first behind)
    (hafter : Json.Gap behind (']' :: rest)) :
    Read (.elements [j]) text rest := by
  refine ⟨peek_gap h.left.spaces h.left.bracket hbefore, ?_⟩
  intro fuel start elements errors hspaces hfuel
  cases fuel with
  | zero => omega
  | succ fuel =>
      have htype : TokenType.arrayEnd ≠ .comment := by decide
      rw [readElements_run h hspaces hbefore hafter rfl htype elements errors
        (by omega)]
      rfl

theorem Read.element {text first behind next rest : Text} {j : Json}
    {js : List Json} (hbefore : Json.Gap text first)
    (h : Read (.value j) first behind)
    (hafter : Json.Gap behind (',' :: next))
    (hrest : Read (.elements js) next rest)
    (hlength : behind.length ≤ first.length) :
    Read (.elements (j :: js)) text rest := by
  refine ⟨peek_gap h.left.spaces h.left.bracket hbefore, ?_⟩
  intro fuel start elements errors hspaces hfuel
  cases fuel with
  | zero => omega
  | succ fuel =>
      have hgap : Json.Gap start first := by
        apply gap_of_skipSpaces
        rw [hspaces]
        exact gap_skipSpaces h.left.spaces hbefore
      have hstart := hgap.suffix.length_le
      have hnext := hafter.suffix.length_le
      rw [List.length_cons] at hnext
      have htype : TokenType.arraySeparator ≠ .comment := by decide
      rw [readElements_run h hspaces hbefore hafter rfl htype elements errors
        (by omega)]
      show readElements fuel (elements ++ [Value.ofJson j]) ⟨next, errors⟩ = _
      rw [hrest.right fuel next _ errors rfl (by omega), List.append_assoc]
      rfl

/-!
### Objects
-/

theorem readComma_run {behind next : Text} {c : Char} {type : TokenType}
    {p : ReaderM Value} {f : Token -> ReaderM Value}
    (hafter : Json.Gap behind (c :: next))
    (htype : (readToken (c :: next)).1.type = type)
    (hnext : (readToken (c :: next)).2 = next)
    (hkind : type = .objectEnd ∨ type = .arraySeparator)
    (errors : List ErrorInfo) :
    (do
      let comma ← Reader.next readToken
      if comma.type ≠ .objectEnd ∧ comma.type ≠ .arraySeparator ∧
          comma.type ≠ .comment then p
      else do
        let comma ←
          if comma.type = .comment then skipCommentTokens else pure comma
        f comma : ReaderM Value) ⟨behind, errors⟩ =
      f (readToken (c :: next)).1 ⟨next, errors⟩ := by
  have hne : (readToken (c :: next)).1.type ≠ .comment := by
    rw [htype]
    rcases hkind with heq | heq
    · rw [heq]; decide
    · rw [heq]; decide
  have hrun : Reader.next readToken ⟨behind, errors⟩ =
      (.ok (readToken behind).1, ⟨(readToken behind).2, errors⟩) := rfl
  rw [Prog.bind_of_ok _ hrun]
  cases readToken_gap hafter with
  | inl hequal =>
      have hknown : ¬ ((readToken (c :: next)).1.type ≠ .objectEnd ∧
          (readToken (c :: next)).1.type ≠ .arraySeparator ∧
          (readToken (c :: next)).1.type ≠ .comment) := by
        rw [htype]
        rcases hkind with heq | heq
        · exact fun hall => hall.left heq
        · exact fun hall => hall.right.left heq
      rw [hequal, if_neg hknown, if_neg hne, hnext]
      rfl
  | inr hcomment =>
      rcases hcomment with ⟨hcomment, hgap⟩
      have hknown : ¬ ((readToken behind).1.type ≠ .objectEnd ∧
          (readToken behind).1.type ≠ .arraySeparator ∧
          (readToken behind).1.type ≠ .comment) :=
        fun hall => hall.right.right hcomment
      have hskip := skipCommentTokens_gap hgap hne errors
      rw [if_neg hknown, if_pos hcomment, Prog.bind_of_ok _ hskip, hnext]

theorem readObject_run {j : Json}
    {text name colon value first behind following s : Text}
    {c : Char} {type : TokenType} (h : Read (.value j) first behind)
    (hbefore : Json.Gap text ('"' :: name)) (hname : Json.Body name s colon)
    (hcolon : Json.Blanks colon (':' :: value))
    (hbetween : Json.Gap value first)
    (hafter : Json.Gap behind (c :: following))
    (hcomma : (readToken (c :: following)).1.type = type)
    (hfollowing : (readToken (c :: following)).2 = following)
    (hkind : type = .objectEnd ∨ type = .arraySeparator) {fuel : Nat}
    (lastName : Text) (members : Members) (errors : List ErrorInfo)
    (hfuel : 3 * text.length + 1 ≤ fuel) :
    readObject (fuel + 1) lastName members ⟨text, errors⟩ =
      (if type = .objectEnd then
        pure (.object (Sorted.insert (cString s) (Value.ofJson j) members))
      else
        readObject fuel s
          (Sorted.insert (cString s) (Value.ofJson j) members) :
        ReaderM Value) ⟨following, errors⟩ := by
  rcases readToken_body hname with ⟨htype, hrest, hdecode⟩
  have hbehind := skipCommentTokens_gap hbefore (by rw [htype]; decide) errors
  rw [hrest] at hbehind
  have hdecoded : orRecover (decodeString (readToken ('"' :: name)).1)
      .objectEnd ⟨colon, errors⟩ = (.ok s, ⟨colon, errors⟩) := by
    unfold orRecover
    rw [Prog.catching_of_ok _ (hdecode _)]
  have hnext : next readToken ⟨colon, errors⟩ =
      (.ok (readToken (':' :: value)).1, ⟨value, errors⟩) := by
    unfold next
    rw [readToken_blanks hcolon]
    rfl
  have hlength : value.length ≤ text.length := by
    have hone := hbefore.suffix.length_le
    have htwo := hname.suffix.length_le
    have hthree := hcolon.suffix.length_le
    rw [List.length_cons] at hone hthree
    omega
  have hvalue : orRecover (readValue fuel) .objectEnd ⟨value, errors⟩ =
      (.ok (Value.ofJson j), ⟨behind, errors⟩) := by
    unfold orRecover
    rw [Prog.catching_of_ok _ (h.gap hbetween errors (by omega))]
  have hend : ¬ ((readToken ('"' :: name)).1.type = .objectEnd ∧
      lastName = []) := by
    rw [htype]
    rintro ⟨hobject, -⟩
    cases hobject
  have hmember : ¬ (readToken (':' :: value)).1.type ≠ .memberSeparator :=
    fun hne => hne rfl
  rw [readObject, Prog.bind_of_ok _ hbehind, if_neg hend, if_pos htype,
    Prog.bind_of_ok _ hdecoded, Prog.bind_of_ok _ hnext, if_neg hmember,
    Prog.bind_of_ok _ hvalue, ← hcomma]
  exact readComma_run hafter hcomma hfollowing hkind errors (f := fun comma =>
    if comma.type = .objectEnd then
      pure (.object (Sorted.insert (cString s) (Value.ofJson j) members))
    else
      readObject fuel s (Sorted.insert (cString s) (Value.ofJson j) members))

theorem Read.lastMember {text name colon value first behind rest s : Text}
    {j : Json} (hbefore : Json.Gap text ('"' :: name))
    (hname : Json.Body name s colon)
    (hcolon : Json.Blanks colon (':' :: value))
    (hbetween : Json.Gap value first) (h : Read (.value j) first behind)
    (hafter : Json.Gap behind ('}' :: rest)) :
    Read (.members [(s, j)]) text rest := by
  intro fuel lastName members errors hfuel
  cases fuel with
  | zero => omega
  | succ fuel =>
      rw [readObject_run h hbefore hname hcolon hbetween hafter rfl rfl
        (Or.inl rfl) lastName members errors (by omega)]
      rfl

theorem Read.member {text name colon value first behind next rest s : Text}
    {j : Json} {ms : List (Text × Json)}
    (hbefore : Json.Gap text ('"' :: name)) (hname : Json.Body name s colon)
    (hcolon : Json.Blanks colon (':' :: value))
    (hbetween : Json.Gap value first) (h : Read (.value j) first behind)
    (hafter : Json.Gap behind (',' :: next))
    (hrest : Read (.members ms) next rest)
    (hlength : behind.length ≤ first.length) :
    Read (.members ((s, j) :: ms)) text rest := by
  intro fuel lastName members errors hfuel
  cases fuel with
  | zero => omega
  | succ fuel =>
      have hnext : next.length < text.length := by
        have hone := hbefore.suffix.length_le
        have htwo := hname.suffix.length_le
        have hthree := hcolon.suffix.length_le
        have hfour := hbetween.suffix.length_le
        have hfive := hafter.suffix.length_le
        rw [List.length_cons] at hone hthree hfive
        omega
      rw [readObject_run h hbefore hname hcolon hbetween hafter rfl rfl
        (Or.inr rfl) lastName members errors (by omega)]
      show readObject fuel s
        (Sorted.insert (cString s) (Value.ofJson j) members)
        ⟨next, errors⟩ = _
      rw [hrest fuel s _ errors (by omega)]
      rfl

theorem read_object {text rest : Text} {ms : List (Text × Json)}
    (h : forall (fuel : Nat) (errors : List ErrorInfo),
      3 * text.length + 2 ≤ fuel ->
        readObject fuel [] [] ⟨text, errors⟩ =
          (.ok (.object (Sorted.ofList (Value.ofMembers ms))),
            ⟨rest, errors⟩)) :
    Read (.value (.object ms)) ('{' :: text) rest := by
  apply read_of_token .objectBegin rfl (by show '{' ≠ ']'; decide)
    rfl (by decide)
  intro fuel errors hfuel hrun
  unfold readValue
  rw [Prog.bind_of_ok _ hrun]
  exact h fuel errors (by rw [List.length_cons] at hfuel; omega)

theorem read_emptyObject {text rest : Text}
    (h : Json.Gap text ('}' :: rest)) :
    Read (.value (.object [])) ('{' :: text) rest := by
  apply read_object
  intro fuel errors hfuel
  cases fuel with
  | zero => omega
  | succ fuel =>
      have htype : (readToken ('}' :: rest)).1.type = .objectEnd := rfl
      have hend : (readToken ('}' :: rest)).1.type = .objectEnd ∧
          ([] : Text) = [] := ⟨rfl, rfl⟩
      rw [readObject, Prog.bind_of_ok _ (skipCommentTokens_gap h
        (by rw [htype]; decide) errors), if_pos hend]
      rfl

/-!
## Documents
-/

theorem number_front (negative : Bool) {whole rest : Text}
    (hwhole : Json.Digits whole)
    (hrest : forall c, c ∈ rest -> Json.isNumeric c = true) :
    exists c front, Json.sign negative ++ (whole ++ rest) = c :: front ∧
      (c.isDigit = true ∨ c = '-') ∧
      forall d, d ∈ front -> Json.isNumeric d = true := by
  have hall : forall c, c ∈ whole ++ rest -> Json.isNumeric c = true := by
    intro c hc
    cases List.mem_append.mp hc with
    | inl hdigit => exact isNumeric_of_isDigit (hwhole.right c hdigit)
    | inr hmem => exact hrest c hmem
  cases negative with
  | true => exact ⟨'-', whole ++ rest, rfl, Or.inr rfl, hall⟩
  | false =>
      cases whole with
      | nil => exact absurd rfl hwhole.left
      | cons c whole =>
          exact ⟨c, whole ++ rest, rfl,
            Or.inl (hwhole.right c List.mem_cons_self),
            fun d hd => hall d (List.mem_cons_of_mem c hd)⟩

theorem decimal_numeric {d : Json.Decimal} (h : d.Wellformed) (c : Char)
    (hc : c ∈ Json.Decimal.fractionText d.fraction ++
      Json.Decimal.exponentText d.exponent) : Json.isNumeric c = true := by
  cases List.mem_append.mp hc with
  | inl hfraction =>
      cases hdigits : d.fraction with
      | none =>
          rw [hdigits] at hfraction
          cases hfraction
      | some digits =>
          rw [hdigits] at hfraction
          cases List.mem_cons.mp hfraction with
          | inl hpoint => rw [hpoint]; rfl
          | inr hmem =>
              exact isNumeric_of_isDigit
                ((h.fraction digits hdigits).right c hmem)
  | inr hexponent =>
      cases he : d.exponent with
      | none =>
          rw [he] at hexponent
          cases hexponent
      | some e =>
          rw [he] at hexponent
          rcases h.exponent e he with ⟨hmark, hsign, hdigits⟩
          cases List.mem_cons.mp hexponent with
          | inl heq =>
              rw [heq]
              cases hmark with
              | inl hmark => rw [hmark]; rfl
              | inr hmark => rw [hmark]; rfl
          | inr hmem =>
              cases List.mem_append.mp hmem with
              | inr hdigit => exact isNumeric_of_isDigit (hdigits.right c hdigit)
              | inl hmem =>
                  rcases hsign with hsign | hsign | hsign
                  · rw [hsign] at hmem
                    cases hmem
                  · rw [hsign] at hmem
                    rw [List.mem_singleton.mp hmem]
                    rfl
                  · rw [hsign] at hmem
                    rw [List.mem_singleton.mp hmem]
                    rfl

theorem read_integer {digits rest : Text} (negative : Bool)
    (hdigits : Json.Digits digits) (hrest : Json.Stops rest) :
    Read (.value (.integer
        (Json.signed negative (Nat.ofDigitChars 10 digits 0))))
      (Json.sign negative ++ (digits ++ rest)) rest := by
  have hfront := @number_front negative digits [] hdigits
    (fun _ hc => by cases hc)
  rw [List.append_nil] at hfront
  rw [← List.append_assoc]
  exact read_number hfront hrest
    (fun start s => decodeNumber_integer negative hdigits start s)

theorem read_decimal {d : Json.Decimal} {rest : Text} (h : d.Wellformed)
    (hrest : Json.Stops rest) :
    Read (.value (.decimal d.negative d.magnitude)) (d.text ++ rest) rest :=
  read_number (number_front d.negative h.whole (decimal_numeric h)) hrest
    (fun start s => decodeNumber_decimal h start s)

theorem read_of_reads {phrase : Json.Phrase} {text rest : Text}
    (h : Json.Reads phrase text rest) : Read phrase text rest := by
  induction h with
  | null rest => exact read_null rest
  | isTrue rest => exact read_true rest
  | isFalse rest => exact read_false rest
  | integer negative hdigits hrest => exact read_integer negative hdigits hrest
  | decimal hd hrest => exact read_decimal hd hrest
  | string h => exact read_string h
  | emptyArray h => exact read_emptyArray h
  | array h ih => exact ih.array
  | emptyObject h => exact read_emptyObject h
  | object h ih =>
      exact read_object fun fuel errors hfuel => ih fuel [] [] errors hfuel
  | lastElement before h after ih => exact Read.lastElement before ih after
  | element before h after hrest ih ihrest =>
      exact Read.element before ih after ihrest h.suffix.length_le
  | lastMember before hname hcolon between h after ih =>
      exact Read.lastMember before hname hcolon between ih after
  | member before hname hcolon between h after hrest ih ihrest =>
      exact Read.member before hname hcolon between ih after ihrest
        h.suffix.length_le

/-- What is behind the value is not looked at, but for comments. -/
theorem parse_of_reads {document first behind : Text} {j : Json}
    (hbefore : Json.Gap document first)
    (h : Json.Reads (.value j) first behind) :
    parse document =
      (.ok (Value.ofJson j), (skipCommentTokens ⟨behind, []⟩).2) := by
  have hrun := (read_of_reads h).gap hbefore []
    (le_refl (3 * document.length + 1))
  unfold parse
  rw [hrun]

/-- Every JSON document is read without an error, as the value it stands for. -/
theorem parse_json {document : Text} {j : Json}
    (h : Json.Text document j) :
    (parse document).1 = .ok (Value.ofJson j) ∧
      (parse document).2.errors = [] := by
  rcases h with ⟨first, behind, hbefore, hreads, -⟩
  rw [parse_of_reads hbefore hreads]
  exact ⟨rfl, rfl⟩

theorem parse_json_pair :
    (parse ['[', '1', ',', '/', '*', '*', '/', 'n', 'u', 'l', 'l', ']']).1 =
        .ok (Value.ofJson (.array [.integer 1, .null])) ∧
      (parse ['[', '1', ',', '/', '*', '*', '/', 'n', 'u', 'l', 'l',
        ']']).2.errors = [] := by
  have hdigit : Json.Digits ['1'] := Json.digits_singleton rfl
  have hone : Json.Reads (.value (.integer 1)) ['1', ',', '/', '*', '*', '/',
      'n', 'u', 'l', 'l', ']'] [',', '/', '*', '*', '/', 'n', 'u', 'l', 'l',
      ']'] :=
    Json.Reads.integer false hdigit (Json.stops_cons rfl _)
  have hcomment : Json.Gap ['/', '*', '*', '/', 'n', 'u', 'l', 'l', ']']
      ['n', 'u', 'l', 'l', ']'] :=
    Json.Gap.block (Json.Block.close _) (Json.Gap.none _)
  exact parse_json ⟨_, _, Json.Gap.none _,
    Json.Reads.array (Json.Reads.element (Json.Gap.none _) hone
      (Json.Gap.none _) (Json.Reads.lastElement hcomment
        (Json.Reads.null _) (Json.Gap.none _))), Json.Gap.none []⟩

end Reader

/-!
## Documents that stand for the same value
-/

/-- Documents that differ in the order of members only.  Members are told apart
by their names up to a zero. -/
inductive SameDocument : Json -> Json -> Prop where
  | refl (j : Json) : SameDocument j j
  | trans {j k l : Json} (h : SameDocument j k) (h' : SameDocument k l) :
      SameDocument j l
  | element {front back : List Json} {j k : Json} (h : SameDocument j k) :
      SameDocument (.array (front ++ j :: back)) (.array (front ++ k :: back))
  | member {front back : List (Text × Json)} {name : Text} {j k : Json}
      (h : SameDocument j k) :
      SameDocument (.object (front ++ (name, j) :: back))
        (.object (front ++ (name, k) :: back))
  | order {ms ms' : List (Text × Json)} (h : ms.Perm ms')
      (hnames : (ms.map fun m => cString m.1).Nodup) :
      SameDocument (.object ms) (.object ms')

theorem ofElements_append (front back : List Json) :
    Value.ofElements (front ++ back) =
      Value.ofElements front ++ Value.ofElements back := by
  induction front with
  | nil => rfl
  | cons j front ih =>
      rw [List.cons_append, Value.ofElements, Value.ofElements, ih]
      rfl

theorem ofMembers_eq_map (ms : List (Text × Json)) :
    Value.ofMembers ms =
      ms.map fun m => (cString m.1, Value.ofJson m.2) := by
  induction ms with
  | nil => rfl
  | cons m ms ih =>
      rcases m with ⟨name, j⟩
      rw [Value.ofMembers, ih]
      rfl

theorem ofJson_same {j k : Json} (h : SameDocument j k) :
    Value.ofJson j = Value.ofJson k := by
  induction h with
  | refl j => rfl
  | trans h h' ih ih' => rw [ih, ih']
  | element h ih =>
      rename_i front back j k
      show Value.array (Value.ofElements _) = Value.array (Value.ofElements _)
      rw [ofElements_append, ofElements_append, Value.ofElements,
        Value.ofElements, ih]
  | member h ih =>
      rename_i front back name j k
      show Value.object (Sorted.ofList (Value.ofMembers _)) =
        Value.object (Sorted.ofList (Value.ofMembers _))
      rw [ofMembers_eq_map, ofMembers_eq_map, List.map_append,
        List.map_append, List.map_cons, List.map_cons]
      simp only [ih]
  | order h hnames =>
      rename_i ms ms'
      have hkeys : ((Value.ofMembers ms).map Prod.fst).Nodup := by
        rw [ofMembers_eq_map, List.map_map]
        exact hnames
      have hperm : (Value.ofMembers ms).Perm (Value.ofMembers ms') := by
        rw [ofMembers_eq_map, ofMembers_eq_map]
        exact h.map _
      show Value.object (Sorted.ofList (Value.ofMembers ms)) =
        Value.object (Sorted.ofList (Value.ofMembers ms'))
      rw [Sorted.ofList_perm hperm hkeys]

end JsonCpp
end BeeGadz
