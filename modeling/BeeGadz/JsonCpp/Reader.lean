import BeeGadz.JsonCpp.Value

/-!
# The JSON reader

`Json::Reader` with the features of `Features::all()`.  The document is what is
left of it at `current_`: a location is the text from there on, and the end is
the empty text, where the memory holds a zero.

A function that returns false fails here, and keeps what it read.  The value that
a function builds at the top of `nodes_` is its result, so that what is left of a
value after a failure is not kept: nothing looks at it.
-/

namespace BeeGadz
namespace JsonCpp

open Foundation

inductive TokenType where
  | endOfStream
  | objectBegin
  | objectEnd
  | arrayBegin
  | arrayEnd
  | string
  | number
  | isTrue
  | isFalse
  | null
  | arraySeparator
  | memberSeparator
  | comment
  | error
deriving DecidableEq

/-- A token: the text from `start_` on, and the part of it up to `end_`. -/
structure Token where
  type : TokenType
  start : Text
  text : Text

structure ErrorInfo where
  token : Token
  message : Text
  extra : Option Text

structure Reader where
  current : Text
  errors : List ErrorInfo

abbrev ReaderM : Type -> Type :=
  Prog Reader Unit

namespace Reader

/-!
## Tokens
-/

/-- `*current`. -/
def peek (text : Text) : Char :=
  text.headD '\x00'

/-- `getNextChar`, which stays at the end. -/
def getNextChar (text : Text) : Char × Text :=
  (peek text, text.tail)

def skipSpaces (text : Text) : Text :=
  text.dropWhile Json.isBlank

/-- `match`: what is behind the pattern. -/
def «match» (pattern text : Text) : Bool × Text :=
  if pattern.isPrefixOf text then (true, text.drop pattern.length)
  else (false, text)

/-- `readCStyleComment`: its loop, and the slash that is expected then. -/
def readCStyleComment : Text -> Bool × Text
  | [] => (false, [])
  | c :: text =>
      if c = '*' ∧ peek text = '/' then (true, text.tail)
      else readCStyleComment text

def readCppStyleComment : Text -> Text
  | [] => []
  | c :: text => if Json.isNewline c then text else readCppStyleComment text

def readComment (text : Text) : Bool × Text :=
  let c := getNextChar text
  if c.1 = '*' then readCStyleComment c.2
  else if c.1 = '/' then (true, readCppStyleComment c.2)
  else (false, c.2)

def readNumber (text : Text) : Text :=
  text.dropWhile Json.isNumeric

/-- `readString`: whether the closing quote was found. -/
def readString : Text -> Bool × Text
  | [] => (false, [])
  | '"' :: text => (true, text)
  | '\\' :: [] => (false, [])
  | '\\' :: _ :: text => readString text
  | _ :: text => readString text

def scan (c : Char) (text : Text) : TokenType × Text :=
  let ok (type : TokenType) (r : Bool × Text) : TokenType × Text :=
    (if r.1 then type else .error, r.2)
  match c with
  | '{' => (.objectBegin, text)
  | '}' => (.objectEnd, text)
  | '[' => (.arrayBegin, text)
  | ']' => (.arrayEnd, text)
  | '"' => ok .string (readString text)
  | '/' => ok .comment (readComment text)
  | 't' => ok .isTrue («match» "rue".toList text)
  | 'f' => ok .isFalse («match» "alse".toList text)
  | 'n' => ok .null («match» "ull".toList text)
  | ',' => (.arraySeparator, text)
  | ':' => (.memberSeparator, text)
  | '\x00' => (.endOfStream, text)
  | c =>
      if c.isDigit || c == '-' then (.number, readNumber text)
      else (.error, text)

/-- What stands in `text` before `rest`. -/
def before (text rest : Text) : Text :=
  text.take (text.length - rest.length)

/-- `readToken`, which always returns true. -/
def readToken (text : Text) : Token × Text :=
  let start := skipSpaces text
  let c := getNextChar start
  let r := scan c.1 c.2
  ({ type := r.1, start := start, text := before start r.2 }, r.2)

def skipComments : Nat -> Text -> Token × Text
  | 0, text => readToken text
  | more + 1, text =>
      let r := readToken text
      if r.1.type = .comment then skipComments more r.2 else r

/-- The loop of `recoverFromError`. -/
def skipUntil (type : TokenType) : Nat -> Text -> Text
  | 0, text => text
  | more + 1, text =>
      let r := readToken text
      if r.1.type = type ∨ r.1.type = .endOfStream then r.2
      else skipUntil type more r.2

def next (read : Text -> Token × Text) : ReaderM Token := fun s =>
  (.ok (read s.current).1, { s with current := (read s.current).2 })

/-- `skipCommentTokens`: every comment has a character. -/
def skipCommentTokens : ReaderM Token :=
  next fun text => skipComments text.length text

/-!
## Errors
-/

def addError {α : Type} (message : Text) (token : Token)
    (extra : Option Text) : ReaderM α := fun s =>
  (.error (), { s with errors := s.errors ++ [⟨token, message, extra⟩] })

def recoverFromError {α : Type} (skipUntilToken : TokenType) : ReaderM α :=
  fun s =>
    (.error (),
      { s with
        current := skipUntil skipUntilToken (s.current.length + 1) s.current })

def addErrorAndRecover {α : Type} (message : String) (token : Token)
    (skipUntilToken : TokenType) : ReaderM α :=
  (addError message.toList token none).catching fun _ =>
    recoverFromError skipUntilToken

/-- `if (!ok) return recoverFromError(…)`. -/
def orRecover {α : Type} (p : ReaderM α) (skipUntilToken : TokenType) :
    ReaderM α :=
  p.catching fun _ => recoverFromError skipUntilToken

/-!
## Numbers
-/

def maxLargestUInt : Nat :=
  2 ^ 64 - 1

/-- `Value::LargestUInt(-Value::minLargestInt)`. -/
def maxNegative : Nat :=
  2 ^ 63

/-- The outcome of the loop over the digits of an integer. -/
inductive Decoded where
  | value (n : Nat)
  | large
  | notNumber
deriving DecidableEq

def decodeDigits (maxIntegerValue : Nat) : Text -> Nat -> Decoded
  | [], value => .value value
  | c :: text, value =>
      if c < '0' ∨ c > '9' then .notNumber
      else
        let digit := c.toNat - '0'.toNat
        let threshold := maxIntegerValue / 10
        if value ≥ threshold ∧
            (value > threshold ∨ text ≠ [] ∨ digit > maxIntegerValue % 10)
        then .large
        else decodeDigits maxIntegerValue text (value * 10 + digit)

/-- The exponent that a text begins with.  A mark without digits counts for
nothing. -/
def scanExponent (text : Text) : Int :=
  match text with
  | [] => 0
  | mark :: text =>
      if mark = 'e' ∨ mark = 'E' then
        let negative := peek text == '-'
        let digits := (if negative ∨ peek text = '+' then text.tail else text)
          |>.takeWhile Char.isDigit
        Json.signed negative (Nat.ofDigitChars 10 digits 0 : Int)
      else 0

/-- `sscanf` with `"%lf"` on the characters of a number, as glibc reads it.  What
is behind the number does not matter. -/
def scanDouble (text : Text) : Option Double :=
  let negative := peek text == '-'
  let text := if negative ∨ peek text = '+' then text.tail else text
  let whole := text.takeWhile Char.isDigit
  let text := text.dropWhile Char.isDigit
  let fraction :=
    if peek text = '.' then text.tail.takeWhile Char.isDigit else []
  let text :=
    if peek text = '.' then text.tail.dropWhile Char.isDigit else text
  if whole ++ fraction = [] then none
  else
    some (Double.nearest negative
      (Json.Decimal.magnitudeOf whole fraction (scanExponent text)))

def notNumber (token : Token) : Text :=
  "'".toList ++ token.text ++ "' is not a number.".toList

def decodeDouble (token : Token) : ReaderM Value :=
  match scanDouble token.text with
  | some value => pure (.real value)
  | none => addError (notNumber token) token none

/-- The characters that make a number a `double`. -/
def isDouble (text : Text) : Bool :=
  text.any (fun c => c == '.' || c == 'e' || c == 'E' || c == '+') ||
    text.tail.any (fun c => c == '-')

def decodeNumber (token : Token) : ReaderM Value :=
  if isDouble token.text then decodeDouble token
  else
    let isNegative := peek token.text == '-'
    let digits := if isNegative then token.text.tail else token.text
    match decodeDigits (if isNegative then maxNegative else maxLargestUInt)
        digits 0 with
    | .notNumber => addError (notNumber token) token none
    | .large => decodeDouble token
    | .value value =>
        if isNegative then pure (.int (-value))
        else if value ≤ 2147483647 then pure (.int value)
        else pure (.uint value)

/-!
## Strings
-/

abbrev Problem : Type :=
  String × Text

/-- The loop of `decodeUnicodeEscapeSequence` over `n` more digits. -/
def decodeHex : Nat -> Nat -> Text -> Except Problem (Nat × Text)
  | 0, unicode, text => .ok (unicode, text)
  | n + 1, unicode, text =>
      match Json.hexDigit (peek text) with
      | some digit => decodeHex n (unicode * 16 + digit) text.tail
      | none =>
          .error
            ("Bad unicode escape sequence in string: hexadecimal digit " ++
              "expected.", text.tail)

def decodeUnicodeEscapeSequence (text : Text) : Except Problem (Nat × Text) :=
  if text.length < 4 then
    .error
      ("Bad unicode escape sequence in string: four digits expected.", text)
  else decodeHex 4 0 text

def decodeUnicodeCodePoint (text : Text) : Except Problem (Nat × Text) := do
  let (unicode, text) ← decodeUnicodeEscapeSequence text
  if 0xD800 ≤ unicode ∧ unicode ≤ 0xDBFF then
    if text.length < 6 then
      .error
        ("additional six characters expected to parse unicode surrogate pair.",
          text)
    else if peek text ≠ '\\' then
      .error
        ("expecting another \\u token to begin the second half of a unicode " ++
          "surrogate pair", text.tail)
    else if peek text.tail ≠ 'u' then
      .error
        ("expecting another \\u token to begin the second half of a unicode " ++
          "surrogate pair", text.tail.tail)
    else do
      let (surrogatePair, text) ← decodeUnicodeEscapeSequence text.tail.tail
      pure
        (0x10000 + ((unicode &&& 0x3FF) <<< 10) + (surrogatePair &&& 0x3FF),
          text)
  else pure (unicode, text)

def decodeEscape (escape : Char) (text : Text) : Except Problem (Text × Text) :=
  match escape with
  | '"' => .ok (['"'], text)
  | '/' => .ok (['/'], text)
  | '\\' => .ok (['\\'], text)
  | 'b' => .ok (['\x08'], text)
  | 'f' => .ok (['\x0c'], text)
  | 'n' => .ok (['\n'], text)
  | 'r' => .ok (['\r'], text)
  | 't' => .ok (['\t'], text)
  | 'u' => do
      let (unicode, text) ← decodeUnicodeCodePoint text
      pure (codePointToUTF8 unicode, text)
  | _ => .error ("Bad escape sequence in string", text)

/-- The loop of `decodeString`: every round takes a character. -/
def decodeChars : Nat -> Text -> Except Problem Text
  | 0, _ => .ok []
  | _ + 1, [] => .ok []
  | more + 1, c :: text =>
      if c = '"' then .ok []
      else if c = '\\' then
        match text with
        | [] => .error ("Empty escape sequence in string", [])
        | escape :: text => do
            let (decoded, text) ← decodeEscape escape text
            let rest ← decodeChars more text
            pure (decoded ++ rest)
      else do
        let rest ← decodeChars more text
        pure (c :: rest)

/-- `decodeString`: the token without its quotes.  A location inside of them is
one of the document. -/
def decodeString (token : Token) : ReaderM Text :=
  let inside := token.text.tail.dropLast
  let close := token.start.drop (inside.length + 1)
  match decodeChars inside.length inside with
  | .ok decoded => pure decoded
  | .error e => addError e.1.toList token (some (e.2 ++ close))

/-!
## Values
-/

mutual

/-- `readValue`. -/
def readValue : Nat -> ReaderM Value
  | 0 => Prog.throw ()
  | fuel + 1 => do
      let token ← skipCommentTokens
      match token.type with
      | .objectBegin => readObject fuel [] []
      | .arrayBegin => readArray fuel
      | .number => decodeNumber token
      | .string => do
          let decoded ← decodeString token
          pure (.string (cString decoded))
      | .isTrue => pure (.bool true)
      | .isFalse => pure (.bool false)
      | .null => pure .null
      | _ =>
          addError "Syntax error: value, object or array expected.".toList
            token none

/-- The loop of `readObject`: `name` is that of the last member. -/
def readObject : Nat -> Text -> Members -> ReaderM Value
  | 0, _, _ => Prog.throw ()
  | fuel + 1, name, members => do
      let tokenName ← skipCommentTokens
      if tokenName.type = .objectEnd ∧ name = [] then pure (.object members)
      else if tokenName.type = .string then do
        let name ← orRecover (decodeString tokenName) .objectEnd
        let colon ← next readToken
        if colon.type ≠ .memberSeparator then
          addErrorAndRecover "Missing ':' after object member name" colon
            .objectEnd
        else do
          let value ← orRecover (readValue fuel) .objectEnd
          let members := Sorted.insert (cString name) value members
          let comma ← next readToken
          if comma.type ≠ .objectEnd ∧ comma.type ≠ .arraySeparator ∧
              comma.type ≠ .comment then
            addErrorAndRecover "Missing ',' or '\x7d' in object declaration"
              comma .objectEnd
          else do
            let comma ←
              if comma.type = .comment then skipCommentTokens else pure comma
            if comma.type = .objectEnd then pure (.object members)
            else readObject fuel name members
      else
        addErrorAndRecover "Missing '\x7d' or object member name" tokenName
          .objectEnd

/-- `readArray`: an empty array is seen before the first value. -/
def readArray : Nat -> ReaderM Value
  | 0 => Prog.throw ()
  | fuel + 1 => do
      Prog.modify fun s => { s with current := skipSpaces s.current }
      let s ← Prog.get
      if peek s.current = ']' then do
        let _endArray ← next readToken
        pure (.array [])
      else readElements fuel []

/-- The loop of `readArray` after the elements that were read. -/
def readElements : Nat -> List Value -> ReaderM Value
  | 0, _ => Prog.throw ()
  | fuel + 1, elements => do
      let value ← orRecover (readValue fuel) .arrayEnd
      let token ← skipCommentTokens
      if token.type ≠ .arraySeparator ∧ token.type ≠ .arrayEnd then
        addErrorAndRecover "Missing ',' or ']' in array declaration" token
          .arrayEnd
      else if token.type = .arrayEnd then pure (.array (elements ++ [value]))
      else readElements fuel (elements ++ [value])

end

/-- `parse`, which succeeds when `readValue` does.  The comments behind the value
are read, and what is behind them is not looked at. -/
def parse (document : Text) : Except Unit Value × Reader :=
  let r := readValue (3 * document.length + 1) ⟨document, []⟩
  (r.1, (skipCommentTokens r.2).2)

/-- `parse` of a stream, which is read up to the character that `(char)EOF`
is. -/
def parseStream (file : Text) : Except Unit Value × Reader :=
  parse (file.takeWhile fun c => c != '\xff')

/-!
## Messages
-/

/-- The loop of `getLocationLineAndColumn` up to a location: the line, from 0 on,
and where the last one starts, which may be behind the location. -/
def lastLine (location : Text) : Text -> Nat -> Text -> Nat × Text
  | [], line, lastLineStart => (line, lastLineStart)
  | '\r' :: '\n' :: text, line, lastLineStart =>
      if text.length + 2 ≤ location.length then (line, lastLineStart)
      else lastLine location text (line + 1) text
  | c :: text, line, lastLineStart =>
      if text.length + 1 ≤ location.length then (line, lastLineStart)
      else if Json.isNewline c then lastLine location text (line + 1) text
      else lastLine location text line lastLineStart

/-- `getLocationLineAndColumn`. -/
def getLocationLineAndColumn (document location : Text) : Text :=
  let last := lastLine location document 0 document
  let column : Int := last.2.length - location.length + 1
  "Line ".toList ++ valueToString (last.1 + 1) ++ ", Column ".toList ++
    valueToString column

def formatError (document : Text) (error : ErrorInfo) : Text :=
  "* ".toList ++ getLocationLineAndColumn document error.token.start ++
    "\n  ".toList ++ error.message ++ "\n".toList ++
    match error.extra with
    | none => []
    | some extra =>
        "See ".toList ++ getLocationLineAndColumn document extra ++
          " for detail.\n".toList

def getFormattedErrorMessages (document : Text) (errors : List ErrorInfo) :
    Text :=
  errors.flatMap (formatError document)

end Reader

end JsonCpp
end BeeGadz
