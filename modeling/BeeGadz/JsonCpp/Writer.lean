import BeeGadz.JsonCpp.Completeness
import BeeGadz.JsonCpp.Wellformed

/-!
# The JSON writer

`Json::FastWriter` with its defaults.  What it writes is a JSON document, so that
the reader gets the value back.  A `double` is left out there: one that is whole is
written as an integer.
-/

namespace BeeGadz
namespace JsonCpp

open Foundation

/-!
## Writing
-/

/-- `isControlCharacter`. -/
def isControlCharacter (c : Char) : Bool :=
  0 < c.toNat && c.toNat ≤ 0x1F

/-- What a control character is written as behind `\u`: its number in four
hexadecimal digits. -/
def controlDigits (n : Nat) : Text :=
  List.leftpad 4 '0' ((Nat.toDigits 16 n).map Char.toUpper)

def quoteChar (c : Char) : Text :=
  match c with
  | '"' => ['\\', '"']
  | '\\' => ['\\', '\\']
  | '\x08' => ['\\', 'b']
  | '\x0c' => ['\\', 'f']
  | '\n' => ['\\', 'n']
  | '\r' => ['\\', 'r']
  | '\t' => ['\\', 't']
  | c =>
      if isControlCharacter c then '\\' :: 'u' :: controlDigits c.toNat else [c]

/-- The characters that `strpbrk` looks for. -/
def isQuoted (c : Char) : Bool :=
  c == '"' || c == '\\' || c == '\x08' || c == '\x0c' || c == '\n' ||
    c == '\r' || c == '\t'

/-- `valueToQuotedString`. -/
def valueToQuotedString (value : Text) : Text :=
  if value.any isQuoted = false ∧ value.any isControlCharacter = false then
    '"' :: (value ++ ['"'])
  else '"' :: (value.flatMap quoteChar ++ ['"'])

def separator (index : Nat) : Text :=
  if index > 0 then [','] else []

namespace FastWriter

mutual

/-- `writeValue`: `real` is `snprintf` with `"%.16g"`. -/
def writeValue (real : Double -> Text) : Value -> Text
  | .null => "null".toList
  | .int n => valueToString n
  | .uint n => valueToString n
  | .real x => real x
  | .string s => valueToQuotedString s
  | .bool b => if b then "true".toList else "false".toList
  | .array elements => '[' :: (writeElements real 0 elements ++ [']'])
  | .object members => '{' :: (writeMembers real 0 members ++ ['}'])

/-- The loop over the elements of an array, from number `index` on. -/
def writeElements (real : Double -> Text) : Nat -> List Value -> Text
  | _, [] => []
  | index, v :: elements =>
      separator index ++ (writeValue real v ++
        writeElements real (index + 1) elements)

def writeMembers (real : Double -> Text) : Nat -> List (Text × Value) -> Text
  | _, [] => []
  | index, (name, v) :: members =>
      separator index ++ (valueToQuotedString name ++
        ':' :: (writeValue real v ++ writeMembers real (index + 1) members))

end

def write (real : Double -> Text) (root : Value) : Text :=
  writeValue real root ++ ['\n']

end FastWriter

/-!
## Values without a `double`
-/

mutual

def Value.hasReal : Value -> Bool
  | .real _ => true
  | .array elements => anyReal elements
  | .object members => anyRealMember members
  | _ => false

def Value.anyReal : List Value -> Bool
  | [] => false
  | v :: elements => hasReal v || anyReal elements

def Value.anyRealMember : List (Text × Value) -> Bool
  | [] => false
  | (_, v) :: members => hasReal v || anyRealMember members

end

mutual

/-- The document that a value without a `double` is written as. -/
def Value.toJson : Value -> Json
  | .null => .null
  | .int n => .integer n
  | .uint n => .integer n
  | .real _ => .null
  | .string s => .string s
  | .bool b => .bool b
  | .array elements => .array (toElements elements)
  | .object members => .object (toMembers members)

def Value.toElements : List Value -> List Json
  | [] => []
  | v :: elements => toJson v :: toElements elements

def Value.toMembers : List (Text × Value) -> List (Text × Json)
  | [] => []
  | (name, v) :: members => (name, toJson v) :: toMembers members

end

theorem anyReal_false {elements : List Value}
    (h : Value.anyReal elements = false) (v : Value) (hv : v ∈ elements) :
    v.hasReal = false := by
  induction elements with
  | nil => cases hv
  | cons first elements ih =>
      rcases Bool.or_eq_false_iff.mp h with ⟨hfirst, hrest⟩
      cases List.mem_cons.mp hv with
      | inl heq => rwa [heq]
      | inr hmem => exact ih hrest hmem

theorem anyRealMember_false {members : Members}
    (h : Value.anyRealMember members = false) (m : Text × Value)
    (hm : m ∈ members) : m.2.hasReal = false := by
  induction members with
  | nil => cases hm
  | cons first members ih =>
      rcases Bool.or_eq_false_iff.mp h with ⟨hfirst, hrest⟩
      cases List.mem_cons.mp hm with
      | inl heq => rwa [heq]
      | inr hmem => exact ih hrest hmem

theorem ofList_of_ordered {members : Members}
    (h : Sorted.Ordered members) : Sorted.ofList members = members := by
  have hkeys : (members.map Prod.fst).Nodup := by
    apply List.Pairwise.map
    · exact fun x y hless => ne_of_lt hless
    · exact h
  apply Sorted.ordered_ext (Sorted.ordered_ofList members) h
  intro k
  rw [Sorted.find_ofList]
  exact (Sorted.find_perm (List.reverse_perm members).symm hkeys k).symm

theorem ofElements_toElements {elements : List Value}
    (h : forall v, v ∈ elements -> Value.ofJson v.toJson = v) :
    Value.ofElements (Value.toElements elements) = elements := by
  induction elements with
  | nil => rfl
  | cons v elements ih =>
      rw [Value.toElements, Value.ofElements, h v List.mem_cons_self,
        ih fun v hv => h v (List.mem_cons_of_mem _ hv)]

theorem ofMembers_toMembers {members : Members}
    (hnames : forall m, m ∈ members -> cString m.1 = m.1)
    (h : forall m, m ∈ members -> Value.ofJson m.2.toJson = m.2) :
    Value.ofMembers (Value.toMembers members) = members := by
  induction members with
  | nil => rfl
  | cons m members ih =>
      rcases m with ⟨name, v⟩
      rw [Value.toMembers, Value.ofMembers, h _ List.mem_cons_self,
        hnames _ List.mem_cons_self,
        ih (fun m hm => hnames m (List.mem_cons_of_mem _ hm))
          fun m hm => h m (List.mem_cons_of_mem _ hm)]

theorem ofJson_toJson {v : Value} (h : v.Wellformed)
    (hreal : v.hasReal = false) : Value.ofJson v.toJson = v := by
  induction h with
  | null => rfl
  | int hmin hmax =>
      rename_i n
      show Value.ofInteger n = .int n
      unfold Value.ofInteger
      split
      · rw [if_pos (by omega)]
      · rfl
  | uint hmin hmax =>
      rename_i n
      show Value.ofInteger (n : Int) = .uint n
      unfold Value.ofInteger
      rw [if_neg (by omega), if_neg (by omega), if_pos (by omega),
        Int.toNat_natCast]
  | real x => cases hreal
  | string h => exact congrArg Value.string h
  | bool b => rfl
  | array h ih =>
      have hall := anyReal_false hreal
      exact congrArg Value.array
        (ofElements_toElements fun v hv => ih v hv (hall v hv))
  | object hordered hnames hvalues ih =>
      have hall := anyRealMember_false hreal
      show Value.object (Sorted.ofList (Value.ofMembers _)) = _
      rw [ofMembers_toMembers hnames fun m hm => ih m hm (hall m hm),
        ofList_of_ordered hordered]

/-!
## What is written is a document
-/

theorem controlDigits_eq : forall n, n < 0x20 ->
    controlDigits n =
      ['0', '0', Nat.digitChar (n / 16), (Nat.digitChar (n % 16)).toUpper] := by
  decide

theorem hexDigit_toUpper : forall n, n < 16 ->
    Json.hexDigit (Nat.digitChar n).toUpper = some n := by
  decide

theorem hexDigit_decimal : forall n, n < 2 ->
    Json.hexDigit (Nat.digitChar n) = some n := by
  decide

theorem controlDigits_hex {n : Nat} (hn : n < 0x20) :
    Json.Hex (controlDigits n) n := by
  have hhigh := hexDigit_decimal (n / 16) (by omega)
  have hlow := hexDigit_toUpper (n % 16) (Nat.mod_lt n (by decide))
  have hzero : Json.hexDigit '0' = some 0 := rfl
  have hdigits := Json.Hex.digits hzero hzero hhigh hlow
  have hvalue : ((0 * 16 + 0) * 16 + n / 16) * 16 + n % 16 = n := by omega
  rw [hvalue, ← controlDigits_eq n hn] at hdigits
  exact hdigits

theorem quoteChar_plain {c : Char} (hquoted : isQuoted c = false)
    (hcontrol : isControlCharacter c = false) : quoteChar c = [c] := by
  unfold quoteChar
  split
  case h_8 => rw [hcontrol, if_neg Bool.false_ne_true]
  all_goals cases hquoted

theorem flatMap_quoteChar {value : Text} (hquoted : value.any isQuoted = false)
    (hcontrol : value.any isControlCharacter = false) :
    value.flatMap quoteChar = value := by
  induction value with
  | nil => rfl
  | cons c value ih =>
      rw [List.any_cons, Bool.or_eq_false_iff] at hquoted hcontrol
      rw [List.flatMap_cons, quoteChar_plain hquoted.left hcontrol.left,
        ih hquoted.right hcontrol.right]
      rfl

theorem valueToQuotedString_eq (value : Text) :
    valueToQuotedString value =
      '"' :: (value.flatMap quoteChar ++ ['"']) := by
  unfold valueToQuotedString
  split
  · rename_i h
    rw [flatMap_quoteChar h.left h.right]
  · rfl

theorem utf8_control {c : Char} (hc : isControlCharacter c = true) :
    Json.utf8 c = [c] := by
  have hle : c.toNat ≤ 0x7f := by
    have hmax := (Bool.and_eq_true_iff.mp hc).right
    have hle := of_decide_eq_true hmax
    omega
  rw [← codePointToUTF8_toNat, codePointToUTF8, if_pos hle,
    Char.ofNat_toNat]

theorem body_quoteChar {c : Char} {text s rest : Text} (hc : c ≠ '\x00')
    (h : Json.Body text s rest) :
    Json.Body (quoteChar c ++ text) (c :: s) rest := by
  unfold quoteChar
  split
  case h_1 => exact Json.Body.escape Json.Escape.quote h
  case h_2 => exact Json.Body.escape Json.Escape.backslash h
  case h_3 => exact Json.Body.escape Json.Escape.backspace h
  case h_4 => exact Json.Body.escape Json.Escape.formFeed h
  case h_5 => exact Json.Body.escape Json.Escape.lineFeed h
  case h_6 => exact Json.Body.escape Json.Escape.carriageReturn h
  case h_7 => exact Json.Body.escape Json.Escape.tab h
  case h_8 hquote hbackslash _ _ _ _ _ =>
    split
    · rename_i hcontrol
      have hn : c.toNat < 0x20 := by
        have hle := of_decide_eq_true (Bool.and_eq_true_iff.mp hcontrol).right
        omega
      have hunicode := Json.Body.unicode (controlDigits_hex hn) h
      rw [utf8_control hcontrol] at hunicode
      exact hunicode
    · exact Json.Body.plain hquote hbackslash h

theorem body_flatMap {value : Text} (hvalue : cString value = value)
    (rest : Text) :
    Json.Body (value.flatMap quoteChar ++ '"' :: rest) value rest := by
  have hzero : forall c, c ∈ value -> c ≠ '\x00' := by
    intro c hc
    rw [← hvalue] at hc
    exact bne_iff_ne.mp
      (List.mem_takeWhile_imp (p := fun c => c != '\x00') hc)
  clear hvalue
  induction value with
  | nil => exact Json.Body.close rest
  | cons c value ih =>
      rw [List.flatMap_cons, List.append_assoc]
      exact body_quoteChar (hzero c List.mem_cons_self)
        (ih fun d hd => hzero d (List.mem_cons_of_mem c hd))

theorem digits_toDigits (n : Nat) : Json.Digits (Nat.toDigits 10 n) :=
  ⟨Nat.toDigits_ne_nil, fun _ hc =>
    Nat.isDigit_of_mem_toDigits (by decide) (by decide) hc⟩

theorem reads_valueToString (n : Int) {rest : Text} (hrest : Json.Stops rest) :
    Json.Reads (.value (.integer n)) (valueToString n ++ rest) rest := by
  have hreads := Json.Reads.integer (decide (n < 0))
    (digits_toDigits n.natAbs) hrest
  have hvalue : Json.signed (decide (n < 0))
      (Nat.ofDigitChars 10 (Nat.toDigits 10 n.natAbs) 0 : Int) = n := by
    rw [Nat.ofDigitChars_ten_toDigits]
    unfold Json.signed
    by_cases hn : n < 0
    · rw [decide_eq_true hn, if_pos rfl]
      omega
    · rw [decide_eq_false hn, if_neg Bool.false_ne_true]
      omega
  rw [hvalue] at hreads
  unfold valueToString
  rw [List.append_assoc]
  exact hreads

namespace FastWriter

theorem separator_succ (index : Nat) : separator (index + 1) = [','] :=
  if_pos (Nat.succ_pos index)

/-- What is behind a value that was written is no part of it. -/
def Written (real : Double -> Text) (v : Value) : Prop :=
  forall rest, Json.Stops rest ->
    Json.Reads (.value v.toJson) (writeValue real v ++ rest) rest

section Written

variable {real : Double -> Text}

theorem reads_elements {v : Value} {elements : List Value} (rest : Text)
    (hv : Written real v) (h : forall w, w ∈ elements -> Written real w)
    (index : Nat) :
    Json.Reads (.elements (Value.toElements (v :: elements)))
      (writeValue real v ++
        (writeElements real (index + 1) elements ++ ']' :: rest)) rest := by
  induction elements generalizing v index with
  | nil =>
      exact Json.Reads.lastElement (Json.Gap.none _)
        (hv _ (Json.stops_cons rfl rest)) (Json.Gap.none _)
  | cons w elements ih =>
      rw [writeElements, separator_succ, List.append_assoc,
        List.append_assoc]
      exact Json.Reads.element (Json.Gap.none _) (hv _ (Json.stops_cons rfl _))
        (Json.Gap.none _) (ih (h w List.mem_cons_self)
          (fun u hu => h u (List.mem_cons_of_mem w hu)) (index + 1))

theorem reads_members {name : Text} {v : Value} {members : Members}
    (rest : Text) (hname : cString name = name) (hv : Written real v)
    (hnames : forall m, m ∈ members -> cString m.1 = m.1)
    (h : forall m, m ∈ members -> Written real m.2) (index : Nat) :
    Json.Reads (.members (Value.toMembers ((name, v) :: members)))
      (valueToQuotedString name ++ ':' :: (writeValue real v ++
        (writeMembers real (index + 1) members ++ '}' :: rest))) rest := by
  induction members generalizing name v index with
  | nil =>
      rw [valueToQuotedString_eq, List.cons_append, List.append_assoc]
      exact Json.Reads.lastMember (Json.Gap.none _) (body_flatMap hname _)
        (Json.Blanks.none _) (Json.Gap.none _) (hv _ (Json.stops_cons rfl rest))
        (Json.Gap.none _)
  | cons m members ih =>
      rcases m with ⟨next, w⟩
      have hrest := ih (hnames (next, w) List.mem_cons_self)
        (h (next, w) List.mem_cons_self)
        (fun u hu => hnames u (List.mem_cons_of_mem _ hu))
        (fun u hu => h u (List.mem_cons_of_mem _ hu)) (index + 1)
      rw [writeMembers, separator_succ, valueToQuotedString_eq name,
        List.cons_append, List.append_assoc]
      simp only [List.append_assoc, List.cons_append, List.nil_append]
      exact Json.Reads.member (Json.Gap.none _) (body_flatMap hname _)
        (Json.Blanks.none _) (Json.Gap.none _) (hv _ (Json.stops_cons rfl _))
        (Json.Gap.none _) hrest

theorem written {v : Value} (h : v.Wellformed) (hreal : v.hasReal = false) :
    Written real v := by
  induction h with
  | null => exact fun rest _ => Json.Reads.null rest
  | int hmin hmax => exact fun rest hrest => reads_valueToString _ hrest
  | uint hmin hmax => exact fun rest hrest => reads_valueToString _ hrest
  | real x => cases hreal
  | string h =>
      intro rest _
      show Json.Reads _ (valueToQuotedString _ ++ rest) rest
      rw [valueToQuotedString_eq, List.cons_append, List.append_assoc]
      exact Json.Reads.string (body_flatMap h rest)
  | bool b =>
      intro rest _
      cases b with
      | true => exact Json.Reads.isTrue rest
      | false => exact Json.Reads.isFalse rest
  | array h ih =>
      rename_i elements
      intro rest _
      have hall := anyReal_false hreal
      show Json.Reads _ ('[' :: (writeElements real 0 elements ++ [']']) ++
        rest) rest
      rw [List.cons_append, List.append_assoc]
      cases elements with
      | nil => exact Json.Reads.emptyArray (Json.Blanks.none _)
      | cons v elements =>
          have helements := reads_elements rest
            (ih v List.mem_cons_self (hall v List.mem_cons_self))
            (fun w hw => ih w (List.mem_cons_of_mem v hw)
              (hall w (List.mem_cons_of_mem v hw))) 0
          rw [writeElements, List.append_assoc, List.append_assoc]
          exact Json.Reads.array helements
  | object hordered hnames hvalues ih =>
      rename_i members
      intro rest _
      have hall := anyRealMember_false hreal
      show Json.Reads _ ('{' :: (writeMembers real 0 members ++ ['}']) ++
        rest) rest
      rw [List.cons_append, List.append_assoc]
      cases members with
      | nil => exact Json.Reads.emptyObject (Json.Gap.none _)
      | cons m members =>
          rcases m with ⟨name, v⟩
          have hmembers := reads_members rest
            (hnames (name, v) List.mem_cons_self)
            (ih (name, v) List.mem_cons_self
              (hall (name, v) List.mem_cons_self))
            (fun w hw => hnames w (List.mem_cons_of_mem _ hw))
            (fun w hw => ih w (List.mem_cons_of_mem _ hw)
              (hall w (List.mem_cons_of_mem _ hw))) 0
          rw [writeMembers]
          simp only [List.append_assoc, List.cons_append]
          exact Json.Reads.object hmembers

end Written

/-- What was read and has no `double` is read back from what is written. -/
theorem parse_write {document : Text} {v : Value} (real : Double -> Text)
    (h : (Reader.parse document).1 = .ok v) (hreal : v.hasReal = false) :
    (Reader.parse (write real v)).1 = .ok v ∧
      (Reader.parse (write real v)).2.errors = [] := by
  have hwellformed := Reader.parse_wellformed h
  have hstops : Json.Stops ['\n'] := Json.stops_cons rfl []
  have hreads : Json.Reads (.value v.toJson)
      (writeValue real v ++ ['\n']) ['\n'] :=
    written hwellformed hreal ['\n'] hstops
  unfold write
  rw [Reader.parse_of_reads (Json.Gap.none _) hreads,
    ofJson_toJson hwellformed hreal]
  exact ⟨rfl, rfl⟩

theorem parse_write_pair :
    (Reader.parse (write (fun _ => []) (.array [.int 1, .string ['\n']]))).1 =
        .ok (.array [.int 1, .string ['\n']]) ∧
      (Reader.parse (write (fun _ => [])
        (.array [.int 1, .string ['\n']]))).2.errors = [] := by
  have hparse : (Reader.parse ['[', '1', ',', '"', '\\', 'n', '"', ']']).1 =
      .ok (.array [.int 1, .string ['\n']]) := rfl
  exact parse_write (fun _ => []) hparse rfl

end FastWriter

end JsonCpp
end BeeGadz
