import BeeGadz.JsonCpp.Token

/-!
# Strings

A string is read to its closing quote, and its escapes are decoded to what they
stand for, characters that are named by their number in UTF-8.
-/

namespace BeeGadz
namespace JsonCpp

open Foundation

/-!
## UTF-8
-/

theorem or_and_eq (k a n : Nat) :
    2 ^ k * a ||| ((2 ^ k - 1) &&& n) = n % 2 ^ k + 2 ^ k * a := by
  have hless : n % 2 ^ k < 2 ^ k := Nat.mod_lt n (Nat.two_pow_pos k)
  rw [Nat.and_comm, Nat.and_two_pow_sub_one_eq_mod, Nat.add_comm,
    Nat.two_pow_add_eq_or_of_lt hless]

theorem byte_toNat {n : Nat} (h : n < 256) : (UInt8.ofNat n).toNat = n := by
  rw [UInt8.toNat_ofNat']
  exact Nat.mod_eq_of_lt h

theorem codePointToUTF8_toNat (c : Char) :
    codePointToUTF8 c.toNat = Json.utf8 c := by
  have hmax : c.toNat ≤ 0x10FFFF := by
    have hvalid := c.valid
    unfold UInt32.isValidChar Nat.isValidChar at hvalid
    show c.val.toNat ≤ 0x10FFFF
    omega
  have htwo (n : Nat) : 0xC0 ||| (0x1f &&& n) = n % 0x20 + 0xC0 :=
    or_and_eq 5 6 n
  have hthree (n : Nat) : 0xE0 ||| (0xf &&& n) = n % 0x10 + 0xE0 :=
    or_and_eq 4 14 n
  have hfour (n : Nat) : 0xF0 ||| (0x7 &&& n) = n % 8 + 0xF0 :=
    or_and_eq 3 30 n
  have hnext (n : Nat) : 0x80 ||| (0x3f &&& n) = n % 0x40 + 0x80 :=
    or_and_eq 6 2 n
  have hlast (n : Nat) : (UInt8.ofNat (n % 0x40 + 0x80)).toNat =
      n % 0x40 + 0x80 := byte_toNat (by omega)
  unfold codePointToUTF8 Json.utf8 String.utf8EncodeChar
  simp only [hmax, if_true, htwo, hthree, hfour, hnext,
    Nat.shiftRight_eq_div_pow]
  change _ = List.map _ (if c.toNat ≤ 0x7f then [UInt8.ofNat c.toNat] else
    if c.toNat ≤ 0x7FF then
      [UInt8.ofNat (c.toNat / 64 % 0x20 + 0xC0),
        UInt8.ofNat (c.toNat % 0x40 + 0x80)]
    else if c.toNat ≤ 0xFFFF then
      [UInt8.ofNat (c.toNat / 4096 % 0x10 + 0xE0),
        UInt8.ofNat (c.toNat / 64 % 0x40 + 0x80),
        UInt8.ofNat (c.toNat % 0x40 + 0x80)]
    else
      [UInt8.ofNat (c.toNat / 262144 % 8 + 0xF0),
        UInt8.ofNat (c.toNat / 4096 % 0x40 + 0x80),
        UInt8.ofNat (c.toNat / 64 % 0x40 + 0x80),
        UInt8.ofNat (c.toNat % 0x40 + 0x80)])
  split
  · rename_i hone
    have hbyte : (UInt8.ofNat c.toNat).toNat = c.toNat :=
      byte_toNat (by omega)
    rw [List.map_singleton, hbyte]
  · split
    · have hfirst : (UInt8.ofNat (c.toNat / 64 % 0x20 + 0xC0)).toNat =
          c.toNat / 64 % 0x20 + 0xC0 := byte_toNat (by omega)
      simp only [List.map_cons, List.map_nil, hfirst, hlast]
    · split
      · have hfirst : (UInt8.ofNat (c.toNat / 4096 % 0x10 + 0xE0)).toNat =
            c.toNat / 4096 % 0x10 + 0xE0 := byte_toNat (by omega)
        simp only [List.map_cons, List.map_nil, hfirst, hlast]
      · have hfirst : (UInt8.ofNat (c.toNat / 262144 % 8 + 0xF0)).toNat =
            c.toNat / 262144 % 8 + 0xF0 := byte_toNat (by omega)
        simp only [List.map_cons, List.map_nil, hfirst, hlast]

namespace Reader

/-!
## Escapes
-/

theorem hexDigit_ne {c : Char} {i : Nat} (h : Json.hexDigit c = some i) :
    c ≠ '"' ∧ c ≠ '\\' := by
  constructor
  · intro heq
    rw [heq] at h
    cases h
  · intro heq
    rw [heq] at h
    cases h

theorem readString_cons {c : Char} (hquote : c ≠ '"') (hbackslash : c ≠ '\\')
    (text : Text) : readString (c :: text) = readString text := by
  rw [readString]
  · exact hquote
  · intro heq
    exact absurd heq hbackslash
  · intro c' text' heq
    exact absurd heq hbackslash

theorem readString_hex {digits : Text} {n : Nat} (h : Json.Hex digits n)
    (text : Text) : readString (digits ++ text) = readString text := by
  cases h with
  | digits ha hb hc hd =>
      show readString (_ :: _ :: _ :: _ :: text) = readString text
      rw [readString_cons (hexDigit_ne ha).left (hexDigit_ne ha).right,
        readString_cons (hexDigit_ne hb).left (hexDigit_ne hb).right,
        readString_cons (hexDigit_ne hc).left (hexDigit_ne hc).right,
        readString_cons (hexDigit_ne hd).left (hexDigit_ne hd).right]

theorem hex_length {digits : Text} {n : Nat} (h : Json.Hex digits n) :
    digits.length = 4 := by
  cases h with
  | digits ha hb hc hd => rfl

theorem decodeHex_hex {digits : Text} {n : Nat} (h : Json.Hex digits n)
    (text : Text) : decodeHex 4 0 (digits ++ text) = .ok (n, text) := by
  cases h with
  | digits ha hb hc hd =>
      simp only [decodeHex, peek, List.cons_append, List.nil_append,
        List.headD_cons, List.tail_cons, ha, hb, hc, hd, Nat.zero_mul,
        Nat.zero_add]

theorem decodeUnicodeEscapeSequence_hex {digits : Text} {n : Nat}
    (h : Json.Hex digits n) (text : Text) :
    decodeUnicodeEscapeSequence (digits ++ text) = .ok (n, text) := by
  have hlength : ¬ (digits ++ text).length < 4 := by
    rw [List.length_append, hex_length h]
    omega
  rw [decodeUnicodeEscapeSequence, if_neg hlength, decodeHex_hex h]

theorem not_surrogate (c : Char) :
    ¬ (0xD800 ≤ c.toNat ∧ c.toNat ≤ 0xDBFF) := by
  have hvalid := c.valid
  unfold UInt32.isValidChar Nat.isValidChar at hvalid
  show ¬ (0xD800 ≤ c.val.toNat ∧ c.val.toNat ≤ 0xDBFF)
  omega

theorem decodeUnicodeCodePoint_hex {digits : Text} {c : Char}
    (h : Json.Hex digits c.toNat) (text : Text) :
    decodeUnicodeCodePoint (digits ++ text) = .ok (c.toNat, text) := by
  unfold decodeUnicodeCodePoint
  rw [decodeUnicodeEscapeSequence_hex h]
  show (if 0xD800 ≤ c.toNat ∧ c.toNat ≤ 0xDBFF then _
    else pure (c.toNat, text)) = _
  rw [if_neg (not_surrogate c)]
  rfl

theorem ok_bind {ε α γ : Type} (a : α) (f : α -> Except ε γ) :
    (Except.ok a >>= f) = f a := rfl

theorem decodeUnicodeCodePoint_surrogates {first second : Text} {c : Char}
    (hc : 0x10000 ≤ c.toNat) (hfirst : Json.Hex first (Json.highSurrogate c))
    (hsecond : Json.Hex second (Json.lowSurrogate c)) (text : Text) :
    decodeUnicodeCodePoint (first ++ '\\' :: 'u' :: (second ++ text)) =
      .ok (c.toNat, text) := by
  have hmax : c.toNat < 0x110000 := by
    have hvalid := c.valid
    unfold UInt32.isValidChar Nat.isValidChar at hvalid
    show c.val.toNat < 0x110000
    omega
  have hlength : ¬ ('\\' :: 'u' :: (second ++ text)).length < 6 := by
    rw [List.length_cons, List.length_cons, List.length_append,
      hex_length hsecond]
    omega
  have hbackslash : ¬ peek ('\\' :: 'u' :: (second ++ text)) ≠ '\\' :=
    fun h => h rfl
  have hletter : ¬ peek ('\\' :: 'u' :: (second ++ text)).tail ≠ 'u' :=
    fun h => h rfl
  have hhigh : 0xD800 ≤ Json.highSurrogate c ∧
      Json.highSurrogate c ≤ 0xDBFF := by
    unfold Json.highSurrogate
    omega
  have hpair : 0x10000 + ((Json.highSurrogate c &&& 0x3FF) <<< 10) +
      (Json.lowSurrogate c &&& 0x3FF) = c.toNat := by
    rw [Nat.and_two_pow_sub_one_eq_mod _ 10,
      Nat.and_two_pow_sub_one_eq_mod _ 10, Nat.shiftLeft_eq]
    unfold Json.highSurrogate Json.lowSurrogate
    omega
  unfold decodeUnicodeCodePoint
  rw [decodeUnicodeEscapeSequence_hex hfirst, ok_bind]
  simp only
  rw [if_pos hhigh, if_neg hlength, if_neg hbackslash, if_neg hletter,
    List.tail_cons, List.tail_cons, decodeUnicodeEscapeSequence_hex hsecond,
    ok_bind]
  simp only [hpair]
  rfl

theorem decodeEscape_escape {e c : Char} (h : Json.Escape e c) (text : Text) :
    decodeEscape e text = .ok ([c], text) := by
  cases h <;> rfl

/-!
## Strings
-/

/-- The inside of a string, and what it is decoded to. -/
structure Decodes (text s rest : Text) : Prop where
  readString : readString text = (true, rest)
  inside : exists inside, text = inside ++ '"' :: rest ∧
    forall n, inside.length ≤ n -> decodeChars n inside = .ok s

theorem decodes_body {text s rest : Text} (h : Json.Body text s rest) :
    Decodes text s rest := by
  induction h with
  | close rest =>
      refine ⟨rfl, [], rfl, ?_⟩
      intro n _
      cases n <;> rfl
  | plain hquote hbackslash h ih =>
      rename_i c text s rest
      rcases ih.inside with ⟨inside, htext, hdecode⟩
      refine ⟨?_, c :: inside, by rw [htext]; rfl, ?_⟩
      · rw [readString_cons hquote hbackslash, ih.readString]
      · intro n hn
        cases n with
        | zero => cases hn
        | succ n =>
            unfold decodeChars
            rw [if_neg hquote, if_neg hbackslash,
              hdecode n (Nat.le_of_succ_le_succ hn)]
            rfl
  | escape he h ih =>
      rename_i e c text s rest
      rcases ih.inside with ⟨inside, htext, hdecode⟩
      refine ⟨ih.readString, '\\' :: e :: inside, by rw [htext]; rfl, ?_⟩
      intro n hn
      cases n with
      | zero => cases hn
      | succ n =>
          have hn' : inside.length ≤ n := by
            simp only [List.length_cons] at hn
            omega
          unfold decodeChars
          rw [if_neg (by decide), if_pos rfl]
          simp only [decodeEscape_escape he, hdecode n hn', bind, Except.bind]
          rfl
  | unicode hdigits h ih =>
      rename_i digits text s rest c
      rcases ih.inside with ⟨inside, htext, hdecode⟩
      refine ⟨?_, '\\' :: 'u' :: (digits ++ inside), ?_, ?_⟩
      · show readString (digits ++ text) = (true, rest)
        rw [readString_hex hdigits, ih.readString]
      · rw [htext, List.cons_append, List.cons_append, List.append_assoc]
      · intro n hn
        cases n with
        | zero => cases hn
        | succ n =>
            have hn' : inside.length ≤ n := by
              simp only [List.length_cons, List.length_append] at hn
              omega
            unfold decodeChars
            rw [if_neg (by decide), if_pos rfl]
            simp only [decodeEscape, decodeUnicodeCodePoint_hex hdigits,
              hdecode n hn', bind, Except.bind, codePointToUTF8_toNat, pure,
              Except.pure]
  | surrogates hc hfirst hsecond h ih =>
      rename_i first second text s rest c
      rcases ih.inside with ⟨inside, htext, hdecode⟩
      refine ⟨?_,
        '\\' :: 'u' :: (first ++ '\\' :: 'u' :: (second ++ inside)), ?_, ?_⟩
      · show readString (first ++ '\\' :: 'u' :: (second ++ text)) =
          (true, rest)
        rw [readString_hex hfirst]
        show readString (second ++ text) = (true, rest)
        rw [readString_hex hsecond, ih.readString]
      · rw [htext]
        simp only [List.cons_append, List.append_assoc]
      · intro n hn
        cases n with
        | zero => cases hn
        | succ n =>
            have hn' : inside.length ≤ n := by
              simp only [List.length_cons, List.length_append] at hn
              omega
            unfold decodeChars
            rw [if_neg (by decide), if_pos rfl]
            simp only [decodeEscape,
              decodeUnicodeCodePoint_surrogates hc hfirst hsecond,
              hdecode n hn', bind, Except.bind, codePointToUTF8_toNat, pure,
              Except.pure]

theorem before_left (front rest : Text) :
    before (front ++ rest) rest = front := by
  rw [before, List.length_append, Nat.add_sub_cancel, List.take_left]

theorem readToken_body {text s rest : Text} (h : Json.Body text s rest) :
    (readToken ('"' :: text)).1.type = .string ∧
      (readToken ('"' :: text)).2 = rest ∧
      forall r, decodeString (readToken ('"' :: text)).1 r = (.ok s, r) := by
  rcases decodes_body h with ⟨hread, inside, htext, hdecode⟩
  have htoken : readToken ('"' :: text) =
      (⟨if (readString text).1 then .string else .error, '"' :: text,
        before ('"' :: text) (readString text).2⟩, (readString text).2) := rfl
  have hfront : '"' :: text = ('"' :: (inside ++ ['"'])) ++ rest := by
    rw [htext, List.cons_append, List.append_assoc]
    rfl
  rw [htoken, hread, hfront, before_left]
  refine ⟨rfl, rfl, ?_⟩
  intro r
  have hinside : ('"' :: (inside ++ ['"'])).tail.dropLast = inside :=
    List.dropLast_concat
  unfold decodeString
  simp only [hinside, hdecode inside.length (le_refl _)]
  rfl

end Reader

end JsonCpp
end BeeGadz
