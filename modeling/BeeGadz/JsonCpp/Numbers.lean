import Mathlib.Tactic.Ring
import BeeGadz.JsonCpp.Token

/-!
# Numbers

An integer is decoded to the kind of value that it fits in, and to the nearest
`double` if it fits in none.  What has a fraction or an exponent is decoded to
the `double` that is nearest to it.
-/

namespace BeeGadz
namespace JsonCpp

open Foundation

/-- The value of an integer: an `int` if it may be one of the smaller kind, or a
negative one of the larger. -/
def Value.ofInteger (n : Int) : Value :=
  if n < 0 then
    if -n ≤ 2 ^ 63 then .int n else .real (Double.nearest true n.natAbs)
  else if n ≤ 2147483647 then .int n
  else if n ≤ 2 ^ 64 - 1 then .uint n.toNat
  else .real (Double.nearest false n.natAbs)

namespace Reader

/-!
## Digits
-/

theorem isDigit_ne {c d : Char} (hc : c.isDigit = true)
    (hd : d.isDigit = false) : c ≠ d := by
  intro heq
  rw [heq, hd] at hc
  cases hc

theorem isNumeric_of_isDigit {c : Char} (hc : c.isDigit = true) :
    Json.isNumeric c = true := by
  unfold Json.isNumeric
  rw [hc]
  rfl

theorem digits_append {p : Char -> Bool} {front rest : Text}
    (hfront : forall c, c ∈ front -> p c = true)
    (hrest : forall c, rest.head? = some c -> p c = false) :
    (front ++ rest).takeWhile p = front ∧
      (front ++ rest).dropWhile p = rest := by
  rw [List.takeWhile_append_of_pos hfront, List.dropWhile_append_of_pos hfront]
  cases rest with
  | nil => exact ⟨List.append_nil front, rfl⟩
  | cons c rest =>
      have hc : p c = false := hrest c rfl
      have hnot : ¬ p c = true := by
        rw [hc]
        decide
      rw [List.takeWhile_cons_of_neg hnot, List.dropWhile_cons_of_neg hnot,
        List.append_nil]
      exact ⟨rfl, rfl⟩

theorem digit_range {c : Char} (hc : c.isDigit = true) :
    ¬ (c < '0' ∨ c > '9') ∧ c.toNat - '0'.toNat < 10 := by
  have hboth := hc
  unfold Char.isDigit at hboth
  rcases (Bool.and_eq_true_iff.mp hboth) with ⟨hzero, hnine⟩
  have hzero' : '0'.val ≤ c.val := of_decide_eq_true hzero
  have hnine' : c.val ≤ '9'.val := of_decide_eq_true hnine
  have hle : c.toNat ≤ '9'.toNat := hnine'
  constructor
  · rintro (hless | hgreater)
    · exact absurd hless (not_lt.mpr hzero')
    · exact absurd hgreater (not_lt.mpr hnine')
  · have hzeroNat : '0'.toNat = 48 := rfl
    have hnineNat : '9'.toNat = 57 := rfl
    omega

/-- The check for an overflow is exact. -/
theorem decodeDigits_eq {max value : Nat} {text : Text} (hmax : 10 < max)
    (hdigits : forall c, c ∈ text -> c.isDigit = true) (hvalue : value ≤ max) :
    decodeDigits max text value =
      if Nat.ofDigitChars 10 text value ≤ max then
        .value (Nat.ofDigitChars 10 text value)
      else .large := by
  induction text generalizing value with
  | nil => rw [decodeDigits, Nat.ofDigitChars_nil, if_pos hvalue]
  | cons c text ih =>
      have hc : c.isDigit = true := hdigits c List.mem_cons_self
      have hrest : forall c, c ∈ text -> c.isDigit = true :=
        fun c hc => hdigits c (List.mem_cons_of_mem _ hc)
      have hrange := digit_range hc
      have hnext : Nat.ofDigitChars 10 (c :: text) value =
          Nat.ofDigitChars 10 text (value * 10 + (c.toNat - '0'.toNat)) := by
        rw [Nat.ofDigitChars_cons, Nat.mul_comm]
      have hgrows : Nat.ofDigitChars 10 text
          (value * 10 + (c.toNat - '0'.toNat)) =
          10 ^ text.length * (value * 10 + (c.toNat - '0'.toNat)) +
            Nat.ofDigitChars 10 text 0 :=
        Nat.ofDigitChars_eq_ofDigitChars_zero
      rw [decodeDigits, if_neg hrange.left, hnext]
      simp only
      split
      · rename_i hlarge
        rcases hlarge with ⟨hthreshold, hover⟩
        have hmore : max < Nat.ofDigitChars 10 text
            (value * 10 + (c.toNat - '0'.toNat)) := by
          rw [hgrows]
          cases text with
          | nil =>
              rw [List.length_nil, Nat.pow_zero, Nat.one_mul,
                Nat.ofDigitChars_nil]
              have hcases : value > max / 10 ∨
                  c.toNat - '0'.toNat > max % 10 := by
                rcases hover with hvalue' | hnil | hdigit
                · exact Or.inl hvalue'
                · exact absurd rfl hnil
                · exact Or.inr hdigit
              omega
          | cons d text =>
              have hpower : 10 ≤ 10 ^ (d :: text).length := by
                rw [List.length_cons, Nat.pow_succ]
                have hpositive : 0 < 10 ^ text.length :=
                  Nat.pow_pos (by decide)
                omega
              have hproduct := Nat.mul_le_mul hpower
                (le_refl (value * 10 + (c.toNat - '0'.toNat)))
              omega
        rw [if_neg (not_le.mpr hmore)]
      · rename_i hsmall
        apply ih hrest
        by_contra hover
        apply hsmall
        refine ⟨by omega, ?_⟩
        by_cases hequal : value > max / 10
        · exact Or.inl hequal
        · exact Or.inr (Or.inr (by omega))

/-!
## The number of a text
-/

theorem scan_number {c : Char} (hc : c.isDigit = true ∨ c = '-')
    (text : Text) : scan c text = (.number, readNumber text) := by
  have hnumber : (c.isDigit || c == '-') = true := by
    cases hc with
    | inl hdigit => rw [hdigit, Bool.true_or]
    | inr heq => rw [heq]; rfl
  have hother : forall d : Char, (d.isDigit || d == '-') = false -> c ≠ d := by
    intro d hd heq
    rw [heq, hd] at hnumber
    cases hnumber
  unfold scan
  split
  case h_13 => rw [if_pos hnumber]
  all_goals exact absurd rfl (hother _ (by decide))

theorem readToken_number {c : Char} {front rest : Text}
    (hc : c.isDigit = true ∨ c = '-')
    (hfront : forall d, d ∈ front -> Json.isNumeric d = true)
    (hrest : Json.Stops rest) :
    readToken (c :: (front ++ rest)) =
      (⟨.number, c :: (front ++ rest), c :: front⟩, rest) := by
  have hblank : ¬ Json.isBlank c = true := by
    intro hblank
    cases hc with
    | inl hdigit =>
        have hne : forall d : Char, d.isDigit = false -> (c == d) = false :=
          fun d hd => beq_eq_false_iff_ne.mpr (isDigit_ne hdigit hd)
        unfold Json.isBlank at hblank
        rw [hne ' ' rfl, hne '\t' rfl, hne '\r' rfl, hne '\n' rfl] at hblank
        cases hblank
    | inr heq =>
        rw [heq] at hblank
        cases hblank
  have hstart : skipSpaces (c :: (front ++ rest)) = c :: (front ++ rest) :=
    List.dropWhile_cons_of_neg hblank
  have hdrop : readNumber (front ++ rest) = rest :=
    (digits_append hfront hrest).right
  have hbefore : before (c :: (front ++ rest)) rest = c :: front := by
    rw [before, List.length_cons, List.length_append, Nat.succ_sub (by omega),
      Nat.add_sub_cancel, List.take_succ_cons, List.take_left]
  unfold readToken
  rw [hstart]
  simp only [getNextChar, peek, List.headD_cons, List.tail_cons,
    scan_number hc, hdrop, hbefore]

theorem sign_digits (negative : Bool) {digits : Text}
    (h : Json.Digits digits) (rest : Text) {text : Text}
    (htext : text = Json.sign negative ++ (digits ++ rest)) :
    (peek text == '-') = negative ∧
      (if (peek text == '-') = true ∨ peek text = '+' then text.tail
        else text) = digits ++ rest := by
  rw [htext]
  cases negative with
  | true => exact ⟨rfl, rfl⟩
  | false =>
      cases digits with
      | nil => exact absurd rfl h.left
      | cons c digits =>
          have hc : c.isDigit = true := h.right c List.mem_cons_self
          have hminus : (c == '-') = false :=
            beq_eq_false_iff_ne.mpr (isDigit_ne hc rfl)
          refine ⟨hminus, if_neg ?_⟩
          rintro (htrue | hplus)
          · exact absurd (hminus.symm.trans htrue) (by decide)
          · exact isDigit_ne hc rfl hplus

/-!
## Doubles
-/

theorem scanExponent_text {e : Option Json.Exponent}
    (h : forall x, e = some x -> x.Wellformed) :
    scanExponent (Json.Decimal.exponentText e) =
      (e.map Json.Exponent.value).getD 0 := by
  cases e with
  | none => rfl
  | some e =>
      rcases h e rfl with ⟨hmark, hsign, hne, hdigits⟩
      have htake : e.digits.takeWhile Char.isDigit = e.digits :=
        List.takeWhile_eq_self_iff.mpr hdigits
      have hsigned :
          (peek (e.sign ++ e.digits) == '-') = (e.sign == ['-']) ∧
            (if (peek (e.sign ++ e.digits) == '-') = true ∨
                peek (e.sign ++ e.digits) = '+'
              then (e.sign ++ e.digits).tail else e.sign ++ e.digits) =
              e.digits := by
        rcases hsign with hsign | hsign | hsign
        · rw [hsign]
          have hfirst := sign_digits false ⟨hne, hdigits⟩ [] rfl
          rw [List.append_nil] at hfirst
          exact hfirst
        · rw [hsign]
          exact ⟨rfl, rfl⟩
        · rw [hsign]
          exact ⟨rfl, rfl⟩
      rcases hsigned with ⟨hnegative, hdrop⟩
      show (if e.mark = 'e' ∨ e.mark = 'E' then
        Json.signed _
          (Nat.ofDigitChars 10
            (List.takeWhile Char.isDigit (if _ then _ else _)) 0 : Int)
        else 0) = _
      rw [if_pos hmark, hdrop, htake, hnegative]
      rfl

theorem exponentText_head {e : Option Json.Exponent}
    (h : forall x, e = some x -> x.Wellformed) (c : Char)
    (hc : (Json.Decimal.exponentText e).head? = some c) :
    c.isDigit = false ∧ c ≠ '.' := by
  cases e with
  | none => cases hc
  | some e =>
      have hmark : e.mark = c := Option.some.inj hc
      rw [← hmark]
      cases (h e rfl).mark with
      | inl heq => rw [heq]; decide
      | inr heq => rw [heq]; decide

theorem fraction_digits {fraction : Option Text}
    {exponent : Option Json.Exponent}
    (hfraction : forall digits, fraction = some digits -> Json.Digits digits)
    (hexponent : forall e, exponent = some e -> e.Wellformed) {text : Text}
    (htext : text = Json.Decimal.fractionText fraction ++
      Json.Decimal.exponentText exponent) :
    (if peek text = '.' then text.tail.takeWhile Char.isDigit else []) =
        fraction.getD [] ∧
      (if peek text = '.' then text.tail.dropWhile Char.isDigit else text) =
        Json.Decimal.exponentText exponent := by
  have hhead := exponentText_head hexponent
  cases fraction with
  | none =>
      have hpoint : ¬ peek text = '.' := by
        rw [htext]
        cases hlist : Json.Decimal.exponentText exponent with
        | nil => decide
        | cons c rest =>
            apply (hhead c ?_).right
            rw [hlist]
            rfl
      rw [if_neg hpoint, if_neg hpoint, htext]
      exact ⟨rfl, rfl⟩
  | some digits =>
      have hdigits := digits_append (hfraction digits rfl).right
        (fun c hc => (hhead c hc).left)
      have hpoint : peek text = '.' := by
        rw [htext]
        rfl
      rw [if_pos hpoint, if_pos hpoint, htext]
      exact hdigits

theorem scanDouble_text {negative : Bool} {whole : Text}
    {fraction : Option Text} {exponent : Option Json.Exponent}
    (hwhole : Json.Digits whole)
    (hfraction : forall digits, fraction = some digits -> Json.Digits digits)
    (hexponent : forall e, exponent = some e -> e.Wellformed) :
    scanDouble (Json.sign negative ++
        (whole ++ (Json.Decimal.fractionText fraction ++
          Json.Decimal.exponentText exponent))) =
      some (Double.nearest negative (Json.Decimal.magnitudeOf whole
        (fraction.getD []) ((exponent.map Json.Exponent.value).getD 0))) := by
  have hhead := exponentText_head hexponent
  have hstop : forall c, (Json.Decimal.fractionText fraction ++
      Json.Decimal.exponentText exponent).head? = some c ->
        c.isDigit = false := by
    intro c hc
    cases fraction with
    | none => exact (hhead c hc).left
    | some digits =>
        have hpoint : '.' = c := Option.some.inj hc
        rw [← hpoint]
        rfl
  have hbehind := digits_append hwhole.right hstop
  have hne : ¬ whole ++ fraction.getD [] = [] := by
    intro hnil
    exact hwhole.left (List.append_eq_nil_iff.mp hnil).left
  rcases fraction_digits hfraction hexponent rfl with ⟨hdigits, hrest⟩
  have hsign := sign_digits negative hwhole
    (Json.Decimal.fractionText fraction ++ Json.Decimal.exponentText exponent)
    rfl
  generalize Json.sign negative ++ (whole ++
    (Json.Decimal.fractionText fraction ++
      Json.Decimal.exponentText exponent)) = text at hsign
  rcases hsign with ⟨hnegative, hdrop⟩
  unfold scanDouble
  simp only [hdrop, hbehind.left, hbehind.right, hdigits, hrest]
  rw [hnegative, if_neg hne, scanExponent_text hexponent]

/-!
## Decoding
-/

theorem isDouble_integer (negative : Bool) {digits : Text}
    (h : Json.Digits digits) :
    isDouble (Json.sign negative ++ digits) = false := by
  have hdigit : forall c, c ∈ digits -> forall d : Char, d.isDigit = false ->
      (c == d) = false :=
    fun c hc d hd => beq_eq_false_iff_ne.mpr (isDigit_ne (h.right c hc) hd)
  have hmarks : (digits.any fun c => c == '.' || c == 'e' || c == 'E' ||
      c == '+') = false := by
    rw [List.any_eq_false]
    intro c hc
    rw [hdigit c hc '.' rfl, hdigit c hc 'e' rfl, hdigit c hc 'E' rfl,
      hdigit c hc '+' rfl]
    decide
  have hminus : (digits.any fun c => c == '-') = false := by
    rw [List.any_eq_false]
    intro c hc
    rw [hdigit c hc '-' rfl]
    decide
  cases negative with
  | true =>
      show isDouble ('-' :: digits) = false
      rw [isDouble, List.any_cons, hmarks, List.tail_cons, hminus]
      rfl
  | false =>
      show isDouble digits = false
      rw [isDouble, hmarks, Bool.false_or, List.any_eq_false]
      intro c hc
      rw [hdigit c (List.mem_of_mem_tail hc) '-' rfl]
      decide

/-- An integer that is too large becomes the nearest `double`. -/
theorem decodeDouble_integer (negative : Bool) {digits : Text}
    (h : Json.Digits digits) (start : Text) (s : Reader) :
    decodeDouble ⟨.number, start, Json.sign negative ++ digits⟩ s =
      (.ok (.real (Double.nearest negative
        (Nat.ofDigitChars 10 digits 0 : Nat))), s) := by
  have hscan := @scanDouble_text negative digits none none h
    (fun _ hd => by cases hd) (fun _ he => by cases he)
  have hvalue : Json.Decimal.magnitudeOf digits [] 0 =
      ((Nat.ofDigitChars 10 digits 0 : Nat) : Rat) := by
    unfold Json.Decimal.magnitudeOf
    rw [List.append_nil, List.length_nil, Nat.cast_zero, sub_zero, zpow_zero,
      mul_one]
  have htext : Json.sign negative ++
      (digits ++ (Json.Decimal.fractionText none ++
        Json.Decimal.exponentText none)) = Json.sign negative ++ digits := by
    show Json.sign negative ++ (digits ++ []) = _
    rw [List.append_nil]
  rw [htext] at hscan
  unfold decodeDouble
  rw [hscan]
  show ((.ok (.real (Double.nearest negative
    (Json.Decimal.magnitudeOf digits [] 0))), s) :
      Except Unit Value × Reader) = _
  rw [hvalue]

theorem ofInteger_negative {n : Nat} (h : n ≤ maxNegative) :
    Value.ofInteger (Json.signed true (n : Int)) = .int (-n) := by
  unfold maxNegative at h
  show Value.ofInteger (-(n : Int)) = .int (-n)
  unfold Value.ofInteger
  split
  · rw [if_pos (by omega)]
  · rw [if_pos (by omega)]

theorem ofInteger_negative_large {n : Nat} (h : ¬ n ≤ maxNegative) :
    Value.ofInteger (Json.signed true (n : Int)) =
      .real (Double.nearest true n) := by
  unfold maxNegative at h
  show Value.ofInteger (-(n : Int)) = .real (Double.nearest true n)
  unfold Value.ofInteger
  rw [if_pos (by omega), if_neg (by omega), Int.natAbs_neg, Int.natAbs_natCast]

theorem ofInteger_positive {n : Nat} (h : n ≤ maxLargestUInt) :
    Value.ofInteger (Json.signed false (n : Int)) =
      if n ≤ 2147483647 then .int n else .uint n := by
  unfold maxLargestUInt at h
  show Value.ofInteger (n : Int) = _
  unfold Value.ofInteger
  rw [if_neg (by omega)]
  by_cases hn : n ≤ 2147483647
  · rw [if_pos hn, if_pos (by omega)]
  · rw [if_neg hn, if_neg (by omega), if_pos (by omega), Int.toNat_natCast]

theorem ofInteger_positive_large {n : Nat} (h : ¬ n ≤ maxLargestUInt) :
    Value.ofInteger (Json.signed false (n : Int)) =
      .real (Double.nearest false n) := by
  unfold maxLargestUInt at h
  show Value.ofInteger (n : Int) = .real (Double.nearest false n)
  unfold Value.ofInteger
  rw [if_neg (by omega), if_neg (by omega), if_neg (by omega),
    Int.natAbs_natCast]

theorem decodeNumber_integer (negative : Bool) {digits : Text}
    (h : Json.Digits digits) (start : Text) (s : Reader) :
    decodeNumber ⟨.number, start, Json.sign negative ++ digits⟩ s =
      (.ok (Value.ofInteger
        (Json.signed negative (Nat.ofDigitChars 10 digits 0))), s) := by
  have hdouble := decodeDouble_integer negative h start s
  have hdecode : decodeDigits
      (if negative then maxNegative else maxLargestUInt) digits 0 = _ :=
    decodeDigits_eq (by cases negative <;> decide) h.right (Nat.zero_le _)
  rcases sign_digits negative h [] rfl with ⟨hnegative, -⟩
  rw [List.append_nil] at hnegative
  have hdigits : (if negative then (Json.sign negative ++ digits).tail
      else Json.sign negative ++ digits) = digits := by
    cases negative <;> rfl
  unfold decodeNumber
  rw [isDouble_integer negative h, if_neg Bool.false_ne_true]
  simp only [hnegative, hdigits, hdecode]
  generalize Nat.ofDigitChars 10 digits 0 = n at hdouble
  cases negative with
  | true =>
      by_cases hn : n ≤ maxNegative
      · rw [ofInteger_negative hn]
        simp only [if_true, hn]
        rfl
      · rw [ofInteger_negative_large hn]
        simp only [if_true, hn, if_false]
        exact hdouble
  | false =>
      by_cases hn : n ≤ maxLargestUInt
      · rw [ofInteger_positive hn]
        simp only [Bool.false_eq_true, if_false, hn, if_true]
        split
        · rfl
        · rfl
      · rw [ofInteger_positive_large hn]
        simp only [Bool.false_eq_true, if_false, hn]
        exact hdouble

theorem decodeNumber_decimal {d : Json.Decimal} (h : d.Wellformed)
    (start : Text) (s : Reader) :
    decodeNumber ⟨.number, start, d.text⟩ s =
      (.ok (.real (Double.nearest d.negative d.magnitude)), s) := by
  have hdouble : isDouble d.text = true := by
    unfold isDouble Json.Decimal.text
    rw [Bool.or_eq_true_iff, List.any_append, List.any_append, List.any_append]
    left
    have hpart : (Json.Decimal.fractionText d.fraction).any (fun c =>
          c == '.' || c == 'e' || c == 'E' || c == '+') = true ∨
        (Json.Decimal.exponentText d.exponent).any (fun c =>
          c == '.' || c == 'e' || c == 'E' || c == '+') = true := by
      cases hfraction : d.fraction with
      | some digits => exact Or.inl rfl
      | none =>
          right
          cases hexponent : d.exponent with
          | none =>
              cases h.either with
              | inl hne => exact absurd hfraction hne
              | inr hne => exact absurd hexponent hne
          | some e =>
              have hmark := (h.exponent e hexponent).mark
              show (e.mark == '.' || e.mark == 'e' || e.mark == 'E' ||
                e.mark == '+' || _) = true
              cases hmark with
              | inl heq => rw [heq]; rfl
              | inr heq => rw [heq]; rfl
    cases hpart with
    | inl htrue => rw [htrue, Bool.true_or, Bool.or_true, Bool.or_true]
    | inr htrue => rw [htrue, Bool.or_true, Bool.or_true, Bool.or_true]
  unfold decodeNumber
  rw [hdouble, if_pos rfl]
  unfold decodeDouble
  rw [Json.Decimal.text, scanDouble_text h.whole h.fraction h.exponent]
  rfl

end Reader
end JsonCpp
end BeeGadz
