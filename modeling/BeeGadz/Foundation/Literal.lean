import Mathlib.Data.List.Basic

/-!
# Reading text

Readers that take a piece from the front of a text: expected words, numbers, and
quoted string literals.  In a literal of MySQL a doubled quote stands for one,
and a backslash takes the next character with it, except that the escapes of the
two wildcards are kept as they are written.  The texts that stand for themselves
are exactly the plain ones.
-/

namespace BeeGadz
namespace Foundation

def expect (words text : List Char) : Option (List Char) :=
  if words.isPrefixOf text then some (text.drop words.length) else none

theorem expect_eq_some {words text rest : List Char} :
    expect words text = some rest <-> text = words ++ rest := by
  unfold expect
  constructor
  · intro h
    split at h
    · rename_i hprefix
      rcases List.isPrefixOf_iff_prefix.mp hprefix with ⟨tail, rfl⟩
      rw [List.drop_left] at h
      rw [Option.some.inj h]
    · cases h
  · intro h
    have hprefix : words.isPrefixOf text = true :=
      List.isPrefixOf_iff_prefix.mpr ⟨rest, h.symm⟩
    rw [if_pos hprefix, h, List.drop_left]

theorem expect_append (words rest : List Char) :
    expect words (words ++ rest) = some rest :=
  expect_eq_some.mpr rfl

def readNumber (text : List Char) : Option (Nat × List Char) :=
  if text.takeWhile Char.isDigit = [] then none
  else
    some (Nat.ofDigitChars 10 (text.takeWhile Char.isDigit) 0,
      text.dropWhile Char.isDigit)

theorem readNumber_toDigits (n : Nat) {rest : List Char}
    (hrest : forall ch, rest.head? = some ch -> ch.isDigit = false) :
    readNumber (Nat.toDigits 10 n ++ rest) = some (n, rest) := by
  have hdigits : forall ch, ch ∈ Nat.toDigits 10 n -> ch.isDigit = true :=
    fun ch hch => Nat.isDigit_of_mem_toDigits (by decide) (by decide) hch
  have hstop : rest.takeWhile Char.isDigit = [] ∧
      rest.dropWhile Char.isDigit = rest := by
    cases rest with
    | nil => exact ⟨rfl, rfl⟩
    | cons ch rest =>
        have hch := hrest ch rfl
        simp [hch]
  rw [readNumber, List.takeWhile_append_of_pos hdigits,
    List.dropWhile_append_of_pos hdigits, hstop.left, hstop.right,
    List.append_nil, if_neg Nat.toDigits_ne_nil,
    Nat.ofDigitChars_ten_toDigits]

def readRaw (q : Char) : List Char -> Option (List Char × List Char)
  | [] => none
  | ch :: rest =>
      if ch = q then some ([], rest)
      else if ch = '\\' then none
      else (readRaw q rest).map fun r => (ch :: r.1, r.2)

/-- A computed check that a text needs no reading at all. -/
theorem ordinary_of_all {q : Char} {s : List Char}
    (h : (s.all fun ch => ch != q && ch != '\\') = true) :
    forall ch, ch ∈ s -> ch ≠ q ∧ ch ≠ '\\' := by
  intro ch hch
  have hboth := List.all_eq_true.mp h ch hch
  simpa using hboth

theorem readRaw_append {q : Char} {s : List Char}
    (hs : forall ch, ch ∈ s -> ch ≠ q ∧ ch ≠ '\\') (rest : List Char) :
    readRaw q (s ++ q :: rest) = some (s, rest) := by
  induction s with
  | nil => simp [readRaw]
  | cons ch s ih =>
      have hch := hs ch List.mem_cons_self
      have hrest := ih fun c hc => hs c (List.mem_cons_of_mem ch hc)
      rw [List.cons_append, readRaw, if_neg hch.left, if_neg hch.right,
        hrest]
      rfl

def escaped (ch : Char) : List Char :=
  if ch = '0' then [Char.ofNat 0]
  else if ch = 'b' then [Char.ofNat 8]
  else if ch = 'n' then [Char.ofNat 10]
  else if ch = 'r' then [Char.ofNat 13]
  else if ch = 't' then [Char.ofNat 9]
  else if ch = 'Z' then [Char.ofNat 26]
  else if ch = '%' then ['\\', '%']
  else if ch = '_' then ['\\', '_']
  else [ch]

/-- The text up to the closing quote `q`, and what is behind it. -/
def readBody (q : Char) : List Char -> Option (List Char × List Char)
  | [] => none
  | ch :: rest =>
      if ch = q then
        match rest with
        | [] => some ([], [])
        | next :: rest' =>
            if next = q then
              (readBody q rest').map fun r => (q :: r.1, r.2)
            else some ([], next :: rest')
      else if ch = '\\' then
        match rest with
        | [] => none
        | next :: rest' =>
            (readBody q rest').map fun r => (escaped next ++ r.1, r.2)
      else (readBody q rest).map fun r => (ch :: r.1, r.2)

def readLiteral (q : Char) : List Char -> Option (List Char × List Char)
  | [] => none
  | ch :: rest => if ch = q then readBody q rest else none

/-- There is no quote, and every backslash stands before a wildcard. -/
inductive Plain (q : Char) : List Char -> Prop where
  | nil : Plain q []
  | ordinary {ch : Char} {s : List Char} (hquote : ch ≠ q)
      (hback : ch ≠ '\\') (hs : Plain q s) : Plain q (ch :: s)
  | wildcard {ch : Char} {s : List Char} (hch : ch = '%' ∨ ch = '_')
      (hs : Plain q s) : Plain q ('\\' :: ch :: s)

theorem escaped_of_wildcard {ch : Char} (h : ch = '%' ∨ ch = '_') :
    escaped ch = ['\\', ch] := by
  rcases h with rfl | rfl <;> rfl

theorem escaped_length_le (ch : Char) : (escaped ch).length ≤ 2 := by
  unfold escaped
  repeat' split
  all_goals simp

theorem wildcard_of_escaped_length {ch : Char}
    (h : (escaped ch).length = 2) : ch = '%' ∨ ch = '_' := by
  by_cases hpercent : ch = '%'
  · exact Or.inl hpercent
  · by_cases hunderscore : ch = '_'
    · exact Or.inr hunderscore
    · unfold escaped at h
      rw [if_neg hpercent, if_neg hunderscore] at h
      repeat' split at h
      all_goals simp at h

section Reading

variable {q : Char}

theorem readBody_close {rest : List Char} (hrest : rest.head? ≠ some q) :
    readBody q (q :: rest) = some ([], rest) := by
  cases rest with
  | nil => simp [readBody]
  | cons next rest =>
      have hnext : next ≠ q := by simpa using hrest
      simp [readBody, hnext]

theorem readBody_ordinary {ch : Char} (hquote : ch ≠ q) (hback : ch ≠ '\\')
    (rest : List Char) :
    readBody q (ch :: rest) =
      (readBody q rest).map fun r => (ch :: r.1, r.2) := by
  rw [readBody.eq_def]
  dsimp only
  rw [if_neg hquote, if_neg hback]

theorem readBody_escape (hq : q ≠ '\\') (next : Char)
    (rest : List Char) :
    readBody q ('\\' :: next :: rest) =
      (readBody q rest).map fun r => (escaped next ++ r.1, r.2) := by
  rw [readBody.eq_def]
  dsimp only
  rw [if_neg hq.symm, if_pos rfl]

theorem readBody_doubled (rest : List Char) :
    readBody q (q :: q :: rest) =
      (readBody q rest).map fun r => (q :: r.1, r.2) := by
  rw [readBody.eq_def]
  dsimp only
  rw [if_pos rfl, if_pos rfl]

theorem readLiteral_eq_some {text : List Char}
    {r : List Char × List Char} (h : readLiteral q text = some r) :
    exists body, text = q :: body ∧ readBody q body = some r := by
  cases text with
  | nil => cases h
  | cons ch body =>
      rw [readLiteral] at h
      split at h
      · rename_i hch
        exact ⟨body, by rw [hch], h⟩
      · cases h

theorem readLiteral_cons (body : List Char) :
    readLiteral q (q :: body) = readBody q body :=
  if_pos rfl

theorem readBody_plain (hq : q ≠ '\\') (rest : List Char)
    (hrest : rest.head? ≠ some q) {s : List Char} (hs : Plain q s) :
    readBody q (s ++ q :: rest) = some (s, rest) := by
  induction hs with
  | nil => exact readBody_close hrest
  | ordinary hquote hback _ ih =>
      rw [List.cons_append, readBody_ordinary hquote hback, ih]
      rfl
  | wildcard hch _ ih =>
      rw [List.cons_append, List.cons_append, readBody_escape hq, ih,
        escaped_of_wildcard hch]
      rfl

/-- What was read is at most as long as its text, and as long only if the text
is plain and stands for itself. -/
structure Reads (q : Char) (text value rest : List Char) : Prop where
  closed : exists raw, text = raw ++ q :: rest ∧
    value.length ≤ raw.length ∧
    (value.length = raw.length -> raw = value ∧ Plain q value)
  ended : rest.head? ≠ some q

theorem Reads.prepend {text value rest front back : List Char}
    (h : Reads q text value rest) (hlength : back.length ≤ front.length)
    (hplain : back.length = front.length -> Plain q value ->
      front = back ∧ Plain q (back ++ value)) :
    Reads q (front ++ text) (back ++ value) rest := by
  rcases h.closed with ⟨raw, htext, hle, heq⟩
  refine ⟨⟨front ++ raw, by simp [htext], ?_, ?_⟩, h.ended⟩
  · simp only [List.length_append]
    omega
  · intro hall
    simp only [List.length_append] at hall
    rcases heq (by omega) with ⟨hraw, hvalue⟩
    rcases hplain (by omega) hvalue with ⟨hfront, hboth⟩
    exact ⟨by rw [hfront, hraw], hboth⟩

theorem Reads.of_map (front back : List Char) {value rest tail : List Char}
    (h : ((readBody q tail).map fun r => (back ++ r.1, r.2)) =
      some (value, rest))
    (ih : forall {v : List Char}, readBody q tail = some (v, rest) ->
      Reads q tail v rest)
    (hlength : back.length ≤ front.length)
    (hplain : forall v, back.length = front.length -> Plain q v ->
      front = back ∧ Plain q (back ++ v)) :
    Reads q (front ++ tail) value rest := by
  rcases Option.map_eq_some_iff.mp h with ⟨⟨v, rest'⟩, htail, heq⟩
  cases heq
  exact (ih htail).prepend hlength (hplain v)

theorem reads_of_readBody {text value rest : List Char}
    (h : readBody q text = some (value, rest)) : Reads q text value rest := by
  induction text using readBody.induct q generalizing value with
  | case1 => simp [readBody] at h
  | case2 =>
      simp only [readBody, if_true, Option.some.injEq, Prod.mk.injEq] at h
      rcases h with ⟨rfl, rfl⟩
      exact ⟨⟨[], rfl, Nat.le_refl _, fun _ => ⟨rfl, .nil⟩⟩, by simp⟩
  | case3 tail ih =>
      rw [readBody_doubled] at h
      apply Reads.of_map [q, q] [q] h ih (by simp)
      intro v hlength
      simp at hlength
  | case4 next tail hnext =>
      rw [readBody_close (by simpa using hnext)] at h
      cases h
      exact ⟨⟨[], rfl, Nat.le_refl _, fun _ => ⟨rfl, .nil⟩⟩,
        by simpa using hnext⟩
  | case5 hback => simp [readBody, hback] at h
  | case6 next tail hback ih =>
      rw [readBody_escape (fun heq => hback heq.symm)] at h
      apply Reads.of_map ['\\', next] _ h ih (escaped_length_le next)
      intro v hlength hv
      have hwildcard := wildcard_of_escaped_length hlength
      rw [escaped_of_wildcard hwildcard]
      exact ⟨rfl, .wildcard hwildcard hv⟩
  | case7 ch tail hquote hback ih =>
      rw [readBody_ordinary hquote hback] at h
      apply Reads.of_map [ch] [ch] h ih (Nat.le_refl _)
      intro v _ hv
      exact ⟨rfl, .ordinary hquote hback hv⟩

theorem readBody_iff_plain (hq : q ≠ '\\') (s rest : List Char)
    (hrest : rest.head? ≠ some q) :
    readBody q (s ++ q :: rest) = some (s, rest) <-> Plain q s := by
  constructor
  · intro h
    rcases (reads_of_readBody h).closed with ⟨raw, htext, _, hsame⟩
    have hlength := congrArg List.length htext
    simp only [List.length_append, List.length_cons] at hlength
    exact (hsame (by omega)).right
  · intro h
    exact readBody_plain hq rest hrest h

theorem Plain.tail {ch : Char} {s : List Char} (h : Plain q (ch :: s))
    (hback : ch ≠ '\\') : Plain q s := by
  cases h with
  | ordinary _ _ hs => exact hs
  | wildcard _ _ => exact absurd rfl hback

theorem Plain.not_mem {s : List Char} (hq : q ≠ '\\' ∧ q ≠ '%' ∧ q ≠ '_')
    (h : Plain q s) : q ∉ s := by
  induction h with
  | nil => simp
  | ordinary hquote _ _ ih =>
      simp only [List.mem_cons, not_or]
      exact ⟨hquote.symm, ih⟩
  | wildcard hch _ ih =>
      simp only [List.mem_cons, not_or]
      refine ⟨hq.left, ?_, ih⟩
      rcases hch with rfl | rfl
      · exact hq.right.left
      · exact hq.right.right

theorem append_quote_inj {s s' rest rest' : List Char} (hs : q ∉ s)
    (hs' : q ∉ s') (h : s ++ q :: rest = s' ++ q :: rest') :
    s = s' ∧ rest = rest' := by
  induction s generalizing s' with
  | nil =>
      cases s' with
      | nil => simpa using h
      | cons ch s' =>
          simp only [List.nil_append, List.cons_append, List.cons.injEq] at h
          simp [h.left] at hs'
  | cons ch s ih =>
      cases s' with
      | nil =>
          simp only [List.nil_append, List.cons_append, List.cons.injEq] at h
          simp [h.left] at hs
      | cons ch' s' =>
          simp only [List.cons_append, List.cons.injEq] at h
          simp only [List.mem_cons, not_or] at hs hs'
          rcases ih hs.right hs'.right h.right with ⟨hrest, htail⟩
          exact ⟨by rw [h.left, hrest], htail⟩

theorem last_quote_inj {front front' rest rest' : List Char}
    (hrest : q ∉ rest) (hrest' : q ∉ rest')
    (h : front ++ q :: rest = front' ++ q :: rest') :
    front = front' ∧ rest = rest' := by
  have hreverse := congrArg List.reverse h
  simp only [List.reverse_append, List.reverse_cons, List.append_assoc,
    List.singleton_append] at hreverse
  rcases append_quote_inj (by simpa using hrest) (by simpa using hrest')
      hreverse with ⟨hleft, hright⟩
  exact ⟨List.reverse_inj.mp hright, List.reverse_inj.mp hleft⟩

end Reading

end Foundation
end BeeGadz
