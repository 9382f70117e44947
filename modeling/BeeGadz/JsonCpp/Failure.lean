import BeeGadz.JsonCpp.Token

/-!
# Failures of the reader

A document is read without an error, or the reader fails with exactly one, whose
locations are in the document.
-/

namespace BeeGadz
namespace JsonCpp
namespace Reader

open Foundation

structure Within (document : Text) (e : ErrorInfo) : Prop where
  start : e.token.start <:+ document
  text : e.token.text <+: e.token.start
  extra : forall location, e.extra = some location -> location <:+ document

/-- The reader has gone on, and has failed with one error or without any. -/
structure Ends {α : Type} (document : Text) (s : Reader)
    (r : Except Unit α × Reader) : Prop where
  current : r.2.current <:+ s.current
  ok : forall a, r.1 = .ok a -> r.2.errors = s.errors
  error : r.1 = .error () ->
    exists e, Within document e ∧ r.2.errors = s.errors ++ [e]

section Steps

variable {α γ : Type} {document : Text} {s : Reader}

theorem ends_ok (a : α) (s : Reader) :
    Ends document s (.ok a, s) where
  current := List.suffix_refl _
  ok := fun _ _ => rfl
  error := fun h => by cases h

theorem Ends.bind {p : ReaderM α} {f : α -> ReaderM γ}
    (hp : Ends document s (p s))
    (hf : forall a s', p s = (.ok a, s') -> Ends document s' (f a s')) :
    Ends document s ((p >>= f) s) := by
  rcases hrun : p s with ⟨result, s'⟩
  rw [hrun] at hp
  cases result with
  | error e =>
      rw [Prog.bind_of_error _ hrun]
      refine ⟨hp.current, fun a h => ?_, fun _ => hp.error rfl⟩
      cases h
  | ok a =>
      rw [Prog.bind_of_ok _ hrun]
      have hrest := hf a s' hrun
      have herrors : s'.errors = s.errors := hp.ok a rfl
      refine ⟨hrest.current.trans hp.current, ?_, ?_⟩
      · intro b hb
        rw [hrest.ok b hb, herrors]
      · intro herror
        rcases hrest.error herror with ⟨e, he, happend⟩
        exact ⟨e, he, by rw [happend, herrors]⟩

theorem Ends.of_suffix {text : Text} {r : Except Unit α × Reader}
    (h : Ends document { s with current := text } r)
    (htext : text <:+ s.current) : Ends document s r where
  current := h.current.trans htext
  ok := h.ok
  error := h.error

theorem ends_addError {message : Text} {token : Token} {extra : Option Text}
    (h : Within document ⟨token, message, extra⟩) :
    Ends document s (addError message token extra s : Except Unit α × Reader)
    where
  current := List.suffix_refl _
  ok := fun _ h => by cases h
  error := fun _ => ⟨_, h, rfl⟩

theorem Ends.orRecover {p : ReaderM α} (hp : Ends document s (p s))
    (type : TokenType) : Ends document s (orRecover p type s) := by
  rcases hrun : p s with ⟨result, s'⟩
  rw [hrun] at hp
  cases result with
  | ok a =>
      rw [Reader.orRecover, Prog.catching_of_ok _ hrun]
      exact hp
  | error e =>
      rw [Reader.orRecover, Prog.catching_of_error _ hrun]
      refine ⟨(skipUntil_suffix _ _ _).trans hp.current, fun a h => ?_,
        fun _ => hp.error rfl⟩
      cases h

theorem ends_addErrorAndRecover {message : String} {token : Token}
    {type : TokenType} (h : Within document ⟨token, message.toList, none⟩) :
    Ends document s
      (addErrorAndRecover message token type s : Except Unit α × Reader) := by
  have hfails : Ends document s
      (addError message.toList token none s : Except Unit α × Reader) :=
    ends_addError h
  exact hfails.orRecover type

end Steps

/-!
## Strings
-/

/-- What is left behind something that was decoded, and where an error is. -/
structure Located {α : Type} (text : Text) (r : Except Problem (α × Text)) :
    Prop where
  rest : forall x, r = .ok x -> x.2 <:+ text
  error : forall e, r = .error e -> e.2 <:+ text

section Located

variable {α γ : Type} {text : Text}

theorem located_ok {a : α} {rest : Text} (h : rest <:+ text) :
    Located text (.ok (a, rest)) where
  rest := by
    intro x hx
    rw [← Except.ok.inj hx]
    exact h
  error := fun _ h => by cases h

theorem located_error {message : String} {location : Text}
    (h : location <:+ text) :
    Located text (.error (message, location) : Except Problem (α × Text)) where
  rest := fun _ h => by cases h
  error := by
    intro e he
    rw [← Except.error.inj he]
    exact h

theorem Located.of_suffix {behind : Text} {r : Except Problem (α × Text)}
    (h : Located behind r) (hbehind : behind <:+ text) : Located text r where
  rest := fun x hx => (h.rest x hx).trans hbehind
  error := fun e he => (h.error e he).trans hbehind

theorem Located.bind {r : Except Problem (α × Text)}
    {f : α × Text -> Except Problem (γ × Text)} (h : Located text r)
    (hf : forall x, r = .ok x -> Located text (f x)) :
    Located text (r >>= f) := by
  cases r with
  | error e =>
      exact located_error (h.error e rfl)
  | ok x => exact hf x rfl

end Located

theorem located_decodeHex (n unicode : Nat) (text : Text) :
    Located text (decodeHex n unicode text) := by
  induction n generalizing unicode text with
  | zero => exact located_ok (List.suffix_refl text)
  | succ n ih =>
      have htail : text.tail <:+ text := List.tail_suffix text
      rw [decodeHex]
      split
      · exact (ih _ _).of_suffix htail
      · exact located_error htail

theorem located_decodeUnicodeEscapeSequence (text : Text) :
    Located text (decodeUnicodeEscapeSequence text) := by
  unfold decodeUnicodeEscapeSequence
  split
  · exact located_error (List.suffix_refl text)
  · exact located_decodeHex 4 0 text

theorem located_decodeUnicodeCodePoint (text : Text) :
    Located text (decodeUnicodeCodePoint text) := by
  have hfirst := located_decodeUnicodeEscapeSequence text
  apply hfirst.bind
  rintro ⟨unicode, behind⟩ hok
  have hbehind : behind <:+ text := hfirst.rest _ hok
  have htail : behind.tail <:+ text := (List.tail_suffix _).trans hbehind
  have hsecond : behind.tail.tail <:+ text :=
    (List.tail_suffix _).trans htail
  show Located text (if 0xD800 ≤ unicode ∧ unicode ≤ 0xDBFF then _ else _)
  split
  · split
    · exact located_error hbehind
    · split
      · exact located_error htail
      · split
        · exact located_error hsecond
        · have hpair :=
            (located_decodeUnicodeEscapeSequence behind.tail.tail).of_suffix
              hsecond
          apply hpair.bind
          intro x hx
          exact located_ok (hpair.rest x hx)
  · exact located_ok hbehind

theorem located_decodeEscape (escape : Char) (text : Text) :
    Located text (decodeEscape escape text) := by
  unfold decodeEscape
  split
  case h_9 =>
    have hpoint := located_decodeUnicodeCodePoint text
    apply hpoint.bind
    intro x hx
    exact located_ok (hpoint.rest x hx)
  case h_10 => exact located_error (List.suffix_refl text)
  all_goals exact located_ok (List.suffix_refl text)

theorem decodeChars_error {n : Nat} {text : Text} {e : Problem}
    (h : decodeChars n text = .error e) : e.2 <:+ text := by
  induction n generalizing text with
  | zero => cases h
  | succ n ih =>
      cases text with
      | nil => cases h
      | cons c text =>
          have hcons : text <:+ c :: text := List.suffix_cons c text
          unfold decodeChars at h
          split at h
          · cases h
          · split at h
            · cases text with
              | nil =>
                  rw [← Except.error.inj h]
                  exact List.nil_suffix
              | cons escape text =>
                  have hbehind : text <:+ c :: escape :: text :=
                    (List.suffix_cons _ _).trans hcons
                  have hescape := (located_decodeEscape escape text).of_suffix
                    hbehind
                  cases hone : decodeEscape escape text with
                  | error problem =>
                      simp only [hone, bind, Except.bind] at h
                      rw [← Except.error.inj h]
                      exact hescape.error _ hone
                  | ok x =>
                      simp only [hone, bind, Except.bind] at h
                      have hx : x.2 <:+ c :: escape :: text :=
                        hescape.rest _ hone
                      cases hrest : decodeChars n x.2 with
                      | error problem =>
                          rw [hrest] at h
                          rw [Except.error.inj h] at hrest
                          exact (ih hrest).trans hx
                      | ok decoded =>
                          rw [hrest] at h
                          cases h
            · cases hrest : decodeChars n text with
              | error problem =>
                  simp only [hrest, bind, Except.bind] at h
                  rw [Except.error.inj h] at hrest
                  exact (ih hrest).trans hcons
              | ok decoded =>
                  simp only [hrest, bind, Except.bind] at h
                  cases h

/-!
## Tokens
-/

structure Lies (document : Text) (token : Token) : Prop where
  start : token.start <:+ document
  text : token.text <+: token.start

section Tokens

variable {γ : Type} {document : Text} {s : Reader} {token : Token}

theorem Lies.text_tail (h : Lies document token) :
    token.text.tail <+: token.start.tail := by
  rw [← List.drop_one, ← List.drop_one]
  exact h.text.drop 1

theorem Lies.within (h : Lies document token) (message : Text) :
    Within document ⟨token, message, none⟩ where
  start := h.start
  text := h.text
  extra := fun _ h => by cases h

theorem ends_next {read : Text -> Token × Text} {f : Token -> ReaderM γ}
    (hdocument : s.current <:+ document)
    (hread : Reads s.current (read s.current))
    (hf : forall token s', Lies document token -> s'.current <:+ s.current ->
      (token.type ≠ .endOfStream ->
        s'.current.length < s.current.length) ->
      Ends document s' (f token s')) :
    Ends document s ((next read >>= f) s) := by
  have hnext : Ends document s (next read s) :=
    { current := hread.rest
      ok := fun _ _ => rfl
      error := fun h => by cases h }
  apply hnext.bind
  intro token s' hrun
  rcases Prod.mk.inj hrun with ⟨htoken, hstate⟩
  rw [← Except.ok.inj htoken, ← hstate]
  apply hf
  · exact ⟨hread.start.trans hdocument, _, hread.piece⟩
  · exact hread.rest
  · exact hread.length

theorem ends_skipCommentTokens {f : Token -> ReaderM γ}
    (hdocument : s.current <:+ document)
    (hf : forall token s', Lies document token -> s'.current <:+ s.current ->
      (token.type ≠ .endOfStream ->
        s'.current.length < s.current.length) ->
      Ends document s' (f token s')) :
    Ends document s ((skipCommentTokens >>= f) s) :=
  ends_next hdocument (reads_skipComments _ _) hf

theorem ends_decodeDouble (h : Lies document token) (s : Reader) :
    Ends document s (decodeDouble token s) := by
  cases hscan : scanDouble token.text with
  | some value =>
      rw [decodeDouble, hscan]
      exact ends_ok _ s
  | none =>
      rw [decodeDouble, hscan]
      exact ends_addError (h.within _)

theorem ends_decodeNumber (h : Lies document token) (s : Reader) :
    Ends document s (decodeNumber token s) := by
  unfold decodeNumber
  split
  · exact ends_decodeDouble h s
  · simp only
    generalize decodeDigits _ _ 0 = decoded
    cases decoded with
    | notNumber => exact ends_addError (h.within _)
    | large => exact ends_decodeDouble h s
    | value n =>
        simp only
        split
        · exact ends_ok _ s
        · split
          · exact ends_ok _ s
          · exact ends_ok _ s

theorem ends_decodeString (h : Lies document token) (s : Reader) :
    Ends document s (decodeString token s) := by
  have hinside : token.text.tail.dropLast <+: token.start.tail :=
    (List.dropLast_prefix _).trans h.text_tail
  unfold decodeString
  generalize token.text.tail.dropLast = inside at hinside
  cases hdecoded : decodeChars inside.length inside with
  | ok decoded =>
      exact ends_ok _ s
  | error e =>
      apply ends_addError
      refine ⟨h.start, h.text, ?_⟩
      intro location hlocation
      rw [← Option.some.inj hlocation]
      apply List.IsSuffix.trans ?_ h.start
      rcases decodeChars_error hdecoded with ⟨front, hfront⟩
      rcases hinside with ⟨close, hclose⟩
      have hdrop : token.start.drop (inside.length + 1) = close := by
        rw [Nat.add_comm, ← List.drop_drop, List.drop_one, ← hclose,
          List.drop_left]
      rw [hdrop]
      apply List.IsSuffix.trans ?_ (List.tail_suffix token.start)
      exact ⟨front, by rw [← hclose, ← hfront, List.append_assoc]⟩

end Tokens

/-!
## Values

Every call has enough fuel for the characters that are left, so that what fails
has an error.
-/

structure Fails (document : Text) (fuel : Nat) : Prop where
  value : forall s : Reader, s.current <:+ document ->
    3 * s.current.length + 1 ≤ fuel -> Ends document s (readValue fuel s)
  object : forall (name : Text) (members : Members) (s : Reader),
    s.current <:+ document -> 3 * s.current.length + 2 ≤ fuel ->
      Ends document s (readObject fuel name members s)
  array : forall s : Reader, s.current <:+ document ->
    3 * s.current.length + 3 ≤ fuel -> Ends document s (readArray fuel s)
  elements : forall (elements : List Value) (s : Reader),
    s.current <:+ document -> 3 * s.current.length + 2 ≤ fuel ->
      Ends document s (readElements fuel elements s)

section Values

variable {document : Text} {fuel : Nat} {s : Reader}

theorem Fails.readValue (h : Fails document fuel)
    (hdocument : s.current <:+ document)
    (hfuel : 3 * s.current.length + 1 ≤ fuel + 1) :
    Ends document s (readValue (fuel + 1) s) := by
  unfold Reader.readValue
  apply ends_skipCommentTokens hdocument
  intro token s' htoken hrest hlength
  have hdocument' := hrest.trans hdocument
  cases htype : token.type with
  | objectBegin =>
      have hless := hlength (by rw [htype]; decide)
      exact h.object [] [] s' hdocument' (by omega)
  | arrayBegin =>
      have hless := hlength (by rw [htype]; decide)
      exact h.array s' hdocument' (by omega)
  | number => exact ends_decodeNumber htoken s'
  | string =>
      apply (ends_decodeString htoken s').bind
      intro decoded s'' hrun
      exact ends_ok _ s''
  | isTrue => exact ends_ok _ s'
  | isFalse => exact ends_ok _ s'
  | null => exact ends_ok _ s'
  | endOfStream => exact ends_addError (htoken.within _)
  | objectEnd => exact ends_addError (htoken.within _)
  | arrayEnd => exact ends_addError (htoken.within _)
  | arraySeparator => exact ends_addError (htoken.within _)
  | memberSeparator => exact ends_addError (htoken.within _)
  | comment => exact ends_addError (htoken.within _)
  | error => exact ends_addError (htoken.within _)

theorem Fails.readObject (h : Fails document fuel) (name : Text)
    (members : Members) (hdocument : s.current <:+ document)
    (hfuel : 3 * s.current.length + 2 ≤ fuel + 1) :
    Ends document s (readObject (fuel + 1) name members s) := by
  unfold Reader.readObject
  apply ends_skipCommentTokens hdocument
  intro tokenName s₁ hname hrest₁ hlength
  have hdocument₁ := hrest₁.trans hdocument
  split
  · exact ends_ok _ s₁
  · split
    · rename_i hstring
      have hless := hlength (by rw [hstring]; decide)
      apply ((ends_decodeString hname s₁).orRecover _).bind
      intro decoded s₂ hrun₂
      have hrest₂ := ((ends_decodeString hname s₁).orRecover
        .objectEnd).current
      rw [hrun₂] at hrest₂
      apply ends_next (hrest₂.trans hdocument₁) (reads_readToken _)
      intro colon s₃ hcolon hrest₃ _
      have hdocument₃ := hrest₃.trans (hrest₂.trans hdocument₁)
      have hle₃ := (hrest₃.trans hrest₂).length_le
      split
      · exact ends_addErrorAndRecover (hcolon.within _)
      · have hvalue := (h.value s₃ hdocument₃ (by omega)).orRecover .objectEnd
        apply hvalue.bind
        intro value s₄ hrun₄
        have hrest₄ := hvalue.current
        rw [hrun₄] at hrest₄
        apply ends_next (hrest₄.trans hdocument₃) (reads_readToken _)
        intro comma s₅ hcomma hrest₅ _
        have hdocument₅ := hrest₅.trans (hrest₄.trans hdocument₃)
        have hle₅ := (hrest₅.trans hrest₄).length_le
        split
        · exact ends_addErrorAndRecover (hcomma.within _)
        · split
          · apply ends_skipCommentTokens hdocument₅
            intro comma s₆ _ hrest₆ _
            have hle₆ := hrest₆.length_le
            dsimp only
            split
            · exact ends_ok _ s₆
            · exact h.object _ _ s₆ (hrest₆.trans hdocument₅) (by omega)
          · show Ends document s₅
              ((if comma.type = .objectEnd then _ else _ : ReaderM Value) s₅)
            split
            · exact ends_ok _ s₅
            · exact h.object _ _ s₅ hdocument₅ (by omega)
    · exact ends_addErrorAndRecover (hname.within _)

theorem Fails.readArray (h : Fails document fuel)
    (hdocument : s.current <:+ document)
    (hfuel : 3 * s.current.length + 3 ≤ fuel + 1) :
    Ends document s (readArray (fuel + 1) s) := by
  have hspaces := skipSpaces_suffix s.current
  have hdocument' := hspaces.trans hdocument
  have hle := hspaces.length_le
  apply Ends.of_suffix ?_ hspaces
  unfold Reader.readArray
  show Ends document { s with current := skipSpaces s.current }
    ((if peek (skipSpaces s.current) = ']' then _ else _ : ReaderM Value)
      { s with current := skipSpaces s.current })
  split
  · apply ends_next hdocument' (reads_readToken _)
    intro token s' _ _ _
    exact ends_ok _ s'
  · apply h.elements [] _ hdocument'
    show 3 * (skipSpaces s.current).length + 2 ≤ fuel
    omega

theorem Fails.readElements (h : Fails document fuel) (elements : List Value)
    (hdocument : s.current <:+ document)
    (hfuel : 3 * s.current.length + 2 ≤ fuel + 1) :
    Ends document s (readElements (fuel + 1) elements s) := by
  have hvalue := (h.value s hdocument (by omega)).orRecover .arrayEnd
  unfold Reader.readElements
  apply hvalue.bind
  intro value s₁ hrun₁
  have hrest₁ := hvalue.current
  rw [hrun₁] at hrest₁
  have hle₁ := hrest₁.length_le
  apply ends_skipCommentTokens (hrest₁.trans hdocument)
  intro token s₂ htoken hrest₂ hlength
  split
  · exact ends_addErrorAndRecover (htoken.within _)
  · split
    · exact ends_ok _ s₂
    · rename_i hkind hend
      have hseparator : token.type = .arraySeparator := by
        by_contra hne
        exact hkind ⟨hne, hend⟩
      have hless := hlength (by rw [hseparator]; decide)
      exact h.elements _ s₂ (hrest₂.trans (hrest₁.trans hdocument))
        (by omega)

end Values

theorem fails (document : Text) (fuel : Nat) : Fails document fuel := by
  induction fuel with
  | zero =>
      constructor
      · intro s _ h
        omega
      · intro _ _ s _ h
        omega
      · intro s _ h
        omega
      · intro _ s _ h
        omega
  | succ fuel ih =>
      constructor
      · intro s hdocument hfuel
        exact ih.readValue hdocument hfuel
      · intro name members s hdocument hfuel
        exact ih.readObject name members hdocument hfuel
      · intro s hdocument hfuel
        exact ih.readArray hdocument hfuel
      · intro elements s hdocument hfuel
        exact ih.readElements elements hdocument hfuel

/-- A document is read without an error, or there is exactly one error, and what
it points at is in the document. -/
theorem parse_errors (document : Text) :
    (exists v, (parse document).1 = .ok v ∧ (parse document).2.errors = []) ∨
      (parse document).1 = .error () ∧
        exists e, (parse document).2.errors = [e] ∧ Within document e := by
  have hends := (fails document (3 * document.length + 1)).value
    ⟨document, []⟩ (List.suffix_refl document) (le_refl _)
  cases hrun : (parse document).1 with
  | ok v => exact Or.inl ⟨v, rfl, hends.ok v hrun⟩
  | error e =>
      rcases hends.error hrun with ⟨e, he, herrors⟩
      exact Or.inr ⟨rfl, e, herrors, he⟩

end Reader
end JsonCpp
end BeeGadz
