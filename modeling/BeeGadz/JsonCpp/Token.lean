import BeeGadz.JsonCpp.Reader

/-!
# Tokens

What is read as a token is a piece of the text, and every token but the end of
the document has a character.
-/

namespace BeeGadz
namespace JsonCpp
namespace Reader

open Foundation

/-!
## Pieces of the text
-/

theorem skipSpaces_suffix (text : Text) : skipSpaces text <:+ text :=
  List.dropWhile_suffix _

theorem before_append {text rest : Text} (h : rest <:+ text) :
    before text rest ++ rest = text := by
  rcases h with ⟨front, rfl⟩
  rw [before, List.length_append, Nat.add_sub_cancel, List.take_left]

theorem match_suffix (pattern text : Text) :
    («match» pattern text).2 <:+ text := by
  unfold «match»
  split
  · exact List.drop_suffix _ _
  · exact List.suffix_refl text

theorem readCStyleComment_suffix (text : Text) :
    (readCStyleComment text).2 <:+ text := by
  induction text with
  | nil => exact List.suffix_refl []
  | cons c text ih =>
      rw [readCStyleComment]
      split
      · exact (List.tail_suffix text).trans (List.suffix_cons c text)
      · exact ih.trans (List.suffix_cons c text)

theorem readCppStyleComment_suffix (text : Text) :
    readCppStyleComment text <:+ text := by
  induction text with
  | nil => exact List.suffix_refl []
  | cons c text ih =>
      rw [readCppStyleComment]
      split
      · exact List.suffix_cons c text
      · exact ih.trans (List.suffix_cons c text)

theorem readComment_suffix (text : Text) : (readComment text).2 <:+ text := by
  have htail : (getNextChar text).2 <:+ text := List.tail_suffix text
  unfold readComment
  simp only
  split
  · exact (readCStyleComment_suffix _).trans htail
  · split
    · exact (readCppStyleComment_suffix _).trans htail
    · exact htail

theorem readString_suffix (text : Text) : (readString text).2 <:+ text := by
  induction text using readString.induct with
  | case1 => exact List.suffix_refl []
  | case2 text => exact List.suffix_cons _ text
  | case3 => exact List.suffix_cons _ []
  | case4 c text ih =>
      rw [readString]
      exact ih.trans ((List.suffix_cons c text).trans (List.suffix_cons _ _))
  | case5 c text hquote hlast hbackslash ih =>
      rw [readString]
      · exact ih.trans (List.suffix_cons c text)
      · exact hquote
      · exact hlast
      · exact hbackslash

theorem scan_suffix (c : Char) (text : Text) : (scan c text).2 <:+ text := by
  unfold scan
  split
  case h_5 => exact readString_suffix text
  case h_6 => exact readComment_suffix text
  case h_7 => exact match_suffix _ text
  case h_8 => exact match_suffix _ text
  case h_9 => exact match_suffix _ text
  case h_13 =>
    split
    · exact List.dropWhile_suffix _
    · exact List.suffix_refl text
  all_goals exact List.suffix_refl text

/-!
## The next token
-/

theorem readToken_start (text : Text) :
    (readToken text).1.start = skipSpaces text := rfl

theorem readToken_rest (text : Text) :
    (readToken text).2 <:+ skipSpaces text :=
  (scan_suffix _ _).trans (List.tail_suffix _)

theorem readToken_suffix (text : Text) : (readToken text).2 <:+ text :=
  (readToken_rest text).trans (skipSpaces_suffix text)

theorem readToken_text (text : Text) :
    (readToken text).1.text ++ (readToken text).2 = (readToken text).1.start :=
  before_append (readToken_rest text)

theorem readToken_length {text : Text}
    (h : (readToken text).1.type ≠ .endOfStream) :
    (readToken text).2.length < text.length := by
  have hspaces := (skipSpaces_suffix text).length_le
  cases hstart : skipSpaces text with
  | nil =>
      have htoken : (readToken text).1.type = .endOfStream := by
        show (scan (peek (skipSpaces text)) (skipSpaces text).tail).1 = _
        rw [hstart]
        rfl
      exact absurd htoken h
  | cons c rest =>
      have hrest : (readToken text).2 = (scan c rest).2 := by
        show (scan (peek (skipSpaces text)) (skipSpaces text).tail).2 = _
        rw [hstart]
        rfl
      have hscan := (scan_suffix c rest).length_le
      rw [hstart, List.length_cons] at hspaces
      rw [hrest]
      omega

/-- The piece of the text that a token is, with what is read next behind it. -/
structure Reads (text : Text) (r : Token × Text) : Prop where
  start : r.1.start <:+ text
  rest : r.2 <:+ text
  piece : r.1.text ++ r.2 = r.1.start
  length : r.1.type ≠ .endOfStream -> r.2.length < text.length

theorem reads_readToken (text : Text) : Reads text (readToken text) where
  start := skipSpaces_suffix text
  rest := readToken_suffix text
  piece := readToken_text text
  length := readToken_length

theorem Reads.of_suffix {text behind : Text} {r : Token × Text}
    (h : Reads behind r) (hbehind : behind <:+ text) : Reads text r where
  start := h.start.trans hbehind
  rest := h.rest.trans hbehind
  piece := h.piece
  length := fun htype => (h.length htype).trans_le hbehind.length_le

theorem reads_skipComments (n : Nat) (text : Text) :
    Reads text (skipComments n text) := by
  induction n generalizing text with
  | zero => exact reads_readToken text
  | succ n ih =>
      rw [skipComments]
      split
      · exact (ih _).of_suffix (readToken_suffix text)
      · exact reads_readToken text

/-- The rounds that there are characters for end behind the comments. -/
theorem skipComments_type {n : Nat} {text : Text} (h : text.length ≤ n) :
    (skipComments n text).1.type ≠ .comment := by
  induction n generalizing text with
  | zero =>
      rw [List.eq_nil_of_length_eq_zero (Nat.le_zero.mp h)]
      decide
  | succ n ih =>
      rw [skipComments]
      split
      · rename_i hcomment
        apply ih
        have hne : (readToken text).1.type ≠ .endOfStream := by
          rw [hcomment]
          decide
        have hlength := readToken_length hne
        omega
      · rename_i hcomment
        exact hcomment

theorem skipUntil_suffix (type : TokenType) (n : Nat) (text : Text) :
    skipUntil type n text <:+ text := by
  induction n generalizing text with
  | zero => exact List.suffix_refl text
  | succ n ih =>
      rw [skipUntil]
      split
      · exact readToken_suffix text
      · exact (ih _).trans (readToken_suffix text)

end Reader
end JsonCpp
end BeeGadz
