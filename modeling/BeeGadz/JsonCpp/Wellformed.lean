import BeeGadz.JsonCpp.Numbers

/-!
# What is read

The values that the reader returns are those that `Json::Value` can hold: texts
without a zero, numbers in their ranges, and the members of an object in the order
of their names.
-/

namespace BeeGadz
namespace JsonCpp

open Foundation

inductive Value.Wellformed : Value -> Prop where
  | null : Wellformed .null
  | int {n : Int} (hmin : -2 ^ 63 ≤ n) (hmax : n ≤ 2147483647) :
      Wellformed (.int n)
  | uint {n : Nat} (hmin : 2147483647 < n) (hmax : n ≤ 2 ^ 64 - 1) :
      Wellformed (.uint n)
  | real (x : Double) : Wellformed (.real x)
  | string {s : Text} (h : cString s = s) : Wellformed (.string s)
  | bool (b : Bool) : Wellformed (.bool b)
  | array {elements : List Value}
      (h : forall v, v ∈ elements -> Wellformed v) :
      Wellformed (.array elements)
  | object {members : Members} (hordered : Sorted.Ordered members)
      (hnames : forall m, m ∈ members -> cString m.1 = m.1)
      (hvalues : forall m, m ∈ members -> Wellformed m.2) :
      Wellformed (.object members)

structure Members.Wellformed (members : Members) : Prop where
  ordered : Sorted.Ordered members
  names : forall m, m ∈ members -> cString m.1 = m.1
  values : forall m, m ∈ members -> m.2.Wellformed

theorem Members.Wellformed.object {members : Members}
    (h : Members.Wellformed members) : (Value.object members).Wellformed :=
  Value.Wellformed.object h.ordered h.names h.values

theorem Members.wellformed_nil : Members.Wellformed [] where
  ordered := List.Pairwise.nil
  names := fun _ hm => by cases hm
  values := fun _ hm => by cases hm

theorem Members.Wellformed.insert {members : Members}
    (h : Members.Wellformed members) (name : Text) {v : Value}
    (hv : v.Wellformed) :
    Members.Wellformed (Sorted.insert (cString name) v members) where
  ordered := Sorted.ordered_insert _ _ h.ordered
  names := by
    intro m hm
    cases Sorted.mem_insert hm with
    | inl heq =>
        rw [heq]
        exact cString_cString name
    | inr hmem => exact h.names m hmem
  values := by
    intro m hm
    cases Sorted.mem_insert hm with
    | inl heq =>
        rw [heq]
        exact hv
    | inr hmem => exact h.values m hmem

namespace Reader

/-!
## Numbers
-/

theorem decodeDigits_le {max value n : Nat} {text : Text}
    (h : decodeDigits max text value = .value n) (hvalue : value ≤ max) :
    n ≤ max := by
  induction text generalizing value with
  | nil =>
      rw [decodeDigits] at h
      rw [← Decoded.value.inj h]
      exact hvalue
  | cons c text ih =>
      rw [decodeDigits] at h
      split at h
      · cases h
      · rename_i hdigit
        have hnine : c.toNat - '0'.toNat ≤ 9 := by
          have hle : c ≤ '9' := not_lt.mp fun hless => hdigit (Or.inr hless)
          have hnat : c.toNat ≤ '9'.toNat := hle
          have hzero : '0'.toNat = 48 := rfl
          have htop : '9'.toNat = 57 := rfl
          omega
        simp only at h
        split at h
        · cases h
        · rename_i hsmall
          apply ih h
          by_contra hover
          apply hsmall
          refine ⟨by omega, ?_⟩
          by_cases hequal : value > max / 10
          · exact Or.inl hequal
          · exact Or.inr (Or.inr (by omega))

theorem returns_decodeNumber (token : Token) :
    Prog.Returns Value.Wellformed (decodeNumber token) := by
  have hfails (message : Text) :
      Prog.Returns Value.Wellformed (addError message token none) :=
    Prog.returns_fails fun _ _ h => by cases h
  have hdouble : Prog.Returns Value.Wellformed (decodeDouble token) := by
    unfold decodeDouble
    split
    · exact Prog.returns_pure (Value.Wellformed.real _)
    · exact hfails _
  unfold decodeNumber
  refine Prog.returns_ite hdouble ?_
  simp only
  split
  · exact hfails _
  · exact hdouble
  · rename_i n hdigits
    split
    · rename_i hnegative
      rw [if_pos hnegative] at hdigits
      have hle := decodeDigits_le hdigits (Nat.zero_le _)
      unfold maxNegative at hle
      apply Prog.returns_pure
      apply Value.Wellformed.int
      · omega
      · omega
    · rename_i hnegative
      rw [if_neg hnegative] at hdigits
      have hle := decodeDigits_le hdigits (Nat.zero_le _)
      unfold maxLargestUInt at hle
      split
      · apply Prog.returns_pure
        apply Value.Wellformed.int
        · omega
        · omega
      · apply Prog.returns_pure
        exact Value.Wellformed.uint (by omega) hle

/-!
## Values
-/

structure ReturnsWellformed (fuel : Nat) : Prop where
  value : Prog.Returns Value.Wellformed (readValue fuel)
  object : forall (name : Text) (members : Members),
    Members.Wellformed members ->
      Prog.Returns Value.Wellformed (readObject fuel name members)
  array : Prog.Returns Value.Wellformed (readArray fuel)
  elements : forall elements : List Value,
    (forall v, v ∈ elements -> v.Wellformed) ->
      Prog.Returns Value.Wellformed (readElements fuel elements)

section Values

variable {α : Type} {Q : α -> Prop}

theorem returns_addError (message : Text) (token : Token)
    (extra : Option Text) :
    Prog.Returns Q (addError message token extra) :=
  Prog.returns_fails fun _ _ h => by cases h

theorem returns_orRecover {p : ReaderM α} (hp : Prog.Returns Q p)
    (type : TokenType) : Prog.Returns Q (orRecover p type) :=
  Prog.returns_catching hp fun _ =>
    Prog.returns_fails fun _ _ h => by cases h

theorem returns_addErrorAndRecover (message : String) (token : Token)
    (type : TokenType) :
    Prog.Returns Q (addErrorAndRecover message token type) :=
  returns_orRecover (returns_addError _ _ _) type

end Values

variable {fuel : Nat}

theorem ReturnsWellformed.readValue (h : ReturnsWellformed fuel) :
    Prog.Returns Value.Wellformed (readValue (fuel + 1)) := by
  unfold Reader.readValue
  apply Prog.returns_then
  intro token
  split
  · exact h.object [] [] Members.wellformed_nil
  · exact h.array
  · exact returns_decodeNumber token
  · apply Prog.returns_then
    intro decoded
    exact Prog.returns_pure (Value.Wellformed.string (cString_cString decoded))
  · exact Prog.returns_pure (Value.Wellformed.bool true)
  · exact Prog.returns_pure (Value.Wellformed.bool false)
  · exact Prog.returns_pure Value.Wellformed.null
  · exact returns_addError _ _ _

theorem ReturnsWellformed.readObject (h : ReturnsWellformed fuel)
    (name : Text) {members : Members} (hmembers : Members.Wellformed members) :
    Prog.Returns Value.Wellformed (readObject (fuel + 1) name members) := by
  unfold Reader.readObject
  apply Prog.returns_then
  intro tokenName
  refine Prog.returns_ite (Prog.returns_pure hmembers.object) ?_
  refine Prog.returns_ite ?_ (returns_addErrorAndRecover _ _ _)
  apply Prog.returns_then
  intro name
  apply Prog.returns_then
  intro colon
  refine Prog.returns_ite (returns_addErrorAndRecover _ _ _) ?_
  refine Prog.returns_bind (returns_orRecover h.value _) ?_
  intro value hvalue
  have hinsert := hmembers.insert name hvalue
  have hend (comma : Token) : Prog.Returns Value.Wellformed
      (if comma.type = .objectEnd then
        pure (.object (Sorted.insert (cString name) value members))
      else
        Reader.readObject fuel name
          (Sorted.insert (cString name) value members)) :=
    Prog.returns_ite (Prog.returns_pure hinsert.object)
      (h.object name _ hinsert)
  apply Prog.returns_then
  intro comma
  split
  · exact returns_addErrorAndRecover _ _ _
  · split
    · exact Prog.returns_then hend
    · exact Prog.returns_then hend

theorem ReturnsWellformed.readArray (h : ReturnsWellformed fuel) :
    Prog.Returns Value.Wellformed (readArray (fuel + 1)) := by
  have hempty : forall v, v ∈ ([] : List Value) -> v.Wellformed :=
    fun _ hv => by cases hv
  unfold Reader.readArray
  apply Prog.returns_then
  intro _
  apply Prog.returns_then
  intro s
  refine Prog.returns_ite ?_ (h.elements [] hempty)
  apply Prog.returns_then
  intro _
  exact Prog.returns_pure (Value.Wellformed.array hempty)

theorem ReturnsWellformed.readElements (h : ReturnsWellformed fuel)
    {elements : List Value} (helements : forall v, v ∈ elements -> v.Wellformed) :
    Prog.Returns Value.Wellformed (readElements (fuel + 1) elements) := by
  unfold Reader.readElements
  refine Prog.returns_bind (returns_orRecover h.value _) ?_
  intro value hvalue
  have hall : forall v, v ∈ elements ++ [value] -> v.Wellformed := by
    intro v hv
    cases List.mem_append.mp hv with
    | inl hmem => exact helements v hmem
    | inr heq =>
        rw [List.mem_singleton.mp heq]
        exact hvalue
  apply Prog.returns_then
  intro token
  split
  · exact returns_addErrorAndRecover _ _ _
  · split
    · exact Prog.returns_pure (Value.Wellformed.array hall)
    · exact h.elements _ hall

theorem returnsWellformed (fuel : Nat) : ReturnsWellformed fuel := by
  induction fuel with
  | zero =>
      constructor
      · exact Prog.returns_fails fun _ _ h => by cases h
      · exact fun _ _ _ => Prog.returns_fails fun _ _ h => by cases h
      · exact Prog.returns_fails fun _ _ h => by cases h
      · exact fun _ _ => Prog.returns_fails fun _ _ h => by cases h
  | succ fuel ih =>
      constructor
      · exact ih.readValue
      · exact fun name members hmembers => ih.readObject name hmembers
      · exact ih.readArray
      · exact fun elements helements => ih.readElements helements

theorem parse_wellformed {document : Text} {v : Value}
    (h : (parse document).1 = .ok v) : v.Wellformed := by
  apply (returnsWellformed _).value ⟨document, []⟩ v _
  exact Prod.ext h rfl

end Reader
end JsonCpp
end BeeGadz
