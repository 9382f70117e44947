import BeeGadz.Foundation.Guarded

/-!
# Edits that are written back

A cache of blocks is edited and, now and then, written back.  No edit is written
twice when a block that was written is only written again after another edit.
-/

namespace BeeGadz
namespace Foundation

/-- What is done to a cache: a block is edited, or a flush succeeds and writes
the blocks that are listed. -/
inductive Deed (κ : Type) where
  | edit (k : κ)
  | flush (written : List κ)
deriving DecidableEq

namespace Deed

variable {κ : Type}

/-- Between two flushes that both write a block it is edited. -/
def WrittenOnce (deeds : List (Deed κ)) : Prop :=
  forall front first middle second back,
    deeds = front ++ .flush first :: (middle ++ .flush second :: back) ->
    forall k, k ∈ first -> k ∈ second -> .edit k ∈ middle

def Owned (before : List (Deed κ)) : Deed κ -> Prop
  | .edit _ => True
  | .flush written => forall k, k ∈ written -> .edit k ∈ before

theorem Owned.grow {front before : List (Deed κ)} {d : Deed κ}
    (h : Owned before d) : Owned (front ++ before) d := by
  cases d with
  | edit k => trivial
  | flush written =>
      intro k hk
      exact List.mem_append_right front (h k hk)

def Grounded (deeds : List (Deed κ)) : Prop :=
  Guarded Owned deeds

theorem WrittenOnce.left {first second : List (Deed κ)}
    (h : WrittenOnce (first ++ second)) : WrittenOnce first := by
  intro front w middle w' back hfirst
  apply h front w middle w' (back ++ second)
  simp [hfirst]

theorem WrittenOnce.right {first second : List (Deed κ)}
    (h : WrittenOnce (first ++ second)) : WrittenOnce second := by
  intro front w middle w' back hsecond
  apply h (first ++ front) w middle w' back
  simp [hsecond]

theorem Grounded.flush {deeds : List (Deed κ)} (h : Grounded deeds)
    {written : List κ} (hown : forall k, k ∈ written -> .edit k ∈ deeds) :
    Grounded (deeds ++ [.flush written]) :=
  guarded_snoc h hown

end Deed

end Foundation
end BeeGadz
