import BeeGadz.Foundation.WriteBack
import BeeGadz.Issued.Menu

/-!
# What a mode does to the card that it holds

The edits of the cached record and the flushes of it, in order.  Between them a
mode may do anything that marks no block and writes none.
-/

namespace BeeGadz

open Foundation

abbrev Held (β : Type) : Type :=
  Option (Card β) × World β

def Loop.held {L β : Type} (s : Loop L β) : Held β :=
  (s.card, s.world)

section Deeds

variable {β : Type}

def Held.Built (s : Held β) : Prop :=
  forall c, s.1 = some c -> c.Classic

/-- Nothing is done to the record: what is marked was marked before and holds
the same bytes, and no block is written. -/
structure Rests (s t : Held β) : Prop where
  built : s.Built -> t.Built
  marks : forall c a, t.1 = some c -> c.Pending a ->
    exists c₀, s.1 = some c₀ ∧ c₀.uid = c.uid ∧ c₀.blockAt a = c.blockAt a
  sends : s.2.Sends t.2 []

instance : IsPreorder (Held β) Rests where
  refl s := ⟨id, fun c _ hc _ => ⟨c, hc, rfl, rfl⟩, World.Sends.refl s.2⟩
  trans s t u hst htu := by
    refine ⟨htu.built ∘ hst.built, ?_, hst.sends.after htu.sends⟩
    intro c a hc hpending
    rcases htu.marks c a hc hpending with ⟨c₁, hc₁, huid, hblock⟩
    have hmarked : c₁.Pending a := by
      rwa [Card.Pending, hblock]
    rcases hst.marks c₁ a hc₁ hmarked with ⟨c₀, hc₀, huid', hblock'⟩
    exact ⟨c₀, hc₀, huid'.trans huid, hblock'.trans hblock⟩

theorem rests_keep {card : Option (Card β)} {w w' : World β}
    (h : w.Sends w' []) : Rests (card, w) (card, w') where
  built := id
  marks := fun c _ hc _ => ⟨c, hc, rfl, rfl⟩
  sends := h

instance (c : Card β) (a : Answers β) : Decidable (c.Stores a) :=
  inferInstanceAs (Decidable (_ ∧ _))

/-- The authentications and the writes of these blocks are accepted. -/
def Card.StoresAll (c : Card β) (pass : Pass β) (blocks : List Nat) : Prop :=
  forall a, a ∈ blocks -> c.Stores (pass a)

instance (c : Card β) (pass : Pass β) (blocks : List Nat) :
    Decidable (c.StoresAll pass blocks) :=
  inferInstanceAs (Decidable (forall a, a ∈ blocks -> _))

/-- What a flush is when these blocks are marked: it is successful when it writes
all of them. -/
def Card.flushDeeds (c : Card β) (pass : Pass β) (blocks : List Nat) :
    List (Deed Nat) :=
  if c.StoresAll pass blocks then [.flush blocks] else []

theorem Card.SameFrame.stores {c c' : Card β} (h : Card.SameFrame c c')
    (a : Answers β) : c'.Stores a <-> c.Stores a := by
  rw [Card.Stores, Card.Stores, h.authResult]

theorem Card.SameFrame.storesAll {c c' : Card β} (h : Card.SameFrame c c')
    (pass : Pass β) (blocks : List Nat) :
    c'.StoresAll pass blocks <-> c.StoresAll pass blocks :=
  forall₂_congr fun _ _ => h.stores _

theorem Card.SameFrame.flushDeeds {c c' : Card β} (h : Card.SameFrame c c')
    (pass : Pass β) (blocks : List Nat) :
    c'.flushDeeds pass blocks = c.flushDeeds pass blocks :=
  if_congr (h.storesAll pass blocks) rfl rfl

variable [Cell β]

/-- How a held card follows from deeds on it: every edit marks its block, and
every flush is a call of `writeSector`, which is successful when all blocks that
are marked are written. -/
inductive Did : List (Deed Nat) -> Held β -> Held β -> Prop where
  | rest {s t : Held β} (rests : Rests s t) : Did [] s t
  | edit {c : Card β} {w : World β} (k : Nat) (hk : k < 4)
      (f : Bytes β 16 -> Bytes β 16) :
      Did [.edit (4 + k)] (some c, w) (some (c.edit k f), w)
  | flush {c c' : Card β} {w w' : World β} (pass : Pass β)
      {written : List Nat}
      (marked : forall a, a ∈ written <-> 4 ≤ a ∧ a < 8 ∧ c.Pending a)
      (accepted : c.StoresAll pass written)
      (run : (Session.writeSector pass 1 ⟨c, w⟩).2 = ⟨c', w'⟩) :
      Did [.flush written] (some c, w) (some c', w')
  | failed {c c' : Card β} {w w' : World β} (pass : Pass β) {a : Nat}
      (marked : 4 ≤ a ∧ a < 8 ∧ c.Pending a)
      (refused : ¬ c.Stores (pass a))
      (run : (Session.writeSector pass 1 ⟨c, w⟩).2 = ⟨c', w'⟩) :
      Did [] (some c, w) (some c', w')
  | trans {first second : List (Deed Nat)} {s t u : Held β}
      (hfirst : Did first s t) (hsecond : Did second t u) :
      Did (first ++ second) s u

namespace Did

variable {deeds : List (Deed Nat)} {s t u : Held β}

theorem after (hrests : Rests s t) (h : Did deeds t u) : Did deeds s u :=
  (Did.rest hrests).trans h

theorem before (h : Did deeds s t) (hrests : Rests t u) : Did deeds s u := by
  have hall := h.trans (.rest hrests)
  rwa [List.append_nil] at hall

theorem edited {c : Card β} {w : World β} (h : Did deeds s (some c, w))
    (k : Nat) (hk : k < 4) (f : Bytes β 16 -> Bytes β 16) :
    Did (deeds ++ [.edit (4 + k)]) s (some (c.edit k f), w) :=
  h.trans (.edit k hk f)

theorem built_of_flush {c c' : Card β} {w w' : World β} {pass : Pass β}
    (hrun : (Session.writeSector pass 1 ⟨c, w⟩).2 = ⟨c', w'⟩)
    (h : Held.Built (some c, w)) : Held.Built (some c', w') := by
  intro c'' hc''
  cases hc''
  have hc : c.Classic := h c rfl
  rcases Session.writeSector_run pass (by decide : 1 < 16) hc w with
    ⟨c₁, mem', hframe, _, _, hsector⟩
  rw [hsector] at hrun
  cases hrun
  exact hc.of_sameFrame hframe

theorem built (h : Did deeds s t) : s.Built -> t.Built := by
  induction h with
  | rest hrests => exact hrests.built
  | edit k hk f =>
      intro hs c' hc'
      cases hc'
      exact (hs _ rfl).of_sameFrame (Card.sameFrame_edit _ _ _)
  | flush pass marked accepted hrun => exact built_of_flush hrun
  | failed pass marked refused hrun => exact built_of_flush hrun
  | trans hfirst hsecond ihfirst ihsecond =>
      intro hs
      exact ihsecond (ihfirst hs)

end Did

end Deeds

/-!
## Operations on the record
-/

namespace Session

variable {β : Type} [Cell β]

/-- The world in which `writeCard` flushes. -/
def writing (w : World β) : World β :=
  w.addLog [.info "NE PAS ENLEVER LA CARTE, ECRITURE EN COURS"]

end Session

end BeeGadz
