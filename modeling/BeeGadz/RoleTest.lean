import Mathlib.Data.List.TakeWhile
import BeeGadz.Foundation.CString
import BeeGadz.Serve.Bar
import BeeGadz.Serve.Caisse
import BeeGadz.Serve.Kve

/-!
# The tests of the role

A role is tested by reading the first block of the record as a C string.  The
answer is right for every content of the block, and every mode acts on exactly
one branch; the read stays inside the block exactly when there is a zero in it.
-/

namespace BeeGadz

open Foundation

/-!
## What a test reads
-/

namespace Card

variable {β : Type} [Cell β]

/-- `Mode::testCard` with the offsets from `card[1][0].data()` that the
construction of the string reads. -/
def testCardReads (c : Card β) (str : String) : List Nat × Bool :=
  let tmp := CString.read 0 (c.block 1 0).image
  (tmp.1, ascii str = tmp.2)

def Answers (c : Card β) (r : Role) : Prop :=
  (c.testCardReads r.name).2 = true

end Card

/-- The cells start with the name of the role and a zero. -/
def Bytes.Names {β : Type} [Cell β] (data : Bytes β 16) (r : Role) : Prop :=
  exists rest, data.values = ascii r.name ++ 0 :: rest

def Card.HasRole {β : Type} [Cell β] (c : Card β) : Option Role -> Prop
  | some r => c.Answers r
  | none => forall r, ¬ c.Answers r

/-!
## The branches of the modes
-/

namespace Bar

inductive Branch where
  | leave
  | sos
  | credit
  | order
  | conso
  | other
deriving DecidableEq

variable {β : Type} [FloatCell β]

def Branch.Meant (c : Card β) (l : Locals) : Branch -> Prop
  | .leave => c.Answers .admin
  | .sos => c.Answers .sos
  | .credit => c.Answers .debit ∧ isEmpty l.conso = true
  | .order => c.Answers .debit ∧ isEmpty l.conso = false
  | .conso => c.Answers .conso
  | .other => forall r, ¬ c.Answers r

def Branch.run (cfg : Config) (hash : HashOrder) (inp : Input β) (c : Card β)
    (l : Locals) : Branch -> LoopM Locals β Exit
  | .leave => do
      Loop.onWorld (setMode .admin)
      pure .leave
  | .sos => answerSOS cfg
  | .credit => showCredit c
  | .order => serveOrder cfg hash inp
  | .conso => addConso cfg hash inp c l.conso
  | .other => refuseOther

end Bar

namespace Kve

inductive Branch where
  | leave
  | sos
  | conso
  | ticket
  | sale
  | other
deriving DecidableEq

variable {β : Type} [FloatCell β]

def Branch.Meant (c : Card β) (l : Locals) : Branch -> Prop
  | .leave => c.Answers .admin
  | .sos => c.Answers .sos
  | .conso => c.Answers .conso
  | .ticket => c.Answers .debit ∧ l.ticket = true ∧ c.hasTicket
  | .sale => c.Answers .debit ∧ ¬ (l.ticket = true ∧ c.hasTicket)
  | .other => forall r, ¬ c.Answers r

def Branch.run (cfg : Config) (inp : Input β) : Branch -> LoopM Locals β Exit
  | .leave => do
      Loop.onWorld (setMode .admin)
      pure .leave
  | .sos => answerSOS cfg
  | .conso => refuseConso
  | .ticket => serveTicket cfg inp
  | .sale => serveSale cfg inp
  | .other => refuseOther

end Kve

namespace Caisse

inductive Branch where
  | leave
  | sos
  | conso
  | create
  | topUp
deriving DecidableEq

variable {β : Type} [FloatCell β]

def Branch.Meant (c : Card β) : Branch -> Prop
  | .leave => c.Answers .admin
  | .sos => c.Answers .sos
  | .conso => c.Answers .conso
  | .create => forall r, ¬ c.Answers r
  | .topUp => c.Answers .debit

def Branch.run (cfg : Config) (inp : Input β) : Branch -> LoopM Unit β Exit
  | .leave => do
      Loop.onWorld (setMode .admin)
      pure .leave
  | .sos => answerSOS cfg
  | .conso => refuseConso
  | .create => Caisse.create inp
  | .topUp => Caisse.topUp cfg inp

end Caisse

/-- What is asked of the tests of the roles on a card. -/
structure RoleTested {β : Type} [FloatCell β] (c : Card β) : Prop where
  inside : forall r off, off ∈ (c.testCardReads (Role.name r)).1 -> off < 16
  answers : forall r, c.Answers r <-> (c.block 1 0).data.Names r
  unique : forall r r', c.Answers r -> c.Answers r' -> r = r'
  bar : forall cfg hash (inp : Input β) l read w,
    exists b, Bar.Branch.Meant c l b ∧
      (forall b', Bar.Branch.Meant c l b' -> b' = b) ∧
      Bar.dispatch cfg hash inp ⟨l, some c, read, w⟩ =
        Bar.Branch.run cfg hash inp c l b ⟨l, some c, read, w⟩
  kve : forall cfg (inp : Input β) l read w,
    exists b, Kve.Branch.Meant c l b ∧
      (forall b', Kve.Branch.Meant c l b' -> b' = b) ∧
      Kve.dispatch cfg inp ⟨l, some c, read, w⟩ =
        Kve.Branch.run cfg inp b ⟨l, some c, read, w⟩
  caisse : forall cfg (inp : Input β) read w,
    exists b, Caisse.Branch.Meant c b ∧
      (forall b', Caisse.Branch.Meant c b' -> b' = b) ∧
      Caisse.dispatch cfg inp ⟨(), some c, read, w⟩ =
        Caisse.Branch.run cfg inp b ⟨(), some c, read, w⟩

/-!
## The answers
-/

section Answers

variable {β : Type} [Cell β]

theorem Block.zero_mem_image (b : Block β) : 0 ∈ b.image := by
  apply List.mem_append_right
  cases b.state <;> simp [BlockState.image]

theorem Block.take_image (b : Block β) : b.image.take 16 = b.data.values := by
  have hlength := b.data.values_length
  have hsplit : b.image = b.data.values ++ b.state.image := rfl
  rw [hsplit, List.take_append_of_le_length (Nat.le_of_eq hlength.symm),
    List.take_of_length_le (Nat.le_of_eq hlength)]

theorem Bytes.says_iff_names (data : Bytes β 16) (r : Role) :
    data.Says r <-> data.Names r := by
  have hname : (0 : UInt8) ∉ ascii r.name := fun h => r.ascii_ne_zero 0 h rfl
  unfold Bytes.Says Bytes.Names Bytes.text
  by_cases hzero : (0 : UInt8) ∈ data.values
  · rw [CString.takeWhile_eq_iff hzero, and_iff_right hname]
  · constructor
    · intro htext
      have hwhole : (data.values.takeWhile fun x => x ≠ 0) = data.values := by
        apply List.takeWhile_eq_self_iff.mpr
        intro x hx
        have hne : x ≠ 0 := fun hx0 => hzero (hx0 ▸ hx)
        simpa using hne
      have hlength := r.ascii_length
      rw [← htext, hwhole, data.values_length] at hlength
      exact absurd hlength (Nat.lt_irrefl _)
    · rintro ⟨rest, hrest⟩
      rw [hrest] at hzero
      exact absurd (List.mem_append_right _ List.mem_cons_self) hzero

namespace Card

theorem answers_iff_testCard (c : Card β) (r : Role) :
    c.Answers r <-> c.testCard r.name := by
  unfold Answers testCardReads testCard Block.cString
  simp [CString.read, CString.readFrom_text]

theorem answers_iff (c : Card β) (r : Role) :
    c.Answers r <-> (c.block 1 0).data.Names r := by
  rw [answers_iff_testCard, testCard_name, Bytes.says_iff_names]

theorem answers_unique {c : Card β} {r r' : Role} (h : c.Answers r)
    (h' : c.Answers r') : r = r' := by
  rw [answers_iff_testCard, testCard_name] at h h'
  exact h.unique h'

theorem hasNoRole (c : Card β) (hadmin : ¬ c.testCard "ADMIN")
    (hsos : ¬ c.isSOS) (hdebit : ¬ c.isDebit) (hconso : ¬ c.isConso) :
    c.HasRole none := by
  intro role hrole
  rw [c.answers_iff_testCard] at hrole
  cases role with
  | admin => exact hadmin hrole
  | sos => exact hsos hrole
  | debit => exact hdebit hrole
  | conso => exact hconso hrole

/-- The tests read only the block exactly when a cell of it is zero. -/
theorem inside_iff (c : Card β) :
    (forall r off, off ∈ (c.testCardReads (Role.name r)).1 -> off < 16) <->
      exists i, Cell.toByte ((c.block 1 0).data i) = 0 := by
  have hoffsets := CString.offsets_lt_iff (n := 16)
    (c.block 1 0).zero_mem_image
  rw [Block.take_image] at hoffsets
  have hvalues : (0 : UInt8) ∈ (c.block 1 0).data.values <->
      exists i, Cell.toByte ((c.block 1 0).data i) = 0 := by
    rw [Bytes.values, List.mem_ofFn]
  rw [← hvalues, ← hoffsets]
  constructor
  · intro h
    exact h .admin
  · intro h _
    exact h

end Card

end Answers

/-!
## The dispatches
-/

theorem Card.HasRole.unique {β : Type} [Cell β] {c : Card β}
    {x y : Option Role} (hx : c.HasRole x) (hy : c.HasRole y) : x = y := by
  cases x with
  | none =>
      cases y with
      | none => rfl
      | some r => exact absurd hy (hx r)
  | some r =>
      cases y with
      | none => exact absurd hx (hy r)
      | some r' => rw [Card.answers_unique hx hy]

namespace Bar

variable {β : Type} [FloatCell β]

def Branch.role : Branch -> Option Role
  | .leave => some .admin
  | .sos => some .sos
  | .credit => some .debit
  | .order => some .debit
  | .conso => some .conso
  | .other => none

theorem Branch.Meant.hasRole {c : Card β} {l : Locals} {b : Branch}
    (h : b.Meant c l) : c.HasRole b.role := by
  cases b with
  | leave => exact h
  | sos => exact h
  | credit => exact h.left
  | order => exact h.left
  | conso => exact h
  | other => exact h

theorem Branch.Meant.unique {c : Card β} {l : Locals} {b b' : Branch}
    (h : b.Meant c l) (h' : b'.Meant c l) : b = b' := by
  have hrole : b.role = b'.role := h.hasRole.unique h'.hasRole
  have hempty : ¬ (isEmpty l.conso = true ∧ isEmpty l.conso = false) := by
    simp
  cases b <;> cases b' <;> try first
    | rfl
    | (cases hrole; done)
  -- what is left are the two branches of a DEBIT card
  · exact absurd ⟨h.right, h'.right⟩ hempty
  · exact absurd ⟨h'.right, h.right⟩ hempty

theorem dispatch_branch (cfg : Config) (hash : HashOrder) (inp : Input β)
    (c : Card β) (l : Locals) (r : Bool) (w : World β) :
    exists b, Branch.Meant c l b ∧
      dispatch cfg hash inp ⟨l, some c, r, w⟩ =
        Branch.run cfg hash inp c l b ⟨l, some c, r, w⟩ := by
  by_cases hadmin : c.testCard "ADMIN"
  · exact ⟨.leave, (c.answers_iff_testCard .admin).mpr hadmin,
      Loop.isAdmin_leave _ hadmin l r w⟩
  have happly := dispatch_apply cfg hash inp l hadmin r w
  by_cases hsos : c.isSOS
  · rw [if_pos hsos] at happly
    exact ⟨.sos, (c.answers_iff_testCard .sos).mpr hsos, happly⟩
  rw [if_neg hsos] at happly
  by_cases hdebit : c.isDebit
  · have hanswer := (c.answers_iff_testCard .debit).mpr hdebit
    cases hempty : isEmpty l.conso with
    | true =>
        rw [if_pos ⟨hdebit, hempty⟩] at happly
        exact ⟨.credit, ⟨hanswer, hempty⟩, happly⟩
    | false =>
        have hfull : ¬ (c.isDebit ∧ isEmpty l.conso = true) := by
          simp [hempty]
        rw [if_neg hfull, if_pos ⟨hdebit, hempty⟩] at happly
        exact ⟨.order, ⟨hanswer, hempty⟩, happly⟩
  have hother : forall e, ¬ (c.isDebit ∧ isEmpty l.conso = e) :=
    fun _ h => hdebit h.left
  rw [if_neg (hother true), if_neg (hother false)] at happly
  by_cases hconso : c.isConso
  · rw [if_pos hconso] at happly
    exact ⟨.conso, (c.answers_iff_testCard .conso).mpr hconso, happly⟩
  · rw [if_neg hconso] at happly
    exact ⟨.other, c.hasNoRole hadmin hsos hdebit hconso, happly⟩

end Bar

namespace Kve

variable {β : Type} [FloatCell β]

def Branch.role : Branch -> Option Role
  | .leave => some .admin
  | .sos => some .sos
  | .conso => some .conso
  | .ticket => some .debit
  | .sale => some .debit
  | .other => none

theorem Branch.Meant.hasRole {c : Card β} {l : Locals} {b : Branch}
    (h : b.Meant c l) : c.HasRole b.role := by
  cases b with
  | leave => exact h
  | sos => exact h
  | conso => exact h
  | ticket => exact h.left
  | sale => exact h.left
  | other => exact h

theorem Branch.Meant.unique {c : Card β} {l : Locals} {b b' : Branch}
    (h : b.Meant c l) (h' : b'.Meant c l) : b = b' := by
  have hrole : b.role = b'.role := h.hasRole.unique h'.hasRole
  cases b <;> cases b' <;> try first
    | rfl
    | (cases hrole; done)
  · exact absurd h.right h'.right
  · exact absurd h'.right h.right

theorem dispatch_branch (cfg : Config) (inp : Input β) (c : Card β)
    (l : Locals) (r : Bool) (w : World β) :
    exists b, Branch.Meant c l b ∧
      dispatch cfg inp ⟨l, some c, r, w⟩ =
        Branch.run cfg inp b ⟨l, some c, r, w⟩ := by
  by_cases hadmin : c.testCard "ADMIN"
  · exact ⟨.leave, (c.answers_iff_testCard .admin).mpr hadmin,
      Loop.isAdmin_leave _ hadmin l r w⟩
  have happly := dispatch_apply cfg inp l hadmin r w
  by_cases hsos : c.isSOS
  · rw [if_pos hsos] at happly
    exact ⟨.sos, (c.answers_iff_testCard .sos).mpr hsos, happly⟩
  rw [if_neg hsos] at happly
  by_cases hconso : c.isConso
  · rw [if_pos hconso] at happly
    exact ⟨.conso, (c.answers_iff_testCard .conso).mpr hconso, happly⟩
  rw [if_neg hconso] at happly
  by_cases hdebit : c.isDebit
  · have hanswer := (c.answers_iff_testCard .debit).mpr hdebit
    rw [if_pos hdebit] at happly
    by_cases hticket : l.ticket = true ∧ c.hasTicket
    · rw [if_pos hticket] at happly
      exact ⟨.ticket, ⟨hanswer, hticket⟩, happly⟩
    · rw [if_neg hticket] at happly
      exact ⟨.sale, ⟨hanswer, hticket⟩, happly⟩
  · rw [if_neg hdebit] at happly
    exact ⟨.other, c.hasNoRole hadmin hsos hdebit hconso, happly⟩

end Kve

namespace Caisse

variable {β : Type} [FloatCell β]

def Branch.role : Branch -> Option Role
  | .leave => some .admin
  | .sos => some .sos
  | .conso => some .conso
  | .create => none
  | .topUp => some .debit

theorem Branch.Meant.unique {c : Card β} {b b' : Branch}
    (h : b.Meant c) (h' : b'.Meant c) : b = b' := by
  have hrole : forall b : Branch, b.Meant c -> c.HasRole b.role := by
    intro b hb
    cases b <;> exact hb
  have hsame : b.role = b'.role := (hrole b h).unique (hrole b' h')
  cases b <;> cases b' <;> first
    | rfl
    | cases hsame

theorem dispatch_branch (cfg : Config) (inp : Input β) (c : Card β)
    (r : Bool) (w : World β) :
    exists b, Branch.Meant c b ∧
      dispatch cfg inp ⟨(), some c, r, w⟩ =
        Branch.run cfg inp b ⟨(), some c, r, w⟩ := by
  by_cases hadmin : c.testCard "ADMIN"
  · exact ⟨.leave, (c.answers_iff_testCard .admin).mpr hadmin,
      Loop.isAdmin_leave _ hadmin () r w⟩
  have happly := dispatch_apply cfg inp hadmin r w
  by_cases hsos : c.isSOS
  · rw [if_pos hsos] at happly
    exact ⟨.sos, (c.answers_iff_testCard .sos).mpr hsos, happly⟩
  rw [if_neg hsos] at happly
  by_cases hconso : c.isConso
  · rw [if_pos hconso] at happly
    exact ⟨.conso, (c.answers_iff_testCard .conso).mpr hconso, happly⟩
  rw [if_neg hconso] at happly
  by_cases hdebit : c.isDebit
  · rw [if_neg (not_not_intro hdebit)] at happly
    exact ⟨.topUp, (c.answers_iff_testCard .debit).mpr hdebit, happly⟩
  · rw [if_pos hdebit] at happly
    exact ⟨.create, c.hasNoRole hadmin hsos hdebit hconso, happly⟩

end Caisse

/-- The tests of the roles do all that is asked of them exactly when there is a
zero in the block. -/
theorem roleTested_iff {β : Type} [FloatCell β] (c : Card β) :
    RoleTested c <-> exists i, Cell.toByte ((c.block 1 0).data i) = 0 := by
  constructor
  · intro h
    exact c.inside_iff.mp h.inside
  · intro hzero
    constructor
    · exact c.inside_iff.mpr hzero
    · exact c.answers_iff
    · exact fun _ _ => Card.answers_unique
    · intro cfg hash inp l r w
      rcases Bar.dispatch_branch cfg hash inp c l r w with ⟨b, hb, hrun⟩
      exact ⟨b, hb, fun _ hb' => hb'.unique hb, hrun⟩
    · intro cfg inp l r w
      rcases Kve.dispatch_branch cfg inp c l r w with ⟨b, hb, hrun⟩
      exact ⟨b, hb, fun _ hb' => hb'.unique hb, hrun⟩
    · intro cfg inp r w
      rcases Caisse.dispatch_branch cfg inp c r w with ⟨b, hb, hrun⟩
      exact ⟨b, hb, fun _ hb' => hb'.unique hb, hrun⟩

/-- A tag whose blocks hold sixteen times an A is read, and the test goes on to
the first byte of `m_state`. -/
theorem not_roleTested_full :
    let c : Card Rat := (Session.readSector Session.accepts 1
      ⟨Card.fresh ⟨fun _ => 1, 0x4⟩ (Vec.replicate 6 0xff),
        World.start (fun _ _ _ => 65) .bar⟩).2.card
    ¬ RoleTested c := by
  intro c h
  have hread : 16 ∈ (c.testCardReads "ADMIN").1 := by
    decide +kernel
  exact absurd (h.inside .admin 16 hread) (Nat.lt_irrefl 16)

end BeeGadz
