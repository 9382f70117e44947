import BeeGadz.Card.Coherence
import BeeGadz.Record

/-!
# What the modes share

The decoding of a cached card, the creation of a DEBIT card, the requests to the
database, and `writeCard`, which swallows the exception of a lost tag.
-/

namespace BeeGadz

open Foundation

/-!
## The cached record
-/

namespace Card

variable {β : Type}

def testCard [Cell β] (c : Card β) (str : String) : Prop :=
  ascii str = (c.block 1 0).cString

instance [Cell β] (c : Card β) (str : String) : Decidable (c.testCard str) :=
  inferInstanceAs (Decidable (ascii str = (c.block 1 0).cString))

def isSOS [Cell β] (c : Card β) : Prop :=
  c.testCard "SOS"

def isDebit [Cell β] (c : Card β) : Prop :=
  c.testCard "DEBIT"

def isConso [Cell β] (c : Card β) : Prop :=
  c.testCard "CONSO"

instance [Cell β] (c : Card β) : Decidable c.isSOS :=
  inferInstanceAs (Decidable (c.testCard "SOS"))

instance [Cell β] (c : Card β) : Decidable c.isDebit :=
  inferInstanceAs (Decidable (c.testCard "DEBIT"))

instance [Cell β] (c : Card β) : Decidable c.isConso :=
  inferInstanceAs (Decidable (c.testCard "CONSO"))

def hasTicket [Cell β] (c : Card β) : Prop :=
  c.isDebit ∧ (c.block 1 2).data.first ≠ 0

instance [Cell β] (c : Card β) : Decidable c.hasTicket :=
  inferInstanceAs (Decidable (c.isDebit ∧ (c.block 1 2).data.first ≠ 0))

def getTicket [Cell β] (c : Card β) : UInt8 :=
  if c.hasTicket then (c.block 1 2).data.second else 0

def getCredit [FloatCell β] (c : Card β) : Rat :=
  if c.isDebit then (c.block 1 1).data.credit else 0

/-- Assignments to bytes of `card[1][k]`, followed by `setState(MODIFIED)`. -/
def edit (c : Card β) (k : Nat) (f : Bytes β 16 -> Bytes β 16) : Card β :=
  c.setBlock 1 k { data := f (c.block 1 k).data, state := .modified }

/-- The name of a role and a zero, assigned to the first bytes of
`card[1][0]`. -/
def editName [Cell β] (c : Card β) (name : String) : Card β :=
  c.edit 0 fun data => data.putName (ascii name)

/-- The record that `createDebit` builds. -/
def debitRecord [FloatCell β] (c : Card β) : Card β :=
  ((c.editName "DEBIT").edit 1 fun data => data.putCredit 0).edit 2
    fun data => (data.putFirst 0).putSecond 0

end Card

/-!
## Operations
-/

namespace Session

variable {β : Type}

def writeCard [Cell β] (pass : Pass β) : SessionM β Unit := do
  onWorld (printInfo "NE PAS ENLEVER LA CARTE, ECRITURE EN COURS")
  trying
    (do
      let ok ← writeSector pass 1
      if ok then onWorld (printInfo "OK")
      else onWorld (printError "NON OK"))
    (pure ())

/-- `isAdmin` also switches the configuration to the ADMIN mode. -/
def isAdmin [Cell β] : SessionM β Bool := do
  let c ← getCard
  if c.testCard "ADMIN" then do
    onWorld (setMode .admin)
    pure true
  else pure false

def createDebit [FloatCell β] (pass : Pass β) : SessionM β Unit := do
  modifyCard Card.debitRecord
  writeCard pass

def sendSOS (cfg : Config) : SessionM β Unit := do
  let c ← getCard
  onWorld (emit (.request c.uid (.sos cfg.pianss)))

def sendHistory (cfg : Config) (kind : RowKind) (command : String)
    (price : Rat) : SessionM β Unit := do
  let c ← getCard
  onWorld (emit (.request c.uid (.history
    { kind := kind, pianss := cfg.pianss, command := command,
      price := price })))

end Session

/-!
## The cached record in its cells
-/

namespace Card

variable {β : Type} [Cell β]

theorem testCard_name (c : Card β) (r : Role) :
    c.testCard r.name <-> (c.block 1 0).data.Says r := by
  unfold testCard Bytes.Says
  rw [← (c.block 1 0).cString_eq_iff r.ascii_length]
  exact eq_comm

theorem isSOS_iff (c : Card β) : c.isSOS <-> (c.block 1 0).data.Says .sos :=
  c.testCard_name .sos

theorem isDebit_iff (c : Card β) :
    c.isDebit <-> (c.block 1 0).data.Says .debit :=
  c.testCard_name .debit

theorem isConso_iff (c : Card β) :
    c.isConso <-> (c.block 1 0).data.Says .conso :=
  c.testCard_name .conso

theorem testCard_admin_iff (c : Card β) :
    c.testCard "ADMIN" <-> (c.block 1 0).data.Says .admin :=
  c.testCard_name .admin

theorem isDebit.not_others {c : Card β} (h : c.isDebit) :
    ¬ c.testCard "ADMIN" ∧ ¬ c.isSOS ∧ ¬ c.isConso := by
  have hdebit := c.isDebit_iff.mp h
  refine ⟨?_, ?_, ?_⟩
  · intro hadmin
    cases hdebit.unique (c.testCard_admin_iff.mp hadmin)
  · intro hsos
    cases hdebit.unique (c.isSOS_iff.mp hsos)
  · intro hconso
    cases hdebit.unique (c.isConso_iff.mp hconso)

omit [Cell β] in
theorem edit_block (c : Card β) (k : Nat) (f : Bytes β 16 -> Bytes β 16)
    (i j : Nat) :
    (c.edit k f).block i j =
      if i = 1 ∧ j = k then ⟨f (c.block 1 k).data, .modified⟩
      else c.block i j := by
  rw [edit, setBlock_block]

omit [Cell β] in
@[simp] theorem edit_block_self (c : Card β) (k : Nat)
    (f : Bytes β 16 -> Bytes β 16) :
    (c.edit k f).block 1 k = ⟨f (c.block 1 k).data, .modified⟩ := by
  simp [edit_block]

omit [Cell β] in
theorem edit_block_of_ne (c : Card β) {k j : Nat}
    (f : Bytes β 16 -> Bytes β 16) (h : j ≠ k) :
    (c.edit k f).block 1 j = c.block 1 j := by
  simp [edit_block, h]

omit [Cell β] in
theorem sameFrame_edit (c : Card β) (k : Nat)
    (f : Bytes β 16 -> Bytes β 16) : SameFrame c (c.edit k f) :=
  sameFrame_setBlock _ _ _ _

theorem isDebit_congr {c c' : Card β}
    (h : (c'.block 1 0).data = (c.block 1 0).data) :
    c'.isDebit <-> c.isDebit := by
  rw [isDebit_iff, isDebit_iff, h]

end Card

/-!
## What is said
-/

namespace Event

variable {β : Type}

/-- The events that later results speak about: requests, messages and bytes
that were received. -/
def notable : Event β -> Bool
  | .request _ _ => true
  | .info _ => true
  | .received _ _ _ => true
  | _ => false

def row : Event β -> Option (Uid × Row)
  | .request uid (.history row) => some (uid, row)
  | _ => none

end Event

def rows {β : Type} (events : List (Event β)) : List (Uid × Row) :=
  events.filterMap Event.row

section Rows

variable {β : Type}

@[simp] theorem rows_append (first second : List (Event β)) :
    rows (first ++ second) = rows first ++ rows second := by
  simp [rows]

theorem rows_filter (events : List (Event β)) :
    rows (events.filter Event.notable) = rows events := by
  unfold rows
  rw [List.filterMap_filter]
  congr 1
  funext e
  cases e <;> rfl

end Rows

namespace World

variable {β : Type}

/-- From `w` to `w'` the notable events were `said`. -/
def Says (w w' : World β) (said : List (Event β)) : Prop :=
  exists events, w'.log = w.log ++ events ∧
    events.filter Event.notable = said

theorem Says.refl (w : World β) : w.Says w [] :=
  ⟨[], by simp, rfl⟩

theorem Says.trans {w₁ w₂ w₃ : World β} {first second : List (Event β)}
    (h : w₁.Says w₂ first) (h' : w₂.Says w₃ second) :
    w₁.Says w₃ (first ++ second) := by
  rcases h with ⟨events, hlog, hsaid⟩
  rcases h' with ⟨events', hlog', hsaid'⟩
  exact ⟨events ++ events', by rw [hlog', hlog, List.append_assoc],
    by rw [List.filter_append, hsaid, hsaid']⟩

theorem Says.addLog {w w' : World β} {said : List (Event β)}
    (h : w.Says w' said) (events : List (Event β)) :
    w.Says (w'.addLog events) (said ++ events.filter Event.notable) := by
  rcases h with ⟨before, hlog, hsaid⟩
  exact ⟨before ++ events, by simp [hlog],
    by rw [List.filter_append, hsaid]⟩

theorem Says.mem_since {w w' : World β} {said : List (Event β)}
    (h : w.Says w' said) {e : Event β} (he : e.notable = true) :
    e ∈ w.since w' <-> e ∈ said := by
  rcases h with ⟨events, hlog, rfl⟩
  rw [since, hlog, List.drop_left, List.mem_filter]
  exact ⟨fun hmem => ⟨hmem, he⟩, fun hmem => hmem.left⟩

theorem Says.rows {w w' : World β} {said : List (Event β)}
    (h : w.Says w' said) :
    BeeGadz.rows w'.log = BeeGadz.rows w.log ++ BeeGadz.rows said := by
  rcases h with ⟨events, hlog, hsaid⟩
  rw [hlog, rows_append, ← hsaid, rows_filter]

end World

/-!
## Writing the record
-/

namespace Card

variable {β : Type}

/-- What `writeCard` says. -/
def writeSays (c : Card β) (pass : Pass β) : List (Event β) :=
  if c.writeLost pass 4 4 then
    [.info "NE PAS ENLEVER LA CARTE, ECRITURE EN COURS"]
  else [.info "NE PAS ENLEVER LA CARTE, ECRITURE EN COURS", .info "OK"]

theorem mem_writeSays {c : Card β} {pass : Pass β} {e : Event β}
    (h : e ∈ c.writeSays pass) :
    e = .info "NE PAS ENLEVER LA CARTE, ECRITURE EN COURS" ∨
      e = .info "OK" := by
  unfold writeSays at h
  split at h
  · exact Or.inl (List.mem_singleton.mp h)
  · simpa using h

@[simp] theorem rows_writeSays (c : Card β) (pass : Pass β) :
    rows (c.writeSays pass) = [] := by
  unfold writeSays
  split <;> rfl

end Card

/-- The events of `writeCard`. -/
def Card.writeCardEvents {β : Type} [Cell β] (c : Card β) (pass : Pass β) :
    List (Event β) :=
  [.info "NE PAS ENLEVER LA CARTE, ECRITURE EN COURS"] ++
    c.writeEvents pass 4 4 ++
    if c.writeLost pass 4 4 then [] else [.info "OK"]

namespace Session

variable {β : Type} [Cell β]

theorem filter_notable_writeEvents (c : Card β) (pass : Pass β)
    (n block : Nat) :
    (c.writeEvents pass n block).filter Event.notable = [] := by
  rw [List.filter_eq_nil_iff]
  intro e he
  have hcommand := List.all_eq_true.mp
    (Card.isCommand_writeEvents c pass n block) e he
  cases e <;> first | exact Bool.false_ne_true | cases hcommand

theorem filter_notable_writeCardEvents (c : Card β) (pass : Pass β) :
    (c.writeCardEvents pass).filter Event.notable = c.writeSays pass := by
  rw [Card.writeCardEvents, List.filter_append, List.filter_append,
    filter_notable_writeEvents, List.append_nil, Card.writeSays]
  split <;> rfl

/-- `writeCard` returns also when the tag was lost; the cached record stays as
it is. -/
theorem writeCard_exact (pass : Pass β) {c : Card β} (hc : c.Classic)
    (w : World β) :
    exists (c' : Card β) (mem' : Uid -> Nat -> Bytes β 16),
      Card.SameFrame c c' ∧ Card.SameBlocks c c' ∧
        Card.Flushed c pass w.mem mem' 4 8 ∧
        writeCard pass ⟨c, w⟩ = (.ok (), ⟨c', (w.withMem mem').addLog
          (c.writeCardEvents pass)⟩) := by
  let w₁ : World β :=
    w.addLog [.info "NE PAS ENLEVER LA CARTE, ECRITURE EN COURS"]
  rcases writeSector_run pass (by decide : 1 < 16) hc w₁ with
    ⟨c', mem', hframe, hblocks, hflushed, hrun⟩
  simp only [Nat.mul_one] at hflushed hrun
  have hinfo : onWorld
      (printInfo "NE PAS ENLEVER LA CARTE, ECRITURE EN COURS")
      (⟨c, w⟩ : Session β) = (.ok (), ⟨c, w₁⟩) := rfl
  refine ⟨c', mem', hframe, hblocks, hflushed, ?_⟩
  rw [writeCard, Prog.bind_of_ok _ hinfo, Card.writeCardEvents]
  by_cases hlost : c.writeLost pass 4 4 = true
  · rw [if_pos hlost] at hrun
    rw [trying_of_exception _ (Prog.bind_of_error _ hrun), if_pos hlost]
    simp [w₁]
  · rw [if_neg hlost] at hrun
    have hbody : (do
        let ok ← writeSector pass 1
        if ok then onWorld (printInfo "OK")
        else onWorld (printError "NON OK") : SessionM β Unit) ⟨c, w₁⟩ =
          (.ok (), ⟨c', ((w₁.withMem mem').addLog
            (c.writeEvents pass 4 4)).addLog [.info "OK"]⟩) := by
      rw [Prog.bind_of_ok _ hrun]
      rfl
    rw [trying_of_ok _ hbody, if_neg hlost]
    simp [w₁]

theorem writeCard_run (pass : Pass β) {c : Card β} (hc : c.Classic)
    (w : World β) :
    exists (c' : Card β) (w' : World β),
      Card.SameFrame c c' ∧ Card.SameBlocks c c' ∧
        Card.Flushed c pass w.mem w'.mem 4 8 ∧
        w.Says w' (c.writeSays pass) ∧
        writeCard pass ⟨c, w⟩ = (.ok (), ⟨c', w'⟩) := by
  rcases writeCard_exact pass hc w with
    ⟨c', mem', hframe, hblocks, hflushed, hrun⟩
  exact ⟨c', _, hframe, hblocks, hflushed,
    ⟨_, rfl, filter_notable_writeCardEvents c pass⟩, hrun⟩

theorem editCard_run (f : Card β -> Card β) (pass : Pass β) {c : Card β}
    (hc : c.Classic) (hf : Card.SameFrame c (f c)) (w : World β) :
    exists (c' : Card β) (w' : World β),
      Card.SameFrame c c' ∧ Card.SameBlocks (f c) c' ∧
        Card.Flushed (f c) pass w.mem w'.mem 4 8 ∧
        w.Says w' ((f c).writeSays pass) ∧
        (do
          modifyCard f
          writeCard pass : SessionM β Unit) ⟨c, w⟩ = (.ok (), ⟨c', w'⟩) := by
  rcases writeCard_run pass (hc.of_sameFrame hf) w with
    ⟨c', w', hframe, hblocks, hflushed, hsay, hrun⟩
  refine ⟨c', w', hf.trans hframe, hblocks, hflushed, hsay, ?_⟩
  rw [Prog.bind_of_ok _ (modifyCard_apply f c w), hrun]

theorem createDebit_run {β : Type} [FloatCell β] (pass : Pass β) {c : Card β}
    (hc : c.Classic) (w : World β) :
    exists (c' : Card β) (w' : World β),
      Card.SameFrame c c' ∧ Card.SameBlocks c.debitRecord c' ∧
        Card.Flushed c.debitRecord pass w.mem w'.mem 4 8 ∧
        w.Says w' (c.debitRecord.writeSays pass) ∧
        createDebit pass ⟨c, w⟩ = (.ok (), ⟨c', w'⟩) :=
  editCard_run Card.debitRecord pass hc
    (((Card.sameFrame_edit _ _ _).trans (Card.sameFrame_edit _ _ _)).trans
      (Card.sameFrame_edit _ _ _)) w

omit [Cell β] in
theorem getCard_bind {α : Type} (f : Card β -> SessionM β α) (c : Card β)
    (w : World β) : (getCard >>= f) ⟨c, w⟩ = f c ⟨c, w⟩ := rfl

omit [Cell β] in
theorem sendHistory_apply (cfg : Config) (kind : RowKind) (command : String)
    (price : Rat) (c : Card β) (w : World β) :
    sendHistory cfg kind command price ⟨c, w⟩ =
      (.ok (), ⟨c, w.addLog [.request c.uid (.history
        ⟨kind, cfg.pianss, command, price⟩)]⟩) := rfl

end Session

/-!
## What a write of the record leaves on the card
-/

namespace Card

variable {β : Type}

theorem Flushed.other {c : Card β} {pass : Pass β}
    {mem mem' : Uid -> Nat -> Bytes β 16}
    (h : Flushed c pass mem mem' 4 8) {u : Uid} (hu : u ≠ c.uid) :
    mem' u = mem u := by
  funext a
  exact h.kept u a fun hboth => hu hboth.left

theorem Flushed.unmodified {c : Card β} {pass : Pass β}
    {mem mem' : Uid -> Nat -> Bytes β 16}
    (h : Flushed c pass mem mem' 4 8) {a : Nat} (ha : ¬ c.Pending a)
    (u : Uid) : mem' u a = mem u a :=
  h.kept u a fun hboth => ha hboth.right.right.right.left

/-- A modified block that is reached holds what its write leaves. -/
theorem Flushed.reached {c : Card β} {pass : Pass β}
    {mem mem' : Uid -> Nat -> Bytes β 16}
    (h : Flushed c pass mem mem' 4 8) {a : Nat} (hlow : 4 ≤ a) (hhigh : a < 8)
    (ha : c.Pending a) (hreach : c.WriteReaches pass 4 a) :
    mem' c.uid a = c.leaves (pass a) (mem c.uid a) (c.blockAt a).data :=
  h.written a ⟨hlow, hhigh, ha, hreach⟩

theorem pending_edit (c : Card β) (k : Nat) (hk : k < 4)
    (f : Bytes β 16 -> Bytes β 16) (a : Nat) :
    (c.edit k f).Pending a <-> a = 4 + k ∨ c.Pending a := by
  unfold Pending blockAt
  rw [edit_block]
  by_cases ha : a / 4 = 1 ∧ a % 4 = k
  · rw [if_pos ha]
    exact ⟨fun _ => Or.inl (by omega), fun _ => rfl⟩
  · rw [if_neg ha]
    constructor
    · exact Or.inr
    · intro h
      cases h with
      | inl heq => exact absurd ⟨by omega, by omega⟩ ha
      | inr hpending => exact hpending

def Unmodified (c : Card β) : Prop :=
  forall a, ¬ c.Pending a

end Card

end BeeGadz
