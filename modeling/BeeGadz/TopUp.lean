import BeeGadz.Ledger

/-!
# Money on a presented card

What a round of Caisse does to a DEBIT card that is presented.  A block that was
not read is taken for zeros: without its name the card is created again, and
without its credit the amount is added to nothing.
-/

namespace BeeGadz

open Foundation

namespace Caisse

variable {β : Type} [FloatCell β]

/-- The four bytes of the credit are kept, or are the `float` of the credit plus
the amount; the card is not created again, and an amount is only added to a
credit that was read. -/
structure MoneyKept (inp : Input β) (target : Target) (s s' : Loop Unit β) :
    Prop where
  credit :
    (s'.world.mem target.uid 5).first4 = (s.world.mem target.uid 5).first4 ∨
      (s'.world.mem target.uid 5).first4 =
        FloatCell.encode ((s.world.mem target.uid 5).credit + inp.amount)
  uncreated : .info creation ∉ s.world.since s'.world
  read : inp.amount ≠ 0 ->
    (exists row, row.kind = .topUp ∧ (target.uid, row) ∈ Loop.sent s s') ->
      .received target.uid 5 (s.world.mem target.uid 5) ∈
        s.world.since s'.world

/-- The money of a DEBIT card that is presented in the round is kept. -/
def KeepsMoney (inp : Input β) (s s' : Loop Unit β) : Prop :=
  forall target, Loop.scanned inp s.card = some target ->
    Memory.Says (s.world.mem target.uid) .debit -> MoneyKept inp target s s'

/-- The name of the card was read; and when an amount is added, so was its
credit, and a write of it that the tag leaves in the middle of leaves one of the
two credits. -/
structure WellRead (cfg : Config) (inp : Input β) (target : Target)
    (mem : Memory β) : Prop where
  name : Loop.Loaded inp (cfg.getKeys true) target 4
  credit : inp.amount ≠ 0 -> inp.amount ≤ 250 ->
    Loop.Loaded inp (cfg.getKeys true) target 5
  whole : inp.amount ≠ 0 -> inp.amount ≤ 250 ->
    forall contents, (inp.writing 5).write = .torn contents ->
      (Card.fresh target (cfg.getKeys true) : Card β).authResult
        (inp.writing 5) = .accepted ->
      contents.first4 = (mem 5).first4 ∨
        contents.first4 = FloatCell.encode ((mem 5).credit + inp.amount)

/-- The DEBIT card that the round acts on, if any, was read well. -/
def ReadsWell (cfg : Config) (inp : Input β) (s : Loop Unit β) : Prop :=
  forall target,
    Loop.arrival (cfg.getKeys true) inp s.card = some target ->
    Memory.Says (s.world.mem target.uid) .debit ->
      WellRead cfg inp target (s.world.mem target.uid)

omit [FloatCell β] in
theorem arrival_eq_some [Cell β] {keys : Vec UInt8} {inp : Input β}
    {card : Option (Card β)} {target : Target} :
    Loop.arrival keys inp card = some target <->
      Loop.scanned inp card = some target ∧
        (Card.fresh target keys : Card β).readLost inp.reading 4 4 =
          false := by
  unfold Loop.arrival
  rw [Option.filter_eq_some_iff]
  simp

theorem left_total_iff {keys : Vec UInt8} {target : Target} {pass : Pass β}
    {mem : Memory β} {data : Bytes β 16} {amount : Rat} :
    ((left keys target pass mem 5
        (data.putCredit (amount + (mem 5).credit))).first4 =
          (mem 5).first4 ∨
      (left keys target pass mem 5
        (data.putCredit (amount + (mem 5).credit))).first4 =
          FloatCell.encode ((mem 5).credit + amount)) <->
    forall contents, (pass 5).write = .torn contents ->
      (Card.fresh target keys : Card β).authResult (pass 5) = .accepted ->
      contents.first4 = (mem 5).first4 ∨
        contents.first4 = FloatCell.encode ((mem 5).credit + amount) := by
  unfold left Card.leaves
  cases hauth : (Card.fresh target keys : Card β).authResult (pass 5) with
  | gone => simp
  | refused => simp
  | accepted =>
      cases hreply : (pass 5).write with
      | accepted => simp [Reply.leaves, Bytes.putCredit, add_comm]
      | rejected => simp [Reply.leaves]
      | torn contents => simp [Reply.leaves]

/-!
## One presentation
-/

theorem moneyKept_of_sees {inp : Input β} {target : Target}
    {reads : List (Event β)} {s s' : Loop Unit β}
    (h : Loop.Sees words reads s s')
    (hwire : reads.all Event.onWire = true) : MoneyKept inp target s s' := by
  rcases h.says hwire with ⟨said, hsay, hnone, hwords, _⟩
  refine ⟨Or.inl (by rw [h.mem]), ?_, ?_⟩
  · rw [hsay.mem_since rfl]
    exact fun hmem => absurd (hwords _ hmem) (by decide)
  · intro _ hall
    rcases hall with ⟨row, _, hrow⟩
    have hsent : rows s'.world.log = rows s.world.log ++ [] := by
      rw [hsay.rows, hnone]
    rw [Loop.sent_of_rows hsent] at hrow
    cases hrow

section Presentation

variable {cfg : Config} {inp : Input β} {target : Target}
  {s s₁ s' : Loop Unit β} {c : Card β}

theorem loaded_name_iff
    (hpresented : Loop.Presented inp (cfg.getKeys true) target
      (s.world.mem target.uid) c)
    (hsay : Memory.Says (s.world.mem target.uid) .debit) :
    Loop.Loaded inp (cfg.getKeys true) target 4 <-> ¬ Roleless c := by
  rw [roleless_iff hpresented]
  constructor
  · intro hloaded hnone
    exact hnone hloaded .debit hsay
  · intro hnamed
    by_contra hmissing
    exact hnamed fun hloaded => absurd hloaded hmissing

theorem isDebit_of_loaded
    (hpresented : Loop.Presented inp (cfg.getKeys true) target
      (s.world.mem target.uid) c)
    (hsay : Memory.Says (s.world.mem target.uid) .debit)
    (hloaded : Loop.Loaded inp (cfg.getKeys true) target 4) : c.isDebit := by
  rw [hpresented.isDebit_iff, Memory.Says, Loop.seen_of_loaded _ hloaded]
  exact hsay

theorem received_credit_iff
    (harrival : Loop.arrival (cfg.getKeys true) inp s.card = some target) :
    .received target.uid 5 (s.world.mem target.uid 5) ∈
        (Card.fresh target (cfg.getKeys true) : Card β).readEvents inp.reading
          (s.world.mem target.uid) 4 4 <->
      Loop.Loaded inp (cfg.getKeys true) target 5 := by
  rw [Card.received_mem_readEvents (by decide)]
  constructor
  · intro hall
    rcases hall with ⟨_, _, hloads⟩
    exact hloads.right.right.right
  · intro hloaded
    refine ⟨rfl, rfl, by decide, by decide, ?_, hloaded⟩
    intro b hlow hhigh hlost
    have hpass := (Card.readLost_iff _ inp.reading 4 4).mpr
      ⟨b, hlow, by omega, hlost⟩
    rw [(arrival_eq_some.mp harrival).right] at hpass
    cases hpass

theorem deposit_iff
    (harrival : Loop.arrival (cfg.getKeys true) inp s.card = some target)
    (hsees : Loop.Sees words
      ((Card.fresh target (cfg.getKeys true) : Card β).readEvents inp.reading
        (s.world.mem target.uid) 4 4) s s₁)
    (hpresented : Loop.Presented inp (cfg.getKeys true) target
      (s.world.mem target.uid) c)
    (hdebit : c.isDebit) (hfits : inp.amount ≤ 250)
    (hstays : inp.amount = 0 -> s'.world.mem = s₁.world.mem)
    (hadds : inp.amount ≠ 0 ->
      Card.Flushed (c.toppedUp inp.amount) inp.writing s₁.world.mem
        s'.world.mem 4 8)
    {said : List (Event β)} (hspeaks : s₁.world.Says s'.world said)
    (hquiet : .info creation ∉ said)
    (hunread : forall uid a data, .received uid a data ∉ said)
    (hsent : rows said = [(c.uid, topUpRow cfg inp.amount)]) :
    MoneyKept inp target s s' <->
      WellRead cfg inp target (s.world.mem target.uid) := by
  have hwire := Card.onWire_readEvents (Card.fresh target (cfg.getKeys true))
    inp.reading (s.world.mem target.uid) 4 4
  rcases hsees.says hwire with ⟨seenSaid, hseen, hnone, hwords, hreceived⟩
  have hall := hseen.trans hspeaks
  have hrows : Loop.sent s s' = [(target.uid, topUpRow cfg inp.amount)] := by
    apply Loop.sent_of_rows
    rw [hall.rows, rows_append, hnone, hsent, hpresented.uid]
    rfl
  have huncreated : .info creation ∉ s.world.since s'.world := by
    rw [hall.mem_since rfl, List.mem_append]
    intro hmem
    cases hmem with
    | inl hmem => exact absurd (hwords _ hmem) (by decide)
    | inr hmem => exact hquiet hmem
  have hread : .received target.uid 5 (s.world.mem target.uid 5) ∈
      s.world.since s'.world <->
        Loop.Loaded inp (cfg.getKeys true) target 5 := by
    rw [hall.mem_since rfl, List.mem_append, hreceived,
      received_credit_iff harrival]
    simp [hunread]
  have hname : Loop.Loaded inp (cfg.getKeys true) target 4 :=
    Loop.loaded_of_role (hpresented.isDebit_iff.mp hdebit)
  by_cases hzero : inp.amount = 0
  · constructor
    · intro _
      exact ⟨hname, fun hne => absurd hzero hne, fun hne => absurd hzero hne⟩
    · intro _
      refine ⟨Or.inl ?_, huncreated, fun hne => absurd hzero hne⟩
      rw [hstays hzero, hsees.mem]
  · have hflushed := hadds hzero
    rw [hsees.mem] at hflushed
    have hadded := hflushed.toppedUp hpresented.unmodified
    rw [hpresented.uid, hpresented.credit_eq hdebit,
      leaves_eq_left hpresented.frame] at hadded
    have hcredit := hadded.right.right
    have htotal : Loop.Loaded inp (cfg.getKeys true) target 5 ->
        (((s'.world.mem target.uid 5).first4 =
            (s.world.mem target.uid 5).first4 ∨
          (s'.world.mem target.uid 5).first4 = FloatCell.encode
            ((s.world.mem target.uid 5).credit + inp.amount)) <->
        forall contents, (inp.writing 5).write = .torn contents ->
          (Card.fresh target (cfg.getKeys true) : Card β).authResult
            (inp.writing 5) = .accepted ->
          contents.first4 = (s.world.mem target.uid 5).first4 ∨
            contents.first4 = FloatCell.encode
              ((s.world.mem target.uid 5).credit + inp.amount)) := by
      intro hloaded
      have hsay := hpresented.isDebit_iff.mp hdebit
      rw [hcredit, Memory.credit_of_says hsay,
        Loop.seen_of_loaded _ hloaded]
      exact left_total_iff
    constructor
    · intro hkept
      have hloaded := hread.mp (hkept.read hzero
        ⟨topUpRow cfg inp.amount, rfl, by rw [hrows]; simp⟩)
      exact ⟨hname, fun _ _ => hloaded,
        fun _ _ => (htotal hloaded).mp hkept.credit⟩
    · intro hwell
      have hloaded := hwell.credit hzero hfits
      exact ⟨(htotal hloaded).mpr (hwell.whole hzero hfits), huncreated,
        fun _ _ => hread.mpr hloaded⟩

end Presentation

theorem moneyKept_iff {cfg : Config} {inp : Input β}
    {s s' : Loop Unit β} (h : step cfg inp s = some s') {target : Target}
    (harrival : Loop.arrival (cfg.getKeys true) inp s.card = some target)
    (hsay : Memory.Says (s.world.mem target.uid) .debit) :
    MoneyKept inp target s s' <->
      WellRead cfg inp target (s.world.mem target.uid) := by
  have hrun := step_run h
  rw [harrival] at hrun
  rcases hrun with ⟨s₁, c, hsees, hc, hpresented, hserves⟩
  have hwire := Card.onWire_readEvents (Card.fresh target (cfg.getKeys true))
    inp.reading (s.world.mem target.uid) 4 4
  rcases hsees.says hwire with ⟨seenSaid, hseen, hnone, hwords, _⟩
  cases hserves with
  | create roleless c' card blocks flushed speaks =>
      constructor
      · intro hkept
        apply absurd _ hkept.uncreated
        rw [(hseen.trans speaks).mem_since rfl]
        simp
      · intro hwell
        exact absurd roleless
          ((loaded_name_iff hpresented hsay).mp hwell.name)
  | deposit debit fits c' card stays adds said speaks quiet unread sent =>
      exact deposit_iff harrival hsees hpresented debit (le_of_not_gt fits)
        (fun hzero => (stays hzero).right) (fun hne => (adds hne).right)
        speaks quiet unread sent
  | still named idle keeps =>
      have hname := (loaded_name_iff hpresented hsay).mpr named
      have hlarge := idle (isDebit_of_loaded hpresented hsay hname)
      constructor
      · intro _
        exact ⟨hname, fun _ hfits => absurd hlarge (not_lt_of_ge hfits),
          fun _ hfits => absurd hlarge (not_lt_of_ge hfits)⟩
      · intro _
        rcases keeps.says with ⟨said, hspeaks, hsilent, hquiet, _⟩
        have hall := hseen.trans hspeaks
        refine ⟨Or.inl (by rw [keeps.mem, hsees.mem]), ?_, ?_⟩
        · rw [hall.mem_since rfl, List.mem_append]
          intro hmem
          cases hmem with
          | inl hmem => exact absurd (hwords _ hmem) (by decide)
          | inr hmem => exact hquiet creation (by simp) hmem
        · intro _ hgiven
          rcases hgiven with ⟨row, _, hrow⟩
          have hsent : rows s'.world.log = rows s.world.log ++ [] := by
            rw [hall.rows, rows_append, hnone, hsilent]
            rfl
          rw [Loop.sent_of_rows hsent] at hrow
          cases hrow

theorem keepsMoney_iff {cfg : Config} {inp : Input β}
    {s s' : Loop Unit β} (h : step cfg inp s = some s') :
    KeepsMoney inp s s' <-> ReadsWell cfg inp s := by
  constructor
  · intro hkeeps target harrival hsay
    exact (moneyKept_iff h harrival hsay).mp
      (hkeeps target (arrival_eq_some.mp harrival).left hsay)
  · intro hreads target hscanned hsay
    cases harrival : Loop.arrival (cfg.getKeys true) inp s.card with
    | none =>
        have hrun := step_run h
        rw [harrival] at hrun
        rcases hrun with ⟨reads, hwire, hsees⟩
        exact moneyKept_of_sees hsees hwire
    | some other =>
        have hsame : other = target := by
          have hother := (arrival_eq_some.mp harrival).left
          rw [hscanned] at hother
          exact (Option.some.inj hother).symm
        subst hsame
        exact (moneyKept_iff h harrival hsay).mpr
          (hreads other harrival hsay)

/-- In every run, the money of the DEBIT cards that are presented is kept in
exactly the rounds in which the card is read well. -/
theorem money_kept_iff (cfg : Config) (is : List (Input β))
    (s : Loop Unit β) :
    forall r, r ∈ Run.transitions (step cfg) is s ->
      (KeepsMoney r.input r.before r.after <->
        ReadsWell cfg r.input r.before) :=
  fun _ hr => keepsMoney_iff (Run.mem_transitions_step hr)

def fiveTenDebit : Memory UInt8 := fun a =>
  if a = 4 then Bytes.putName (fun _ => 0) (ascii "DEBIT")
  else if a = 5 then Bytes.putCredit (fun _ => 0) (51 / 10)
  else fun _ => 0

def twentyTwentyAdded : Input UInt8 :=
  { Input.idle with
    found := some ⟨fun _ => 1, 0x4⟩
    amount := FloatCell.round UInt8 (101 / 5) }

theorem money_kept_of_floats :
    let cfg : Config :=
      ⟨[], "", 0, Vec.replicate 6 0xff, Vec.replicate 6 0xff⟩
    forall r, r ∈ Run.transitions (step cfg) [twentyTwentyAdded]
        (enter (World.start (fun _ => fiveTenDebit) .caisse)) ->
      KeepsMoney r.input r.before r.after := by
  intro cfg r hr
  apply (money_kept_iff cfg _ _ r hr).mpr
  intro target _ _
  rw [List.mem_singleton.mp (Run.mem_transitions_input hr)]
  refine ⟨Card.readResult_accepting _, fun _ _ => Card.readResult_accepting _,
    fun _ _ contents htorn _ => ?_⟩
  cases htorn

def fiveDebit : Memory Rat := fun a =>
  if a = 5 then Bytes.putCredit (fun _ => 0) 5 else emptyDebit a

/-- The name of a DEBIT card is not read: the card is created again. -/
theorem unread_card_created :
    let cfg : Config :=
      ⟨[], "", 0, Vec.replicate 6 0xff, Vec.replicate 6 0xff⟩
    let inp : Input Rat :=
      { Input.idle with
        found := some ⟨fun _ => 1, 0x4⟩
        reading := fun a =>
          if a = 4 then
            { Answers.accepting with
              read := .rejected }
          else Answers.accepting }
    exists r, r ∈ Run.transitions (step cfg) [inp]
        (enter (World.start (fun _ => fiveDebit) .caisse)) ∧
      ¬ KeepsMoney r.input r.before r.after := by
  intro cfg inp
  let s : Loop Unit Rat := enter (World.start (fun _ => fiveDebit) .caisse)
  have hstep : (step cfg inp s).isSome = true := by
    decide +kernel
  rcases Option.isSome_iff_exists.mp hstep with ⟨s', hs'⟩
  refine ⟨⟨s, inp, s'⟩, ?_, ?_⟩
  · rw [Run.transitions_single hs']
    exact List.mem_singleton_self _
  · rw [keepsMoney_iff hs']
    intro hreads
    have hwell := hreads ⟨fun _ => 1, 0x4⟩ (by decide +kernel)
      (by decide +kernel)
    exact absurd hwell.name (by decide +kernel)

end Caisse

end BeeGadz
