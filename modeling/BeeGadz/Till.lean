import BeeGadz.Ledger

/-!
# Caisse and Kve in turn

Runs of the two modes at which an amount is typed, on the same cards and with a
reader that accepts everything.  Neither mode looks at the sign of an amount.
-/

namespace BeeGadz

open Foundation

structure Input.Accepted {β : Type} (inp : Input β) : Prop where
  reading : inp.reading = Session.accepts
  ticketing : inp.ticketing = Session.accepts
  writing : inp.writing = Session.accepts

namespace Till

inductive Head (β : Type) where
  | caisse (s : Loop Unit β)
  | kve (s : Loop Kve.Locals β)

/-- A round of the current mode, or a change to one of them. -/
inductive Move (β : Type) where
  | round (inp : Input β)
  | toCaisse
  | toKve (clock : Int)

def Head.world {β : Type} : Head β -> World β
  | .caisse s => s.world
  | .kve s => s.world

variable {β : Type} [FloatCell β]

def step (cfg : Config) : Move β -> Head β -> Option (Head β)
  | .round inp, .caisse s => (Caisse.step cfg inp s).map .caisse
  | .round inp, .kve s => (Kve.step cfg inp s).map .kve
  | .toCaisse, head => some (.caisse (Caisse.enter head.world))
  | .toKve clock, head => some (.kve (Kve.enter clock head.world))

def credit (head : Head β) (uid : Uid) : Rat :=
  Memory.credit (head.world.mem uid)

def Move.Accepted : Move β -> Prop
  | .round inp => inp.Accepted
  | .toCaisse => True
  | .toKve _ => True

/-- A round of Caisse lowers no credit, a round of Kve raises none. -/
def Directed (r : Transition (Move β) (Head β)) : Prop :=
  match r.input, r.before with
  | .round _, .caisse _ =>
      forall uid, credit r.before uid ≤ credit r.after uid
  | .round _, .kve _ =>
      forall uid, credit r.after uid ≤ credit r.before uid
  | _, _ => True

/-- The amount of the round is added to the credit of the card. -/
def TopsUp (inp : Input β) (mem : Memory β) : Prop :=
  mem.Says .debit ∧ inp.amount ≤ 250

/-- The amount of the round is taken from the credit of the card, which is not
0. -/
def Sells (inp : Input β) (l : Kve.Locals) (mem : Memory β) : Prop :=
  mem.Says .debit ∧ ¬ (Kve.wanted inp l = true ∧ mem.tickets ≠ 0) ∧
    inp.amount ≤ mem.credit ∧ mem.credit ≠ 0

instance (inp : Input β) (mem : Memory β) : Decidable (TopsUp inp mem) :=
  inferInstanceAs (Decidable (_ ∧ _))

instance (inp : Input β) (l : Kve.Locals) (mem : Memory β) :
    Decidable (Sells inp l mem) :=
  inferInstanceAs (Decidable (_ ∧ _ ∧ _ ∧ _))

/-- An amount that is added in Caisse is not negative, and neither is one that
is taken in Kve from a credit other than 0. -/
def Signed (cfg : Config) (r : Transition (Move β) (Head β)) : Prop :=
  match r.input, r.before with
  | .round inp, .caisse s =>
      forall target,
        Loop.arrival (cfg.getKeys true) inp s.card = some target ->
          TopsUp inp (s.world.mem target.uid) -> 0 ≤ inp.amount
  | .round inp, .kve s =>
      forall target,
        Loop.arrival (cfg.getKeys false) inp s.card = some target ->
          Sells inp s.locals (s.world.mem target.uid) -> 0 ≤ inp.amount
  | _, _ => True

/-!
## One round
-/

def added (cfg : Config) (inp : Input β) (s : Loop Unit β) (uid : Uid) :
    Rat :=
  match Loop.arrival (cfg.getKeys true) inp s.card with
  | some target =>
      if target.uid = uid ∧ TopsUp inp (s.world.mem target.uid) then inp.amount
      else 0
  | none => 0

def taken (cfg : Config) (inp : Input β) (s : Loop Kve.Locals β)
    (uid : Uid) : Rat :=
  match Loop.arrival (cfg.getKeys false) inp s.card with
  | some target =>
      if target.uid = uid ∧ Sells inp s.locals (s.world.mem target.uid) then
        inp.amount
      else 0
  | none => 0

theorem added_of_arrival {cfg : Config} {inp : Input β} {s : Loop Unit β}
    {target : Target}
    (h : Loop.arrival (cfg.getKeys true) inp s.card = some target)
    (uid : Uid) :
    added cfg inp s uid =
      if target.uid = uid ∧ TopsUp inp (s.world.mem target.uid) then
        inp.amount
      else 0 := by
  unfold added
  rw [h]

theorem taken_of_arrival {cfg : Config} {inp : Input β}
    {s : Loop Kve.Locals β} {target : Target}
    (h : Loop.arrival (cfg.getKeys false) inp s.card = some target)
    (uid : Uid) :
    taken cfg inp s uid =
      if target.uid = uid ∧ Sells inp s.locals (s.world.mem target.uid) then
        inp.amount
      else 0 := by
  unfold taken
  rw [h]

theorem loaded_of_accepted {inp : Input β} (h : inp.Accepted)
    (keys : Vec UInt8) (target : Target) (a : Nat) :
    Loop.Loaded inp keys target a := by
  unfold Loop.Loaded
  rw [h.reading]
  exact Card.readResult_accepting _

theorem stores_of_accepted {inp : Input β} (h : inp.Accepted)
    (keys : Vec UInt8) (target : Target) (a : Nat) :
    (Card.fresh target keys : Card β).Stores (inp.writing a) := by
  rw [h.writing]
  exact Card.stores_accepting _

theorem seen_of_accepted {inp : Input β} (h : inp.Accepted)
    (keys : Vec UInt8) (target : Target) (mem : Memory β) :
    Loop.seen inp keys target mem = mem := by
  funext a
  exact Loop.seen_of_loaded mem (loaded_of_accepted h keys target a)

variable [ExactFloat β]

theorem caisse_credit {cfg : Config} {inp : Input β} (hinp : inp.Accepted)
    {s s' : Loop Unit β} (h : Caisse.step cfg inp s = some s') (uid : Uid) :
    Memory.credit (s'.world.mem uid) =
      Memory.credit (s.world.mem uid) + added cfg inp s uid := by
  have hrun := Caisse.step_run h
  cases harrival : Loop.arrival (cfg.getKeys true) inp s.card with
  | none =>
      rw [harrival] at hrun
      rcases hrun with ⟨reads, _, hsees⟩
      simp only [added, harrival]
      rw [hsees.mem, add_zero]
  | some target =>
      rw [harrival] at hrun
      rw [added_of_arrival harrival]
      rcases hrun with ⟨s₁, c, hsees, hc, hpresented, hserves⟩
      have hstores := stores_of_accepted hinp (cfg.getKeys true) target
      have hview := seen_of_accepted hinp (cfg.getKeys true) target
        (s.world.mem target.uid)
      have hdebit : c.isDebit <->
          Memory.Says (s.world.mem target.uid) .debit := by
        rw [hpresented.isDebit_iff, hview]
      cases hserves with
      | still named idle keeps =>
          rw [keeps.mem, hsees.mem, if_neg, add_zero]
          intro hgiven
          rcases hgiven with ⟨_, hsay, hfits⟩
          exact absurd (idle (hdebit.mpr hsay)) (not_lt_of_ge hfits)
      | create roleless c' card blocks flushed speaks =>
          have hblank : ¬ Memory.Says (s.world.mem target.uid) .debit :=
            fun hsay => roleless.right.right.right (hdebit.mpr hsay)
          rw [hsees.mem] at flushed
          rcases Card.Flushed.created hpresented flushed with
            ⟨hothers, hleft⟩
          rw [if_neg (fun hall => hblank hall.right.left), add_zero]
          by_cases huid : uid = target.uid
          · rcases created_of_stores (hstores 4) (hstores 5)
                (s.world.mem target.uid) (Loop.seen inp (cfg.getKeys true)
                  target (s.world.mem target.uid)) with ⟨hsay, hzero⟩
            have hbefore : Memory.credit (s.world.mem target.uid) = 0 :=
              if_neg hblank
            rw [huid, hleft, Memory.credit_of_says hsay, hzero, hbefore]
          · rw [hothers uid huid]
      | deposit debit fits c' card stays adds said speaks quiet unread sent =>
          have hsay := hdebit.mp debit
          by_cases hzero : inp.amount = 0
          · rw [(stays hzero).right, hsees.mem, hzero, ite_self, add_zero]
          · have hflushed := (adds hzero).right
            rw [hsees.mem] at hflushed
            have hadded := hflushed.toppedUp hpresented.unmodified
            rw [hpresented.uid, hpresented.credit_eq debit, hview,
              leaves_eq_left hpresented.frame,
              left_of_stores (hstores 5)] at hadded
            rcases hadded with ⟨hothers, hname, hcredit⟩
            by_cases huid : target.uid = uid
            · subst huid
              have hafter : Memory.Says (s'.world.mem target.uid) .debit := by
                rw [Memory.Says, hname]
                exact hsay
              rw [if_pos ⟨rfl, hsay, le_of_not_gt fits⟩,
                Memory.credit_of_says hafter, hcredit,
                Bytes.credit_putCredit, add_comm]
            · rw [hothers uid (fun heq => huid heq.symm),
                if_neg (fun hall => huid hall.left), add_zero]

theorem kve_credit {cfg : Config} {inp : Input β} (hinp : inp.Accepted)
    {s s' : Loop Kve.Locals β} (h : Kve.step cfg inp s = some s')
    (uid : Uid) :
    Memory.credit (s'.world.mem uid) =
      Memory.credit (s.world.mem uid) - taken cfg inp s uid := by
  have hrun := Kve.step_run h
  cases harrival : Loop.arrival (cfg.getKeys false) inp s.card with
  | none =>
      rw [harrival] at hrun
      simp only [taken, harrival]
      rw [hrun.left, sub_zero]
  | some target =>
      rw [harrival] at hrun
      rw [taken_of_arrival harrival]
      rcases hrun with ⟨s₁, c, hc, hmem, _, hpresented, hserves⟩
      have hview := seen_of_accepted hinp (cfg.getKeys false) target
        (s.world.mem target.uid)
      have hdebit : c.isDebit <->
          Memory.Says (s.world.mem target.uid) .debit := by
        rw [hpresented.isDebit_iff, hview]
      cases hserves with
      | still idle keeps =>
          rw [keeps.mem, hmem, if_neg, sub_zero]
          intro hgiven
          rcases hgiven with ⟨_, hsay, _, hcovers, _⟩
          have hshort := (idle (hdebit.mpr hsay)).right
          rw [hpresented.credit_eq (hdebit.mpr hsay), hview] at hshort
          exact absurd hcovers (not_le_of_gt hshort)
      | ticket c' debit wants card frame blocks flushed sent =>
          rw [hmem] at flushed
          have hkept : forall {a}, a ≠ 6 ->
              s'.world.mem uid a = s.world.mem uid a := fun ha =>
            flushed.ticketTaken hpresented.unmodified ha uid
          rw [Memory.credit_congr (hkept (by decide)) (hkept (by decide)),
            if_neg, sub_zero]
          intro hgiven
          rcases hgiven with ⟨_, _, hwants, _⟩
          have hticket := (hpresented.hasTicket_iff debit).mp wants.right
          rw [hview] at hticket
          exact hwants ⟨wants.left, hticket⟩
      | sale c' debit wants covers card charged sent =>
          have hsay := hdebit.mp debit
          have hpaid := charged.memory hpresented.unmodified.onlyPending
            (by simp)
          rw [hpresented.hasTicket_iff debit, hview] at wants
          rw [hpresented.credit_eq debit, hview] at covers
          rw [hmem, hpresented.uid, hpresented.credit_eq debit, hview,
            leaves_eq_left hpresented.frame,
            left_of_stores (stores_of_accepted hinp _ _ 5)] at hpaid
          rcases hpaid with ⟨hothers, hname, hcredit⟩
          by_cases huid : target.uid = uid
          · subst huid
            have hafter : Memory.Says (s'.world.mem target.uid) .debit := by
              rw [Memory.Says, hname]
              exact hsay
            rw [Memory.credit_of_says hafter, hcredit]
            by_cases hzero : Memory.credit (s.world.mem target.uid) = 0
            · rw [if_pos hzero, if_neg (fun hall =>
                hall.right.right.right.right hzero), sub_zero,
                Memory.credit_of_says hsay]
            · rw [if_neg hzero, if_pos ⟨rfl, hsay, wants, covers, hzero⟩,
                Bytes.credit_putCredit]
          · rw [hothers uid (fun heq => huid heq.symm),
              if_neg (fun hall => huid hall.left), sub_zero]

omit [ExactFloat β] in
theorem added_nonneg_iff {cfg : Config} {inp : Input β} {s : Loop Unit β} :
    (forall uid, 0 ≤ added cfg inp s uid) <->
      forall target,
        Loop.arrival (cfg.getKeys true) inp s.card = some target ->
          TopsUp inp (s.world.mem target.uid) -> 0 ≤ inp.amount := by
  constructor
  · intro h target harrival htops
    have hadded := h target.uid
    rwa [added_of_arrival harrival, if_pos ⟨rfl, htops⟩] at hadded
  · intro h uid
    cases harrival : Loop.arrival (cfg.getKeys true) inp s.card with
    | none => simp [added, harrival]
    | some target =>
        rw [added_of_arrival harrival]
        split
        · rename_i hall
          exact h target harrival hall.right
        · exact le_refl 0

omit [ExactFloat β] in
theorem taken_nonneg_iff {cfg : Config} {inp : Input β}
    {s : Loop Kve.Locals β} :
    (forall uid, 0 ≤ taken cfg inp s uid) <->
      forall target,
        Loop.arrival (cfg.getKeys false) inp s.card = some target ->
          Sells inp s.locals (s.world.mem target.uid) -> 0 ≤ inp.amount := by
  constructor
  · intro h target harrival hsells
    have htaken := h target.uid
    rwa [taken_of_arrival harrival, if_pos ⟨rfl, hsells⟩] at htaken
  · intro h uid
    cases harrival : Loop.arrival (cfg.getKeys false) inp s.card with
    | none => simp [taken, harrival]
    | some target =>
        rw [taken_of_arrival harrival]
        split
        · rename_i hall
          exact h target harrival hall.right
        · exact le_refl 0

omit [ExactFloat β] in
/-- Kve never takes more than there is. -/
theorem taken_le {cfg : Config} {inp : Input β} {s : Loop Kve.Locals β}
    {uid : Uid} (h : 0 ≤ Memory.credit (s.world.mem uid)) :
    taken cfg inp s uid ≤ Memory.credit (s.world.mem uid) := by
  unfold taken
  split
  · split
    · rename_i hall
      exact hall.left ▸ hall.right.right.right.left
    · exact h
  · exact h

theorem directed_iff {cfg : Config} {r : Transition (Move β) (Head β)}
    (hmove : r.input.Accepted) (h : step cfg r.input r.before = some r.after) :
    Directed r <-> Signed cfg r := by
  rcases r with ⟨before, move, after⟩
  cases move with
  | toCaisse => exact ⟨fun _ => trivial, fun _ => trivial⟩
  | toKve clock => exact ⟨fun _ => trivial, fun _ => trivial⟩
  | round inp =>
      cases before with
      | caisse s =>
          rcases Option.map_eq_some_iff.mp h with ⟨s', hs', rfl⟩
          have hcredit := caisse_credit hmove hs'
          have hdirected : Directed (⟨.caisse s, .round inp, .caisse s'⟩ :
              Transition (Move β) (Head β)) <->
                forall uid, 0 ≤ added cfg inp s uid := by
            apply forall_congr'
            intro uid
            have hafter : credit (.caisse s') uid =
                credit (.caisse s) uid + added cfg inp s uid := hcredit uid
            rw [hafter]
            exact le_add_iff_nonneg_right _
          exact hdirected.trans added_nonneg_iff
      | kve s =>
          rcases Option.map_eq_some_iff.mp h with ⟨s', hs', rfl⟩
          have hcredit := kve_credit hmove hs'
          have hdirected : Directed (⟨.kve s, .round inp, .kve s'⟩ :
              Transition (Move β) (Head β)) <->
                forall uid, 0 ≤ taken cfg inp s uid := by
            apply forall_congr'
            intro uid
            have hafter : credit (.kve s') uid =
                credit (.kve s) uid - taken cfg inp s uid := hcredit uid
            rw [hafter]
            exact sub_le_self_iff _
          exact hdirected.trans taken_nonneg_iff

def Solvent (head : Head β) : Prop :=
  forall uid, 0 ≤ credit head uid

theorem solvent_step {cfg : Config} {r : Transition (Move β) (Head β)}
    (hmove : r.input.Accepted) (h : step cfg r.input r.before = some r.after)
    (hsigned : Signed cfg r) (hsolvent : Solvent r.before) :
    Solvent r.after := by
  rcases r with ⟨before, move, after⟩
  cases move with
  | toCaisse =>
      have hafter : after = .caisse (Caisse.enter before.world) :=
        (Option.some.inj h).symm
      subst hafter
      exact hsolvent
  | toKve clock =>
      have hafter : after = .kve (Kve.enter clock before.world) :=
        (Option.some.inj h).symm
      subst hafter
      exact hsolvent
  | round inp =>
      cases before with
      | caisse s =>
          rcases Option.map_eq_some_iff.mp h with ⟨s', hs', rfl⟩
          intro uid
          have hafter : credit (.caisse s') uid =
              credit (.caisse s) uid + added cfg inp s uid :=
            caisse_credit hmove hs' uid
          rw [hafter]
          exact add_nonneg (hsolvent uid) (added_nonneg_iff.mpr hsigned uid)
      | kve s =>
          rcases Option.map_eq_some_iff.mp h with ⟨s', hs', rfl⟩
          intro uid
          have hafter : credit (.kve s') uid =
              credit (.kve s) uid - taken cfg inp s uid :=
            kve_credit hmove hs' uid
          rw [hafter]
          exact sub_nonneg.mpr (taken_le (hsolvent uid))

/-- From credits that are not negative, no round of Caisse lowers a credit, no
round of Kve raises one and no credit gets negative, exactly when the amounts
that are added or taken are not negative. -/
theorem directed_and_solvent_iff (cfg : Config) (moves : List (Move β))
    (hmoves : forall move, move ∈ moves -> move.Accepted) (head : Head β)
    (hsolvent : Solvent head) :
    ((forall r, r ∈ Run.transitions (step cfg) moves head -> Directed r) ∧
      forall first last, first <+: moves ->
        Run.head (step cfg) first head = some last -> Solvent last) <->
    forall r, r ∈ Run.transitions (step cfg) moves head -> Signed cfg r := by
  constructor
  · intro h r hr
    exact (directed_iff (hmoves _ (Run.mem_transitions_input hr))
      (Run.mem_transitions_step hr)).mp (h.left r hr)
  · intro h
    constructor
    · intro r hr
      exact (directed_iff (hmoves _ (Run.mem_transitions_input hr))
        (Run.mem_transitions_step hr)).mpr (h r hr)
    · intro first last hfirst hlast
      apply Run.invariant_head ?_ hsolvent hlast
      intro r hr hbefore
      have hall := (Run.transitions_isPrefix hfirst).subset hr
      exact solvent_step (hmoves _ (Run.mem_transitions_input hall))
        (Run.mem_transitions_step hr) (h r hall) hbefore

theorem directed_and_solvent_of_ten :
    let cfg : Config :=
      ⟨[], "", 0, Vec.replicate 6 0xff, Vec.replicate 6 0xff⟩
    let head : Head Rat :=
      .caisse (Caisse.enter (World.start (fun _ => emptyDebit) .caisse))
    let moves := [Move.round tenAdded, .toKve 0, .round tenAdded]
    (forall r, r ∈ Run.transitions (step cfg) moves head -> Directed r) ∧
      forall first last, first <+: moves ->
        Run.head (step cfg) first head = some last -> Solvent last := by
  intro cfg head moves
  have hten : tenAdded.Accepted := ⟨rfl, rfl, rfl⟩
  have hmoves : forall move : Move Rat, move ∈ moves -> move.Accepted := by
    intro move hmove
    rcases List.mem_cons.mp hmove with rfl | hmove
    · exact hten
    rcases List.mem_cons.mp hmove with rfl | hmove
    · exact trivial
    rw [List.mem_singleton.mp hmove]
    exact hten
  have hsolvent : Solvent head := by
    intro uid
    change 0 ≤ Memory.credit emptyDebit
    decide +kernel
  apply (directed_and_solvent_iff cfg moves hmoves head hsolvent).mpr
  intro r hr
  have hmove := Run.mem_transitions_input hr
  have hamount : 0 ≤ tenAdded.amount := by
    decide +kernel
  rcases r with ⟨before, move, after⟩
  rcases List.mem_cons.mp hmove with rfl | hmove
  · cases before with
    | caisse s => exact fun _ _ _ => hamount
    | kve s => exact fun _ _ _ => hamount
  rcases List.mem_cons.mp hmove with rfl | hmove
  · trivial
  rw [show move = .round tenAdded from List.mem_singleton.mp hmove]
  cases before with
  | caisse s => exact fun _ _ _ => hamount
  | kve s => exact fun _ _ _ => hamount

theorem negative_top_up :
    let cfg : Config :=
      ⟨[], "", 0, Vec.replicate 6 0xff, Vec.replicate 6 0xff⟩
    let head : Head Rat :=
      .caisse (Caisse.enter (World.start (fun _ => emptyDebit) .caisse))
    let inp : Input Rat :=
      { tenAdded with
        amount := -10 }
    inp.Accepted ∧ Solvent head ∧
      exists last, Run.head (step cfg) [.round inp] head = some last ∧
        ¬ Directed ⟨head, .round inp, last⟩ ∧ ¬ Solvent last := by
  intro cfg head inp
  have hsolvent : Solvent head := by
    intro uid
    change 0 ≤ Memory.credit emptyDebit
    decide +kernel
  have hstep : (Caisse.step cfg inp (Caisse.enter
      (World.start (fun _ => emptyDebit) .caisse))).isSome = true := by
    decide +kernel
  rcases Option.isSome_iff_exists.mp hstep with ⟨s', hs'⟩
  have hinp : inp.Accepted := ⟨rfl, rfl, rfl⟩
  have hcredit : credit (.caisse s') (fun _ => 1) =
      credit head (fun _ => 1) +
        added cfg inp (Caisse.enter
          (World.start (fun _ => emptyDebit) .caisse)) (fun _ => 1) :=
    caisse_credit hinp hs' _
  have hlast : credit (.caisse s') (fun _ => 1) < 0 := by
    rw [hcredit]
    decide +kernel
  refine ⟨hinp, hsolvent, .caisse s', ?_, ?_, ?_⟩
  · simp [Run.head, step, head, hs']
  · intro hdirected
    have hraised := hdirected (fun _ => 1)
    exact absurd (le_trans (hsolvent _) hraised) (not_le_of_gt hlast)
  · intro h
    exact absurd (h (fun _ => 1)) (not_le_of_gt hlast)

end Till

end BeeGadz
