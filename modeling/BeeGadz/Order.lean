import BeeGadz.Order.Round

/-!
# The order is what was shown

A customer sees a tab: the consos that were shown since it was last given up or
settled, and when the last one was.  The map of Bar and its time follow the tab
in every run in which the shown consos are configured; a card for a conso that
is not leaves its unit in the map before its lookup throws.
-/

namespace BeeGadz

open Foundation

namespace Bar

variable {β : Type} [FloatCell β]

structure Seen where
  /-- the key `-`, or the removal of a card that is not a CONSO card -/
  cancels : Bool
  clock : Int
  shown : Shown

/-- What was shown since the last reset, and the clock of the last CONSO card of
the run. -/
structure Tab where
  shown : List Nat
  last : Option Int

def Tab.Expired (tab : Tab) (clock : Int) : Prop :=
  exists last, tab.last = some last ∧ clock - last ≥ 10

instance (tab : Tab) (clock : Int) : Decidable (tab.Expired clock) :=
  match h : tab.last with
  | none => .isFalse fun ⟨_, hlast, _⟩ => by simp [h] at hlast
  | some last =>
      if hlate : clock - last ≥ 10 then .isTrue ⟨last, h, hlate⟩
      else .isFalse fun ⟨other, hother, hlate'⟩ => by
        rw [h] at hother
        cases hother
        exact hlate hlate'

def Tab.looked (tab : Tab) (seen : Seen) : List Nat :=
  if seen.cancels = true ∨ tab.Expired seen.clock then [] else tab.shown

/-- The tab after a round.  It is reset by a cancellation, after ten seconds, by
a tag that is lost while it is read, and by a DEBIT card. -/
def Tab.next (tab : Tab) (seen : Seen) : Tab :=
  match seen.shown with
  | .nothing => { tab with shown := tab.looked seen }
  | .lost => { tab with shown := [] }
  | .debit => { tab with shown := [] }
  | .conso id => ⟨tab.looked seen ++ [id], some seen.clock⟩

def see (cfg : Config) (r : Transition (HashOrder × Input β) (Loop Locals β)) :
    Seen where
  cancels := decide (r.input.2.key = 45 ∨ Removed r.input.2 r.before)
  clock := r.input.2.clock
  shown := shown cfg r.input.2 r.before

def Tab.after (cfg : Config)
    (past : List (Transition (HashOrder × Input β) (Loop Locals β))) : Tab :=
  past.foldl (fun tab r => tab.next (see cfg r)) ⟨[], none⟩

structure Tab.Followed (cfg : Config) (tab : Tab) (l : Locals) : Prop where
  tallies : Counter.Tallies sizeValues l.conso tab.shown
  known : forall id, id ∈ tab.shown -> id < cfg.getNbConso
  time : tab.shown ≠ [] -> tab.last = some l.time

/-- Every CONSO card that is shown is for a conso that is configured. -/
def ShowsKnown (cfg : Config)
    (past : List (Transition (HashOrder × Input β) (Loop Locals β))) : Prop :=
  forall r, r ∈ past -> forall id, shown cfg r.input.2 r.before = .conso id ->
    id < cfg.getNbConso

/-!
## The map follows the tab
-/

theorem Tab.after_snoc (cfg : Config)
    (past : List (Transition (HashOrder × Input β) (Loop Locals β)))
    (r : Transition (HashOrder × Input β) (Loop Locals β)) :
    Tab.after cfg (past ++ [r]) = (Tab.after cfg past).next (see cfg r) := by
  rw [Tab.after, List.foldl_append]
  rfl

theorem followed_start (cfg : Config) (clock : Int) (w : World β) :
    let past : List (Transition (HashOrder × Input β) (Loop Locals β)) := []
    ShowsKnown cfg past ->
      (Tab.after cfg past).Followed cfg (enter clock w).locals :=
  fun _ =>
    { tallies := Counter.tallies_empty sizeValues
      known := fun _ hid => absurd hid List.not_mem_nil
      time := fun h => absurd rfl h }

section Followed

variable {cfg : Config} {tab : Tab} {l : Locals}

omit [FloatCell β] in
theorem followed_cleared (inp : Input β) (l : Locals)
    (last : Option Int) : Tab.Followed cfg ⟨[], last⟩ (cleared inp l) where
  tallies := by
    rw [cleared_conso]
    exact Counter.tallies_empty sizeValues
  known := fun _ hid => absurd hid List.not_mem_nil
  time := fun h => absurd rfl h

theorem Tab.Followed.configured (h : tab.Followed cfg l) :
    Known cfg l.conso :=
  fun k hk => h.known k ((h.tallies.keys k).mp hk)

theorem followed_conso {id : Nat} {l' : Locals} {clock : Int}
    (h : tab.Followed cfg l) (hid : id < cfg.getNbConso)
    (horder : l'.conso = increment l.conso id)
    (htime : Known cfg l'.conso -> l'.time = clock) :
    Tab.Followed cfg ⟨tab.shown ++ [id], some clock⟩ l' where
  tallies := by
    rw [horder]
    exact h.tallies.add id
  known := by
    intro k hk
    rcases List.mem_append.mp hk with hk | hk
    · exact h.known k hk
    · rw [List.mem_singleton.mp hk]
      exact hid
  time := by
    intro _
    have hknown : Known cfg l'.conso := by
      rw [horder]
      exact h.configured.increment hid
    rw [htime hknown]

theorem followed_looked {inp : Input β} {s : Loop Locals β} {seen : Seen}
    (h : tab.Followed cfg s.locals)
    (hcancels : seen.cancels = true <-> inp.key = 45 ∨ Removed inp s)
    (hclock : seen.clock = inp.clock) :
    Tab.Followed cfg ⟨tab.looked seen, tab.last⟩ (lookedLocals inp s) := by
  unfold Tab.looked lookedLocals
  by_cases hshown : tab.shown = []
  · have hsame : cleared inp s.locals = s.locals := by
      have hempty : s.locals.conso = ∅ := by
        have htallies := h.tallies
        rw [hshown] at htallies
        exact htallies.eq_empty
      rw [cleared, hempty]
      rfl
    rw [hshown, ite_self, hsame, ite_self]
    rw [← hsame]
    exact followed_cleared inp s.locals tab.last
  · have htime := h.time hshown
    have hexpired : tab.Expired seen.clock <->
        inp.clock - s.locals.time ≥ 10 := by
      rw [Tab.Expired, htime, hclock]
      simp
    have hgiven : (seen.cancels = true ∨ tab.Expired seen.clock) <->
        GivenUp inp s := by
      rw [hcancels, hexpired, GivenUp, or_assoc]
      exact or_congr_right or_comm
    by_cases hgives : GivenUp inp s
    · rw [if_pos hgives, if_pos (hgiven.mpr hgives)]
      exact followed_cleared inp s.locals tab.last
    · rw [if_neg hgives, if_neg (fun hgive => hgives (hgiven.mp hgive))]
      exact h

theorem followed_round {hash : HashOrder} {inp : Input β}
    {s s' : Loop Locals β} (h : tab.Followed cfg s.locals)
    (hstep : step cfg (hash, inp) s = some s')
    (hid : forall id, shown cfg inp s = .conso id -> id < cfg.getNbConso) :
    (tab.next (see cfg ⟨s, (hash, inp), s'⟩)).Followed cfg s'.locals := by
  have hleaves := step_leaves hstep
  have hlooked : Tab.Followed cfg
      ⟨tab.looked (see cfg ⟨s, (hash, inp), s'⟩), tab.last⟩
      (lookedLocals inp s) :=
    followed_looked h (by simp [see]) rfl
  have hseen : (see cfg ⟨s, (hash, inp), s'⟩).shown = shown cfg inp s := rfl
  unfold Tab.next
  rw [hseen]
  cases hshown : shown cfg inp s with
  | nothing =>
      rw [hshown] at hleaves
      rw [show s'.locals = lookedLocals inp s from hleaves]
      exact hlooked
  | lost =>
      rw [hshown] at hleaves
      rw [show s'.locals = cleared inp (lookedLocals inp s) from hleaves]
      exact followed_cleared inp _ _
  | conso id =>
      rw [hshown] at hleaves
      exact followed_conso hlooked (hid id hshown) hleaves.left hleaves.right
  | debit =>
      rw [hshown] at hleaves
      rw [show s'.locals = cleared inp (lookedLocals inp s) from
        hleaves hlooked.configured]
      exact followed_cleared inp _ _

end Followed

theorem followed_snoc {cfg : Config}
    (past : List (Transition (HashOrder × Input β) (Loop Locals β)))
    (s : Loop Locals β) (i : HashOrder × Input β) (t : Loop Locals β)
    (h : ShowsKnown cfg past -> (Tab.after cfg past).Followed cfg s.locals)
    (hstep : step cfg i s = some t) :
    ShowsKnown cfg (past ++ [⟨s, i, t⟩]) ->
      (Tab.after cfg (past ++ [⟨s, i, t⟩])).Followed cfg t.locals := by
  intro hknown
  rw [Tab.after_snoc]
  apply followed_round (h fun r hr => hknown r (List.mem_append_left _ hr))
    hstep
  exact hknown ⟨s, i, t⟩ (by simp)

theorem followed_head {cfg : Config} {is : List (HashOrder × Input β)}
    {clock : Int} {w : World β} {s : Loop Locals β}
    (h : Run.head (step cfg) is (enter clock w) = some s)
    (hknown : ShowsKnown cfg (Run.transitions (step cfg) is (enter clock w))) :
    (Tab.after cfg (Run.transitions (step cfg) is (enter clock w))).Followed cfg
      s.locals := by
  have hrun := Run.invariant_history
    (I := fun past s => ShowsKnown cfg past ->
      (Tab.after cfg past).Followed cfg s.locals)
    followed_snoc (followed_start cfg clock w) h
  exact hrun hknown

theorem followed_before {cfg : Config} {is : List (HashOrder × Input β)}
    {clock : Int} {w : World β}
    {front back : List (Transition (HashOrder × Input β) (Loop Locals β))}
    {r : Transition (HashOrder × Input β) (Loop Locals β)}
    (h : Run.transitions (step cfg) is (enter clock w) = front ++ r :: back)
    (hknown : ShowsKnown cfg front) :
    (Tab.after cfg front).Followed cfg r.before.locals := by
  have hrun := Run.invariant_earlier
    (I := fun past s => ShowsKnown cfg past ->
      (Tab.after cfg past).Followed cfg s.locals)
    followed_snoc (followed_start cfg clock w) h
  exact hrun hknown

/-!
## The order and the tab
-/

/-- The memory of a card is changed in the round, or rows are sent. -/
def Charges (r : Transition (HashOrder × Input β) (Loop Locals β)) : Prop :=
  r.after.world.mem ≠ r.before.world.mem ∨
    rows r.after.world.log ≠ rows r.before.world.log

theorem ordered_of_charges {cfg : Config}
    {r : Transition (HashOrder × Input β) (Loop Locals β)}
    (hstep : step cfg r.input r.before = some r.after) (h : Charges r) :
    isEmpty (orderAt r.input.2 r.before) = false := by
  have hrun := step_run hstep
  cases harrival : Loop.arrival (cfg.getKeys false) r.input.2 r.before.card with
  | none =>
      rw [harrival] at hrun
      exact absurd h (not_or.mpr ⟨not_not.mpr hrun.left, not_not.mpr hrun.right⟩)
  | some target =>
      rw [harrival] at hrun
      rcases hrun with ⟨s₁, c, _, hmem, hrows, _, hserves⟩
      cases hserves with
      | settle debit ordered c' card sent settles sends => exact ordered
      | still idle keeps =>
          have hsame : ¬ Charges r := by
            rw [Charges, keeps.mem, hmem, keeps.rows, hrows]
            simp
          exact absurd h hsame

theorem recent_of_ordered {cfg : Config} {tab : Tab} {inp : Input β}
    {s : Loop Locals β} (h : tab.Followed cfg s.locals)
    (hordered : isEmpty (orderAt inp s) = false) :
    exists last, tab.last = some last ∧ inp.clock - last < 10 := by
  unfold orderAt at hordered
  split at hordered
  · cases hordered
  · rename_i hkept
    have hshown : tab.shown ≠ [] := by
      intro hnone
      have htallies := h.tallies
      rw [hnone] at htallies
      rw [htallies.eq_empty] at hordered
      cases hordered
    refine ⟨s.locals.time, h.time hshown, ?_⟩
    rw [not_or, not_or] at hkept
    omega

/-- At every loop head the order is what was shown: its keys are the consos on
the tab, and each counter is the number of times that its conso is there, up to
the width of the counter.  No round charges ten seconds or more after the last
CONSO card. -/
theorem order_is_shown {cfg : Config} {is : List (HashOrder × Input β)}
    {clock : Int} {w : World β} {s : Loop Locals β}
    (h : Run.head (step cfg) is (enter clock w) = some s)
    (hknown : ShowsKnown cfg (Run.transitions (step cfg) is (enter clock w))) :
    let past := Run.transitions (step cfg) is (enter clock w)
    let shown := (Tab.after cfg past).shown
    (forall k, k ∈ s.locals.conso <-> k ∈ shown) ∧
    (forall k, count s.locals.conso k = shown.count k % sizeValues) ∧
    (forall k, k ∈ s.locals.conso -> shown.count k < sizeValues ->
      count s.locals.conso k = shown.count k ∧ 0 < count s.locals.conso k) ∧
    forall front r back, past = front ++ r :: back -> Charges r ->
      exists last, (Tab.after cfg front).last = some last ∧
        r.input.2.clock - last < 10 := by
  intro past shown
  have hfollowed := followed_head h hknown
  refine ⟨hfollowed.tallies.keys, hfollowed.tallies.counts, ?_, ?_⟩
  · intro k hk hlt
    exact ⟨hfollowed.tallies.exact hlt, hfollowed.tallies.positive hk hlt⟩
  · intro front r back hpast hcharges
    have hfront : ShowsKnown cfg front := by
      intro r' hr'
      apply hknown r'
      rw [show Run.transitions (step cfg) is (enter clock w) = _ from hpast]
      exact List.mem_append_left _ hr'
    have hr : r ∈ Run.transitions (step cfg) is (enter clock w) := by
      rw [show Run.transitions (step cfg) is (enter clock w) = _ from hpast]
      simp
    apply recent_of_ordered (followed_before hpast hfront)
    exact ordered_of_charges (Run.mem_transitions_step hr) hcharges

def consoCard (id : UInt8) : Memory Rat := fun a =>
  if a = 4 then Bytes.putName (fun _ => 0) (ascii "CONSO")
  else if a = 5 then Bytes.putFirst (fun _ => 0) id
  else fun _ => 0

def consoFound (id : UInt8) : Input Rat :=
  { Input.idle with
    found := some ⟨fun _ => id, 0x4⟩ }

def oneConso : Config :=
  ⟨[("Biere", 2)], "", -1, Vec.replicate 6 0xff, Vec.replicate 6 0xff⟩

def consoCards : Loop Locals Rat :=
  enter 0 (World.start (fun uid => consoCard (uid 0)) .bar)

structure Again (s : Loop Locals Rat) : Prop where
  mem : s.world.mem = fun uid => consoCard (uid 0)
  held : givesUp s = false
  time : s.locals.time = 0
  known : Known oneConso s.locals.conso

theorem Again.shown {s : Loop Locals Rat} (h : Again s) :
    shown oneConso (consoFound 0) s = .conso 0 := by
  have hscanned : Loop.scanned (consoFound 0) s.card =
      some ⟨fun _ => 0, 0x4⟩ := by
    simp [Loop.scanned, consoFound, Input.idle]
  unfold Bar.shown
  rw [hscanned, h.mem]
  decide +kernel

theorem Again.next {s : Loop Locals Rat} (h : Again s) :
    exists s', step oneConso (HashOrder.filled, consoFound 0) s = some s' ∧
      Again s' := by
  have hinput : (consoFound 0).key = -1 ∧ (consoFound 0).clock = 0 := ⟨rfl, rfl⟩
  have hgiven : ¬ GivenUp (consoFound 0) s := by
    simp [GivenUp, Removed, hinput, h.time, h.held]
  have horder : orderAt (consoFound 0) s = s.locals.conso := by
    simp [orderAt, hinput, h.time, h.held]
  have hknown : Known oneConso (increment s.locals.conso 0) :=
    h.known.increment (by decide)
  rcases conso_goes_on HashOrder.filled h.shown (horder ▸ hknown) with
    ⟨s', hstep, hmem, hheld⟩
  have hleaves := step_leaves hstep
  rw [h.shown, lookedLocals, if_neg hgiven] at hleaves
  have hknown' : Known oneConso s'.locals.conso := by
    rw [hleaves.left]
    exact hknown
  refine ⟨s', hstep, hmem.trans h.mem, hheld, ?_, hknown'⟩
  exact (hleaves.right hknown').trans hinput.right

theorem Again.run {s : Loop Locals Rat} (h : Again s) (n : Nat) :
    let is := List.replicate n (HashOrder.filled, consoFound 0)
    exists t, Run.head (step oneConso) is s = some t ∧
      (Run.transitions (step oneConso) is s).map (see oneConso) =
        List.replicate n ⟨false, 0, .conso 0⟩ := by
  induction n generalizing s with
  | zero => exact ⟨s, rfl, rfl⟩
  | succ n ih =>
      rcases h.next with ⟨s', hstep, hagain⟩
      rcases ih hagain with ⟨t, hhead, hseen⟩
      have hsee : see oneConso ⟨s, (HashOrder.filled, consoFound 0), s'⟩ =
          ⟨false, 0, .conso 0⟩ := by
        have hcancels : ¬ ((consoFound 0).key = 45 ∨ Removed (consoFound 0) s) := by
          have hkey : (consoFound 0).key = -1 := rfl
          simp [Removed, hkey, h.held]
        simp only [see, h.shown, decide_eq_false hcancels]
        rfl
      refine ⟨t, ?_, ?_⟩
      · rw [List.replicate_succ, Run.head_cons]
        exact ⟨s', hstep, hhead⟩
      · rw [List.replicate_succ, List.replicate_succ, Run.transitions, hstep]
        simp only [List.map_cons, hsee, hseen]

theorem shown_again {tab : Tab} (h : tab.last = none ∨ tab.last = some 0)
    (n : Nat) :
    ((List.replicate n ⟨false, 0, .conso 0⟩).foldl Tab.next tab).shown =
      tab.shown ++ List.replicate n 0 := by
  induction n generalizing tab with
  | zero => simp
  | succ n ih =>
      have hkept : ¬ tab.Expired 0 := by
        intro hall
        rcases hall with ⟨last, hlast, hlate⟩
        cases h with
        | inl hnone =>
            rw [hnone] at hlast
            cases hlast
        | inr hzero =>
            rw [hzero] at hlast
            cases hlast
            omega
      have hnext : tab.next ⟨false, 0, .conso 0⟩ =
          ⟨tab.shown ++ [0], some 0⟩ := by
        simp [Tab.next, Tab.looked, hkept]
      rw [List.replicate_succ, List.foldl_cons, hnext, ih (Or.inr rfl),
        List.append_assoc]
      rfl

theorem again_run (n : Nat) :
    let is := List.replicate n (HashOrder.filled, consoFound 0)
    let past := Run.transitions (step oneConso) is consoCards
    ShowsKnown oneConso past ∧
      (Tab.after oneConso past).shown = List.replicate n 0 ∧
      exists s, Run.head (step oneConso) is consoCards = some s := by
  intro is past
  have hagain : Again consoCards := ⟨rfl, rfl, rfl, known_empty oneConso⟩
  rcases hagain.run n with ⟨s, hhead, hseen⟩
  refine ⟨?_, ?_, s, hhead⟩
  · intro r hr id hid
    have hmem : see oneConso r ∈ past.map (see oneConso) :=
      List.mem_map_of_mem hr
    rw [hseen] at hmem
    have hzero := congrArg Seen.shown (List.eq_of_mem_replicate hmem)
    rw [show (see oneConso r).shown = .conso id from hid] at hzero
    cases hzero
    decide
  · rw [Tab.after, ← List.foldl_map, hseen]
    exact shown_again (Or.inl rfl) n

theorem order_is_shown_of_two :
    let is := List.replicate 2 (HashOrder.filled, consoFound 0)
    exists s, Run.head (step oneConso) is consoCards = some s ∧
      count s.locals.conso 0 = 2 := by
  intro is
  rcases again_run 2 with ⟨hknown, hshown, s, hhead⟩
  have hcounts : count s.locals.conso 0 =
      (Tab.after oneConso (Run.transitions (step oneConso) is consoCards)).shown.count
        0 % sizeValues :=
    (order_is_shown hhead hknown).right.left 0
  rw [hshown] at hcounts
  exact ⟨s, hhead, hcounts⟩

/-- The counter of a conso that is shown as often as it has values is 0. -/
theorem counter_wraps :
    let is := List.replicate sizeValues (HashOrder.filled, consoFound 0)
    let past := Run.transitions (step oneConso) is consoCards
    ShowsKnown oneConso past ∧
      (Tab.after oneConso past).shown.count 0 = sizeValues ∧
      exists s, Run.head (step oneConso) is consoCards = some s ∧
        0 ∈ s.locals.conso ∧ count s.locals.conso 0 = 0 := by
  intro is past
  rcases again_run sizeValues with ⟨hknown, hshown, s, hhead⟩
  have htallies : Counter.Tallies sizeValues s.locals.conso
      (Tab.after oneConso past).shown :=
    (followed_head hhead hknown).tallies
  have hcount : (Tab.after oneConso past).shown.count 0 = sizeValues := by
    rw [hshown, List.count_replicate_self]
  refine ⟨hknown, hcount, s, hhead, ?_, ?_⟩
  · apply (htallies.keys 0).mpr
    rw [hshown]
    exact List.mem_replicate.mpr ⟨by decide, rfl⟩
  · have hvalue := htallies.counts 0
    rw [hcount, Nat.mod_self] at hvalue
    exact hvalue

/-!
## A conso that is not configured
-/

/-- A card for a conso that is not configured leaves the order as it was when
the card was looked at. -/
def BadCardHarmless (cfg : Config)
    (r : Transition (HashOrder × Input β) (Loop Locals β)) : Prop :=
  forall id, shown cfg r.input.2 r.before = .conso id ->
    cfg.getNbConso ≤ id ->
    r.after.locals.conso = (lookedLocals r.input.2 r.before).conso

/-- The settlement finds the price of the order, with or without a ticket. -/
def Priced (β : Type) [FloatCell β] (cfg : Config) (order : Order) : Prop :=
  forall hash,
    (exists price, getPrice β cfg hash order = .ok price) ∧
    forall k, k ∈ order ->
      exists price, getPrice β cfg hash (decrement order k) = .ok price

theorem Known.priced {cfg : Config} {order : Order} (h : Known cfg order) :
    Priced β cfg order :=
  fun _ => ⟨price_iff.mpr h, fun _ hk => price_iff.mpr (h.decrement hk)⟩

theorem increment_ne (order : Order) (k : Nat) : increment order k ≠ order := by
  intro h
  have hcount : Counter.value (increment order k) k =
      (count order k + 1) % sizeValues := by
    rw [increment, Counter.value_insert, if_pos rfl]
  have hsame : Counter.value order k = count order k := rfl
  have hlt := Nat.mod_lt (count order k + 1) (by decide : sizeValues > 0)
  rw [h, hsame] at hcount
  rcases Nat.lt_or_ge (count order k + 1) sizeValues with hfits | hwraps
  · rw [Nat.mod_eq_of_lt hfits] at hcount
    omega
  · have hlast : count order k + 1 = sizeValues := by omega
    rw [hlast, Nat.mod_self] at hcount
    rw [hcount] at hlast
    exact absurd hlast (by decide)

theorem known_looked {cfg : Config} (inp : Input β) {s : Loop Locals β}
    (h : Known cfg s.locals.conso) :
    Known cfg (lookedLocals inp s).conso := by
  unfold lookedLocals
  split
  · rw [cleared_conso]
    exact known_empty cfg
  · exact h

omit [FloatCell β] in
theorem known_of_leaves {cfg : Config} {inp : Input β} {l l' : Locals}
    {what : Shown} (h : what.Leaves cfg inp l l')
    (hid : forall id, what = .conso id -> id < cfg.getNbConso)
    (hknown : Known cfg l.conso) : Known cfg l'.conso := by
  cases what with
  | nothing =>
      rw [show l' = l from h]
      exact hknown
  | lost =>
      rw [show l' = cleared inp l from h, cleared_conso]
      exact known_empty cfg
  | conso id =>
      rw [h.left]
      exact hknown.increment (hid id rfl)
  | debit =>
      rw [show l' = cleared inp l from h hknown, cleared_conso]
      exact known_empty cfg

theorem known_step {cfg : Config} {i : HashOrder × Input β}
    {s s' : Loop Locals β} (hstep : step cfg i s = some s')
    (hid : forall id, shown cfg i.2 s = .conso id -> id < cfg.getNbConso)
    (h : Known cfg s.locals.conso) : Known cfg s'.locals.conso :=
  known_of_leaves (step_leaves hstep) hid (known_looked i.2 h)

/-- In a run from an order that is configured, bad cards leave the order alone
and it stays configured, so that it has a price at every loop head, exactly when
no bad card is shown. -/
theorem bad_card_harmless_iff (cfg : Config) (is : List (HashOrder × Input β))
    {s : Loop Locals β} (hopen : Known cfg s.locals.conso) :
    ((forall r, r ∈ Run.transitions (step cfg) is s -> BadCardHarmless cfg r) ∧
      forall first t, first <+: is ->
        Run.head (step cfg) first s = some t ->
        Known cfg t.locals.conso ∧ Priced β cfg t.locals.conso) <->
    ShowsKnown cfg (Run.transitions (step cfg) is s) := by
  constructor
  · intro h r hr id hshown
    by_contra hbad
    have hleaves : (shown cfg r.input.2 r.before).Leaves cfg r.input.2
        (lookedLocals r.input.2 r.before) r.after.locals :=
      step_leaves (Run.mem_transitions_step hr)
    rw [hshown] at hleaves
    have hkept := h.left r hr id hshown (Nat.le_of_not_lt hbad)
    rw [hleaves.left] at hkept
    exact increment_ne _ id hkept
  · intro h
    refine ⟨?_, ?_⟩
    · intro r hr id hshown hbad
      exact absurd (h r hr id hshown) (Nat.not_lt_of_le hbad)
    · intro first t hfirst ht
      have hknown : Known cfg t.locals.conso := by
        apply Run.invariant_head
          (I := fun t : Loop Locals β => Known cfg t.locals.conso) ?_ hopen ht
        intro r hr
        have hall := (Run.transitions_isPrefix hfirst).subset hr
        exact known_step (Run.mem_transitions_step hr) (h r hall)
      exact ⟨hknown, hknown.priced⟩

theorem bad_card_harmless_of_two :
    let is := List.replicate 2 (HashOrder.filled, consoFound 0)
    forall first t, first <+: is ->
      Run.head (step oneConso) first consoCards = some t ->
      Known oneConso t.locals.conso ∧ Priced Rat oneConso t.locals.conso := by
  intro is
  have hopen : Known oneConso consoCards.locals.conso := known_empty oneConso
  have hshows : ShowsKnown oneConso
      (Run.transitions (step oneConso) is consoCards) :=
    (again_run 2).left
  exact ((bad_card_harmless_iff oneConso is hopen).mpr hshows).right

/-- A bad card is added to an open order, which then has no price. -/
theorem bad_card_added :
    exists s s',
      step oneConso (HashOrder.filled, consoFound 0) consoCards = some s ∧
      Known oneConso s.locals.conso ∧ 0 ∈ s.locals.conso ∧
      step oneConso (HashOrder.filled, consoFound 1) s = some s' ∧
      ¬ BadCardHarmless oneConso
        ⟨s, (HashOrder.filled, consoFound 1), s'⟩ ∧
      ¬ Known oneConso s'.locals.conso ∧
      forall hash price, getPrice Rat oneConso hash s'.locals.conso ≠ .ok price := by
  have hruns : (Run.head (step oneConso)
      [(HashOrder.filled, consoFound 0), (HashOrder.filled, consoFound 1)]
      consoCards).isSome = true := by
    decide +kernel
  have hshown : shown oneConso (consoFound 0) consoCards = .conso 0 := by
    decide +kernel
  have hopen : Known oneConso (increment (orderAt (consoFound 0) consoCards) 0) :=
    (known_empty oneConso).increment (by decide)
  rcases conso_goes_on HashOrder.filled hshown hopen with
    ⟨s, hfirst, hmem, _⟩
  rcases Option.isSome_iff_exists.mp hruns with ⟨s', hrun⟩
  rcases Run.head_cons.mp hrun with ⟨_, hsame, hrest⟩
  cases hfirst.symm.trans hsame
  rcases Run.head_cons.mp hrest with ⟨_, hsecond, hend⟩
  cases hend
  have hgood := (step_leaves hfirst)
  rw [hshown] at hgood
  have hshown' : shown oneConso (consoFound 1) s = .conso 1 := by
    have hscanned : Loop.scanned (consoFound 1) s.card =
        some ⟨fun _ => 1, 0x4⟩ := by
      simp [Loop.scanned, consoFound, Input.idle]
    unfold shown
    rw [hscanned, hmem]
    decide +kernel
  have hbad := step_leaves hsecond
  rw [hshown'] at hbad
  have hunknown : ¬ Known oneConso s'.locals.conso := by
    intro hknown
    have hone : 1 ∈ s'.locals.conso := by
      rw [hbad.left]
      exact (AList.mem_insert _).mpr (Or.inl rfl)
    exact absurd (hknown 1 hone) (by decide)
  refine ⟨s, s', hfirst, ?_, ?_, hsecond, ?_, hunknown, ?_⟩
  · rw [hgood.left]
    exact hopen
  · rw [hgood.left]
    exact (AList.mem_insert _).mpr (Or.inl rfl)
  · intro hharmless
    have hkept := hharmless 1 hshown' (by decide)
    exact increment_ne _ 1 (hbad.left.symm.trans hkept)
  · intro hash price hprice
    exact hunknown (price_iff.mp ⟨price, hprice⟩)

end Bar

end BeeGadz
