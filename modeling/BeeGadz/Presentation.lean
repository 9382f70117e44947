import BeeGadz.Confinement.Round

/-!
# One presentation, one effect

A loop acts on a card when it reaches its dispatch.  Between two dispatches the
reader was asked for the card of the first one and did not find it.
-/

namespace BeeGadz

open Foundation

namespace Loop

variable {ι L β : Type}

/-- A loop whose rounds are given for any dispatch: what a round does up to its
dispatch is what it does with one that leaves at once. -/
structure Rounds (ι L β : Type) where
  round : ι -> LoopM L β Exit -> LoopM L β Exit
  dispatch : ι -> LoopM L β Exit

namespace Rounds

def step (r : Rounds ι L β) (i : ι) (s : Loop L β) : Option (Loop L β) :=
  next (r.round i (r.dispatch i) s)

def before (r : Rounds ι L β) (i : ι) (s : Loop L β) :
    Except Exn Exit × Loop L β :=
  r.round i (pure .leave) s

def Dispatches (r : Rounds ι L β) (i : ι) (s : Loop L β) : Prop :=
  (r.before i s).1 = .ok .leave

/-- The reader is asked for the held card, which is `c`, and does not find
it. -/
def Misses (r : Rounds ι L β) (c : Card β) (i : ι) (s : Loop L β) : Prop :=
  s.card = some c ∧
    .select c.uid false ∈ s.world.since (r.before i s).2.world

/-- Between two dispatches the card of the first one was missed, and nothing
happens while the held card is found. -/
structure OnePresentation (r : Rounds ι L β) (order : L -> Bar.Order) :
    Prop where
  missed : forall {i j : ι} {is : List ι} {s s₁ s₂ : Loop L β},
    r.Dispatches i s -> r.step i s = some s₁ ->
    Run.head r.step is s₁ = some s₂ -> r.Dispatches j s₂ ->
    exists shown held, (r.before i s).2.card = some shown ∧
      s₁.card = some held ∧ held.uid = shown.uid ∧
      ((exists t, t ∈ Run.transitions r.step is s₁ ∧
          r.Misses held t.input t.before) ∨
        r.Misses held j s₂)
  left : forall {is : List ι} {s s' : Loop L β} {c : Card β},
    s.card = some c -> Run.head r.step is s = some s' ->
    (forall t, t ∈ Run.transitions r.step is s ->
      ¬ r.Misses c t.input t.before) ->
    s'.card = some c ∧ s'.world.mem = s.world.mem ∧
      rows s'.world.log = rows s.world.log ∧
      (order s'.locals = order s.locals ∨ order s'.locals = ∅) ∧
      forall t, t ∈ Run.transitions r.step is s ->
        ¬ r.Dispatches t.input t.before

end Rounds

variable [Cell β]

/-!
## The poll for the held card
-/

theorem visit_present (ph : Phases L β) {inp : Input β}
    (dispatch : LoopM L β Exit) {s : Loop L β} {c : Card β}
    (hc : s.card = some c) (hpresent : inp.present = true) :
    visit ph inp dispatch s =
      (.ok .next, { s with
        world := s.world.addLog [.select c.uid true] }) := by
  rcases s with ⟨l, card, r, w⟩
  cases hc
  have hpoll : poll ph inp ⟨l, some c, r, w⟩ =
      (.ok false, ⟨l, some c, r, w.addLog [.select c.uid true]⟩) := by
    simp [poll, Prog.bind_apply, getPointer_apply, onWorld_apply, emit,
      hpresent]
  rw [visit, Prog.bind_of_ok _ hpoll]
  rfl

/-- Whatever is found instead of the held card, it was asked for first. -/
theorem poll_missed {words : List String} {ph : Phases L β}
    (hph : ph.Sound words) {inp : Input β} {s : Loop L β} {c : Card β}
    (hc : s.card = some c) (hmissed : inp.present = false) :
    exists events, (poll ph inp s).2.world.log =
      s.world.log ++ .select c.uid false :: events := by
  rcases s with ⟨l, card, r, w⟩
  cases hc
  let s₁ : Loop L β := ⟨l, some c, r, w.addLog [.select c.uid false]⟩
  rcases (hph.gone s₁ rfl).log with ⟨messages, _, hgoneLog⟩
  rcases scan_run words ph.keys inp.found (missed ph l c r w) with
    ⟨s₂, hwaits, _, _, hscan⟩
  rcases hwaits.log with ⟨scanEvents, _, hscanLog⟩
  rcases (hph.scanned s₂).log with ⟨after, _, hafterLog⟩
  have hbefore : s₂.world.log = w.log ++
      .select c.uid false :: (messages.map Event.info ++ scanEvents) := by
    rw [hscanLog, missed, hgoneLog]
    simp [s₁]
  have hends : scan ph.keys inp.found (missed ph l c r w) = (.ok (), s₂) ∨
      scan ph.keys inp.found (missed ph l c r w) =
        (.error .exception, s₂) := by
    cases hfound : inp.found.filter fun target => target.atqa == 0x4 with
    | none =>
        rw [hfound] at hscan
        cases hscan with
        | inl h => exact Or.inl h.left
        | inr h => exact Or.inr h
    | some target =>
        rw [hfound] at hscan
        exact Or.inl hscan.left
  rw [poll_missing hph hmissed]
  cases hends with
  | inl hok =>
      rw [Prog.bind_of_ok _ hok,
        Prog.bind_of_ok _ (hph.scanned s₂).apply,
        Prog.bind_of_ok _ (getPointer_apply _), Prog.pure_apply]
      refine ⟨messages.map Event.info ++ scanEvents ++ after.map Event.info, ?_⟩
      rw [hafterLog, hbefore]
      simp
  | inr herror =>
      rw [Prog.bind_of_error _ herror]
      exact ⟨_, hbefore⟩

theorem visit_missed {words : List String} {ph : Phases L β}
    (hph : ph.Sound words) {inp : Input β} {s : Loop L β} {c : Card β}
    (hc : s.card = some c) (hmissed : inp.present = false) :
    exists events, (visit ph inp (pure .leave) s).2.world.log =
      s.world.log ++ .select c.uid false :: events := by
  rcases poll_missed hph hc hmissed with ⟨events, hlog⟩
  rcases poll_run hph inp s with ⟨s₁, _, _, hpoll⟩
  cases hscanned : scanned inp s.card with
  | none =>
      rw [hscanned] at hpoll
      have hstate : (visit ph inp (pure .leave) s).2 = (poll ph inp s).2 := by
        cases hpoll with
        | inl h =>
            rw [visit, Prog.bind_of_ok _ h, h]
            rfl
        | inr h => rw [visit, Prog.bind_of_error _ h, h]
      exact ⟨events, hstate ▸ hlog⟩
  | some target =>
      rw [hscanned] at hpoll
      rcases hpoll with ⟨hpoll, hcard, hread⟩
      rcases load_run hph inp target ph.keys hread hcard with
        ⟨s₂, hsees, hload⟩
      have hstate : (visit ph inp (pure .leave) s).2 = s₂ := by
        rw [visit, Prog.bind_of_ok _ hpoll]
        simp only [if_true]
        split at hload
        · rw [Prog.bind_of_ok _ hload.left]
          rfl
        · rw [Prog.bind_of_ok _ hload.left]
          rfl
      rcases hsees.log with ⟨front, back, _, _, hsaw⟩
      rw [hpoll] at hlog
      refine ⟨events ++ (front ++
        (Card.fresh target ph.keys : Card β).readEvents inp.reading
          (s₁.world.mem target.uid) 4 4 ++ back), ?_⟩
      rw [hstate, hsaw, hlog, List.append_assoc, List.cons_append]

namespace Rounds

/-- Each round looks at the keyboard, then at the card; the keyboard adds nothing
to the order. -/
structure Visits (r : Rounds ι L β) (order : L -> Bar.Order)
    (words : List String) (blocks : List Nat) (input : ι -> Input β)
    (ph : ι -> Phases L β) (front : ι -> Loop L β -> Loop L β) : Prop where
  sound : forall i, (ph i).Sound words
  waits : forall i s, Waits words s (front i s)
  card : forall i s, (front i s).card = s.card
  order : forall i s, order (front i s).locals = order s.locals ∨
    order (front i s).locals = ∅
  round : forall i dispatch s,
    r.round i dispatch s =
      guarded (visit (ph i) (input i) dispatch) (front i s)
  confined : forall i, Prog.Moves (Confined blocks) (r.dispatch i)

variable {r : Rounds ι L β} {order : L -> Bar.Order} {words : List String}
  {blocks : List Nat} {input : ι -> Input β} {ph : ι -> Phases L β}
  {front : ι -> Loop L β -> Loop L β}

theorem Visits.dispatches (h : r.Visits order words blocks input ph front)
    {i : ι} {s : Loop L β} (hd : r.Dispatches i s) :
    exists target, arrival (ph i).keys (input i) s.card = some target := by
  have hvisit := guarded_visit_run (h.sound i) (input i) (pure .leave) rfl
    (h.waits i s) (h.card i s)
  cases harrival : arrival (ph i).keys (input i) s.card with
  | some target => exact ⟨target, rfl⟩
  | none =>
      rw [harrival] at hvisit
      rcases hvisit with ⟨s', reads, _, _, _, hrun⟩
      rw [Dispatches, before, h.round, hrun] at hd
      cases hd

theorem Visits.held (h : r.Visits order words blocks input ph front)
    {i : ι} {s s₁ : Loop L β} (hd : r.Dispatches i s)
    (hstep : r.step i s = some s₁) :
    exists shown held, (r.before i s).2.card = some shown ∧
      s₁.card = some held ∧ held.uid = shown.uid := by
  rcases h.dispatches hd with ⟨target, harrival⟩
  have hprobe := guarded_visit_run (h.sound i) (input i) (pure .leave) rfl
    (h.waits i s) (h.card i s)
  have hround := guarded_visit_run (h.sound i) (input i) (r.dispatch i) rfl
    (h.waits i s) (h.card i s)
  rw [harrival] at hprobe hround
  rcases hprobe with ⟨t, shown, _, _, hshown, hpresented, hleave⟩
  rcases hround with ⟨u, c, _, _, hc, hpresented', hrun⟩
  rcases (moves_guarded (h.confined i) u).present c hc hpresented'.ready with
    ⟨held, hheld, hconfines⟩
  refine ⟨shown, held, ?_, ?_, ?_⟩
  · rw [before, h.round, hleave]
    exact hshown
  · have hnext := next_eq_some hstep
    rw [h.round, hrun] at hnext
    rw [hnext] at hheld
    exact hheld
  · rw [hconfines.uid, hpresented'.uid, hpresented.uid]

theorem Visits.misses (h : r.Visits order words blocks input ph front)
    {i : ι} {s : Loop L β} {c : Card β} (hc : s.card = some c)
    (hmissed : (input i).present = false) : r.Misses c i s := by
  have hfront : (front i s).card = some c := (h.card i s).trans hc
  rcases visit_missed (h.sound i) hfront hmissed with ⟨events, hlog⟩
  rcases (h.waits i s).log with ⟨first, _, hfirst⟩
  refine ⟨hc, ?_⟩
  rw [before, h.round, guarded_state, World.since, hlog, hfirst,
    List.append_assoc, List.drop_left]
  simp

/-- What a round leaves as it was when the held card is still there. -/
structure Waiting (order : L -> Bar.Order) (c : Card β) (s s' : Loop L β) :
    Prop where
  card : s'.card = some c
  mem : s'.world.mem = s.world.mem
  rows : rows s'.world.log = rows s.world.log
  order : order s'.locals = order s.locals ∨ order s'.locals = ∅

omit [Cell β] in
theorem Waiting.trans {c : Card β} {s t u : Loop L β}
    (hst : Waiting order c s t) (htu : Waiting order c t u) :
    Waiting order c s u where
  card := htu.card
  mem := htu.mem.trans hst.mem
  rows := htu.rows.trans hst.rows
  order := by
    cases htu.order with
    | inr h => exact Or.inr h
    | inl h =>
        rw [h]
        exact hst.order

theorem Visits.round_found (h : r.Visits order words blocks input ph front)
    {i : ι} {s : Loop L β} {c : Card β} (hc : s.card = some c)
    (hfound : ¬ r.Misses c i s) (dispatch : LoopM L β Exit) :
    r.round i dispatch s =
      (.ok .next, { front i s with
        world := (front i s).world.addLog [.select c.uid true] }) := by
  have hpresent : (input i).present = true := by
    cases hp : (input i).present with
    | true => rfl
    | false => exact absurd (h.misses hc hp) hfound
  rw [h.round]
  exact guarded_of_ok
    (visit_present (ph i) dispatch ((h.card i s).trans hc) hpresent)

/-- The card that is still there is not acted on again. -/
theorem Visits.not_dispatches
    (h : r.Visits order words blocks input ph front) {i : ι} {s : Loop L β}
    {c : Card β} (hc : s.card = some c) (hfound : ¬ r.Misses c i s) :
    ¬ r.Dispatches i s := by
  intro hd
  rw [Dispatches, before, h.round_found hc hfound] at hd
  cases hd

theorem Visits.waiting (h : r.Visits order words blocks input ph front)
    {i : ι} {s s' : Loop L β} {c : Card β} (hc : s.card = some c)
    (hfound : ¬ r.Misses c i s) (hstep : r.step i s = some s') :
    Waiting order c s s' := by
  have hnext := next_eq_some hstep
  rw [h.round_found hc hfound] at hnext
  cases hnext
  have hrows : rows (front i s).world.log = rows s.world.log :=
    (h.waits i s).sees.rows rfl
  refine ⟨(h.card i s).trans hc, (h.waits i s).mem, ?_, h.order i s⟩
  rw [← hrows]
  simp [rows, Event.row]

theorem Visits.waiting_run (h : r.Visits order words blocks input ph front)
    {is : List ι} {s s' : Loop L β} {c : Card β} (hc : s.card = some c)
    (hhead : Run.head r.step is s = some s')
    (hfound : forall t, t ∈ Run.transitions r.step is s ->
      ¬ r.Misses c t.input t.before) :
    Waiting order c s s' ∧
      forall t, t ∈ Run.transitions r.step is s ->
        ¬ r.Dispatches t.input t.before := by
  have hstart : Waiting order c s s := ⟨hc, rfl, rfl, Or.inl rfl⟩
  have hkeep : forall t, t ∈ Run.transitions r.step is s ->
      Waiting order c s t.before -> Waiting order c s t.after := by
    intro t ht hbefore
    exact hbefore.trans (h.waiting hbefore.card (hfound t ht)
      (Run.mem_transitions_step ht))
  constructor
  · exact Run.invariant_head hkeep hstart hhead
  · intro t ht
    have hbefore := Run.invariant_before hkeep hstart ht
    exact h.not_dispatches hbefore.card (hfound t ht)

theorem Visits.onePresentation
    (h : r.Visits order words blocks input ph front) :
    r.OnePresentation order where
  left := by
    intro is s s' c hc hhead hfound
    rcases h.waiting_run hc hhead hfound with ⟨hwaiting, hnone⟩
    exact ⟨hwaiting.card, hwaiting.mem, hwaiting.rows, hwaiting.order, hnone⟩
  missed := by
    intro i j is s s₁ s₂ hfirst hstep hhead hsecond
    rcases h.held hfirst hstep with ⟨shown, held, hshown, hheld, huid⟩
    refine ⟨shown, held, hshown, hheld, huid, ?_⟩
    by_contra hnever
    have hfound : forall t, t ∈ Run.transitions r.step is s₁ ->
        ¬ r.Misses held t.input t.before :=
      fun t ht hmiss => hnever (Or.inl ⟨t, ht, hmiss⟩)
    have hwaiting := (h.waiting_run hheld hhead hfound).left
    have hlast : ¬ r.Misses held j s₂ := fun hmiss => hnever (Or.inr hmiss)
    exact h.not_dispatches hwaiting.card hlast hsecond

end Rounds

end Loop

/-!
## The three loops
-/

variable {β : Type} [FloatCell β]

def Bar.rounds (cfg : Config) :
    Loop.Rounds (Bar.HashOrder × Input β) Bar.Locals β where
  round inp dispatch := do
    Loop.onWorld (print inp.2.screenClock inp.2.shownClock)
    Loop.guarded do
      Bar.cancelByKey inp.2
      Bar.cancelByTime inp.2
      Loop.visit (Bar.phases cfg inp.2) inp.2 dispatch
  dispatch inp := Bar.dispatch cfg inp.1 inp.2

def Kve.rounds (cfg : Config) : Loop.Rounds (Input β) Kve.Locals β where
  round inp dispatch := Loop.guarded do
    Kve.cancelByKey inp
    Kve.cancelByTime inp
    Kve.addByKey inp
    Loop.visit (Kve.phases cfg) inp dispatch
  dispatch inp := Kve.dispatch cfg inp

def Caisse.rounds (cfg : Config) : Loop.Rounds (Input β) Unit β where
  round inp dispatch :=
    Loop.guarded (Loop.visit (Caisse.phases cfg) inp dispatch)
  dispatch inp := Caisse.dispatch cfg inp

theorem Bar.rounds_step (cfg : Config) :
    (Bar.rounds cfg : Loop.Rounds (Bar.HashOrder × Input β) _ _).step =
      Bar.step cfg := rfl

theorem Kve.rounds_step (cfg : Config) :
    (Kve.rounds cfg : Loop.Rounds (Input β) _ _).step = Kve.step cfg := rfl

theorem Caisse.rounds_step (cfg : Config) :
    (Caisse.rounds cfg : Loop.Rounds (Input β) _ _).step =
      Caisse.step cfg := rfl

theorem Bar.visits (cfg : Config) :
    (Bar.rounds cfg : Loop.Rounds (Bar.HashOrder × Input β) _ _).Visits
      Bar.Locals.conso Bar.words [5, 6] (fun inp => inp.2)
      (fun inp => Bar.phases cfg inp.2) (fun inp => Bar.afterKeys inp.2) where
  sound inp := Bar.phases_sound cfg inp.2
  waits inp s := Bar.waits_afterKeys inp.2 s
  card inp s := Bar.afterKeys_card inp.2 s
  order := by
    intro inp s
    rw [Bar.afterKeys_locals]
    split
    · exact Or.inr (Bar.cleared_conso _ _)
    · exact Or.inl rfl
  round inp dispatch s :=
    Loop.guarded_congr (Bar.body_apply cfg inp.2 dispatch s)
  confined inp := (Bar.built_dispatch cfg inp.1 inp.2).confined

theorem Kve.visits (cfg : Config) :
    (Kve.rounds cfg : Loop.Rounds (Input β) _ _).Visits (fun _ => ∅)
      Kve.words [5, 6] id (fun _ => Kve.phases cfg) Kve.afterKeys where
  sound _ := Kve.phases_sound cfg
  waits := Kve.waits_afterKeys
  card := Kve.afterKeys_card
  order _ _ := Or.inl rfl
  round inp dispatch s :=
    Loop.guarded_congr (Kve.body_apply cfg inp dispatch s)
  confined inp := (Kve.built_dispatch cfg inp).confined

theorem Caisse.visits (cfg : Config) :
    (Caisse.rounds cfg : Loop.Rounds (Input β) _ _).Visits (fun _ => ∅)
      Caisse.words [4, 5, 6] id (fun _ => Caisse.phases cfg)
      (fun _ s => s) where
  sound _ := Caisse.phases_sound cfg
  waits _ s := Loop.Waits.refl _ s
  card _ _ := rfl
  order _ _ := Or.inl rfl
  round _ _ _ := rfl
  confined inp := (Caisse.built_dispatch cfg inp).confined

/-- In all three loops a card that is left on the reader is acted on at most
once. -/
theorem one_presentation (cfg : Config) :
    ((Bar.rounds cfg :
        Loop.Rounds (Bar.HashOrder × Input β) _ _).OnePresentation
      Bar.Locals.conso ∧
      (Bar.rounds cfg : Loop.Rounds (Bar.HashOrder × Input β) _ _).step =
        Bar.step cfg) ∧
    ((Kve.rounds cfg : Loop.Rounds (Input β) _ _).OnePresentation
      (fun _ => ∅) ∧
      (Kve.rounds cfg : Loop.Rounds (Input β) _ _).step = Kve.step cfg) ∧
    ((Caisse.rounds cfg : Loop.Rounds (Input β) _ _).OnePresentation
      (fun _ => ∅) ∧
      (Caisse.rounds cfg : Loop.Rounds (Input β) _ _).step =
        Caisse.step cfg) :=
  ⟨⟨(Bar.visits cfg).onePresentation, Bar.rounds_step cfg⟩,
    ⟨(Kve.visits cfg).onePresentation, Kve.rounds_step cfg⟩,
    ⟨(Caisse.visits cfg).onePresentation, Caisse.rounds_step cfg⟩⟩

end BeeGadz
