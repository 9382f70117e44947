import BeeGadz.ModeMachine.Round

/-!
# The mode that runs and the mode of the configuration

The two are kept apart by the Admin menu only: it runs while the configuration
holds the mode that is to run next.
-/

namespace BeeGadz

open Foundation

/-- The mode whose `run` was called. -/
def Running.mode {β : Type} : Running β -> Option ConfigMode
  | .bar _ => some .bar
  | .kve _ => some .kve
  | .caisse _ => some .caisse
  | .admin _ => some .admin
  | .ended _ => none

namespace Loop

def EndsAtAdmin {L β : Type} [Cell β] (r : Except Exn Exit × Loop L β) :
    Prop :=
  r.1 = .ok .leave ∧ exists c, r.2.card = some c ∧ c.testCard "ADMIN"

end Loop

namespace Application

variable {β : Type} [FloatCell β]

def selected (r : Transition (Input β) (Application β)) : Option ConfigMode :=
  match r.before.running with
  | .admin s => Admin.selectedIn r.input.menu s
  | _ => none

/-- Admin is left with the key `0`. -/
def Quits (r : Transition (Input β) (Application β)) : Prop :=
  exists s, r.before.running = .admin s ∧ s.locals = .main ∧
    r.input.menu.key = 48

inductive ShowsAdmin (cfg : Config)
    (r : Transition (Input β) (Application β)) : ConfigMode -> Prop
  | bar (s : Loop Bar.Locals β) (running : r.before.running = .bar s)
      (ends : Loop.EndsAtAdmin (Bar.round cfg r.input.hash r.input.sale s)) :
      ShowsAdmin cfg r .bar
  | kve (s : Loop Kve.Locals β) (running : r.before.running = .kve s)
      (ends : Loop.EndsAtAdmin (Kve.round cfg r.input.sale s)) :
      ShowsAdmin cfg r .kve
  | caisse (s : Loop Unit β) (running : r.before.running = .caisse s)
      (ends : Loop.EndsAtAdmin (Caisse.round cfg r.input.sale s)) :
      ShowsAdmin cfg r .caisse

/-- What a round of the application does to the two modes. -/
inductive Turn (cfg : Config) (inp : Input β) (app app' : Application β) :
    Prop
  | stays (mode : ConfigMode) (kept : ¬ Quits ⟨app, inp, app'⟩)
      (before : app.running.mode = some mode)
      (after : app'.running.mode = some mode)
      (configured : app'.world.mode =
        (selected ⟨app, inp, app'⟩).getD app.world.mode)
      (saved : app'.tmp = app.tmp ∨ app'.tmp = app'.world.mode)
  | shows (mode : ConfigMode) (shown : ShowsAdmin cfg ⟨app, inp, app'⟩ mode)
      (before : app.running.mode = some mode)
      (after : app'.running.mode = some .admin)
      (configured : app'.world.mode = app.tmp) (saved : app'.tmp = app.tmp)
  | quits (quit : Quits ⟨app, inp, app'⟩)
      (after : app'.running.mode = some app.world.mode)
      (configured : app'.world.mode =
        if app.world.mode = .admin then app.tmp else app.world.mode)
      (saved : app'.tmp = app'.world.mode)
  | ends (kept : ¬ Quits ⟨app, inp, app'⟩)
      (after : app'.running.mode = none)

omit [FloatCell β] in
theorem Quits.before {r : Transition (Input β) (Application β)}
    (h : Quits r) : r.before.running.mode = some .admin := by
  rcases h with ⟨s, hrunning, _⟩
  rw [hrunning]
  rfl

omit [FloatCell β] in
theorem Quits.selected {r : Transition (Input β) (Application β)}
    (h : Quits r) : selected r = none := by
  rcases h with ⟨s, hrunning, hmenu, _⟩
  simp [Application.selected, hrunning, Admin.selectedIn, hmenu]

omit [FloatCell β] in
theorem selected_eq_none {r : Transition (Input β) (Application β)}
    (h : r.before.running.mode ≠ some .admin) : selected r = none := by
  unfold selected
  split
  · rename_i hrunning
    rw [hrunning] at h
    exact absurd rfl h
  · rfl

omit [FloatCell β] in
/-- Only selling modes can be selected. -/
theorem selected_ne_admin {r : Transition (Input β) (Application β)}
    {mode : ConfigMode} (h : selected r = some mode) : mode ≠ .admin := by
  intro heq
  rcases heq with rfl
  unfold selected at h
  split at h
  · unfold Admin.selectedIn Admin.selection at h
    split at h
    · split at h
      · cases h
      · split at h
        · cases h
        · split at h <;> cases h
    · cases h
  · cases h

theorem ShowsAdmin.selling {cfg : Config}
    {r : Transition (Input β) (Application β)} {mode : ConfigMode}
    (h : ShowsAdmin cfg r mode) : mode ≠ .admin := by
  cases h <;> simp

omit [FloatCell β] in
theorem enter_mode (clock : Int) (mode : ConfigMode) (w : World β) :
    (enter clock mode w).mode = some mode := by
  cases mode <;> rfl

omit [FloatCell β] in
theorem enter_world_mode (clock : Int) (mode : ConfigMode) (w : World β) :
    (enter clock mode w).world.mode = w.mode := by
  cases mode <;> rfl

/-!
## One round
-/

omit [FloatCell β] in
theorem replace_run (clock : Int) (tmp : ConfigMode) (w : World β) :
    (replace clock tmp w).running.mode = some w.mode ∧
      (replace clock tmp w).world.mode =
        (if w.mode = .admin then tmp else w.mode) ∧
      (replace clock tmp w).tmp = (replace clock tmp w).world.mode := by
  have hmode : (replace clock tmp w).tmp =
      if w.mode = .admin then tmp else w.mode := by
    unfold replace
    dsimp only
    split <;> rename_i h
    · exact (if_pos h).symm
    · exact (if_neg h).symm
  have hworld : (replace clock tmp w).world.mode =
      (replace clock tmp w).tmp := enter_world_mode _ _ _
  exact ⟨enter_mode _ _ _, hworld.trans hmode, hworld.symm⟩

theorem turn_selling {L : Type} {cfg : Config} {inp : Input β}
    {app app' : Application β} {mode : ConfigMode} (hmode : mode ≠ .admin)
    {s : Loop L β} (round : LoopM L β Exit) (next : Loop L β -> Running β)
    (hleaves : Loop.Leaves s (round s))
    (hnext : forall s, (next s).mode = some mode ∧ (next s).world = s.world)
    (hrunning : app.running = next s)
    (hshows : Loop.EndsAtAdmin (round s) ->
      ShowsAdmin cfg ⟨app, inp, app'⟩ mode)
    (h : finish inp.clock app mode next (returned round s) = app') :
    Turn cfg inp app app' := by
  have hbefore : app.running.mode = some mode := by
    rw [hrunning]
    exact (hnext s).left
  have hselling : app.running.mode ≠ some .admin := by
    rw [hbefore]
    intro h
    exact hmode (Option.some.inj h)
  have hselected : selected ⟨app, inp, app'⟩ = none :=
    selected_eq_none hselling
  have hkeeps : ¬ Quits ⟨app, inp, app'⟩ := fun hquit => hselling hquit.before
  have hworld : app.world.mode = s.world.mode := by
    rw [world, hrunning, (hnext s).right]
  rcases hrun : round s with ⟨result, s'⟩
  rw [hrun] at hleaves hshows
  cases result with
  | ok e =>
      cases e with
      | next =>
          have hreturned : returned round s = (.ok none, s') :=
            Prog.bind_of_ok _ hrun
          have hkept := hleaves.stay fun hleave => by cases hleave
          rw [hreturned] at h
          subst h
          refine .stays mode hkeeps hbefore (hnext s').left ?_ (Or.inl rfl)
          rw [hselected, hworld]
          show (next s').world.mode = s.world.mode
          rw [(hnext s').right]
          exact hkept
      | leave =>
          have hreturned : returned round s = (.ok (some true), s') :=
            Prog.bind_of_ok _ hrun
          have hleft := hleaves.leave rfl
          rw [hreturned] at h
          subst h
          rcases replace_run inp.clock app.tmp s'.world with
            ⟨hafter, hconfigured, hsaved⟩
          rw [hleft.left] at hafter
          rw [if_pos hleft.left] at hconfigured
          exact .shows mode (hshows ⟨rfl, hleft.right⟩) hbefore hafter
            hconfigured (hsaved.trans hconfigured)
  | error e =>
      have hreturned : returned round s = (.error e, s') :=
        Prog.bind_of_error _ hrun
      have hkept := hleaves.stay fun hleave => by cases hleave
      rw [hreturned] at h
      subst h
      cases e with
      | exception =>
          have hentered : (enter inp.clock mode s'.world).world.mode =
              s'.world.mode := enter_world_mode _ _ _
          refine .stays mode hkeeps hbefore
            (enter_mode inp.clock mode s'.world) ?_ (Or.inr hentered.symm)
          rw [hselected, hworld]
          exact hentered.trans hkept
      | crash => exact .ends hkeeps rfl

theorem turn_admin {cfg : Config} {inp : Input β} {app app' : Application β}
    {s : Loop Admin.Menu β} (hrunning : app.running = .admin s)
    (h : finish inp.clock app .admin .admin (Admin.round cfg inp.menu s) =
      app') : Turn cfg inp app app' := by
  have hbefore : app.running.mode = some .admin := by
    rw [hrunning]
    rfl
  have hworld : app.world.mode = s.world.mode := by
    rw [world, hrunning]
    rfl
  have hselected : selected ⟨app, inp, app'⟩ =
      Admin.selectedIn inp.menu s := by
    simp only [selected, hrunning]
  rcases Admin.round_run cfg inp.menu s with ⟨hmode, hquit⟩
  rcases hrun : Admin.round cfg inp.menu s with ⟨result, s'⟩
  rw [hrun] at h hmode hquit
  have hkeeps : result ≠ .ok (some true) -> ¬ Quits ⟨app, inp, app'⟩ := by
    intro hresult hall
    rcases hall with ⟨s₁, hs₁, hmenu, hkey⟩
    have hsame : Running.admin s = .admin s₁ := hrunning.symm.trans hs₁
    cases hsame
    exact hresult (hquit.mpr ⟨hmenu, hkey⟩)
  have hstays : result ≠ .ok (some true) ->
      app'.running.mode = some .admin ->
      app'.world.mode = s'.world.mode ->
      (app'.tmp = app.tmp ∨ app'.tmp = app'.world.mode) ->
      Turn cfg inp app app' := by
    intro hresult hafter hmode' hsaved
    refine .stays .admin (hkeeps hresult) hbefore hafter ?_ hsaved
    rw [hselected, hmode', hworld]
    exact hmode
  cases result with
  | ok ended =>
      cases ended with
      | none =>
          subst h
          exact hstays (by simp) rfl rfl (Or.inl rfl)
      | some stayed =>
          cases stayed with
          | true =>
              subst h
              rcases hquit.mp rfl with ⟨hmenu, hkey⟩
              have hkept : s'.world.mode = app.world.mode := by
                have hnone : Admin.selectedIn inp.menu s = none := by
                  simp [Admin.selectedIn, hmenu]
                rw [hmode, hnone, hworld]
                rfl
              rcases replace_run inp.clock app.tmp s'.world with
                ⟨hafter, hconfigured, hsaved⟩
              rw [hkept] at hafter hconfigured
              exact .quits ⟨s, hrunning, hmenu, hkey⟩ hafter hconfigured hsaved
          | false =>
              subst h
              exact .ends (hkeeps (by simp)) rfl
  | error e =>
      subst h
      cases e with
      | exception =>
          have hentered : (enter inp.clock .admin s'.world).world.mode =
              s'.world.mode := enter_world_mode _ _ _
          exact hstays (by simp) (enter_mode inp.clock .admin s'.world)
            hentered (Or.inr hentered.symm)
      | crash => exact .ends (hkeeps (by simp)) rfl

theorem step_turn {cfg : Config} {inp : Input β} {app app' : Application β}
    (h : step cfg inp app = some app') : Turn cfg inp app app' := by
  cases hrunning : app.running with
  | bar s =>
      have hfinish : finish inp.clock app .bar .bar
          (returned (Bar.round cfg inp.hash inp.sale) s) = app' := by
        rw [step, hrunning] at h
        exact Option.some.inj h
      exact turn_selling (by decide) (Bar.round cfg inp.hash inp.sale) .bar
        (Bar.leaves_round cfg inp.hash inp.sale s) (fun _ => ⟨rfl, rfl⟩)
        hrunning (fun hends => .bar s hrunning hends) hfinish
  | kve s =>
      have hfinish : finish inp.clock app .kve .kve
          (returned (Kve.round cfg inp.sale) s) = app' := by
        rw [step, hrunning] at h
        exact Option.some.inj h
      exact turn_selling (by decide) (Kve.round cfg inp.sale) .kve
        (Kve.leaves_round cfg inp.sale s) (fun _ => ⟨rfl, rfl⟩) hrunning
        (fun hends => .kve s hrunning hends) hfinish
  | caisse s =>
      have hfinish : finish inp.clock app .caisse .caisse
          (returned (Caisse.round cfg inp.sale) s) = app' := by
        rw [step, hrunning] at h
        exact Option.some.inj h
      exact turn_selling (by decide) (Caisse.round cfg inp.sale) .caisse
        (Caisse.leaves_round cfg inp.sale s) (fun _ => ⟨rfl, rfl⟩) hrunning
        (fun hends => .caisse s hrunning hends) hfinish
  | admin s =>
      rw [step, hrunning] at h
      exact turn_admin hrunning (Option.some.inj h)
  | ended w =>
      rw [step, hrunning] at h
      cases h

/-!
## All rounds
-/

/-- What holds at every head, whatever happened before it. -/
structure Agrees (app : Application β) : Prop where
  selling : forall mode, mode ≠ .admin -> app.running.mode = some mode ->
    app.world.mode = mode ∧ app.tmp = mode
  admin : app.running.mode = some .admin -> app.world.mode = .admin ->
    app.tmp = .admin

theorem Turn.agrees {cfg : Config} {inp : Input β} {app app' : Application β}
    (h : Turn cfg inp app app') (hagrees : Agrees app) : Agrees app' := by
  cases h with
  | stays mode kept before after configured saved =>
      constructor
      · intro other hother hrunning
        have hsame : mode = other := Option.some.inj (after.symm.trans hrunning)
        subst hsame
        have hnone : selected ⟨app, inp, app'⟩ = none := by
          apply selected_eq_none
          intro hadmin
          exact hother (Option.some.inj (before.symm.trans hadmin))
        rcases hagrees.selling mode hother before with ⟨hworld, htmp⟩
        rw [hnone] at configured
        have hconfigured : app'.world.mode = mode := configured.trans hworld
        refine ⟨hconfigured, ?_⟩
        cases saved with
        | inl h => exact h.trans htmp
        | inr h => exact h.trans hconfigured
      · intro hrunning hadmin
        have hbefore : app.running.mode = some .admin := by
          rw [before, ← after, hrunning]
        cases hselected : selected ⟨app, inp, app'⟩ with
        | some other =>
            rw [hselected] at configured
            exact absurd (configured.symm.trans hadmin)
              (selected_ne_admin hselected)
        | none =>
            rw [hselected] at configured
            have htmp := hagrees.admin hbefore
              (configured.symm.trans hadmin)
            cases saved with
            | inl h => exact h.trans htmp
            | inr h => exact h.trans hadmin
  | shows mode shown before after configured saved =>
      constructor
      · intro other hother hrunning
        exact absurd (Option.some.inj (after.symm.trans hrunning)).symm hother
      · intro _ hadmin
        rw [saved, ← configured, hadmin]
  | quits quit after configured saved =>
      constructor
      · intro other hother hrunning
        have hmode : app.world.mode = other :=
          Option.some.inj (after.symm.trans hrunning)
        rw [hmode, if_neg hother] at configured
        exact ⟨configured, saved.trans configured⟩
      · intro _ hadmin
        exact saved.trans hadmin
  | ends kept after =>
      constructor
      · intro other _ hrunning
        rw [after] at hrunning
        cases hrunning
      · intro hrunning
        rw [after] at hrunning
        cases hrunning

omit [FloatCell β] in
theorem start_agrees (clock : Int) (w : World β) : Agrees (start clock w) where
  selling := by
    intro mode _ hrunning
    have hmode : some w.mode = some mode :=
      (enter_mode clock w.mode (createMode w)).symm.trans hrunning
    cases hmode
    exact ⟨enter_world_mode _ _ _, rfl⟩
  admin := by
    intro hrunning _
    have hmode : some w.mode = some .admin :=
      (enter_mode clock w.mode (createMode w)).symm.trans hrunning
    exact Option.some.inj hmode

def InAdmin (r : Transition (Input β) (Application β)) : Prop :=
  r.before.running.mode = some .admin ∧ r.after.running.mode = some .admin

/-- Admin was entered after these rounds: at an ADMIN card shown to the mode, or
as the mode the application started in. -/
def Enters (cfg : Config) (w : World β)
    (rounds : List (Transition (Input β) (Application β)))
    (mode : ConfigMode) : Prop :=
  (rounds = [] ∧ w.mode = .admin ∧ mode = .admin) ∨
    exists earlier r, rounds = earlier ++ [r] ∧ ShowsAdmin cfg r mode

/-- The mode that was last selected since Admin was entered, or the one that was
running then. -/
structure Remembered (cfg : Config) (w : World β)
    (past : List (Transition (Input β) (Application β)))
    (mode : ConfigMode) : Prop where
  entered : exists front since first, past = front ++ since ∧
    (forall r, r ∈ since -> InAdmin r) ∧ Enters cfg w front first ∧
    mode = (since.filterMap selected).getLast?.getD first
  started : mode = .admin -> w.mode = .admin ∧ past.filterMap selected = []

theorem Remembered.next {cfg : Config} {w : World β}
    {past : List (Transition (Input β) (Application β))} {mode : ConfigMode}
    (h : Remembered cfg w past mode)
    {r : Transition (Input β) (Application β)} (hr : InAdmin r) :
    Remembered cfg w (past ++ [r]) ((selected r).getD mode) where
  entered := by
    rcases h.entered with ⟨front, since, first, hpast, hsince, henters, hmode⟩
    refine ⟨front, since ++ [r], first, by rw [hpast, List.append_assoc], ?_,
      henters, ?_⟩
    · intro q hq
      cases List.mem_append.mp hq with
      | inl hq => exact hsince q hq
      | inr hq => exact List.mem_singleton.mp hq ▸ hr
    · cases hselected : selected r with
      | none => simp [hselected, hmode]
      | some other => simp [hselected]
  started := by
    intro hadmin
    cases hselected : selected r with
    | some other =>
        rw [hselected] at hadmin
        exact absurd hadmin (selected_ne_admin hselected)
    | none =>
        rw [hselected] at hadmin
        rcases h.started hadmin with ⟨hstart, hnone⟩
        exact ⟨hstart, by simp [hnone, hselected]⟩

/-- What holds at a head, given the rounds before it. -/
structure Invariant (cfg : Config) (w : World β)
    (past : List (Transition (Input β) (Application β)))
    (app : Application β) : Prop where
  agrees : Agrees app
  remembered : app.running.mode = some .admin ->
    Remembered cfg w past app.world.mode

theorem Invariant.next {cfg : Config} {w : World β}
    {past : List (Transition (Input β) (Application β))} {inp : Input β}
    {app app' : Application β} (h : Invariant cfg w past app)
    (hstep : step cfg inp app = some app') :
    Invariant cfg w (past ++ [⟨app, inp, app'⟩]) app' where
  agrees := (step_turn hstep).agrees h.agrees
  remembered := by
    intro hrunning
    cases step_turn hstep with
    | stays mode kept before after configured saved =>
        have hbefore : app.running.mode = some .admin := by
          rw [before, ← after, hrunning]
        rw [configured]
        exact (h.remembered hbefore).next ⟨hbefore, hrunning⟩
    | shows mode shown before after configured saved =>
        have htmp := (h.agrees.selling mode shown.selling before).right
        rw [configured, htmp]
        refine ⟨⟨_, [], mode, by simp, by simp,
          Or.inr ⟨past, _, rfl, shown⟩, rfl⟩, ?_⟩
        intro hadmin
        exact absurd hadmin shown.selling
    | quits quit after configured saved =>
        have hadmin : app.world.mode = .admin :=
          Option.some.inj (after.symm.trans hrunning)
        have hbefore := quit.before
        have hnext := (h.remembered hbefore).next
          (r := ⟨app, inp, app'⟩) ⟨hbefore, hrunning⟩
        rw [quit.selected, Option.getD_none] at hnext
        rw [configured, if_pos hadmin, h.agrees.admin hbefore hadmin, ← hadmin]
        exact hnext
    | ends kept after =>
        rw [after] at hrunning
        cases hrunning

omit [FloatCell β] in
theorem start_running (clock : Int) (w : World β) :
    (start clock w).running.mode = some w.mode :=
  enter_mode clock w.mode (createMode w)

theorem start_invariant (cfg : Config) (clock : Int) (w : World β) :
    Invariant cfg w [] (start clock w) where
  agrees := start_agrees clock w
  remembered := by
    intro hrunning
    have hmode : w.mode = .admin :=
      Option.some.inj ((start_running clock w).symm.trans hrunning)
    have hworld : (start clock w).world.mode = w.mode := enter_world_mode _ _ _
    rw [hworld, hmode]
    exact ⟨⟨[], [], .admin, rfl, by simp, Or.inl ⟨rfl, hmode, rfl⟩, rfl⟩,
      fun _ => ⟨hmode, rfl⟩⟩

/-- The mode of the configuration is the one that runs, and while Admin runs the
one that will. -/
theorem mode_machine {cfg : Config} {clock : Int} {w : World β}
    {is : List (Input β)} {app : Application β}
    (h : Run.head (step cfg) is (start clock w) = some app) :
    let past := Run.transitions (step cfg) is (start clock w)
    (forall mode, mode ≠ .admin -> app.running.mode = some mode ->
        app.world.mode = mode) ∧
      (app.running.mode = some .admin ->
        Remembered cfg w past app.world.mode) ∧
      (forall r, r ∈ past -> Quits r ->
        r.after.running.mode = some r.before.world.mode ∧
          r.after.world.mode = r.before.world.mode) ∧
      forall r, r ∈ past -> r.before.running.mode ≠ some .admin ->
        r.after.running.mode = some .admin ->
        exists mode, ShowsAdmin cfg r mode := by
  intro past
  have hinvariant : Invariant cfg w past app :=
    Run.invariant_history (fun _ _ _ _ hpast hstep => hpast.next hstep)
      (start_invariant cfg clock w) h
  have hagrees : forall r, r ∈ past -> Agrees r.before := by
    intro r hr
    apply Run.invariant_before _ (start_agrees clock w) hr
    intro q hq
    exact (step_turn (Run.mem_transitions_step hq)).agrees
  refine ⟨?_, hinvariant.remembered, ?_, ?_⟩
  · intro mode hmode hrunning
    exact (hinvariant.agrees.selling mode hmode hrunning).left
  · intro r hr hquits
    cases step_turn (Run.mem_transitions_step hr) with
    | stays mode kept before after configured saved =>
        exact absurd hquits kept
    | shows mode shown before after configured saved =>
        have hadmin := before.symm.trans hquits.before
        exact absurd (Option.some.inj hadmin) shown.selling
    | quits quit after configured saved =>
        refine ⟨after, ?_⟩
        rw [configured]
        split
        · rename_i hadmin
          rw [(hagrees r hr).admin hquits.before hadmin, hadmin]
        · rfl
    | ends kept after => exact absurd hquits kept
  · intro r hr hbefore hafter
    cases step_turn (Run.mem_transitions_step hr) with
    | stays mode kept before after configured saved =>
        rw [before, ← after, hafter] at hbefore
        exact absurd rfl hbefore
    | shows mode shown before after configured saved => exact ⟨mode, shown⟩
    | quits quit after configured saved => exact absurd quit.before hbefore
    | ends kept after =>
        rw [hafter] at after
        cases after

def pressed (key : Int) : Input Rat :=
  { Input.idle with menu := { Input.idle.menu with key := key } }

/-- The application starts in ADMIN, Bar is selected, and Admin is left. -/
theorem mode_machine_of_bar :
    let cfg : Config := ⟨[], "pianss", -1, Vec.replicate 6 0xff,
      Vec.replicate 6 0xff⟩
    let w := World.start (fun _ _ _ => 0) .admin
    exists app, Run.head (step cfg) [pressed 50, pressed 48, pressed 48]
        (start 0 w) = some app ∧
      app.running.mode = some .bar ∧ app.world.mode = .bar := by
  intro cfg w
  have hrun : exists app, Run.head (step cfg)
      [pressed 50, pressed 48, pressed 48] (start 0 w) = some app ∧
        app.running.mode = some .bar := ⟨_, rfl, rfl⟩
  rcases hrun with ⟨app, hhead, hrunning⟩
  exact ⟨app, hhead, hrunning,
    (mode_machine hhead).left .bar (by decide) hrunning⟩

end Application

end BeeGadz
