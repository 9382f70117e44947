import BeeGadz.Ticket

/-!
# Requests for a ticket

The key `0` asks for a ticket in Kve.  A ticket is only taken from a card on a
request that is not old, was not cancelled and was not used before.
-/

namespace BeeGadz

open Foundation

namespace Kve

variable {β : Type} [FloatCell β]

/-!
## What ends a request
-/

/-- The round takes a ticket: from its copy of the card or from a tag. -/
def Consumes (cfg : Config) (inp : Input β) (s s' : Loop Locals β) : Prop :=
  (exists target,
    Loop.arrival (cfg.getKeys false) inp s.card = some target ∧
      Consumed inp (cfg.getKeys false) target (s.world.mem target.uid) s') ∨
    exists uid, s'.world.mem uid 6 ≠ s.world.mem uid 6

def Removed (cfg : Config) (inp : Input β) (target : Target) : Prop :=
  (Card.fresh target (cfg.getKeys false) : Card β).readLost inp.reading 4 4 =
    true

def Shows (cfg : Config) (inp : Input β) (s : Loop Locals β) (target : Target)
    (role : Role) : Prop :=
  Memory.Says (Loop.seen inp (cfg.getKeys false) target
    (s.world.mem target.uid)) role

/-- A request is cancelled in the round: a tag is removed while it is read, a
CONSO or an SOS card is shown, or a sale on a DEBIT card is paid or refused. -/
def Cancels (cfg : Config) (inp : Input β) (s s' : Loop Locals β) : Prop :=
  exists target, Loop.scanned inp s.card = some target ∧
    (Removed cfg inp target ∨ Shows cfg inp s target .conso ∨
      Shows cfg inp s target .sos ∨
      Shows cfg inp s target .debit ∧ ¬ Consumes cfg inp s s')

/-- A tag is removed while it is read, or a card is shown that a request does not
outlast. -/
def Ends (cfg : Config) (inp : Input β) (s : Loop Locals β) : Prop :=
  exists target, Loop.scanned inp s.card = some target ∧
    (Removed cfg inp target ∨ Shows cfg inp s target .conso ∨
      Shows cfg inp s target .sos ∨ Shows cfg inp s target .debit)

theorem Cancels.ends {cfg : Config} {inp : Input β} {s s' : Loop Locals β}
    (h : Cancels cfg inp s s') : Ends cfg inp s := by
  rcases h with ⟨target, hscanned, hremoved | hconso | hsos | hdebit⟩
  · exact ⟨target, hscanned, Or.inl hremoved⟩
  · exact ⟨target, hscanned, Or.inr (Or.inl hconso)⟩
  · exact ⟨target, hscanned, Or.inr (Or.inr (Or.inl hsos))⟩
  · exact ⟨target, hscanned, Or.inr (Or.inr (Or.inr hdebit.left))⟩

theorem ends_of_arrival {cfg : Config} {inp : Input β} {s : Loop Locals β}
    {target : Target} {role : Role}
    (harrival : Loop.arrival (cfg.getKeys false) inp s.card = some target)
    (hshows : Shows cfg inp s target role)
    (hrole : role = .conso ∨ role = .sos ∨ role = .debit) :
    Ends cfg inp s := by
  rw [Loop.arrival, Option.filter_eq_some_iff] at harrival
  refine ⟨target, harrival.left, Or.inr ?_⟩
  rcases hrole with rfl | rfl | rfl
  · exact Or.inl hshows
  · exact Or.inr (Or.inl hshows)
  · exact Or.inr (Or.inr hshows)

/-!
## The local variables
-/

theorem serveSale_ticket (cfg : Config) (inp : Input β) {c : Card β}
    (hc : c.Classic) (l : Locals) (r : Bool) (w : World β) :
    (serveSale cfg inp ⟨l, some c, r, w⟩).2.locals =
        { l with ticket := false } ∧
      (serveSale cfg inp ⟨l, some c, r, w⟩).1 = .ok .next := by
  have hrest : forall (c' : Card β) (w' : World β),
      let after := (do
        cancelTicket
        Loop.onWorld (printInfo "Posez une cart DEBIT.")
        pure .next : LoopM Locals β Exit) ⟨l, some c', r, w'⟩
      after.2.locals = { l with ticket := false } ∧ after.1 = .ok .next := by
    intro c' w'
    rcases l with ⟨ticket, time⟩
    cases ticket <;> exact ⟨rfl, rfl⟩
  have hcharge := charge_apply cfg inp l c r w
  by_cases hcovers : c.getCredit ≥ inp.amount
  · rcases pay_run cfg inp hc l r
      (w.addLog [.info "Entrez le prix du cok'ss : "]) with
      ⟨c', w', _, _, hrun⟩
    rw [if_pos hcovers, hrun] at hcharge
    rw [serveSale, Prog.bind_of_ok _ hcharge]
    exact hrest c' w'
  · rw [if_neg hcovers] at hcharge
    rw [serveSale, Prog.bind_apply, hcharge]
    exact hrest c _

omit [FloatCell β] in
theorem answerSOS_ticket (cfg : Config) (l : Locals) (c : Card β) (r : Bool)
    (w : World β) :
    (answerSOS cfg ⟨l, some c, r, w⟩).2.locals = { l with ticket := false } := by
  rcases l with ⟨ticket, time⟩
  cases ticket <;> rfl

omit [FloatCell β] in
theorem refuseConso_ticket (s : Loop Locals β) :
    (refuseConso s).2.locals = { s.locals with ticket := false } := by
  rcases s with ⟨⟨ticket, time⟩, card, r, w⟩
  cases ticket <;> rfl

theorem dispatch_ticket {cfg : Config} {inp : Input β} {c : Card β}
    (hc : c.Classic) {l : Locals} {r : Bool} {w : World β}
    {s' : Loop Locals β}
    (h : Loop.guarded (dispatch cfg inp) ⟨l, some c, r, w⟩ =
      (.ok .next, s')) :
    s'.locals =
      if c.isSOS ∨ c.isConso ∨ c.isDebit then { l with ticket := false }
      else l := by
  have hadmin : ¬ c.testCard "ADMIN" := Loop.not_admin_of_next h
  have hstate := Loop.guarded_state (dispatch cfg inp) ⟨l, some c, r, w⟩
  rw [h, dispatch_apply cfg inp l hadmin r w] at hstate
  have hlocals := congrArg Loop.locals hstate
  dsimp only at hlocals
  rw [hlocals]
  by_cases hsos : c.isSOS
  · rw [if_pos hsos, if_pos (Or.inl hsos)]
    exact answerSOS_ticket cfg l c r w
  · by_cases hconso : c.isConso
    · rw [if_neg hsos, if_pos hconso, if_pos (Or.inr (Or.inl hconso))]
      exact refuseConso_ticket _
    · by_cases hdebit : c.isDebit
      · rw [if_neg hsos, if_neg hconso, if_pos hdebit,
          if_pos (Or.inr (Or.inr hdebit))]
        by_cases hwants : l.ticket = true ∧ c.hasTicket
        · rw [if_pos hwants]
          rcases useTicket_run cfg inp hc l r w with
            ⟨result, c', w', hresult, _, _, _, _, hrun⟩
          rw [serveTicket, Prog.bind_apply, hrun]
          rcases hresult with rfl | rfl <;> rfl
        · rw [if_neg hwants]
          exact (serveSale_ticket cfg inp hc l r w).left
      · rw [if_neg hsos, if_neg hconso, if_neg hdebit, if_neg (by simp [*])]
        rfl

omit [FloatCell β] in
theorem gone_locals (cfg : Config) (inp : Input β) (s : Loop Locals β) :
    Loop.polledLocals (phases cfg) inp s = s.locals := by
  unfold Loop.polledLocals Loop.arrivalLocals
  split
  · rfl
  · cases s.card <;> rfl

omit [FloatCell β] in
theorem lost_locals (cfg : Config) (s : Loop Locals β) :
    ((phases cfg).lost s).2.locals = { s.locals with ticket := false } := by
  rcases s with ⟨⟨ticket, time⟩, card, r, w⟩
  cases ticket <;> rfl

theorem step_locals {cfg : Config} {inp : Input β} {s s' : Loop Locals β}
    (h : step cfg inp s = some s') :
    s'.locals.time = (if inp.key = 48 then inp.clock else s.locals.time) ∧
      (s'.locals.ticket = true ->
        wanted inp s.locals = true ∧ ¬ Ends cfg inp s) := by
  have hvisit := Loop.next_visit_run (phases_sound cfg) inp
    (dispatch cfg inp) (body_apply cfg inp _ s) (waits_afterKeys inp s)
    (afterKeys_card inp s) h
  have hkeys : (phases cfg : Loop.Phases Locals β).keys = cfg.getKeys false :=
    rfl
  have hlooked := afterKeys_locals inp s
  rw [hkeys] at hvisit
  cases harrival : Loop.arrival (cfg.getKeys false) inp s.card with
  | none =>
      rw [harrival] at hvisit
      rcases hvisit with ⟨_, _, _, hpassed⟩
      rw [Loop.PassedLocals, afterKeys_card] at hpassed
      cases hscanned : Loop.scanned inp s.card with
      | none =>
          rw [hscanned] at hpassed
          have hlocals := (hpassed.trans (gone_locals cfg inp _)).trans hlooked
          rw [hlocals]
          refine ⟨rfl, fun hticket => ⟨hticket, ?_⟩⟩
          intro hends
          rcases hends with ⟨target, hsome, _⟩
          rw [hscanned] at hsome
          cases hsome
      | some target =>
          rw [hscanned] at hpassed
          rcases hpassed with ⟨t, ht, hlost⟩
          rw [lost_locals, ht, gone_locals, hlooked] at hlost
          rw [hlost]
          exact ⟨rfl, fun hticket => absurd hticket (by simp)⟩
  | some target =>
      rw [harrival] at hvisit
      rcases hvisit with ⟨s₁, c, _, hlocals, hc, hpresented, hrun⟩
      have hsame : s₁.locals = (afterKeys inp s).locals := by
        have hscan : Loop.scanned inp (afterKeys inp s).card = some target := by
          rw [afterKeys_card]
          exact (Option.filter_eq_some_iff.mp harrival).left
        rw [hlocals, ← Loop.polledLocals_of_scanned hscan, gone_locals]
      rcases s₁ with ⟨l, card, r, w⟩
      cases hc
      have hend := dispatch_ticket hpresented.classic hrun
      dsimp only at hsame
      rw [hsame, hlooked] at hend
      rw [hend]
      split
      · exact ⟨rfl, fun hticket => absurd hticket (by simp)⟩
      · rename_i hnone
        refine ⟨rfl, fun hticket => ⟨hticket, ?_⟩⟩
        intro hends
        apply hnone
        rcases hends with ⟨other, hscanned, hcase⟩
        have hfilter := Option.filter_eq_some_iff.mp harrival
        cases hscanned.symm.trans hfilter.left
        rcases hcase with hremoved | hconso | hsos | hdebit
        · rw [Removed] at hremoved
          simp [hremoved] at hfilter
        · exact Or.inr (Or.inl ((hpresented.says_iff .conso).mpr hconso))
        · exact Or.inl ((hpresented.says_iff .sos).mpr hsos)
        · exact Or.inr (Or.inr (hpresented.isDebit_iff.mpr hdebit))

/-!
## Tickets that are taken
-/

theorem tickets_of_charged {pass : Pass β} {price : Rat} {c c' : Card β}
    {mem mem' : Uid -> Nat -> Bytes β 16}
    (h : Session.Charged pass price c mem c' mem')
    (hunmodified : c.Unmodified) (u : Uid) : mem' u 6 = mem u 6 := by
  by_cases hcredit : c.getCredit = 0
  · rw [(h.free hcredit).right]
  · have hpending : (c.charged price).OnlyPending [5] :=
      Card.onlyPending_edit hunmodified.onlyPending (by decide) _
    exact (h.paid hcredit).right.kept_of_not_mem hpending (by decide) u

theorem not_consumes {cfg : Config} {inp : Input β} {s s' : Loop Locals β}
    {target : Target} {c c' : Card β}
    (harrival : Loop.arrival (cfg.getKeys false) inp s.card = some target)
    (hpresented : Loop.Presented inp (cfg.getKeys false) target
      (s.world.mem target.uid) c)
    (hcard : s'.card = some c') (hblock : c'.block 1 2 = c.block 1 2)
    (hmem : forall u, s'.world.mem u 6 = s.world.mem u 6) :
    ¬ Consumes cfg inp s s' := by
  intro h
  rcases h with ⟨other, hother, hconsumed⟩ | ⟨u, hne⟩
  · cases harrival.symm.trans hother
    exact not_consumed hpresented hcard hblock hconsumed
  · exact hne (hmem u)

theorem consumes_wanted {cfg : Config} {inp : Input β} {s s' : Loop Locals β}
    (h : step cfg inp s = some s') (hconsumes : Consumes cfg inp s s') :
    wanted inp s.locals = true ∧ Ends cfg inp s := by
  have hrun := step_run h
  cases harrival : Loop.arrival (cfg.getKeys false) inp s.card with
  | none =>
      rw [harrival] at hrun
      rcases hconsumes with ⟨target, hsome, _⟩ | ⟨u, hne⟩
      · rw [harrival] at hsome
        cases hsome
      · exact absurd (by rw [hrun.left]) hne
  | some target =>
      rw [harrival] at hrun
      rcases hrun with ⟨s₁, c, hc, hmem, _, hpresented, hserves⟩
      cases hserves with
      | ticket c' debit wants card frame blocks flushed sent =>
          have hshows := hpresented.isDebit_iff.mp debit
          exact ⟨wants.left,
            ends_of_arrival harrival hshows (Or.inr (Or.inr rfl))⟩
      | sale c' debit wants covers card charged sent =>
          refine absurd hconsumes (not_consumes harrival hpresented card
            charged.ticketBlock fun u => ?_)
          rw [tickets_of_charged charged hpresented.unmodified u, hmem]
      | still idle keeps =>
          refine absurd hconsumes (not_consumes harrival hpresented
            (keeps.card.trans hc) rfl fun u => ?_)
          rw [keeps.mem, hmem]

/-- Whether a round that serves a card goes on or not: it keeps still, or it goes
on. -/
theorem dispatch_exits (cfg : Config) (inp : Input β) {c : Card β}
    (hc : c.Classic) (l : Locals) (r : Bool) (w : World β) :
    let result := Loop.guarded (dispatch cfg inp) ⟨l, some c, r, w⟩
    result.1 = .ok .next ∨
      result.2.card = some c ∧ result.2.world.mem = w.mem := by
  intro result
  by_cases hadmin : c.testCard "ADMIN"
  · have hleave : dispatch cfg inp ⟨l, some c, r, w⟩ =
        (.ok .leave, ⟨l, some c, r, { w with mode := .admin }⟩) :=
      Loop.isAdmin_leave _ hadmin l r w
    have hresult : result = _ := Loop.guarded_of_ok hleave
    rw [hresult]
    exact Or.inr ⟨rfl, rfl⟩
  have happly := dispatch_apply cfg inp l hadmin r w
  by_cases hdebit : c.isDebit
  · left
    rcases hdebit.not_others with ⟨_, hsos, hconso⟩
    rw [if_neg hsos, if_neg hconso, if_pos hdebit] at happly
    by_cases hwants : l.ticket = true ∧ c.hasTicket
    · rw [if_pos hwants] at happly
      rcases useTicket_run cfg inp hc l r w with
        ⟨result', c', w', hresult, _, _, _, _, hrun⟩
      have hserve : serveTicket cfg inp ⟨l, some c, r, w⟩ =
          (result'.map fun _ => .next,
            ⟨{ l with ticket := false }, some c', r, w'⟩) := by
        rw [serveTicket, Prog.bind_apply, hrun]
        rcases hresult with rfl | rfl <;> rfl
      rcases hresult with rfl | rfl
      · exact congrArg Prod.fst (Loop.guarded_of_ok (happly.trans hserve))
      · exact congrArg Prod.fst
          (Loop.guarded_of_exception (happly.trans hserve))
    · rw [if_neg hwants] at happly
      have hsale := (serveSale_ticket cfg inp hc l r w).right
      have hbody : dispatch cfg inp ⟨l, some c, r, w⟩ =
          (.ok .next, (serveSale cfg inp ⟨l, some c, r, w⟩).2) :=
        happly.trans (Prod.ext hsale rfl)
      exact congrArg Prod.fst (Loop.guarded_of_ok hbody)
  · right
    rw [if_neg hdebit] at happly
    have hstill : Loop.Still [] ⟨l, some c, r, w⟩ result.2 :=
      Loop.still_of_guarded happly
        (Prog.moves_ite (still_answerSOS cfg)
          (Prog.moves_ite still_refuseConso still_refuseOther)) rfl
    exact ⟨hstill.card, hstill.mem⟩

theorem consumes_goes_on {cfg : Config} {inp : Input β} {s : Loop Locals β}
    (h : Consumes cfg inp s (round cfg inp s).2) :
    step cfg inp s = some (round cfg inp s).2 := by
  have hvisit := Loop.guarded_visit_run (phases_sound cfg) inp
    (dispatch cfg inp) (body_apply cfg inp (dispatch cfg inp) s)
    (waits_afterKeys inp s) (afterKeys_card inp s)
  have hkeys : (phases cfg : Loop.Phases Locals β).keys = cfg.getKeys false :=
    rfl
  have hgoes : forall {s' : Loop Locals β}, round cfg inp s = (.ok .next, s') ->
      step cfg inp s = some (round cfg inp s).2 := by
    intro s' hround
    rw [step, hround]
    rfl
  rw [hkeys] at hvisit
  cases harrival : Loop.arrival (cfg.getKeys false) inp s.card with
  | none =>
      rw [harrival] at hvisit
      rcases hvisit with ⟨s', _, _, _, _, hrun⟩
      exact hgoes hrun
  | some target =>
      rw [harrival] at hvisit
      rcases hvisit with ⟨s₁, c, hsees, _, hc, hpresented, hrun⟩
      rcases s₁ with ⟨l, card, r, w⟩
      cases hc
      have hround : round cfg inp s =
          Loop.guarded (dispatch cfg inp) ⟨l, some c, r, w⟩ := hrun
      rcases dispatch_exits cfg inp hpresented.classic l r w with
        hnext | ⟨hcard, hmem⟩
      · rw [← hround] at hnext
        exact hgoes (Prod.ext hnext rfl)
      · rw [← hround] at hcard hmem
        refine absurd h (not_consumes harrival hpresented hcard rfl fun u => ?_)
        rw [hmem]
        exact congrFun (congrFun hsees.mem u) 6

/-!
## The run
-/

/-- The key was pressed at the given time, and since then it was not pressed
again, and no ticket was taken and nothing cancelled. -/
def Armed (cfg : Config) (past : List (Transition (Input β) (Loop Locals β)))
    (time : Int) : Prop :=
  exists front press back,
    past = front ++ press :: back ∧
      press.input.key = 48 ∧ press.input.clock = time ∧
      (forall r, r ∈ back -> r.input.key ≠ 48 ∧ r.input.key ≠ 45) ∧
      forall r, r ∈ press :: back ->
        ¬ Consumes cfg r.input r.before r.after ∧
          ¬ Cancels cfg r.input r.before r.after

/-- The last round of these was asked for: the last press of the key before its
end is less than ten seconds old, the key `-` was not pressed after that, and no
round from the press up to the last one took a ticket or was a cancellation. -/
def Live (cfg : Config) (rounds : List (Transition (Input β) (Loop Locals β)))
    (clock : Int) : Prop :=
  exists front press back,
    rounds = front ++ press :: back ∧
      press.input.key = 48 ∧ clock - press.input.clock < 10 ∧
      (forall r, r ∈ back -> r.input.key ≠ 48 ∧ r.input.key ≠ 45) ∧
      forall r, r ∈ (press :: back).dropLast ->
        ¬ Consumes cfg r.input r.before r.after ∧
          ¬ Cancels cfg r.input r.before r.after

omit [FloatCell β] in
theorem wanted_cases {inp : Input β} {l : Locals} (h : wanted inp l = true) :
    inp.key = 48 ∨
      inp.key ≠ 48 ∧ inp.key ≠ 45 ∧ inp.clock - l.time < 10 ∧
        l.ticket = true := by
  unfold wanted at h
  by_cases hadd : inp.key = 48
  · exact Or.inl hadd
  · rw [if_neg hadd] at h
    by_cases hcancel : inp.key = 45 ∨ inp.clock - l.time ≥ 10
    · rw [if_pos hcancel] at h
      cases h
    · rw [if_neg hcancel] at h
      rcases not_or.mp hcancel with ⟨hkey, htime⟩
      exact Or.inr ⟨hadd, hkey, lt_of_not_ge htime, h⟩

theorem Armed.concat {cfg : Config}
    {past : List (Transition (Input β) (Loop Locals β))} {time : Int}
    (h : Armed cfg past time) {r : Transition (Input β) (Loop Locals β)}
    (hkey : r.input.key ≠ 48 ∧ r.input.key ≠ 45)
    (hquiet : ¬ Consumes cfg r.input r.before r.after ∧
      ¬ Cancels cfg r.input r.before r.after) :
    Armed cfg (past ++ [r]) time := by
  rcases h with ⟨front, press, back, hpast, hpress, htime, hkeys, hrounds⟩
  refine ⟨front, press, back ++ [r], by simp [hpast], hpress, htime, ?_, ?_⟩
  · intro q hq
    rcases List.mem_append.mp hq with hq | hq
    · exact hkeys q hq
    · rwa [List.mem_singleton.mp hq]
  · intro q hq
    rw [← List.cons_append] at hq
    rcases List.mem_append.mp hq with hq | hq
    · exact hrounds q hq
    · rwa [List.mem_singleton.mp hq]

/-- A request is pending at a loop head only since its key was pressed. -/
theorem armed_step {cfg : Config}
    {past : List (Transition (Input β) (Loop Locals β))} {s s' : Loop Locals β}
    {inp : Input β}
    (harmed : s.locals.ticket = true -> Armed cfg past s.locals.time)
    (h : step cfg inp s = some s') (hticket : s'.locals.ticket = true) :
    Armed cfg (past ++ [⟨s, inp, s'⟩]) s'.locals.time := by
  rcases step_locals h with ⟨htime, hpending⟩
  rcases hpending hticket with ⟨hwanted, hends⟩
  have hquiet : ¬ Consumes cfg inp s s' ∧ ¬ Cancels cfg inp s s' :=
    ⟨fun hconsumes => hends (consumes_wanted h hconsumes).right,
      fun hcancels => hends hcancels.ends⟩
  rcases wanted_cases hwanted with hadd | ⟨hadd, hkey, _, hbefore⟩
  · rw [if_pos hadd] at htime
    refine ⟨past, ⟨s, inp, s'⟩, [], rfl, hadd, htime.symm, by simp, ?_⟩
    intro r hr
    rw [List.mem_singleton.mp hr]
    exact hquiet
  · rw [if_neg hadd] at htime
    rw [htime]
    exact (harmed hbefore).concat ⟨hadd, hkey⟩ hquiet

theorem armed_run {cfg : Config} {is : List (Input β)} {clock : Int}
    {w : World β} {s : Loop Locals β}
    (hs : Run.head (step cfg) is (enter clock w) = some s)
    (hticket : s.locals.ticket = true) :
    Armed cfg (Run.transitions (step cfg) is (enter clock w)) s.locals.time := by
  have hinvariant := Run.invariant_history
    (I := fun past s => s.locals.ticket = true ->
      Armed cfg past s.locals.time)
    (fun past s inp s' harmed hstep hticket =>
      armed_step harmed hstep hticket)
    (show (enter clock w).locals.ticket = true -> Armed cfg [] _ by
      intro h
      cases h) hs
  exact hinvariant hticket

/-- Whatever keys, clocks, cards and answers a run of Kve meets: a round that
takes a ticket goes on, and it is the first one that takes a ticket or cancels
since the last press of the key, less than ten seconds before. -/
theorem ticket_on_live_request (cfg : Config) (is : List (Input β))
    (clock : Int) (w : World β) {s : Loop Locals β}
    (hs : Run.head (step cfg) is (enter clock w) = some s) {inp : Input β}
    (h : Consumes cfg inp s (round cfg inp s).2) :
    step cfg inp s = some (round cfg inp s).2 ∧
      Live cfg (Run.transitions (step cfg) (is ++ [inp]) (enter clock w))
        inp.clock := by
  have hstep := consumes_goes_on h
  refine ⟨hstep, ?_⟩
  rw [Run.transitions_concat hs hstep]
  rcases consumes_wanted hstep h with ⟨hwanted, _⟩
  rcases wanted_cases hwanted with hadd | ⟨hadd, hkey, hclock, hticket⟩
  · exact ⟨_, _, [], rfl, hadd, by simp, by simp, by simp⟩
  · rcases armed_run hs hticket with
      ⟨front, press, back, hpast, hpress, htime, hkeys, hrounds⟩
    refine ⟨front, press, back ++ [⟨s, inp, (round cfg inp s).2⟩],
      by simp [hpast], hpress, by rw [htime]; exact hclock, ?_, ?_⟩
    · intro r hr
      rcases List.mem_append.mp hr with hr | hr
      · exact hkeys r hr
      · rw [List.mem_singleton.mp hr]
        exact ⟨hadd, hkey⟩
    · rwa [← List.cons_append, List.dropLast_concat]

/-- A key that is pressed, and a card with a ticket three seconds later. -/
theorem ticket_on_live_request_later :
    let cfg : Config :=
      ⟨[("Soft", 1), ("Snack", 2)], "", 0, Vec.replicate 6 0xff,
        Vec.replicate 6 0xff⟩
    let press : Input Rat := { Input.idle with key := 48 }
    let card : Input Rat :=
      { Input.idle with
        clock := 3
        found := some ⟨fun _ => 1, 0x4⟩ }
    Live cfg (Run.transitions (step cfg) [press, card]
      (enter 0 (World.start (fun _ => oneTicket) .kve))) 3 := by
  intro cfg press card
  let s₀ : Loop Locals Rat := enter 0 (World.start (fun _ => oneTicket) .kve)
  let s : Loop Locals Rat := (round cfg press s₀).2
  have hs : Run.head (step cfg) [press] s₀ = some s := rfl
  have hstep : (step cfg card s).isSome = true := by
    decide +kernel
  rcases Option.isSome_iff_exists.mp hstep with ⟨s', hs'⟩
  have hround : (round cfg card s).2 = s' :=
    congrArg Prod.snd (Loop.next_eq_some hs')
  have hcard : TicketCard cfg oneTicket ("Snack", 2) :=
    ⟨by decide +kernel, by decide +kernel, by decide +kernel⟩
  have harrival : Loop.arrival (cfg.getKeys false) card s.card =
      some ⟨fun _ => 1, 0x4⟩ := by decide +kernel
  have htaken := takes_sent hs' harrival hcard
    ⟨by decide +kernel, by decide +kernel⟩
  have hconsumes : Consumes cfg card s (round cfg card s).2 := by
    rw [hround]
    exact Or.inl ⟨_, harrival, htaken.left⟩
  exact (ticket_on_live_request cfg [press] 0
    (World.start (fun _ => oneTicket) .kve) hs hconsumes).right

end Kve

end BeeGadz
