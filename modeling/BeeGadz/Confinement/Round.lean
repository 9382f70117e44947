import BeeGadz.Confinement.Session
import BeeGadz.Serve.Bar
import BeeGadz.Serve.Caisse
import BeeGadz.Serve.Kve

/-!
# Which blocks a round writes

Bar and Kve write blocks 5 and 6 of DEBIT cards, Caisse writes blocks 4 to 6.
-/

namespace BeeGadz

open Foundation

/-!
## Loops
-/

namespace World

variable {β : Type}

/-- Of all blocks of all cards only those at the listed addresses are
written. -/
structure Confined (blocks : List Nat) (w w' : World β) : Prop where
  mem : forall u a, a ∉ blocks -> w'.mem u a = w.mem u a
  log : exists events, w'.log = w.log ++ events ∧
    forall uid f ok, (uid, f, ok) ∈ sentWrites events -> f.block ∈ blocks

instance (blocks : List Nat) : IsPreorder (World β) (Confined blocks) where
  refl w := ⟨fun _ _ _ => rfl, [], by simp, by simp⟩
  trans w₁ w₂ w₃ h h' := by
    rcases h.log with ⟨first, hlog, hwrites⟩
    rcases h'.log with ⟨second, hlog', hwrites'⟩
    refine ⟨fun u a ha => (h'.mem u a ha).trans (h.mem u a ha),
      first ++ second, by rw [hlog', hlog, List.append_assoc], ?_⟩
    intro uid f ok hmem
    rw [sentWrites_append, List.mem_append] at hmem
    cases hmem with
    | inl hmem => exact hwrites uid f ok hmem
    | inr hmem => exact hwrites' uid f ok hmem

variable {w w' w'' : World β} {blocks blocks' : List Nat}

theorem Confined.mono (h : w.Confined blocks w') (hsub : blocks ⊆ blocks') :
    w.Confined blocks' w' := by
  rcases h.log with ⟨events, hlog, hwrites⟩
  exact ⟨fun u a ha => h.mem u a fun hmem => ha (hsub hmem), events, hlog,
    fun uid f ok hmem => hsub (hwrites uid f ok hmem)⟩

theorem Confined.quiet (h : w.Confined blocks w') (h' : w'.Confined [] w'') :
    w.Confined blocks w'' := by
  have hmore : w'.Confined blocks w'' := h'.mono (List.nil_subset blocks)
  exact Trans.trans h hmore

theorem Confined.block (h : w.Confined blocks w') {uid : Uid} {f : Frame β}
    {ok : Bool} (hmem : .frame uid f ok ∈ w.since w') (hcmd : f.cmd = .write) :
    f.block ∈ blocks := by
  rcases h.log with ⟨events, hlog, hwrites⟩
  rw [since, hlog, List.drop_left] at hmem
  exact hwrites uid f ok (mem_sentWrites.mpr ⟨hmem, hcmd⟩)

theorem Confined.sentWrites_since (h : w.Confined blocks w')
    (h' : w'.Confined [] w'') :
    sentWrites (w.since w'') = sentWrites (w.since w') := by
  rcases h.log with ⟨first, hlog, _⟩
  rcases h'.log with ⟨second, hlog', hnone⟩
  have hempty : sentWrites second = [] := by
    apply List.eq_nil_iff_forall_not_mem.mpr
    intro write hmem
    rcases write with ⟨uid, f, ok⟩
    cases hnone uid f ok hmem
  rw [since, since, hlog', hlog, List.append_assoc, List.drop_left,
    List.drop_left, sentWrites_append, hempty, List.append_nil]

end World

namespace Loop

variable {L β : Type} {blocks : List Nat}

/-- The held card stays the same one, and only its listed blocks are
written. -/
structure Confined (blocks : List Nat) (s s' : Loop L β) : Prop where
  absent : s.card = none ->
    s'.card = none ∧ s.world.Confined blocks s'.world
  present : forall c, s.card = some c -> c.Ready blocks ->
    exists c', s'.card = some c' ∧
      Session.Confines blocks ⟨c, s.world⟩ ⟨c', s'.world⟩

instance (blocks : List Nat) :
    IsPreorder (Loop L β) (Confined blocks) where
  refl s := ⟨fun hc => ⟨hc, refl _⟩,
    fun c hc hready => ⟨c, hc, refl (r := Session.Confined blocks) _ hready⟩⟩
  trans s t u hst htu := by
    constructor
    · intro hc
      have hfirst := hst.absent hc
      have hsecond := htu.absent hfirst.left
      exact ⟨hsecond.left, Trans.trans hfirst.right hsecond.right⟩
    · intro c hc hready
      rcases hst.present c hc hready with ⟨c₁, hc₁, hfirst⟩
      rcases htu.present c₁ hc₁ hfirst.ready with ⟨c₂, hc₂, hsecond⟩
      exact ⟨c₂, hc₂, IsTrans.trans (r := Session.Confined blocks) _ _ _
        (fun _ => hfirst) (fun _ => hsecond) hready⟩

theorem sentWrites_still {loud : List String} {events : List (Event β)}
    (h : forall e, e ∈ events -> e.isStill loud = true) :
    sentWrites events = [] := by
  apply List.filterMap_eq_nil_iff.mpr
  intro e he
  have hidle := h e he
  cases e <;> first | rfl | cases hidle

theorem confined_of_talk {s s' : Loop L β} (hcard : s'.card = s.card)
    (h : s.world.Talk s'.world) : Confined blocks s s' := by
  rcases h.log with ⟨events, hlog, htalk⟩
  have hnone := World.sentWrites_talk htalk
  constructor
  · intro hc
    refine ⟨hcard.trans hc, fun _ _ _ => by rw [h.mem], events, hlog, ?_⟩
    rw [hnone]
    simp
  · intro c hc hready
    refine ⟨c, hcard.trans hc, hready, rfl, fun _ => rfl,
      fun u a _ => congrFun (congrFun h.mem u) a, events, hlog, ?_⟩
    rw [hnone]
    simp

theorem Still.confined {loud : List String} {s s' : Loop L β}
    (h : Still loud s s') : Confined blocks s s' :=
  confined_of_talk h.card h.talk

theorem confined_still {α : Type} {loud : List String} {p : LoopM L β α}
    (h : Prog.Moves (Still loud) p) : Prog.Moves (Confined blocks) p :=
  h.mono fun _ _ hstill => hstill.confined

theorem confined_onCard {α : Type} {p : SessionM β α}
    (h : Prog.Moves (Session.Confined blocks) p) :
    Prog.Moves (Confined blocks) (onCard p : LoopM L β α) := by
  intro state
  rcases state with ⟨l, card, r, w⟩
  cases card with
  | none => exact refl _
  | some c =>
      constructor
      · intro hc
        cases hc
      · intro c' hc hready
        cases hc
        exact ⟨_, rfl, h ⟨c, w⟩ hready⟩

theorem Built.confined [Cell β] {α : Type} {p : LoopM L β α}
    (h : Built blocks p) : Prog.Moves (Confined blocks) p := by
  apply h.moves (R := Confined blocks)
  intro γ q hq
  cases hq with
  | getLocals => exact fun s => refl s
  | modify hcard hworld =>
      intro s
      apply confined_of_talk (hcard s)
      rw [hworld]
      exact refl _
  | onWorld h => exact fun s => confined_of_talk rfl (h.moves s.world)
  | onCard h => exact confined_onCard h.confined

theorem Confined.world {s s' : Loop L β} (h : Confined blocks s s')
    (hready : forall c, s.card = some c -> c.Ready blocks) :
    s.world.Confined blocks s'.world := by
  cases hc : s.card with
  | none => exact (h.absent hc).right
  | some c =>
      rcases h.present c hc (hready c hc) with ⟨c', _, hconfines⟩
      rcases hconfines.log with ⟨events, hlog, hwrites⟩
      exact ⟨fun u a ha => hconfines.mem u a fun hboth => ha hboth.right,
        events, hlog, fun uid f ok hmem => (hwrites uid f ok hmem).right⟩

end Loop

/-!
## What is done with a card
-/

section Dispatch

variable {β : Type} [FloatCell β]

theorem Kve.still_dispatch (cfg : Config) (inp : Input β) {c : Card β}
    (h : ¬ c.isDebit) (l : Kve.Locals) (r : Bool) (w : World β) :
    Loop.Still [] ⟨l, some c, r, w⟩
      (Kve.dispatch cfg inp ⟨l, some c, r, w⟩).2 := by
  by_cases hadmin : c.testCard "ADMIN"
  · have hleave : Kve.dispatch cfg inp ⟨l, some c, r, w⟩ =
        (.ok .leave, ⟨l, some c, r, { w with mode := .admin }⟩) :=
      Loop.isAdmin_leave _ hadmin l r w
    rw [hleave]
    exact ⟨rfl, rfl, [], by simp, by simp⟩
  · rw [Kve.dispatch_apply cfg inp l hadmin, if_neg h]
    exact Prog.moves_ite (Kve.still_answerSOS cfg)
      (Prog.moves_ite Kve.still_refuseConso Kve.still_refuseOther) _

theorem Bar.still_dispatch (cfg : Config) (hash : Bar.HashOrder)
    (inp : Input β) {c : Card β} (h : ¬ c.isDebit) (l : Bar.Locals) (r : Bool)
    (w : World β) :
    Loop.Still [] ⟨l, some c, r, w⟩
      (Bar.dispatch cfg hash inp ⟨l, some c, r, w⟩).2 := by
  by_cases hadmin : c.testCard "ADMIN"
  · have hleave : Bar.dispatch cfg hash inp ⟨l, some c, r, w⟩ =
        (.ok .leave, ⟨l, some c, r, { w with mode := .admin }⟩) :=
      Loop.isAdmin_leave _ hadmin l r w
    rw [hleave]
    exact ⟨rfl, rfl, [], by simp, by simp⟩
  · rw [Bar.dispatch_apply cfg hash inp l hadmin,
      if_neg (fun hboth : c.isDebit ∧ _ => h hboth.left),
      if_neg (fun hboth : c.isDebit ∧ _ => h hboth.left)]
    exact Prog.moves_ite (Bar.still_answerSOS cfg)
      (Prog.moves_ite (Bar.still_addConso cfg hash inp c l.conso)
        Bar.still_refuseOther) _

end Dispatch

/-!
## Rounds of the selling modes
-/

namespace Loop

variable {L β : Type} {blocks : List Nat}

theorem sentWrites_notices {words : List String} {events : List (Event β)}
    (h : forall e, e ∈ events -> Event.IsNotice words e) :
    sentWrites events = [] := by
  apply filterMap_notices (fun _ => rfl) (fun _ => rfl) (fun _ _ => rfl) _ h
  intro e he
  cases e <;> first | rfl | cases he

theorem Sees.unwritten {words : List String} {reads : List (Event β)}
    {s s' : Loop L β} (h : Sees words reads s s')
    (hreads : sentWrites reads = []) :
    exists events, s'.world.log = s.world.log ++ events ∧
      sentWrites events = [] := by
  rcases h.log with ⟨front, back, hfront, hback, hlog⟩
  refine ⟨_, hlog, ?_⟩
  rw [sentWrites_append, sentWrites_append, sentWrites_notices hfront, hreads,
    sentWrites_notices hback]
  rfl

theorem Sees.confined {words : List String} {reads : List (Event β)}
    {s s' : Loop L β} (h : Sees words reads s s')
    (hreads : sentWrites reads = []) : s.world.Confined blocks s'.world := by
  rcases h.unwritten hreads with ⟨events, hlog, hnone⟩
  refine ⟨fun _ _ _ => by rw [h.mem], events, hlog, ?_⟩
  rw [hnone]
  simp

variable [Cell β]

theorem Presented.ready {inp : BeeGadz.Input β} {keys : Vec UInt8}
    {target : Target} {mem : Nat -> Bytes β 16} {c : Card β}
    (h : Presented inp keys target mem c) : c.Ready blocks where
  classic := h.classic
  within := fun a ha => absurd ha (h.unmodified a)

theorem visit_confined {words : List String} {ph : Phases L β}
    (hph : ph.Sound words) (inp : BeeGadz.Input β)
    {dispatch : LoopM L β Exit}
    (hdispatch : Prog.Moves (Confined blocks) dispatch)
    {body : LoopM L β Exit} {s t s₀ : Loop L β}
    (hbody : body t = visit ph inp dispatch s₀) (hwaits : Waits words s s₀)
    (hcard : s₀.card = s.card) :
    s.world.Confined blocks (guarded body t).2.world := by
  have hvisit := guarded_visit_run hph inp dispatch hbody hwaits hcard
  cases harrival : arrival ph.keys inp s.card with
  | none =>
      rw [harrival] at hvisit
      rcases hvisit with ⟨s', reads, hreads, hsees, _, hrun⟩
      rw [hrun]
      exact hsees.confined hreads.right
  | some target =>
      rw [harrival] at hvisit
      rcases hvisit with ⟨s₁, c, hsees, _, hc, hpresented, hrun⟩
      have hready : forall c', s₁.card = some c' -> c'.Ready blocks := by
        intro c' hc'
        rw [hc] at hc'
        cases hc'
        exact hpresented.ready
      have hseen : s.world.Confined blocks s₁.world :=
        hsees.confined (Card.sentWrites_readEvents _ _ _ _ _)
      rw [hrun]
      exact Trans.trans hseen ((moves_guarded hdispatch s₁).world hready)

theorem visit_debit {words loud : List String} {ph : Phases L β}
    (hph : ph.Sound words) (inp : BeeGadz.Input β)
    {dispatch : LoopM L β Exit}
    (hdispatch : Prog.Moves (Confined blocks) dispatch)
    (hname : 4 ∉ blocks)
    (hstill : forall {c : Card β}, ¬ c.isDebit -> forall l r w,
      Still loud ⟨l, some c, r, w⟩ (dispatch ⟨l, some c, r, w⟩).2)
    {body : LoopM L β Exit} {s t s₀ : Loop L β}
    (hbody : body t = visit ph inp dispatch s₀) (hwaits : Waits words s s₀)
    (hcard : s₀.card = s.card) {uid : Uid} {f : Frame β} {ok : Bool}
    (hmem : (uid, f, ok) ∈
      sentWrites (s.world.since (guarded body t).2.world)) :
    exists c, (guarded body t).2.card = some c ∧ c.uid = uid ∧ c.isDebit := by
  have hvisit := guarded_visit_run hph inp dispatch hbody hwaits hcard
  cases harrival : arrival ph.keys inp s.card with
  | none =>
      rw [harrival] at hvisit
      rcases hvisit with ⟨s', reads, hreads, hsees, _, hrun⟩
      rcases hsees.unwritten hreads.right with ⟨events, hlog, hnone⟩
      rw [hrun, World.since, hlog, List.drop_left, hnone] at hmem
      cases hmem
  | some target =>
      rw [harrival] at hvisit
      rcases hvisit with ⟨s₁, c, hsees, _, hc, hpresented, hrun⟩
      rcases hsees.unwritten (Card.sentWrites_readEvents _ _ _ _ _) with
        ⟨first, hfirst, hnone⟩
      rw [hrun] at hmem ⊢
      by_cases hdebit : c.isDebit
      · rcases (moves_guarded hdispatch s₁).present c hc hpresented.ready with
          ⟨c', hc', hconfines⟩
        rcases hconfines.log with ⟨second, hsecond, hwrites⟩
        rw [World.since, hsecond, hfirst, List.append_assoc, List.drop_left,
          sentWrites_append, hnone, List.nil_append] at hmem
        refine ⟨c', hc', ?_, ?_⟩
        · exact hconfines.uid.trans (hwrites uid f ok hmem).left.symm
        · exact (Card.isDebit_congr (hconfines.name hname)).mpr hdebit
      · rcases s₁ with ⟨l, card, r, w⟩
        cases hc
        have hidle := hstill hdebit l r w
        rw [guarded_state] at hmem
        rcases hidle.log with ⟨second, hsecond, hquiet⟩
        rw [World.since, hsecond, hfirst, List.append_assoc, List.drop_left,
          sentWrites_append, hnone, sentWrites_still hquiet] at hmem
        cases hmem

end Loop

/-!
## Rounds
-/

section Rounds

variable {β : Type} [FloatCell β]

theorem Kve.round_confined (cfg : Config) (inp : Input β)
    (s : Loop Kve.Locals β) :
    s.world.Confined [5, 6] (Kve.round cfg inp s).2.world :=
  Loop.visit_confined (Kve.phases_sound cfg) inp
    (Kve.built_dispatch cfg inp).confined (Kve.body_apply cfg inp _ s)
    (Kve.waits_afterKeys inp s) (Kve.afterKeys_card inp s)

theorem Kve.round_debit {cfg : Config} {inp : Input β}
    {s : Loop Kve.Locals β} {uid : Uid} {f : Frame β} {ok : Bool}
    (h : (uid, f, ok) ∈
      sentWrites (s.world.since (Kve.round cfg inp s).2.world)) :
    exists c, (Kve.round cfg inp s).2.card = some c ∧ c.uid = uid ∧
      c.isDebit :=
  Loop.visit_debit (Kve.phases_sound cfg) inp (Kve.built_dispatch cfg inp).confined
    (by decide) (Kve.still_dispatch cfg inp) (Kve.body_apply cfg inp _ s)
    (Kve.waits_afterKeys inp s) (Kve.afterKeys_card inp s) h

theorem Bar.round_confined (cfg : Config) (hash : Bar.HashOrder)
    (inp : Input β) (s : Loop Bar.Locals β) :
    s.world.Confined [5, 6] (Bar.round cfg hash inp s).2.world :=
  Loop.visit_confined (Bar.phases_sound cfg inp) inp
    (Bar.built_dispatch cfg hash inp).confined (Bar.body_apply cfg inp _ s)
    (Bar.waits_afterKeys inp s) (Bar.afterKeys_card inp s)

theorem Bar.round_debit {cfg : Config} {hash : Bar.HashOrder}
    {inp : Input β} {s : Loop Bar.Locals β} {uid : Uid} {f : Frame β}
    {ok : Bool}
    (h : (uid, f, ok) ∈
      sentWrites (s.world.since (Bar.round cfg hash inp s).2.world)) :
    exists c, (Bar.round cfg hash inp s).2.card = some c ∧ c.uid = uid ∧
      c.isDebit :=
  Loop.visit_debit (Bar.phases_sound cfg inp) inp
    (Bar.built_dispatch cfg hash inp).confined (by decide)
    (Bar.still_dispatch cfg hash inp) (Bar.body_apply cfg inp _ s)
    (Bar.waits_afterKeys inp s) (Bar.afterKeys_card inp s) h

theorem Caisse.round_confined (cfg : Config) (inp : Input β)
    (s : Loop Unit β) :
    s.world.Confined [4, 5, 6] (Caisse.round cfg inp s).2.world :=
  Loop.visit_confined (Caisse.phases_sound cfg) inp
    (Caisse.built_dispatch cfg inp).confined rfl (Loop.Waits.refl _ s) rfl

end Rounds

end BeeGadz
