import BeeGadz.Visit

/-!
# One round of a loop

What a round does before it acts on a card is common to the three loops.  What it
does afterwards either keeps still, or is one of a few deeds.
-/

namespace BeeGadz

open Foundation

/-- Neither a row, nor a command for a card, nor bytes from one, nor one of the
given messages. -/
def Event.isStill {β : Type} (loud : List String) : Event β -> Bool
  | .request _ (.history _) => false
  | .frame _ _ _ => false
  | .received _ _ _ => false
  | .info message => !loud.contains message
  | _ => true

/-!
## The display
-/

def ShowsOnly {β : Type} (w w' : World β) : Prop :=
  w'.mem = w.mem ∧ exists events : List (Event β),
    (forall e, e ∈ events -> e.onScreen = true) ∧ w'.log = w.log ++ events

instance {β : Type} : IsPreorder (World β) ShowsOnly where
  refl w := ⟨rfl, [], by simp, by simp⟩
  trans w₁ w₂ w₃ h h' := by
    rcases h with ⟨hmem, first, hfirst, hlog⟩
    rcases h' with ⟨hmem', second, hsecond, hlog'⟩
    refine ⟨hmem'.trans hmem, first ++ second, ?_,
      by rw [hlog', hlog, List.append_assoc]⟩
    intro e he
    cases List.mem_append.mp he with
    | inl he => exact hfirst e he
    | inr he => exact hsecond e he

theorem showsOnly_printLine {β : Type} (timer shown : Int) (i : Fin 4) :
    Prog.Moves ShowsOnly (printLine timer shown i : WorldM β Unit) := by
  apply Prog.moves_modify
  intro w
  split
  · exact refl w
  · split
    · exact ⟨rfl, _, by simp [Event.onScreen], rfl⟩
    · split
      · exact ⟨rfl, _, by simp [Event.onScreen], rfl⟩
      · split
        · exact ⟨rfl, _, by simp [Event.onScreen], rfl⟩
        · exact refl w

theorem showsOnly_print {β : Type} (timer : Int) (shown : Fin 4 -> Int) :
    Prog.Moves ShowsOnly (print timer shown : WorldM β Unit) := by
  apply Prog.moves_then (showsOnly_printLine timer (shown 0) 0)
  apply Prog.moves_then (showsOnly_printLine timer (shown 1) 1)
  apply Prog.moves_then (showsOnly_printLine timer (shown 2) 2)
  exact showsOnly_printLine timer (shown 3) 3

namespace Loop

variable {L β : Type}

/-!
## Keeping still
-/

/-- The card and the memory of all cards are as they were, and only still
events happened. -/
structure Still (loud : List String) (s s' : Loop L β) : Prop where
  card : s'.card = s.card
  mem : s'.world.mem = s.world.mem
  log : exists events, s'.world.log = s.world.log ++ events ∧
    forall e, e ∈ events -> e.isStill loud = true

variable {loud : List String}

instance : IsPreorder (Loop L β) (Still loud) where
  refl s := ⟨rfl, rfl, [], by simp, by simp⟩
  trans s t u hst htu := by
    rcases hst.log with ⟨first, hfirst, hidle⟩
    rcases htu.log with ⟨second, hsecond, hidle'⟩
    refine ⟨htu.card.trans hst.card, htu.mem.trans hst.mem, first ++ second,
      by rw [hsecond, hfirst, List.append_assoc], ?_⟩
    intro e he
    cases List.mem_append.mp he with
    | inl he => exact hidle e he
    | inr he => exact hidle' e he

theorem still_emit {e : Event β} (he : e.isStill loud = true) :
    Prog.Moves (Still (L := L) loud) (onWorld (emit e)) :=
  fun _ => ⟨rfl, rfl, [e], rfl, by simpa using he⟩

theorem still_printInfo {message : String}
    (h : message ∉ loud) :
    Prog.Moves (Still (L := L) (β := β) loud) (onWorld (printInfo message)) :=
  still_emit (by simpa [Event.isStill] using h)

theorem still_setCommand (command : String) (line : Fin 4) (time : Nat) :
    Prog.Moves (Still (L := L) (β := β) loud)
      (onWorld (setCommand command line time)) :=
  fun s => ⟨rfl, rfl, [], by
    simp [onWorld, Prog.zoom_apply, setCommand], by simp⟩

theorem still_getLocals :
    Prog.Moves (Still (L := L) (β := β) loud) getLocals :=
  fun s => refl s

theorem still_onCard {α : Type} {p : SessionM β α}
    (h : forall c w, (p ⟨c, w⟩).2.card = c ∧
      (p ⟨c, w⟩).2.world.mem = w.mem ∧
      exists events, (p ⟨c, w⟩).2.world.log = w.log ++ events ∧
        forall e, e ∈ events -> e.isStill loud = true) :
    Prog.Moves (Still (L := L) loud) (onCard p) := by
  intro s
  rcases s with ⟨l, card, r, w⟩
  cases card with
  | none => exact refl _
  | some c =>
      rcases h c w with ⟨hcard, hmem, hlog⟩
      rw [onCard_apply]
      exact ⟨congrArg some hcard, hmem, hlog⟩

theorem still_getCard :
    Prog.Moves (Still (L := L) (β := β) loud) (onCard Session.getCard) :=
  still_onCard fun _ w => ⟨rfl, rfl, [], by simp [Session.getCard], by simp⟩

theorem still_sendSOS (cfg : Config) :
    Prog.Moves (Still (L := L) (β := β) loud)
      (onCard (Session.sendSOS cfg)) :=
  still_onCard fun c _ => ⟨rfl, rfl, [.request c.uid (.sos cfg.pianss)], rfl,
    by simp [Event.isStill]⟩

theorem still_modify {f : Loop L β -> Loop L β}
    (hcard : forall s, (f s).card = s.card)
    (hworld : forall s, (f s).world = s.world) :
    Prog.Moves (Still loud) (Prog.modify f : LoopM L β Unit) :=
  fun s => ⟨hcard s, congrArg World.mem (hworld s), [], by
    simp [hworld s], by simp⟩

theorem Still.says {s s' : Loop L β} (h : Still loud s s') :
    exists said, s.world.Says s'.world said ∧ rows said = [] ∧
      (forall message, message ∈ loud -> .info message ∉ said) ∧
      forall uid a data, .received uid a data ∉ said := by
  rcases h.log with ⟨events, hlog, hstill⟩
  refine ⟨events.filter Event.notable, ⟨events, hlog, rfl⟩, ?_, ?_, ?_⟩
  · rw [rows_filter]
    apply List.filterMap_eq_nil_iff.mpr
    intro e he
    have hidle := hstill e he
    unfold Event.row
    split
    · simp [Event.isStill] at hidle
    · rfl
  · intro message hloud hmem
    have hquiet := hstill _ (List.mem_of_mem_filter hmem)
    simp [Event.isStill, hloud] at hquiet
  · intro uid a data hmem
    have hquiet := hstill _ (List.mem_of_mem_filter hmem)
    simp [Event.isStill] at hquiet

theorem Still.rows {s s' : Loop L β} (h : Still loud s s') :
    rows s'.world.log = rows s.world.log := by
  rcases h.says with ⟨said, hsay, hnone, _⟩
  rw [hsay.rows, hnone, List.append_nil]

/-!
## Up to the card
-/

theorem isAdmin_leave [Cell β] (rest : LoopM L β Exit) {c : Card β}
    (h : c.testCard "ADMIN") (l : L) (r : Bool) (w : World β) :
    (do
      let admin ← onCard Session.isAdmin
      if admin then pure .leave else rest : LoopM L β Exit)
        ⟨l, some c, r, w⟩ =
      (.ok .leave, ⟨l, some c, r, { w with mode := .admin }⟩) := by
  have happly : Session.isAdmin ⟨c, w⟩ =
      (.ok true, ⟨c, { w with mode := .admin }⟩) := by
    rw [Session.isAdmin, Session.getCard_bind, if_pos h]
    rfl
  rw [Prog.bind_apply, onCard_apply, happly]
  rfl

theorem isAdmin_pass [Cell β] (rest : LoopM L β Exit) {c : Card β}
    (h : ¬ c.testCard "ADMIN") (l : L) (r : Bool) (w : World β) :
    (do
      let admin ← onCard Session.isAdmin
      if admin then pure .leave else rest : LoopM L β Exit)
        ⟨l, some c, r, w⟩ = rest ⟨l, some c, r, w⟩ := by
  have happly : Session.isAdmin ⟨c, w⟩ = (.ok false, ⟨c, w⟩) := by
    rw [Session.isAdmin, Session.getCard_bind, if_neg h]
    rfl
  rw [Prog.bind_apply, onCard_apply, happly]
  rfl

theorem guarded_congr {body body' : LoopM L β Exit} {s s' : Loop L β}
    (h : body s = body' s') : guarded body s = guarded body' s' := by
  unfold guarded trying
  rw [Prog.catching_apply, Prog.catching_apply, h]

theorem guarded_of_ok {body : LoopM L β Exit} {s s' : Loop L β} {e : Exit}
    (h : body s = (.ok e, s')) : guarded body s = (.ok e, s') :=
  trying_of_ok _ h

/-- A round that goes on was not left at an ADMIN card. -/
theorem not_admin_of_next [Cell β] {rest : LoopM L β Exit} {c : Card β} {l : L}
    {r : Bool} {w : World β} {s' : Loop L β}
    (h : guarded (do
      let admin ← onCard Session.isAdmin
      if admin then pure .leave else rest : LoopM L β Exit)
        ⟨l, some c, r, w⟩ = (.ok .next, s')) : ¬ c.testCard "ADMIN" := by
  intro hadmin
  rw [guarded_of_ok (isAdmin_leave rest hadmin l r w)] at h
  cases h

theorem guarded_of_exception {body : LoopM L β Exit} {s s' : Loop L β}
    (h : body s = (.error .exception, s')) :
    guarded body s = (.ok .next, s') :=
  trying_of_exception _ h

theorem guarded_state (body : LoopM L β Exit) (s : Loop L β) :
    (guarded body s).2 = (body s).2 := by
  rcases hbody : body s with ⟨result, s'⟩
  cases result with
  | ok e => rw [guarded_of_ok hbody]
  | error e =>
      cases e with
      | exception => rw [guarded_of_exception hbody]
      | crash => rw [show guarded body s = _ from trying_of_crash _ hbody]

theorem moves_guarded {R : Loop L β -> Loop L β -> Prop}
    [IsPreorder (Loop L β) R] {body : LoopM L β Exit}
    (h : Prog.Moves R body) : Prog.Moves R (guarded body) := by
  apply Prog.moves_catching h
  intro e
  cases e with
  | exception => exact Prog.moves_pure _
  | crash => exact Prog.moves_throw _

theorem still_of_guarded {loud : List String} {body body' : LoopM L β Exit}
    {s t s' : Loop L β} {result : Except Exn Exit}
    (hbody : body s = body' t) (hstill : Prog.Moves (Still loud) body')
    (h : guarded body s = (result, s')) : Still loud t s' := by
  have hkeeps := moves_guarded hstill t
  rw [← guarded_congr hbody, h] at hkeeps
  exact hkeeps

theorem next_eq_some {r : Except Exn Exit × Loop L β} {s : Loop L β}
    (h : next r = some s) : r = (.ok .next, s) := by
  rcases r with ⟨result, t⟩
  cases result with
  | error e => cases h
  | ok e =>
      cases e with
      | leave => cases h
      | next =>
          cases h
          rfl

variable [Cell β]

theorem guarded_visit_run {words : List String} {ph : Phases L β}
    (hph : ph.Sound words) (inp : Input β) (dispatch : LoopM L β Exit)
    {body : LoopM L β Exit} {s t s₀ : Loop L β}
    (hbody : body t = visit ph inp dispatch s₀) (hwaits : Waits words s s₀)
    (hcard : s₀.card = s.card) :
    match arrival ph.keys inp s.card with
    | none =>
        exists (s' : Loop L β) (reads : List (Event β)),
          (reads.all Event.onWire = true ∧ sentWrites reads = []) ∧
            Sees words reads s s' ∧ PassedLocals ph inp s₀ s'.locals ∧
            guarded body t = (.ok .next, s')
    | some target =>
        exists (s₁ : Loop L β) (c : Card β),
          Sees words
              ((Card.fresh target ph.keys : Card β).readEvents inp.reading
                (s.world.mem target.uid) 4 4) s s₁ ∧
            s₁.locals = arrivalLocals ph inp s₀ ∧ s₁.card = some c ∧
            Presented inp ph.keys target (s.world.mem target.uid) c ∧
            guarded body t = guarded dispatch s₁ := by
  have hvisit := visit_run hph inp dispatch s₀
  rw [hcard, hwaits.mem] at hvisit
  cases harrival : arrival ph.keys inp s.card with
  | none =>
      rw [harrival] at hvisit
      rcases hvisit with ⟨r, s', reads, hr, hwire, hsees, hlocals, hrun⟩
      refine ⟨s', reads, hwire, Sees.of_waits hwaits hsees (Waits.refl _ _),
        hlocals, ?_⟩
      rw [guarded_congr hbody]
      cases hr with
      | inl h => exact guarded_of_ok (h ▸ hrun)
      | inr h => exact guarded_of_exception (h ▸ hrun)
  | some target =>
      rw [harrival] at hvisit
      rcases hvisit with ⟨s₁, c, hsees, hlocals, hc, hpresented, hrun⟩
      exact ⟨s₁, c, Sees.of_waits hwaits hsees (Waits.refl _ _), hlocals, hc,
        hpresented, guarded_congr (hbody.trans hrun)⟩

theorem next_visit_run {words : List String} {ph : Phases L β}
    (hph : ph.Sound words) (inp : Input β) (dispatch : LoopM L β Exit)
    {body : LoopM L β Exit} {s t s₀ s' : Loop L β}
    (hbody : body t = visit ph inp dispatch s₀) (hwaits : Waits words s s₀)
    (hcard : s₀.card = s.card) (h : next (guarded body t) = some s') :
    match arrival ph.keys inp s.card with
    | none =>
        exists reads : List (Event β),
          reads.all Event.onWire = true ∧ Sees words reads s s' ∧
            PassedLocals ph inp s₀ s'.locals
    | some target =>
        exists (s₁ : Loop L β) (c : Card β),
          Sees words
              ((Card.fresh target ph.keys : Card β).readEvents inp.reading
                (s.world.mem target.uid) 4 4) s s₁ ∧
            s₁.locals = arrivalLocals ph inp s₀ ∧ s₁.card = some c ∧
            Presented inp ph.keys target (s.world.mem target.uid) c ∧
            guarded dispatch s₁ = (.ok .next, s') := by
  have hround := next_eq_some h
  have hvisit := guarded_visit_run hph inp dispatch hbody hwaits hcard
  cases harrival : arrival ph.keys inp s.card with
  | none =>
      rw [harrival] at hvisit
      rcases hvisit with ⟨t', reads, hwire, hsees, hlocals, hrun⟩
      have hend : t' = s' := congrArg Prod.snd (hrun.symm.trans hround)
      exact ⟨reads, hwire.left, hend ▸ hsees, hend ▸ hlocals⟩
  | some target =>
      rw [harrival] at hvisit
      rcases hvisit with ⟨s₁, c, hsees, hlocals, hc, hpresented, hrun⟩
      exact ⟨s₁, c, hsees, hlocals, hc, hpresented, hrun.symm.trans hround⟩

/-!
## The log of a round
-/

omit [Cell β] in
theorem filterMap_notices {γ : Type} {f : Event β -> Option γ}
    (hinfo : forall message, f (.info message) = none)
    (hscan : forall found, f (.scan found) = none)
    (hselect : forall uid present, f (.select uid present) = none)
    (hscreen : forall e : Event β, e.onScreen = true -> f e = none)
    {words : List String} {events : List (Event β)}
    (h : forall e, e ∈ events -> Event.IsNotice words e) :
    events.filterMap f = [] := by
  apply List.filterMap_eq_nil_iff.mpr
  intro e he
  rcases h e he with ⟨message, _, rfl⟩ | ⟨found, rfl⟩ | ⟨uid, present, rfl⟩ | hs
  · exact hinfo message
  · exact hscan found
  · exact hselect uid present
  · exact hscreen e hs

omit [Cell β] in
theorem rows_notices {words : List String} {events : List (Event β)}
    (h : forall e, e ∈ events -> Event.IsNotice words e) :
    rows events = [] := by
  apply filterMap_notices (fun _ => rfl) (fun _ => rfl) (fun _ _ => rfl) _ h
  intro e he
  cases e <;> first | rfl | cases he

omit [Cell β] in
theorem rows_onWire {events : List (Event β)}
    (h : events.all Event.onWire = true) : rows events = [] := by
  apply List.filterMap_eq_nil_iff.mpr
  intro e he
  have hwire := List.all_eq_true.mp h e he
  cases e <;> first | rfl | cases hwire

omit [Cell β] in
theorem Sees.rows {words : List String} {reads : List (Event β)}
    {s s' : Loop L β} (h : Sees words reads s s')
    (hreads : reads.all Event.onWire = true) :
    rows s'.world.log = rows s.world.log := by
  rcases h.log with ⟨front, back, hfront, hback, hlog⟩
  rw [hlog, rows_append, rows_append, rows_append, rows_notices hfront,
    rows_onWire hreads, rows_notices hback]
  simp

omit [Cell β] in
theorem message_of_isNotice {words : List String} {message : String}
    (h : Event.IsNotice words (.info message : Event β)) : message ∈ words := by
  rcases h with ⟨text, htext, heq⟩ | ⟨_, heq⟩ | ⟨_, _, heq⟩ | hscreen
  · cases heq
    exact htext
  · cases heq
  · cases heq
  · cases hscreen

omit [Cell β] in
theorem not_isNotice_received {words : List String} {uid : Uid} {a : Nat}
    {data : Bytes β 16} :
    ¬ Event.IsNotice words (.received uid a data) := by
  intro hcase
  rcases hcase with ⟨_, _, heq⟩ | ⟨_, heq⟩ | ⟨_, _, heq⟩ | hscreen
  · cases heq
  · cases heq
  · cases heq
  · cases hscreen

omit [Cell β] in
theorem Sees.says {words : List String} {reads : List (Event β)}
    {s s' : Loop L β} (h : Sees words reads s s')
    (hreads : reads.all Event.onWire = true) :
    exists said, s.world.Says s'.world said ∧ BeeGadz.rows said = [] ∧
      (forall message, .info message ∈ said -> message ∈ words) ∧
      forall uid a data,
        .received uid a data ∈ said <-> .received uid a data ∈ reads := by
  rcases h.log with ⟨front, back, hfront, hback, hlog⟩
  refine ⟨_, ⟨_, hlog, rfl⟩, ?_, ?_, ?_⟩
  · rw [rows_filter, rows_append, rows_append, rows_notices hfront,
      rows_onWire hreads, rows_notices hback]
    rfl
  · intro message hmem
    have hall := List.mem_of_mem_filter hmem
    simp only [List.mem_append] at hall
    rcases hall with (hleft | hwire) | hright
    · exact message_of_isNotice (hfront _ hleft)
    · cases List.all_eq_true.mp hreads _ hwire
    · exact message_of_isNotice (hback _ hright)
  · intro uid a data
    rw [List.mem_filter, List.mem_append, List.mem_append]
    constructor
    · intro hgiven
      rcases hgiven with ⟨(hleft | hwire) | hright, _⟩
      · exact absurd (hfront _ hleft) not_isNotice_received
      · exact hwire
      · exact absurd (hback _ hright) not_isNotice_received
    · intro hwire
      exact ⟨Or.inl (Or.inr hwire), rfl⟩

def sent (s s' : Loop L β) : List (Uid × Row) :=
  (rows s'.world.log).drop (rows s.world.log).length

omit [Cell β] in
theorem sent_of_rows {s s' : Loop L β} {new : List (Uid × Row)}
    (h : rows s'.world.log = rows s.world.log ++ new) : sent s s' = new := by
  rw [sent, h, List.drop_left]

end Loop

end BeeGadz
