import BeeGadz.Loop

/-!
# What a round sees of a card

A round either leaves the cards alone or acts on a card that it has just built
and read: the pointer from an earlier round is only used to ask whether that card
is still there.
-/

namespace BeeGadz

open Foundation

namespace Event

variable {β : Type}

def onScreen : Event β -> Bool
  | .printLCD _ _ => true
  | .clearLine _ => true
  | .clearScreen => true
  | _ => false

/-- A message of the given vocabulary, a question which card is there, or
something on the display. -/
def IsNotice (words : List String) (e : Event β) : Prop :=
  (exists message, message ∈ words ∧ e = .info message) ∨
    (exists found, e = .scan found) ∨
    (exists uid present, e = .select uid present) ∨
    e.onScreen = true

end Event

namespace Loop

variable {L β : Type}

/-!
## Evaluation
-/

theorem onWorld_apply {α : Type} (p : WorldM β α) (l : L)
    (c : Option (Card β)) (r : Bool) (w : World β) :
    onWorld p ⟨l, c, r, w⟩ = ((p w).1, ⟨l, c, r, (p w).2⟩) := rfl

theorem onCard_apply {α : Type} (p : SessionM β α) (l : L) (c : Card β)
    (r : Bool) (w : World β) :
    onCard p ⟨l, some c, r, w⟩ =
      ((p ⟨c, w⟩).1, ⟨l, some (p ⟨c, w⟩).2.card, r, (p ⟨c, w⟩).2.world⟩) :=
  rfl

theorem isRead_apply (s : Loop L β) : isRead s = (.ok s.read, s) := rfl

theorem getPointer_apply (s : Loop L β) : getPointer s = (.ok s.card, s) := rfl

theorem setRead_apply (r : Bool) (s : Loop L β) :
    setRead r s = (.ok (), { s with read := r }) := rfl

/-!
## Phases that only print
-/

/-- The action returns, and all it does besides changing the local variables is
print messages of the vocabulary. -/
structure Idle (words : List String) (p : LoopM L β Unit) (s : Loop L β) :
    Prop where
  returns : (p s).1 = .ok ()
  card : (p s).2.card = s.card
  mem : (p s).2.world.mem = s.world.mem
  log : exists messages : List String,
    (forall message, message ∈ messages -> message ∈ words) ∧
      (p s).2.world.log = s.world.log ++ messages.map Event.info

theorem Idle.apply {words : List String} {p : LoopM L β Unit} {s : Loop L β}
    (h : Idle words p s) : p s = (.ok (), (p s).2) :=
  Prod.ext h.returns rfl

theorem idle_pure (words : List String) (s : Loop L β) :
    Idle words (pure ()) s where
  returns := rfl
  card := rfl
  mem := rfl
  log := ⟨[], by simp, by simp⟩

theorem idle_modify {words : List String} {f : Loop L β -> Loop L β}
    {s : Loop L β} (hcard : (f s).card = s.card)
    (hworld : (f s).world = s.world) : Idle words (Prog.modify f) s where
  returns := rfl
  card := hcard
  mem := congrArg World.mem hworld
  log := ⟨[], by simp, by simp [hworld]⟩

theorem idle_printInfo {words : List String} {message : String}
    (h : message ∈ words) (s : Loop L β) :
    Idle words (onWorld (printInfo message)) s where
  returns := rfl
  card := rfl
  mem := rfl
  log := ⟨[message], by simpa using h, rfl⟩

theorem idle_setCommand (words : List String) (command : String)
    (line : Fin 4) (time : Nat) (s : Loop L β) :
    Idle words (onWorld (setCommand command line time)) s where
  returns := rfl
  card := rfl
  mem := rfl
  log := ⟨[], by simp, by simp [onWorld, Prog.zoom_apply, setCommand]⟩

theorem idle_bind {words : List String} {p : LoopM L β Unit}
    {q : Unit -> LoopM L β Unit} {s : Loop L β} (hp : Idle words p s)
    (hq : Idle words (q ()) (p s).2) : Idle words (p >>= q) s := by
  have happly : (p >>= q) s = q () (p s).2 := Prog.bind_of_ok _ hp.apply
  rcases hp.log with ⟨first, hfirst, hlog⟩
  rcases hq.log with ⟨second, hsecond, hlog'⟩
  constructor
  · rw [happly, hq.returns]
  · rw [happly, hq.card, hp.card]
  · rw [happly, hq.mem, hp.mem]
  · refine ⟨first ++ second, ?_, by rw [happly, hlog', hlog]; simp⟩
    intro message hmessage
    cases List.mem_append.mp hmessage with
    | inl h => exact hfirst message h
    | inr h => exact hsecond message h

theorem idle_getLocals {words : List String} {q : L -> LoopM L β Unit}
    {s : Loop L β} (hq : Idle words (q s.locals) s) :
    Idle words (getLocals >>= q) s := by
  have happly : (getLocals >>= q) s = q s.locals s := rfl
  exact ⟨happly ▸ hq.returns, happly ▸ hq.card, happly ▸ hq.mem,
    happly ▸ hq.log⟩

theorem idle_getCard {words : List String} {q : Card β -> LoopM L β Unit}
    {l : L} {c : Card β} {r : Bool} {w : World β}
    (hq : Idle words (q c) ⟨l, some c, r, w⟩) :
    Idle words (onCard Session.getCard >>= q) ⟨l, some c, r, w⟩ := by
  have happly : (onCard Session.getCard >>= q) ⟨l, some c, r, w⟩ =
      q c ⟨l, some c, r, w⟩ := rfl
  exact ⟨happly ▸ hq.returns, happly ▸ hq.card, happly ▸ hq.mem,
    happly ▸ hq.log⟩

theorem idle_ite {words : List String} {condition : Prop}
    [Decidable condition] {p q : LoopM L β Unit} {s : Loop L β}
    (hp : Idle words p s) (hq : Idle words q s) :
    Idle words (if condition then p else q) s := by
  by_cases h : condition
  · rwa [if_pos h]
  · rwa [if_neg h]

/-- The phases of a loop only print, and a card that was scanned is not read
yet. -/
structure Phases.Sound (words : List String) (ph : Phases L β) : Prop where
  gone : forall s : Loop L β, s.card.isSome = true -> Idle words ph.gone s
  scanned : forall s, Idle words ph.scanned s
  reading : forall s, Idle words ph.reading s
  lost : forall s, Idle words ph.lost s
  finished : forall s, Idle words ph.finished s
  unread : forall s : Loop L β,
    (ph.scanned s).2.read = false ∨
      (ph.scanned s).2.read = s.read ∧
        forall t : Loop L β, (ph.gone t).2.read = false
  scannedLocals : forall s, (ph.scanned s).2.locals = s.locals
  readingLocals : forall s, (ph.reading s).2.locals = s.locals
  finishedLocals : forall s, (ph.finished s).2.locals = s.locals

/-!
## The part of the round before the dispatch
-/

/-- What happened since `s`: notices, and nothing to the memory of a card. -/
structure Waits (words : List String) (s s' : Loop L β) : Prop where
  mem : s'.world.mem = s.world.mem
  log : exists events,
    (forall e, e ∈ events -> Event.IsNotice words e) ∧
      s'.world.log = s.world.log ++ events

theorem Waits.refl (words : List String) (s : Loop L β) : Waits words s s where
  mem := rfl
  log := ⟨[], by simp, by simp⟩

theorem Waits.trans {words : List String} {s t u : Loop L β}
    (hst : Waits words s t) (htu : Waits words t u) : Waits words s u where
  mem := htu.mem.trans hst.mem
  log := by
    rcases hst.log with ⟨first, hfirst, hlog⟩
    rcases htu.log with ⟨second, hsecond, hlog'⟩
    refine ⟨first ++ second, ?_, by rw [hlog', hlog, List.append_assoc]⟩
    intro e he
    rcases List.mem_append.mp he with he | he
    · exact hfirst e he
    · exact hsecond e he

theorem Idle.waits {words : List String} {p : LoopM L β Unit} {s : Loop L β}
    (h : Idle words p s) : Waits words s (p s).2 where
  mem := h.mem
  log := by
    rcases h.log with ⟨messages, hwords, hlog⟩
    refine ⟨messages.map Event.info, ?_, hlog⟩
    intro e he
    rcases List.mem_map.mp he with ⟨message, hmessage, rfl⟩
    exact Or.inl ⟨message, hwords message hmessage, rfl⟩

variable [Cell β]

/-- The target that is scanned in the round, if it is a card: not when the held
card is still there. -/
def scanned (inp : Input β) (card : Option (Card β)) : Option Target :=
  if card.isSome = true ∧ inp.present = true then none
  else inp.found.filter fun target => target.atqa == 0x4

def arrival (keys : Vec UInt8) (inp : Input β) (card : Option (Card β)) :
    Option Target :=
  (scanned inp card).filter fun target =>
    !(Card.fresh target keys : Card β).readLost inp.reading 4 4

omit [Cell β] in
def arrivalLocals (ph : Phases L β) (inp : Input β) (s : Loop L β) : L :=
  match s.card with
  | none => s.locals
  | some c =>
      (ph.gone
        { s with
          world := s.world.addLog [.select c.uid inp.present] }).2.locals

omit [Cell β] in
def polledLocals (ph : Phases L β) (inp : Input β) (s : Loop L β) : L :=
  if s.card.isSome = true ∧ inp.present = true then s.locals
  else arrivalLocals ph inp s

/-- The local variables of a round that does not act on a card. -/
def PassedLocals (ph : Phases L β) (inp : Input β) (s : Loop L β) (l : L) :
    Prop :=
  match scanned inp s.card with
  | none => l = polledLocals ph inp s
  | some _ =>
      exists t : Loop L β, t.locals = polledLocals ph inp s ∧
        l = (ph.lost t).2.locals

omit [Cell β] in
theorem polledLocals_of_scanned {ph : Phases L β} {inp : Input β}
    {s : Loop L β} {target : Target} (h : scanned inp s.card = some target) :
    polledLocals ph inp s = arrivalLocals ph inp s := by
  unfold polledLocals
  split
  · rename_i hthere
    rw [scanned, if_pos hthere] at h
    cases h
  · rfl

omit [Cell β] in
theorem waits_addLog {words : List String} (s : Loop L β) {e : Event β}
    (he : Event.IsNotice words e) :
    Waits words s { s with world := s.world.addLog [e] } where
  mem := rfl
  log := ⟨[e], by simpa using he, rfl⟩

theorem scan_run (words : List String) (keys : Vec UInt8)
    (found : Option Target) (s : Loop L β) :
    exists s' : Loop L β,
      Waits words s s' ∧ s'.read = s.read ∧ s'.locals = s.locals ∧
        match found.filter fun target => target.atqa == 0x4 with
        | some target =>
            scan keys found s = (.ok (), s') ∧
              s'.card = some (Card.fresh target keys)
        | none =>
            (scan keys found s = (.ok (), s') ∧ s'.card = none) ∨
              scan keys found s = (.error .exception, s') := by
  have hwaits : Waits words s
      { s with world := s.world.addLog [.scan found] } :=
    waits_addLog s (Or.inr (Or.inl ⟨found, rfl⟩))
  cases found with
  | none =>
      refine ⟨{ s with
          card := none
          world := s.world.addLog [.scan none] }, ⟨hwaits.mem, hwaits.log⟩,
        rfl, rfl, ?_⟩
      exact Or.inl ⟨rfl, rfl⟩
  | some target =>
      by_cases hatqa : target.atqa = 0x4
      · refine ⟨{ s with
            card := some (Card.fresh target keys)
            world := s.world.addLog [.scan (some target)] },
          ⟨hwaits.mem, hwaits.log⟩, rfl, rfl, ?_⟩
        simp only [Option.filter, hatqa, beq_self_eq_true, if_true]
        refine ⟨?_, trivial⟩
        simp [scan, Prog.bind_apply, onWorld, Prog.zoom_apply, emit, Card.new,
          hatqa, setPointer]
      · refine ⟨{ s with world := s.world.addLog [.scan (some target)] },
          hwaits, rfl, rfl, ?_⟩
        simp only [Option.filter, beq_iff_eq, hatqa, if_false]
        apply Or.inr
        simp [scan, Prog.bind_apply, onWorld, Prog.zoom_apply, emit, Card.new,
          hatqa]

theorem search_run {words : List String} (keys : Vec UInt8)
    (found : Option Target) {after : LoopM L β Unit}
    (hafter : forall s, Idle words after s)
    (hlocals : forall s, (after s).2.locals = s.locals) (s : Loop L β) :
    let search : LoopM L β Bool := do
      scan keys found
      after
      let card ← getPointer
      pure card.isSome
    exists s' : Loop L β,
      Waits words s s' ∧ s'.locals = s.locals ∧
        match found.filter fun target => target.atqa == 0x4 with
        | some target =>
            search s = (.ok true, s') ∧
              s'.card = some (Card.fresh target keys) ∧
              exists t : Loop L β, t.read = s.read ∧
                s'.read = (after t).2.read
        | none =>
            search s = (.ok false, s') ∨ search s = (.error .exception, s') := by
  intro search
  rcases scan_run words keys found s with ⟨t, hwaits, hread, hsame, hscan⟩
  have hall := hwaits.trans (hafter t).waits
  have hend : (after t).2.locals = s.locals := (hlocals t).trans hsame
  have hrun : scan keys found s = (.ok (), t) ->
      search s = (.ok t.card.isSome, (after t).2) := by
    intro h
    have hstart : search s =
        (do
          after
          let card ← getPointer
          pure card.isSome : LoopM L β Bool) t :=
      Prog.bind_of_ok _ h
    rw [hstart, Prog.bind_of_ok _ (hafter t).apply,
      Prog.bind_of_ok _ (getPointer_apply _), (hafter t).card, Prog.pure_apply]
  cases hfound : found.filter fun target => target.atqa == 0x4 with
  | none =>
      rw [hfound] at hscan
      cases hscan with
      | inl h =>
          refine ⟨(after t).2, hall, hend, Or.inl ?_⟩
          rw [hrun h.left, h.right]
          rfl
      | inr h => exact ⟨t, hwaits, hsame, Or.inr (Prog.bind_of_error _ h)⟩
  | some target =>
      rw [hfound] at hscan
      refine ⟨(after t).2, hall, hend, ?_, ?_, t, hread, rfl⟩
      · rw [hrun hscan.left, hscan.right]
        rfl
      · rw [(hafter t).card, hscan.right]

omit [Cell β] in
def missed (ph : Phases L β) (l : L) (c : Card β) (r : Bool) (w : World β) :
    Loop L β :=
  (ph.gone ⟨l, some c, r, w.addLog [.select c.uid false]⟩).2

theorem poll_missing {words : List String} {ph : Phases L β}
    (hph : ph.Sound words) {inp : Input β} (hmissing : inp.present = false)
    (l : L) (c : Card β) (r : Bool) (w : World β) :
    poll ph inp ⟨l, some c, r, w⟩ =
      (do
        scan ph.keys inp.found
        ph.scanned
        let card ← getPointer
        pure card.isSome : LoopM L β Bool) (missed ph l c r w) := by
  let s₁ : Loop L β := ⟨l, some c, r, w.addLog [.select c.uid false]⟩
  have hemit : onWorld (emit (.select c.uid inp.present))
      (⟨l, some c, r, w⟩ : Loop L β) = (.ok (), s₁) := by
    rw [hmissing]
    rfl
  have hnot : ¬ inp.present = true := by
    simp [hmissing]
  rw [poll, Prog.bind_of_ok _ (getPointer_apply _)]
  simp only [Prog.bind_of_ok _ hemit, if_neg hnot]
  exact Prog.bind_of_ok _ (hph.gone s₁ rfl).apply

theorem poll_run {words : List String} {ph : Phases L β}
    (hph : ph.Sound words) (inp : Input β) (s : Loop L β) :
    exists s' : Loop L β,
      Waits words s s' ∧ s'.locals = polledLocals ph inp s ∧
        match scanned inp s.card with
        | some target =>
            poll ph inp s = (.ok true, s') ∧
              s'.card = some (Card.fresh target ph.keys) ∧ s'.read = false
        | none =>
            poll ph inp s = (.ok false, s') ∨
              poll ph inp s = (.error .exception, s') := by
  rcases s with ⟨l, card, r, w⟩
  cases card with
  | none =>
      let s₀ : Loop L β := ⟨l, none, false, w⟩
      have hstart : poll ph inp ⟨l, none, r, w⟩ =
          (do
            scan ph.keys inp.found
            pure ()
            let card ← getPointer
            pure card.isSome : LoopM L β Bool) s₀ := rfl
      rcases search_run ph.keys inp.found (fun s => idle_pure words s)
          (fun _ => rfl) s₀ with ⟨s', hwaits, hlocals, hsearch⟩
      refine ⟨s', ⟨hwaits.mem, hwaits.log⟩, hlocals, ?_⟩
      simp only [scanned, Option.isSome_none, Bool.false_eq_true, false_and,
        if_false]
      rw [hstart]
      cases hfound : inp.found.filter fun target => target.atqa == 0x4 with
      | none =>
          rw [hfound] at hsearch
          exact hsearch
      | some target =>
          rw [hfound] at hsearch
          rcases hsearch with ⟨hrun, hcard, t, ht, hread⟩
          exact ⟨hrun, hcard, hread.trans ht⟩
  | some c =>
      have hselect : Waits words ⟨l, some c, r, w⟩
          ⟨l, some c, r, w.addLog [.select c.uid inp.present]⟩ :=
        waits_addLog _ (Or.inr (Or.inr (Or.inl ⟨c.uid, inp.present, rfl⟩)))
      cases hpresent : inp.present with
      | true =>
          refine ⟨_, hselect, (if_pos ⟨rfl, hpresent⟩).symm, ?_⟩
          simp only [scanned, Option.isSome_some, hpresent, and_self, if_true]
          apply Or.inl
          simp [poll, Prog.bind_apply, getPointer_apply, onWorld_apply, emit,
            hpresent]
      | false =>
          rw [hpresent] at hselect
          have hgone := hselect.trans (hph.gone _ rfl).waits
          have hpolled : polledLocals ph inp ⟨l, some c, r, w⟩ =
              (missed ph l c r w).locals := by
            simp [polledLocals, arrivalLocals, hpresent, missed]
          rcases search_run ph.keys inp.found hph.scanned hph.scannedLocals
              (missed ph l c r w) with ⟨s', hwaits, hlocals, hsearch⟩
          refine ⟨s', hgone.trans hwaits, hlocals.trans hpolled.symm, ?_⟩
          simp only [scanned, hpresent, Bool.false_eq_true, and_false,
            if_false]
          rw [poll_missing hph hpresent]
          cases hfound : inp.found.filter fun target => target.atqa == 0x4 with
          | none =>
              rw [hfound] at hsearch
              exact hsearch
          | some target =>
              rw [hfound] at hsearch
              rcases hsearch with ⟨hrun, hcard, t, ht, hread⟩
              refine ⟨hrun, hcard, ?_⟩
              rw [hread]
              cases hph.unread t with
              | inl h => exact h
              | inr h =>
                  rw [h.left, ht]
                  exact h.right _

/-- What happened since `s`: `reads` between notices, and nothing to the memory
of a card. -/
structure Sees (words : List String) (reads : List (Event β))
    (s s' : Loop L β) : Prop where
  mem : s'.world.mem = s.world.mem
  log : exists front back,
    (forall e, e ∈ front -> Event.IsNotice words e) ∧
      (forall e, e ∈ back -> Event.IsNotice words e) ∧
        s'.world.log = s.world.log ++ (front ++ reads ++ back)

omit [Cell β] in
theorem Waits.sees {words : List String} {s s' : Loop L β}
    (h : Waits words s s') : Sees words [] s s' where
  mem := h.mem
  log := by
    rcases h.log with ⟨events, hevents, hlog⟩
    exact ⟨events, [], hevents, by simp, by simp [hlog]⟩

omit [Cell β] in
theorem Sees.of_waits {words : List String} {reads : List (Event β)}
    {s t u v : Loop L β} (hst : Waits words s t) (htu : Sees words reads t u)
    (huv : Waits words u v) : Sees words reads s v where
  mem := huv.mem.trans (htu.mem.trans hst.mem)
  log := by
    rcases hst.log with ⟨first, hfirst, hlog⟩
    rcases htu.log with ⟨front, back, hfront, hback, hlog'⟩
    rcases huv.log with ⟨last, hlast, hlog''⟩
    refine ⟨first ++ front, back ++ last, ?_, ?_, by simp [hlog, hlog', hlog'']⟩
    · intro e he
      cases List.mem_append.mp he with
      | inl he => exact hfirst e he
      | inr he => exact hfront e he
    · intro e he
      cases List.mem_append.mp he with
      | inl he => exact hback e he
      | inr he => exact hlast e he

theorem readSector_fresh (inp : Input β) (target : Target) (keys : Vec UInt8)
    (l : L) (r : Bool) (w : World β) :
    exists c : Card β,
      Card.SameFrame (Card.fresh target keys) c ∧
        Card.Refreshed (Card.fresh target keys) c inp.reading
          (w.mem target.uid) 4 8 ∧
        onCard (Session.readSector inp.reading 1)
            ⟨l, some (Card.fresh target keys), r, w⟩ =
          (if (Card.fresh target keys : Card β).readLost inp.reading 4 4 then
            .error .exception else .ok true,
            ⟨l, some c, r, w.addLog ((Card.fresh target keys : Card β).readEvents
              inp.reading (w.mem target.uid) 4 4)⟩) := by
  have hclassic : (Card.fresh target keys : Card β).Classic :=
    Card.classic_fresh target keys
  rcases Session.readSector_run inp.reading (by decide : 1 < 16) hclassic w with
    ⟨c, hframe, hrefreshed, hrun⟩
  simp only [Nat.mul_one] at hrefreshed hrun
  refine ⟨c, hframe, hrefreshed, ?_⟩
  rw [onCard_apply, hrun]
  rfl

theorem load_of_lost {ph : Phases L β} {inp : Input β} {s t u v : Loop L β}
    (hread : s.read = false) (hreading : ph.reading s = (.ok (), t))
    (hsector : onCard (Session.readSector inp.reading 1) t =
      (.error .exception, u))
    (hlost : ph.lost u = (.ok (), v)) : load ph inp s = (.ok false, v) := by
  have hcatch : trying (onCard (Session.readSector inp.reading 1))
      (do
        ph.lost
        pure false) t = (.ok false, v) := by
    rw [trying_of_exception _ hsector, Prog.bind_of_ok _ hlost, Prog.pure_apply]
  rw [load, Prog.bind_of_ok _ (isRead_apply s), hread]
  simp only [Bool.false_eq_true, if_false]
  rw [Prog.bind_of_ok _ hreading, Prog.bind_of_ok _ hcatch]
  rfl

theorem load_of_read {ph : Phases L β} {inp : Input β} {s t u v : Loop L β}
    (hread : s.read = false) (hreading : ph.reading s = (.ok (), t))
    (hsector : onCard (Session.readSector inp.reading 1) t = (.ok true, u))
    (hfinished : ph.finished { u with read := true } = (.ok (), v)) :
    load ph inp s = (.ok true, v) := by
  rw [load, Prog.bind_of_ok _ (isRead_apply s), hread]
  simp only [Bool.false_eq_true, if_false]
  rw [Prog.bind_of_ok _ hreading, Prog.bind_of_ok _ (trying_of_ok _ hsector)]
  simp only [if_true]
  rw [Prog.bind_of_ok _ (setRead_apply true u), Prog.bind_of_ok _ hfinished,
    Prog.pure_apply]

theorem load_run {words : List String} {ph : Phases L β}
    (hph : ph.Sound words) (inp : Input β) (target : Target)
    (keys : Vec UInt8) {s : Loop L β} (hread : s.read = false)
    (hcard : s.card = some (Card.fresh target keys)) :
    exists s' : Loop L β,
      Sees words
          ((Card.fresh target keys : Card β).readEvents inp.reading
            (s.world.mem target.uid) 4 4) s s' ∧
        if (Card.fresh target keys : Card β).readLost inp.reading 4 4 then
          load ph inp s = (.ok false, s') ∧
            exists t : Loop L β, t.locals = s.locals ∧
              s'.locals = (ph.lost t).2.locals
        else
          load ph inp s = (.ok true, s') ∧ s'.locals = s.locals ∧
            exists c : Card β, s'.card = some c ∧
              Card.SameFrame (Card.fresh target keys) c ∧
              Card.Refreshed (Card.fresh target keys) c inp.reading
                (s.world.mem target.uid) 4 8 := by
  have hreading := hph.reading s
  have hlocals := hph.readingLocals s
  have happly := hreading.apply
  have hwaits := hreading.waits
  have hcard₁ := hreading.card.trans hcard
  have hmem := hreading.mem
  rcases hs₁ : (ph.reading s).2 with ⟨l, card, r, w⟩
  rw [hs₁] at happly hwaits hcard₁ hmem hlocals
  dsimp only at hcard₁ hmem hlocals
  subst hcard₁
  rcases readSector_fresh inp target keys l r w with
    ⟨c, hframe, hrefreshed, hsector⟩
  rw [hmem] at hrefreshed hsector
  let s₂ : Loop L β := ⟨l, some c, r, w.addLog
    ((Card.fresh target keys : Card β).readEvents inp.reading
      (s.world.mem target.uid) 4 4)⟩
  have hsees : Sees words
      ((Card.fresh target keys : Card β).readEvents inp.reading
        (s.world.mem target.uid) 4 4)
      ⟨l, some (Card.fresh target keys), r, w⟩ s₂ :=
    ⟨rfl, [], [], by simp, by simp, by simp [s₂]⟩
  by_cases hlost :
      (Card.fresh target keys : Card β).readLost inp.reading 4 4 = true
  · have hlostRun := hph.lost s₂
    rw [if_pos hlost] at hsector
    refine ⟨(ph.lost s₂).2, Sees.of_waits hwaits hsees hlostRun.waits, ?_⟩
    rw [if_pos hlost]
    exact ⟨load_of_lost hread happly hsector hlostRun.apply, s₂, hlocals, rfl⟩
  · have hfinished := hph.finished { s₂ with read := true }
    rw [if_neg hlost] at hsector
    refine ⟨(ph.finished { s₂ with read := true }).2,
      Sees.of_waits hwaits hsees ⟨hfinished.waits.mem, hfinished.waits.log⟩, ?_⟩
    rw [if_neg hlost]
    refine ⟨load_of_read hread happly hsector hfinished.apply, ?_, c, ?_,
      hframe, hrefreshed⟩
    · rw [hph.finishedLocals]
      exact hlocals
    · rw [hfinished.card]

/-- The cached block at address `a` of sector 1 once the sector was read into a
new card: the bytes of the tag, or the zeros of the constructor. -/
def seen (inp : Input β) (keys : Vec UInt8) (target : Target)
    (mem : Nat -> Bytes β 16) (a : Nat) : Bytes β 16 :=
  if (Card.fresh target keys : Card β).readResult (inp.reading a) = .loaded
  then mem a
  else fun _ => Cell.ofByte 0

structure Presented (inp : Input β) (keys : Vec UInt8) (target : Target)
    (mem : Nat -> Bytes β 16) (c : Card β) : Prop where
  frame : Card.SameFrame (Card.fresh target keys) c
  unmodified : c.Unmodified
  seen : forall k, k < 4 ->
    (c.block 1 k).data = seen inp keys target mem (4 + k)

theorem Presented.classic {inp : Input β} {keys : Vec UInt8}
    {target : Target} {mem : Nat -> Bytes β 16} {c : Card β}
    (h : Presented inp keys target mem c) : c.Classic :=
  (Card.classic_fresh target keys).of_sameFrame h.frame

theorem Presented.uid {inp : Input β} {keys : Vec UInt8}
    {target : Target} {mem : Nat -> Bytes β 16} {c : Card β}
    (h : Presented inp keys target mem c) : c.uid = target.uid :=
  h.frame.uid

theorem fresh_block (target : Target) (keys : Vec UInt8) (i k : Nat) :
    (Card.fresh target keys : Card β).block i k = Block.zero := by
  by_cases hi : i = 0
  · subst hi
    simp [Card.fresh, Card.block]
  · simp [Card.fresh, Card.block, Vec.modify_get_of_ne, hi]

theorem presented_of_refreshed {inp : Input β} {keys : Vec UInt8}
    {target : Target} {mem : Nat -> Bytes β 16} {c : Card β}
    (hframe : Card.SameFrame (Card.fresh target keys) c)
    (h : Card.Refreshed (Card.fresh target keys) c inp.reading mem 4 8)
    (hkept : (Card.fresh target keys : Card β).readLost inp.reading 4 4 =
      false) :
    Presented inp keys target mem c where
  frame := hframe
  unmodified := by
    intro a hpending
    unfold Card.Pending Card.blockAt at hpending
    by_cases hloads : a % 4 < 4 ∧
        (Card.fresh target keys : Card β).Loads inp.reading 4 8
          (4 * (a / 4) + a % 4)
    · rw [h.loaded _ _ hloads.left hloads.right] at hpending
      cases hpending
    · rw [h.kept _ _ hloads, fresh_block] at hpending
      cases hpending
  seen := by
    intro k hk
    unfold Loop.seen
    by_cases hresult : (Card.fresh target keys : Card β).readResult
        (inp.reading (4 + k)) = .loaded
    · have hloads : (Card.fresh target keys : Card β).Loads inp.reading 4 8
          (4 * 1 + k) := by
        refine ⟨by omega, by omega, ?_, hresult⟩
        intro b hb hlt hlost
        have hpass := (Card.readLost_iff _ inp.reading 4 4).mpr
          ⟨b, hb, by omega, hlost⟩
        rw [hkept] at hpass
        cases hpass
      rw [h.loaded 1 k hk hloads, if_pos hresult]
    · have hnot : ¬ (k < 4 ∧ (Card.fresh target keys : Card β).Loads
          inp.reading 4 8 (4 * 1 + k)) := by
        intro hboth
        exact hresult hboth.right.right.right.right
      rw [h.kept 1 k hnot, fresh_block, if_neg hresult, Block.zero_data]

/-- A round either leaves the cards alone, or acts on a card that was scanned
and read in it. -/
theorem visit_run {words : List String} {ph : Phases L β}
    (hph : ph.Sound words) (inp : Input β) (dispatch : LoopM L β Exit)
    (s : Loop L β) :
    match arrival ph.keys inp s.card with
    | none =>
        exists (r : Except Exn Exit) (s' : Loop L β) (reads : List (Event β)),
          (r = .ok .next ∨ r = .error .exception) ∧
            (reads.all Event.onWire = true ∧ sentWrites reads = []) ∧
            Sees words reads s s' ∧ PassedLocals ph inp s s'.locals ∧
            visit ph inp dispatch s = (r, s')
    | some target =>
        exists (s' : Loop L β) (c : Card β),
          Sees words
              ((Card.fresh target ph.keys : Card β).readEvents inp.reading
                (s.world.mem target.uid) 4 4) s s' ∧
            s'.locals = arrivalLocals ph inp s ∧ s'.card = some c ∧
            Presented inp ph.keys target (s.world.mem target.uid) c ∧
            visit ph inp dispatch s = dispatch s' := by
  rcases poll_run hph inp s with ⟨s₁, hwaits, hlocals, hpoll⟩
  unfold arrival PassedLocals
  cases hscanned : scanned inp s.card with
  | none =>
      rw [hscanned] at hpoll
      simp only [Option.filter]
      cases hpoll with
      | inl h =>
          refine ⟨.ok .next, s₁, [], Or.inl rfl, ⟨rfl, rfl⟩, hwaits.sees,
            hlocals, ?_⟩
          rw [visit, Prog.bind_of_ok _ h]
          rfl
      | inr h =>
          exact ⟨.error .exception, s₁, [], Or.inr rfl, ⟨rfl, rfl⟩,
            hwaits.sees, hlocals, Prog.bind_of_error _ h⟩
  | some target =>
      rw [hscanned] at hpoll
      rcases hpoll with ⟨hpoll, hcard, hread⟩
      rcases load_run hph inp target ph.keys hread hcard with
        ⟨s₂, hsees, hload⟩
      rw [hwaits.mem] at hsees hload
      have hall := Sees.of_waits hwaits hsees (Waits.refl words s₂)
      by_cases hlost :
          (Card.fresh target ph.keys : Card β).readLost inp.reading 4 4 = true
      · rw [if_pos hlost] at hload
        simp only [Option.filter, hlost, Bool.not_true, Bool.false_eq_true,
          if_false]
        refine ⟨.ok .next, s₂, _, Or.inl rfl,
          ⟨Card.onWire_readEvents _ _ _ _ _,
            Card.sentWrites_readEvents _ _ _ _ _⟩, hall, ?_, ?_⟩
        · rcases hload.right with ⟨t, ht, hlost'⟩
          exact ⟨t, ht.trans hlocals, hlost'⟩
        · rw [visit, Prog.bind_of_ok _ hpoll]
          simp only [if_true]
          rw [Prog.bind_of_ok _ hload.left]
          rfl
      · rw [if_neg hlost] at hload
        rcases hload with ⟨hload, hlocals₂, c, hc, hframe, hrefreshed⟩
        have hkept : (Card.fresh target ph.keys : Card β).readLost
            inp.reading 4 4 = false := by
          simpa using hlost
        simp only [Option.filter, hkept, Bool.not_false, if_true]
        refine ⟨s₂, c, hall,
          hlocals₂.trans (hlocals.trans (polledLocals_of_scanned hscanned)), hc,
          presented_of_refreshed hframe hrefreshed hkept, ?_⟩
        rw [visit, Prog.bind_of_ok _ hpoll]
        simp only [if_true]
        rw [Prog.bind_of_ok _ hload]
        rfl

end Loop

end BeeGadz
