import BeeGadz.Shop.Round

/-!
# Rounds that leave a mode

A selling mode is left at an ADMIN card only, and nothing is entered in that
round.  A round that does not leave goes on to the next loop head.
-/

namespace BeeGadz

open Foundation

namespace Loop

section Remains

variable {L β : Type}

def Remains (p : LoopM L β Exit) : Prop :=
  forall s, (p s).1 ≠ .ok .leave

theorem remains_next : Remains (pure .next : LoopM L β Exit) := by
  intro s h
  cases h

theorem remains_bind {α : Type} {p : LoopM L β α} {f : α -> LoopM L β Exit}
    (hf : forall a, Remains (f a)) : Remains (p >>= f) := by
  intro s
  rcases hrun : p s with ⟨result, s'⟩
  cases result with
  | error e =>
      rw [Prog.bind_of_error _ hrun]
      intro h
      cases h
  | ok a =>
      rw [Prog.bind_of_ok _ hrun]
      exact hf a s'

theorem remains_then {α : Type} {p : LoopM L β α} {q : LoopM L β Exit}
    (hq : Remains q) : Remains (p >>= fun _ => q) :=
  remains_bind fun _ => hq

theorem remains_ite {c : Prop} [Decidable c] {p q : LoopM L β Exit}
    (hp : Remains p) (hq : Remains q) : Remains (if c then p else q) := by
  split
  · exact hp
  · exact hq

end Remains

section Rounds

variable {L β : Type} [FloatCell β]

theorem left_at_admin {words : List String} {ph : Phases L β}
    (hph : ph.Sound words) (inp : Input β) {rest : LoopM L β Exit}
    (hrest : Remains rest) {body : LoopM L β Exit} {s t s₀ s' : Loop L β}
    (hbody : body t = visit ph inp (do
      let admin ← onCard Session.isAdmin
      if admin then pure .leave else rest) s₀)
    (hwaits : Waits words s s₀) (hcard : s₀.card = s.card)
    (h : guarded body t = (.ok .leave, s')) :
    exists target c, arrival ph.keys inp s.card = some target ∧
      Presented inp ph.keys target (s.world.mem target.uid) c ∧
      c.testCard "ADMIN" ∧ s'.world.mem = s.world.mem ∧
      rows s'.world.log = rows s.world.log := by
  have hvisit := guarded_visit_run hph inp _ hbody hwaits hcard
  cases harrival : arrival ph.keys inp s.card with
  | none =>
      rw [harrival] at hvisit
      rcases hvisit with ⟨s₁, reads, _, _, _, hrun⟩
      rw [hrun] at h
      cases h
  | some target =>
      rw [harrival] at hvisit
      rcases hvisit with ⟨s₁, c, hsees, _, hc, hpresented, hrun⟩
      rcases s₁ with ⟨l, card, r, w⟩
      cases hc
      have hrows := hsees.rows (Card.onWire_readEvents _ _ _ _ _)
      by_cases hadmin : c.testCard "ADMIN"
      · rw [hrun, guarded_of_ok (isAdmin_leave rest hadmin l r w)] at h
        cases h
        exact ⟨target, c, rfl, hpresented, hadmin, hsees.mem, hrows⟩
      · rw [hrun, guarded_congr (isAdmin_pass rest hadmin l r w)] at h
        rcases hrest' : rest ⟨l, some c, r, w⟩ with ⟨result, s₂⟩
        cases result with
        | ok e =>
            rw [guarded_of_ok hrest'] at h
            cases h
            exact absurd (congrArg Prod.fst hrest') (hrest _)
        | error e =>
            cases e with
            | exception =>
                rw [guarded_of_exception hrest'] at h
                cases h
            | crash =>
                have hcrash : guarded rest ⟨l, some c, r, w⟩ =
                    (.error .crash, s₂) := trying_of_crash _ hrest'
                rw [hcrash] at h
                cases h

theorem entriesAt_admin {keys : Vec UInt8} {inp : Input β}
    (hinp : inp.Accepted) {s : Loop L β} {target : Target} {c : Card β}
    {entries : Uid -> Record -> List Entry}
    (hentries : forall uid, entries uid .admin = [])
    (harrival : arrival keys inp s.card = some target)
    (hpresented : Presented inp keys target (s.world.mem target.uid) c)
    (hadmin : c.testCard "ADMIN") :
    entriesAt keys inp s.card s.world.shop entries = [] := by
  have hsame := hpresented.mirrors hinp
  have hsay : Memory.Says (s.world.mem target.uid) .admin := by
    rw [Memory.Says, show s.world.mem target.uid 4 =
      s.world.mem target.uid (4 + 0) from rfl, ← hsame 0 (by decide)]
    exact (c.testCard_name .admin).mp hadmin
  rw [entriesAt, harrival]
  show entries target.uid (Memory.record (s.world.mem target.uid)) = []
  rw [Memory.record_of_admin hsay]
  exact hentries target.uid

omit [FloatCell β] in
/-- A guarded round throws nothing but a crash. -/
theorem guarded_ne_exception (body : LoopM L β Exit) (s : Loop L β) :
    (guarded body s).1 ≠ .error .exception := by
  rcases hbody : body s with ⟨result, s'⟩
  cases result with
  | ok e => simp [guarded_of_ok hbody]
  | error e =>
      cases e with
      | exception => simp [guarded_of_exception hbody]
      | crash =>
          have hcrash : guarded body s = (.error .crash, s') :=
            trying_of_crash _ hbody
          simp [hcrash]

end Rounds

end Loop

/-!
## The three selling modes
-/

namespace Kve

variable {β : Type} [FloatCell β]

theorem remains_rest (cfg : Config) (inp : Input β) :
    Loop.Remains (do
      let c ← Loop.onCard Session.getCard
      let l ← Loop.getLocals
      if c.isSOS then answerSOS cfg
      else if c.isConso then refuseConso
      else if c.isDebit then
        if l.ticket = true ∧ c.hasTicket then serveTicket cfg inp
        else serveSale cfg inp
      else refuseOther : LoopM Locals β Exit) := by
  have hnext : Loop.Remains (pure .next : LoopM Locals β Exit) :=
    Loop.remains_next
  apply Loop.remains_bind
  intro c
  apply Loop.remains_bind
  intro l
  apply Loop.remains_ite
  · exact Loop.remains_then (Loop.remains_then (Loop.remains_then
      (Loop.remains_then hnext)))
  apply Loop.remains_ite
  · exact Loop.remains_then (Loop.remains_then (Loop.remains_then hnext))
  apply Loop.remains_ite
  · apply Loop.remains_ite
    · exact Loop.remains_then hnext
    · exact Loop.remains_then (Loop.remains_then (Loop.remains_then hnext))
  · exact Loop.remains_then (Loop.remains_then hnext)

theorem round_leave {cfg : Config} {inp : Input β} (hinp : inp.Accepted)
    {s s' : Loop Locals β} (h : round cfg inp s = (.ok .leave, s')) :
    s.world.Books (entriesOf cfg inp s s.world.shop) s'.world := by
  rcases Loop.left_at_admin (phases_sound cfg) inp (remains_rest cfg inp)
      (body_apply cfg inp _ s) (waits_afterKeys inp s) (afterKeys_card inp s) h
    with ⟨target, c, harrival, hpresented, hadmin, hmem, hrows⟩
  have hnone : entriesOf cfg inp s s.world.shop = [] :=
    Loop.entriesAt_admin hinp (fun _ => rfl) harrival hpresented hadmin
  rw [hnone]
  exact World.books_of_same hmem hrows

theorem round_ne_exception (cfg : Config) (inp : Input β)
    (s : Loop Locals β) :
    (round cfg inp s).1 ≠ .error .exception :=
  Loop.guarded_ne_exception _ s

end Kve

namespace Caisse

variable {β : Type} [FloatCell β]

theorem remains_rest (cfg : Config) (inp : Input β) :
    Loop.Remains (do
      let c ← Loop.onCard Session.getCard
      if c.isSOS then answerSOS cfg
      else if c.isConso then refuseConso
      else if ¬ c.isDebit then create inp
      else topUp cfg inp : LoopM Unit β Exit) := by
  have hnext : Loop.Remains (pure .next : LoopM Unit β Exit) :=
    Loop.remains_next
  apply Loop.remains_bind
  intro c
  apply Loop.remains_ite
  · exact Loop.remains_then (Loop.remains_then hnext)
  apply Loop.remains_ite
  · exact Loop.remains_then (Loop.remains_then hnext)
  apply Loop.remains_ite
  · exact Loop.remains_then (Loop.remains_then hnext)
  · apply Loop.remains_bind
    intro c
    apply Loop.remains_then
    apply Loop.remains_then
    apply Loop.remains_then
    apply Loop.remains_ite
    · exact Loop.remains_then (Loop.remains_then hnext)
    · apply Loop.remains_then
      apply Loop.remains_then
      apply Loop.remains_bind
      intro c
      exact Loop.remains_then (Loop.remains_then hnext)

theorem round_leave {cfg : Config} {inp : Input β} (hinp : inp.Accepted)
    {s s' : Loop Unit β} (h : round cfg inp s = (.ok .leave, s')) :
    s.world.Books (entriesOf cfg inp s s.world.shop) s'.world := by
  rcases Loop.left_at_admin (phases_sound cfg) inp (remains_rest cfg inp)
      (Eq.refl _) (Loop.Waits.refl words s) (Eq.refl s.card) h
    with ⟨target, c, harrival, hpresented, hadmin, hmem, hrows⟩
  have hnone : entriesOf cfg inp s s.world.shop = [] :=
    Loop.entriesAt_admin hinp (fun _ => rfl) harrival hpresented hadmin
  rw [hnone]
  exact World.books_of_same hmem hrows

theorem round_ne_exception (cfg : Config) (inp : Input β)
    (s : Loop Unit β) :
    (round cfg inp s).1 ≠ .error .exception :=
  Loop.guarded_ne_exception _ s

end Caisse

namespace Bar

variable {β : Type} [FloatCell β]

theorem remains_rest (cfg : Config) (hash : HashOrder) (inp : Input β) :
    Loop.Remains (do
      let c ← Loop.onCard Session.getCard
      let l ← Loop.getLocals
      if c.isSOS then answerSOS cfg
      else if c.isDebit ∧ isEmpty l.conso = true then showCredit c
      else if c.isDebit ∧ isEmpty l.conso = false then serveOrder cfg hash inp
      else if c.isConso then addConso cfg hash inp c l.conso
      else refuseOther : LoopM Locals β Exit) := by
  have hnext : Loop.Remains (pure .next : LoopM Locals β Exit) :=
    Loop.remains_next
  apply Loop.remains_bind
  intro c
  apply Loop.remains_bind
  intro l
  apply Loop.remains_ite
  · exact Loop.remains_then (Loop.remains_then hnext)
  apply Loop.remains_ite
  · exact Loop.remains_then (Loop.remains_then (Loop.remains_then hnext))
  apply Loop.remains_ite
  · exact Loop.remains_then (Loop.remains_then (Loop.remains_then
      (Loop.remains_then (Loop.remains_then hnext))))
  apply Loop.remains_ite
  · exact Loop.remains_then (Loop.remains_then (Loop.remains_then
      (Loop.remains_then (Loop.remains_then hnext))))
  · exact Loop.remains_then (Loop.remains_then (Loop.remains_then
      (Loop.remains_then hnext)))

theorem round_leave {cfg : Config} {hash : HashOrder} {inp : Input β}
    (hinp : inp.Accepted) {s s' : Loop Locals β}
    (h : round cfg hash inp s = (.ok .leave, s')) :
    s.world.Books (entriesOf cfg hash inp s s.world.shop) s'.world := by
  rcases Loop.left_at_admin (phases_sound cfg inp) inp
      (remains_rest cfg hash inp) (body_apply cfg inp _ s)
      (waits_afterKeys inp s) (afterKeys_card inp s) h
    with ⟨target, c, harrival, hpresented, hadmin, hmem, hrows⟩
  have hnone : entriesOf cfg hash inp s s.world.shop = [] :=
    Loop.entriesAt_admin hinp (fun _ => rfl) harrival hpresented hadmin
  rw [hnone]
  exact World.books_of_same hmem hrows

theorem round_ne_exception (cfg : Config) (hash : HashOrder) (inp : Input β)
    (s : Loop Locals β) :
    (round cfg hash inp s).1 ≠ .error .exception :=
  Loop.guarded_ne_exception
    (do
      cancelByKey inp
      cancelByTime inp
      Loop.visit (phases cfg inp) inp (dispatch cfg hash inp))
    (Loop.onWorld (print inp.screenClock inp.shownClock) s).2

end Bar

end BeeGadz
