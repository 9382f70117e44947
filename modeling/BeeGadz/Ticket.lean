import BeeGadz.Serve.Bar
import BeeGadz.Serve.Kve

/-!
# The row of a ticket

Bar looks up the conso of a ticket before it takes the ticket from the card, Kve
afterwards.  The conso is only found on a card that still has a ticket, so Kve
records the last ticket of a card as one for conso 0.
-/

namespace BeeGadz

open Foundation

section Rounds

variable {L β : Type} [Cell β]

omit [Cell β] in
def ticketsSent (s s' : Loop L β) : List (Uid × Row) :=
  (Loop.sent s s').filter fun sent => sent.2.kind = .ticket

/-- The tickets of the cached card are no longer those that were seen. -/
def Consumed (inp : Input β) (keys : Vec UInt8) (target : Target)
    (mem : Memory β) (s' : Loop L β) : Prop :=
  exists c, s'.card = some c ∧
    (c.block 1 2).data.first ≠ (Loop.seen inp keys target mem 6).first

/-- The blocks are those of a DEBIT card with tickets for a configured
conso. -/
structure TicketCard (cfg : Config) (mem : Memory β) (conso : String × Rat) :
    Prop where
  debit : mem.Says .debit
  left : 0 < mem.tickets
  known : cfg.getConso mem.ticket.toNat = .ok conso

/-- A ticket that is consumed in the round is recorded, once and as itself. -/
def TicketRecorded (cfg : Config) (inp : Input β) (s s' : Loop L β) : Prop :=
  forall target conso,
    Loop.arrival (cfg.getKeys false) inp s.card = some target ->
    TicketCard cfg (s.world.mem target.uid) conso ->
    Consumed inp (cfg.getKeys false) target (s.world.mem target.uid) s' ->
    ticketsSent s s' = [(target.uid, Bar.ticketRow cfg conso)]

omit [Cell β] in
theorem ticketsSent_of_rows {s s' : Loop L β} {new : List (Uid × Row)}
    (h : rows s'.world.log = rows s.world.log ++ new) :
    ticketsSent s s' = new.filter fun sent => sent.2.kind = .ticket := by
  rw [ticketsSent, Loop.sent_of_rows h]

theorem consumed_of_any {inp : Input β} {keys : Vec UInt8}
    {target : Target} {mem : Memory β} {s' : Loop L β}
    (h : s'.card.any (fun c => (c.block 1 2).data.first ≠
      (Loop.seen inp keys target mem 6).first) = true) :
    Consumed inp keys target mem s' := by
  rcases (Option.any_eq_true _ _).mp h with ⟨c, hcard, htaken⟩
  exact ⟨c, hcard, of_decide_eq_true htaken⟩

theorem not_consumed {inp : Input β} {keys : Vec UInt8} {target : Target}
    {mem : Memory β} {c c' : Card β} {s' : Loop L β}
    (hpresented : Loop.Presented inp keys target mem c)
    (hcard : s'.card = some c') (hsame : c'.block 1 2 = c.block 1 2) :
    ¬ Consumed inp keys target mem s' := by
  intro hall
  rcases hall with ⟨other, hother, hne⟩
  rw [hcard] at hother
  cases hother
  apply hne
  rw [hsame, hpresented.seen 2 (by decide)]

end Rounds

theorem ticketRow_injective {cfg : Config} {a b : String × Rat}
    (h : Bar.ticketRow cfg a = Bar.ticketRow cfg b) : a = b := by
  have hcommand := congrArg Row.command h
  have hprice := congrArg Row.price h
  exact Prod.ext ((String.append_right_inj "ticket ").mp hcommand) hprice

variable {β : Type} [FloatCell β]

theorem Session.Charged.ticketBlock {pass : Pass β} {price : Rat}
    {c c' : Card β} {mem mem' : Uid -> Nat -> Bytes β 16}
    (h : Session.Charged pass price c mem c' mem') :
    c'.block 1 2 = c.block 1 2 := by
  by_cases hcredit : c.getCredit = 0
  · exact (h.free hcredit).left 1 2
  · exact ((h.paid hcredit).left 1 2).trans (c.edit_block_of_ne _ (by decide))

/-!
## Bar
-/

namespace Bar

theorem Pays.ticketBlock {cfg : Config} {hash : HashOrder} {inp : Input β}
    {order : Order} {c c' : Card β} {mem mem' : Uid -> Nat -> Bytes β 16}
    {sent : List Row} (h : Pays cfg hash inp order c mem c' mem' sent) :
    c'.block 1 2 = c.block 1 2 := by
  cases h with
  | unpaid short card kept => rw [card]
  | paid price priced covers charged => exact charged.ticketBlock

theorem Pays.not_ticket {cfg : Config} {hash : HashOrder} {inp : Input β}
    {order : Order} {c c' : Card β} {mem mem' : Uid -> Nat -> Bytes β 16}
    {sent : List Row} (h : Pays cfg hash inp order c mem c' mem' sent)
    (card : Card β) :
    (rowsOf card sent).filter (fun sent => sent.2.kind = .ticket) = [] := by
  rw [List.filter_eq_nil_iff]
  intro row hrow
  rcases List.mem_map.mp hrow with ⟨inner, hinner, rfl⟩
  cases h with
  | unpaid short card kept => cases hinner
  | paid price priced covers charged => simp [saleRows_kind hinner]

theorem ticket_recorded {cfg : Config} {hash : HashOrder} {inp : Input β}
    {s s' : Loop Locals β} (h : step cfg (hash, inp) s = some s') :
    TicketRecorded cfg inp s s' := by
  intro target conso harrival hcard hconsumed
  have hrun := step_run h
  rw [harrival] at hrun
  rcases hrun with ⟨s₁, c, hc, hmem, hrows, hpresented, hserves⟩
  cases hserves with
  | settle debit ordered c' card sent settles sends =>
      rw [hrows] at sends
      rw [ticketsSent_of_rows sends]
      cases settles with
      | plain skips pays =>
          exact absurd hconsumed
            (not_consumed hpresented card pays.ticketBlock)
      | unknown applies missing same kept =>
          exact absurd hconsumed
            (not_consumed hpresented card (by rw [same]))
      | ticket applies found known c₂ mem₂ frame blocks flushed pays =>
          rw [(hpresented.ticket_mem debit applies.left).left, hcard.known]
            at known
          cases known
          rw [rowsOf_cons, List.filter_append, pays.not_ticket,
            List.append_nil, ← hpresented.uid]
          rfl
  | still idle keeps =>
      exact absurd hconsumed
        (not_consumed hpresented (keeps.card.trans hc) rfl)

end Bar

/-!
## Kve
-/

namespace Kve

def Takes (cfg : Config) (inp : Input β) (s : Loop Locals β)
    (target : Target) : Prop :=
  wanted inp s.locals = true ∧
    Memory.tickets (Loop.seen inp (cfg.getKeys false) target
      (s.world.mem target.uid)) ≠ 0

/-- A ticket that the round takes is not the last one of its card, or its conso
is conso 0. -/
def LastIsFirst (cfg : Config) (inp : Input β) (s : Loop Locals β) : Prop :=
  forall target conso,
    Loop.arrival (cfg.getKeys false) inp s.card = some target ->
    TicketCard cfg (s.world.mem target.uid) conso ->
    Takes cfg inp s target ->
    Memory.tickets (s.world.mem target.uid) = 1 -> cfg.getConso 0 = .ok conso

/-- The ticket of a card from which one was taken: none if it was the last. -/
theorem getTicket_taken {c c' : Card β} (hdebit : c.isDebit)
    (hticket : c.hasTicket) (h : Card.SameBlocks c.ticketTaken c') :
    c'.getTicket =
      if (c.block 1 2).data.first = 1 then 0 else c.getTicket := by
  have h0 : c'.block 1 0 = c.block 1 0 :=
    (h 1 0).trans (c.edit_block_of_ne _ (by decide))
  have hdebit' : c'.isDebit :=
    (Card.isDebit_congr (congrArg Block.data h0)).mpr hdebit
  have h2 : (c'.block 1 2).data =
      (c.block 1 2).data.putFirst ((c.block 1 2).data.first - 1) := by
    rw [h 1 2, Card.ticketTaken, Card.edit_block_self]
    exact if_pos hticket.right
  by_cases hlast : (c.block 1 2).data.first = 1
  · have hnone : ¬ c'.hasTicket := by
      intro hmore
      apply hmore.right
      rw [h2, Bytes.first_putFirst, hlast]
      rfl
    rw [if_pos hlast, Card.getTicket, if_neg hnone]
  · have hmore : c'.hasTicket := by
      refine ⟨hdebit', ?_⟩
      rw [h2, Bytes.first_putFirst]
      intro hzero
      exact hlast (by grind)
    rw [if_neg hlast, Card.getTicket, if_pos hmore, Card.getTicket,
      if_pos hticket, h2, Bytes.second_putFirst]

/-- Kve records a ticket that it takes as one for the conso that is found
afterwards. -/
theorem takes_sent {cfg : Config} {inp : Input β} {s s' : Loop Locals β}
    (h : step cfg inp s = some s') {target : Target} {conso : String × Rat}
    (harrival : Loop.arrival (cfg.getKeys false) inp s.card = some target)
    (hcard : TicketCard cfg (s.world.mem target.uid) conso)
    (htakes : Takes cfg inp s target) :
    Consumed inp (cfg.getKeys false) target (s.world.mem target.uid) s' ∧
      exists found,
        cfg.getConso (if Memory.tickets (s.world.mem target.uid) = 1 then 0
          else (Memory.ticket (s.world.mem target.uid)).toNat) = .ok found ∧
        ticketsSent s s' = [(target.uid, Bar.ticketRow cfg found)] := by
  have hrun := step_run h
  rw [harrival] at hrun
  rcases hrun with ⟨s₁, c, hc, hmem, hrows, hpresented, hserves⟩
  have hdebit : c.isDebit := by
    apply hpresented.isDebit_iff.mpr
    by_contra hnot
    exact htakes.right (if_neg hnot)
  have hticket : c.hasTicket :=
    (hpresented.hasTicket_iff hdebit).mpr htakes.right
  rcases hpresented.ticket_mem hdebit hticket with ⟨hid, hleft⟩
  cases hserves with
  | sale c' debit wants covers card charged sent =>
      exact absurd ⟨htakes.left, hticket⟩ wants
  | still idle keeps =>
      exact absurd ⟨htakes.left, hticket⟩ (idle hdebit).left
  | ticket c' debit wants card frame blocks flushed sent =>
      have hfound := getTicket_taken debit hticket blocks
      rw [hid, hleft] at hfound
      constructor
      · refine ⟨c', card, ?_⟩
        have htaken : (c'.block 1 2).data.first =
            (c.block 1 2).data.first - 1 := by
          rw [blocks 1 2, Card.ticketTaken, Card.edit_block_self,
            if_pos hticket.right, Bytes.first_putFirst]
        rw [htaken, ← hpresented.seen 2 (by decide)]
        intro hsame
        grind
      · have hconfigured : exists found,
            cfg.getConso c'.getTicket.toNat = .ok found := by
          rw [hfound]
          split
          · have hcount : 0 < cfg.getNbConso := by
              have hget := Config.getConso_eq_ok.mp hcard.known
              have hlt := (List.getElem?_eq_some_iff.mp hget).choose
              exact Nat.lt_of_le_of_lt (Nat.zero_le _) hlt
            rcases Config.getConso_ok hcount with ⟨found, hfound, _⟩
            exact ⟨found, hfound⟩
          · exact ⟨conso, hcard.known⟩
        rcases hconfigured with ⟨found, hconso⟩
        refine ⟨found, ?_, ?_⟩
        · rw [hfound] at hconso
          rw [← hconso]
          split <;> rfl
        · rw [hrows] at sent
          rw [ticketsSent_of_rows sent, ticketRows, hconso, frame.uid,
            hpresented.uid]
          rfl

theorem consumed_takes {cfg : Config} {inp : Input β} {s s' : Loop Locals β}
    (h : step cfg inp s = some s') {target : Target}
    (harrival : Loop.arrival (cfg.getKeys false) inp s.card = some target)
    (hconsumed : Consumed inp (cfg.getKeys false) target
      (s.world.mem target.uid) s') : Takes cfg inp s target := by
  have hrun := step_run h
  rw [harrival] at hrun
  rcases hrun with ⟨s₁, c, hc, hmem, hrows, hpresented, hserves⟩
  cases hserves with
  | ticket c' debit wants card frame blocks flushed sent =>
      exact ⟨wants.left, (hpresented.hasTicket_iff debit).mp wants.right⟩
  | sale c' debit wants covers card charged sent =>
      exact absurd hconsumed
        (not_consumed hpresented card charged.ticketBlock)
  | still idle keeps =>
      exact absurd hconsumed
        (not_consumed hpresented (keeps.card.trans hc) rfl)

theorem ticket_recorded_iff {cfg : Config} {inp : Input β}
    {s s' : Loop Locals β} (h : step cfg inp s = some s') :
    TicketRecorded cfg inp s s' <-> LastIsFirst cfg inp s := by
  constructor
  · intro hrecorded target conso harrival hcard htakes hlast
    rcases takes_sent h harrival hcard htakes with
      ⟨hconsumed, found, hfound, hsent⟩
    have hsame := hrecorded target conso harrival hcard hconsumed
    rw [hsent] at hsame
    have hrow := (Prod.mk.inj (List.singleton_inj.mp hsame)).right
    rw [if_pos hlast] at hfound
    rw [hfound, ticketRow_injective hrow]
  · intro hfirst target conso harrival hcard hconsumed
    have htakes := consumed_takes h harrival hconsumed
    rcases takes_sent h harrival hcard htakes with ⟨_, found, hfound, hsent⟩
    rw [hsent]
    by_cases hlast : Memory.tickets (s.world.mem target.uid) = 1
    · rw [if_pos hlast, hfirst target conso harrival hcard htakes hlast]
        at hfound
      cases hfound
      rfl
    · rw [if_neg hlast, hcard.known] at hfound
      cases hfound
      rfl

end Kve

/-!
## Both modes
-/

/-- A round of Bar and a round of Kve that each consume a ticket of the same
card. -/
structure BothConsume (cfg : Config) (target : Target) (conso : String × Rat)
    (bar : Transition (Bar.HashOrder × Input β) (Loop Bar.Locals β))
    (kve : Transition (Input β) (Loop Kve.Locals β)) : Prop where
  card : TicketCard cfg (kve.before.world.mem target.uid) conso
  same : bar.before.world.mem target.uid = kve.before.world.mem target.uid
  barArrival : Loop.arrival (cfg.getKeys false) bar.input.2 bar.before.card =
    some target
  kveArrival : Loop.arrival (cfg.getKeys false) kve.input kve.before.card =
    some target
  barConsumed : Consumed bar.input.2 (cfg.getKeys false) target
    (bar.before.world.mem target.uid) bar.after
  kveConsumed : Consumed kve.input (cfg.getKeys false) target
    (kve.before.world.mem target.uid) kve.after

/-- In all runs, Bar records the tickets that it consumes as themselves.  Kve
does exactly in the rounds that take no last ticket for another conso than
conso 0, and sends the row that Bar sends exactly then. -/
theorem ticket_rows_iff (cfg : Config) :
    (forall is (s : Loop Bar.Locals β) r,
      r ∈ Run.transitions (Bar.step cfg) is s ->
        TicketRecorded cfg r.input.2 r.before r.after) ∧
    (forall is (s : Loop Kve.Locals β) r,
      r ∈ Run.transitions (Kve.step cfg) is s ->
        (TicketRecorded cfg r.input r.before r.after <->
          Kve.LastIsFirst cfg r.input r.before)) ∧
    (forall is (s : Loop Bar.Locals β) bar,
      bar ∈ Run.transitions (Bar.step cfg) is s ->
      forall is' (s' : Loop Kve.Locals β) kve,
      kve ∈ Run.transitions (Kve.step cfg) is' s' ->
      forall target conso, BothConsume cfg target conso bar kve ->
        (ticketsSent kve.before kve.after = ticketsSent bar.before bar.after <->
          (Memory.tickets (kve.before.world.mem target.uid) = 1 ->
            cfg.getConso 0 = .ok conso))) := by
  refine ⟨?_, ?_, ?_⟩
  · intro is s r hr
    exact Bar.ticket_recorded (Run.mem_transitions_step hr)
  · intro is s r hr
    exact Kve.ticket_recorded_iff (Run.mem_transitions_step hr)
  · intro is s bar hbar is' s' kve hkve target conso hboth
    have hbarStep := Run.mem_transitions_step hbar
    have hkveStep := Run.mem_transitions_step hkve
    have hbarSent := Bar.ticket_recorded hbarStep target conso
      hboth.barArrival (hboth.same ▸ hboth.card) hboth.barConsumed
    have htakes :=
      Kve.consumed_takes hkveStep hboth.kveArrival hboth.kveConsumed
    rcases Kve.takes_sent hkveStep hboth.kveArrival hboth.card htakes with
      ⟨_, found, hfound, hkveSent⟩
    rw [hbarSent, hkveSent]
    constructor
    · intro hsame hlast
      have hrow := (Prod.mk.inj (List.singleton_inj.mp hsame)).right
      rw [if_pos hlast] at hfound
      rw [hfound, ticketRow_injective hrow]
    · intro hfirst
      by_cases hlast : Memory.tickets (kve.before.world.mem target.uid) = 1
      · rw [if_pos hlast, hfirst hlast] at hfound
        cases hfound
        rfl
      · rw [if_neg hlast, hboth.card.known] at hfound
        cases hfound
        rfl

def oneTicket : Memory Rat := fun a =>
  if a = 4 then Bytes.putName (fun _ => 0) (ascii "DEBIT")
  else if a = 6 then (Bytes.putFirst (fun _ => 0) 1).putSecond 1
  else fun _ => 0

def ticketCard : Input Rat :=
  { Input.idle with
    key := 48
    found := some ⟨fun _ => 1, 0x4⟩ }

/-- The last ticket of a card is consumed in a round of Bar, where its conso is
ordered, and in a round of Kve, and the two send different rows. -/
theorem ticket_rows_differ :
    let cfg : Config :=
      ⟨[("Soft", 1), ("Snack", 2)], "", 0, Vec.replicate 6 0xff,
        Vec.replicate 6 0xff⟩
    let order : Bar.Order := Bar.increment ∅ 1
    let w : World Rat := World.start (fun _ => oneTicket) .bar
    exists bar kve,
      bar ∈ Run.transitions (Bar.step cfg) [(Bar.HashOrder.filled, ticketCard)]
          ⟨⟨order, 0⟩, none, false, w⟩ ∧
        kve ∈ Run.transitions (Kve.step cfg) [ticketCard] (Kve.enter 0 w) ∧
        BothConsume cfg ⟨fun _ => 1, 0x4⟩ ("Snack", 2) bar kve ∧
        ticketsSent kve.before kve.after ≠
          ticketsSent bar.before bar.after := by
  intro cfg order w
  let head : Loop Bar.Locals Rat := ⟨⟨order, 0⟩, none, false, w⟩
  let taken : Card Rat -> Bool := fun c =>
    (c.block 1 2).data.first ≠
      (Loop.seen ticketCard (cfg.getKeys false) ⟨fun _ => 1, 0x4⟩ oneTicket
        6).first
  have hbar : (Bar.step cfg (Bar.HashOrder.filled, ticketCard) head).any
      (fun s => s.card.any taken) = true := by
    decide +kernel
  have hkve : (Kve.step cfg ticketCard (Kve.enter 0 w)).any
      (fun s => s.card.any taken) = true := by
    decide +kernel
  rcases (Option.any_eq_true _ _).mp hbar with ⟨s, hs, hbarTaken⟩
  rcases (Option.any_eq_true _ _).mp hkve with ⟨s', hs', hkveTaken⟩
  have hcard : TicketCard cfg oneTicket ("Snack", 2) :=
    ⟨by decide +kernel, by decide +kernel, by decide +kernel⟩
  have harrival : Loop.arrival (cfg.getKeys false) ticketCard none =
      some ⟨fun _ => 1, 0x4⟩ := by
    decide +kernel
  have hlast : Memory.tickets oneTicket = 1 := by
    decide +kernel
  have hboth : BothConsume cfg ⟨fun _ => 1, 0x4⟩ ("Snack", 2)
      ⟨head, (Bar.HashOrder.filled, ticketCard), s⟩
      ⟨Kve.enter 0 w, ticketCard, s'⟩ :=
    { card := hcard
      same := rfl
      barArrival := harrival
      kveArrival := harrival
      barConsumed := consumed_of_any hbarTaken
      kveConsumed := consumed_of_any hkveTaken }
  have hbarRun := Run.mem_transitions_single hs
  have hkveRun := Run.mem_transitions_single hs'
  refine ⟨_, _, hbarRun, hkveRun, hboth, ?_⟩
  intro hsame
  have hsoft := ((ticket_rows_iff cfg).right.right _ _ _ hbarRun _ _ _ hkveRun
    _ _ hboth).mp hsame hlast
  exact absurd hsoft (by decide +kernel)

/-- Kve takes the last ticket of a card, for conso 1, and records it as one for
conso 0. -/
theorem last_ticket_misrecorded :
    let cfg : Config :=
      ⟨[("Soft", 1), ("Snack", 2)], "", 0, Vec.replicate 6 0xff,
        Vec.replicate 6 0xff⟩
    let inp : Input Rat :=
      { Input.idle with
        key := 48
        found := some ⟨fun _ => 1, 0x4⟩ }
    exists r, r ∈ Run.transitions (Kve.step cfg) [inp]
        (Kve.enter 0 (World.start (fun _ => oneTicket) .kve)) ∧
      ¬ TicketRecorded cfg r.input r.before r.after := by
  intro cfg inp
  let s : Loop Kve.Locals Rat :=
    Kve.enter 0 (World.start (fun _ => oneTicket) .kve)
  have hstep : (Kve.step cfg inp s).isSome = true := by
    decide +kernel
  rcases Option.isSome_iff_exists.mp hstep with ⟨s', hs'⟩
  refine ⟨⟨s, inp, s'⟩, ?_, ?_⟩
  · have hrun := Run.transitions_single hs'
    exact hrun ▸ List.mem_singleton_self _
  · rw [Kve.ticket_recorded_iff hs']
    intro hfirst
    have hcard : TicketCard cfg oneTicket ("Snack", 2) :=
      ⟨by decide +kernel, by decide +kernel, by decide +kernel⟩
    have hsoft := hfirst ⟨fun _ => 1, 0x4⟩ ("Snack", 2) (by decide +kernel)
      hcard ⟨by decide +kernel, by decide +kernel⟩ (by decide +kernel)
    exact absurd hsoft (by decide +kernel)

end BeeGadz
