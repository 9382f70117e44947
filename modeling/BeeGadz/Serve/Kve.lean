import BeeGadz.Round
import BeeGadz.Settlement
import BeeGadz.Stored

/-!
# What a round of Kve does

A round takes a ticket, takes an amount from the credit, or keeps still.
-/

namespace BeeGadz

open Foundation

namespace Kve

variable {β : Type} [FloatCell β]

def wanted (inp : Input β) (l : Locals) : Bool :=
  if inp.key = 48 then true
  else if inp.key = 45 ∨ inp.clock - l.time ≥ 10 then false
  else l.ticket

def saleRow (cfg : Config) (amount : Rat) : Row where
  kind := .sale
  pianss := cfg.pianss
  command := "KVE"
  price := amount

def ticketRows (cfg : Config) (c : Card β) : List (Uid × Row) :=
  match cfg.getConso c.getTicket.toNat with
  | .ok conso => [(c.uid, Bar.ticketRow cfg conso)]
  | .error _ => []

inductive Serves (cfg : Config) (inp : Input β) (want : Bool) (c : Card β)
    (s s' : Loop Locals β) : Prop
  | ticket (c' : Card β) (debit : c.isDebit)
      (wants : want = true ∧ c.hasTicket) (card : s'.card = some c')
      (frame : Card.SameFrame c c') (blocks : Card.SameBlocks c.ticketTaken c')
      (flushed : Card.Flushed c.ticketTaken inp.ticketing s.world.mem
        s'.world.mem 4 8)
      (sent : rows s'.world.log = rows s.world.log ++ ticketRows cfg c')
  | sale (c' : Card β) (debit : c.isDebit)
      (wants : ¬ (want = true ∧ c.hasTicket))
      (covers : c.getCredit ≥ inp.amount) (card : s'.card = some c')
      (charged : Session.Charged inp.writing inp.amount c s.world.mem c'
        s'.world.mem)
      (sent : rows s'.world.log =
        rows s.world.log ++ [(c.uid, saleRow cfg inp.amount)])
  | still (idle : c.isDebit -> ¬ (want = true ∧ c.hasTicket) ∧
        c.getCredit < inp.amount)
      (keeps : Loop.Still [] s s')

/-!
## The branches
-/

omit [FloatCell β] in
theorem still_cancelTicket :
    Prog.Moves (Loop.Still [])
      (cancelTicket : LoopM Locals β Unit) := by
  apply Prog.moves_bind Loop.still_getLocals
  intro l
  apply Prog.moves_ite
  · apply Prog.moves_then (Loop.still_printInfo (by simp))
    exact Loop.still_modify (fun _ => rfl) (fun _ => rfl)
  · exact Prog.moves_pure _

omit [FloatCell β] in
theorem still_answerSOS (cfg : Config) :
    Prog.Moves (Loop.Still []) (answerSOS cfg : LoopM Locals β Exit) := by
  apply Prog.moves_then (Loop.still_sendSOS cfg)
  apply Prog.moves_then (Loop.still_printInfo (by simp))
  apply Prog.moves_then still_cancelTicket
  apply Prog.moves_then (Loop.still_printInfo (by simp))
  exact Prog.moves_pure _

omit [FloatCell β] in
theorem still_refuseConso :
    Prog.Moves (Loop.Still []) (refuseConso : LoopM Locals β Exit) := by
  apply Prog.moves_then (Loop.still_printInfo (by simp))
  apply Prog.moves_then (Loop.still_printInfo (by simp))
  apply Prog.moves_then still_cancelTicket
  exact Prog.moves_pure _

omit [FloatCell β] in
theorem still_refuseOther :
    Prog.Moves (Loop.Still []) (refuseOther : LoopM Locals β Exit) := by
  apply Prog.moves_then (Loop.still_printInfo (by simp))
  apply Prog.moves_then (Loop.still_printInfo (by simp))
  exact Prog.moves_pure _

theorem useTicket_run (cfg : Config) (inp : Input β) {c : Card β}
    (hc : c.Classic) (l : Locals) (r : Bool) (w : World β) :
    exists (result : Except Exn Unit) (c' : Card β) (w' : World β),
      (result = .ok () ∨ result = .error .exception) ∧
        Card.SameFrame c c' ∧ Card.SameBlocks c.ticketTaken c' ∧
        Card.Flushed c.ticketTaken inp.ticketing w.mem w'.mem 4 8 ∧
        rows w'.log = rows w.log ++ ticketRows cfg c' ∧
        useTicket cfg inp ⟨l, some c, r, w⟩ =
          (result, ⟨{ l with ticket := false }, some c', r, w'⟩) := by
  let l₁ : Locals := { l with ticket := false }
  let w₁ : World β := w.addLog [.info "TIcket utilisé"]
  rcases Session.decrementTicket_run inp.ticketing hc w₁ with
    ⟨c', w', hframe, hblocks, hflushed, hsay, hrun⟩
  have hsaid : rows w'.log = rows w.log := by
    rw [hsay.rows, Card.rows_writeSays, List.append_nil]
    simp [w₁, rows, Event.row]
  have hstart : useTicket cfg inp ⟨l, some c, r, w⟩ =
      (do
        let conso ← Prog.ofExcept (cfg.getConso c'.getTicket.toNat)
        Loop.onCard (Session.sendHistory cfg .ticket ("ticket " ++ conso.1)
          conso.2) : LoopM Locals β Unit) ⟨l₁, some c', r, w'⟩ := by
    have hticket : Loop.onCard (Session.decrementTicket inp.ticketing)
        (⟨l₁, some c, r, w₁⟩ : Loop Locals β) =
          (.ok (), ⟨l₁, some c', r, w'⟩) := by
      rw [Loop.onCard_apply, hrun]
    have hfirst : useTicket cfg inp ⟨l, some c, r, w⟩ =
        (do
          Loop.onCard (Session.decrementTicket inp.ticketing)
          let c ← Loop.onCard Session.getCard
          let conso ← Prog.ofExcept (cfg.getConso c.getTicket.toNat)
          Loop.onCard (Session.sendHistory cfg .ticket ("ticket " ++ conso.1)
            conso.2) : LoopM Locals β Unit) ⟨l₁, some c, r, w₁⟩ := rfl
    rw [hfirst, Prog.bind_of_ok _ hticket]
    rfl
  cases hconso : cfg.getConso c'.getTicket.toNat with
  | error e =>
      have he := Config.getConso_error hconso
      refine ⟨.error e, c', w', Or.inr (he ▸ rfl), hframe, hblocks, hflushed,
        ?_, ?_⟩
      · simp [ticketRows, hconso, hsaid]
      · rw [hstart, hconso]
        rfl
  | ok conso =>
      refine ⟨.ok (), c', w'.addLog
        [.request c'.uid (.history (Bar.ticketRow cfg conso))], Or.inl rfl,
        hframe, hblocks, hflushed, ?_, ?_⟩
      · rw [World.addLog_log, rows_append, hsaid, ticketRows, hconso]
        rfl
      · rw [hstart, hconso]
        rfl

theorem pay_run (cfg : Config) (inp : Input β) {c : Card β} (hc : c.Classic)
    (l : Locals) (r : Bool) (w : World β) :
    exists (c' : Card β) (w' : World β),
      Session.Charged inp.writing inp.amount c w.mem c' w'.mem ∧
        rows w'.log = rows w.log ++ [(c.uid, saleRow cfg inp.amount)] ∧
        pay cfg inp ⟨l, some c, r, w⟩ = (.ok (), ⟨l, some c', r, w'⟩) := by
  let w₁ : World β := w.addLog [.info "OK"]
  rcases Session.decrementCredit_run inp.writing inp.amount hc w₁ with
    ⟨c', w₂, hcharged, hsay, hrun⟩
  have hsaid : rows w₂.log = rows w.log := by
    have hnone : rows (c.chargeSays inp.writing inp.amount) = [] := by
      unfold Card.chargeSays
      split
      · rfl
      · exact Card.rows_writeSays _ _
    rw [hsay.rows, hnone, List.append_nil]
    simp [w₁, rows, Event.row]
  refine ⟨c', w₂.addLog [.request c'.uid (.history (saleRow cfg inp.amount))],
    ⟨hcharged.frame, hcharged.free, hcharged.paid⟩, ?_, ?_⟩
  · rw [World.addLog_log, rows_append, hsaid, hcharged.frame.uid]
    rfl
  · have hcharge : Loop.onCard (Session.decrementCredit inp.writing inp.amount)
        (⟨l, some c, r, w₁⟩ : Loop Locals β) =
          (.ok (), ⟨l, some c', r, w₂⟩) := by
      rw [Loop.onCard_apply, hrun]
    have hstart : pay cfg inp ⟨l, some c, r, w⟩ =
        (do
          Loop.onCard (Session.decrementCredit inp.writing inp.amount)
          Loop.onCard (Session.sendHistory cfg .sale "KVE" inp.amount) :
          LoopM Locals β Unit) ⟨l, some c, r, w₁⟩ := rfl
    rw [hstart, Prog.bind_of_ok _ hcharge]
    rfl

theorem charge_apply (cfg : Config) (inp : Input β) (l : Locals) (c : Card β)
    (r : Bool) (w : World β) :
    charge cfg inp ⟨l, some c, r, w⟩ =
      (if c.getCredit ≥ inp.amount then pay cfg inp
        else Loop.onWorld (printInfo "Pas assez d'argent sur la carte !"))
        ⟨l, some c, r,
          w.addLog [.info "Entrez le prix du cok'ss : "]⟩ := rfl

/-!
## The round
-/

theorem dispatch_apply (cfg : Config) (inp : Input β) (l : Locals)
    {c : Card β} (hadmin : ¬ c.testCard "ADMIN") (r : Bool) (w : World β) :
    dispatch cfg inp ⟨l, some c, r, w⟩ =
      (if c.isSOS then answerSOS cfg
        else if c.isConso then refuseConso
        else if c.isDebit then
          if l.ticket = true ∧ c.hasTicket then serveTicket cfg inp
          else serveSale cfg inp
        else refuseOther) ⟨l, some c, r, w⟩ :=
  Loop.isAdmin_pass _ hadmin l r w

/-- A round that takes a ticket goes on also when its conso is not
configured. -/
theorem serves_ticket {cfg : Config} {inp : Input β} {c : Card β}
    (hc : c.Classic) (hdebit : c.isDebit) {l : Locals}
    (hwants : l.ticket = true ∧ c.hasTicket) {r : Bool} {w : World β}
    {s' : Loop Locals β}
    (h : Loop.guarded (serveTicket cfg inp) ⟨l, some c, r, w⟩ =
      (.ok .next, s')) :
    Serves cfg inp l.ticket c ⟨l, some c, r, w⟩ s' := by
  rcases useTicket_run cfg inp hc l r w with
    ⟨result, c', w', hresult, hframe, hblocks, hflushed, hsent, hrun⟩
  have hend : s' = ⟨{ l with ticket := false }, some c', r, w'⟩ := by
    cases hresult with
    | inl hok =>
        subst hok
        have hserve : serveTicket cfg inp ⟨l, some c, r, w⟩ =
            (.ok .next, ⟨{ l with ticket := false }, some c', r, w'⟩) := by
          rw [serveTicket, Prog.bind_of_ok _ hrun]
          rfl
        rw [Loop.guarded_of_ok hserve] at h
        cases h
        rfl
    | inr herror =>
        subst herror
        have hserve : serveTicket cfg inp ⟨l, some c, r, w⟩ =
            (.error .exception,
              ⟨{ l with ticket := false }, some c', r, w'⟩) :=
          Prog.bind_of_error _ hrun
        rw [Loop.guarded_of_exception hserve] at h
        cases h
        rfl
  subst hend
  exact .ticket c' hdebit hwants rfl hframe hblocks hflushed hsent

omit [FloatCell β] in
theorem still_afterSale :
    Prog.Moves (Loop.Still [])
      (do
        cancelTicket
        Loop.onWorld (printInfo "Posez une cart DEBIT.")
        pure .next : LoopM Locals β Exit) := by
  apply Prog.moves_then still_cancelTicket
  apply Prog.moves_then (Loop.still_printInfo (by simp))
  exact Prog.moves_pure _

theorem serves_sale {cfg : Config} {inp : Input β} {c : Card β}
    (hc : c.Classic) (hdebit : c.isDebit) {l : Locals}
    (hwants : ¬ (l.ticket = true ∧ c.hasTicket)) {r : Bool} {w : World β}
    {s' : Loop Locals β}
    (h : Loop.guarded (serveSale cfg inp) ⟨l, some c, r, w⟩ =
      (.ok .next, s')) :
    Serves cfg inp l.ticket c ⟨l, some c, r, w⟩ s' := by
  let w₁ : World β := w.addLog [.info "Entrez le prix du cok'ss : "]
  by_cases hcovers : c.getCredit ≥ inp.amount
  · rcases pay_run cfg inp hc l r w₁ with ⟨c', w', hcharged, hsent, hrun⟩
    have hcharge : charge cfg inp ⟨l, some c, r, w⟩ =
        (.ok (), ⟨l, some c', r, w'⟩) := by
      rw [charge_apply, if_pos hcovers, hrun]
    have hrest : Loop.Still [] ⟨l, some c', r, w'⟩ s' :=
      Loop.still_of_guarded (Prog.bind_of_ok _ hcharge) still_afterSale h
    refine .sale c' hdebit hwants hcovers hrest.card ?_ ?_
    · rw [hrest.mem]
      exact hcharged
    · rw [hrest.rows, hsent, World.addLog_log, rows_append]
      simp [rows, Event.row]
  · have hshort : serveSale cfg inp ⟨l, some c, r, w⟩ =
        (do
          Loop.onWorld (printInfo "Pas assez d'argent sur la carte !")
          cancelTicket
          Loop.onWorld (printInfo "Posez une cart DEBIT.")
          pure .next : LoopM Locals β Exit) ⟨l, some c, r, w₁⟩ := by
      rw [serveSale, Prog.bind_apply, charge_apply, if_neg hcovers]
      rfl
    have hasked : Loop.Still [] (⟨l, some c, r, w⟩ : Loop Locals β)
        ⟨l, some c, r, w₁⟩ :=
      Loop.still_printInfo (by simp) _
    have hrest : Loop.Still [] ⟨l, some c, r, w₁⟩ s' :=
      Loop.still_of_guarded hshort
        (Prog.moves_bind (Loop.still_printInfo (by simp))
          fun _ => still_afterSale) h
    exact .still (fun _ => ⟨hwants, lt_of_not_ge hcovers⟩)
      (Trans.trans hasked hrest)

theorem dispatch_serves {cfg : Config} {inp : Input β} {c : Card β}
    (hc : c.Classic) {l : Locals} {r : Bool} {w : World β}
    {s' : Loop Locals β}
    (h : Loop.guarded (dispatch cfg inp) ⟨l, some c, r, w⟩ =
      (.ok .next, s')) :
    Serves cfg inp l.ticket c ⟨l, some c, r, w⟩ s' := by
  have hadmin : ¬ c.testCard "ADMIN" := Loop.not_admin_of_next h
  have happly := dispatch_apply cfg inp l hadmin r w
  by_cases hdebit : c.isDebit
  · rcases hdebit.not_others with ⟨_, hsos, hconso⟩
    rw [if_neg hsos, if_neg hconso, if_pos hdebit] at happly
    by_cases hwants : l.ticket = true ∧ c.hasTicket
    · rw [if_pos hwants] at happly
      rw [Loop.guarded_congr happly] at h
      exact serves_ticket hc hdebit hwants h
    · rw [if_neg hwants] at happly
      rw [Loop.guarded_congr happly] at h
      exact serves_sale hc hdebit hwants h
  · rw [if_neg hdebit] at happly
    refine .still (fun h => absurd h hdebit) (Loop.still_of_guarded happly ?_ h)
    exact Prog.moves_ite (still_answerSOS cfg)
      (Prog.moves_ite still_refuseConso still_refuseOther)

/-!
## The keyboard
-/

omit [FloatCell β] in
theorem cancelTicket_locals (s : Loop Locals β) :
    (cancelTicket s).2.locals = { s.locals with ticket := false } := by
  rcases s with ⟨⟨ticket, time⟩, card, r, w⟩
  cases ticket <;> rfl

omit [FloatCell β] in
theorem idle_cancelByKey (inp : Input β) (s : Loop Locals β) :
    Loop.Idle words (cancelByKey inp) s :=
  Loop.idle_ite (idle_cancelTicket s) (Loop.idle_pure words s)

omit [FloatCell β] in
theorem idle_cancelByTime (inp : Input β) (s : Loop Locals β) :
    Loop.Idle words (cancelByTime inp) s :=
  Loop.idle_getLocals
    (Loop.idle_ite (idle_cancelTicket s) (Loop.idle_pure words s))

omit [FloatCell β] in
theorem idle_addByKey (inp : Input β) (s : Loop Locals β) :
    Loop.Idle words (addByKey inp) s := by
  apply Loop.idle_ite
  · apply Loop.idle_bind (Loop.idle_modify rfl rfl)
    apply Loop.idle_bind (Loop.idle_printInfo (by decide) _)
    exact Loop.idle_modify rfl rfl
  · exact Loop.idle_pure words s

def afterKeys (inp : Input β) (s : Loop Locals β) : Loop Locals β :=
  (addByKey inp (cancelByTime inp (cancelByKey inp s).2).2).2

omit [FloatCell β] in
theorem cancelByKey_locals (inp : Input β) (s : Loop Locals β) :
    (cancelByKey inp s).2.locals =
      if inp.key = 45 then { s.locals with ticket := false }
      else s.locals := by
  unfold cancelByKey
  split
  · exact cancelTicket_locals s
  · rfl

omit [FloatCell β] in
theorem cancelByTime_locals (inp : Input β) (s : Loop Locals β) :
    (cancelByTime inp s).2.locals =
      if inp.clock - s.locals.time ≥ 10 then { s.locals with ticket := false }
      else s.locals := by
  have happly : cancelByTime inp s =
      (if inp.clock - s.locals.time ≥ 10 then cancelTicket else pure ()) s :=
    rfl
  rw [happly]
  split
  · exact cancelTicket_locals s
  · rfl

omit [FloatCell β] in
theorem addByKey_locals (inp : Input β) (s : Loop Locals β) :
    (addByKey inp s).2.locals =
      if inp.key = 48 then ⟨true, inp.clock⟩ else s.locals := by
  unfold addByKey
  split <;> rfl

omit [FloatCell β] in
theorem afterKeys_locals (inp : Input β) (s : Loop Locals β) :
    (afterKeys inp s).locals =
      ⟨wanted inp s.locals,
        if inp.key = 48 then inp.clock else s.locals.time⟩ := by
  rcases s with ⟨⟨ticket, time⟩, card, r, w⟩
  rw [afterKeys, addByKey_locals, cancelByTime_locals, cancelByKey_locals]
  unfold wanted
  split
  · rfl
  · split <;> split <;> simp_all

omit [FloatCell β] in
theorem afterKeys_ticket (inp : Input β) (s : Loop Locals β) :
    (afterKeys inp s).locals.ticket = wanted inp s.locals :=
  congrArg Locals.ticket (afterKeys_locals inp s)

omit [FloatCell β] in
theorem waits_afterKeys (inp : Input β) (s : Loop Locals β) :
    Loop.Waits words s (afterKeys inp s) :=
  ((idle_cancelByKey inp s).waits.trans (idle_cancelByTime inp _).waits).trans
    (idle_addByKey inp _).waits

omit [FloatCell β] in
theorem afterKeys_card (inp : Input β) (s : Loop Locals β) :
    (afterKeys inp s).card = s.card := by
  rw [afterKeys, (idle_addByKey inp _).card, (idle_cancelByTime inp _).card,
    (idle_cancelByKey inp _).card]

theorem body_apply (cfg : Config) (inp : Input β)
    (dispatch : LoopM Locals β Exit) (s : Loop Locals β) :
    (do
      cancelByKey inp
      cancelByTime inp
      addByKey inp
      Loop.visit (phases cfg) inp dispatch :
      LoopM Locals β Exit) s =
        Loop.visit (phases cfg) inp dispatch (afterKeys inp s) := by
  rw [Prog.bind_of_ok _ (idle_cancelByKey inp s).apply,
    Prog.bind_of_ok _ (idle_cancelByTime inp _).apply,
    Prog.bind_of_ok _ (idle_addByKey inp _).apply]
  rfl

theorem step_run {cfg : Config} {inp : Input β} {s s' : Loop Locals β}
    (h : step cfg inp s = some s') :
    match Loop.arrival (cfg.getKeys false) inp s.card with
    | none =>
        s'.world.mem = s.world.mem ∧ rows s'.world.log = rows s.world.log
    | some target =>
        exists (s₁ : Loop Locals β) (c : Card β),
          s₁.card = some c ∧ s₁.world.mem = s.world.mem ∧
            rows s₁.world.log = rows s.world.log ∧
            Loop.Presented inp (cfg.getKeys false) target
              (s.world.mem target.uid) c ∧
            Serves cfg inp (wanted inp s.locals) c s₁ s' := by
  have hvisit := Loop.next_visit_run (phases_sound cfg) inp
    (dispatch cfg inp) (body_apply cfg inp _ s) (waits_afterKeys inp s)
    (afterKeys_card inp s) h
  have hkeys : (phases cfg : Loop.Phases Locals β).keys = cfg.getKeys false :=
    rfl
  rw [hkeys] at hvisit
  cases harrival : Loop.arrival (cfg.getKeys false) inp s.card with
  | none =>
      rw [harrival] at hvisit
      rcases hvisit with ⟨reads, hwire, hsees, _⟩
      exact ⟨hsees.mem, hsees.rows hwire⟩
  | some target =>
      rw [harrival] at hvisit
      rcases hvisit with ⟨s₁, c, hsees, hlocals, hc, hpresented, hrun⟩
      refine ⟨s₁, c, hc, hsees.mem,
        hsees.rows (Card.onWire_readEvents _ _ _ _ _), hpresented, ?_⟩
      have hticket : s₁.locals.ticket = wanted inp s.locals := by
        rw [hlocals, ← afterKeys_ticket]
        unfold Loop.arrivalLocals
        split <;> rfl
      rw [← hticket]
      rcases s₁ with ⟨l, card, r, w⟩
      cases hc
      exact dispatch_serves hpresented.classic hrun

end Kve

end BeeGadz
