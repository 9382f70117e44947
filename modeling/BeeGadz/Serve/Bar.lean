import BeeGadz.Round
import BeeGadz.Settlement
import BeeGadz.Stored

/-!
# What a round of Bar does

A round settles an order from a DEBIT card, or keeps still.
-/

namespace BeeGadz

open Foundation

namespace Bar

variable {β : Type} [FloatCell β]

def givesUp (s : Loop Locals β) : Bool :=
  s.card.any fun c => !decide c.isConso

def orderAt (inp : Input β) (s : Loop Locals β) : Order :=
  if inp.key = 45 ∨ inp.clock - s.locals.time ≥ 10 ∨ givesUp s = true then ∅
  else s.locals.conso

def rowsOf (c : Card β) (sent : List Row) : List (Uid × Row) :=
  sent.map fun row => (c.uid, row)

/-- The second stage of the settlement: what it makes of the card and of the
memories, and the rows that it sends. -/
inductive Pays (cfg : Config) (hash : HashOrder) (inp : Input β)
    (order : Order) (c : Card β) (mem : Uid -> Nat -> Bytes β 16)
    (c' : Card β) (mem' : Uid -> Nat -> Bytes β 16) : List Row -> Prop
  | unpaid (short : forall price, getPrice β cfg hash order = .ok price ->
        c.getCredit < price)
      (card : c' = c) (kept : mem' = mem) : Pays cfg hash inp order c mem c' mem' []
  | paid (price : Rat) (priced : getPrice β cfg hash order = .ok price)
      (covers : c.getCredit ≥ price)
      (charged : Session.Charged inp.writing price c mem c' mem') :
      Pays cfg hash inp order c mem c' mem'
        (saleRows β cfg (hash.entries order))

inductive Settles (cfg : Config) (hash : HashOrder) (inp : Input β)
    (order : Order) (c : Card β) (mem : Uid -> Nat -> Bytes β 16)
    (c' : Card β) (mem' : Uid -> Nat -> Bytes β 16) : List Row -> Prop
  | plain (skips : ¬ TicketApplies c order) {sent : List Row}
      (pays : Pays cfg hash inp order c mem c' mem' sent) :
      Settles cfg hash inp order c mem c' mem' sent
  | unknown (applies : TicketApplies c order)
      (missing : forall conso, cfg.getConso c.getTicket.toNat ≠ .ok conso)
      (card : c' = c) (kept : mem' = mem) :
      Settles cfg hash inp order c mem c' mem' []
  | ticket (applies : TicketApplies c order) (conso : String × Rat)
      (known : cfg.getConso c.getTicket.toNat = .ok conso)
      (c₂ : Card β) (mem₂ : Uid -> Nat -> Bytes β 16)
      (frame : Card.SameFrame c c₂)
      (blocks : Card.SameBlocks c.ticketTaken c₂)
      (flushed : Card.Flushed c.ticketTaken inp.ticketing mem mem₂ 4 8)
      {sent : List Row}
      (pays : Pays cfg hash inp (decrement order c.getTicket.toNat) c₂ mem₂
        c' mem' sent) :
      Settles cfg hash inp order c mem c' mem' (ticketRow cfg conso :: sent)

inductive Serves (cfg : Config) (hash : HashOrder) (inp : Input β)
    (order : Order) (c : Card β) (s s' : Loop Locals β) : Prop
  | settle (debit : c.isDebit) (ordered : isEmpty order = false)
      (c' : Card β) (card : s'.card = some c') (sent : List Row)
      (settles : Settles cfg hash inp order c s.world.mem c' s'.world.mem sent)
      (sends : rows s'.world.log = rows s.world.log ++ rowsOf c sent)
  | still (idle : ¬ (c.isDebit ∧ isEmpty order = false))
      (keeps : Loop.Still [] s s')

/-!
## The settlement
-/

omit [FloatCell β] in
theorem rows_rowEvents (c : Card β) (sent : List Row) :
    rows (rowEvents c.uid sent : List (Event β)) = rowsOf c sent := by
  induction sent with
  | nil => rfl
  | cons row rest ih =>
      have hcons : rows (rowEvents c.uid (row :: rest) : List (Event β)) =
          (c.uid, row) :: rows (rowEvents c.uid rest : List (Event β)) := rfl
      rw [hcons, ih]
      rfl

omit [FloatCell β] in
theorem rowsOf_congr {c c' : Card β} (h : Card.SameFrame c c')
    (sent : List Row) : rowsOf c' sent = rowsOf c sent := by
  unfold rowsOf
  rw [h.uid]

omit [FloatCell β] in
theorem rowsOf_cons (c : Card β) (row : Row) (sent : List Row) :
    rowsOf c (row :: sent) = rowsOf c [row] ++ rowsOf c sent := rfl

theorem rows_paySays (cfg : Config) (hash : HashOrder) (order : Order)
    (c : Card β) (pass : Pass β) (price : Rat) :
    rows (paySays cfg hash order c pass price) =
      rowsOf c (saleRows β cfg (hash.entries order)) := by
  have hnone : rows (c.chargeSays pass price) = [] := by
    unfold Card.chargeSays
    split
    · rfl
    · exact Card.rows_writeSays _ _
  have hok : rows ([.info "OK"] : List (Event β)) = [] := rfl
  rw [paySays, rows_append, rows_append, hok, hnone, rows_rowEvents,
    List.append_nil, List.nil_append]

theorem rows_ticketSays (cfg : Config) (conso : String × Rat) (c : Card β)
    (pass : Pass β) :
    rows (ticketSays cfg conso c pass) = rowsOf c [ticketRow cfg conso] := by
  have hcons : rows (ticketSays cfg conso c pass) =
      (c.uid, ticketRow cfg conso) :: rows (c.ticketTaken.writeSays pass) := rfl
  rw [hcons, Card.rows_writeSays]
  rfl

theorem charge_run {cfg : Config} {hash : HashOrder} (inp : Input β)
    {order : Order} {price : Rat}
    (hprice : getPrice β cfg hash order = .ok price) {c : Card β}
    (hc : c.Classic) (time : Int) (r : Bool) (w : World β) :
    exists (c' : Card β) (w' : World β) (sent : List Row)
        (said : List (Event β)),
      Pays cfg hash inp order c w.mem c' w'.mem sent ∧
        w.Says w' said ∧ rows said = rowsOf c sent ∧
        (.info "Pas assez d'argent sur la carte !" ∈ said <->
          c.getCredit < price) ∧
        charge cfg hash inp ⟨⟨order, time⟩, some c, r, w⟩ =
          (.ok (), ⟨⟨order, time⟩, some c', r, w'⟩) := by
  rw [charge_apply, hprice]
  by_cases hcovers : c.getCredit ≥ price
  · rcases pay_run inp hprice hc ⟨order, time⟩ r w with
      ⟨c', w', hcharged, hsay, hrun⟩
    refine ⟨c', w', _, _, .paid price hprice hcovers hcharged, hsay,
      rows_paySays _ _ _ _ _ _, ?_, ?_⟩
    · exact iff_of_false (refusal_not_mem_paySays _ _ _ _ _ _)
        (not_lt_of_ge hcovers)
    · simp only [if_pos hcovers, hrun]
  · have hshort : c.getCredit < price := lt_of_not_ge hcovers
    let w₁ : World β :=
      (w.addLog [.info "Pas assez d'argent sur la carte !"]).command
        "PAS ASSEZ D'ARGENT" 3 1
    refine ⟨c, w₁, [], [.info "Pas assez d'argent sur la carte !"],
      .unpaid ?_ rfl rfl, ⟨_, rfl, rfl⟩, rfl, ?_, ?_⟩
    · intro other hother
      rw [hprice] at hother
      cases hother
      exact hshort
    · exact iff_of_true (List.mem_singleton_self _) hshort
    · simp only [if_neg hcovers, refuse_apply]
      rfl

theorem charge_pays (cfg : Config) (hash : HashOrder) (inp : Input β)
    {c : Card β} (hc : c.Classic) (order : Order) (time : Int) (r : Bool)
    (w : World β) :
    exists (result : Except Exn Unit) (c' : Card β) (w' : World β)
        (sent : List Row),
      (result = .ok () ∨ result = .error .exception) ∧
        Pays cfg hash inp order c w.mem c' w'.mem sent ∧
        rows w'.log = rows w.log ++ rowsOf c sent ∧
        charge cfg hash inp ⟨⟨order, time⟩, some c, r, w⟩ =
          (result, ⟨⟨order, time⟩, some c', r, w'⟩) := by
  cases hprice : getPrice β cfg hash order with
  | error e =>
      have he := addPrices_error hprice
      refine ⟨.error e, c, w, [], Or.inr (he ▸ rfl), .unpaid ?_ rfl rfl,
        by simp [rowsOf], ?_⟩
      · intro price hok
        rw [hprice] at hok
        cases hok
      · rw [charge_apply, hprice]
  | ok price =>
      rcases charge_run inp hprice hc time r w with
        ⟨c', w', sent, said, hpays, hsay, hrows, _, hrun⟩
      exact ⟨.ok (), c', w', sent, Or.inl rfl, hpays,
        hrows ▸ hsay.rows, hrun⟩

theorem settle_settles (cfg : Config) (hash : HashOrder) (inp : Input β)
    {c : Card β} (hc : c.Classic) (l : Locals) (r : Bool) (w : World β) :
    exists (result : Except Exn Unit) (l' : Locals) (c' : Card β)
        (w' : World β) (sent : List Row),
      (result = .ok () ∨ result = .error .exception) ∧
        Settles cfg hash inp l.conso c w.mem c' w'.mem sent ∧
        rows w'.log = rows w.log ++ rowsOf c sent ∧
        settle cfg hash inp ⟨l, some c, r, w⟩ =
          (result, ⟨l', some c', r, w'⟩) := by
  by_cases happlies : TicketApplies c l.conso
  · have hticket := useTicket_run cfg inp hc happlies r w
    cases hconso : cfg.getConso c.getTicket.toNat with
    | error e =>
        rw [hconso] at hticket
        have he := Config.getConso_error hconso
        refine ⟨.error e, l, c, w, [], Or.inr (he ▸ rfl),
          .unknown happlies ?_ rfl rfl, by simp [rowsOf],
          settle_of_error hticket⟩
        intro conso hok
        rw [hconso] at hok
        cases hok
    | ok conso =>
        rw [hconso] at hticket
        rcases hticket with ⟨c₂, w₂, hframe, hblocks, hflushed, hsay, hrun⟩
        rcases charge_pays cfg hash inp (hc.of_sameFrame hframe)
            (decrement l.conso c.getTicket.toNat) l.time r w₂ with
          ⟨result, c', w', sent, hresult, hpays, hsent, hcharge⟩
        have hsettle := (settle_of_useTicket hrun).trans hcharge
        refine ⟨result, _, c', w', ticketRow cfg conso :: sent, hresult,
          .ticket happlies conso hconso c₂ w₂.mem hframe hblocks hflushed
            hpays, ?_, hsettle⟩
        rw [hsent, hsay.rows, rows_ticketSays, rowsOf_congr hframe,
          List.append_assoc, rowsOf_cons c _ sent]
  · rcases charge_pays cfg hash inp hc l.conso l.time r w with
      ⟨result, c', w', sent, hresult, hpays, hsent, hcharge⟩
    exact ⟨result, l, c', w', sent, hresult, .plain happlies hpays, hsent,
      (settle_of_useTicket (useTicket_skip happlies r w)).trans hcharge⟩

def leftOf (c : Card β) (order : Order) : Order :=
  if TicketApplies c order then decrement order c.getTicket.toNat else order

theorem settle_run {cfg : Config} {hash : HashOrder} (inp : Input β)
    {c : Card β} (hc : c.Classic) {l : Locals} {price : Rat}
    (hticket : TicketApplies c l.conso ->
      exists conso, cfg.getConso c.getTicket.toNat = .ok conso)
    (hprice : getPrice β cfg hash (leftOf c l.conso) = .ok price) (r : Bool)
    (w : World β) :
    exists (c' : Card β) (w' : World β) (sent : List Row)
        (said : List (Event β)),
      Settles cfg hash inp l.conso c w.mem c' w'.mem sent ∧
        w.Says w' said ∧ rows said = rowsOf c sent ∧
        (.info "Pas assez d'argent sur la carte !" ∈ said <->
          c.getCredit < price) ∧
        settle cfg hash inp ⟨l, some c, r, w⟩ =
          (.ok (), ⟨⟨leftOf c l.conso, l.time⟩, some c', r, w'⟩) := by
  unfold leftOf at hprice ⊢
  by_cases happlies : TicketApplies c l.conso
  · rw [if_pos happlies] at hprice ⊢
    rcases hticket happlies with ⟨conso, hconso⟩
    have hused := useTicket_run cfg inp hc happlies r w
    rw [hconso] at hused
    rcases hused with ⟨c₂, w₂, hframe, hblocks, hflushed, hfirst, hrun⟩
    rcases charge_run inp hprice (hc.of_sameFrame hframe) l.time r w₂ with
      ⟨c', w', sent, said, hpays, hsay, hrows, hrefusal, hcharge⟩
    refine ⟨c', w', ticketRow cfg conso :: sent, _,
      .ticket happlies conso hconso c₂ w₂.mem hframe hblocks hflushed hpays,
      hfirst.trans hsay, ?_, ?_, (settle_of_useTicket hrun).trans hcharge⟩
    · rw [rows_append, rows_ticketSays, hrows, rowsOf_congr hframe,
        rowsOf_cons c _ sent]
    · rw [List.mem_append, hrefusal, ticketTaken_getCredit hblocks]
      exact or_iff_right (refusal_not_mem_ticketSays _ _ _ _)
  · rw [if_neg happlies] at hprice ⊢
    rcases charge_run inp hprice hc l.time r w with
      ⟨c', w', sent, said, hpays, hsay, hrows, hrefusal, hcharge⟩
    exact ⟨c', w', sent, said, .plain happlies hpays, hsay, hrows, hrefusal,
      (settle_of_useTicket (useTicket_skip happlies r w)).trans hcharge⟩

/-!
## The branches
-/

omit [FloatCell β] in
theorem still_setConso (loud : List String) (order : Order) :
    Prog.Moves (Loop.Still loud : Loop Locals β -> Loop Locals β -> Prop)
      (setConso order) :=
  Loop.still_modify (fun _ => rfl) (fun _ => rfl)

omit [FloatCell β] in
theorem still_setTime (loud : List String) (time : Int) :
    Prog.Moves (Loop.Still loud : Loop Locals β -> Loop Locals β -> Prop)
      (setTime time) :=
  Loop.still_modify (fun _ => rfl) (fun _ => rfl)

omit [FloatCell β] in
theorem still_afterOrder {loud : List String}
    (h : "Posez une carte CONSO." ∉ loud) (inp : Input β) :
    Prog.Moves (Loop.Still loud)
      (do
        setConso ∅
        setTime inp.clock
        Loop.onWorld (printInfo "Posez une carte CONSO.")
        Loop.onWorld (setCommand "POSEZ CARTE CONSO" 0 0)
        pure .next : LoopM Locals β Exit) := by
  apply Prog.moves_then (still_setConso loud ∅)
  apply Prog.moves_then (still_setTime loud inp.clock)
  apply Prog.moves_then (Loop.still_printInfo h)
  apply Prog.moves_then (Loop.still_setCommand _ _ _)
  exact Prog.moves_pure _

omit [FloatCell β] in
theorem still_answerSOS (cfg : Config) :
    Prog.Moves (Loop.Still []) (answerSOS cfg : LoopM Locals β Exit) := by
  apply Prog.moves_then (Loop.still_sendSOS cfg)
  apply Prog.moves_then (Loop.still_printInfo (by simp))
  exact Prog.moves_pure _

theorem still_showCredit (c : Card β) :
    Prog.Moves (Loop.Still []) (showCredit c) := by
  apply Prog.moves_then (Loop.still_printInfo (by simp))
  apply Prog.moves_then (Loop.still_setCommand _ _ _)
  apply Prog.moves_then (Loop.still_setCommand _ _ _)
  exact Prog.moves_pure _

omit [FloatCell β] in
/-- The order is printed up to the first conso that is not configured. -/
theorem printEntries_log (cfg : Config)
    (entries : List (Sigma fun _ : Nat => Nat)) (w : World β) :
    (printEntries cfg entries w).2.mem = w.mem ∧
      exists messages : List String,
        (printEntries cfg entries w).2.log =
          w.log ++ messages.map Event.info := by
  induction entries generalizing w with
  | nil => exact ⟨rfl, [], by simp [printEntries]⟩
  | cons i rest ih =>
      cases hconso : cfg.getConso i.1 with
      | error e =>
          have hrun : printEntries cfg (i :: rest) w = (.error e, w) := by
            rw [printEntries, Prog.bind_apply, Prog.ofExcept_apply, hconso]
          rw [hrun]
          exact ⟨rfl, [], by simp⟩
      | ok conso =>
          let message := conso.1 ++ " x" ++ toString i.2
          have hrun : printEntries cfg (i :: rest) w =
              printEntries cfg rest (w.addLog [.info message]) := by
            rw [printEntries, Prog.bind_apply, Prog.ofExcept_apply, hconso]
            rfl
          rcases ih (w.addLog [.info message]) with ⟨hmem, messages, hlog⟩
          rw [hrun]
          exact ⟨hmem, message :: messages, by simp [hlog]⟩

theorem still_addConso (cfg : Config) (hash : HashOrder) (inp : Input β)
    (c : Card β) (order : Order) :
    Prog.Moves (Loop.Still []) (addConso cfg hash inp c order) := by
  apply Prog.moves_then (still_setConso [] _)
  apply Prog.moves_bind
  · intro s
    rcases printEntries_log cfg
        (hash.entries (increment order c.getConso.toNat))
        (s.world.addLog [.info "Commande : "]) with ⟨hmem, messages, hlog⟩
    refine ⟨rfl, hmem, .info "Commande : " :: messages.map Event.info,
      ?_, ?_⟩
    · exact hlog.trans (by simp)
    · simp [Event.isStill]
  intro _
  apply Prog.moves_then (still_setTime [] inp.clock)
  apply Prog.moves_then (Loop.still_printInfo (by simp))
  apply Prog.moves_then (Loop.still_setCommand _ _ _)
  exact Prog.moves_pure _

omit [FloatCell β] in
theorem still_refuseOther :
    Prog.Moves (Loop.Still []) (refuseOther : LoopM Locals β Exit) := by
  apply Prog.moves_then (Loop.still_emit rfl)
  apply Prog.moves_then (Loop.still_setCommand _ _ _)
  apply Prog.moves_then (Loop.still_printInfo (by simp))
  apply Prog.moves_then (Loop.still_setCommand _ _ _)
  exact Prog.moves_pure _

/-!
## The round
-/

theorem dispatch_apply (cfg : Config) (hash : HashOrder) (inp : Input β)
    (l : Locals) {c : Card β} (hadmin : ¬ c.testCard "ADMIN") (r : Bool)
    (w : World β) :
    dispatch cfg hash inp ⟨l, some c, r, w⟩ =
      (if c.isSOS then answerSOS cfg
        else if c.isDebit ∧ isEmpty l.conso = true then showCredit c
        else if c.isDebit ∧ isEmpty l.conso = false then
          serveOrder cfg hash inp
        else if c.isConso then addConso cfg hash inp c l.conso
        else refuseOther) ⟨l, some c, r, w⟩ :=
  Loop.isAdmin_pass _ hadmin l r w

theorem serves_order {cfg : Config} {hash : HashOrder} {inp : Input β}
    {c : Card β} (hc : c.Classic) (hdebit : c.isDebit) {l : Locals}
    (hordered : isEmpty l.conso = false) {r : Bool} {w : World β}
    {s' : Loop Locals β}
    (h : Loop.guarded (serveOrder cfg hash inp) ⟨l, some c, r, w⟩ =
      (.ok .next, s')) :
    Serves cfg hash inp l.conso c ⟨l, some c, r, w⟩ s' := by
  rcases settle_settles cfg hash inp hc l r w with
    ⟨result, l', c', w', sent, hresult, hsettles, hsent, hrun⟩
  have hrest : Loop.Still [] ⟨l', some c', r, w'⟩ s' := by
    cases hresult with
    | inl hok =>
        subst hok
        exact Loop.still_of_guarded (Prog.bind_of_ok _ hrun)
          (still_afterOrder (by simp) inp) h
    | inr herror =>
        subst herror
        have hserve : serveOrder cfg hash inp ⟨l, some c, r, w⟩ =
            (.error .exception, ⟨l', some c', r, w'⟩) :=
          Prog.bind_of_error _ hrun
        rw [Loop.guarded_of_exception hserve] at h
        cases h
        exact refl _
  refine .settle hdebit hordered c' hrest.card sent ?_ ?_
  · rw [hrest.mem]
    exact hsettles
  · rw [hrest.rows]
    exact hsent

theorem dispatch_serves {cfg : Config} {hash : HashOrder} {inp : Input β}
    {c : Card β} (hc : c.Classic) {l : Locals} {r : Bool} {w : World β}
    {s' : Loop Locals β}
    (h : Loop.guarded (dispatch cfg hash inp) ⟨l, some c, r, w⟩ =
      (.ok .next, s')) :
    Serves cfg hash inp l.conso c ⟨l, some c, r, w⟩ s' := by
  have hadmin : ¬ c.testCard "ADMIN" := Loop.not_admin_of_next h
  have happly := dispatch_apply cfg hash inp l hadmin r w
  by_cases horder : c.isDebit ∧ isEmpty l.conso = false
  · have hempty : ¬ (c.isDebit ∧ isEmpty l.conso = true) := by
      simp [horder.right]
    rw [if_neg horder.left.not_others.right.left, if_neg hempty,
      if_pos horder] at happly
    rw [Loop.guarded_congr happly] at h
    exact serves_order hc horder.left horder.right h
  · rw [if_neg horder] at happly
    refine .still horder (Loop.still_of_guarded happly ?_ h)
    exact Prog.moves_ite (still_answerSOS cfg)
      (Prog.moves_ite (still_showCredit c)
        (Prog.moves_ite (still_addConso cfg hash inp c l.conso)
          still_refuseOther))

/-!
## The keyboard
-/

theorem eq_empty_of_isEmpty {order : Order} (h : isEmpty order = true) :
    order = ∅ :=
  AList.ext (List.isEmpty_iff.mp h)

omit [FloatCell β] in
theorem idle_cancelByKey (inp : Input β) (s : Loop Locals β) :
    Loop.Idle words (cancelByKey inp) s := by
  apply Loop.idle_getLocals
  apply Loop.idle_ite
  · apply Loop.idle_bind (Loop.idle_modify rfl rfl)
    apply Loop.idle_bind (Loop.idle_setCommand _ _ _ _ _)
    apply Loop.idle_bind (Loop.idle_setCommand _ _ _ _ _)
    apply Loop.idle_bind (Loop.idle_printInfo (by decide) _)
    apply Loop.idle_bind (Loop.idle_printInfo (by decide) _)
    exact Loop.idle_modify rfl rfl
  · exact Loop.idle_pure words s

omit [FloatCell β] in
theorem idle_cancelByTime (inp : Input β) (s : Loop Locals β) :
    Loop.Idle words (cancelByTime inp) s := by
  apply Loop.idle_getLocals
  apply Loop.idle_ite
  · apply Loop.idle_bind (Loop.idle_modify rfl rfl)
    apply Loop.idle_bind (Loop.idle_setCommand _ _ _ _ _)
    apply Loop.idle_bind (Loop.idle_setCommand _ _ _ _ _)
    exact Loop.idle_modify rfl rfl
  · exact Loop.idle_pure words s

def afterKeys (inp : Input β) (s : Loop Locals β) : Loop Locals β :=
  (cancelByTime inp (cancelByKey inp
    (Loop.onWorld (print inp.screenClock inp.shownClock) s).2).2).2

def cleared (inp : Input β) (l : Locals) : Locals :=
  if isEmpty l.conso = false then ⟨∅, inp.clock⟩ else l

omit [FloatCell β] in
theorem cleared_conso (inp : Input β) (l : Locals) :
    (cleared inp l).conso = ∅ := by
  unfold cleared
  cases hempty : isEmpty l.conso with
  | true => exact eq_empty_of_isEmpty hempty
  | false => rfl

omit [FloatCell β] in
@[simp] theorem cleared_cleared (inp : Input β) (l : Locals) :
    cleared inp (cleared inp l) = cleared inp l := by
  have hempty : isEmpty (cleared inp l).conso = true := by
    rw [cleared_conso]
    rfl
  rw [cleared, hempty]
  rfl

omit [FloatCell β] in
theorem cancelByKey_locals (inp : Input β) (s : Loop Locals β) :
    (cancelByKey inp s).2.locals =
      if inp.key = 45 then cleared inp s.locals else s.locals := by
  have happly : cancelByKey inp s =
      (if inp.key = 45 ∧ isEmpty s.locals.conso = false then do
        setConso ∅
        Loop.onWorld (setCommand "COMMANDE ANNULEE" 1 1)
        Loop.onWorld (setCommand "POSEZ CARTE CONSO" 0 0)
        Loop.onWorld (printInfo "Commande annulée.")
        Loop.onWorld (printInfo "Posez une carte CONSO.")
        setTime inp.clock
      else pure () : LoopM Locals β Unit) s := rfl
  rw [happly, cleared]
  by_cases hkey : inp.key = 45
  · cases hempty : isEmpty s.locals.conso with
    | true => simp [hkey]
    | false =>
        simp only [hkey, true_and, if_true]
        rfl
  · simp [hkey]

omit [FloatCell β] in
theorem cancelByTime_locals (inp : Input β) (s : Loop Locals β) :
    (cancelByTime inp s).2.locals =
      if inp.clock - s.locals.time ≥ 10 then cleared inp s.locals
      else s.locals := by
  have happly : cancelByTime inp s =
      (if isEmpty s.locals.conso = false ∧ inp.clock - s.locals.time ≥ 10 then do
        setConso ∅
        Loop.onWorld (setCommand "COMMANDE ANNULEE" 1 1)
        Loop.onWorld (setCommand "POSEZ CARTE CONSO" 0 0)
        setTime inp.clock
      else pure () : LoopM Locals β Unit) s := rfl
  rw [happly, cleared]
  by_cases htime : inp.clock - s.locals.time ≥ 10
  · cases hempty : isEmpty s.locals.conso with
    | true => simp
    | false =>
        simp only [htime, and_true, if_true]
        rfl
  · simp [htime]

omit [FloatCell β] in
theorem dropOrder_locals (inp : Input β) (s : Loop Locals β) :
    (dropOrder inp s).2.locals = cleared inp s.locals := by
  have happly : dropOrder inp s =
      (if isEmpty s.locals.conso = false then do
        Loop.onWorld (printInfo "Commande annulée.")
        Loop.onWorld (setCommand "COMMANDE ANNULEE" 1 1)
        setConso ∅
        setTime inp.clock
      else pure () : LoopM Locals β Unit) s := rfl
  rw [happly, cleared]
  cases hempty : isEmpty s.locals.conso with
  | true => rfl
  | false => rfl

omit [FloatCell β] in
theorem waits_print (timer : Int) (shown : Fin 4 -> Int)
    (s : Loop Locals β) :
    Loop.Waits words s (Loop.onWorld (print timer shown) s).2 := by
  rcases showsOnly_print timer shown s.world with ⟨hmem, events, hscreen, hlog⟩
  exact ⟨hmem, events, fun e he => Or.inr (Or.inr (Or.inr (hscreen e he))),
    hlog⟩

omit [FloatCell β] in
theorem waits_afterKeys (inp : Input β) (s : Loop Locals β) :
    Loop.Waits words s (afterKeys inp s) :=
  ((waits_print inp.screenClock inp.shownClock s).trans
    (idle_cancelByKey inp _).waits).trans (idle_cancelByTime inp _).waits

omit [FloatCell β] in
theorem afterKeys_card (inp : Input β) (s : Loop Locals β) :
    (afterKeys inp s).card = s.card := by
  rw [afterKeys, (idle_cancelByTime inp _).card, (idle_cancelByKey inp _).card]
  rfl

omit [FloatCell β] in
theorem afterKeys_locals (inp : Input β) (s : Loop Locals β) :
    (afterKeys inp s).locals =
      if inp.key = 45 ∨ inp.clock - s.locals.time ≥ 10 then
        cleared inp s.locals
      else s.locals := by
  have hprint :
      (Loop.onWorld (print inp.screenClock inp.shownClock) s).2.locals =
        s.locals := rfl
  rw [afterKeys, cancelByTime_locals, cancelByKey_locals, hprint]
  by_cases hkey : inp.key = 45
  · simp [hkey]
  · simp only [hkey, if_false, false_or]

theorem body_apply (cfg : Config) (inp : Input β)
    (dispatch : LoopM Locals β Exit) (s : Loop Locals β) :
    (do
      cancelByKey inp
      cancelByTime inp
      Loop.visit (phases cfg inp) inp dispatch :
      LoopM Locals β Exit)
        (Loop.onWorld (print inp.screenClock inp.shownClock) s).2 =
        Loop.visit (phases cfg inp) inp dispatch (afterKeys inp s) := by
  rw [Prog.bind_of_ok _ (idle_cancelByKey inp _).apply,
    Prog.bind_of_ok _ (idle_cancelByTime inp _).apply]
  rfl

theorem gone_locals (cfg : Config) (inp : Input β) (l : Locals) (c : Card β)
    (r : Bool) (w : World β) :
    ((phases cfg inp).gone ⟨l, some c, r, w⟩).2.locals =
      if c.isConso then l else cleared inp l := by
  have happly : (phases cfg inp).gone ⟨l, some c, r, w⟩ =
      (if c.isConso then pure () else dropOrder inp) ⟨l, some c, r, w⟩ := rfl
  rw [happly]
  split
  · rfl
  · exact dropOrder_locals _ _

theorem arrivalLocals_eq (cfg : Config) (inp : Input β) (s : Loop Locals β) :
    Loop.arrivalLocals (phases cfg inp) inp (afterKeys inp s) =
      if inp.key = 45 ∨ inp.clock - s.locals.time ≥ 10 ∨ givesUp s = true then
        cleared inp s.locals
      else s.locals := by
  unfold givesUp
  rcases hkeys : afterKeys inp s with ⟨l, card, r, w⟩
  have hcard := afterKeys_card inp s
  have hlocals := afterKeys_locals inp s
  rw [hkeys] at hcard hlocals
  rw [← hcard]
  cases card with
  | none =>
      simp only [Option.any_none, Bool.false_eq_true, or_false]
      exact hlocals
  | some c =>
      have hgone := gone_locals cfg inp l c r
        (w.addLog [.select c.uid inp.present])
      have harrival : Loop.arrivalLocals (phases cfg inp) inp
          ⟨l, some c, r, w⟩ = if c.isConso then l else cleared inp l := hgone
      simp only at hlocals
      rw [harrival, hlocals]
      by_cases hc : c.isConso
      · simp [hc]
      · simp only [hc, if_false, Option.any_some, decide_false, Bool.not_false,
          or_true, if_true]
        split
        · exact cleared_cleared _ _
        · rfl

theorem arrivalLocals_conso (cfg : Config) (inp : Input β)
    (s : Loop Locals β) :
    (Loop.arrivalLocals (phases cfg inp) inp (afterKeys inp s)).conso =
      orderAt inp s := by
  rw [arrivalLocals_eq, orderAt]
  split
  · exact cleared_conso _ _
  · rfl

theorem step_dispatches {cfg : Config} (hash : HashOrder) {inp : Input β}
    {s : Loop Locals β} {target : Target}
    (h : Loop.arrival (cfg.getKeys false) inp s.card = some target) :
    exists (l : Locals) (c : Card β) (r : Bool) (w : World β),
      Loop.Sees words
          ((Card.fresh target (cfg.getKeys false) : Card β).readEvents
            inp.reading (s.world.mem target.uid) 4 4) s ⟨l, some c, r, w⟩ ∧
        l.conso = orderAt inp s ∧
        Loop.Presented inp (cfg.getKeys false) target
          (s.world.mem target.uid) c ∧
        step cfg (hash, inp) s =
          Loop.next (Loop.guarded (dispatch cfg hash inp)
            ⟨l, some c, r, w⟩) := by
  have hvisit := Loop.guarded_visit_run (phases_sound cfg inp) inp
    (dispatch cfg hash inp) (body_apply cfg inp _ s) (waits_afterKeys inp s)
    (afterKeys_card inp s)
  have hkeys : (phases cfg inp).keys = cfg.getKeys false := rfl
  rw [hkeys, h] at hvisit
  rcases hvisit with ⟨s₁, c, hsees, hlocals, hc, hpresented, hrun⟩
  have horder : s₁.locals.conso = orderAt inp s := by
    rw [hlocals, arrivalLocals_conso]
  rcases s₁ with ⟨l, card, r, w⟩
  cases hc
  exact ⟨l, c, r, w, hsees, horder, hpresented, congrArg Loop.next hrun⟩

theorem step_run {cfg : Config} {hash : HashOrder} {inp : Input β}
    {s s' : Loop Locals β} (h : step cfg (hash, inp) s = some s') :
    match Loop.arrival (cfg.getKeys false) inp s.card with
    | none =>
        s'.world.mem = s.world.mem ∧ rows s'.world.log = rows s.world.log
    | some target =>
        exists (s₁ : Loop Locals β) (c : Card β),
          s₁.card = some c ∧ s₁.world.mem = s.world.mem ∧
            rows s₁.world.log = rows s.world.log ∧
            Loop.Presented inp (cfg.getKeys false) target
              (s.world.mem target.uid) c ∧
            Serves cfg hash inp (orderAt inp s) c s₁ s' := by
  cases harrival : Loop.arrival (cfg.getKeys false) inp s.card with
  | none =>
      have hvisit := Loop.next_visit_run (phases_sound cfg inp) inp
        (dispatch cfg hash inp) (body_apply cfg inp _ s)
        (waits_afterKeys inp s) (afterKeys_card inp s) h
      have hkeys : (phases cfg inp).keys = cfg.getKeys false := rfl
      rw [hkeys, harrival] at hvisit
      rcases hvisit with ⟨reads, hwire, hsees, _⟩
      exact ⟨hsees.mem, hsees.rows hwire⟩
  | some target =>
      rcases step_dispatches hash harrival with
        ⟨l, c, r, w, hsees, horder, hpresented, hstep⟩
      rw [hstep] at h
      refine ⟨_, c, rfl, hsees.mem,
        hsees.rows (Card.onWire_readEvents _ _ _ _ _), hpresented, ?_⟩
      rw [← horder]
      exact dispatch_serves hpresented.classic (Loop.next_eq_some h)

end Bar

end BeeGadz
