import BeeGadz.Foundation.Counter
import BeeGadz.Serve.Bar

/-!
# The order in a round of Bar

What a round makes of the local variables follows from what the reader shows in
it: nothing, a tag that is lost, a CONSO card or a DEBIT card.
-/

namespace BeeGadz

open Foundation

namespace Bar

/-!
## Orders that are configured
-/

def Known (cfg : Config) (order : Order) : Prop :=
  forall k, k ∈ order -> k < cfg.getNbConso

theorem known_empty (cfg : Config) : Known cfg ∅ := by
  intro k hk
  exact absurd hk (AList.notMem_empty k)

theorem Known.increment {cfg : Config} {order : Order}
    (h : Known cfg order) {k : Nat} (hk : k < cfg.getNbConso) :
    Known cfg (increment order k) := by
  intro j hj
  rcases (AList.mem_insert _).mp hj with rfl | hj
  · exact hk
  · exact h j hj

theorem mem_of_mem_decrement {order : Order} {k j : Nat} (hk : k ∈ order)
    (h : j ∈ decrement order k) : j ∈ order := by
  have hinsert : j = k ∨ j ∈ order := by
    unfold decrement at h
    dsimp only at h
    split at h
    · exact (AList.mem_insert _).mp (AList.mem_erase.mp h).right
    · exact (AList.mem_insert _).mp h
  cases hinsert with
  | inl heq => exact heq ▸ hk
  | inr hj => exact hj

theorem Known.decrement {cfg : Config} {order : Order} (h : Known cfg order)
    {k : Nat} (hk : k ∈ order) : Known cfg (decrement order k) :=
  fun j hj => h j (mem_of_mem_decrement hk hj)

theorem Known.entries {cfg : Config} {order : Order} (h : Known cfg order)
    (hash : HashOrder) :
    forall i, i ∈ hash.entries order -> i.1 < cfg.getNbConso := by
  intro i hi
  have hmem := (hash.perm order).mem_iff.mp hi
  exact h i.1 (Counter.mem_entries (k := i.1) (n := i.2) hmem).left

theorem addPrices_ok_iff {β : Type} [FloatCell β] {cfg : Config}
    {entries : List (Sigma fun _ : Nat => Nat)} {start : Rat} :
    (exists price, addPrices β cfg start entries = .ok price) <->
      forall i, i ∈ entries -> i.1 < cfg.getNbConso := by
  induction entries generalizing start with
  | nil => simp [addPrices]
  | cons i rest ih =>
      rw [List.forall_mem_cons]
      by_cases hi : i.1 < cfg.getNbConso
      · rcases Config.getConso_ok hi with ⟨conso, hok, _⟩
        simp only [addPrices, hok, ih, hi, true_and]
      · have hnone : cfg.consos[i.1]? = none :=
          List.getElem?_eq_none (Nat.le_of_not_lt hi)
        have hthrows : cfg.getConso i.1 = .error .exception := by
          rw [Config.getConso, hnone]
        simp [addPrices, hthrows, hi]

/-- An order has a price exactly when it is configured. -/
theorem price_iff {β : Type} [FloatCell β] {cfg : Config} {hash : HashOrder}
    {order : Order} :
    (exists price, getPrice β cfg hash order = .ok price) <->
      Known cfg order := by
  rw [getPrice, addPrices_ok_iff]
  constructor
  · intro h k hk
    rcases Option.isSome_iff_exists.mp (AList.lookup_isSome.mpr hk) with
      ⟨n, hn⟩
    exact h ⟨k, n⟩ ((hash.perm order).mem_iff.mpr (AList.mem_lookup_iff.mp hn))
  · intro h
    exact h.entries hash

theorem printEntries_of_known {β : Type} {cfg : Config}
    {entries : List (Sigma fun _ : Nat => Nat)}
    (h : forall i, i ∈ entries -> i.1 < cfg.getNbConso) (w : World β) :
    (printEntries cfg entries w).1 = .ok () := by
  induction entries generalizing w with
  | nil => rfl
  | cons i rest ih =>
      rcases Config.getConso_ok (h i List.mem_cons_self) with ⟨conso, hok, _⟩
      have hlookup : Prog.ofExcept (cfg.getConso i.1) w =
          (.ok conso, w) := by
        rw [hok, Prog.ofExcept_apply]
      have hinfo : printInfo (conso.1 ++ " x" ++ toString i.2) w =
          (.ok (), w.addLog [.info (conso.1 ++ " x" ++ toString i.2)]) := rfl
      rw [printEntries, Prog.bind_of_ok _ hlookup, Prog.bind_of_ok _ hinfo]
      exact ih (fun j hj => h j (List.mem_cons_of_mem i hj)) _

/-!
## What is done with a card
-/

variable {β : Type} [FloatCell β]

/-- The unit is added before the order is printed, and stays also when that
throws. -/
theorem addConso_run (cfg : Config) (hash : HashOrder) (inp : Input β)
    (c : Card β) (order : Order) (s : Loop Locals β) :
    let order' := increment order c.getConso.toNat
    (addConso cfg hash inp c order s).2.locals.conso = order' ∧
      (Known cfg order' ->
        (addConso cfg hash inp c order s).1 = .ok .next ∧
          (addConso cfg hash inp c order s).2.locals.time = inp.clock) := by
  intro order'
  let s₁ : Loop Locals β :=
    { s with locals := { s.locals with conso := order' } }
  have hset : setConso order' s = (.ok (), s₁) := rfl
  rcases hprint : Loop.onWorld (printCommand cfg hash order') s₁ with
    ⟨result, s₂⟩
  have hlocals : s₂.locals = s₁.locals := by
    have hzoom := congrArg (fun r => r.2.locals) hprint
    exact hzoom.symm
  cases result with
  | ok a =>
      have hrun : (addConso cfg hash inp c order s).1 = .ok .next ∧
          (addConso cfg hash inp c order s).2.locals =
            { s₂.locals with time := inp.clock } := by
        rw [addConso, Prog.bind_of_ok _ hset, Prog.bind_of_ok _ hprint]
        exact ⟨rfl, rfl⟩
      rw [hrun.right, hlocals]
      exact ⟨rfl, fun _ => ⟨hrun.left, rfl⟩⟩
  | error e =>
      have hrun : addConso cfg hash inp c order s = (.error e, s₂) := by
        rw [addConso, Prog.bind_of_ok _ hset, Prog.bind_of_error _ hprint]
      refine ⟨by rw [hrun, hlocals], fun hknown => ?_⟩
      have hok : (Loop.onWorld (printCommand cfg hash order') s₁).1 =
          .ok () :=
        printEntries_of_known (hknown.entries hash)
          (s.world.addLog [.info "Commande : "])
      rw [hprint] at hok
      cases hok

theorem Known.left {cfg : Config} {order : Order} (h : Known cfg order)
    (c : Card β) : Known cfg (leftOf c order) := by
  unfold leftOf
  split
  · rename_i happlies
    exact h.decrement happlies.right
  · exact h

theorem Known.ticket {cfg : Config} {order : Order} (h : Known cfg order)
    {c : Card β} (happlies : TicketApplies c order) :
    exists conso, cfg.getConso c.getTicket.toNat = .ok conso := by
  rcases Config.getConso_ok (h _ happlies.right) with ⟨conso, hok, _⟩
  exact ⟨conso, hok⟩

theorem serveOrder_locals {cfg : Config} (hash : HashOrder) (inp : Input β)
    {c : Card β} (hc : c.Classic) {l : Locals} (hknown : Known cfg l.conso)
    (r : Bool) (w : World β) :
    (serveOrder cfg hash inp ⟨l, some c, r, w⟩).2.locals = ⟨∅, inp.clock⟩ := by
  have hpriced : exists price,
      getPrice β cfg hash (leftOf c l.conso) = .ok price :=
    price_iff.mpr (hknown.left c)
  rcases hpriced with ⟨price, hprice⟩
  rcases settle_run inp hc (fun happlies => hknown.ticket happlies) hprice r w
    with ⟨c', w', sent, said, _, _, _, _, hrun⟩
  rw [serveOrder, Prog.bind_of_ok _ hrun]
  rfl

inductive Shown where
  | nothing
  /-- a tag that was removed while it was read -/
  | lost
  | conso (id : Nat)
  | debit
deriving DecidableEq

def Shown.ofMemory {β : Type} [Cell β] (m : Memory β) : Shown :=
  if m.Says .debit then .debit
  else if m.Says .conso then .conso (m 5).first.toNat
  else .nothing

def Shown.Leaves (cfg : Config) (inp : Input β) (l l' : Locals) :
    Shown -> Prop
  | .nothing => l' = l
  | .lost => l' = cleared inp l
  | .conso id => l'.conso = increment l.conso id ∧
      (Known cfg l'.conso -> l'.time = inp.clock)
  | .debit => Known cfg l.conso -> l' = cleared inp l

theorem dispatch_leaves {cfg : Config} {hash : HashOrder} {inp : Input β}
    {target : Target} {m : Memory β} {c : Card β}
    (hpresented : Loop.Presented inp (cfg.getKeys false) target m c)
    {l : Locals} {r : Bool} {w : World β} {s' : Loop Locals β}
    (h : Loop.guarded (dispatch cfg hash inp) ⟨l, some c, r, w⟩ =
      (.ok .next, s')) :
    (Shown.ofMemory (Loop.seen inp (cfg.getKeys false) target m)).Leaves cfg
      inp l s'.locals := by
  have hadmin : ¬ c.testCard "ADMIN" := Loop.not_admin_of_next h
  have happly := dispatch_apply cfg hash inp l hadmin r w
  have hstate := Loop.guarded_state (dispatch cfg hash inp)
    ⟨l, some c, r, w⟩
  rw [h, happly] at hstate
  have hlocals := congrArg Loop.locals hstate
  unfold Shown.ofMemory
  by_cases hdebit : c.isDebit
  · rw [if_pos (hpresented.isDebit_iff.mp hdebit)]
    intro hknown
    rw [if_neg hdebit.not_others.right.left] at hlocals
    cases hempty : isEmpty l.conso with
    | true =>
        rw [if_pos ⟨hdebit, hempty⟩] at hlocals
        rw [hlocals, cleared, hempty]
        rfl
    | false =>
        rw [if_neg (by simp [hempty]), if_pos ⟨hdebit, hempty⟩,
          serveOrder_locals hash inp hpresented.classic hknown] at hlocals
        rw [hlocals, cleared, hempty]
        rfl
  · rw [if_neg (fun hsay => hdebit (hpresented.isDebit_iff.mpr hsay))]
    have hconso : c.isConso <->
        Memory.Says (Loop.seen inp (cfg.getKeys false) target m) .conso :=
      hpresented.says_iff .conso
    by_cases hc : c.isConso
    · have hsos : ¬ c.isSOS := by
        intro hsos
        cases (c.isSOS_iff.mp hsos).unique (c.isConso_iff.mp hc)
      have hid : c.getConso.toNat =
          (Loop.seen inp (cfg.getKeys false) target m 5).first.toNat := by
        rw [Card.getConso, if_pos hc, hpresented.seen 1 (by decide)]
        rfl
      rw [if_pos (hconso.mp hc)]
      rw [if_neg hsos, if_neg (fun hboth => hdebit hboth.left),
        if_neg (fun hboth => hdebit hboth.left), if_pos hc] at hlocals
      rcases addConso_run cfg hash inp c l.conso ⟨l, some c, r, w⟩ with
        ⟨horder, htime⟩
      rw [hid] at horder htime
      rw [hlocals]
      refine ⟨horder, fun hknown => (htime ?_).right⟩
      rwa [horder] at hknown
    · rw [if_neg (fun hsay => hc (hconso.mpr hsay))]
      by_cases hsos : c.isSOS
      · rw [if_pos hsos] at hlocals
        exact hlocals
      · rw [if_neg hsos, if_neg (fun hboth => hdebit hboth.left),
          if_neg (fun hboth => hdebit hboth.left), if_neg hc] at hlocals
        exact hlocals

/-!
## The round
-/

/-- What the reader shows in a round that starts from `s`. -/
def shown (cfg : Config) (inp : Input β) (s : Loop Locals β) : Shown :=
  match Loop.scanned inp s.card with
  | none => .nothing
  | some target =>
      if (Card.fresh target (cfg.getKeys false) : Card β).readLost
        inp.reading 4 4 then .lost
      else .ofMemory (Loop.seen inp (cfg.getKeys false) target
        (s.world.mem target.uid))

/-- The held card, which is not a CONSO card, was removed. -/
def Removed (inp : Input β) (s : Loop Locals β) : Prop :=
  inp.present = false ∧ givesUp s = true

def GivenUp (inp : Input β) (s : Loop Locals β) : Prop :=
  inp.key = 45 ∨ inp.clock - s.locals.time ≥ 10 ∨ Removed inp s

instance (inp : Input β) (s : Loop Locals β) : Decidable (Removed inp s) :=
  inferInstanceAs (Decidable (_ ∧ _))

instance (inp : Input β) (s : Loop Locals β) : Decidable (GivenUp inp s) :=
  inferInstanceAs (Decidable (_ ∨ _ ∨ _))

def lookedLocals (inp : Input β) (s : Loop Locals β) : Locals :=
  if GivenUp inp s then cleared inp s.locals else s.locals

theorem polledLocals_eq (cfg : Config) (inp : Input β) (s : Loop Locals β) :
    Loop.polledLocals (phases cfg inp) inp (afterKeys inp s) =
      lookedLocals inp s := by
  unfold Loop.polledLocals lookedLocals
  rw [afterKeys_card]
  by_cases hthere : s.card.isSome = true ∧ inp.present = true
  · rw [if_pos hthere, afterKeys_locals]
    apply if_congr _ rfl rfl
    simp [GivenUp, Removed, hthere.right]
  · rw [if_neg hthere, arrivalLocals_eq]
    apply if_congr _ rfl rfl
    have hgives : givesUp s = true -> inp.present = false := by
      intro hgives
      cases hcard : s.card with
      | none => simp [givesUp, hcard] at hgives
      | some c => simpa [hcard] using hthere
    have hsame : givesUp s = true <-> Removed inp s :=
      ⟨fun h => ⟨hgives h, h⟩, fun h => h.right⟩
    rw [GivenUp, hsame]

theorem step_leaves {cfg : Config} {hash : HashOrder} {inp : Input β}
    {s s' : Loop Locals β} (h : step cfg (hash, inp) s = some s') :
    (shown cfg inp s).Leaves cfg inp (lookedLocals inp s) s'.locals := by
  have hvisit := Loop.next_visit_run (phases_sound cfg inp) inp
    (dispatch cfg hash inp) (body_apply cfg inp _ s) (waits_afterKeys inp s)
    (afterKeys_card inp s) h
  have hkeys : (phases cfg inp).keys = cfg.getKeys false := rfl
  have hpolled := polledLocals_eq cfg inp s
  rw [hkeys, Loop.arrival] at hvisit
  unfold shown
  cases hscanned : Loop.scanned inp s.card with
  | none =>
      rw [hscanned] at hvisit
      rcases hvisit with ⟨_, _, _, hpassed⟩
      rw [Loop.PassedLocals, afterKeys_card, hscanned] at hpassed
      exact hpassed.trans hpolled
  | some target =>
      rw [hscanned] at hvisit
      dsimp only
      by_cases hlost : (Card.fresh target (cfg.getKeys false) :
          Card β).readLost inp.reading 4 4 = true
      · simp only [Option.filter, hlost, Bool.not_true, Bool.false_eq_true,
          if_false] at hvisit
        rcases hvisit with ⟨_, _, _, hpassed⟩
        rw [Loop.PassedLocals, afterKeys_card, hscanned] at hpassed
        rcases hpassed with ⟨t, ht, hlocals⟩
        have hdrop : ((phases cfg inp).lost t).2.locals =
            cleared inp t.locals := by
          have hdrop := Prog.bind_of_ok
            (fun _ => do
              Loop.onWorld (printInfo "Posez une carte CONSO.")
              Loop.onWorld (setCommand "POSEZ CARTE CONSO" 0 0))
            (idle_dropOrder inp t).apply
          have hlocals := congrArg (fun result => result.2.locals) hdrop
          exact hlocals.trans (dropOrder_locals inp t)
        rw [if_pos hlost, hlocals, hdrop, ht, hpolled]
        rfl
      · have hkept : (Card.fresh target (cfg.getKeys false) :
            Card β).readLost inp.reading 4 4 = false := by
          simpa using hlost
        simp only [Option.filter, hkept, Bool.not_false, if_true] at hvisit
        rcases hvisit with ⟨s₁, c, _, hlocals, hc, hpresented, hrun⟩
        have hscan : Loop.scanned inp (afterKeys inp s).card = some target := by
          rw [afterKeys_card, hscanned]
        rw [if_neg hlost]
        rw [← Loop.polledLocals_of_scanned hscan, hpolled] at hlocals
        rcases s₁ with ⟨l, card, r, w⟩
        cases hc
        have hleaves := dispatch_leaves hpresented hrun
        rwa [show l = lookedLocals inp s from hlocals] at hleaves

theorem conso_of_shown {cfg : Config} {inp : Input β} {s : Loop Locals β}
    {id : Nat} (h : shown cfg inp s = .conso id) :
    exists target, Loop.arrival (cfg.getKeys false) inp s.card = some target ∧
      Memory.Says (Loop.seen inp (cfg.getKeys false) target
        (s.world.mem target.uid)) .conso ∧
      (Loop.seen inp (cfg.getKeys false) target
        (s.world.mem target.uid) 5).first.toNat = id := by
  unfold shown at h
  cases hscanned : Loop.scanned inp s.card with
  | none =>
      rw [hscanned] at h
      cases h
  | some target =>
      rw [hscanned] at h
      dsimp only at h
      split at h
      · cases h
      · rename_i hlost
        unfold Shown.ofMemory at h
        split at h
        · cases h
        · split at h
          · rename_i hsays
            cases h
            refine ⟨target, ?_, hsays, rfl⟩
            rw [Loop.arrival, hscanned]
            simpa using hlost
          · cases h

theorem conso_goes_on {cfg : Config} (hash : HashOrder) {inp : Input β}
    {s : Loop Locals β} {id : Nat} (h : shown cfg inp s = .conso id)
    (hknown : Known cfg (increment (orderAt inp s) id)) :
    exists s', step cfg (hash, inp) s = some s' ∧
      s'.world.mem = s.world.mem ∧ givesUp s' = false := by
  rcases conso_of_shown h with ⟨target, harrival, hsays, hid⟩
  rcases step_dispatches hash harrival with
    ⟨l, c, r, w, hsees, horder, hpresented, hstep⟩
  have hconso : c.isConso := (hpresented.says_iff .conso).mpr hsays
  have hothers : forall {role : Role}, role ≠ .conso ->
      ¬ (c.block 1 0).data.Says role := by
    intro role hrole hother
    exact hrole (hother.unique (c.isConso_iff.mp hconso))
  have hadmin : ¬ c.testCard "ADMIN" := fun hadmin =>
    hothers (by decide) (c.testCard_admin_iff.mp hadmin)
  have hsos : ¬ c.isSOS := fun hsos =>
    hothers (by decide) (c.isSOS_iff.mp hsos)
  have hdebit : ¬ c.isDebit := fun hdebit =>
    hothers (by decide) (c.isDebit_iff.mp hdebit)
  have happly := dispatch_apply cfg hash inp l hadmin r w
  rw [if_neg hsos, if_neg (fun hboth => hdebit hboth.left),
    if_neg (fun hboth => hdebit hboth.left), if_pos hconso, horder] at happly
  have hcard : c.getConso.toNat = id := by
    rw [← hid, Card.getConso, if_pos hconso, hpresented.seen 1 (by decide)]
    rfl
  rcases addConso_run cfg hash inp c (orderAt inp s) ⟨l, some c, r, w⟩ with
    ⟨_, hok⟩
  rw [hcard] at hok
  have hstill := still_addConso cfg hash inp c (orderAt inp s)
    ⟨l, some c, r, w⟩
  rcases hend : addConso cfg hash inp c (orderAt inp s) ⟨l, some c, r, w⟩ with
    ⟨result, s'⟩
  rw [hend] at happly hok hstill
  have hresult : result = .ok .next := (hok hknown).left
  subst hresult
  refine ⟨s', ?_, hstill.mem.trans hsees.mem, ?_⟩
  · rw [hstep, Loop.guarded_of_ok happly]
    rfl
  · rw [givesUp, hstill.card]
    simpa using hconso

end Bar

end BeeGadz
