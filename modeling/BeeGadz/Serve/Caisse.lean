import BeeGadz.Round
import BeeGadz.Settlement
import BeeGadz.Stored

/-!
# What a round of Caisse does

A round makes a DEBIT card of a card without a role, adds an amount to a credit,
or keeps still.
-/

namespace BeeGadz

open Foundation

namespace Caisse

variable {β : Type} [FloatCell β]

def creation : String :=
  "Création de la carte en cours"

def Roleless (c : Card β) : Prop :=
  ¬ c.testCard "ADMIN" ∧ ¬ c.isSOS ∧ ¬ c.isConso ∧ ¬ c.isDebit

def topUpRow (cfg : Config) (amount : Rat) : Row where
  kind := .topUp
  pianss := cfg.pianss
  command := "DEBIT"
  price := amount

inductive Serves (cfg : Config) (inp : Input β) (c : Card β)
    (s s' : Loop Unit β) : Prop
  | create (roleless : Roleless c) (c' : Card β) (card : s'.card = some c')
      (blocks : Card.SameBlocks c.debitRecord c')
      (flushed : Card.Flushed c.debitRecord inp.writing s.world.mem
        s'.world.mem 4 8)
      (speaks : s.world.Says s'.world
        (.info creation :: c.debitRecord.writeSays inp.writing))
  | deposit (debit : c.isDebit) (fits : ¬ inp.amount > 250) (c' : Card β)
      (card : s'.card = some c')
      (stays : inp.amount = 0 ->
        Card.SameBlocks c c' ∧ s'.world.mem = s.world.mem)
      (adds : inp.amount ≠ 0 ->
        Card.SameBlocks (c.toppedUp inp.amount) c' ∧
          Card.Flushed (c.toppedUp inp.amount) inp.writing s.world.mem
            s'.world.mem 4 8)
      (said : List (Event β)) (speaks : s.world.Says s'.world said)
      (quiet : .info creation ∉ said)
      (unread : forall uid a data, .received uid a data ∉ said)
      (sent : rows said = [(c.uid, topUpRow cfg inp.amount)])
  | still (named : ¬ Roleless c) (idle : c.isDebit -> inp.amount > 250)
      (keeps : Loop.Still [creation] s s')

/-!
## The branches
-/

/-- A message that starts like the announcement of an amount or a ticket is not
that of a creation. -/
theorem creation_ne_montant (text : String) :
    "Montant sur la carte : " ++ text ≠ creation := by
  intro h
  have hhead := congrArg (fun message => message.toList.head?) h
  simp [creation, String.toList_append] at hhead

theorem creation_ne_ticket (text : String) :
    "Ticket sur la carte : " ++ text ≠ creation := by
  intro h
  have hhead := congrArg (fun message => message.toList.head?) h
  simp [creation, String.toList_append] at hhead

omit [FloatCell β] in
theorem still_answerSOS (cfg : Config) :
    Prog.Moves (Loop.Still [creation])
      (answerSOS cfg : LoopM Unit β Exit) := by
  apply Prog.moves_then (Loop.still_sendSOS cfg)
  apply Prog.moves_then (Loop.still_printInfo (by decide))
  exact Prog.moves_pure _

omit [FloatCell β] in
theorem still_refuseConso :
    Prog.Moves (Loop.Still [creation]) (refuseConso : LoopM Unit β Exit) := by
  apply Prog.moves_then (Loop.still_printInfo (by decide))
  apply Prog.moves_then (Loop.still_printInfo (by decide))
  exact Prog.moves_pure _

omit [FloatCell β] in
theorem still_refuseAmount :
    Prog.Moves (Loop.Still [creation]) (refuseAmount : LoopM Unit β Exit) := by
  apply Prog.moves_then (Loop.still_printInfo (by decide))
  apply Prog.moves_then (Loop.still_printInfo (by decide))
  exact Prog.moves_pure _

theorem still_showTicket (cfg : Config) :
    Prog.Moves (Loop.Still [creation]) (showTicket cfg : LoopM Unit β Unit) := by
  apply Prog.moves_bind Loop.still_getCard
  intro c
  apply Prog.moves_ite
  · cases cfg.getConso c.getTicket.toNat with
    | ok conso =>
        exact Loop.still_printInfo (by simpa using creation_ne_ticket _)
    | error e => exact Prog.moves_pure _
  · exact Prog.moves_pure _

theorem showTicket_ok (cfg : Config) (c : Card β) (r : Bool) (w : World β) :
    exists w' : World β,
      showTicket cfg ⟨(), some c, r, w⟩ = (.ok (), ⟨(), some c, r, w'⟩) := by
  have hcard : Loop.onCard Session.getCard (⟨(), some c, r, w⟩ : Loop Unit β) =
      (.ok c, ⟨(), some c, r, w⟩) := rfl
  rw [showTicket, Prog.bind_of_ok _ hcard]
  split
  · cases cfg.getConso c.getTicket.toNat with
    | ok conso => exact ⟨_, rfl⟩
    | error e => exact ⟨w, rfl⟩
  · exact ⟨w, rfl⟩

theorem topUp_asks (cfg : Config) (inp : Input β) (c : Card β) (r : Bool)
    (w : World β) :
    exists w' : World β,
      Loop.Still [creation] (⟨(), some c, r, w⟩ : Loop Unit β)
          ⟨(), some c, r, w'⟩ ∧
        topUp cfg inp ⟨(), some c, r, w⟩ =
          (if inp.amount > 250 then refuseAmount else deposit cfg inp)
            ⟨(), some c, r, w'⟩ := by
  let message := "Montant sur la carte : " ++ FloatCell.stream β c.getCredit
  let w₁ : World β := w.addLog [.info message]
  rcases showTicket_ok cfg c r w₁ with ⟨w₂, hticket⟩
  let w₃ : World β :=
    w₂.addLog [.info "Entrez le montant à ajouter sur la carte : "]
  have hfirst : Loop.Still [creation] (⟨(), some c, r, w⟩ : Loop Unit β)
      ⟨(), some c, r, w₁⟩ :=
    Loop.still_printInfo (by simpa using creation_ne_montant _) _
  have hsecond : Loop.Still [creation] (⟨(), some c, r, w₁⟩ : Loop Unit β)
      ⟨(), some c, r, w₂⟩ := by
    have hstill := still_showTicket cfg (⟨(), some c, r, w₁⟩ : Loop Unit β)
    rwa [hticket] at hstill
  have hthird : Loop.Still [creation] (⟨(), some c, r, w₂⟩ : Loop Unit β)
      ⟨(), some c, r, w₃⟩ :=
    Loop.still_printInfo (by decide) _
  refine ⟨w₃, Trans.trans hfirst (Trans.trans hsecond hthird), ?_⟩
  have hstart : topUp cfg inp ⟨(), some c, r, w⟩ =
      (do
        showTicket cfg
        Loop.onWorld (printInfo "Entrez le montant à ajouter sur la carte : ")
        if inp.amount > 250 then refuseAmount else deposit cfg inp :
        LoopM Unit β Exit) ⟨(), some c, r, w₁⟩ := rfl
  rw [hstart, Prog.bind_of_ok _ hticket]
  rfl

omit [FloatCell β] in
theorem rows_topUp (cfg : Config) (amount : Rat) (uid : Uid)
    {before after : List (Event β)} (hbefore : rows before = [])
    (hafter : rows after = []) :
    rows (before ++ .request uid (.history (topUpRow cfg amount)) :: after) =
      [(uid, topUpRow cfg amount)] := by
  rw [rows_append, hbefore]
  have hcons : rows (.request uid (.history (topUpRow cfg amount)) :: after) =
      (uid, topUpRow cfg amount) :: rows after := rfl
  rw [hcons, hafter]
  rfl

theorem incrementCredit_says (inp : Input β) {c : Card β} (hc : c.Classic)
    (w : World β) :
    exists (c' : Card β) (w₁ : World β) (said : List (Event β)),
      Card.SameFrame c c' ∧
        (inp.amount = 0 -> Card.SameBlocks c c' ∧ w₁.mem = w.mem) ∧
        (inp.amount ≠ 0 ->
          Card.SameBlocks (c.toppedUp inp.amount) c' ∧
            Card.Flushed (c.toppedUp inp.amount) inp.writing w.mem w₁.mem
              4 8) ∧
        w.Says w₁ said ∧ .info creation ∉ said ∧
        (forall uid a data, .received uid a data ∉ said) ∧ rows said = [] ∧
        Session.incrementCredit inp.writing inp.amount ⟨c, w⟩ =
          (.ok (), ⟨c', w₁⟩) := by
  have hrun := Session.incrementCredit_run inp.writing inp.amount hc w
  by_cases hamount : inp.amount = 0
  · rw [if_pos hamount] at hrun
    exact ⟨c, w, [], Card.SameFrame.refl c, fun _ => ⟨fun _ _ => rfl, rfl⟩,
      fun h => absurd hamount h, World.Says.refl w, by simp, by simp, rfl,
      hrun⟩
  · rw [if_neg hamount] at hrun
    rcases hrun with ⟨c', w₁, hframe, hblocks, hflushed, hsay, hrun⟩
    refine ⟨c', w₁, _, hframe, fun h => absurd h hamount,
      fun _ => ⟨hblocks, hflushed⟩, hsay, ?_, ?_, Card.rows_writeSays _ _,
      hrun⟩
    · intro hmem
      rcases Card.mem_writeSays hmem with h | h <;>
        exact absurd (Event.info.inj h) (by decide)
    · intro uid a data hmem
      rcases Card.mem_writeSays hmem with h | h <;> cases h

theorem deposit_run (cfg : Config) (inp : Input β) {c : Card β}
    (hc : c.Classic) (r : Bool) (w : World β) :
    exists (c' : Card β) (w' : World β) (said : List (Event β)),
      (inp.amount = 0 -> Card.SameBlocks c c' ∧ w'.mem = w.mem) ∧
        (inp.amount ≠ 0 ->
          Card.SameBlocks (c.toppedUp inp.amount) c' ∧
            Card.Flushed (c.toppedUp inp.amount) inp.writing w.mem w'.mem
              4 8) ∧
        w.Says w' said ∧ .info creation ∉ said ∧
        (forall uid a data, .received uid a data ∉ said) ∧
        rows said = [(c.uid, topUpRow cfg inp.amount)] ∧
        deposit cfg inp ⟨(), some c, r, w⟩ =
          (.ok .next, ⟨(), some c', r, w'⟩) := by
  rcases incrementCredit_says inp hc w with
    ⟨c', w₁, said, hframe, hstays, hadds, hsay, hquiet, hunread, hnone,
      hrun⟩
  let message := "Montant sur la carte : " ++ FloatCell.stream β c'.getCredit
  let events : List (Event β) :=
    [.request c'.uid (.history (topUpRow cfg inp.amount)), .info message,
      .info "Posez une carte"]
  have hlast : deposit cfg inp ⟨(), some c, r, w⟩ =
      (.ok .next, ⟨(), some c', r, w₁.addLog events⟩) := by
    have hincrement : Loop.onCard
        (Session.incrementCredit inp.writing inp.amount)
        (⟨(), some c, r, w⟩ : Loop Unit β) =
          (.ok (), ⟨(), some c', r, w₁⟩) := by
      rw [Loop.onCard_apply, hrun]
    have hrest : (do
        Loop.onCard (Session.sendHistory cfg .topUp "DEBIT" inp.amount)
        let c ← Loop.onCard Session.getCard
        Loop.onWorld (printInfo
          ("Montant sur la carte : " ++ FloatCell.stream β c.getCredit))
        Loop.onWorld (printInfo "Posez une carte")
        pure .next : LoopM Unit β Exit) ⟨(), some c', r, w₁⟩ =
          (.ok .next, ⟨(), some c', r, ((w₁.addLog
            [.request c'.uid (.history (topUpRow cfg inp.amount))]).addLog
              [.info message]).addLog [.info "Posez une carte"]⟩) := rfl
    rw [deposit, Prog.bind_of_ok _ hincrement, hrest, World.addLog_addLog,
      World.addLog_addLog]
    rfl
  refine ⟨c', w₁.addLog events, said ++ events, hstays, hadds,
    hsay.addLog events, ?_, ?_, ?_, hlast⟩
  · have hne : creation ≠ message := fun h => creation_ne_montant _ h.symm
    have hplace : creation ≠ "Posez une carte" := by
      decide
    simp [hquiet, events, hne, hplace]
  · intro uid a data
    simp [hunread, events]
  · rw [← hframe.uid]
    exact rows_topUp cfg inp.amount c'.uid hnone rfl

/-!
## The round
-/

theorem dispatch_apply (cfg : Config) (inp : Input β) {c : Card β}
    (hadmin : ¬ c.testCard "ADMIN") (r : Bool) (w : World β) :
    dispatch cfg inp ⟨(), some c, r, w⟩ =
      (if c.isSOS then answerSOS cfg
        else if c.isConso then refuseConso
        else if ¬ c.isDebit then create inp
        else topUp cfg inp) ⟨(), some c, r, w⟩ :=
  Loop.isAdmin_pass _ hadmin () r w

theorem serves_create {cfg : Config} {inp : Input β} {c : Card β}
    (hc : c.Classic) (hroleless : Roleless c) {r : Bool} {w : World β}
    {s' : Loop Unit β}
    (h : Loop.guarded (create inp) ⟨(), some c, r, w⟩ = (.ok .next, s')) :
    Serves cfg inp c ⟨(), some c, r, w⟩ s' := by
  let w₁ : World β := w.addLog [.info creation]
  rcases Session.createDebit_run inp.writing hc w₁ with
    ⟨c', w', _, hblocks, hflushed, hsay, hrun⟩
  have hcreate : create inp ⟨(), some c, r, w⟩ =
      (.ok .next, ⟨(), some c', r, w'⟩) := by
    have honCard : Loop.onCard (Session.createDebit inp.writing)
        (⟨(), some c, r, w₁⟩ : Loop Unit β) =
          (.ok (), ⟨(), some c', r, w'⟩) := by
      rw [Loop.onCard_apply, hrun]
    have hstart : create inp ⟨(), some c, r, w⟩ =
        (do
          Loop.onCard (Session.createDebit inp.writing)
          pure .next : LoopM Unit β Exit) ⟨(), some c, r, w₁⟩ := rfl
    rw [hstart, Prog.bind_of_ok _ honCard]
    rfl
  rw [Loop.guarded_of_ok hcreate] at h
  cases h
  have hsaid : w.Says w₁ [.info creation] := ⟨_, rfl, rfl⟩
  exact .create hroleless c' rfl hblocks hflushed (hsaid.trans hsay)

theorem serves_topUp {cfg : Config} {inp : Input β} {c : Card β}
    (hc : c.Classic) (hdebit : c.isDebit) {r : Bool} {w : World β}
    {s' : Loop Unit β}
    (h : Loop.guarded (topUp cfg inp) ⟨(), some c, r, w⟩ = (.ok .next, s')) :
    Serves cfg inp c ⟨(), some c, r, w⟩ s' := by
  rcases topUp_asks cfg inp c r w with ⟨w₁, hstill, hasks⟩
  by_cases hfits : inp.amount > 250
  · rw [if_pos hfits] at hasks
    have hrest : Loop.Still [creation] ⟨(), some c, r, w₁⟩ s' :=
      Loop.still_of_guarded hasks still_refuseAmount h
    exact .still (fun hroleless => hroleless.right.right.right hdebit)
      (fun _ => hfits) (Trans.trans hstill hrest)
  · rw [if_neg hfits] at hasks
    rcases deposit_run cfg inp hc r w₁ with
      ⟨c', w', said, hstays, hadds, hsay, hquiet, hunread, hsent, hrun⟩
    rw [Loop.guarded_of_ok (hasks.trans hrun)] at h
    cases h
    rcases hstill.says with ⟨asked, hasked, hnone, hsilent, hblind⟩
    have hmem : w₁.mem = w.mem := hstill.mem
    rw [hmem] at hstays hadds
    refine .deposit hdebit hfits c' rfl hstays hadds _ (hasked.trans hsay)
      ?_ ?_ ?_
    · rw [List.mem_append]
      intro hmem
      cases hmem with
      | inl hmem => exact hsilent creation (by simp) hmem
      | inr hmem => exact hquiet hmem
    · intro uid a data
      rw [List.mem_append]
      intro hmem
      cases hmem with
      | inl hmem => exact hblind uid a data hmem
      | inr hmem => exact hunread uid a data hmem
    · rw [rows_append, hnone, hsent]
      rfl

theorem dispatch_serves {cfg : Config} {inp : Input β} {c : Card β}
    (hc : c.Classic) {r : Bool} {w : World β} {s' : Loop Unit β}
    (h : Loop.guarded (dispatch cfg inp) ⟨(), some c, r, w⟩ =
      (.ok .next, s')) :
    Serves cfg inp c ⟨(), some c, r, w⟩ s' := by
  have hadmin : ¬ c.testCard "ADMIN" := Loop.not_admin_of_next h
  have happly := dispatch_apply cfg inp hadmin r w
  by_cases hsos : c.isSOS
  · rw [if_pos hsos] at happly
    exact .still (fun hroleless => hroleless.right.left hsos)
      (fun hdebit => absurd hsos hdebit.not_others.right.left)
      (Loop.still_of_guarded happly (still_answerSOS cfg) h)
  rw [if_neg hsos] at happly
  by_cases hconso : c.isConso
  · rw [if_pos hconso] at happly
    exact .still (fun hroleless => hroleless.right.right.left hconso)
      (fun hdebit => absurd hconso hdebit.not_others.right.right)
      (Loop.still_of_guarded happly still_refuseConso h)
  rw [if_neg hconso] at happly
  by_cases hdebit : c.isDebit
  · rw [if_neg (not_not_intro hdebit)] at happly
    rw [Loop.guarded_congr happly] at h
    exact serves_topUp hc hdebit h
  · rw [if_pos hdebit] at happly
    rw [Loop.guarded_congr happly] at h
    exact serves_create hc ⟨hadmin, hsos, hconso, hdebit⟩ h

theorem step_run {cfg : Config} {inp : Input β} {s s' : Loop Unit β}
    (h : step cfg inp s = some s') :
    match Loop.arrival (cfg.getKeys true) inp s.card with
    | none =>
        exists reads : List (Event β),
          reads.all Event.onWire = true ∧ Loop.Sees words reads s s'
    | some target =>
        exists (s₁ : Loop Unit β) (c : Card β),
          Loop.Sees words
              ((Card.fresh target (cfg.getKeys true) : Card β).readEvents
                inp.reading (s.world.mem target.uid) 4 4) s s₁ ∧
            s₁.card = some c ∧
            Loop.Presented inp (cfg.getKeys true) target
              (s.world.mem target.uid) c ∧
            Serves cfg inp c s₁ s' := by
  have hvisit := Loop.next_visit_run (phases_sound cfg) inp
    (dispatch cfg inp) (Eq.refl _) (Loop.Waits.refl words s) (Eq.refl s.card) h
  have hkeys : (phases cfg : Loop.Phases Unit β).keys = cfg.getKeys true :=
    rfl
  rw [hkeys] at hvisit
  cases harrival : Loop.arrival (cfg.getKeys true) inp s.card with
  | none =>
      rw [harrival] at hvisit
      rcases hvisit with ⟨reads, hwire, hsees, _⟩
      exact ⟨reads, hwire, hsees⟩
  | some target =>
      rw [harrival] at hvisit
      rcases hvisit with ⟨s₁, c, hsees, _, hc, hpresented, hrun⟩
      refine ⟨s₁, c, hsees, hc, hpresented, ?_⟩
      rcases s₁ with ⟨l, card, r, w⟩
      cases hc
      exact dispatch_serves hpresented.classic hrun

end Caisse

end BeeGadz
