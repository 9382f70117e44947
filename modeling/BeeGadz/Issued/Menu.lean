import BeeGadz.Confinement

/-!
# What the menu of cards sends

The `MC_WRITE`s of a CONSO card and of a DEBIT card with its ticket, as they
follow from the keys, the tag that is found and the answers of the reader.
-/

namespace BeeGadz

open Foundation

/-!
## What is sent
-/

namespace World

variable {β : Type} {w w' w'' : World β}

/-- The `MC_WRITE`s from `w` to `w'`. -/
def Sends (w w' : World β) (writes : List (Uid × Frame β × Bool)) : Prop :=
  exists events, w'.log = w.log ++ events ∧ sentWrites events = writes

theorem Sends.refl (w : World β) : w.Sends w [] :=
  ⟨[], (List.append_nil _).symm, rfl⟩

theorem Sends.trans {first second : List (Uid × Frame β × Bool)}
    (h : w.Sends w' first) (h' : w'.Sends w'' second) :
    w.Sends w'' (first ++ second) := by
  rcases h with ⟨events, hlog, rfl⟩
  rcases h' with ⟨events', hlog', rfl⟩
  exact ⟨events ++ events', by rw [hlog', hlog, List.append_assoc],
    sentWrites_append _ _⟩

theorem Sends.quiet {writes : List (Uid × Frame β × Bool)}
    (h : w.Sends w' writes) (h' : w'.Sends w'' []) : w.Sends w'' writes := by
  have hall := h.trans h'
  rwa [List.append_nil] at hall

theorem Sends.after {writes : List (Uid × Frame β × Bool)}
    (h : w.Sends w' []) (h' : w'.Sends w'' writes) : w.Sends w'' writes :=
  h.trans h'

theorem Sends.since {writes : List (Uid × Frame β × Bool)}
    (h : w.Sends w' writes) : sentWrites (w.since w') = writes := by
  rcases h with ⟨events, hlog, rfl⟩
  rw [World.since, hlog, List.drop_left]

theorem Confined.sends (h : w.Confined [] w') : w.Sends w' [] := by
  rcases h.log with ⟨events, hlog, hnone⟩
  refine ⟨events, hlog, List.eq_nil_iff_forall_not_mem.mpr ?_⟩
  intro write hmem
  rcases write with ⟨uid, f, ok⟩
  cases hnone uid f ok hmem

theorem sends_emit (w : World β) {e : Event β} (he : e.written = none) :
    w.Sends (w.addLog [e]) [] :=
  ⟨[e], rfl, by simp [sentWrites, he]⟩

/-- No card is written and no row is sent. -/
structure Mute (w w' : World β) : Prop where
  mem : w'.mem = w.mem
  log : exists events, w'.log = w.log ++ events ∧ sentWrites events = [] ∧
    rows events = []

theorem Mute.refl (w : World β) : w.Mute w :=
  ⟨rfl, [], (List.append_nil _).symm, rfl, rfl⟩

theorem Mute.trans (h : w.Mute w') (h' : w'.Mute w'') : w.Mute w'' := by
  rcases h.log with ⟨first, hlog, hwrites, hrows⟩
  rcases h'.log with ⟨second, hlog', hwrites', hrows'⟩
  refine ⟨h'.mem.trans h.mem, first ++ second,
    by rw [hlog', hlog, List.append_assoc], ?_, ?_⟩
  · rw [sentWrites_append, hwrites, hwrites', List.append_nil]
  · rw [rows_append, hrows, hrows', List.append_nil]

theorem mute_emit (w : World β) {e : Event β} (hwrite : e.written = none)
    (hrow : e.row = none) : w.Mute (w.addLog [e]) :=
  ⟨rfl, [e], rfl, by simp [sentWrites, hwrite], by simp [rows, hrow]⟩

theorem Mute.sends (h : w.Mute w') : w.Sends w' [] := by
  rcases h.log with ⟨events, hlog, hwrites, _⟩
  exact ⟨events, hlog, hwrites⟩

end World

namespace Card

variable {β : Type} [Cell β]

def writes (c : Card β) (pass : Pass β) : List (Uid × Frame β × Bool) :=
  sentWrites (c.writeEvents pass 4 4)

/-- The write of the block at address `a` of the record is sent, when the blocks
before it are written too. -/
def Reaches (c : Card β) (pass : Pass β) (a : Nat) : Prop :=
  (forall b, 4 ≤ b -> b < a -> c.storeLost (pass b) = false) ∧
    c.authResult (pass a) = .accepted

theorem mem_writes {c : Card β} {pass : Pass β} {k : Nat} (hk : k < 4)
    (hpending : forall j, j ≤ k -> (c.block 1 j).state = .modified)
    {uid : Uid} {f : Frame β} {ok : Bool} (hf : f.block = 4 + k) :
    (uid, f, ok) ∈ c.writes pass <->
      c.Reaches pass (4 + k) ∧
        (uid, f, ok) = (c.uid, writeFrame (4 + k) (c.block 1 k).data,
          (pass (4 + k)).write.ok) := by
  have haddress : forall j, j < 4 -> c.blockAt (4 + j) = c.block 1 j :=
    fun j hj => c.blockAt_address 1 hj
  have hmodified : forall b, 4 ≤ b -> b ≤ 4 + k -> c.Pending b := by
    intro b hb hbk
    have heq : b = 4 + (b - 4) := by
      omega
    rw [Pending, heq, haddress _ (by omega)]
    exact hpending _ (by omega)
  rw [writes, mem_sentWrites_writeEvents]
  constructor
  · intro hall
    rcases hall with ⟨a, ⟨hle, hlt, _, hreach⟩, hauth, heq⟩
    have hblock : f.block = a % 256 :=
      congrArg (fun sent => sent.2.1.block) heq
    have ha : a = 4 + k := by
      omega
    subst ha
    rw [haddress k hk] at heq
    refine ⟨⟨?_, hauth⟩, heq⟩
    intro b hb hbk
    exact hreach b hb hbk (hmodified b hb (by omega))
  · intro hall
    rcases hall with ⟨⟨hreach, hauth⟩, heq⟩
    refine ⟨4 + k, ⟨by omega, by omega, hmodified _ (by omega) (by omega), ?_⟩,
      hauth, by rw [haddress k hk, heq]⟩
    intro b hb hbk _
    exact hreach b hb hbk

omit [Cell β] in
theorem SameFrame.reaches {c c' : Card β} (h : SameFrame c c')
    (pass : Pass β) (a : Nat) : c'.Reaches pass a <-> c.Reaches pass a := by
  simp only [Reaches, h.storeLost, h.authResult]

theorem SameFrame.mem_writes {c c' : Card β} (h : SameFrame c c')
    {pass : Pass β} {k : Nat} (hk : k < 4)
    (hpending : forall j, j ≤ k -> (c'.block 1 j).state = .modified)
    {uid : Uid} {f : Frame β} {ok : Bool} (hf : f.block = 4 + k) :
    (uid, f, ok) ∈ c'.writes pass <->
      c.Reaches pass (4 + k) ∧
        (uid, f, ok) = (c.uid, writeFrame (4 + k) (c'.block 1 k).data,
          (pass (4 + k)).write.ok) := by
  rw [Card.mem_writes hk hpending hf, h.reaches, h.uid]

omit [Cell β] in
theorem SameBlocks.edit {c c' : Card β} (h : SameBlocks c c') (k : Nat)
    (f : Bytes β 16 -> Bytes β 16) :
    SameBlocks (c.edit k f) (c'.edit k f) := by
  intro s j
  rw [edit_block, edit_block, h 1 k, h s j]

theorem writes_of_same {c c' : Card β} (hframe : SameFrame c c')
    (hblocks : SameBlocks c c') (pass : Pass β) :
    c'.writes pass = c.writes pass :=
  congrArg sentWrites (writeEvents_congr hframe hblocks pass 4 4)

end Card

namespace Session

variable {β : Type} [Cell β]

theorem sentWrites_writeCardEvents (c : Card β) (pass : Pass β) :
    sentWrites (c.writeCardEvents pass) = c.writes pass := by
  have hinfo : forall message : String,
      sentWrites ([.info message] : List (Event β)) = [] := fun _ => rfl
  rw [Card.writeCardEvents, sentWrites_append, sentWrites_append, hinfo,
    List.nil_append, Card.writes]
  split
  · exact List.append_nil _
  · rw [hinfo, List.append_nil]

theorem writeCard_sends (pass : Pass β) {c : Card β} (hc : c.Classic)
    (w : World β) :
    exists (c' : Card β) (w' : World β),
      Card.SameFrame c c' ∧ Card.SameBlocks c c' ∧
        w.Sends w' (c.writes pass) ∧
        writeCard pass ⟨c, w⟩ = (.ok (), ⟨c', w'⟩) := by
  rcases writeCard_exact pass hc w with
    ⟨c', mem', hframe, hblocks, _, hrun⟩
  exact ⟨c', _, hframe, hblocks,
    ⟨_, rfl, sentWrites_writeCardEvents c pass⟩, hrun⟩

theorem editCard_sends (f : Card β -> Card β) (pass : Pass β) {c : Card β}
    (hc : c.Classic) (hf : Card.SameFrame c (f c)) (w : World β) :
    exists (c' : Card β) (w' : World β),
      Card.SameFrame c c' ∧ Card.SameBlocks (f c) c' ∧
        w.Sends w' ((f c).writes pass) ∧
        (do
          modifyCard f
          writeCard pass : SessionM β Unit) ⟨c, w⟩ = (.ok (), ⟨c', w'⟩) := by
  rcases writeCard_sends pass (hc.of_sameFrame hf) w with
    ⟨c', w', hframe, hblocks, hsends, hrun⟩
  refine ⟨c', w', hf.trans hframe, hblocks, hsends, ?_⟩
  rw [Prog.bind_of_ok _ (modifyCard_apply f c w), hrun]

end Session

/-!
## The menu of cards
-/

namespace Admin

variable {β : Type} [FloatCell β]

def typed (inp : Input β) : Int :=
  inp.conso - 48

def foundCard (cfg : Config) (inp : Input β) : Option (Card β) :=
  (inp.found.filter fun target => target.atqa == 0x4).map fun target =>
    Card.fresh target (cfg.getKeys true)

theorem foundCard_classic {cfg : Config} {inp : Input β} {c : Card β}
    (h : foundCard cfg inp = some c) : c.Classic := by
  rcases Option.map_eq_some_iff.mp h with ⟨target, _, rfl⟩
  exact Card.classic_fresh target _

def consoWrites (cfg : Config) (inp : Input β) :
    List (Uid × Frame β × Bool) :=
  if typed inp < 0 ∨ typed inp > cfg.getNbConso then []
  else
    match foundCard cfg inp with
    | none => []
    | some c => (c.consoRecord (UInt8.ofInt (typed inp))).writes inp.writing

def ticketWrites (cfg : Config) (inp : Input β) (c : Card β) :
    List (Uid × Frame β × Bool) :=
  if inp.ticket = 49 then
    match Config.stoi cfg.ticket with
    | .ok id =>
        (c.debitRecord.ticketRecord (UInt8.ofInt id)).writes inp.ticketing
    | .error _ => []
  else []

def debitWrites (cfg : Config) (inp : Input β) :
    List (Uid × Frame β × Bool) :=
  match foundCard cfg inp with
  | none => []
  | some c => c.debitRecord.writes inp.writing ++ ticketWrites cfg inp c

theorem findCard_run (cfg : Config) (inp : Input β) (l : Menu) (r : Bool)
    (w : World β) :
    exists s' : Loop Menu β, w.Mute s'.world ∧
      match foundCard cfg inp with
      | some c =>
          findCard cfg inp ⟨l, none, r, w⟩ = (.ok (), s') ∧ s'.card = some c
      | none =>
          (findCard cfg inp ⟨l, none, r, w⟩ = (.ok (), s') ∧ s'.card = none) ∨
            findCard cfg inp ⟨l, none, r, w⟩ = (.error .exception, s') := by
  let s₁ : Loop Menu β := ⟨l, none, r, w.addLog [.info "Posez une carte"]⟩
  have hinfo : Loop.onWorld (printInfo "Posez une carte")
      (⟨l, none, r, w⟩ : Loop Menu β) = (.ok (), s₁) := rfl
  rcases Loop.scan_run [] (cfg.getKeys true) inp.found s₁ with
    ⟨s', hwaits, _, _, hscan⟩
  have hscanned : s₁.world.Mute s'.world := by
    rcases hwaits.log with ⟨events, hnotices, hlog⟩
    exact ⟨hwaits.mem, events, hlog, Loop.sentWrites_notices hnotices,
      Loop.rows_notices hnotices⟩
  refine ⟨s', (w.mute_emit rfl rfl).trans hscanned, ?_⟩
  rw [findCard, Prog.bind_of_ok _ hinfo, foundCard]
  cases hfound : inp.found.filter fun target => target.atqa == 0x4 with
  | none =>
      rw [hfound] at hscan
      exact hscan
  | some target =>
      rw [hfound] at hscan
      exact hscan

omit [FloatCell β] in
theorem printConsos_run (consos : List (String × Rat)) (i : Nat) (l : Menu)
    (card : Option (Card β)) (r : Bool) (w : World β) :
    exists w', w.Mute w' ∧
      printConsos consos i ⟨l, card, r, w⟩ = (.ok (), ⟨l, card, r, w'⟩) := by
  induction consos generalizing i w with
  | nil => exact ⟨w, World.Mute.refl w, rfl⟩
  | cons conso consos ih =>
      let w₁ := w.addLog [.info (toString i ++ " - " ++ conso.1)]
      rcases ih (i + 1) w₁ with ⟨w', hmute, hrun⟩
      refine ⟨w', (w.mute_emit rfl rfl).trans hmute, ?_⟩
      rw [printConsos, ← hrun]
      rfl

theorem findCard_sends {cfg : Config} {inp : Input β} {q : LoopM Menu β Unit}
    {writes : Card β -> List (Uid × Frame β × Bool)}
    (hnone : forall s : Loop Menu β, s.card = none -> (q s).2 = s)
    (hsome : forall c (s : Loop Menu β), foundCard cfg inp = some c ->
      s.card = some c -> s.world.Sends (q s).2.world (writes c))
    (l : Menu) (r : Bool) (w : World β) :
    w.Sends
      ((do
        findCard cfg inp
        q : LoopM Menu β Unit) ⟨l, none, r, w⟩).2.world
      (match foundCard cfg inp with
      | none => []
      | some c => writes c) := by
  rcases findCard_run cfg inp l r w with ⟨s', hmute, hrun⟩
  have hsends := hmute.sends
  cases hfound : foundCard cfg inp with
  | none =>
      rw [hfound] at hrun
      cases hrun with
      | inl h =>
          rw [Prog.bind_of_ok _ h.left, hnone s' h.right]
          exact hsends
      | inr h =>
          rw [Prog.bind_of_error _ h]
          exact hsends
  | some c =>
      rw [hfound] at hrun
      rw [Prog.bind_of_ok _ hrun.left]
      exact hsends.after (hsome c s' hfound hrun.right)

omit [FloatCell β] in
theorem onCard_none {α : Type} (p : SessionM β α) {s : Loop Menu β}
    (hs : s.card = none) : Loop.onCard p s = (.error .crash, s) := by
  rcases s with ⟨l, card, r, w⟩
  subst hs
  rfl

theorem createConso_apply (cfg : Config) (inp : Input β) (l : Menu)
    (r : Bool) (w : World β) :
    exists w' : World β, w.Mute w' ∧
      createConso cfg inp ⟨l, none, r, w⟩ =
        (if typed inp < 0 ∨ typed inp > cfg.getNbConso then do
          Loop.onWorld (printError "Mauvaise conso, appuyez sur une touche")
          Loop.onWorld (emit .clearScreen)
        else do
          findCard cfg inp
          Loop.onCard (Session.createConso inp.writing
            (UInt8.ofInt (typed inp))) : LoopM Menu β Unit)
          ⟨l, none, r, w'⟩ := by
  let w₁ : World β :=
    (w.addLog [.clearScreen]).addLog [.info "--- Menu ---"]
  have hfirst : w.Mute w₁ :=
    (w.mute_emit rfl rfl).trans (World.mute_emit _ rfl rfl)
  rcases printConsos_run cfg.consos 0 l none r w₁ with ⟨w₂, hconsos, hprint⟩
  let w₃ : World β := w₂.addLog [.info "Entrez votre choix de conso : "]
  refine ⟨w₃, (hfirst.trans hconsos).trans (w₂.mute_emit rfl rfl), ?_⟩
  have hclear : Loop.onWorld (emit .clearScreen)
      (⟨l, none, r, w⟩ : Loop Menu β) =
        (.ok (), ⟨l, none, r, w.addLog [.clearScreen]⟩) := rfl
  have htitle : Loop.onWorld (printInfo "--- Menu ---")
      (⟨l, none, r, w.addLog [.clearScreen]⟩ : Loop Menu β) =
        (.ok (), ⟨l, none, r, w₁⟩) := rfl
  have hprompt : Loop.onWorld (printInfo "Entrez votre choix de conso : ")
      (⟨l, none, r, w₂⟩ : Loop Menu β) = (.ok (), ⟨l, none, r, w₃⟩) := rfl
  rw [createConso, Prog.bind_of_ok _ hclear, Prog.bind_of_ok _ htitle,
    Prog.bind_of_ok _ hprint, Prog.bind_of_ok _ hprompt]
  rfl

theorem createConso_sends (cfg : Config) (inp : Input β) (l : Menu)
    (r : Bool) (w : World β) :
    w.Sends (createConso cfg inp ⟨l, none, r, w⟩).2.world
      (consoWrites cfg inp) := by
  rcases createConso_apply cfg inp l r w with ⟨w₃, hmenu, happly⟩
  apply hmenu.sends.after
  rw [happly, consoWrites]
  split
  · exact (w₃.sends_emit rfl).after (World.sends_emit _ rfl)
  · apply findCard_sends (fun s hs => congrArg Prod.snd (onCard_none _ hs))
    intro c state hfound hcard
    rcases state with ⟨l', card, r', w'⟩
    cases hcard
    have hframe : Card.SameFrame c
        (c.consoRecord (UInt8.ofInt (typed inp))) :=
      (Card.sameFrame_edit _ _ _).trans (Card.sameFrame_edit _ _ _)
    rcases Session.editCard_sends
        (fun c => c.consoRecord (UInt8.ofInt (typed inp))) inp.writing
        (foundCard_classic hfound) hframe w' with
      ⟨c', w'', _, _, hsends, hrun⟩
    have hafter : (Loop.onCard (Session.createConso inp.writing
        (UInt8.ofInt (typed inp))) (⟨l', some c, r', w'⟩ :
          Loop Menu β)).2.world = w'' :=
      congrArg (fun result => result.2.world) hrun
    rw [hafter]
    exact hsends

theorem setTicket_sends (cfg : Config) (inp : Input β) {c : Card β}
    (hc : c.Classic) {s : Loop Menu β} {c' : Card β} (hs : s.card = some c')
    (hframe : Card.SameFrame c c')
    (hblocks : Card.SameBlocks c.debitRecord c') :
    s.world.Sends
      ((if inp.ticket = 49 then do
        let id ← Prog.ofExcept (Config.stoi cfg.ticket)
        Loop.onCard (Session.setTicket inp.ticketing (UInt8.ofInt id))
        Loop.onWorld (printInfo "Ticket ajouté.")
      else pure () : LoopM Menu β Unit) s).2.world
      (ticketWrites cfg inp c) := by
  rcases s with ⟨l, card, r, w⟩
  cases hs
  unfold ticketWrites
  split
  · rw [Prog.bind_apply, Prog.ofExcept_apply]
    cases hid : Config.stoi cfg.ticket with
    | error e => exact World.Sends.refl w
    | ok id =>
        have hrecord : Card.SameFrame c'
            (c'.ticketRecord (UInt8.ofInt id)) := Card.sameFrame_edit _ _ _
        rcases Session.editCard_sends
            (fun c => c.ticketRecord (UInt8.ofInt id)) inp.ticketing
            (hc.of_sameFrame hframe) hrecord w with
          ⟨c'', w', _, _, hsends, hrun⟩
        have hset : Loop.onCard (Session.setTicket inp.ticketing
            (UInt8.ofInt id)) (⟨l, some c', r, w⟩ : Loop Menu β) =
              (.ok (), ⟨l, some c'', r, w'⟩) := by
          rw [Loop.onCard_apply]
          exact congrArg (fun result => (result.1, (⟨l, some result.2.card, r,
            result.2.world⟩ : Loop Menu β))) hrun
        have hsame : (c'.ticketRecord (UInt8.ofInt id)).writes
            inp.ticketing =
              (c.debitRecord.ticketRecord (UInt8.ofInt id)).writes
                inp.ticketing := by
          have hdebit := sameFrame_debitRecord c
          have hsame : Card.SameFrame
              (c.debitRecord.ticketRecord (UInt8.ofInt id))
              (c'.ticketRecord (UInt8.ofInt id)) :=
            (hdebit.trans (Card.sameFrame_edit _ _ _)).symm.trans
              (hframe.trans hrecord)
          exact Card.writes_of_same hsame (hblocks.edit 2 _) _
        simp only
        rw [Prog.bind_of_ok _ hset, ← hsame]
        exact hsends.quiet (w'.sends_emit rfl)
  · exact World.Sends.refl w

theorem createDebit_sends (cfg : Config) (inp : Input β) (l : Menu)
    (r : Bool) (w : World β) :
    w.Sends (createDebit cfg inp ⟨l, none, r, w⟩).2.world
      (debitWrites cfg inp) := by
  have hnone : forall s : Loop Menu β, s.card = none ->
      ((do
        Loop.onCard (Session.createDebit inp.writing)
        Loop.onWorld (printInfo "Ajouter un ticket ? (0/1) ")
        if inp.ticket = 49 then do
          let id ← Prog.ofExcept (Config.stoi cfg.ticket)
          Loop.onCard (Session.setTicket inp.ticketing (UInt8.ofInt id))
          Loop.onWorld (printInfo "Ticket ajouté.")
        else pure () : LoopM Menu β Unit) s).2 = s := by
    intro s hs
    rw [Prog.bind_of_error _ (onCard_none _ hs)]
  apply findCard_sends hnone
  intro c state hfound hcard
  rcases state with ⟨l', card, r', w'⟩
  cases hcard
  have hc := foundCard_classic hfound
  rcases Session.editCard_sends Card.debitRecord inp.writing hc
      (sameFrame_debitRecord c) w' with
    ⟨c', w'', hframe, hblocks, hsends, hrun⟩
  have hcreate : Loop.onCard (Session.createDebit inp.writing)
      (⟨l', some c, r', w'⟩ : Loop Menu β) =
        (.ok (), ⟨l', some c', r', w''⟩) := by
    rw [Loop.onCard_apply]
    exact congrArg (fun result => (result.1, (⟨l', some result.2.card, r',
      result.2.world⟩ : Loop Menu β))) hrun
  let w₃ : World β := w''.addLog [.info "Ajouter un ticket ? (0/1) "]
  have hask : Loop.onWorld (printInfo "Ajouter un ticket ? (0/1) ")
      (⟨l', some c', r', w''⟩ : Loop Menu β) =
        (.ok (), ⟨l', some c', r', w₃⟩) := rfl
  rw [Prog.bind_of_ok _ hcreate, Prog.bind_of_ok _ hask]
  have hticket := setTicket_sends cfg inp hc
    (s := ⟨l', some c', r', w₃⟩) rfl hframe hblocks
  exact (hsends.quiet (w''.sends_emit rfl)).trans hticket

theorem createMenu_apply (cfg : Config) (inp : Input β) (s : Loop Menu β) :
    exists w, s.world.Mute w ∧
      createMenu cfg inp s =
        (if inp.key = 48 then createAdmin cfg inp
          else if inp.key = 49 then createConso cfg inp
          else if inp.key = 50 then createDebit cfg inp
          else if inp.key = 51 then createSOS cfg inp
          else closeMenu) ⟨s.locals, none, s.read, w⟩ := by
  refine ⟨_, ?_, rfl⟩
  apply World.Mute.trans _ (World.mute_emit _ rfl rfl)
  apply World.Mute.trans _ (World.mute_emit _ rfl rfl)
  apply World.Mute.trans _ (World.mute_emit _ rfl rfl)
  apply World.Mute.trans _ (World.mute_emit _ rfl rfl)
  apply World.Mute.trans _ (World.mute_emit _ rfl rfl)
  apply World.Mute.trans _ (World.mute_emit _ rfl rfl)
  exact World.mute_emit _ rfl rfl

theorem round_create (cfg : Config) (inp : Input β) {s : Loop Menu β}
    (hmenu : s.locals = .create) :
    (round cfg inp s).2 = (createMenu cfg inp s).2 := by
  have happly : round cfg inp s =
      (do
        createMenu cfg inp
        pure none : LoopM Menu β (Option Bool)) s := by
    rcases s with ⟨menu, card, r, w⟩
    cases hmenu
    rfl
  rw [happly, Prog.then_pure_state]

theorem round_conso (cfg : Config) (inp : Input β) {s : Loop Menu β}
    (hmenu : s.locals = .create) (hkey : inp.key = 49) :
    s.world.Sends (round cfg inp s).2.world (consoWrites cfg inp) := by
  rcases createMenu_apply cfg inp s with ⟨w, hmute, happly⟩
  rw [if_neg (by rw [hkey]; decide), if_pos hkey] at happly
  rw [round_create cfg inp hmenu, happly]
  exact hmute.sends.after (createConso_sends cfg inp _ _ w)

theorem round_debit (cfg : Config) (inp : Input β) {s : Loop Menu β}
    (hmenu : s.locals = .create) (hkey : inp.key = 50) :
    s.world.Sends (round cfg inp s).2.world (debitWrites cfg inp) := by
  rcases createMenu_apply cfg inp s with ⟨w, hmute, happly⟩
  rw [if_neg (by rw [hkey]; decide), if_neg (by rw [hkey]; decide),
    if_pos hkey] at happly
  rw [round_create cfg inp hmenu, happly]
  exact hmute.sends.after (createDebit_sends cfg inp _ _ w)

end Admin

end BeeGadz
