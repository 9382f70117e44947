import BeeGadz.Shop.Leave

/-!
# The books of the application

Over a whole run of the application, whatever modes it goes through, the records
of the cards and the rows in the databases are those of the entries that the
rounds made.
-/

namespace BeeGadz

open Foundation

/-!
## Steps without an entry
-/

namespace World

variable {β : Type} [FloatCell β]

instance : IsPreorder (World β) (Books []) where
  refl _ := books_of_same rfl rfl
  trans _ _ _ h h' := h.after h'

theorem books_addLog (w : World β) {events : List (Event β)}
    (h : BeeGadz.rows events = []) : w.Books [] (w.addLog events) := by
  apply books_of_same (addLog_mem w events)
  rw [addLog_log, rows_append, h, List.append_nil]

theorem Mute.books {w w' : World β} (h : w.Mute w') : w.Books [] w' := by
  rcases h.log with ⟨events, hlog, _, hrows⟩
  apply books_of_same h.mem
  rw [hlog, rows_append, hrows, List.append_nil]

theorem books_printInfo (message : String) :
    Prog.Moves (Books []) (printInfo message : WorldM β Unit) :=
  fun w => w.books_addLog rfl

theorem books_setCommand (command : String) (line : Fin 4) (time : Nat) :
    Prog.Moves (Books []) (setCommand command line time : WorldM β Unit) := by
  intro w
  exact books_of_same (command_mem w command line time) rfl

end World

theorem Loop.Still.books {L β : Type} [FloatCell β] {loud : List String}
    {s s' : Loop L β} (h : Still loud s s') : s.world.Books [] s'.world :=
  World.books_of_same h.mem h.rows

/-!
## Cards that are issued
-/

namespace Session

variable {β : Type} [FloatCell β]

/-- A card is written: the other cards and the history are left alone. -/
structure Issues (s s' : Session β) : Prop where
  frame : Card.SameFrame s.card s'.card
  others : forall u, u ≠ s.card.uid -> s'.world.mem u = s.world.mem u
  rows : rows s'.world.log = rows s.world.log

omit [FloatCell β] in
theorem Issues.trans {s s' s'' : Session β} (h : Issues s s')
    (h' : Issues s' s'') : Issues s s'' where
  frame := h.frame.trans h'.frame
  others := by
    intro u hu
    rw [h'.others u (h.frame.uid.symm ▸ hu), h.others u hu]
  rows := h'.rows.trans h.rows

omit [FloatCell β] in
theorem Issues.addLog {s s' : Session β} (h : Issues s s')
    {events : List (Event β)} (hnone : BeeGadz.rows events = []) :
    Issues s ⟨s'.card, s'.world.addLog events⟩ where
  frame := h.frame
  others := h.others
  rows := by
    rw [World.addLog_log, rows_append, hnone, List.append_nil]
    exact h.rows

theorem Holds.addLog {target : Target} {s : Session β} {r : Record}
    (h : s.Holds target r) (events : List (Event β)) :
    Holds target ⟨s.card, s.world.addLog events⟩ r where
  mirrors := ⟨h.mirrors.classic, h.mirrors.uid, h.mirrors.blocks⟩
  record := h.record
  debit := h.debit

theorem issues_editCard (f : Card β -> Card β) (pass : Pass β)
    {s : Session β} (hc : s.card.Classic)
    (hf : Card.SameFrame s.card (f s.card)) :
    Issues s ((do
      modifyCard f
      writeCard pass : SessionM β Unit) s).2 := by
  rcases s with ⟨c, w⟩
  rcases editCard_run f pass hc hf w with
    ⟨c', w', hframe, _, hflushed, hsay, hrun⟩
  rw [hrun]
  refine ⟨hframe, ?_, ?_⟩
  · intro u hu
    exact hflushed.other (hf.uid.symm ▸ hu)
  · show BeeGadz.rows w'.log = _
    rw [hsay.rows, Card.rows_writeSays, List.append_nil]

end Session

namespace Writer

variable {β : Type} [FloatCell β]

theorem onCard_issues (target : Target) (keys : Vec UInt8) (w : World β)
    {writer : Writer} (h : writer.WritesRole)
    (hunread : writer ≠ .createDebitRead) :
    Session.Issues (found target keys w) (onCard target keys w writer) := by
  have hclassic : (found target keys w).card.Classic :=
    Card.classic_fresh target keys
  have hcreated := Session.issues_editCard Card.debitRecord Session.accepts
    hclassic (sameFrame_debitRecord _)
  cases writer with
  | createAdmin =>
      exact Session.issues_editCard (fun c => c.editName "ADMIN") _ hclassic
        (Card.sameFrame_edit _ _ _)
  | createConso id =>
      exact Session.issues_editCard (fun c => c.consoRecord id) _ hclassic
        ((Card.sameFrame_edit _ _ _).trans (Card.sameFrame_edit _ _ _))
  | createSOS =>
      exact Session.issues_editCard (fun c => c.editName "SOS") _ hclassic
        (Card.sameFrame_edit _ _ _)
  | createDebit ticket =>
      cases ticket with
      | none => exact hcreated
      | some id =>
          exact hcreated.trans (Session.issues_editCard
            (fun c => c.ticketRecord id) _
            (hclassic.of_sameFrame hcreated.frame)
            (Card.sameFrame_edit _ _ _))
  | createDebitRead => exact absurd rfl hunread
  | serve deals => exact absurd h id

theorem issues_books {target : Target} {keys : Vec UInt8} {w : World β}
    {writer : Writer} (h : writer.WritesRole) {s' : Session β}
    (hissues : Session.Issues (found target keys w) s')
    (hrecord : Memory.record (s'.world.mem target.uid) =
      writer.onRecord (w.shop target.uid)) :
    w.Books [.issue target.uid writer] s'.world := by
  let e : Entry := .issue target.uid writer
  have hissued : e.apply w.shop target.uid =
      writer.onRecord (w.shop target.uid) := Entry.apply_self e _
  have hshop : s'.world.shop = e.apply w.shop := by
    funext u
    by_cases hu : u = target.uid
    · rw [hu, hissued]
      exact hrecord
    · have hkept : e.apply w.shop u = w.shop u := Entry.apply_other e _ hu
      rw [hkept, World.shop, World.shop, shopOf, shopOf, hissues.others u hu]
      rfl
  have hallowed : e.Allowed w.shop := by
    refine ⟨h, ?_⟩
    intro row hrow
    cases hrow
  refine World.books_single hallowed hshop ?_
  rw [hissues.rows]
  exact (List.append_nil _).symm

variable [ExactFloat β]

theorem onCard_books (target : Target) (keys : Vec UInt8) (w : World β)
    {writer : Writer} (h : writer.WritesRole)
    (hunread : writer ≠ .createDebitRead) :
    w.Books [.issue target.uid writer]
      (onCard target keys w writer).world := by
  apply issues_books h (onCard_issues target keys w h hunread)
  exact onWorld_simulates target ⟨keys, writer⟩ w _ rfl (by
    cases writer with
    | serve deals => exact absurd h id
    | _ => trivial)

end Writer

namespace Admin

variable {β : Type} [FloatCell β]

def ticketOf (cfg : Config) (inp : Input β) : Option UInt8 :=
  if inp.ticket = 49 then
    match Config.stoi cfg.ticket with
    | .ok id => some (UInt8.ofInt id)
    | .error _ => none
  else none

def issued (cfg : Config) (inp : Input β) : Option Writer :=
  if inp.key = 48 then some .createAdmin
  else if inp.key = 49 then
    if typed inp < 0 ∨ typed inp > cfg.getNbConso then none
    else some (.createConso (UInt8.ofInt (typed inp)))
  else if inp.key = 50 then some (.createDebit (ticketOf cfg inp))
  else if inp.key = 51 then some .createSOS
  else none

def issue (inp : Input β) (writer : Writer) : List Entry :=
  match inp.found.filter fun target => target.atqa == 0x4 with
  | none => []
  | some target => [.issue target.uid writer]

def entriesOf (cfg : Config) (inp : Input β) (s : Loop Menu β) : List Entry :=
  if s.locals = .create then
    match issued cfg inp with
    | none => []
    | some writer => issue inp writer
  else []

structure Input.Accepted (inp : Input β) : Prop where
  writing : inp.writing = Session.accepts
  ticketing : inp.ticketing = Session.accepts

theorem books_printInfo (message : String) :
    Prog.Moves (fun s s' : Loop Menu β => s.world.Books [] s'.world)
      (Loop.onWorld (printInfo message)) :=
  fun s => World.books_printInfo message s.world

theorem issue_books {cfg : Config} {inp : Input β} {q : LoopM Menu β Unit}
    {writer : Writer}
    (hnone : forall s : Loop Menu β, s.card = none -> (q s).2 = s)
    (hsome : forall target l r w,
      (w : World β).Books [.issue target.uid writer]
        (q ⟨l, some (Card.fresh target (cfg.getKeys true)), r, w⟩).2.world)
    (l : Menu) (r : Bool) (w : World β) :
    w.Books (issue inp writer)
      ((do
        findCard cfg inp
        q : LoopM Menu β Unit) ⟨l, none, r, w⟩).2.world := by
  rcases findCard_run cfg inp l r w with ⟨s', hmute, hrun⟩
  have hbooks := hmute.books
  rw [issue]
  cases hfound : inp.found.filter fun target => target.atqa == 0x4 with
  | none =>
      simp only [foundCard, hfound, Option.map_none] at hrun
      cases hrun with
      | inl h =>
          rw [Prog.bind_of_ok _ h.left, hnone s' h.right]
          exact hbooks
      | inr h =>
          rw [Prog.bind_of_error _ h]
          exact hbooks
  | some target =>
      simp only [foundCard, hfound, Option.map_some] at hrun
      rcases s' with ⟨l', card, r', w'⟩
      rcases hrun with ⟨hrun, hcard⟩
      cases hcard
      rw [Prog.bind_of_ok _ hrun]
      exact hbooks.after (hsome target l' r' w')

omit [FloatCell β] in
theorem state_onCard_none {α : Type} (p : SessionM β α) (s : Loop Menu β)
    (hs : s.card = none) : (Loop.onCard p s).2 = s :=
  congrArg Prod.snd (onCard_none p hs)

omit [FloatCell β] in
/-- The question after a DEBIT card was written is not asked without one. -/
theorem state_onCard_then_none {α γ : Type} (p : SessionM β α)
    (q : LoopM Menu β γ) (s : Loop Menu β) (hs : s.card = none) :
    ((Loop.onCard p >>= fun _ => q) s).2 = s := by
  rw [Prog.bind_of_error _ (onCard_none p hs)]

section Created

variable [ExactFloat β] (cfg : Config) {inp : Input β}

theorem createAdmin_books (hinp : inp.Accepted) (l : Menu) (r : Bool)
    (w : World β) :
    w.Books (issue inp .createAdmin)
      (createAdmin cfg inp ⟨l, none, r, w⟩).2.world := by
  apply issue_books (state_onCard_none _)
  intro target l r w
  rw [hinp.writing]
  exact Writer.onCard_books target _ w trivial Writer.noConfusion

theorem createSOS_books (hinp : inp.Accepted) (l : Menu) (r : Bool)
    (w : World β) :
    w.Books (issue inp .createSOS)
      (createSOS cfg inp ⟨l, none, r, w⟩).2.world := by
  apply issue_books (state_onCard_none _)
  intro target l r w
  rw [hinp.writing]
  exact Writer.onCard_books target _ w trivial Writer.noConfusion

theorem createConso_books (hinp : inp.Accepted) (l : Menu) (r : Bool)
    (w : World β) :
    w.Books
      (if typed inp < 0 ∨ typed inp > cfg.getNbConso then []
      else issue inp (.createConso (UInt8.ofInt (typed inp))))
      (createConso cfg inp ⟨l, none, r, w⟩).2.world := by
  rcases createConso_apply cfg inp l r w with ⟨w', hmute, hrun⟩
  have hbooks := hmute.books
  apply hbooks.after
  rw [hrun]
  split
  · exact (w'.books_addLog rfl).after (World.books_addLog _ rfl)
  · apply issue_books (state_onCard_none _)
    intro target l r w
    rw [hinp.writing]
    exact Writer.onCard_books target _ w trivial Writer.noConfusion

omit [ExactFloat β] in
theorem addTicket_books (hinp : inp.Accepted) {target : Target}
    {w : World β} {s' : Session β}
    (hissues : Session.Issues (Writer.found target (cfg.getKeys true) w) s')
    (hholds : s'.Holds target (.debit 0 [])) (l : Menu) (r : Bool) :
    w.Books [.issue target.uid (.createDebit (ticketOf cfg inp))]
      ((if inp.ticket = 49 then do
        let id ← Prog.ofExcept (Config.stoi cfg.ticket)
        Loop.onCard (Session.setTicket inp.ticketing (UInt8.ofInt id))
        Loop.onWorld (printInfo "Ticket ajouté.")
      else pure () : LoopM Menu β Unit)
        ⟨l, some s'.card, r, s'.world⟩).2.world := by
  have hrole : forall ticket, (Writer.createDebit ticket).WritesRole :=
    fun _ => trivial
  have hplain : w.Books [.issue target.uid (.createDebit none)] s'.world :=
    Writer.issues_books (hrole none) hissues hholds.record
  unfold ticketOf
  by_cases hwants : inp.ticket = 49
  · rw [if_pos hwants, if_pos hwants]
    cases hid : Config.stoi cfg.ticket with
    | error e => exact hplain
    | ok id =>
        rcases Session.setTicket_holds hholds (UInt8.ofInt id) with
          ⟨s₂, hholds₂, hset⟩
        have hadded : Session.Issues s'
            (Session.setTicket Session.accepts (UInt8.ofInt id) s').2 :=
          Session.issues_editCard (fun c => c.ticketRecord (UInt8.ofInt id)) _
            hholds.mirrors.classic (Card.sameFrame_edit _ _ _)
        rw [hset] at hadded
        have hticket : w.Books
            [.issue target.uid (.createDebit (some (UInt8.ofInt id)))]
            s₂.world :=
          Writer.issues_books (hrole _) (hissues.trans hadded) hholds₂.record
        have honcard : Loop.onCard (Session.setTicket inp.ticketing
            (UInt8.ofInt id)) (⟨l, some s'.card, r, s'.world⟩ :
              Loop Menu β) = (.ok (), ⟨l, some s₂.card, r, s₂.world⟩) := by
          rw [Loop.onCard_apply, hinp.ticketing]
          exact congrArg (fun result => (result.1, (⟨l, some result.2.card, r,
            result.2.world⟩ : Loop Menu β))) hset
        have hread : (Prog.ofExcept (.ok id) : LoopM Menu β Int)
            ⟨l, some s'.card, r, s'.world⟩ =
              (.ok id, ⟨l, some s'.card, r, s'.world⟩) := rfl
        rw [Prog.bind_of_ok _ hread, Prog.bind_of_ok _ honcard]
        exact hticket.before (s₂.world.books_addLog rfl)
  · rw [if_neg hwants, if_neg hwants]
    exact hplain

theorem createDebit_books (hinp : inp.Accepted) (l : Menu) (r : Bool)
    (w : World β) :
    w.Books (issue inp (.createDebit (ticketOf cfg inp)))
      (createDebit cfg inp ⟨l, none, r, w⟩).2.world := by
  apply issue_books (state_onCard_then_none _ _)
  intro target l r w
  let c : Card β := Card.fresh target (cfg.getKeys true)
  have hclassic : c.Classic := Card.classic_fresh target (cfg.getKeys true)
  have huid : c.uid = target.uid := rfl
  rcases Session.createDebit_holds hclassic huid w with
    ⟨s₁, hholds, hcreate⟩
  have hissues : Session.Issues (Writer.found target (cfg.getKeys true) w)
      (Session.createDebit Session.accepts ⟨c, w⟩).2 :=
    Session.issues_editCard Card.debitRecord _ hclassic
      (sameFrame_debitRecord c)
  rw [hcreate] at hissues
  let w₁ := s₁.world.addLog [.info "Ajouter un ticket ? (0/1) "]
  have hcreated : Loop.onCard (Session.createDebit inp.writing)
      (⟨l, some c, r, w⟩ : Loop Menu β) =
        (.ok (), ⟨l, some s₁.card, r, s₁.world⟩) := by
    rw [Loop.onCard_apply, hinp.writing]
    exact congrArg (fun result => (result.1, (⟨l, some result.2.card, r,
      result.2.world⟩ : Loop Menu β))) hcreate
  have hasked : Loop.onWorld (printInfo "Ajouter un ticket ? (0/1) ")
      (⟨l, some s₁.card, r, s₁.world⟩ : Loop Menu β) =
        (.ok (), ⟨l, some s₁.card, r, w₁⟩) := rfl
  rw [Prog.bind_of_ok _ hcreated, Prog.bind_of_ok _ hasked]
  have hholds₁ : Session.Holds target ⟨s₁.card, w₁⟩ (.debit 0 []) :=
    hholds.addLog _
  exact addTicket_books cfg hinp (hissues.addLog rfl) hholds₁ l r

theorem createMenu_books (hinp : inp.Accepted) (s : Loop Menu β) :
    s.world.Books
      (match issued cfg inp with
      | none => []
      | some writer => issue inp writer)
      (createMenu cfg inp s).2.world := by
  rcases createMenu_apply cfg inp s with ⟨w, hmute, happly⟩
  have hbooks := hmute.books
  apply hbooks.after
  rw [happly]
  unfold issued
  by_cases hadmin : inp.key = 48
  · rw [if_pos hadmin, if_pos hadmin]
    exact createAdmin_books cfg hinp s.locals s.read w
  by_cases hconso : inp.key = 49
  · rw [if_neg hadmin, if_pos hconso, if_neg hadmin, if_pos hconso]
    have hcreated := createConso_books cfg hinp s.locals s.read w
    by_cases hrange : typed inp < 0 ∨ typed inp > cfg.getNbConso
    · rw [if_pos hrange] at hcreated ⊢
      exact hcreated
    · rw [if_neg hrange] at hcreated ⊢
      exact hcreated
  by_cases hdebit : inp.key = 50
  · rw [if_neg hadmin, if_neg hconso, if_pos hdebit, if_neg hadmin,
      if_neg hconso, if_pos hdebit]
    exact createDebit_books cfg hinp s.locals s.read w
  by_cases hsos : inp.key = 51
  · rw [if_neg hadmin, if_neg hconso, if_neg hdebit, if_pos hsos,
      if_neg hadmin, if_neg hconso, if_neg hdebit, if_pos hsos]
    exact createSOS_books cfg hinp s.locals s.read w
  · rw [if_neg hadmin, if_neg hconso, if_neg hdebit, if_neg hsos,
      if_neg hadmin, if_neg hconso, if_neg hdebit, if_neg hsos]
    have hclosed : Loop.Still [] (⟨s.locals, none, s.read, w⟩ : Loop Menu β)
        (closeMenu ⟨s.locals, none, s.read, w⟩).2 := still_closeMenu _
    exact hclosed.books

theorem round_books (hinp : inp.Accepted) (s : Loop Menu β) :
    s.world.Books (entriesOf cfg inp s) (round cfg inp s).2.world := by
  unfold entriesOf
  by_cases hmenu : s.locals = .create
  · rw [if_pos hmenu, round_create cfg inp hmenu]
    exact createMenu_books cfg hinp s
  · rw [if_neg hmenu]
    have hstill : Loop.Still [] s (round cfg inp s).2 := by
      rcases s with ⟨menu, card, r, w⟩
      cases menu with
      | main => exact still_mainMenu inp _
      | create => exact absurd rfl hmenu
      | modes =>
          exact Prog.moves_then (still_modeMenu inp) (Prog.moves_pure _) _
    exact hstill.books

end Created

end Admin

/-!
## Runs of the application
-/

namespace Application

variable {β : Type} [FloatCell β]

theorem enter_books (clock : Int) (mode : ConfigMode) (w : World β) :
    w.Books [] (enter clock mode w).world := by
  cases mode with
  | bar =>
      apply Prog.moves_then (World.books_printInfo _)
      apply Prog.moves_then (World.books_printInfo _)
      exact World.books_setCommand _ _ _
  | kve =>
      apply Prog.moves_then (World.books_printInfo _)
      exact World.books_printInfo _
  | caisse =>
      apply Prog.moves_then (World.books_printInfo _)
      exact World.books_printInfo _
  | admin => exact World.books_printInfo _ w

theorem replace_books (clock : Int) (tmp : ConfigMode) (w : World β) :
    w.Books [] (replace clock tmp w).world := by
  let w₁ := (createMode w).addLog [.clearScreen]
  let w₂ := if w₁.mode = .admin then { w₁ with mode := tmp } else w₁
  have hmem : w₂.mem = w.mem := by
    unfold w₂
    split <;> rfl
  have hrows : rows w₂.log = rows w.log := by
    have hlog : w₂.log = w.log ++ [.clearScreen] := by
      unfold w₂
      split <;> rfl
    rw [hlog, rows_append]
    exact List.append_nil _
  have hcleared : w.Books [] w₂ := World.books_of_same hmem hrows
  exact hcleared.after (enter_books clock w.mode w₂)

theorem finish_books {L : Type} (clock : Int) (app : Application β)
    (mode : ConfigMode) (next : Loop L β -> Running β)
    (hnext : forall s, (next s).world = s.world)
    (r : Except Exn (Option Bool) × Loop L β) :
    r.2.world.Books [] (finish clock app mode next r).world := by
  rcases r with ⟨result, s⟩
  cases result with
  | error e =>
      cases e with
      | exception => exact enter_books clock mode s.world
      | crash => exact refl _
  | ok exit =>
      cases exit with
      | none =>
          show s.world.Books [] (next s).world
          rw [hnext]
          exact refl _
      | some again =>
          cases again with
          | false => exact refl _
          | true => exact replace_books clock app.tmp s.world

/-- The reader accepts every command of the round, and no amount below 0 is
typed. -/
structure Input.Accepted (inp : Input β) : Prop where
  sale : inp.sale.Accepted
  menu : inp.menu.Accepted
  amount : 0 ≤ inp.sale.amount

def entriesOf (cfg : Config) (inp : Input β) (app : Application β) :
    List Entry :=
  match app.running with
  | .bar s => Bar.entriesOf cfg inp.hash inp.sale s s.world.shop
  | .kve s => Kve.entriesOf cfg inp.sale s s.world.shop
  | .caisse s => Caisse.entriesOf cfg inp.sale s s.world.shop
  | .admin s => Admin.entriesOf cfg inp.menu s
  | .ended _ => []

theorem sale_books {L : Type} {p : LoopM L β Exit} {s : Loop L β}
    {entries : List Entry}
    (hnext : forall s', Loop.next (p s) = some s' ->
      s.world.Books entries s'.world)
    (hleave : forall s', p s = (.ok .leave, s') ->
      s.world.Books entries s'.world)
    (hcrash : (p s).1 ≠ .error .crash)
    (hexception : (p s).1 ≠ .error .exception) (clock : Int)
    (app : Application β) (mode : ConfigMode) {next : Loop L β -> Running β}
    (hworld : forall s, (next s).world = s.world) :
    s.world.Books entries
      (finish clock app mode next (returned p s)).world := by
  have hround : s.world.Books entries (p s).2.world := by
    rcases hrun : p s with ⟨result, s'⟩
    rw [hrun] at hcrash hexception hnext
    cases result with
    | error e =>
        cases e with
        | exception => exact absurd rfl hexception
        | crash => exact absurd rfl hcrash
    | ok exit =>
        cases exit with
        | next => exact hnext s' rfl
        | leave => exact hleave s' hrun
  have hfinish := finish_books clock app mode next hworld (returned p s)
  rw [returned_state] at hfinish
  exact hround.before hfinish

section Runs

variable [ExactFloat β] {cfg : Config}

theorem step_books (hcfg : cfg.PricesNonneg) {inp : Input β}
    (hinp : inp.Accepted) {app app' : Application β}
    (h : step cfg inp app = some app') :
    app.world.Books (entriesOf cfg inp app) app'.world := by
  rcases app with ⟨tmp, running⟩
  cases running with
  | bar s =>
      cases h
      exact sale_books (fun s' => Bar.step_books hcfg hinp.sale)
        (fun s' => Bar.round_leave hinp.sale)
        (Bar.round_ne_crash cfg inp.hash inp.sale s)
        (Bar.round_ne_exception cfg inp.hash inp.sale s) _ _ _ (fun _ => rfl)
  | kve s =>
      cases h
      exact sale_books (fun s' => Kve.step_books hinp.sale hinp.amount)
        (fun s' => Kve.round_leave hinp.sale)
        (Kve.round_ne_crash cfg inp.sale s)
        (Kve.round_ne_exception cfg inp.sale s) _ _ _ (fun _ => rfl)
  | caisse s =>
      cases h
      exact sale_books (fun s' => Caisse.step_books hinp.sale hinp.amount)
        (fun s' => Caisse.round_leave hinp.sale)
        (Caisse.round_ne_crash cfg inp.sale s)
        (Caisse.round_ne_exception cfg inp.sale s) _ _ _ (fun _ => rfl)
  | admin s =>
      cases h
      have hfinish := finish_books inp.clock ⟨tmp, .admin s⟩ .admin .admin
        (fun _ => rfl) (Admin.round cfg inp.menu s)
      exact (Admin.round_books cfg hinp.menu s).before hfinish
  | ended w => cases h

def booked (cfg : Config) (inputs : List (Input β)) (app : Application β) :
    List Entry :=
  (Run.transitions (step cfg) inputs app).flatMap fun r =>
    entriesOf cfg r.input r.before

theorem run_books (hcfg : cfg.PricesNonneg) {inputs : List (Input β)}
    (hinputs : forall inp, inp ∈ inputs -> inp.Accepted)
    {app last : Application β}
    (h : Run.head (step cfg) inputs app = some last) :
    app.world.Books (booked cfg inputs app) last.world := by
  apply Run.related_head
    (R := fun entries (a b : Application β) => a.world.Books entries b.world)
    (fun a => refl _) (fun _ _ _ _ _ ha hb => ha.trans hb) _ h
  intro r hr
  exact step_books hcfg (hinputs _ (Run.mem_transitions_input hr))
    (Run.mem_transitions_step hr)

end Runs

/-- In every run with a reader that accepts everything the records of the cards
and the rows in the databases are those of the entries that the rounds made one
after the other. -/
theorem books_of_run [ExactFloat β] {cfg : Config} (hcfg : cfg.PricesNonneg)
    {inputs : List (Input β)} (hinputs : forall inp, inp ∈ inputs -> inp.Accepted)
    {app last : Application β}
    (h : Run.head (step cfg) inputs app = some last) :
    Books.Allowed (booked cfg inputs app) app.world.shop ∧
      last.world.shop = Books.apply (booked cfg inputs app) app.world.shop ∧
      rows last.world.log =
        rows app.world.log ++ Books.posted (booked cfg inputs app) := by
  have hbooks := run_books hcfg hinputs h
  exact ⟨hbooks.cards.allowed, hbooks.cards.shop, hbooks.rows⟩

def selling (sale : BeeGadz.Input Rat) : Input Rat :=
  { Input.idle with sale := sale }

def kveBox : Application Rat :=
  start 0 (World.start (fun _ => Bar.tenAndTicket) .kve)

def ticketThenFour : List (Input Rat) :=
  [selling { tenAdded with key := 48 }, selling { tenAdded with amount := 4 }]

omit [FloatCell β] in
theorem selling_accepted {sale : BeeGadz.Input Rat} (h : sale.Accepted)
    (hamount : 0 ≤ sale.amount) : (selling sale).Accepted where
  sale := h
  menu := ⟨rfl, rfl⟩
  amount := hamount

theorem ticketThenFour_accepted :
    forall inp, inp ∈ ticketThenFour -> inp.Accepted := by
  intro inp hinp
  rcases List.mem_cons.mp hinp with rfl | hinp
  · exact selling_accepted ⟨rfl, rfl, rfl⟩ (by decide +kernel)
  · rw [List.mem_singleton.mp hinp]
    exact selling_accepted ⟨rfl, rfl, rfl⟩ (by decide +kernel)

theorem ticketThenFour_run :
    exists last, Run.head (step Bar.oneConso) ticketThenFour kveBox =
      some last := by
  apply Option.isSome_iff_exists.mp
  decide +kernel

theorem books_of_ticketThenFour :
    let entries := booked Bar.oneConso ticketThenFour kveBox
    exists last,
      Run.head (step Bar.oneConso) ticketThenFour kveBox = some last ∧
        rows last.world.log = rows kveBox.world.log ++ Books.posted entries ∧
        (Books.posted entries).map (fun sent => sent.2.kind) =
          [.ticket, .sale] := by
  intro entries
  rcases ticketThenFour_run with ⟨last, hlast⟩
  have hbooks := books_of_run Bar.oneConso_pricesNonneg
    ticketThenFour_accepted hlast
  exact ⟨last, hlast, hbooks.right.right, by decide +kernel⟩

/-- The credit of every card is what it was, with the top-ups and without the
sales that the databases were told, and without what was on a card when it was
issued again; and no credit gets below 0. -/
theorem credits_conserved [ExactFloat β] {cfg : Config}
    (hcfg : cfg.PricesNonneg) {inputs : List (Input β)}
    (hinputs : forall inp, inp ∈ inputs -> inp.Accepted)
    {app last : Application β}
    (h : Run.head (step cfg) inputs app = some last) :
    exists sent, rows last.world.log = rows app.world.log ++ sent ∧
      (forall uid, (last.world.shop uid).credit =
        (app.world.shop uid).credit + pricesOf .topUp uid sent -
          pricesOf .sale uid sent -
          Books.wiped uid (booked cfg inputs app) app.world.shop) ∧
      ((forall uid, 0 ≤ (app.world.shop uid).credit) ->
        forall uid, 0 ≤ (last.world.shop uid).credit) := by
  have hbooks := run_books hcfg hinputs h
  refine ⟨_, hbooks.rows, ?_, ?_⟩
  · intro uid
    have hcredit := Books.credit_apply hbooks.cards.allowed uid
    rw [World.shop, hbooks.cards.shop]
    exact hcredit
  · intro hstart uid
    rw [World.shop, hbooks.cards.shop]
    exact Books.nonneg_apply hbooks.cards.allowed hstart uid

theorem credits_conserved_of_ticketThenFour :
    exists last sent,
      Run.head (step Bar.oneConso) ticketThenFour kveBox = some last ∧
        rows last.world.log = rows kveBox.world.log ++ sent ∧
        forall uid, 0 ≤ (last.world.shop uid).credit ∧
          (last.world.shop uid).credit =
            (kveBox.world.shop uid).credit + pricesOf .topUp uid sent -
              pricesOf .sale uid sent -
              Books.wiped uid (booked Bar.oneConso ticketThenFour kveBox)
                kveBox.world.shop := by
  rcases ticketThenFour_run with ⟨last, hlast⟩
  rcases credits_conserved Bar.oneConso_pricesNonneg ticketThenFour_accepted
      hlast with ⟨sent, hsent, hcredits, hnonneg⟩
  have hstart : forall uid, 0 ≤ (kveBox.world.shop uid).credit := by
    intro uid
    show 0 ≤ (Memory.record Bar.tenAndTicket).credit
    decide +kernel
  exact ⟨last, sent, hlast, hsent,
    fun uid => ⟨hnonneg hstart uid, hcredits uid⟩⟩

/-- The tickets of every card are those that were there and those that Admin
gave, without those that were taken and those that were on a card when it was
issued again; and the databases are told of no ticket that was not taken. -/
theorem tickets_conserved [ExactFloat β] {cfg : Config}
    (hcfg : cfg.PricesNonneg) {inputs : List (Input β)}
    (hinputs : forall inp, inp ∈ inputs -> inp.Accepted)
    {app last : Application β}
    (h : Run.head (step cfg) inputs app = some last) :
    exists sent, rows last.world.log = rows app.world.log ++ sent ∧
      forall uid,
        let entries := booked cfg inputs app
        (last.world.shop uid).tickets.length +
            entries.countP (Entry.takes uid) +
            Books.spilled uid entries app.world.shop =
          (app.world.shop uid).tickets.length + Books.given uid entries ∧
        Entry.shown uid sent ≤ entries.countP (Entry.takes uid) := by
  have hbooks := run_books hcfg hinputs h
  refine ⟨_, hbooks.rows, ?_⟩
  intro uid entries
  constructor
  · have htickets := Books.tickets_apply hbooks.cards.allowed uid
    rw [World.shop, hbooks.cards.shop]
    exact htickets
  · exact Books.shown_posted hbooks.cards.allowed uid

theorem tickets_conserved_of_ticketThenFour :
    let entries := booked Bar.oneConso ticketThenFour kveBox
    exists last,
      Run.head (step Bar.oneConso) ticketThenFour kveBox = some last ∧
        entries.countP (Entry.takes fun _ => 1) = 1 ∧
        forall uid,
          (last.world.shop uid).tickets.length +
              entries.countP (Entry.takes uid) +
              Books.spilled uid entries kveBox.world.shop =
            (kveBox.world.shop uid).tickets.length +
              Books.given uid entries := by
  intro entries
  rcases ticketThenFour_run with ⟨last, hlast⟩
  rcases tickets_conserved Bar.oneConso_pricesNonneg ticketThenFour_accepted
      hlast with ⟨sent, _, htickets⟩
  exact ⟨last, hlast, by decide +kernel, fun uid => (htickets uid).left⟩

end Application

end BeeGadz
