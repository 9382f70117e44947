import BeeGadz.Foundation.Bits
import BeeGadz.Issued.Menu

/-!
# The cards that Admin makes

A CONSO card is made for the number that was typed, and a ticket for the conso
that the configuration names.  Both numbers are bytes on the card, where Bar
looks them up again.
-/

namespace BeeGadz

open Foundation

/-!
## CONSO cards
-/

namespace Admin

variable {β : Type} [FloatCell β]

theorem mem_consoRecord {c : Card β} {id : UInt8} {pass : Pass β} {uid : Uid}
    {f : Frame β} {ok : Bool} (hf : f.block = 5) :
    (uid, f, ok) ∈ (c.consoRecord id).writes pass <->
      c.Reaches pass 5 ∧
        (uid, f, ok) = (c.uid,
          Card.writeFrame 5 ((c.consoRecord id).block 1 1).data,
          (pass 5).write.ok) := by
  have hframe : Card.SameFrame c (c.consoRecord id) :=
    (Card.sameFrame_edit _ _ _).trans (Card.sameFrame_edit _ _ _)
  apply hframe.mem_writes (by decide : 1 < 4) ?_ hf
  intro j hj
  have hcases : j = 0 ∨ j = 1 := by
    omega
  rcases hcases with rfl | rfl
  · simp [Card.consoRecord, Card.editName, Card.edit_block]
  · simp [Card.consoRecord]

theorem getConso_of_written {c c' : Card β} {id : UInt8}
    (hconso : c'.isConso)
    (hblock : (c'.block 1 1).data = ((c.consoRecord id).block 1 1).data) :
    c'.getConso = id.toNat := by
  rw [Card.getConso, if_pos hconso, hblock, Card.consoRecord,
    Card.edit_block_self, Bytes.first_putFirst]

theorem consoRecord_isConso (c : Card β) (id : UInt8) :
    (c.consoRecord id).isConso := by
  rw [Card.isConso_iff, Card.consoRecord,
    Card.edit_block_of_ne _ _ (by decide : 0 ≠ 1), Card.editName,
    Card.edit_block_self]
  exact Bytes.says_putName _ .conso

/-- The number that is typed is let through, and the number of the card that is
found gets written. -/
def MakesConso (cfg : Config) (inp : Input β) (c : Card β) : Prop :=
  0 ≤ typed inp ∧ typed inp ≤ cfg.getNbConso ∧
    foundCard cfg inp = some c ∧ c.Reaches inp.writing 5

theorem mem_consoWrites {cfg : Config} {inp : Input β} {uid : Uid}
    {f : Frame β} {ok : Bool} (hf : f.block = 5) :
    (uid, f, ok) ∈ consoWrites cfg inp <->
      exists c, MakesConso cfg inp c ∧
        (uid, f, ok) = (c.uid, Card.writeFrame 5
          ((c.consoRecord (UInt8.ofInt (typed inp))).block 1 1).data,
          (inp.writing 5).write.ok) := by
  unfold consoWrites MakesConso
  by_cases hrange : typed inp < 0 ∨ typed inp > cfg.getNbConso
  · rw [if_pos hrange]
    constructor
    · intro h
      cases h
    · intro hall
      rcases hall with ⟨c, ⟨hle, hlt, _⟩, _⟩
      omega
  · rw [if_neg hrange]
    have hbounds : 0 ≤ typed inp ∧ typed inp ≤ cfg.getNbConso := by
      omega
    cases hfound : foundCard cfg inp with
    | none =>
        constructor
        · intro h
          cases h
        · intro hall
          rcases hall with ⟨c, ⟨_, _, hcard, _⟩, _⟩
          cases hcard
    | some c =>
        rw [mem_consoRecord hf]
        constructor
        · intro hall
          rcases hall with ⟨hreach, hsent⟩
          exact ⟨c, ⟨hbounds.left, hbounds.right, rfl, hreach⟩, hsent⟩
        · intro hall
          rcases hall with ⟨c', ⟨_, _, hcard, hreach⟩, hsent⟩
          cases hcard
          exact ⟨hreach, hsent⟩

end Admin

namespace Application

variable {β : Type} [FloatCell β]

/-- The `MC_WRITE`s of a round. -/
def sent (r : Transition (Input β) (Application β)) :
    List (Uid × Frame β × Bool) :=
  sentWrites (r.before.world.since r.after.world)

/-- From any CONSO card with the number that is written in the menu of consos
Bar reads the number that was typed, and finds its conso. -/
def ConsoSold (cfg : Config) (r : Transition (Input β) (Application β)) :
    Prop :=
  forall s, r.before.running = .admin s -> s.locals = .create ->
    r.input.menu.key = 49 ->
    forall uid f ok, (uid, f, ok) ∈ sent r -> f.block = 5 ->
    forall c : Card β, c.isConso -> List.ofFn (c.block 1 1).data = f.param ->
      c.getConso = Admin.typed r.input.menu ∧
        c.getConso < cfg.getNbConso ∧
        exists conso, cfg.getConso c.getConso.toNat = .ok conso

/-- The number of a conso that is made in the menu is the number of a conso, and
a byte. -/
def ConsoListed (cfg : Config) (r : Transition (Input β) (Application β)) :
    Prop :=
  forall s, r.before.running = .admin s -> s.locals = .create ->
    r.input.menu.key = 49 ->
    forall c, Admin.MakesConso cfg r.input.menu c ->
      Admin.typed r.input.menu < cfg.getNbConso ∧
        Admin.typed r.input.menu < 256

theorem sent_of_round {cfg : Config}
    {r : Transition (Input β) (Application β)} {s : Loop Admin.Menu β}
    {writes : List (Uid × Frame β × Bool)}
    (hstep : step cfg r.input r.before = some r.after)
    (hs : r.before.running = .admin s)
    (h : s.world.Sends (Admin.round cfg r.input.menu s).2.world writes) :
    sent r = writes := by
  rw [step, hs] at hstep
  have hafter : (Admin.round cfg r.input.menu s).2.world.Confined []
      r.after.world := by
    rw [← Option.some.inj hstep]
    exact finish_confined r.input.clock r.before .admin .admin (fun _ => rfl) _
  have hbefore : r.before.world = s.world := by
    rw [world, hs]
    rfl
  rw [sent, hbefore]
  exact (h.quiet hafter.sends).since

theorem consoSold_iff {cfg : Config}
    {r : Transition (Input β) (Application β)}
    (hstep : step cfg r.input r.before = some r.after) :
    ConsoSold cfg r <-> ConsoListed cfg r := by
  have hsent : forall s, r.before.running = .admin s -> s.locals = .create ->
      r.input.menu.key = 49 -> sent r = Admin.consoWrites cfg r.input.menu :=
    fun s hs hmenu hkey =>
      sent_of_round hstep hs (Admin.round_conso cfg r.input.menu hmenu hkey)
  constructor
  · intro h s hs hmenu hkey c hmakes
    let made := c.consoRecord (UInt8.ofInt (Admin.typed r.input.menu))
    have hmem : (c.uid, Card.writeFrame 5 (made.block 1 1).data,
        (r.input.menu.writing 5).write.ok) ∈ sent r := by
      rw [hsent s hs hmenu hkey, Admin.mem_consoWrites rfl]
      exact ⟨c, hmakes, rfl⟩
    have hconso := Admin.consoRecord_isConso c
      (UInt8.ofInt (Admin.typed r.input.menu))
    rcases h s hs hmenu hkey _ _ _ hmem rfl made hconso rfl with
      ⟨htyped, hlt, _⟩
    have hid := Admin.getConso_of_written hconso rfl
    rw [htyped] at hlt hid
    exact ⟨hlt, (toNat_ofInt_eq_iff.mp hid.symm).right⟩
  · intro h s hs hmenu hkey uid f ok hmem hf c hconso hbytes
    rw [hsent s hs hmenu hkey, Admin.mem_consoWrites hf] at hmem
    rcases hmem with ⟨found, hmakes, hwrite⟩
    rcases h s hs hmenu hkey found hmakes with ⟨hlt, hbyte⟩
    have hparam : f.param = _ := congrArg (fun sent => sent.2.1.param) hwrite
    have hblock := List.ofFn_injective (hbytes.trans hparam)
    have hid : c.getConso = Admin.typed r.input.menu := by
      rw [Admin.getConso_of_written hconso hblock]
      exact toNat_ofInt_eq_iff.mpr ⟨hmakes.left, hbyte⟩
    have hlisted : (Admin.typed r.input.menu).toNat < cfg.getNbConso := by
      have hle := hmakes.left
      omega
    rcases Config.getConso_ok hlisted with ⟨conso, hok, _⟩
    rw [hid]
    exact ⟨rfl, hlt, conso, hok⟩

/-- In a run of the application Bar sells from every CONSO card that was made,
exactly when no number is typed for one that is not that of a conso. -/
theorem conso_cards_sold_iff (cfg : Config) (clock : Int) (w : World β)
    (is : List (Input β)) :
    (forall r, r ∈ Run.transitions (step cfg) is (start clock w) ->
        ConsoSold cfg r) <->
      forall r, r ∈ Run.transitions (step cfg) is (start clock w) ->
        ConsoListed cfg r :=
  forall₂_congr fun _ hr => consoSold_iff (Run.mem_transitions_step hr)

def chosen (key conso ticket : Int) : Input Rat :=
  { Input.idle with
    menu :=
      { Input.idle.menu with
        key := key
        conso := conso
        ticket := ticket
        found := some ⟨fun _ => 1, 0x4⟩ } }

omit [FloatCell β] in
theorem reaches_accepts [Cell β] (c : Card β) (a : Nat) :
    c.Reaches Session.accepts a :=
  ⟨fun _ _ _ => c.storeLost_accepting, c.authResult_accepting⟩

theorem opened_menu (cfg : Config) (inp : Input Rat) (w : World Rat)
    (hw : w.mode = .admin) :
    exists r, r ∈ Run.transitions (step cfg) [chosen 51 0 0, inp]
        (start 0 w) ∧
      r.input = inp ∧
      exists s, r.before.running = .admin s ∧ s.locals = .create := by
  have hopen : exists app s, step cfg (chosen 51 0 0) (start 0 w) = some app ∧
      app.running = .admin s ∧ s.locals = .create := by
    rcases w with ⟨mem, mode, screen, log⟩
    cases hw
    exact ⟨_, _, rfl, rfl, rfl⟩
  rcases hopen with ⟨app, s, hfirst, hrunning, hmenu⟩
  let app' : Application Rat := finish inp.clock app .admin .admin
    (Admin.round cfg inp.menu s)
  have hsecond : step cfg inp app = some app' := by
    rw [step, hrunning]
  refine ⟨⟨app, inp, app'⟩, ?_, rfl, s, hrunning, hmenu⟩
  rw [Run.mem_transitions_cons]
  refine ⟨app, hfirst, Or.inr ?_⟩
  rw [Run.transitions_single hsecond]
  exact List.mem_singleton.mpr rfl

theorem conso_card_past_the_last :
    let cfg : Config :=
      ⟨[("Biere", 2)], "", -1, Vec.replicate 6 0xff, Vec.replicate 6 0xff⟩
    let w : World Rat := World.start (fun _ _ _ => 0) .admin
    exists r, r ∈ Run.transitions (step cfg) [chosen 51 0 0, chosen 49 49 0]
        (start 0 w) ∧ ¬ ConsoSold cfg r := by
  intro cfg w
  rcases opened_menu cfg (chosen 49 49 0) w rfl with
    ⟨r, hr, hinput, s, hs, hmenu⟩
  refine ⟨r, hr, ?_⟩
  rw [consoSold_iff (Run.mem_transitions_step hr)]
  intro hlisted
  have hmakes : Admin.MakesConso cfg r.input.menu
      (Card.fresh ⟨fun _ => 1, 0x4⟩ (cfg.getKeys true)) := by
    rw [hinput]
    exact ⟨by decide, by decide, rfl, reaches_accepts _ _⟩
  have hkey : r.input.menu.key = 49 := by
    rw [hinput]
    rfl
  have hlast := (hlisted s hs hmenu hkey _ hmakes).left
  rw [hinput] at hlast
  exact absurd hlast (by decide)

end Application

/-!
## Tickets
-/

/-- The configuration when the file gives this name under `"ticket"`. -/
def Config.withTicket (cfg : Config) (value : String) : Config :=
  { cfg with ticket := Config.ticketEntry cfg.consos value }

def Config.position (cfg : Config) (value : String) : Option Nat :=
  cfg.consos.findIdx? fun i => i.1 == value

namespace Config

theorem position_lt {cfg : Config} {value : String} {i : Nat}
    (h : cfg.position value = some i) :
    exists conso, cfg.getConso i = .ok conso ∧ conso.1 = value := by
  rcases List.findIdx?_eq_some_iff_getElem.mp h with ⟨hlt, hname, _⟩
  refine ⟨cfg.consos[i], ?_, by simpa using hname⟩
  rw [getConso_eq_ok]
  exact List.getElem?_eq_getElem hlt

/-- What `std::stoi` makes of the entry of no conso. -/
theorem stoi_of_none {cfg : Config} {value : String}
    (h : cfg.position value = none) :
    stoi (cfg.withTicket value).ticket = .ok (-1) := by
  have hentry : (cfg.withTicket value).ticket = -1 := by
    rw [position] at h
    rw [withTicket, ticketEntry, h]
  rw [hentry]
  rfl

theorem stoi_of_some {cfg : Config} {value : String} {i : Nat}
    (h : cfg.position value = some i) :
    stoi (cfg.withTicket value).ticket =
      if i ≤ 2147483647 then .ok (i : Int) else .error .exception := by
  have hentry : (cfg.withTicket value).ticket = i := by
    rw [position] at h
    rw [withTicket, ticketEntry, h]
  rw [hentry, stoi]
  apply ite_congr _ (fun _ => rfl) (fun _ => rfl)
  apply propext
  omega

theorem stoi_eq_ok {cfg : Config} {value : String} {i : Nat} {id : Int}
    (h : cfg.position value = some i)
    (hid : stoi (cfg.withTicket value).ticket = .ok id) :
    i ≤ 2147483647 ∧ id = i := by
  rw [stoi_of_some h] at hid
  split at hid
  · rename_i hint
    exact ⟨hint, (Except.ok.inj hid).symm⟩
  · cases hid

end Config

namespace Admin

variable {β : Type} [FloatCell β]

def MakesTicket (cfg : Config) (inp : Input β) (c : Card β) : Prop :=
  inp.ticket = 49 ∧ foundCard cfg inp = some c ∧ c.Reaches inp.ticketing 6

theorem mem_debitRecord {c c' : Card β} {pass : Pass β} {uid : Uid}
    {f : Frame β} {ok : Bool} (hf : f.block = 6)
    (hmem : (uid, f, ok) ∈ c.debitRecord.writes pass)
    (hbytes : List.ofFn (c'.block 1 2).data = f.param) : ¬ c'.hasTicket := by
  rw [(sameFrame_debitRecord c).mem_writes (by decide : 2 < 4)
    (fun j hj => debitRecord_modified c (by omega)) hf] at hmem
  have hparam : f.param = _ := congrArg (fun sent => sent.2.1.param) hmem.right
  have hblock := List.ofFn_injective (hbytes.trans hparam)
  intro hall
  rcases hall with ⟨_, hfirst⟩
  rw [hblock, debitRecord_ticket, Bytes.first_putSecond,
    Bytes.first_putFirst] at hfirst
  exact hfirst rfl

theorem mem_ticketRecord {c : Card β} {id : UInt8} {pass : Pass β} {uid : Uid}
    {f : Frame β} {ok : Bool} (hf : f.block = 6) :
    (uid, f, ok) ∈ (c.debitRecord.ticketRecord id).writes pass <->
      c.Reaches pass 6 ∧
        (uid, f, ok) = (c.uid, Card.writeFrame 6
          ((c.debitRecord.ticketRecord id).block 1 2).data,
          (pass 6).write.ok) := by
  have hframe : Card.SameFrame c (c.debitRecord.ticketRecord id) :=
    (sameFrame_debitRecord c).trans (Card.sameFrame_edit _ _ _)
  apply hframe.mem_writes (by decide : 2 < 4) ?_ hf
  intro j hj
  by_cases hlast : j = 2
  · rw [hlast, Card.ticketRecord, Card.edit_block_self]
  · rw [Card.ticketRecord, Card.edit_block_of_ne _ _ hlast]
    exact debitRecord_modified c (by omega)

theorem getTicket_of_written {c c' : Card β} {id : UInt8}
    (hticket : c'.hasTicket)
    (hblock : (c'.block 1 2).data =
      ((c.debitRecord.ticketRecord id).block 1 2).data) :
    c'.getTicket = id := by
  rw [Card.getTicket, if_pos hticket, hblock, Card.ticketRecord,
    Card.edit_block_self, Bytes.second_putSecond]

theorem ticketRecord_hasTicket (c : Card β) (id : UInt8) :
    (c.debitRecord.ticketRecord id).hasTicket := by
  refine ⟨?_, ?_⟩
  · rw [Card.isDebit_iff, Card.ticketRecord,
      Card.edit_block_of_ne _ _ (by decide), debitRecord_name]
    exact Bytes.says_putName _ .debit
  · rw [Card.ticketRecord, Card.edit_block_self, Bytes.first_putSecond,
      Bytes.first_putFirst]
    decide

theorem mem_ticketWrites {cfg : Config} {inp : Input β} {c : Card β}
    {uid : Uid} {f : Frame β} {ok : Bool} (hf : f.block = 6) :
    (uid, f, ok) ∈ ticketWrites cfg inp c <->
      exists id, Config.stoi cfg.ticket = .ok id ∧ inp.ticket = 49 ∧
        c.Reaches inp.ticketing 6 ∧
        (uid, f, ok) = (c.uid, Card.writeFrame 6
          ((c.debitRecord.ticketRecord (UInt8.ofInt id)).block 1 2).data,
          (inp.ticketing 6).write.ok) := by
  unfold ticketWrites
  by_cases hwants : inp.ticket = 49
  · rw [if_pos hwants]
    cases hid : Config.stoi cfg.ticket with
    | error e => simp
    | ok id => simp [mem_ticketRecord hf, hwants]
  · simp [hwants]

end Admin

namespace Application

variable {β : Type} [FloatCell β]

/-- A ticket that is read from a DEBIT card with a block that is written for it
is one for the conso of the configured name. -/
def TicketMeant (cfg : Config) (value : String)
    (r : Transition (Input β) (Application β)) : Prop :=
  forall s, r.before.running = .admin s -> s.locals = .create ->
    r.input.menu.key = 50 ->
    forall uid f ok, (uid, f, ok) ∈ sent r -> f.block = 6 ->
    forall c : Card β, c.hasTicket -> List.ofFn (c.block 1 2).data = f.param ->
      cfg.position value = some c.getTicket.toNat ∧
        exists conso, cfg.getConso c.getTicket.toNat = .ok conso ∧
          conso.1 = value

/-- A ticket is only written for the name of a conso whose position is a byte,
or no `int`. -/
def TicketListed (cfg : Config) (value : String)
    (r : Transition (Input β) (Application β)) : Prop :=
  forall s, r.before.running = .admin s -> s.locals = .create ->
    r.input.menu.key = 50 ->
    forall c, Admin.MakesTicket cfg r.input.menu c ->
      exists i, cfg.position value = some i ∧ (i < 256 ∨ 2147483647 < i)

theorem ticketMeant_iff {cfg : Config} {value : String}
    {r : Transition (Input β) (Application β)}
    (hstep : step (cfg.withTicket value) r.input r.before = some r.after) :
    TicketMeant cfg value r <-> TicketListed cfg value r := by
  have hsent : forall s, r.before.running = .admin s -> s.locals = .create ->
      r.input.menu.key = 50 ->
      sent r = Admin.debitWrites (cfg.withTicket value) r.input.menu :=
    fun s hs hmenu hkey => sent_of_round hstep hs
      (Admin.round_debit (cfg.withTicket value) r.input.menu hmenu hkey)
  constructor
  · intro h s hs hmenu hkey c hmakes
    rcases hmakes with ⟨hwants, hfound, hreach⟩
    have hwritten : forall id,
        Config.stoi (cfg.withTicket value).ticket = .ok id ->
          cfg.position value = some (UInt8.ofInt id).toNat := by
      intro id hid
      let made := c.debitRecord.ticketRecord (UInt8.ofInt id)
      have hmem : (c.uid, Card.writeFrame 6 (made.block 1 2).data,
          (r.input.menu.ticketing 6).write.ok) ∈ sent r := by
        have hcard : Admin.foundCard (cfg.withTicket value) r.input.menu =
            some c := hfound
        rw [hsent s hs hmenu hkey, Admin.debitWrites, hcard]
        apply List.mem_append_right
        rw [Admin.mem_ticketWrites rfl]
        exact ⟨id, hid, hwants, hreach, rfl⟩
      have hticket := Admin.ticketRecord_hasTicket c (UInt8.ofInt id)
      have hmeant := (h s hs hmenu hkey _ _ _ hmem rfl made hticket rfl).left
      rwa [Admin.getTicket_of_written hticket rfl] at hmeant
    cases hposition : cfg.position value with
    | none =>
        have hid := hwritten _ (Config.stoi_of_none hposition)
        rw [hposition] at hid
        cases hid
    | some i =>
        refine ⟨i, rfl, ?_⟩
        by_cases hint : i ≤ 2147483647
        · have hid := hwritten i
            ((Config.stoi_of_some hposition).trans (if_pos hint))
          rw [hposition] at hid
          have hbyte := (UInt8.ofInt i).toNat_lt
          rw [← Option.some.inj hid] at hbyte
          exact Or.inl hbyte
        · exact Or.inr (by omega)
  · intro h s hs hmenu hkey uid f ok hmem hf c hticket hbytes
    rw [hsent s hs hmenu hkey, Admin.debitWrites] at hmem
    cases hfound : Admin.foundCard (cfg.withTicket value) r.input.menu with
    | none =>
        rw [hfound] at hmem
        cases hmem
    | some found =>
        rw [hfound] at hmem
        cases List.mem_append.mp hmem with
        | inl hdebit =>
            exact absurd hticket (Admin.mem_debitRecord hf hdebit hbytes)
        | inr hwrite =>
            rcases (Admin.mem_ticketWrites hf).mp hwrite with
              ⟨id, hid, hwants, hreach, heq⟩
            rcases h s hs hmenu hkey found ⟨hwants, hfound, hreach⟩ with
              ⟨i, hposition, hrange⟩
            have hparam : f.param = _ :=
              congrArg (fun sent => sent.2.1.param) heq
            have hblock := List.ofFn_injective (hbytes.trans hparam)
            rcases Config.stoi_eq_ok hposition hid with ⟨hint, rfl⟩
            have hnumber : c.getTicket.toNat = i := by
              rw [Admin.getTicket_of_written hticket hblock]
              have hbyte : ((UInt8.ofInt i).toNat : Int) = i :=
                toNat_ofInt_eq_iff.mpr (by omega)
              omega
            rw [hnumber]
            exact ⟨hposition, Config.position_lt hposition⟩

/-- In a run of the application every ticket that is written is one for the
conso of the configured name, exactly when that conso has a position that fits
whenever a ticket gets written. -/
theorem tickets_meant_iff (cfg : Config) (value : String) (clock : Int)
    (w : World β) (is : List (Input β)) :
    (forall r, r ∈ Run.transitions (step (cfg.withTicket value)) is
        (start clock w) -> TicketMeant cfg value r) <->
      forall r, r ∈ Run.transitions (step (cfg.withTicket value)) is
        (start clock w) -> TicketListed cfg value r :=
  forall₂_congr fun _ hr => ticketMeant_iff (Run.mem_transitions_step hr)

/-- Without a conso of the configured name the ticket is one for number 255. -/
theorem ticket_of_no_conso :
    let cfg : Config :=
      ⟨[("Biere", 2)], "", -1, Vec.replicate 6 0xff, Vec.replicate 6 0xff⟩
    let w : World Rat := World.start (fun _ _ _ => 0) .admin
    exists r, r ∈ Run.transitions (step (cfg.withTicket "Coca"))
        [chosen 51 0 0, chosen 50 0 49] (start 0 w) ∧
      ¬ TicketMeant cfg "Coca" r := by
  intro cfg w
  rcases opened_menu (cfg.withTicket "Coca") (chosen 50 0 49) w rfl with
    ⟨r, hr, hinput, s, hs, hmenu⟩
  refine ⟨r, hr, ?_⟩
  rw [ticketMeant_iff (Run.mem_transitions_step hr)]
  intro hlisted
  have hmakes : Admin.MakesTicket cfg r.input.menu
      (Card.fresh ⟨fun _ => 1, 0x4⟩ (cfg.getKeys true)) := by
    rw [hinput]
    exact ⟨rfl, rfl, reaches_accepts _ _⟩
  have hkey : r.input.menu.key = 50 := by
    rw [hinput]
    rfl
  rcases hlisted s hs hmenu hkey _ hmakes with ⟨i, hposition, _⟩
  have hnone : cfg.position "Coca" = none := by
    decide
  rw [hnone] at hposition
  cases hposition

end Application

end BeeGadz
