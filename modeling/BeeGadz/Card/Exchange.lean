import BeeGadz.Card.Write
import BeeGadz.Foundation.Guarded

/-!
# What a pass exchanges

The log of a read or write pass, read back: which bytes were received, which
blocks were sent, and that an accepted authentication of the same address comes
directly before.
-/

namespace BeeGadz

open Foundation

namespace Event

variable {β : Type}

/-- A key was authenticated for the block at address `a`. -/
def Authenticates (uid : Uid) (a : Nat) (e : Event β) : Prop :=
  exists f : Frame β,
    e = .frame uid f true ∧ (f.cmd = .authA ∨ f.cmd = .authB) ∧ f.block = a

/-- The `MC_WRITE` frame that was sent, and whether it was accepted. -/
def written : Event β -> Option (Uid × Frame β × Bool)
  | .frame uid f ok => if f.cmd = .write then some (uid, f, ok) else none
  | _ => none

def bytes : Event β -> Option (Uid × Nat × Bytes β 16)
  | .received uid a data => some (uid, a, data)
  | _ => none

def isCommand : Event β -> Bool
  | .scan _ => true
  | .select _ _ => true
  | .key _ => true
  | .frame _ _ _ => true
  | .error _ => true
  | _ => false

def onWire : Event β -> Bool
  | .received _ _ _ => true
  | e => e.isCommand

theorem onWire_of_isCommand {e : Event β} (h : e.isCommand = true) :
    e.onWire = true := by
  cases e <;> first | rfl | exact h

theorem written_eq_some {e : Event β} {uid : Uid} {f : Frame β} {ok : Bool} :
    e.written = some (uid, f, ok) <->
      e = .frame uid f ok ∧ f.cmd = .write := by
  cases e with
  | frame u g b =>
      by_cases hg : g.cmd = .write
      · simp only [written, if_pos hg, Option.some.injEq, Prod.mk.injEq,
          frame.injEq]
        constructor
        · intro hall
          rcases hall with ⟨hu, hf, hb⟩
          exact ⟨⟨hu, hf, hb⟩, hf ▸ hg⟩
        · intro hboth
          rcases hboth with ⟨h, _⟩
          exact h
      · simp only [written, if_neg hg, reduceCtorEq, false_iff, frame.injEq]
        intro hall
        rcases hall with ⟨⟨_, hf, _⟩, hcmd⟩
        exact hg (hf ▸ hcmd)
  | _ => simp [written]

end Event

/-- The `MC_WRITE` commands of a log. -/
def sentWrites {β : Type} (events : List (Event β)) :
    List (Uid × Frame β × Bool) :=
  events.filterMap Event.written

/-- Every `MC_WRITE` of a log comes directly after an accepted authentication
of its address. -/
def WritesGuarded {β : Type} (events : List (Event β)) : Prop :=
  forall before uid f ok after,
    events = before ++ .frame uid f ok :: after -> f.cmd = .write ->
      exists front e, before = front ++ [e] ∧ e.Authenticates uid f.block

section Logs

variable {β : Type}

@[simp] theorem sentWrites_nil : sentWrites ([] : List (Event β)) = [] := rfl

@[simp] theorem sentWrites_append (first second : List (Event β)) :
    sentWrites (first ++ second) = sentWrites first ++ sentWrites second := by
  simp [sentWrites]

theorem mem_sentWrites {events : List (Event β)} {uid : Uid} {f : Frame β}
    {ok : Bool} :
    (uid, f, ok) ∈ sentWrites events <->
      .frame uid f ok ∈ events ∧ f.cmd = .write := by
  simp only [sentWrites, List.mem_filterMap, Event.written_eq_some]
  constructor
  · intro hall
    rcases hall with ⟨e, he, rfl, hcmd⟩
    exact ⟨he, hcmd⟩
  · intro hall
    rcases hall with ⟨he, hcmd⟩
    exact ⟨_, he, rfl, hcmd⟩

/-- An accepted authentication of the same address comes directly before, if the
event is a write. -/
def Event.GuardedBy (before : List (Event β)) (e : Event β) : Prop :=
  forall uid f ok, e = .frame uid f ok -> f.cmd = .write ->
    exists front e', before = front ++ [e'] ∧ e'.Authenticates uid f.block

theorem writesGuarded_iff {events : List (Event β)} :
    WritesGuarded events <-> Guarded Event.GuardedBy events := by
  constructor
  · intro h before e after hevents uid f ok he
    exact h before uid f ok after (by rw [hevents, he])
  · intro h before uid f ok after hevents
    exact h before _ after hevents uid f ok rfl

theorem Event.guardedBy_of_written {e : Event β} (h : e.written = none)
    (before : List (Event β)) : e.GuardedBy before := by
  intro uid f ok he hcmd
  rw [he] at h
  simp [Event.written, hcmd] at h

theorem guarded_of_none {events : List (Event β)}
    (h : sentWrites events = []) (front : List (Event β)) :
    Guarded (fun before e => Event.GuardedBy (front ++ before) e) events := by
  apply guarded_of_forall
  intro e he before
  exact e.guardedBy_of_written (List.filterMap_eq_nil_iff.mp h e he) _

theorem writesGuarded_of_none {events : List (Event β)}
    (h : sentWrites events = []) : WritesGuarded events :=
  writesGuarded_iff.mpr (guarded_of_none h [])

theorem WritesGuarded.append {first second : List (Event β)}
    (hfirst : WritesGuarded first) (hsecond : WritesGuarded second) :
    WritesGuarded (first ++ second) := by
  rw [writesGuarded_iff] at hfirst hsecond ⊢
  apply guarded_append ?_ hfirst hsecond
  intro front before e h uid f ok he hcmd
  rcases h uid f ok he hcmd with ⟨middle, e', hbefore, hauth⟩
  exact ⟨front ++ middle, e', by rw [hbefore, List.append_assoc], hauth⟩

theorem Event.Authenticates.written {uid : Uid} {a : Nat} {e : Event β}
    (h : e.Authenticates uid a) : e.written = none := by
  rcases h with ⟨f, rfl, hcmd | hcmd, _⟩
  · simp [Event.written, hcmd]
  · simp [Event.written, hcmd]

theorem writesGuarded_single {front rest : List (Event β)} {e : Event β}
    {uid : Uid} {f : Frame β} {ok : Bool} (hfront : sentWrites front = [])
    (hrest : sentWrites rest = []) (he : e.Authenticates uid f.block) :
    WritesGuarded (front ++ [e] ++ .frame uid f ok :: rest) := by
  have hwrite : Event.GuardedBy [e] (.frame uid f ok) := by
    intro u g b heq _
    cases heq
    exact ⟨[], e, rfl, he⟩
  have hlast : WritesGuarded (e :: .frame uid f ok :: rest) := by
    apply writesGuarded_iff.mpr
    apply guarded_cons (e.guardedBy_of_written he.written [])
    exact guarded_cons hwrite (guarded_of_none hrest [e, .frame uid f ok])
  rw [List.append_assoc]
  exact (writesGuarded_of_none hfront).append hlast

end Logs

namespace Card

variable {β : Type} [Cell β]

/-!
## Authentications
-/

/-- An event of the loop of `authenticate`. -/
def AuthEvent (c : Card β) (block : Nat) (e : Event β) : Prop :=
  (exists i, e = .key i) ∨
    (exists j ok, e = .frame c.uid (c.authFrame block j) ok) ∨
    (exists present, e = .select c.uid present) ∨
    exists message, e = .error message

theorem authFrame_cmd (c : Card β) (block j : Nat) :
    (c.authFrame block j).cmd = .authA ∨
      (c.authFrame block j).cmd = .authB := by
  unfold authFrame
  by_cases h : (c.data.get (c.calculateSector block).1).keyB
  · exact Or.inr (by simp [h])
  · exact Or.inl (by simp [h])

theorem authEvent_of_mem_authRound {c : Card β} {a : Answers β}
    {block j : Nat} {rest : List (Event β)} {e : Event β}
    (hrest : forall e, e ∈ rest -> c.AuthEvent block e)
    (he : e ∈ c.authRound a block j rest) : c.AuthEvent block e := by
  simp only [authRound, List.mem_cons] at he
  rcases he with rfl | rfl | he
  · exact Or.inl ⟨_, rfl⟩
  · exact Or.inr (Or.inl ⟨_, _, rfl⟩)
  · split at he
    · cases he
    · split at he
      · rcases List.mem_cons.mp he with rfl | he
        · exact Or.inr (Or.inr (Or.inl ⟨_, rfl⟩))
        · exact hrest e he
      · simp only [List.mem_cons, List.not_mem_nil, or_false] at he
        rcases he with rfl | rfl
        · exact Or.inr (Or.inr (Or.inl ⟨_, rfl⟩))
        · exact Or.inr (Or.inr (Or.inr ⟨_, rfl⟩))

theorem authEvent_of_mem_authRounds {c : Card β} {a : Answers β}
    {block more j : Nat} {e : Event β}
    (he : e ∈ c.authRounds a block more j) : c.AuthEvent block e := by
  induction more generalizing j e with
  | zero =>
      apply authEvent_of_mem_authRound ?_ he
      intro e he
      rw [List.mem_singleton.mp he]
      exact Or.inr (Or.inr (Or.inr ⟨_, rfl⟩))
  | succ more ih => exact authEvent_of_mem_authRound (fun _ he => ih he) he

theorem authEvent_of_mem {c : Card β} {a : Answers β} {block : Nat}
    {e : Event β} (he : e ∈ c.authEvents a block) : c.AuthEvent block e :=
  authEvent_of_mem_authRounds he

theorem AuthEvent.written {c : Card β} {block : Nat} {e : Event β}
    (h : c.AuthEvent block e) : e.written = none := by
  rcases h with ⟨i, rfl⟩ | ⟨j, ok, rfl⟩ | ⟨present, rfl⟩ | ⟨message, rfl⟩
  · rfl
  · rcases c.authFrame_cmd block j with hcmd | hcmd
    · simp [Event.written, hcmd]
    · simp [Event.written, hcmd]
  · rfl
  · rfl

theorem AuthEvent.bytes {c : Card β} {block : Nat} {e : Event β}
    (h : c.AuthEvent block e) : e.bytes = none := by
  rcases h with ⟨i, rfl⟩ | ⟨j, ok, rfl⟩ | ⟨present, rfl⟩ | ⟨message, rfl⟩ <;>
    rfl

theorem AuthEvent.isCommand {c : Card β} {block : Nat} {e : Event β}
    (h : c.AuthEvent block e) : e.isCommand = true := by
  rcases h with ⟨i, rfl⟩ | ⟨j, ok, rfl⟩ | ⟨present, rfl⟩ | ⟨message, rfl⟩ <;>
    rfl

@[simp] theorem isCommand_authEvents (c : Card β) (a : Answers β)
    (block : Nat) : (c.authEvents a block).all Event.isCommand = true := by
  rw [List.all_eq_true]
  exact fun e he => (authEvent_of_mem he).isCommand

@[simp] theorem onWire_authEvents (c : Card β) (a : Answers β)
    (block : Nat) : (c.authEvents a block).all Event.onWire = true := by
  rw [List.all_eq_true]
  exact fun e he => Event.onWire_of_isCommand (authEvent_of_mem he).isCommand

@[simp] theorem sentWrites_authEvents (c : Card β) (a : Answers β)
    (block : Nat) : sentWrites (c.authEvents a block) = [] := by
  rw [sentWrites, List.filterMap_eq_nil_iff]
  exact fun e he => (authEvent_of_mem he).written

theorem received_not_mem_authEvents (c : Card β) (a : Answers β)
    (block : Nat) (uid : Uid) (b : Nat) (data : Bytes β 16) :
    .received uid b data ∉ c.authEvents a block := by
  intro h
  simpa [Event.bytes] using (authEvent_of_mem h).bytes

theorem authRounds_accepted {c : Card β} {a : Answers β}
    {block more j : Nat} (h : a.authFrom more j = .accepted) :
    exists front e, c.authRounds a block more j = front ++ [e] ∧
      e.Authenticates c.uid (block % 256) := by
  have haccepted : forall j, (a.auth j).ok = true -> forall rest,
      exists front e, c.authRound a block j rest = front ++ [e] ∧
        e.Authenticates c.uid (block % 256) := by
    intro j hok rest
    exact ⟨[.key (6 * j)], .frame c.uid (c.authFrame block j) true,
      by simp [authRound, hok], _, rfl, c.authFrame_cmd block j, rfl⟩
  induction more generalizing j with
  | zero =>
      by_cases hok : (a.auth j).ok = true
      · exact haccepted j hok _
      · by_cases hselected : a.selected j <;>
          simp [Answers.authFrom, hok, hselected] at h
  | succ more ih =>
      by_cases hok : (a.auth j).ok = true
      · exact haccepted j hok _
      · by_cases hselected : a.selected j = true
        · simp only [Answers.authFrom, hok, hselected, if_true, if_false,
            Bool.false_eq_true] at h
          rcases ih h with ⟨front, e, hfront, he⟩
          refine ⟨.key (6 * j) :: .frame c.uid (c.authFrame block j) false ::
            .select c.uid true :: front, e, ?_, he⟩
          simp [authRounds, authRound, hok, hselected, hfront]
        · simp [Answers.authFrom, hok, hselected] at h

theorem authEvents_accepted {c : Card β} {a : Answers β} (block : Nat)
    (h : c.authResult a = .accepted) :
    exists front e, c.authEvents a block = front ++ [e] ∧
      e.Authenticates c.uid (block % 256) :=
  authRounds_accepted h

/-!
## Reading
-/

theorem sentWrites_loadEvents (c : Card β) (a : Answers β) (block : Nat)
    (data : Bytes β 16) : sentWrites (c.loadEvents a block data) = [] := by
  cases hauth : c.authResult a with
  | gone => simp [loadEvents, hauth]
  | refused => simp [loadEvents, hauth]
  | accepted =>
      simp only [loadEvents, hauth, sentWrites_append, sentWrites_authEvents]
      split
      · simp [sentWrites, Event.written, frame]
      · split <;> simp [sentWrites, Event.written, frame]

theorem sentWrites_readEvents (c : Card β) (pass : Pass β)
    (mem : Nat -> Bytes β 16) (n block : Nat) :
    sentWrites (c.readEvents pass mem n block) = [] := by
  induction n generalizing block with
  | zero => rfl
  | succ n ih =>
      rw [readEvents, sentWrites_append, sentWrites_loadEvents]
      split
      · rfl
      · exact ih _

@[simp] theorem onWire_loadEvents (c : Card β) (a : Answers β) (block : Nat)
    (data : Bytes β 16) :
    (c.loadEvents a block data).all Event.onWire = true := by
  cases hauth : c.authResult a with
  | gone => simp [loadEvents, hauth]
  | refused => simp [loadEvents, hauth]
  | accepted =>
      cases hok : a.read.ok with
      | true => simp [loadEvents, hauth, hok, Event.onWire, Event.isCommand]
      | false =>
          cases hstays : a.stays <;>
            simp [loadEvents, hauth, hok, hstays, Event.onWire,
              Event.isCommand]

@[simp] theorem onWire_readEvents (c : Card β) (pass : Pass β)
    (mem : Nat -> Bytes β 16) (n block : Nat) :
    (c.readEvents pass mem n block).all Event.onWire = true := by
  induction n generalizing block with
  | zero => rfl
  | succ n ih =>
      rw [readEvents, List.all_append, onWire_loadEvents]
      split
      · rfl
      · exact ih _

theorem received_mem_loadEvents {c : Card β} {a : Answers β}
    {block b : Nat} {data data' : Bytes β 16} {uid : Uid} :
    .received uid b data' ∈ c.loadEvents a block data <->
      uid = c.uid ∧ b = block % 256 ∧ data' = data ∧
        c.readResult a = .loaded := by
  have hnot := c.received_not_mem_authEvents a block uid b data'
  cases hauth : c.authResult a with
  | gone => simp [loadEvents, readResult, hauth, hnot]
  | refused => simp [loadEvents, readResult, hauth, hnot]
  | accepted =>
      by_cases hok : a.read.ok
      · simp [loadEvents, readResult, hauth, hnot, hok]
      · by_cases hstays : a.stays
        · simp [loadEvents, readResult, hauth, hnot, hok, hstays]
        · simp [loadEvents, readResult, hauth, hnot, hok, hstays]

omit [Cell β] in
theorem loads_succ {c : Card β} {pass : Pass β} {n block a : Nat} :
    c.Loads pass block (block + (n + 1)) a <->
      (a = block ∧ c.readResult (pass block) = .loaded) ∨
        (c.readResult (pass block) ≠ .lost ∧
          c.Loads pass (block + 1) (block + 1 + n) a) := by
  constructor
  · intro hall
    rcases hall with ⟨hle, hlt, hreach, hloaded⟩
    by_cases ha : a = block
    · exact Or.inl ⟨ha, ha ▸ hloaded⟩
    · refine Or.inr ⟨hreach block (Nat.le_refl _) (by omega), by omega,
        by omega, ?_, hloaded⟩
      intro b hb hba
      exact hreach b (by omega) hba
  · intro hcase
    rcases hcase with ⟨rfl, hloaded⟩ | ⟨hkept, hle, hlt, hreach, hloaded⟩
    · refine ⟨Nat.le_refl _, by omega, ?_, hloaded⟩
      intro b hb hba
      omega
    · refine ⟨by omega, by omega, ?_, hloaded⟩
      intro b hb hba
      by_cases hbb : b = block
      · exact hbb ▸ hkept
      · exact hreach b (by omega) hba

theorem received_mem_readEvents {c : Card β} {pass : Pass β}
    {mem : Nat -> Bytes β 16} {n block b : Nat} {data : Bytes β 16}
    {uid : Uid} (hn : block + n ≤ 256) :
    .received uid b data ∈ c.readEvents pass mem n block <->
      uid = c.uid ∧ data = mem b ∧ c.Loads pass block (block + n) b := by
  induction n generalizing block with
  | zero =>
      simp only [readEvents, List.not_mem_nil, false_iff]
      intro hall
      rcases hall with ⟨_, _, hle, hlt, _⟩
      omega
  | succ n ih =>
      have hmod : block % 256 = block := Nat.mod_eq_of_lt (by omega)
      have hnext := @ih (block + 1) (by omega)
      simp only [readEvents, List.mem_append, received_mem_loadEvents, hmod,
        loads_succ]
      by_cases hlost : c.readResult (pass block) = .lost
      · simp [hlost]
      · simp only [hlost, if_false, hnext]
        constructor
        · intro hcase
          rcases hcase with ⟨hu, hb, hdata, hloaded⟩ | ⟨hu, hdata, hloads⟩
          · exact ⟨hu, hb ▸ hdata, Or.inl ⟨hb, hloaded⟩⟩
          · exact ⟨hu, hdata, Or.inr ⟨hlost, hloads⟩⟩
        · intro hall
          rcases hall with ⟨hu, hdata, ⟨hb, hloaded⟩ | ⟨_, hloads⟩⟩
          · exact Or.inl ⟨hu, hb, hb ▸ hdata, hloaded⟩
          · exact Or.inr ⟨hu, hdata, hloads⟩

/-- An authentication of the address, the `MC_READ` and its bytes, in this
order and with nothing between them. -/
def ReadExchange (uid : Uid) (a : Nat) (data : Bytes β 16)
    (events : List (Event β)) : Prop :=
  exists front e f rest,
    events = front ++ e :: .frame uid f true :: .received uid a data :: rest ∧
      e.Authenticates uid a ∧ f.cmd = .read ∧ f.block = a

omit [Cell β] in
theorem ReadExchange.append_left {uid : Uid} {a : Nat} {data : Bytes β 16}
    {events : List (Event β)} (h : ReadExchange uid a data events)
    (before : List (Event β)) : ReadExchange uid a data (before ++ events) := by
  rcases h with ⟨front, e, f, rest, hevents, hauth⟩
  exact ⟨before ++ front, e, f, rest, by simp [hevents], hauth⟩

omit [Cell β] in
theorem ReadExchange.append_right {uid : Uid} {a : Nat} {data : Bytes β 16}
    {events : List (Event β)} (h : ReadExchange uid a data events)
    (after : List (Event β)) : ReadExchange uid a data (events ++ after) := by
  rcases h with ⟨front, e, f, rest, hevents, hauth⟩
  exact ⟨front, e, f, rest ++ after, by simp [hevents], hauth⟩

theorem readExchange_loadEvents {c : Card β} {a : Answers β} (block : Nat)
    (data : Bytes β 16) (h : c.readResult a = .loaded) :
    ReadExchange c.uid (block % 256) data (c.loadEvents a block data) := by
  cases hauth : c.authResult a with
  | gone => simp [readResult, hauth] at h
  | refused => simp [readResult, hauth] at h
  | accepted =>
      have hok : a.read.ok = true := by
        by_cases hok : a.read.ok = true
        · exact hok
        · by_cases hstays : a.stays <;>
            simp [readResult, hauth, hok, hstays] at h
      rcases authEvents_accepted block hauth with ⟨front, e, hfront, he⟩
      refine ⟨front, e, c.frame .read block, [], ?_, he, rfl, rfl⟩
      simp [loadEvents, hauth, hok, hfront]

theorem readExchange_readEvents {c : Card β} {pass : Pass β}
    {mem : Nat -> Bytes β 16} {n block a : Nat} (hn : block + n ≤ 256)
    (h : c.Loads pass block (block + n) a) :
    ReadExchange c.uid a (mem a) (c.readEvents pass mem n block) := by
  induction n generalizing block with
  | zero =>
      rcases h with ⟨hle, hlt, _⟩
      omega
  | succ n ih =>
      have hmod : block % 256 = block := Nat.mod_eq_of_lt (by omega)
      rcases loads_succ.mp h with ⟨ha, hloaded⟩ | ⟨hkept, hloads⟩
      · have hexchange := readExchange_loadEvents block (mem a)
          hloaded
        rw [hmod] at hexchange
        rw [readEvents, hmod, ha]
        rw [ha] at hexchange
        exact hexchange.append_right _
      · rw [readEvents, if_neg hkept]
        exact (ih (by omega) hloads).append_left _

/-!
## Writing
-/

@[simp] theorem sentWrites_storeEvents (c : Card β) (a : Answers β)
    (block : Nat) (data : Bytes β 16) :
    sentWrites (c.storeEvents a block data) =
      if c.authResult a = .accepted then
        [(c.uid, writeFrame block data, a.write.ok)]
      else [] := by
  cases hauth : c.authResult a with
  | gone => simp [storeEvents, hauth]
  | refused => simp [storeEvents, hauth]
  | accepted =>
      simp only [storeEvents, hauth, sentWrites_append, sentWrites_authEvents]
      split
      · simp [sentWrites, Event.written, writeFrame]
      · split <;> simp [sentWrites, Event.written, writeFrame]

@[simp] theorem isCommand_storeEvents (c : Card β) (a : Answers β)
    (block : Nat) (data : Bytes β 16) :
    (c.storeEvents a block data).all Event.isCommand = true := by
  cases hauth : c.authResult a with
  | gone => simp [storeEvents, hauth]
  | refused => simp [storeEvents, hauth]
  | accepted =>
      cases hok : a.write.ok with
      | true => simp [storeEvents, hauth, hok, Event.isCommand]
      | false =>
          cases hstays : a.stays <;>
            simp [storeEvents, hauth, hok, hstays, Event.isCommand]

@[simp] theorem isCommand_writeEvents (c : Card β) (pass : Pass β)
    (n block : Nat) :
    (c.writeEvents pass n block).all Event.isCommand = true := by
  induction n generalizing block with
  | zero => rfl
  | succ n ih =>
      rw [writeEvents]
      split
      · rw [List.all_append, isCommand_storeEvents]
        split
        · rfl
        · exact ih _
      · exact ih _

theorem writesGuarded_storeEvents (c : Card β) (a : Answers β) (block : Nat)
    (data : Bytes β 16) : WritesGuarded (c.storeEvents a block data) := by
  cases hauth : c.authResult a with
  | gone => exact writesGuarded_of_none (by simp [hauth])
  | refused => exact writesGuarded_of_none (by simp [hauth])
  | accepted =>
      rcases authEvents_accepted block hauth with ⟨front, e, hfront, he⟩
      have hquiet := c.sentWrites_authEvents a block
      rw [hfront, sentWrites_append] at hquiet
      simp only [storeEvents, hauth, hfront]
      apply writesGuarded_single (List.append_eq_nil_iff.mp hquiet).left ?_ he
      split
      · rfl
      · split <;> rfl

theorem writesGuarded_writeEvents (c : Card β) (pass : Pass β)
    (n block : Nat) : WritesGuarded (c.writeEvents pass n block) := by
  induction n generalizing block with
  | zero => exact writesGuarded_of_none rfl
  | succ n ih =>
      rw [writeEvents]
      split
      · apply (writesGuarded_storeEvents c _ _ _).append
        split
        · exact writesGuarded_of_none rfl
        · exact ih _
      · exact ih _

theorem sentWrites_writeEvents (c : Card β) (pass : Pass β) (n block : Nat) :
    exists as : List Nat,
      as.Sublist (List.range' block n) ∧ (forall a, a ∈ as -> c.Pending a) ∧
        sentWrites (c.writeEvents pass n block) =
          as.map fun a =>
            (c.uid, writeFrame a (c.blockAt a).data, (pass a).write.ok) := by
  induction n generalizing block with
  | zero => exact ⟨[], by simp, by simp, rfl⟩
  | succ n ih =>
      rcases ih (block + 1) with ⟨as, hsub, hpending, hsent⟩
      rw [List.range'_succ, writeEvents]
      by_cases hblock : c.Pending block
      · by_cases hauth : c.authResult (pass block) = .accepted
        · by_cases hlost : c.storeLost (pass block) = true
          · refine ⟨[block], by simp, by simpa using hblock, ?_⟩
            simp [hblock, hauth, hlost]
          · refine ⟨block :: as, by simpa using hsub, ?_, ?_⟩
            · intro a ha
              rcases List.mem_cons.mp ha with rfl | ha
              · exact hblock
              · exact hpending a ha
            · simp [hblock, hauth, hlost, hsent]
        · by_cases hlost : c.storeLost (pass block) = true
          · exact ⟨[], by simp, by simp, by simp [hblock, hauth, hlost]⟩
          · exact ⟨as, hsub.cons _, hpending, by
              simp [hblock, hauth, hlost, hsent]⟩
      · exact ⟨as, hsub.cons _, hpending, by simp [hblock, hsent]⟩

omit [Cell β] in
theorem writes_succ {c : Card β} {pass : Pass β} {n block a : Nat} :
    c.Writes pass block (block + (n + 1)) a <->
      (a = block ∧ c.Pending block) ∨
        ((c.Pending block -> c.storeLost (pass block) = false) ∧
          c.Writes pass (block + 1) (block + 1 + n) a) := by
  constructor
  · intro hall
    rcases hall with ⟨hle, hlt, hpending, hreach⟩
    by_cases ha : a = block
    · exact Or.inl ⟨ha, ha ▸ hpending⟩
    · refine Or.inr ⟨hreach block (Nat.le_refl _) (by omega), by omega,
        by omega, hpending, ?_⟩
      intro b hb hba
      exact hreach b (by omega) hba
  · intro hcase
    rcases hcase with ⟨rfl, hpending⟩ | ⟨hkept, hle, hlt, hpending, hreach⟩
    · refine ⟨Nat.le_refl _, by omega, hpending, ?_⟩
      intro b hb hba
      omega
    · refine ⟨by omega, by omega, hpending, ?_⟩
      intro b hb hba
      by_cases hbb : b = block
      · exact hbb ▸ hkept
      · exact hreach b (by omega) hba

theorem mem_sentWrites_writeEvents {c : Card β} {pass : Pass β}
    {n block : Nat} {sent : Uid × Frame β × Bool} :
    sent ∈ sentWrites (c.writeEvents pass n block) <->
      exists a, c.Writes pass block (block + n) a ∧
        c.authResult (pass a) = .accepted ∧
        sent = (c.uid, writeFrame a (c.blockAt a).data, (pass a).write.ok) := by
  induction n generalizing block with
  | zero =>
      simp only [writeEvents, sentWrites_nil, List.not_mem_nil, false_iff]
      intro hall
      rcases hall with ⟨a, ⟨hle, hlt, _⟩, _⟩
      omega
  | succ n ih =>
      have hhead : sent ∈ sentWrites (c.storeEvents (pass block) block
            (c.blockAt block).data) <->
          c.authResult (pass block) = .accepted ∧
            sent = (c.uid, writeFrame block (c.blockAt block).data,
              (pass block).write.ok) := by
        rw [sentWrites_storeEvents]
        split <;> simp_all
      rw [writeEvents]
      constructor
      · intro h
        by_cases hpending : c.Pending block
        · rw [if_pos hpending, sentWrites_append, List.mem_append, hhead] at h
          rcases h with ⟨hauth, hsent⟩ | h
          · exact ⟨block, writes_succ.mpr (Or.inl ⟨rfl, hpending⟩), hauth,
              hsent⟩
          · by_cases hlost : c.storeLost (pass block) = true
            · rw [if_pos hlost] at h
              cases h
            · rw [if_neg hlost] at h
              rcases ih.mp h with ⟨a, hwrites, hauth, hsent⟩
              have hkept : c.storeLost (pass block) = false := by
                simpa using hlost
              exact ⟨a, writes_succ.mpr (Or.inr ⟨fun _ => hkept, hwrites⟩),
                hauth, hsent⟩
        · rw [if_neg hpending] at h
          rcases ih.mp h with ⟨a, hwrites, hauth, hsent⟩
          exact ⟨a, writes_succ.mpr (Or.inr ⟨fun hblock =>
            absurd hblock hpending, hwrites⟩), hauth, hsent⟩
      · intro hall
        rcases hall with ⟨a, hwrites, hauth, hsent⟩
        rcases writes_succ.mp hwrites with ⟨rfl, hpending⟩ | ⟨hkept, hrest⟩
        · rw [if_pos hpending, sentWrites_append, List.mem_append]
          exact Or.inl (hhead.mpr ⟨hauth, hsent⟩)
        · have htail := ih.mpr ⟨a, hrest, hauth, hsent⟩
          by_cases hpending : c.Pending block
          · rw [if_pos hpending, sentWrites_append, List.mem_append,
              hkept hpending]
            exact Or.inr htail
          · rw [if_neg hpending]
            exact htail

omit [Cell β] in
theorem writeFrame_injective {a b : Nat} (ha : a < 256) (hb : b < 256)
    {data data' : Bytes β 16} (h : writeFrame a data = writeFrame b data') :
    a = b ∧ data = data' := by
  have hblock := congrArg Frame.block h
  have hparam := congrArg Frame.param h
  simp only [writeFrame, Nat.mod_eq_of_lt ha, Nat.mod_eq_of_lt hb] at hblock
  exact ⟨hblock, List.ofFn_injective hparam⟩

theorem stored_mem_writeEvents {c : Card β} {pass : Pass β}
    {n block a : Nat} (hn : block + n ≤ 256) (ha : a < 256) :
    .frame c.uid (writeFrame a (c.blockAt a).data) true ∈
        c.writeEvents pass n block <->
      c.Writes pass block (block + n) a ∧ c.Stores (pass a) := by
  have hwrite : (writeFrame a (c.blockAt a).data).cmd = .write := rfl
  have hsent : (c.uid, writeFrame a (c.blockAt a).data, true) ∈
      sentWrites (c.writeEvents pass n block) <->
        .frame c.uid (writeFrame a (c.blockAt a).data) true ∈
          c.writeEvents pass n block := by
    rw [mem_sentWrites]
    exact and_iff_left hwrite
  rw [← hsent, mem_sentWrites_writeEvents]
  constructor
  · intro hall
    rcases hall with ⟨b, hwrites, hauth, heq⟩
    have hframe := congrArg (fun sent => sent.2.1) heq
    have hok : true = (pass b).write.ok := congrArg (fun sent => sent.2.2) heq
    have hb : b < 256 := Nat.lt_of_lt_of_le hwrites.right.left hn
    rcases writeFrame_injective ha hb hframe with ⟨rfl, _⟩
    exact ⟨hwrites, hauth, hok.symm⟩
  · intro hall
    rcases hall with ⟨hwrites, hauth, hok⟩
    exact ⟨a, hwrites, hauth, by rw [hok]⟩

end Card

end BeeGadz
