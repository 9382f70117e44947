import BeeGadz.Card.Exchange

/-!
# The dialogue with the cards

A block is read or written directly after one of the keys was accepted for it,
and when a command was rejected its card is selected again before anything else
happens.  The order is stated as an automaton over the log; the passes over a
sector keep it.
-/

namespace BeeGadz

open Foundation

inductive Dialogue where
  | idle
  /-- a key was accepted for the block -/
  | opened (uid : Uid) (block : Nat)
  /-- an `MC_READ` was accepted -/
  | answered (uid : Uid) (block : Nat)
  /-- a command was rejected -/
  | rejected (uid : Uid)
  /-- the card was not found again -/
  | lost
deriving DecidableEq

namespace Dialogue

variable {β : Type}

def next : Dialogue -> Event β -> Option Dialogue
  | .idle, .frame uid f ok =>
      if f.cmd = .authA ∨ f.cmd = .authB then
        some (if ok then .opened uid f.block else .rejected uid)
      else none
  | .idle, .received _ _ _ => none
  | .idle, _ => some .idle
  | .opened uid block, .frame u f ok =>
      if u = uid ∧ f.block = block ∧ f.cmd = .read then
        some (if ok then .answered uid block else .rejected uid)
      else if u = uid ∧ f.block = block ∧ f.cmd = .write then
        some (if ok then .idle else .rejected uid)
      else none
  | .answered uid block, .received u b _ =>
      if u = uid ∧ b = block then some .idle else none
  | .rejected uid, .select u present =>
      if u = uid then some (if present then .idle else .lost) else none
  | .lost, .error _ => some .idle
  | _, _ => none

def after (d : Dialogue) (events : List (Event β)) : Option Dialogue :=
  events.foldlM next d

/-- The events are in order, and no command is left open. -/
def Complete (events : List (Event β)) : Prop :=
  Dialogue.idle.after events = some .idle

instance (events : List (Event β)) : Decidable (Complete events) :=
  inferInstanceAs (Decidable (Dialogue.idle.after events = some .idle))

@[simp] theorem after_nil (d : Dialogue) :
    d.after ([] : List (Event β)) = some d := rfl

@[simp] theorem after_cons (d : Dialogue) (e : Event β)
    (events : List (Event β)) :
    d.after (e :: events) = (d.next e).bind fun d' => d'.after events := rfl

theorem after_append (d : Dialogue) (first second : List (Event β)) :
    d.after (first ++ second) =
      (d.after first).bind fun d' => d'.after second :=
  List.foldlM_append

theorem complete_nil : Complete ([] : List (Event β)) := rfl

theorem Complete.append {first second : List (Event β)}
    (hfirst : Complete first) (hsecond : Complete second) :
    Complete (first ++ second) := by
  rw [Complete, after_append, hfirst]
  exact hsecond

theorem complete_of_forall {events : List (Event β)}
    (h : forall e, e ∈ events -> Dialogue.idle.next e = some .idle) :
    Complete events := by
  induction events with
  | nil => exact complete_nil
  | cons e events ih =>
      rw [List.forall_mem_cons] at h
      rw [Complete, after_cons, h.left]
      exact ih h.right

/-!
## What order means
-/

/-- A read or a write directly follows an accepted key for its block, a rejected
command is directly followed by a selection of its card, and bytes directly
follow the read that they answer. -/
structure InOrder (events : List (Event β)) : Prop where
  opened : forall before uid f ok rest,
    events = before ++ .frame uid f ok :: rest ->
      f.cmd = .read ∨ f.cmd = .write ->
        exists front e, before = front ++ [e] ∧ e.Authenticates uid f.block
  selected : forall before uid f rest,
    events = before ++ .frame uid f false :: rest ->
      exists present more, rest = .select uid present :: more
  answered : forall before uid block data rest,
    events = before ++ .received uid block data :: rest ->
      exists front f, before = front ++ [.frame uid f true] ∧
        f.cmd = .read ∧ f.block = block

theorem Complete.split {events before rest : List (Event β)} {e : Event β}
    (h : Complete events) (hsplit : events = before ++ e :: rest) :
    exists d d', Dialogue.idle.after before = some d ∧ d.next e = some d' ∧
      d'.after rest = some .idle := by
  rw [Complete, hsplit, after_append, Option.bind_eq_some_iff] at h
  rcases h with ⟨d, hbefore, hrest⟩
  rw [after_cons, Option.bind_eq_some_iff] at hrest
  rcases hrest with ⟨d', hnext, hlater⟩
  exact ⟨d, d', hbefore, hnext, hlater⟩

/-- What is open was left open by the last event. -/
theorem last_of_after {events : List (Event β)} {d : Dialogue}
    (h : Dialogue.idle.after events = some d) (hd : d ≠ .idle) :
    exists (front : List (Event β)) (e : Event β) (d' : Dialogue),
      events = front ++ [e] ∧ d'.next e = some d := by
  rcases List.eq_nil_or_concat events with rfl | ⟨front, e, rfl⟩
  · rw [after_nil, Option.some.injEq] at h
    exact absurd h.symm hd
  · rw [List.concat_eq_append, after_append, Option.bind_eq_some_iff] at h
    rcases h with ⟨d', _, hlast⟩
    rw [after_cons, Option.bind_eq_some_iff] at hlast
    rcases hlast with ⟨d'', hnext, hend⟩
    cases hend
    exact ⟨front, e, d', List.concat_eq_append, hnext⟩

theorem authenticates_of_next {d : Dialogue} {e : Event β} {uid : Uid}
    {block : Nat} (h : d.next e = some (.opened uid block)) :
    e.Authenticates uid block := by
  unfold next at h
  split at h
  · rename_i u f ok
    split at h
    · rename_i hcmd
      cases ok with
      | true =>
          cases h
          exact ⟨f, rfl, hcmd, rfl⟩
      | false => cases h
    · cases h
  all_goals grind

theorem read_of_next {d : Dialogue} {e : Event β} {uid : Uid} {block : Nat}
    (h : d.next e = some (.answered uid block)) :
    exists f, e = .frame uid f true ∧ f.cmd = .read ∧ f.block = block := by
  unfold next at h
  split at h
  · split at h
    · rename_i ok _
      cases ok <;> cases h
    · cases h
  · cases h
  · cases h
  · rename_i u a v f ok
    split at h
    · rename_i hread
      cases ok with
      | true =>
          cases h
          rcases hread with ⟨rfl, hblock, hcmd⟩
          exact ⟨f, rfl, hcmd, hblock⟩
      | false => cases h
    · grind
  all_goals grind

theorem opened_of_next {d d' : Dialogue} {uid : Uid} {f : Frame β} {ok : Bool}
    (h : d.next (.frame uid f ok) = some d')
    (hcmd : f.cmd = .read ∨ f.cmd = .write) : d = .opened uid f.block := by
  cases d with
  | opened u a =>
      simp only [next] at h
      split at h
      · rename_i hread
        rw [hread.left, hread.right.left]
      · split at h
        · rename_i hwrite
          rw [hwrite.left, hwrite.right.left]
        · cases h
  | idle =>
      cases hcmd with
      | inl hread => simp [next, hread] at h
      | inr hwrite => simp [next, hwrite] at h
  | _ => cases h

theorem rejected_of_next {d d' : Dialogue} {uid : Uid} {f : Frame β}
    (h : d.next (.frame uid f false) = some d') : d' = .rejected uid := by
  cases d with
  | idle =>
      simp only [next] at h
      split at h
      · cases h
        rfl
      · cases h
  | opened u a =>
      simp only [next] at h
      split at h
      · rename_i hread
        cases h
        rw [hread.left]
        rfl
      · split at h
        · rename_i hwrite
          cases h
          rw [hwrite.left]
          rfl
        · cases h
  | _ => cases h

theorem answered_of_next {d d' : Dialogue} {uid : Uid} {block : Nat}
    {data : Bytes β 16} (h : d.next (.received uid block data) = some d') :
    d = .answered uid block := by
  cases d with
  | answered u a =>
      simp only [next] at h
      split at h
      · rename_i hboth
        rw [hboth.left, hboth.right]
      · cases h
  | _ => cases h

theorem select_of_after {uid : Uid} {events : List (Event β)} {d : Dialogue}
    (h : (Dialogue.rejected uid).after events = some d)
    (hd : d ≠ .rejected uid) :
    exists present rest, events = .select uid present :: rest := by
  cases events with
  | nil =>
      cases h
      exact absurd rfl hd
  | cons e rest =>
      cases e with
      | select u present =>
          by_cases hu : u = uid
          · exact ⟨present, rest, by rw [hu]⟩
          · simp [next, hu] at h
      | _ => cases h

theorem Complete.inOrder {events : List (Event β)} (h : Complete events) :
    InOrder events where
  opened := by
    intro before uid f ok rest hsplit hcmd
    rcases h.split hsplit with ⟨d, d', hbefore, hnext, _⟩
    have hopen := opened_of_next hnext hcmd
    subst hopen
    rcases last_of_after hbefore Dialogue.noConfusion with
      ⟨front, e, d', hlast, hkey⟩
    exact ⟨front, e, hlast, authenticates_of_next hkey⟩
  selected := by
    intro before uid f rest hsplit
    rcases h.split hsplit with ⟨d, d', _, hnext, hafter⟩
    have hreject := rejected_of_next hnext
    subst hreject
    exact select_of_after hafter Dialogue.noConfusion
  answered := by
    intro before uid block data rest hsplit
    rcases h.split hsplit with ⟨d, d', hbefore, hnext, _⟩
    have hanswer := answered_of_next hnext
    subst hanswer
    rcases last_of_after hbefore Dialogue.noConfusion with
      ⟨front, e, d', hlast, hread⟩
    rcases read_of_next hread with ⟨f, rfl, hcmd, hblock⟩
    exact ⟨front, f, hlast, hcmd, hblock⟩

end Dialogue

/-!
## Passes over a sector
-/

namespace Card

variable {β : Type} [Cell β]

def opens (c : Card β) (block : Nat) : AuthResult -> Dialogue
  | .accepted => .opened c.uid (block % 256)
  | _ => .idle

theorem after_authRound (c : Card β) (a : Answers β) (block j : Nat)
    (rest : List (Event β)) :
    Dialogue.idle.after (c.authRound a block j rest) =
      if (a.auth j).ok then some (.opened c.uid (block % 256))
      else if a.selected j then Dialogue.idle.after rest
      else some .idle := by
  have hcmd := c.authFrame_cmd block j
  have hblock : (c.authFrame block j).block = block % 256 := rfl
  by_cases hok : (a.auth j).ok
  · simp [authRound, Dialogue.next, hok, hcmd, hblock]
  · by_cases hselected : a.selected j
    · simp [authRound, Dialogue.next, hok, hcmd, hselected]
    · simp [authRound, Dialogue.next, hok, hcmd, hselected]

theorem after_authEvents (c : Card β) (a : Answers β) (block : Nat) :
    Dialogue.idle.after (c.authEvents a block) =
      some (c.opens block (c.authResult a)) := by
  have hrounds : forall more j,
      Dialogue.idle.after (c.authRounds a block more j) =
        some (c.opens block (a.authFrom more j)) := by
    intro more
    induction more with
    | zero =>
        intro j
        rw [authRounds, after_authRound, Answers.authFrom]
        split
        · rfl
        · split <;> rfl
    | succ more ih =>
        intro j
        rw [authRounds, after_authRound, Answers.authFrom]
        split
        · rfl
        · split
          · exact ih (j + 1)
          · rfl
  exact hrounds c.rounds 0

theorem complete_loadEvents (c : Card β) (a : Answers β) (block : Nat)
    (data : Bytes β 16) : Dialogue.Complete (c.loadEvents a block data) := by
  rw [Dialogue.Complete, loadEvents, Dialogue.after_append, after_authEvents]
  cases hauth : c.authResult a with
  | gone => rfl
  | refused => rfl
  | accepted =>
      have hblock : (c.frame .read block).block = block % 256 := rfl
      have hcmd : (c.frame .read block).cmd = .read := rfl
      by_cases hok : a.read.ok
      · simp [opens, Dialogue.next, hok, hblock, hcmd]
      · by_cases hstays : a.stays
        · simp [opens, Dialogue.next, hok, hstays, hblock, hcmd]
        · simp [opens, Dialogue.next, hok, hstays, hblock, hcmd]

theorem complete_readEvents (c : Card β) (pass : Pass β)
    (mem : Nat -> Bytes β 16) (n block : Nat) :
    Dialogue.Complete (c.readEvents pass mem n block) := by
  induction n generalizing block with
  | zero => exact Dialogue.complete_nil
  | succ n ih =>
      apply (c.complete_loadEvents _ _ _).append
      split
      · exact Dialogue.complete_nil
      · exact ih _

theorem complete_storeEvents (c : Card β) (a : Answers β) (block : Nat)
    (data : Bytes β 16) : Dialogue.Complete (c.storeEvents a block data) := by
  rw [Dialogue.Complete, storeEvents, Dialogue.after_append, after_authEvents]
  cases hauth : c.authResult a with
  | gone => rfl
  | refused => rfl
  | accepted =>
      have hblock : (writeFrame block data).block = block % 256 := rfl
      have hcmd : (writeFrame block data).cmd = .write := rfl
      by_cases hok : a.write.ok
      · simp [opens, Dialogue.next, hok, hblock, hcmd]
      · by_cases hstays : a.stays
        · simp [opens, Dialogue.next, hok, hstays, hblock, hcmd]
        · simp [opens, Dialogue.next, hok, hstays, hblock, hcmd]

theorem complete_writeEvents (c : Card β) (pass : Pass β) (n block : Nat) :
    Dialogue.Complete (c.writeEvents pass n block) := by
  induction n generalizing block with
  | zero => exact Dialogue.complete_nil
  | succ n ih =>
      rw [writeEvents]
      split
      · apply (c.complete_storeEvents _ _ _).append
        split
        · exact Dialogue.complete_nil
        · exact ih _
      · exact ih _

end Card

end BeeGadz
