import BeeGadz.Card.Authenticate

/-!
# The keys that are tried

The loop of `authenticate` goes on for as many rounds as the key vector has bytes,
six times the number of its keys.  It stays inside the vector as long as it ends
at one of them: at the first key that is accepted, or at the loss of the tag.
-/

namespace BeeGadz

open Foundation

def keyOffsets {β : Type} (events : List (Event β)) : List Nat :=
  events.filterMap fun e =>
    match e with
    | .key offset => some offset
    | _ => none

def sentFrames {β : Type} (events : List (Event β)) : List (Frame β) :=
  events.filterMap fun e =>
    match e with
    | .frame _ f _ => some f
    | _ => none

namespace Answers

variable {β : Type}

def Rejects (a : Answers β) (j : Nat) : Prop :=
  (a.auth j).ok = false ∧ a.selected j = true

/-- All keys before the `j`-th are rejected by a tag that is still there. -/
def Reaches (a : Answers β) (j : Nat) : Prop :=
  forall i, i < j -> a.Rejects i

theorem reaches_succ {a : Answers β} {j : Nat} :
    a.Reaches (j + 1) <-> a.Reaches j ∧ a.Rejects j := by
  constructor
  · intro h
    exact ⟨fun i hi => h i (by omega), h j (by omega)⟩
  · intro hall i hi
    rcases hall with ⟨hbefore, hlast⟩
    cases Nat.lt_succ_iff_lt_or_eq.mp hi with
    | inl hlt => exact hbefore i hlt
    | inr heq => exact heq ▸ hlast

theorem exists_end_of_not_reaches {a : Answers β} {n : Nat}
    (h : ¬ a.Reaches n) : exists k, k < n ∧ a.Reaches k ∧ ¬ a.Rejects k := by
  induction n with
  | zero => exact absurd (fun i hi => absurd hi (Nat.not_lt_zero i)) h
  | succ n ih =>
      by_cases hn : a.Reaches n
      · exact ⟨n, by omega, hn, fun hlast => h (reaches_succ.mpr ⟨hn, hlast⟩)⟩
      · rcases ih hn with ⟨k, hk, hreaches, hend⟩
        exact ⟨k, by omega, hreaches, hend⟩

/-- There is only one key at which the trial ends. -/
theorem end_unique {a : Answers β} {i j : Nat} (hi : a.Reaches i)
    (hiend : ¬ a.Rejects i) (hj : a.Reaches j) (hjend : ¬ a.Rejects j) :
    i = j := by
  rcases Nat.lt_trichotomy i j with hlt | heq | hgt
  · exact absurd (hj i hlt) hiend
  · exact heq
  · exact absurd (hi j hgt) hjend

/-- The outcome of a trial that ends at the `k`-th key. -/
def endAt (a : Answers β) (k : Nat) : AuthResult :=
  if (a.auth k).ok then .accepted else .gone

theorem not_rejects_iff {a : Answers β} {k : Nat} :
    ¬ a.Rejects k <-> (a.auth k).ok = true ∨ a.selected k = false := by
  unfold Rejects
  cases (a.auth k).ok with
  | true => simp
  | false => simp

theorem endAt_ok_iff {a : Answers β} {k : Nat} :
    (a.endAt k).outcome = .ok true <-> (a.auth k).ok = true := by
  unfold endAt
  cases (a.auth k).ok with
  | true => simp [AuthResult.outcome]
  | false => simp [AuthResult.outcome]

theorem endAt_error_iff {a : Answers β} {k : Nat} :
    (exists e, (a.endAt k).outcome = .error e) <-> (a.auth k).ok = false := by
  unfold endAt
  cases (a.auth k).ok with
  | true => simp [AuthResult.outcome]
  | false => simp [AuthResult.outcome]

theorem endAt_not_refused (a : Answers β) (k : Nat) :
    (a.endAt k).outcome ≠ .ok false := by
  unfold endAt
  cases (a.auth k).ok with
  | true => simp [AuthResult.outcome]
  | false => simp [AuthResult.outcome]

theorem authFrom_of_end {a : Answers β} {more j k : Nat} (hj : j ≤ k)
    (hk : k ≤ j + more) (hrejects : forall i, j ≤ i -> i < k -> a.Rejects i)
    (hend : ¬ a.Rejects k) : a.authFrom more j = a.endAt k := by
  induction more generalizing j with
  | zero =>
      have heq : j = k := by omega
      subst heq
      cases not_rejects_iff.mp hend with
      | inl hok => simp [authFrom, endAt, hok]
      | inr hgone => simp [authFrom, endAt, hgone]
  | succ more ih =>
      by_cases heq : j = k
      · subst heq
        cases not_rejects_iff.mp hend with
        | inl hok => simp [authFrom, endAt, hok]
        | inr hgone => simp [authFrom, endAt, hgone]
      · have hfirst := hrejects j (le_refl j) (by omega)
        rw [authFrom, hfirst.left, hfirst.right]
        simp only [Bool.false_eq_true, if_false, if_true]
        exact ih (by omega) (by omega) fun i hi hik =>
          hrejects i (by omega) hik

end Answers

namespace Card

variable {β : Type} [Cell β]

section Round

variable (c : Card β) {a : Answers β} (block : Nat) {j : Nat}
  (rest : List (Event β))

theorem keyOffsets_authRound (h : a.Rejects j) :
    keyOffsets (c.authRound a block j rest) = 6 * j :: keyOffsets rest := by
  simp [keyOffsets, authRound, h.left, h.right]

theorem sentFrames_authRound (h : a.Rejects j) :
    sentFrames (c.authRound a block j rest) =
      c.authFrame block j :: sentFrames rest := by
  simp [sentFrames, authRound, h.left, h.right]

theorem keyOffsets_authRound_end (h : ¬ a.Rejects j) :
    keyOffsets (c.authRound a block j rest) = [6 * j] := by
  cases hok : (a.auth j).ok with
  | true => simp [keyOffsets, authRound, hok]
  | false =>
      have hgone := (Answers.not_rejects_iff.mp h).resolve_left (by simp [hok])
      simp [keyOffsets, authRound, hok, hgone]

theorem sentFrames_authRound_end (h : ¬ a.Rejects j) :
    sentFrames (c.authRound a block j rest) = [c.authFrame block j] := by
  cases hok : (a.auth j).ok with
  | true => simp [sentFrames, authRound, hok]
  | false =>
      have hgone := (Answers.not_rejects_iff.mp h).resolve_left (by simp [hok])
      simp [sentFrames, authRound, hok, hgone]

theorem mem_keyOffsets_authRound :
    6 * j ∈ keyOffsets (c.authRound a block j rest) := by
  by_cases h : a.Rejects j
  · rw [c.keyOffsets_authRound block rest h]
    exact List.mem_cons_self
  · rw [c.keyOffsets_authRound_end block rest h]
    exact List.mem_cons_self

end Round

theorem authRounds_of_end (c : Card β) {a : Answers β} (block : Nat)
    {more j k : Nat} (hj : j ≤ k) (hk : k ≤ j + more)
    (hrejects : forall i, j ≤ i -> i < k -> a.Rejects i)
    (hend : ¬ a.Rejects k) :
    keyOffsets (c.authRounds a block more j) =
        (List.range' j (k - j + 1)).map (fun i => 6 * i) ∧
      sentFrames (c.authRounds a block more j) =
        (List.range' j (k - j + 1)).map (c.authFrame block) := by
  induction more generalizing j with
  | zero =>
      have heq : j = k := by omega
      subst heq
      rw [authRounds, c.keyOffsets_authRound_end block _ hend,
        c.sentFrames_authRound_end block _ hend, Nat.sub_self]
      exact ⟨rfl, rfl⟩
  | succ more ih =>
      by_cases heq : j = k
      · subst heq
        rw [authRounds, c.keyOffsets_authRound_end block _ hend,
          c.sentFrames_authRound_end block _ hend, Nat.sub_self]
        exact ⟨rfl, rfl⟩
      · have hfirst := hrejects j (le_refl j) (by omega)
        rcases ih (j := j + 1) (by omega) (by omega) (fun i hi hik =>
          hrejects i (by omega) hik) with ⟨hoffsets, hframes⟩
        have hcount : k - j + 1 = (k - (j + 1) + 1) + 1 := by omega
        rw [authRounds, c.keyOffsets_authRound block _ hfirst,
          c.sentFrames_authRound block _ hfirst, hoffsets, hframes, hcount,
          List.range'_succ]
        exact ⟨rfl, rfl⟩

theorem mem_keyOffsets_authRounds (c : Card β) {a : Answers β} (block : Nat)
    {more j k : Nat} (hj : j ≤ k) (hk : k ≤ j + more)
    (hrejects : forall i, j ≤ i -> i < k -> a.Rejects i) :
    6 * k ∈ keyOffsets (c.authRounds a block more j) := by
  induction more generalizing j with
  | zero =>
      have heq : j = k := by omega
      subst heq
      exact c.mem_keyOffsets_authRound block _
  | succ more ih =>
      by_cases heq : j = k
      · subst heq
        exact c.mem_keyOffsets_authRound block _
      · have hfirst := hrejects j (le_refl j) (by omega)
        rw [authRounds, c.keyOffsets_authRound block _ hfirst]
        apply List.mem_cons_of_mem
        exact ih (by omega) (by omega) fun i hi hik =>
          hrejects i (by omega) hik

end Card

namespace Session

variable {β : Type} [Cell β]

/-- A call of `authenticate` on a card with the keys of a vector of `n` keys:
the keys that are tried are the first ones of the vector, in order and inside of
it, and the call ends as they are answered. -/
structure TriesConfigured (a : Answers β) (block n : Nat) (s : Session β) :
    Prop where
  ordered : exists m,
    keyOffsets (s.world.since (authenticate a block s).2.world) =
        (List.range m).map (fun j => 6 * j) ∧
      sentFrames (s.world.since (authenticate a block s).2.world) =
        (List.range m).map (s.card.authFrame block)
  inside : forall offset,
    offset ∈ keyOffsets (s.world.since (authenticate a block s).2.world) ->
      offset + 6 ≤ s.card.keys.size
  accepted : (authenticate a block s).1 = .ok true <->
    exists j, j < n ∧ a.Reaches j ∧ (a.auth j).ok = true
  stops : forall j, j < n -> a.Reaches j -> (a.auth j).ok = true ->
    keyOffsets (s.world.since (authenticate a block s).2.world) =
      (List.range (j + 1)).map fun j => 6 * j
  thrown : (exists e, (authenticate a block s).1 = .error e) <->
    exists j, j < n ∧ a.Reaches j ∧ (a.auth j).ok = false ∧
      a.selected j = false
  refused : (authenticate a block s).1 = .ok false <-> a.Reaches n

theorem triesConfigured_of_end {a : Answers β} {block n k : Nat}
    {s : Session β} (hkeys : s.card.keys.size = 6 * n) (hk : k < n)
    (hreaches : a.Reaches k) (hend : ¬ a.Rejects k) :
    TriesConfigured a block n s := by
  rcases s with ⟨c, w⟩
  have hrounds : k ≤ 0 + c.rounds := by
    have hsize : c.keys.size = 6 * n := hkeys
    rw [Card.rounds, hsize]
    omega
  rcases c.authRounds_of_end block (Nat.zero_le k) hrounds
    (fun i _ hi => hreaches i hi) hend with ⟨hoffsets, hframes⟩
  have hresult : c.authResult a = a.endAt k :=
    Answers.authFrom_of_end (Nat.zero_le k) hrounds
      (fun i _ hi => hreaches i hi) hend
  rcases authenticate_run a block c w with ⟨c', _, _, hrun⟩
  have hsince : w.since (authenticate a block ⟨c, w⟩).2.world =
      c.authRounds a block c.rounds 0 := by
    rw [hrun]
    exact World.since_addLog w w _ rfl
  have houtcome : (authenticate a block ⟨c, w⟩).1 = (a.endAt k).outcome := by
    rw [hrun, hresult]
  rw [Nat.sub_zero, ← List.range_eq_range'] at hoffsets hframes
  have hothers : forall j, a.Reaches j -> ¬ a.Rejects j -> j = k :=
    fun j hj hjend => Answers.end_unique hj hjend hreaches hend
  have hnot : ¬ a.Reaches n := fun h => hend (h k hk)
  constructor
  · exact ⟨k + 1, hsince ▸ hoffsets, hsince ▸ hframes⟩
  · intro offset hoffset
    rw [hsince, hoffsets, List.mem_map] at hoffset
    rcases hoffset with ⟨j, hj, rfl⟩
    rw [List.mem_range] at hj
    rw [hkeys]
    omega
  · rw [houtcome, Answers.endAt_ok_iff]
    constructor
    · exact fun hok => ⟨k, hk, hreaches, hok⟩
    · intro hall
      rcases hall with ⟨j, _, hj, hok⟩
      exact hothers j hj (fun h => by simp [h.left] at hok) ▸ hok
  · intro j _ hj hok
    rw [hothers j hj (fun h => by simp [h.left] at hok), hsince]
    exact hoffsets
  · rw [houtcome, Answers.endAt_error_iff]
    constructor
    · intro hok
      have hgone := (Answers.not_rejects_iff.mp hend).resolve_left (by simp [hok])
      exact ⟨k, hk, hreaches, hok, hgone⟩
    · intro hall
      rcases hall with ⟨j, _, hj, hok, hgone⟩
      exact hothers j hj (fun h => by simp [h.right] at hgone) ▸ hok
  · rw [houtcome]
    exact ⟨fun h => absurd h (Answers.endAt_not_refused a k),
      fun h => absurd h hnot⟩

/-- A call tries exactly the configured keys when the trial ends at one of them:
the key is accepted, or the tag is lost after it. -/
theorem tries_configured_iff (a : Answers β) (block : Nat) {n : Nat}
    (hn : 0 < n) {c : Card β} (hkeys : c.keys.size = 6 * n) (w : World β) :
    TriesConfigured a block n ⟨c, w⟩ <->
      exists k, k < n ∧ a.Reaches k ∧
        ((a.auth k).ok = true ∨ a.selected k = false) := by
  constructor
  · intro h
    by_contra hnone
    have hall : a.Reaches n := by
      by_contra hnot
      rcases Answers.exists_end_of_not_reaches hnot with ⟨k, hk, hreaches, hend⟩
      exact hnone ⟨k, hk, hreaches, Answers.not_rejects_iff.mp hend⟩
    rcases authenticate_run a block c w with ⟨c', _, _, hrun⟩
    have hsince : w.since (authenticate a block ⟨c, w⟩).2.world =
        c.authRounds a block c.rounds 0 := by
      rw [hrun]
      exact World.since_addLog w w _ rfl
    have hrounds : n ≤ 0 + c.rounds := by
      rw [Card.rounds, hkeys]
      omega
    -- the round after the last key takes what lies behind the vector
    have hbehind := c.mem_keyOffsets_authRounds block (Nat.zero_le n) hrounds
      fun i _ hi => hall i hi
    have hinside := h.inside (6 * n) (hsince.symm ▸ hbehind)
    have hsize : 6 * n + 6 ≤ 6 * n := hkeys ▸ hinside
    omega
  · intro hgiven
    rcases hgiven with ⟨k, hk, hreaches, hend⟩
    exact triesConfigured_of_end hkeys hk hreaches
      (Answers.not_rejects_iff.mpr hend)

theorem tries_configured_of_second :
    TriesConfigured
      { Answers.rejecting with
        auth := fun j => if j = 1 then .accepted else .rejected } 4 2
      (⟨Card.fresh ⟨fun _ => 1, 0x4⟩ (Vec.replicate 12 0xff),
        World.start (fun _ _ _ => 0) .bar⟩ : Session UInt8) :=
  (tries_configured_iff _ 4 (by decide) rfl _).mpr
    ⟨1, by decide, fun i hi => by
      have hi0 : i = 0 := by omega
      subst hi0
      exact ⟨rfl, rfl⟩, Or.inl rfl⟩

/-- A foreign card rejects the only configured key: five more are taken from
behind the vector. -/
theorem foreign_keys_tried :
    let s : Session UInt8 :=
      ⟨Card.fresh ⟨fun _ => 1, 0x4⟩ (Vec.replicate 6 0xff),
        World.start (fun _ _ _ => 0) .bar⟩
    keyOffsets (s.world.since (authenticate Answers.rejecting 4 s).2.world) =
        [0, 6, 12, 18, 24, 30] ∧
      ¬ TriesConfigured Answers.rejecting 4 1 s := by
  intro s
  have hoffsets :
      keyOffsets (s.world.since (authenticate Answers.rejecting 4 s).2.world) =
        [0, 6, 12, 18, 24, 30] := by
    decide +kernel
  refine ⟨hoffsets, fun h => ?_⟩
  have hinside := h.inside 6 (by rw [hoffsets]; decide)
  exact absurd hinside (by decide)

end Session

end BeeGadz
