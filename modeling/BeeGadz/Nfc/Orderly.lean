import BeeGadz.Nfc.Lifecycle

/-!
# The NFC context used in order

What a construction and a destruction do to the rules of the library, and the
sequences of both that keep them: exactly those in which no initialisation of an
open device fails and nothing is constructed once all objects were destroyed.
-/

namespace BeeGadz

open Foundation

namespace Lifecycle

/-!
## The context along the sequences that keep the rules
-/

/-- The rules were kept, and every device is accounted for. -/
structure Kept (s : Lifecycle) : Prop where
  lawful : Lawful Allowed s.nfc.log
  closed : devices.Accounted s.nfc.log s.Held

/-- The context is exited when the last object is destroyed. -/
structure Exited (s : Lifecycle) : Prop where
  notYet : forall k, s.nfc.context = some k -> s.objects ≠ [] ∨ ¬ s.Used ->
    contexts.releases s.nfc.log k = 0
  once : forall k, s.nfc.context = some k -> s.objects = [] -> s.Used ->
    contexts.releases s.nfc.log k = 1

structure Sound (s : Lifecycle) : Prop where
  consistent : Consistent s
  exited : Lawful Allowed s.nfc.log -> Exited s

section Opening

variable {objects : List NfcDevice} {n : Nfc} {e : NfcEvent}

theorem kept_concat {s t : Lifecycle} (hlog : t.nfc.log = s.nfc.log ++ [e])
    (hclosed : devices.Accounted t.nfc.log t.Held <->
      devices.Accounted s.nfc.log s.Held) :
    Kept t <-> Kept s ∧ Allowed s.nfc.log e := by
  have hlawful : Lawful Allowed t.nfc.log <->
      Lawful Allowed s.nfc.log ∧ Allowed s.nfc.log e := by
    rw [hlog]
    exact lawful_concat
  constructor
  · intro h
    have hbefore := hlawful.mp h.lawful
    exact ⟨⟨hbefore.left, hclosed.mp h.closed⟩, hbefore.right⟩
  · intro h
    exact ⟨hlawful.mpr ⟨h.left.lawful, h.right⟩, hclosed.mpr h.left.closed⟩

theorem kept_idle_iff (he : Idle n e) :
    Kept ⟨objects, n.addLog e⟩ <->
      Kept ⟨objects, n⟩ ∧ Allowed n.log e :=
  kept_concat rfl (Kind.accounted_idle he.device he.closed)

theorem used_idle_iff (he : Idle n e) :
    Used ⟨objects, n.addLog e⟩ <-> Used ⟨objects, n⟩ := by
  rw [used_addLog, or_iff_left]
  rintro ⟨d, hd⟩
  exact he.used d hd

theorem Sound.addLog (h : Sound ⟨objects, n⟩)
    (hconsistent : Consistent ⟨objects, n.addLog e⟩)
    (hexit : contexts.released e = none)
    (hfirst : forall d, e ≠ .nfcInitiatorInit d true) :
    Sound ⟨objects, n.addLog e⟩ where
  consistent := hconsistent
  exited hlawful := by
    have hexited := h.exited (lawful_concat.mp hlawful).left
    have hreleases : forall k, contexts.releases (n.addLog e).log k =
        contexts.releases n.log k := fun k => Kind.releases_idle hexit
    have hused : Used ⟨objects, n.addLog e⟩ <-> Used ⟨objects, n⟩ := by
      rw [used_addLog, or_iff_left]
      rintro ⟨d, hd⟩
      exact hfirst d hd
    constructor
    · intro k hk hcase
      rw [hused] at hcase
      rw [hreleases]
      exact hexited.notYet k hk hcase
    · intro k hk hobjects hcase
      rw [hreleases]
      exact hexited.once k hk hobjects (hused.mp hcase)

theorem Sound.idle (h : Sound ⟨objects, n⟩) (he : Idle n e)
    (hexit : contexts.released e = none) : Sound ⟨objects, n.addLog e⟩ :=
  h.addLog (h.consistent.idle he) hexit he.used

/-- An open context is given to `nfc_open` unless all objects were
destroyed. -/
theorem Sound.allowed_open_iff (h : Sound ⟨objects, n⟩)
    (hcontext : n.context ≠ none) (hlawful : Lawful Allowed n.log)
    (device : Option Nat) :
    Allowed n.log (.nfcOpen n.context device) <->
      (objects = [] -> ¬ Used ⟨objects, n⟩) := by
  rcases Option.ne_none_iff_exists'.mp hcontext with ⟨k, hk⟩
  have hexited := h.exited hlawful
  constructor
  · rintro ⟨k', hk', halive⟩ hobjects hused
    have hone := hexited.once k' hk' hobjects hused
    rw [halive.right] at hone
    cases hone
  · intro hunused
    refine ⟨k, hk, (h.consistent.context k).mpr hk, hexited.notYet k hk ?_⟩
    by_cases hobjects : objects = []
    · exact Or.inr (hunused hobjects)
    · exact Or.inl hobjects

theorem idle_error (n : Nfc) (message : String) : Idle n (.error message) where
  context := rfl
  exited := Or.inl rfl
  device := rfl
  closed := rfl
  used _ := by simp

theorem idle_nfcOpen (n : Nfc) : Idle n (.nfcOpen n.context none) where
  context := rfl
  exited := Or.inl rfl
  device := rfl
  closed := rfl
  used _ := by simp

theorem idle_nfcInitiatorInit (n : Nfc) (d : Nat) :
    Idle n (.nfcInitiatorInit d false) where
  context := rfl
  exited := Or.inl rfl
  device := rfl
  closed := rfl
  used _ := by simp

theorem kept_error {message : String} :
    Kept ⟨objects, n.addLog (.error message)⟩ <-> Kept ⟨objects, n⟩ :=
  (kept_idle_iff (idle_error n message)).trans (and_iff_left trivial)

theorem used_error {message : String} :
    Used ⟨objects, n.addLog (.error message)⟩ <-> Used ⟨objects, n⟩ :=
  used_idle_iff (idle_error n message)

theorem Sound.error (h : Sound ⟨objects, n⟩) (message : String) :
    Sound ⟨objects, n.addLog (.error message)⟩ :=
  h.idle (idle_error n message) rfl

/-- What the second part of a construction does to what is asked of the
calls. -/
structure Opened (objects : List NfcDevice) (n : Nfc) (a : Opening)
    (t : Lifecycle) : Prop where
  sound : Sound t
  kept : Kept t <-> Kept ⟨objects, n⟩ ∧
    (a.opened = true -> a.initiator = true) ∧
      (objects = [] -> ¬ Used ⟨objects, n⟩)
  used : Used t <->
    Used ⟨objects, n⟩ ∨ a.opened = true ∧ a.initiator = true
  context : t.nfc.context = n.context

variable {a : Opening}

theorem opened_of_not_opened (h : Sound ⟨objects, n⟩)
    (hcontext : n.context ≠ none) (ha : a.opened = false) :
    Opened objects n a (constructed objects (NfcDevice.openDevice a n)) := by
  rw [openDevice_of_not_opened ha]
  constructor
  · exact (h.idle (idle_nfcOpen n) rfl).error _
  · refine (kept_error.trans (kept_idle_iff (idle_nfcOpen n))).trans ?_
    apply and_congr_right
    intro hkept
    rw [h.allowed_open_iff hcontext hkept.lawful]
    simp [ha]
  · refine (used_error.trans (used_idle_iff (idle_nfcOpen n))).trans ?_
    simp [ha]
  · rfl

theorem Consistent.fresh (h : Consistent ⟨objects, n⟩) :
    ¬ devices.Acquired n.log n.log.length :=
  fun hold => absurd (h.deviceOld _ hold) (Nat.lt_irrefl _)

theorem Consistent.fresh_not_held (h : Consistent ⟨objects, n⟩) :
    ¬ Held ⟨objects, n⟩ n.log.length :=
  fun hheld => h.fresh (h.held _ hheld).left

theorem Sound.open (h : Sound ⟨objects, n⟩) :
    Sound ⟨objects, n.addLog (.nfcOpen n.context (some n.log.length))⟩ :=
  h.addLog h.consistent.open rfl fun _ => by simp

theorem opened_of_not_initiator (h : Sound ⟨objects, n⟩)
    (ha : a.opened = true) (hinitiator : a.initiator = false) :
    Opened objects n a (constructed objects (NfcDevice.openDevice a n)) := by
  rw [openDevice_of_not_initiator ha hinitiator]
  constructor
  · exact (h.open.idle (idle_nfcInitiatorInit _ _) rfl).error _
  · have hleak : ¬ Kept ⟨objects,
        n.addLog (.nfcOpen n.context (some n.log.length))⟩ := by
      intro hkept
      have hheld := ((Kind.accounted_acquire h.consistent.deviceGiven
        h.consistent.fresh rfl rfl).mp hkept.closed).right
      exact h.consistent.fresh_not_held hheld
    constructor
    · intro hkept
      have hopen := (kept_idle_iff (idle_nfcInitiatorInit _ _)).mp
        (kept_error.mp hkept)
      exact absurd hopen.left hleak
    · intro hall
      rw [hall.right.left ha] at hinitiator
      cases hinitiator
  · refine (used_error.trans
      (used_idle_iff (idle_nfcInitiatorInit _ _))).trans ?_
    rw [used_addLog]
    simp [hinitiator]
  · rfl

theorem held_concat {d e : Nat} {m : Nfc} :
    Held ⟨objects ++ [⟨true, some d⟩], m⟩ e <->
      Held ⟨objects, n⟩ e ∨ e = d := by
  simp [Held, or_and_right, exists_or, eq_comm]

theorem Consistent.accounted_construct (h : Consistent ⟨objects, n⟩)
    (m : Nfc) :
    devices.Accounted
      ((n.log ++ [.nfcOpen n.context (some n.log.length)]) ++
        [.nfcInitiatorInit n.log.length true])
      (Held ⟨objects ++ [⟨true, some n.log.length⟩], m⟩) <->
    devices.Accounted n.log (Held ⟨objects, n⟩) := by
  refine (Kind.accounted_idle rfl rfl).trans ?_
  refine (Kind.accounted_acquire h.deviceGiven h.fresh rfl rfl).trans ?_
  rw [and_iff_left (held_concat (n := n).mpr (Or.inr rfl))]
  apply Kind.accounted_congr
  intro d hd
  rw [held_concat (n := n), or_iff_left]
  intro hsame
  rw [hsame] at hd
  exact h.fresh hd

theorem opened_of_initiator (h : Sound ⟨objects, n⟩)
    (hcontext : n.context ≠ none) (ha : a.opened = true)
    (hinitiator : a.initiator = true) :
    Opened objects n a (constructed objects (NfcDevice.openDevice a n)) := by
  have hopen := h.open
  have halive : devices.Alive
      (n.addLog (.nfcOpen n.context (some n.log.length))).log n.log.length :=
    h.consistent.deviceGiven.alive_concat h.consistent.fresh rfl rfl
  have hnew : ¬ Held ⟨objects,
      n.addLog (.nfcOpen n.context (some n.log.length))⟩ n.log.length :=
    h.consistent.fresh_not_held
  have hlawful : Lawful Allowed
      ((n.addLog (.nfcOpen n.context (some n.log.length))).addLog
        (.nfcInitiatorInit n.log.length true)).log <->
      Lawful Allowed n.log ∧ (objects = [] -> ¬ Used ⟨objects, n⟩) := by
    refine (lawful_concat.trans (and_iff_left trivial)).trans ?_
    refine lawful_concat.trans (and_congr_right ?_)
    intro hbefore
    exact h.allowed_open_iff hcontext hbefore _
  rw [openDevice_of_initiator ha hinitiator]
  constructor
  · constructor
    · exact hopen.consistent.construct halive hnew hcontext
    · intro hafter
      have hbefore := hlawful.mp hafter
      constructor
      · intro k hk _
        have hnone := (h.exited hbefore.left).notYet k hk (by
          by_cases hobjects : objects = []
          · exact Or.inr (hbefore.right hobjects)
          · exact Or.inl hobjects)
        exact ((Kind.releases_idle rfl).trans (Kind.releases_idle rfl)).trans hnone
      · intro k hk hobjects
        simp [constructed] at hobjects
  · have hclosed := h.consistent.accounted_construct
      { (n.addLog (.nfcOpen n.context (some n.log.length))).addLog
          (.nfcInitiatorInit n.log.length true) with
        instances := toInt (n.instances + 1) }
    constructor
    · intro hkept
      have hbefore := hlawful.mp hkept.lawful
      exact ⟨⟨hbefore.left, hclosed.mp hkept.closed⟩, fun _ => hinitiator,
        hbefore.right⟩
    · intro hall
      exact ⟨hlawful.mpr ⟨hall.left.lawful, hall.right.right⟩,
        hclosed.mpr hall.left.closed⟩
  · constructor
    · intro _
      exact Or.inr ⟨ha, hinitiator⟩
    · intro _
      exact ⟨n.log.length, by simp [constructed, Nfc.addLog]⟩
  · rfl

end Opening

/-!
## One step
-/

structure Stepped (s : Lifecycle) (op : Op) (t : Lifecycle) : Prop where
  sound : Sound t
  kept : Kept t <-> Kept s ∧ Heeds s op
  used : Used t <-> Used s ∨ Constructs s op
  context : t.nfc.context = none <->
    s.nfc.context = none ∧ forall a, op = .construct a -> a.init = false

theorem heeds_construct_iff {s : Lifecycle} {a : Opening} :
    Heeds s (.construct a) <->
      (s.Opens a -> a.initiator = true) ∧ (s.objects = [] -> ¬ s.Used) := by
  constructor
  · intro h
    exact ⟨h.initiator a rfl, h.first a rfl⟩
  · intro h
    constructor
    · rintro b ⟨⟩
      exact h.left
    · rintro b ⟨⟩
      exact h.right
    · intro i hi
      cases hi

theorem heeds_destroy_iff {s : Lifecycle} {i : Nat} :
    Heeds s (.destroy i) <->
      (intValues ∣ s.objects.length - 1 -> s.objects.length = 1) := by
  constructor
  · intro h
    exact h.last i rfl
  · intro h
    constructor
    · intro a ha
      cases ha
    · intro a ha
      cases ha
    · intro _ _
      exact h

theorem constructs_construct_iff {s : Lifecycle} {a : Opening} :
    Constructs s (.construct a) <-> s.Opens a ∧ a.initiator = true := by
  simp [Constructs]

theorem Consistent.unused {s : Lifecycle} (h : Consistent s)
    (hcontext : s.nfc.context = none) :
    ¬ s.Used ∧ s.objects = [] ∧ s.nfc.instances = 0 := by
  have hused : ¬ s.Used := fun hused => h.opened hused hcontext
  have hobjects : s.objects = [] := by
    by_contra hsome
    exact hused (h.used hsome)
  refine ⟨hused, hobjects, ?_⟩
  rw [h.counted, hobjects]
  simp [toInt]

section Construct

variable {objects : List NfcDevice} {n : Nfc} {a : Opening}

theorem Opened.stepped {m : Nfc} {t : Lifecycle} (h : Opened objects m a t)
    (hkept : Kept ⟨objects, m⟩ <-> Kept ⟨objects, n⟩)
    (hused : Used ⟨objects, m⟩ <-> Used ⟨objects, n⟩)
    (hcontext : m.context ≠ none)
    (hready : n.context ≠ none ∨ a.init = true) :
    Stepped ⟨objects, n⟩ (.construct a) t := by
  have hopens : Opens ⟨objects, n⟩ a <-> a.opened = true :=
    and_iff_right hready
  constructor
  · exact h.sound
  · rw [h.kept, hkept, hused, heeds_construct_iff, hopens]
  · rw [h.used, hused, constructs_construct_iff, hopens]
  · rw [h.context]
    constructor
    · intro hnone
      exact absurd hnone hcontext
    · intro hnone
      rcases hready with hready | hready
      · exact absurd hnone.left hready
      · rw [hnone.right a rfl] at hready
        cases hready

theorem opened_step (h : Sound ⟨objects, n⟩) (hcontext : n.context ≠ none) :
    Opened objects n a (constructed objects (NfcDevice.openDevice a n)) := by
  cases ha : a.opened with
  | false => exact opened_of_not_opened h hcontext ha
  | true =>
      cases hinitiator : a.initiator with
      | false => exact opened_of_not_initiator h ha hinitiator
      | true => exact opened_of_initiator h hcontext ha hinitiator

def initialised (n : Nfc) : Nfc :=
  { n with context := some n.log.length }.addLog
    (.nfcInit (some n.log.length))

theorem used_initialised :
    Used ⟨objects, initialised n⟩ <-> Used ⟨objects, n⟩ := by
  simp [Used, initialised, Nfc.addLog]

theorem kept_initialised :
    Kept ⟨objects, initialised n⟩ <-> Kept ⟨objects, n⟩ := by
  have hkept := kept_concat (s := ⟨objects, n⟩) (t := ⟨objects, initialised n⟩)
    (e := .nfcInit (some n.log.length)) rfl (Kind.accounted_idle rfl rfl)
  exact hkept.trans (and_iff_left trivial)

theorem Sound.init (h : Sound ⟨objects, n⟩) (hcontext : n.context = none) :
    Sound ⟨objects, initialised n⟩ where
  consistent := h.consistent.init hcontext
  exited _ := by
    have hunused := (h.consistent.unused hcontext).left
    constructor
    · intro k _ _
      have hnone : contexts.releases n.log k = 0 := by
        by_contra hsome
        have hacquired := h.consistent.contextGiven k hsome
        rw [h.consistent.context k, hcontext] at hacquired
        cases hacquired
      exact (Kind.releases_idle rfl).trans hnone
    · intro k _ _ hused
      exact absurd (used_initialised.mp hused) hunused

theorem construct_step (h : Sound ⟨objects, n⟩) :
    Stepped ⟨objects, n⟩ (.construct a)
      (constructed objects (NfcDevice.new a n)) := by
  by_cases hcontext : n.context = none
  · have hunused := h.consistent.unused hcontext
    cases ha : a.init with
    | true =>
        have hinit : NfcDevice.initContext a n = (.ok (), initialised n) :=
          initContext_of_init hunused.right.right hcontext ha
        have hsome : (initialised n).context ≠ none := by
          simp [initialised, Nfc.addLog]
        rw [NfcDevice.new, Prog.bind_of_ok _ hinit]
        exact (opened_step (h.init hcontext) hsome).stepped kept_initialised
          used_initialised hsome (Or.inr ha)
    | false =>
        have hinit := initContext_of_not_init hunused.right.right hcontext ha
        have hidle : Idle n (.nfcInit none) :=
          ⟨rfl, Or.inl rfl, rfl, rfl, fun _ => by simp⟩
        have hopens : ¬ Opens ⟨objects, n⟩ a := by
          simp [Opens, hcontext, ha]
        rw [NfcDevice.new, Prog.bind_of_error _ hinit]
        constructor
        · exact (h.idle hidle rfl).error _
        · refine (kept_error.trans (kept_idle_iff hidle)).trans ?_
          rw [heeds_construct_iff]
          simp [hopens, hunused.left, Allowed]
        · refine (used_error.trans (used_idle_iff hidle)).trans ?_
          rw [constructs_construct_iff]
          simp [hopens]
        · simp [constructed, Nfc.addLog, hcontext, ha]
  · rw [NfcDevice.new, Prog.bind_of_ok _ (initContext_of_context hcontext)]
    exact (opened_step h hcontext).stepped Iff.rfl Iff.rfl hcontext
      (Or.inl hcontext)

end Construct

section Destroy

variable {front back : List NfcDevice} {self : NfcDevice} {n : Nfc} {d : Nat}

theorem kept_close_iff (h : Sound ⟨front ++ self :: back, n⟩)
    (hself : self.device = some d) :
    Kept ⟨front ++ back, closing n d⟩ <->
      Kept ⟨front ++ self :: back, n⟩ := by
  have hheld : Held ⟨front ++ self :: back, n⟩ d :=
    (held_split hself).mpr (Or.inl rfl)
  have halive : devices.Alive n.log d := h.consistent.held d hheld
  have hclosed : devices.Accounted (closing n d).log
      (Held ⟨front ++ back, closing n d⟩) <->
        devices.Accounted n.log (Held ⟨front ++ self :: back, n⟩) := by
    apply Kind.accounted_release halive rfl rfl hheld
    · exact h.consistent.not_held hself
    · intro e he
      rw [held_split hself, or_iff_right he]
      rfl
  have hkept := kept_concat (s := ⟨front ++ self :: back, n⟩)
    (t := ⟨front ++ back, closing n d⟩) (e := .nfcClose d) rfl hclosed
  exact hkept.trans (and_iff_left halive)

theorem used_close (h : Sound ⟨front ++ self :: back, n⟩) :
    Used ⟨front ++ back, closing n d⟩ :=
  used_addLog.mpr (Or.inl (h.consistent.used (by simp)))

theorem Sound.releases_eq_zero (h : Sound ⟨front ++ self :: back, n⟩)
    (hlawful : Lawful Allowed n.log) {k : Nat} (hk : n.context = some k) :
    contexts.releases n.log k = 0 :=
  (h.exited hlawful).notYet k hk (Or.inl (by simp))

/-- The counter is zero when the number of objects that are left is a multiple of
the number of values of an `int`. -/
theorem Consistent.last_iff (h : Consistent ⟨front ++ self :: back, n⟩)
    (hself : self.device = some d) :
    toInt (n.instances - 1) = 0 <-> intValues ∣ (front ++ back).length := by
  have hcounted : toInt (n.instances - 1) = toInt (front ++ back).length :=
    (h.close hself).counted
  rw [hcounted, toInt, ← Int.dvd_iff_bmod_eq_zero, Int.natCast_dvd_natCast]

/-- An object that is left keeps its device open. -/
theorem nil_of_allowed_exit (h : Sound ⟨front ++ self :: back, n⟩)
    (hself : self.device = some d)
    (hallowed : Allowed (closing n d).log (.nfcExit n.context)) :
    front ++ back = [] := by
  have hclose := h.consistent.close hself
  by_contra hsome
  rcases List.exists_mem_of_ne_nil _ hsome with ⟨other, hother⟩
  rcases Option.ne_none_iff_exists'.mp (hclose.pointers other hother) with
    ⟨e, he⟩
  exact hallowed.right e (hclose.held e ⟨other, hother, he⟩)

theorem allowed_exit_iff (h : Sound ⟨front ++ self :: back, n⟩)
    (hself : self.device = some d) (hkept : Kept ⟨front ++ back, closing n d⟩) :
    Allowed (closing n d).log (.nfcExit n.context) <-> front ++ back = [] := by
  have hclose := h.consistent.close hself
  constructor
  · exact nil_of_allowed_exit h hself
  · intro hnone
    have hcontext : n.context ≠ none :=
      h.consistent.opened (h.consistent.used (by simp))
    rcases Option.ne_none_iff_exists'.mp hcontext with ⟨k, hk⟩
    have hbefore := ((kept_close_iff h hself).mp hkept).lawful
    constructor
    · refine ⟨k, hk, (hclose.context k).mpr hk, ?_⟩
      exact (Kind.releases_idle rfl).trans (h.releases_eq_zero hbefore hk)
    · intro e hopen
      have hclosed := (hkept.closed e hopen.left).right (by
        rintro ⟨other, hother, _⟩
        rw [hnone] at hother
        cases hother)
      rw [hopen.right] at hclosed
      cases hclosed

theorem idle_nfcExit (n : Nfc) (d : Nat) :
    Idle (closing n d) (.nfcExit n.context) where
  context := rfl
  exited := Or.inr rfl
  device := rfl
  closed := rfl
  used _ := by simp

theorem Sound.close (h : Sound ⟨front ++ self :: back, n⟩)
    (hself : self.device = some d) (hsome : front ++ back ≠ []) :
    Sound ⟨front ++ back, closing n d⟩ where
  consistent := h.consistent.close hself
  exited hlawful := by
    have hbefore := (lawful_concat.mp hlawful).left
    constructor
    · intro k hk _
      exact (Kind.releases_idle rfl).trans (h.releases_eq_zero hbefore hk)
    · intro k _ hnone
      exact absurd hnone hsome

theorem Sound.exit (h : Sound ⟨front ++ self :: back, n⟩)
    (hself : self.device = some d) :
    Sound ⟨front ++ back, (closing n d).addLog (.nfcExit n.context)⟩ where
  consistent := (h.consistent.close hself).idle (idle_nfcExit n d)
  exited hlawful := by
    have hexit := lawful_concat.mp hlawful
    have hbefore := (lawful_concat.mp hexit.left).left
    have hnone := nil_of_allowed_exit h hself hexit.right
    have hused := used_close (d := d) h
    constructor
    · intro k _ hcase
      rcases hcase with hsome | hunused
      · exact absurd hnone hsome
      · exact absurd ((used_idle_iff (idle_nfcExit n d)).mpr hused) hunused
    · intro k hk _ _
      have hk : n.context = some k := hk
      have hclosed : contexts.releases (closing n d).log k = 0 :=
        (Kind.releases_idle rfl).trans (h.releases_eq_zero hbefore hk)
      refine Kind.releases_concat.trans ?_
      rw [hclosed, contexts_released, if_pos hk]

theorem destroy_step (h : Sound ⟨front ++ self :: back, n⟩)
    (hself : self.device = some d) (i : Nat) :
    Stepped ⟨front ++ self :: back, n⟩ (.destroy i)
      ⟨front ++ back, (self.delete n).2⟩ := by
  have hused : Used ⟨front ++ self :: back, n⟩ := h.consistent.used (by simp)
  have hcontext : n.context ≠ none := h.consistent.opened hused
  have hheeds : Heeds ⟨front ++ self :: back, n⟩ (.destroy i) <->
      (intValues ∣ (front ++ back).length -> front ++ back = []) := by
    have hlength : (front ++ self :: back).length =
        (front ++ back).length + 1 := by
      simp only [List.length_append, List.length_cons]
      omega
    rw [heeds_destroy_iff, hlength, Nat.add_sub_cancel, Nat.succ_inj,
      List.length_eq_zero_iff]
  rw [delete_apply hself]
  by_cases hlast : toInt (n.instances - 1) = 0
  · have hdvd := (h.consistent.last_iff hself).mp hlast
    rw [if_pos hlast]
    constructor
    · exact h.exit hself
    · rw [kept_idle_iff (idle_nfcExit n d), hheeds, ← kept_close_iff h hself]
      apply and_congr_right
      intro hkept
      refine (allowed_exit_iff h hself hkept).trans ?_
      exact ⟨fun hnone _ => hnone, fun hall => hall hdvd⟩
    · have hafter := (used_idle_iff (idle_nfcExit n d)).mpr (used_close h)
      exact iff_of_true hafter (Or.inl hused)
    · simp [closing, Nfc.addLog, hcontext]
  · have hdvd := mt (h.consistent.last_iff hself).mpr hlast
    have hsome : front ++ back ≠ [] := by
      intro hnone
      rw [hnone] at hdvd
      exact hdvd (Nat.dvd_zero _)
    rw [if_neg hlast]
    constructor
    · exact h.close hself hsome
    · rw [kept_close_iff h hself, hheeds,
        and_iff_left (fun hall => absurd hall hdvd)]
    · exact iff_of_true (used_close h) (Or.inl hused)
    · simp [closing, Nfc.addLog, hcontext]

end Destroy

theorem split_of_getElem? {α : Type} {xs : List α} {i : Nat} {x : α}
    (h : xs[i]? = some x) :
    exists front back, xs = front ++ x :: back ∧
      xs.eraseIdx i = front ++ back := by
  rcases List.getElem?_eq_some_iff.mp h with ⟨hi, rfl⟩
  refine ⟨xs.take i, xs.drop (i + 1), ?_, List.eraseIdx_eq_take_drop_succ xs i⟩
  rw [← List.drop_eq_getElem_cons hi, List.take_append_drop]

theorem step_stepped {op : Op} {s t : Lifecycle} (h : Sound s)
    (hstep : step op s = some t) : Stepped s op t := by
  cases op with
  | construct a =>
      cases hstep
      exact construct_step h
  | destroy i =>
      simp only [step] at hstep
      cases hself : s.objects[i]? with
      | none =>
          rw [hself] at hstep
          cases hstep
      | some self =>
          rw [hself] at hstep
          cases hstep
          rcases split_of_getElem? hself with ⟨front, back, hobjects, herase⟩
          have hmem : self ∈ s.objects := List.mem_of_getElem? hself
          rcases Option.ne_none_iff_exists'.mp
            (h.consistent.pointers self hmem) with ⟨d, hd⟩
          rcases s with ⟨objects, n⟩
          cases hobjects
          rw [herase]
          exact destroy_step h hd i

/-!
## Sequences
-/

theorem sound_start : Sound start where
  consistent := consistent_start
  exited _ := by
    constructor
    · intro k hk
      cases hk
    · intro k hk
      cases hk

theorem kept_start : Kept start where
  lawful := lawful_nil
  closed _ hd := absurd hd Kind.not_acquired_nil

theorem not_used_start : ¬ Used start := by
  rintro ⟨d, hd⟩
  cases hd

section Run

variable {ops : List Op} {s : Lifecycle}

theorem stepped_of_mem {r : Transition Op Lifecycle}
    (hr : r ∈ Run.transitions step ops start) :
    Stepped r.before r.input r.after := by
  have hsound : Sound r.before := by
    apply Run.invariant_before ?_ sound_start hr
    intro q hq hbefore
    exact (step_stepped hbefore (Run.mem_transitions_step hq)).sound
  exact step_stepped hsound (Run.mem_transitions_step hr)

theorem head_sound (h : Run.head step ops start = some s) : Sound s :=
  Run.invariant_head (fun _ hr _ => (stepped_of_mem hr).sound) sound_start h

theorem kept_iff (h : Run.head step ops start = some s) :
    Kept s <-> forall r, r ∈ Run.transitions step ops start ->
      Heeds r.before r.input := by
  rw [Run.kept_head_iff (P := Kept) (Q := fun r => Heeds r.before r.input)
    (fun r hr => (stepped_of_mem hr).kept) h, and_iff_right kept_start]

theorem used_iff (h : Run.head step ops start = some s) :
    s.Used <-> exists r, r ∈ Run.transitions step ops start ∧
      Constructs r.before r.input := by
  rw [Run.reached_head_iff (P := Used)
    (Q := fun r => Constructs r.before r.input)
    (fun r hr => (stepped_of_mem hr).used) h, or_iff_right not_used_start]

theorem context_eq_none_iff (h : Run.head step ops start = some s) :
    s.nfc.context = none <->
      forall r, r ∈ Run.transitions step ops start ->
        forall a, r.input = .construct a -> a.init = false := by
  rw [Run.kept_head_iff (P := fun s => s.nfc.context = none)
    (fun r hr => (stepped_of_mem hr).context) h]
  exact and_iff_right rfl

/-- What is asked of the exits: a context that was initialised is used by some
object. -/
theorem orderly_iff_kept (h : Sound s) :
    Orderly s <-> Kept s ∧ (s.Used ∨ s.nfc.context = none) := by
  constructor
  · intro horderly
    refine ⟨⟨horderly.lawful, horderly.closed⟩, ?_⟩
    by_contra hneither
    rw [not_or] at hneither
    rcases Option.ne_none_iff_exists'.mp hneither.right with ⟨k, hk⟩
    have hnone : s.objects = [] := by
      by_contra hsome
      exact hneither.left (h.consistent.used hsome)
    have hone := (horderly.exited k ((h.consistent.context k).mpr hk)).right
      (absurd hnone)
    rw [(h.exited horderly.lawful).notYet k hk (Or.inr hneither.left)] at hone
    cases hone
  · intro hboth
    refine ⟨hboth.left.lawful, hboth.left.closed, ?_⟩
    intro k hacquired
    have hk := (h.consistent.context k).mp hacquired
    have hexited := h.exited hboth.left.lawful
    constructor
    · intro hsome
      exact hexited.notYet k hk (Or.inl hsome)
    · intro hnone
      rcases hboth.right with hused | hcontext
      · exact hexited.once k hk (not_not.mp hnone) hused
      · rw [hcontext] at hk
        cases hk

/-- The library is used in order exactly along the sequences in order. -/
theorem orderly_iff (h : Run.head step ops start = some s) :
    Orderly s <-> InOrder ops := by
  rw [orderly_iff_kept (head_sound h), kept_iff h, used_iff h,
    context_eq_none_iff h]
  constructor
  · intro hboth
    exact ⟨hboth.left, hboth.right⟩
  · intro horder
    exact ⟨horder.heeds, horder.constructs⟩

def succeeding : Opening where
  init := true
  opened := true
  initiator := true

theorem orderly_once :
    exists s, Run.head step [.construct succeeding, .destroy 0] start = some s ∧
      Orderly s := by
  let opened : Lifecycle := (step (.construct succeeding) start).get rfl
  let closed : Lifecycle := (step (.destroy 0) opened).get rfl
  have hrounds : Run.transitions step [.construct succeeding, .destroy 0]
      start = [⟨start, .construct succeeding, opened⟩,
        ⟨opened, .destroy 0, closed⟩] :=
    rfl
  have hrun : Run.head step [.construct succeeding, .destroy 0] start =
      some closed :=
    rfl
  refine ⟨closed, hrun, (orderly_iff hrun).mpr ⟨?_, Or.inl ?_⟩⟩
  · intro r hr
    rw [hrounds, List.mem_pair] at hr
    rcases hr with rfl | rfl
    · exact
        { initiator := fun _ h _ => Op.construct.inj h ▸ rfl
          first := fun _ _ _ => not_used_start
          last := fun _ h => by cases h }
    · exact
        { initiator := fun _ h => by cases h
          first := fun _ h => by cases h
          last := fun _ _ _ => rfl }
  · exact ⟨_, hrounds ▸ List.mem_cons_self, succeeding, rfl,
      ⟨Or.inr rfl, rfl⟩, rfl⟩

/-- The next object after the last one was destroyed is given the context that
was exited. -/
theorem not_always_orderly :
    ¬ forall ops s, Run.head step ops start = some s -> Orderly s := by
  intro h
  have hlog : (Run.head step [.construct succeeding, .destroy 0,
      .construct succeeding] start).map (fun s => s.nfc.log) =
        some [.nfcInit (some 0), .nfcOpen (some 0) (some 1),
          .nfcInitiatorInit 1 true, .nfcClose 1, .nfcExit (some 0),
          .nfcOpen (some 0) (some 5), .nfcInitiatorInit 5 true] := by
    decide
  rcases Option.map_eq_some_iff.mp hlog with ⟨s, hrun, hs⟩
  have hopen := (h _ s hrun).lawful [.nfcInit (some 0),
    .nfcOpen (some 0) (some 1), .nfcInitiatorInit 1 true, .nfcClose 1,
    .nfcExit (some 0)] (.nfcOpen (some 0) (some 5)) _ hs
  rcases hopen with ⟨k, hk, halive⟩
  cases hk
  have hreleased := halive.right
  revert hreleased
  decide

end Run

end Lifecycle

end BeeGadz
