import BeeGadz.Foundation.Run
import BeeGadz.Nfc

/-!
# The life of the NFC context

Objects of the driver are constructed and destroyed in any order.  The module
says what is asked of the calls they make and of such a sequence, and what holds
of the context, the devices and the counter along every sequence.
-/

namespace BeeGadz

open Foundation

/-- The objects that are alive, in the order of their construction, and the
static members. -/
structure Lifecycle where
  objects : List NfcDevice
  nfc : Nfc

namespace Lifecycle

def start : Lifecycle where
  objects := []
  nfc := Nfc.start

inductive Op where
  | construct (a : Opening)
  /-- the destruction of the `i`-th object alive -/
  | destroy (i : Nat)

def constructed (objects : List NfcDevice)
    (r : Except Exn NfcDevice × Nfc) : Lifecycle :=
  match r with
  | (.ok self, nfc) => ⟨objects ++ [self], nfc⟩
  | (.error _, nfc) => ⟨objects, nfc⟩

def step (op : Op) (s : Lifecycle) : Option Lifecycle :=
  match op with
  | .construct a => some (constructed s.objects (NfcDevice.new a s.nfc))
  | .destroy i =>
      match s.objects[i]? with
      | some self => some ⟨s.objects.eraseIdx i, (self.delete s.nfc).2⟩
      | none => none

/-!
## What is asked of the calls
-/

def contexts : Kind NfcEvent Nat where
  acquired
    | .nfcInit context => context
    | _ => none
  released
    | .nfcExit context => context
    | _ => none

def devices : Kind NfcEvent Nat where
  acquired
    | .nfcOpen _ device => device
    | _ => none
  released
    | .nfcClose device => some device
    | _ => none

theorem contexts_acquired (e : NfcEvent) :
    contexts.acquired e = match e with
      | .nfcInit context => context
      | _ => none := rfl

theorem contexts_released (e : NfcEvent) :
    contexts.released e = match e with
      | .nfcExit context => context
      | _ => none := rfl

theorem devices_released (e : NfcEvent) :
    devices.released e = match e with
      | .nfcClose device => some device
      | _ => none := rfl

/-- A context is used only while it is alive and exited only when no device is
open, and only an open device is closed. -/
def Allowed (log : List NfcEvent) : NfcEvent -> Prop
  | .nfcOpen context _ =>
      exists k, context = some k ∧ contexts.Alive log k
  | .nfcExit context =>
      (exists k, context = some k ∧ contexts.Alive log k) ∧
        forall d, ¬ devices.Alive log d
  | .nfcClose device => devices.Alive log device
  | _ => True

def Held (s : Lifecycle) (d : Nat) : Prop :=
  exists self, self ∈ s.objects ∧ self.device = some d

/-- The context is used only while it is alive.  Each device is closed once, when
the object that holds it is destroyed, and each context is exited once, when the
last object is destroyed. -/
structure Orderly (s : Lifecycle) : Prop where
  lawful : Lawful Allowed s.nfc.log
  closed : devices.Accounted s.nfc.log s.Held
  exited : contexts.Accounted s.nfc.log fun _ => s.objects ≠ []

/-!
## What is asked of the sequence
-/

def Used (s : Lifecycle) : Prop :=
  exists d, .nfcInitiatorInit d true ∈ s.nfc.log

def Opens (s : Lifecycle) (a : Opening) : Prop :=
  (s.nfc.context ≠ none ∨ a.init = true) ∧ a.opened = true

/-- The counter of objects is an `int`: it is zero also for a multiple of its
number of values. -/
structure Heeds (s : Lifecycle) (op : Op) : Prop where
  initiator : forall a, op = .construct a -> s.Opens a -> a.initiator = true
  first : forall a, op = .construct a -> s.objects = [] -> ¬ s.Used
  last : forall i, op = .destroy i -> intValues ∣ s.objects.length - 1 ->
    s.objects.length = 1

def Constructs (s : Lifecycle) (op : Op) : Prop :=
  exists a, op = .construct a ∧ s.Opens a ∧ a.initiator = true

/-- No device that was opened fails to be initialised, nothing is constructed
once all objects were destroyed, and some construction succeeds if there is a
context at all. -/
structure InOrder (ops : List Op) : Prop where
  heeds : forall r, r ∈ Run.transitions step ops start ->
    Heeds r.before r.input
  constructs : (exists r, r ∈ Run.transitions step ops start ∧
      Constructs r.before r.input) ∨
    forall r, r ∈ Run.transitions step ops start ->
      forall a, r.input = .construct a -> a.init = false

/-!
## The constructor and the destructor
-/

section Calls

variable {a : Opening} {s : Nfc}

theorem initContext_of_context (h : s.context ≠ none) :
    NfcDevice.initContext a s = (.ok (), s) := by
  simp [NfcDevice.initContext, Prog.bind_apply, h]

theorem initContext_of_init (hinstances : s.instances = 0)
    (hcontext : s.context = none) (ha : a.init = true) :
    NfcDevice.initContext a s =
      (.ok (), { s with context := some s.log.length }.addLog
        (.nfcInit (some s.log.length))) := by
  simp [NfcDevice.initContext, Prog.bind_apply, hinstances, hcontext, ha,
    Nfc.nfcInit, Nfc.handle, Nfc.addLog]

theorem initContext_of_not_init (hinstances : s.instances = 0)
    (hcontext : s.context = none) (ha : a.init = false) :
    NfcDevice.initContext a s =
      (.error .exception, (s.addLog (.nfcInit none)).addLog
        (.error "Error initialising the context for NFC")) := by
  simp [NfcDevice.initContext, Prog.bind_apply, hinstances, hcontext, ha,
    Nfc.nfcInit, Nfc.handle, Nfc.addLog, Nfc.printError]

theorem openDevice_of_not_opened (ha : a.opened = false) :
    NfcDevice.openDevice a s =
      (.error .exception, (s.addLog (.nfcOpen s.context none)).addLog
        (.error "Error, unable to open NFC device")) := by
  simp [NfcDevice.openDevice, Prog.bind_apply, ha, Nfc.nfcOpen, Nfc.handle,
    Nfc.printError]

theorem openDevice_of_not_initiator (ha : a.opened = true)
    (hinitiator : a.initiator = false) :
    NfcDevice.openDevice a s =
      (.error .exception,
        ((s.addLog (.nfcOpen s.context (some s.log.length))).addLog
          (.nfcInitiatorInit s.log.length false)).addLog
            (.error "Error while initializing device")) := by
  simp [NfcDevice.openDevice, Prog.bind_apply, ha, hinitiator, Nfc.nfcOpen,
    Nfc.handle, Nfc.nfcInitiatorInit, Nfc.printError]

theorem openDevice_of_initiator (ha : a.opened = true)
    (hinitiator : a.initiator = true) :
    NfcDevice.openDevice a s =
      (.ok ⟨true, some s.log.length⟩,
        { (s.addLog (.nfcOpen s.context (some s.log.length))).addLog
            (.nfcInitiatorInit s.log.length true) with
          instances := toInt (s.instances + 1) }) := by
  simp [NfcDevice.openDevice, Prog.bind_apply, ha, hinitiator, Nfc.nfcOpen,
    Nfc.handle, Nfc.nfcInitiatorInit, Nfc.addLog]

def closing (s : Nfc) (d : Nat) : Nfc :=
  { s with instances := toInt (s.instances - 1) }.addLog (.nfcClose d)

theorem delete_apply {self : NfcDevice} {d : Nat} (h : self.device = some d) :
    self.delete s =
      (.ok (), if toInt (s.instances - 1) = 0 then
        (closing s d).addLog (.nfcExit s.context)
      else closing s d) := by
  by_cases hlast : toInt (s.instances - 1) = 0
  · simp [NfcDevice.delete, Prog.bind_apply, h, hlast, Nfc.nfcClose,
      Nfc.nfcExit, Nfc.addLog, closing]
  · simp [NfcDevice.delete, Prog.bind_apply, h, hlast, Nfc.nfcClose,
      Nfc.addLog, closing]

end Calls

/-!
## What holds along every sequence
-/

/-- The context is the one that was acquired, an object alive holds a device of
its own that is open, and the counter counts the objects. -/
structure Consistent (s : Lifecycle) : Prop where
  context : forall k,
    contexts.Acquired s.nfc.log k <-> s.nfc.context = some k
  contextGiven : contexts.Given s.nfc.log
  deviceOld : forall d, devices.Acquired s.nfc.log d -> d < s.nfc.log.length
  deviceGiven : devices.Given s.nfc.log
  held : forall d, s.Held d -> devices.Alive s.nfc.log d
  pointers : forall self, self ∈ s.objects -> self.device ≠ none
  distinct : (s.objects.map NfcDevice.device).Nodup
  counted : s.nfc.instances = toInt s.objects.length
  used : s.objects ≠ [] -> s.Used
  opened : s.Used -> s.nfc.context ≠ none

theorem consistent_start : Consistent start where
  context k := by simp [Kind.Acquired, start, Nfc.start]
  contextGiven k hk := absurd rfl hk
  deviceOld d hd := absurd hd Kind.not_acquired_nil
  deviceGiven d hd := absurd rfl hd
  held := by
    rintro d ⟨self, hself, _⟩
    cases hself
  pointers self hself := by cases hself
  distinct := List.nodup_nil
  counted := by simp [start, Nfc.start, toInt]
  used h := absurd rfl h
  opened := by
    rintro ⟨d, hd⟩
    cases hd

section Preserved

variable {objects : List NfcDevice} {n : Nfc} {e : NfcEvent}

theorem used_addLog :
    Used ⟨objects, n.addLog e⟩ <->
      Used ⟨objects, n⟩ ∨ exists d, e = .nfcInitiatorInit d true := by
  simp [Used, Nfc.addLog, exists_or, eq_comm]

/-- An event that neither gives nor takes a device, gives no context and does
not end a construction. -/
structure Idle (n : Nfc) (e : NfcEvent) : Prop where
  context : contexts.acquired e = none
  exited : contexts.released e = none ∨ contexts.released e = n.context
  device : devices.acquired e = none
  closed : devices.released e = none
  used : forall d, e ≠ .nfcInitiatorInit d true

theorem Consistent.context_concat (h : Consistent ⟨objects, n⟩)
    (he : contexts.acquired e = none) (k : Nat) :
    contexts.Acquired (n.log ++ [e]) k <-> n.context = some k := by
  rw [Kind.acquired_concat, he, h.context k]
  simp

theorem Consistent.opened_concat (h : Consistent ⟨objects, n⟩)
    (he : forall d, e ≠ .nfcInitiatorInit d true)
    (hused : Used ⟨objects, n.addLog e⟩) : n.context ≠ none := by
  rcases used_addLog.mp hused with hbefore | ⟨d, hd⟩
  · exact h.opened hbefore
  · exact absurd hd (he d)

theorem Consistent.idle (h : Consistent ⟨objects, n⟩) (he : Idle n e) :
    Consistent ⟨objects, n.addLog e⟩ where
  context := h.context_concat he.context
  contextGiven := h.contextGiven.concat fun k hk => by
    rcases he.exited with hexited | hexited
    · rw [hexited] at hk
      cases hk
    · rw [hexited] at hk
      exact (h.context k).mpr hk
  deviceOld := Kind.old_concat h.deviceOld fun d hd => by
    rw [he.device] at hd
    cases hd
  deviceGiven := h.deviceGiven.concat fun d hd => by
    rw [he.closed] at hd
    cases hd
  held d hd := (h.held d hd).concat (by simp [he.closed])
  pointers := h.pointers
  distinct := h.distinct
  counted := h.counted
  used hobjects := used_addLog.mpr (Or.inl (h.used hobjects))
  opened := h.opened_concat he.used

theorem Consistent.init (h : Consistent ⟨objects, n⟩)
    (hcontext : n.context = none) :
    Consistent ⟨objects, { n with context := some n.log.length }.addLog
      (.nfcInit (some n.log.length))⟩ where
  context k := by
    have hnone : ¬ contexts.Acquired n.log k := by
      rw [h.context k, hcontext]
      simp
    simp [Nfc.addLog, Kind.acquired_concat, hnone, contexts_acquired]
  contextGiven := h.contextGiven.concat fun k hk => by cases hk
  deviceOld := Kind.old_concat h.deviceOld fun d hd => by cases hd
  deviceGiven := h.deviceGiven.concat fun d hd => by cases hd
  held d hd := (h.held d hd).concat (by simp [devices_released])
  pointers := h.pointers
  distinct := h.distinct
  counted := h.counted
  used hobjects := used_addLog.mpr (Or.inl (h.used hobjects))
  opened _ := by simp [Nfc.addLog]

theorem Consistent.open (h : Consistent ⟨objects, n⟩) :
    Consistent ⟨objects, n.addLog
      (.nfcOpen n.context (some n.log.length))⟩ where
  context := h.context_concat rfl
  contextGiven := h.contextGiven.concat fun k hk => by cases hk
  deviceOld := Kind.old_concat h.deviceOld fun d hd => by
    cases hd
    exact Nat.le_refl _
  deviceGiven := h.deviceGiven.concat fun d hd => by cases hd
  held d hd := (h.held d hd).concat (by simp [devices_released])
  pointers := h.pointers
  distinct := h.distinct
  counted := h.counted
  used hobjects := used_addLog.mpr (Or.inl (h.used hobjects))
  opened := h.opened_concat fun d hd => by cases hd

theorem Consistent.construct (h : Consistent ⟨objects, n⟩) {d : Nat}
    (halive : devices.Alive n.log d) (hnew : ¬ Held ⟨objects, n⟩ d)
    (hcontext : n.context ≠ none) :
    Consistent ⟨objects ++ [⟨true, some d⟩],
      { n.addLog (.nfcInitiatorInit d true) with
        instances := toInt (n.instances + 1) }⟩ where
  context := h.context_concat rfl
  contextGiven := h.contextGiven.concat fun k hk => by cases hk
  deviceOld := Kind.old_concat h.deviceOld fun e he => by cases he
  deviceGiven := h.deviceGiven.concat fun d hd => by cases hd
  held := by
    rintro e ⟨self, hself, hdevice⟩
    have hopen : devices.Alive n.log e := by
      rcases List.mem_append.mp hself with hold | hnow
      · exact h.held e ⟨self, hold, hdevice⟩
      · rw [List.mem_singleton.mp hnow] at hdevice
        cases hdevice
        exact halive
    exact hopen.concat (by simp [devices_released])
  pointers self hself := by
    rcases List.mem_append.mp hself with hold | hnow
    · exact h.pointers self hold
    · rw [List.mem_singleton.mp hnow]
      simp
  distinct := by
    rw [List.map_append, List.nodup_append]
    refine ⟨h.distinct, List.nodup_singleton _, ?_⟩
    rintro device hdevice other hother rfl
    rcases List.mem_map.mp hdevice with ⟨self, hself, hself_device⟩
    have hsome : device = some d := by simpa using hother
    exact hnew ⟨self, hself, hself_device.trans hsome⟩
  counted := by
    rw [h.counted]
    simp [toInt]
  used _ := ⟨d, by simp [Nfc.addLog]⟩
  opened _ := hcontext

end Preserved

section Destroyed

variable {front back : List NfcDevice} {self : NfcDevice} {n : Nfc} {d : Nat}

theorem held_split (hself : self.device = some d) {e : Nat} :
    Held ⟨front ++ self :: back, n⟩ e <->
      e = d ∨ Held ⟨front ++ back, n⟩ e := by
  constructor
  · rintro ⟨other, hother, hdevice⟩
    rcases List.mem_append.mp hother with hfront | hback
    · exact Or.inr ⟨other, List.mem_append_left _ hfront, hdevice⟩
    · rcases List.mem_cons.mp hback with rfl | hback
      · rw [hself] at hdevice
        cases hdevice
        exact Or.inl rfl
      · exact Or.inr ⟨other, List.mem_append_right _ hback, hdevice⟩
  · rintro (rfl | ⟨other, hother, hdevice⟩)
    · exact ⟨self, by simp, hself⟩
    · refine ⟨other, ?_, hdevice⟩
      rcases List.mem_append.mp hother with hfront | hback
      · exact List.mem_append_left _ hfront
      · exact List.mem_append_right _ (List.mem_cons_of_mem _ hback)

theorem Consistent.distinct_split
    (h : Consistent ⟨front ++ self :: back, n⟩) :
    self.device ∉ (front ++ back).map NfcDevice.device ∧
      ((front ++ back).map NfcDevice.device).Nodup := by
  have hdistinct := h.distinct
  rw [List.map_append, List.map_cons, List.nodup_middle,
    ← List.map_append] at hdistinct
  exact List.nodup_cons.mp hdistinct

theorem Consistent.not_held (h : Consistent ⟨front ++ self :: back, n⟩)
    (hself : self.device = some d) : ¬ Held ⟨front ++ back, n⟩ d := by
  rintro ⟨other, hother, hdevice⟩
  apply h.distinct_split.left
  exact List.mem_map.mpr ⟨other, hother, hdevice.trans hself.symm⟩

theorem Consistent.close (h : Consistent ⟨front ++ self :: back, n⟩)
    (hself : self.device = some d) :
    Consistent ⟨front ++ back, closing n d⟩ where
  context := h.context_concat rfl
  contextGiven := h.contextGiven.concat fun k hk => by cases hk
  deviceOld := Kind.old_concat h.deviceOld fun e he => by cases he
  deviceGiven := h.deviceGiven.concat fun e he => by
    cases he
    exact (h.held d ((held_split hself).mpr (Or.inl rfl))).left
  held e he := by
    have hopen : devices.Alive n.log e :=
      h.held e ((held_split hself).mpr (Or.inr he))
    apply hopen.concat
    rw [devices_released]
    rintro hsame
    cases hsame
    exact h.not_held hself he
  pointers other hother := by
    apply h.pointers other
    simp only [List.mem_append, List.mem_cons] at hother ⊢
    tauto
  distinct := h.distinct_split.right
  counted := by
    have hlength : ((front ++ self :: back).length : Int) - 1 =
        (front ++ back).length := by
      simp only [List.length_append, List.length_cons]
      omega
    have hcounted : n.instances = toInt (front ++ self :: back).length :=
      h.counted
    rw [← hlength]
    simp [closing, Nfc.addLog, hcounted, toInt]
  used _ := by
    have hused : Used ⟨front ++ self :: back, n⟩ := h.used (by simp)
    exact used_addLog.mpr (Or.inl hused)
  opened := h.opened_concat fun e he => by cases he

end Destroyed

end Lifecycle

end BeeGadz
