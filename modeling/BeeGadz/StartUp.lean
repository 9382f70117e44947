import BeeGadz.ModeMachine
import BeeGadz.Nfc.Lifecycle

/-!
# Start-up

The constructor of the application reads the configuration, connects to the
databases, opens the reader and creates the configured mode.  A name that is no
mode assigns nothing: the mode that is created then depends on what the memory of
the configuration held before.
-/

namespace BeeGadz

open Foundation

/-!
## The configuration document
-/

/-- An entry of `"mysql"`. -/
structure SqlEntry where
  server : Option String
  database : Option String
  user : Option String
  password : Option String

structure Document where
  mode : Option String
  mysql : List SqlEntry
  consos : List (String × Rat)
  ticket : Option String
  pianss : Option String

/-- An entry of `m_sql`. -/
structure SqlInfo where
  server : String
  database : String
  user : String
  password : String

/-- The `Config` object: `m_mode` holds the number of an enumerator, or anything
else. -/
structure Settings where
  config : Config
  mode : UInt32
  sql : List SqlInfo

/-- The number of an enumerator of `Config::Mode`. -/
def ConfigMode.value : ConfigMode -> UInt32
  | .caisse => 0
  | .bar => 1
  | .kve => 2
  | .admin => 3

def SqlEntry.info (i : SqlEntry) : SqlInfo where
  server := i.server.getD "127.0.0.1"
  database := i.database.getD "guinche"
  user := i.user.getD "root"
  password := i.password.getD ""

namespace Config

/-- What `m_mode` holds for a name: `leftover` is what its memory held before. -/
def modeOf (name : String) (leftover : UInt32) : UInt32 :=
  if name = "bar" then ConfigMode.bar.value
  else if name = "caisse" then ConfigMode.caisse.value
  else if name = "kve" then ConfigMode.kve.value
  else if name = "admin" then ConfigMode.admin.value
  else leftover

/-- `Config::Config`, where `parsed` is the document or the messages of the
parser. -/
def new (parsed : Except String Document) (leftover : UInt32) :
    NfcM Settings :=
  match parsed with
  | .error messages => do
      Nfc.printError "Error while reading config file !"
      Nfc.printError messages
      Prog.throw .exception
  | .ok root =>
      pure
        { config :=
            { consos := root.consos
              pianss := root.pianss.getD ""
              ticket := ticketEntry root.consos (root.ticket.getD "")
              keys := Vec.replicate 6 0xff
              key := Vec.replicate 6 0xff }
          mode := modeOf (root.mode.getD "bar") leftover
          sql := root.mysql.map SqlEntry.info }

end Config

/-!
## The application
-/

/-- What the constructor meets: the memory of `m_mode`, the databases that answer
by their number, and the answers of the reader's library. -/
structure Environment where
  leftover : UInt32
  connects : Nat -> Bool
  opening : Opening

structure Started where
  settings : Settings
  mysql : List SqlInfo
  nfc : NfcDevice
  mode : ConfigMode

namespace Application

/-- The loop over the databases, from number `i` on. -/
def connect (connects : Nat -> Bool) :
    List SqlInfo -> Nat -> NfcM (List SqlInfo)
  | [], _ => pure []
  | info :: rest, i =>
      if connects i then do
        let mysql ← connect connects rest (i + 1)
        pure (info :: mysql)
      else do
        Nfc.printError
          ("Error while connecting to mysql database with config " ++
            toString i)
        connect connects rest (i + 1)

/-- `Application::create_mode`, which also deletes the members when the mode is
unknown. -/
def create_mode (mode : UInt32) (nfc : NfcDevice) : NfcM ConfigMode :=
  if mode = ConfigMode.bar.value then pure .bar
  else if mode = ConfigMode.caisse.value then pure .caisse
  else if mode = ConfigMode.kve.value then pure .kve
  else if mode = ConfigMode.admin.value then pure .admin
  else do
    Nfc.printError "Error, mode not reconized"
    nfc.delete
    Prog.throw .exception

/-- `Application::Application`.  Before it throws it waits for a key. -/
def new (env : Environment) (parsed : Except String Document) :
    NfcM Started := do
  let settings ← Config.new parsed env.leftover
  let mysql ← connect env.connects settings.sql 0
  if mysql.isEmpty then do
    Nfc.printError "Error while connecting to database!"
    Prog.throw .exception
  else do
    let nfc ← NfcDevice.new env.opening
    let mode ← create_mode settings.mode nfc
    pure { settings := settings, mysql := mysql, nfc := nfc, mode := mode }

end Application

/-- The application whose `run` is called next. -/
def Started.application {β : Type} (a : Started) (clock : Int)
    (mem : Uid -> Nat -> Bytes β 16) : Application β :=
  Application.start clock (World.start mem a.mode)

/-!
## The mode that a document names
-/

def ConfigMode.name : ConfigMode -> String
  | .caisse => "caisse"
  | .bar => "bar"
  | .kve => "kve"
  | .admin => "admin"

/-- The document names the mode, which is Bar when it says nothing. -/
def Document.Names (doc : Document) (m : ConfigMode) : Prop :=
  doc.mode = some m.name ∨ doc.mode = none ∧ m = .bar

/-- A database and the reader answer, so that the start gets as far as
`create_mode`. -/
structure Reaches (doc : Document) (env : Environment) : Prop where
  database : exists i, i < doc.mysql.length ∧ env.connects i = true
  init : env.opening.init = true
  opened : env.opening.opened = true
  initiator : env.opening.initiator = true

/-- The configuration is rejected by `create_mode`. -/
def Rejected (r : Except Exn Started × Nfc) : Prop :=
  r.1 = .error .exception ∧ .error "Error, mode not reconized" ∈ r.2.log

/-- What is started is the mode that the document names, and once `create_mode`
is reached something is started or the mode is rejected. -/
structure Selects (doc : Document) (env : Environment) : Prop where
  named : forall a, (Application.new env (.ok doc) Nfc.start).1 = .ok a ->
    doc.Names a.mode
  either : Reaches doc env ->
    (exists a, (Application.new env (.ok doc) Nfc.start).1 = .ok a) ∨
      Rejected (Application.new env (.ok doc) Nfc.start)

theorem ConfigMode.name_bar {m : ConfigMode} : "bar" = m.name <-> m = .bar := by
  cases m <;> decide

theorem ConfigMode.value_injective {m m' : ConfigMode}
    (h : m.value = m'.value) : m = m' := by
  revert h
  cases m <;> cases m' <;> decide

theorem Document.names_iff {doc : Document} {m : ConfigMode} :
    doc.Names m <-> doc.mode.getD "bar" = m.name := by
  unfold Document.Names
  cases doc.mode with
  | none => simp [ConfigMode.name_bar]
  | some name => simp

namespace Config

theorem modeOf_name (m : ConfigMode) (leftover : UInt32) :
    modeOf m.name leftover = m.value := by
  cases m <;> rfl

theorem modeOf_unknown {name : String} (leftover : UInt32)
    (h : forall m : ConfigMode, name ≠ m.name) :
    modeOf name leftover = leftover := by
  have hbar : name ≠ "bar" := h .bar
  have hcaisse : name ≠ "caisse" := h .caisse
  have hkve : name ≠ "kve" := h .kve
  have hadmin : name ≠ "admin" := h .admin
  rw [modeOf, if_neg hbar, if_neg hcaisse, if_neg hkve, if_neg hadmin]

end Config

/-- What `m_mode` holds for the document. -/
def Document.stored (doc : Document) (leftover : UInt32) : UInt32 :=
  Config.modeOf (doc.mode.getD "bar") leftover

theorem Document.stored_of_names {doc : Document} {m : ConfigMode}
    (leftover : UInt32) (h : doc.Names m) : doc.stored leftover = m.value := by
  rw [Document.stored, Document.names_iff.mp h, Config.modeOf_name]

theorem Document.stored_of_not_names {doc : Document} (leftover : UInt32)
    (h : ¬ exists m, doc.Names m) : doc.stored leftover = leftover := by
  apply Config.modeOf_unknown
  intro m hm
  exact h ⟨m, Document.names_iff.mpr hm⟩

/-!
## The run of the constructor
-/

def Prints (s s' : Nfc) : Prop :=
  s'.context = s.context ∧ s'.instances = s.instances

namespace Application

/-- The databases that do not answer are left out. -/
theorem connect_run (connects : Nat -> Bool) (sql : List SqlInfo) (i : Nat)
    (s : Nfc) :
    exists mysql s', connect connects sql i s = (.ok mysql, s') ∧
      Prints s s' ∧
      (mysql = [] <-> forall k, k < sql.length -> connects (i + k) = false) := by
  induction sql generalizing i s with
  | nil =>
      refine ⟨[], s, rfl, ⟨rfl, rfl⟩, ?_⟩
      simp
  | cons info rest ih =>
      cases hconnects : connects i with
      | true =>
          rcases ih (i + 1) s with ⟨mysql, s', hrun, hprints, _⟩
          refine ⟨info :: mysql, s', ?_, hprints, ?_⟩
          · simp only [connect, hconnects, if_true]
            rw [Prog.bind_of_ok _ hrun]
            rfl
          · constructor
            · intro h
              cases h
            · intro h
              have hfirst := h 0 (by simp)
              rw [Nat.add_zero, hconnects] at hfirst
              cases hfirst
      | false =>
          let message := "Error while connecting to mysql database with config " ++
            toString i
          rcases ih (i + 1) (s.addLog (.error message)) with
            ⟨mysql, s', hrun, hprints, hempty⟩
          refine ⟨mysql, s', ?_, hprints, ?_⟩
          · simp only [connect, hconnects]
            exact hrun
          · rw [hempty]
            constructor
            · intro h k hk
              cases k with
              | zero => exact hconnects
              | succ k =>
                  have hnext := h k (Nat.lt_of_succ_lt_succ hk)
                  rwa [Nat.add_right_comm] at hnext
            · intro h k hk
              have hnext := h (k + 1) (Nat.succ_lt_succ hk)
              rwa [Nat.add_right_comm]

end Application

namespace NfcDevice

variable {a : Opening} {s : Nfc}

theorem new_of_opens (hs : Prints Nfc.start s) (hinit : a.init = true)
    (hopened : a.opened = true) (hinitiator : a.initiator = true) :
    exists d s', NfcDevice.new a s = (.ok ⟨true, some d⟩, s') := by
  have hcontext := Lifecycle.initContext_of_init hs.right hs.left hinit
  unfold NfcDevice.new
  rw [Prog.bind_of_ok _ hcontext,
    Lifecycle.openDevice_of_initiator hopened hinitiator]
  exact ⟨_, _, rfl⟩

theorem new_of_fails (hs : Prints Nfc.start s)
    (h : ¬ (a.init = true ∧ a.opened = true ∧ a.initiator = true)) :
    exists s', NfcDevice.new a s = (.error .exception, s') := by
  unfold NfcDevice.new
  cases hinit : a.init with
  | false =>
      have hcontext := Lifecycle.initContext_of_not_init hs.right hs.left hinit
      exact ⟨_, Prog.bind_of_error _ hcontext⟩
  | true =>
      have hcontext := Lifecycle.initContext_of_init hs.right hs.left hinit
      rw [Prog.bind_of_ok _ hcontext]
      cases hopened : a.opened with
      | false => exact ⟨_, Lifecycle.openDevice_of_not_opened hopened⟩
      | true =>
          have hinitiator : a.initiator = false := by
            cases hvalue : a.initiator with
            | false => rfl
            | true => exact absurd ⟨hinit, hopened, hvalue⟩ h
          exact ⟨_, Lifecycle.openDevice_of_not_initiator hopened hinitiator⟩

end NfcDevice

namespace Application

theorem create_mode_value (m : ConfigMode) (nfc : NfcDevice) :
    create_mode m.value nfc = pure m := by
  cases m <;> rfl

theorem create_mode_unknown {mode : UInt32} {nfc : NfcDevice} {d : Nat}
    (h : forall m : ConfigMode, mode ≠ m.value) (hdevice : nfc.device = some d)
    (s : Nfc) :
    exists s', create_mode mode nfc s = (.error .exception, s') ∧
      .error "Error, mode not reconized" ∈ s'.log ∧ .nfcClose d ∈ s'.log := by
  let s₁ := s.addLog (.error "Error, mode not reconized")
  have hdelete := Lifecycle.delete_apply (s := s₁) hdevice
  refine ⟨(nfc.delete s₁).2, ?_, ?_⟩
  · rw [create_mode, if_neg (h .bar), if_neg (h .caisse), if_neg (h .kve),
      if_neg (h .admin), hdelete]
    exact Prog.bind_of_ok _ hdelete
  · rw [hdelete]
    dsimp only
    split <;> simp [Lifecycle.closing, Nfc.addLog, s₁]

theorem new_connected (doc : Document) (env : Environment) :
    exists settings mysql s, settings.mode = doc.stored env.leftover ∧
      Prints Nfc.start s ∧
      (mysql = [] <->
        forall i, i < doc.mysql.length -> env.connects i = false) ∧
      Application.new env (.ok doc) Nfc.start =
        (if mysql.isEmpty then do
          Nfc.printError "Error while connecting to database!"
          Prog.throw .exception
        else do
          let nfc ← NfcDevice.new env.opening
          let mode ← create_mode settings.mode nfc
          pure { settings := settings, mysql := mysql, nfc := nfc, mode := mode }
          : NfcM Started) s := by
  have hsettings : exists settings,
      Config.new (.ok doc) env.leftover = pure settings ∧
        settings.mode = doc.stored env.leftover ∧
        settings.sql = doc.mysql.map SqlEntry.info := ⟨_, rfl, rfl, rfl⟩
  rcases hsettings with ⟨settings, hnew, hmode, hsql⟩
  rcases connect_run env.connects settings.sql 0 Nfc.start with
    ⟨mysql, s, hconnect, hprints, hempty⟩
  refine ⟨settings, mysql, s, hmode, hprints, ?_, ?_⟩
  · simpa [hsql] using hempty
  · unfold Application.new
    rw [hnew, Prog.bind_of_ok _ (Prog.pure_apply settings Nfc.start),
      Prog.bind_of_ok _ hconnect]

theorem new_of_reaches {doc : Document} {env : Environment}
    (h : Reaches doc env) :
    exists settings mysql nfc d s, nfc.device = some d ∧
      settings.mode = doc.stored env.leftover ∧
      Application.new env (.ok doc) Nfc.start =
        (do
          let mode ← create_mode settings.mode nfc
          pure { settings := settings, mysql := mysql, nfc := nfc, mode := mode }
          : NfcM Started) s := by
  rcases new_connected doc env with ⟨settings, mysql, s, hmode, hprints, hempty,
    hrun⟩
  rcases NfcDevice.new_of_opens hprints h.init h.opened h.initiator with
    ⟨d, s', hnfc⟩
  have hsome : mysql ≠ [] := by
    intro hnone
    rcases h.database with ⟨i, hi, hconnects⟩
    rw [hempty.mp hnone i hi] at hconnects
    cases hconnects
  rw [if_neg (by simpa using hsome), Prog.bind_of_ok _ hnfc] at hrun
  exact ⟨settings, mysql, ⟨true, some d⟩, d, s', rfl, hmode, hrun⟩

theorem new_of_not_reaches {doc : Document} {env : Environment}
    (h : ¬ Reaches doc env) :
    (Application.new env (.ok doc) Nfc.start).1 = .error .exception := by
  rcases new_connected doc env with ⟨settings, mysql, s, _, hprints, hempty,
    hrun⟩
  rw [hrun]
  by_cases hnone : mysql = []
  · rw [if_pos (by simpa using hnone)]
    rfl
  · rw [if_neg (by simpa using hnone)]
    have hfails : ¬ (env.opening.init = true ∧ env.opening.opened = true ∧
        env.opening.initiator = true) := by
      rintro ⟨hinit, hopened, hinitiator⟩
      have hanswers := mt hempty.mpr hnone
      push Not at hanswers
      rcases hanswers with ⟨i, hi, hconnects⟩
      have hanswer : env.connects i = true := by simpa using hconnects
      exact h ⟨⟨i, hi, hanswer⟩, hinit, hopened, hinitiator⟩
    rcases NfcDevice.new_of_fails hprints hfails with ⟨s', hnfc⟩
    rw [Prog.bind_of_error _ hnfc]

theorem new_of_stored {doc : Document} {env : Environment} {m : ConfigMode}
    (h : Reaches doc env) (hm : doc.stored env.leftover = m.value) :
    exists a, (Application.new env (.ok doc) Nfc.start).1 = .ok a ∧
      a.mode = m ∧ a.settings.mode = m.value := by
  rcases new_of_reaches h with ⟨settings, mysql, nfc, d, s, _, hmode, hrun⟩
  have hvalue : settings.mode = m.value := hmode.trans hm
  refine ⟨⟨settings, mysql, nfc, m⟩, ?_, rfl, hvalue⟩
  rw [hrun, hvalue, create_mode_value]
  rfl

theorem rejected_of_stored {doc : Document} {env : Environment}
    (h : Reaches doc env)
    (hm : forall m : ConfigMode, doc.stored env.leftover ≠ m.value) :
    Rejected (Application.new env (.ok doc) Nfc.start) := by
  rcases new_of_reaches h with ⟨settings, mysql, nfc, d, s, hd, hmode, hrun⟩
  rw [← hmode] at hm
  rcases create_mode_unknown hm hd s with ⟨s', hcreate, hmessage, _⟩
  rw [hrun, Prog.bind_of_error _ hcreate]
  exact ⟨rfl, hmessage⟩

theorem started_stored {doc : Document} {env : Environment} {a : Started}
    (h : (Application.new env (.ok doc) Nfc.start).1 = .ok a) :
    Reaches doc env ∧ doc.stored env.leftover = a.mode.value := by
  have hreaches : Reaches doc env := by
    by_contra hnot
    rw [new_of_not_reaches hnot] at h
    cases h
  refine ⟨hreaches, ?_⟩
  by_cases hknown : exists m : ConfigMode, doc.stored env.leftover = m.value
  · rcases hknown with ⟨m, hm⟩
    rcases new_of_stored hreaches hm with ⟨a', ha', hmode, _⟩
    rw [ha'] at h
    cases h
    rw [hmode, hm]
  · have hrejected := rejected_of_stored hreaches fun m hm => hknown ⟨m, hm⟩
    rw [hrejected.left] at h
    cases h

/-- An application starts the mode that the document names, or one whose number
the memory of `m_mode` held when the document names none. -/
theorem started_mode {doc : Document} {env : Environment} {a : Started}
    (h : (Application.new env (.ok doc) Nfc.start).1 = .ok a) :
    doc.Names a.mode ∨
      (¬ exists m, doc.Names m) ∧ env.leftover = a.mode.value := by
  rcases started_stored h with ⟨_, hstored⟩
  by_cases hnames : exists m, doc.Names m
  · rcases hnames with ⟨m, hm⟩
    rw [Document.stored_of_names _ hm] at hstored
    rw [← ConfigMode.value_injective hstored]
    exact Or.inl hm
  · rw [Document.stored_of_not_names _ hnames] at hstored
    exact Or.inr ⟨hnames, hstored⟩

/-- What is started is what the document names unless the document names no mode
and the memory of `m_mode` happens to hold one. -/
theorem selects_iff (doc : Document) (env : Environment) :
    Selects doc env <->
      ¬ Reaches doc env ∨ (exists m, doc.Names m) ∨
        forall m : ConfigMode, env.leftover ≠ m.value := by
  constructor
  · intro h
    by_contra hnot
    push Not at hnot
    rcases hnot with ⟨hreaches, hnames, m, hm⟩
    have hstored : doc.stored env.leftover = m.value := by
      rw [Document.stored_of_not_names _ fun ⟨m, hm⟩ => hnames m hm, hm]
    rcases new_of_stored hreaches hstored with ⟨a, ha, _, _⟩
    exact hnames a.mode (h.named a ha)
  · intro h
    constructor
    · intro a ha
      rcases started_mode ha with hnames | ⟨hnone, hleftover⟩
      · exact hnames
      · rcases h with hnot | hnames | hleft
        · exact absurd (started_stored ha).left hnot
        · exact absurd hnames hnone
        · exact absurd hleftover (hleft a.mode)
    · intro hreaches
      by_cases hknown : exists m : ConfigMode,
          doc.stored env.leftover = m.value
      · rcases hknown with ⟨m, hm⟩
        rcases new_of_stored hreaches hm with ⟨a, ha, _, _⟩
        exact Or.inl ⟨a, ha⟩
      · exact Or.inr (rejected_of_stored hreaches fun m hm => hknown ⟨m, hm⟩)

/-- A misspelt name with the number of ADMIN in the memory of `m_mode`. -/
theorem admin_not_named :
    let doc : Document :=
      ⟨some "barr", [⟨none, none, none, none⟩], [], none, none⟩
    let env : Environment := ⟨3, fun _ => true, ⟨true, true, true⟩⟩
    (exists a, (Application.new env (.ok doc) Nfc.start).1 = .ok a ∧
        a.mode = .admin) ∧
      ¬ Selects doc env := by
  intro doc env
  have hreaches : Reaches doc env := ⟨⟨0, by decide, rfl⟩, rfl, rfl, rfl⟩
  have hnames : ¬ exists m, doc.Names m := by
    rintro ⟨m, hm⟩
    rw [Document.names_iff] at hm
    revert hm
    cases m <;> decide
  have hstored : doc.stored env.leftover = ConfigMode.admin.value :=
    Document.stored_of_not_names _ hnames
  rcases new_of_stored hreaches hstored with ⟨a, ha, hmode, _⟩
  refine ⟨⟨a, ha, hmode⟩, ?_⟩
  intro h
  exact hnames ⟨a.mode, h.named a ha⟩

theorem determined_iff (doc : Document) :
    (forall env a, (Application.new env (.ok doc) Nfc.start).1 = .ok a ->
      doc.Names a.mode) <-> doc.mysql = [] ∨ exists m, doc.Names m := by
  constructor
  · intro h
    by_contra hnot
    push Not at hnot
    rcases hnot with ⟨hmysql, hnames⟩
    let env : Environment :=
      ⟨ConfigMode.admin.value, fun _ => true, ⟨true, true, true⟩⟩
    have hreaches : Reaches doc env :=
      ⟨⟨0, List.length_pos_of_ne_nil hmysql, rfl⟩, rfl, rfl, rfl⟩
    have hstored : doc.stored env.leftover = ConfigMode.admin.value :=
      Document.stored_of_not_names _ fun ⟨m, hm⟩ => hnames m hm
    rcases new_of_stored hreaches hstored with ⟨a, ha, _, _⟩
    exact hnames a.mode (h env a ha)
  · intro h env a ha
    rcases h with hmysql | hnames
    · rcases (started_stored ha).left.database with ⟨i, hi, _⟩
      rw [hmysql] at hi
      cases hi
    · rcases started_mode ha with hm | ⟨hnone, _⟩
      · exact hm
      · exact absurd hnames hnone

theorem started_running {β : Type} {doc : Document} {env : Environment}
    {a : Started} (clock : Int) (mem : Uid -> Nat -> Bytes β 16)
    (h : (Application.new env (.ok doc) Nfc.start).1 = .ok a) :
    (a.application clock mem).running.mode = some a.mode ∧
      a.settings.mode = a.mode.value := by
  refine ⟨start_running clock (World.start mem a.mode), ?_⟩
  rcases started_stored h with ⟨hreaches, hstored⟩
  rcases new_of_stored hreaches hstored with ⟨a', ha', _, hvalue⟩
  rw [ha'] at h
  cases h
  exact hvalue

end Application

end BeeGadz
