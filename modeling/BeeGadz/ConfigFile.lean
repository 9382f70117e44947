import BeeGadz.JsonCpp.Completeness
import BeeGadz.JsonCpp.Wellformed
import BeeGadz.StartUp

/-!
# The configuration file

The constructor of the configuration from the text of its file.  The number of a
conso, which is where a card counts it, is that of its name among the names in the
file; how the file is laid out does not matter.
-/

namespace BeeGadz

open Foundation
open JsonCpp

/-!
## From the file to the document
-/

/-- `get(key, …).asString()`, when the key is there. -/
def JsonCpp.Value.textOf (real : Double -> Text) (v : Value) (key : String) :
    Except Exn (Option String) := do
  let members ← v.asMembers
  match Sorted.find (cString key.toList) members with
  | none => pure none
  | some member => do
      let text ← member.asString real
      pure (some (String.ofList text))

/-- `root[key]`, which is null when the key is not there. -/
def JsonCpp.Value.member (v : Value) (key : String) : Except Exn Value :=
  v.get key.toList .null

def SqlEntry.ofValue (real : Double -> Text) (i : Value) :
    Except Exn SqlEntry := do
  let server ← i.textOf real "server"
  let database ← i.textOf real "database"
  let user ← i.textOf real "user"
  let password ← i.textOf real "password"
  pure
    { server := server, database := database, user := user,
      password := password }

/-- An entry of `m_consos`. -/
def consoOf (consos : Value) (i : Text) : Except Exn (String × Rat) := do
  let conso ← consos.get i (.real (Double.nearest false 0))
  let price ← conso.asFloat
  pure (String.ofList i, price)

/-- What `Config::Config` reads from the root. -/
def Document.ofValue (real : Double -> Text) (root : Value) :
    Except Exn Document := do
  let mode ← root.textOf real "mode"
  let mysql ← root.member "mysql"
  let sql ← mysql.values.mapM (SqlEntry.ofValue real)
  let consos ← root.member "consos"
  let names ← consos.getMemberNames
  let entries ← names.mapM (consoOf consos)
  let ticket ← root.textOf real "ticket"
  let pianss ← root.textOf real "pianss"
  pure
    { mode := mode, mysql := sql, consos := entries, ticket := ticket,
      pianss := pianss }

namespace Config

/-- `Config::Config` on the text of its file. -/
def ofFile (real : Double -> Text) (file : Text) (leftover : UInt32) :
    NfcM Settings :=
  match Reader.parseStream file with
  | (.error _, reader) =>
      new (.error (String.ofList (Reader.getFormattedErrorMessages
        (file.takeWhile fun c => c != '\xff') reader.errors))) leftover
  | (.ok root, _) => do
      let document ← Prog.ofExcept (Document.ofValue real root)
      new (.ok document) leftover

def rootOf (file : Text) : Except Exn Value :=
  match (Reader.parseStream file).1 with
  | .error _ => .error .exception
  | .ok root => .ok root

def consosOf (file : Text) : Except Exn Members := do
  let root ← rootOf file
  let consos ← root.member "consos"
  consos.asMembers

def ticketOf (real : Double -> Text) (file : Text) : Except Exn String := do
  let root ← rootOf file
  let ticket ← root.textOf real "ticket"
  pure (ticket.getD "")

/-!
## What is loaded
-/

/-- A conso of the configuration is a member of the file with its price. -/
def Priced (m : Text × Value) (conso : String × Rat) : Prop :=
  conso.1 = String.ofList m.1 ∧ m.2.asFloat = .ok conso.2

theorem priced_of_consoOf {consos : Value} {m : Text × Value}
    {conso : String × Rat} (hget : consos.get m.1 (.real (Double.nearest false 0)) = .ok m.2)
    (h : consoOf consos m.1 = .ok conso) : Priced m conso := by
  rcases Prog.except_bind_eq_ok.mp h with ⟨v, hv, hbehind⟩
  rcases Prog.except_bind_eq_ok.mp hbehind with ⟨price, hprice, hpair⟩
  rw [hget] at hv
  cases hv
  cases hpair
  exact ⟨rfl, hprice⟩

theorem priced_of_mapM {consos : Value} {members : Members}
    {entries : List (String × Rat)} (hmembers : consos.asMembers = .ok members)
    (hwellformed : Members.Wellformed members)
    (h : (members.map Prod.fst).mapM (consoOf consos) = .ok entries) :
    List.Forall₂ Priced members entries := by
  have hget : forall m, m ∈ members ->
      consos.get m.1 (.real (Double.nearest false 0)) = .ok m.2 := by
    intro m hm
    unfold Value.get
    rw [hmembers, hwellformed.names m hm]
    show Except.ok ((Sorted.find m.1 members).getD (.real (Double.nearest false 0))) = _
    rw [Sorted.find_of_mem hwellformed.ordered hm]
    rfl
  have hall := Prog.forall₂_of_mapM h
  rw [List.forall₂_map_left_iff] at hall
  apply List.Forall₂.imp ?_ ((List.forall₂_and_left _ _).mpr ⟨hget, hall⟩)
  rintro m conso ⟨hm, hconso⟩
  exact priced_of_consoOf hm hconso

theorem wellformed_asMembers {v : Value} {members : Members}
    (hv : v.Wellformed) (h : v.asMembers = .ok members) :
    Members.Wellformed members := by
  cases hv with
  | object hordered hnames hvalues =>
      cases h
      exact ⟨hordered, hnames, hvalues⟩
  | null =>
      cases h
      exact Members.wellformed_nil
  | int => cases h
  | uint => cases h
  | real => cases h
  | string => cases h
  | bool => cases h
  | array => cases h

theorem wellformed_member {v member : Value} {key : String}
    (hv : v.Wellformed) (h : v.member key = .ok member) :
    member.Wellformed := by
  rcases Prog.except_bind_eq_ok.mp h with ⟨members, hmembers, hget⟩
  have hall := wellformed_asMembers hv hmembers
  cases hfind : Sorted.find (cString key.toList) members with
  | none =>
      rw [hfind] at hget
      cases hget
      exact Value.Wellformed.null
  | some found =>
      rw [hfind] at hget
      cases hget
      exact hall.values _ (Sorted.mem_of_find hfind)

theorem rootOf_wellformed {file : Text} {root : Value}
    (h : rootOf file = .ok root) : root.Wellformed := by
  unfold rootOf at h
  cases hparse : (Reader.parseStream file).1 with
  | error e =>
      rw [hparse] at h
      cases h
  | ok v =>
      rw [hparse] at h
      cases h
      exact Reader.parse_wellformed hparse

/-- What was loaded from a file, with its consos and the name of its ticket. -/
structure Loaded (real : Double -> Text) (file : Text) (config : Config)
    (members : Members) (ticket : String) : Prop where
  consos : consosOf file = .ok members
  name : ticketOf real file = .ok ticket
  wellformed : Members.Wellformed members
  priced : List.Forall₂ Priced members config.consos
  entry : config.ticket = ticketEntry config.consos ticket

theorem loaded_of_document {real : Double -> Text} {file : Text} {root : Value}
    {document : Document} {config : Config} (hroot : rootOf file = .ok root)
    (h : Document.ofValue real root = .ok document)
    (hconsos : config.consos = document.consos)
    (hentry : config.ticket =
      ticketEntry document.consos (document.ticket.getD "")) :
    exists members ticket, Loaded real file config members ticket := by
  rcases Prog.except_bind_eq_ok.mp h with ⟨mode, hmode, h₁⟩
  rcases Prog.except_bind_eq_ok.mp h₁ with ⟨mysql, hmysql, h₂⟩
  rcases Prog.except_bind_eq_ok.mp h₂ with ⟨sql, hsql, h₃⟩
  rcases Prog.except_bind_eq_ok.mp h₃ with ⟨consos, hmember, h₄⟩
  rcases Prog.except_bind_eq_ok.mp h₄ with ⟨names, hnames, h₅⟩
  rcases Prog.except_bind_eq_ok.mp h₅ with ⟨entries, hentries, h₆⟩
  rcases Prog.except_bind_eq_ok.mp h₆ with ⟨ticket, hticket, h₇⟩
  rcases Prog.except_bind_eq_ok.mp h₇ with ⟨pianss, hpianss, hdocument⟩
  rcases Prog.except_bind_eq_ok.mp hnames with ⟨members, hmembers, hkeys⟩
  cases hdocument
  cases hkeys
  have hwellformed := wellformed_asMembers
    (wellformed_member (rootOf_wellformed hroot) hmember) hmembers
  refine ⟨members, ticket.getD "", ?_, ?_, hwellformed, ?_, ?_⟩
  · rw [consosOf, hroot]
    show (root.member "consos" >>= fun consos => consos.asMembers) = _
    rw [hmember]
    exact hmembers
  · rw [ticketOf, hroot]
    show (root.textOf real "ticket" >>= fun ticket => pure (ticket.getD "")) = _
    rw [hticket]
    rfl
  · rw [hconsos]
    exact priced_of_mapM hmembers hwellformed hentries
  · rw [hentry, hconsos]

theorem ofFile_of_root (real : Double -> Text) {file : Text} {root : Value}
    {reader : Reader} (h : Reader.parseStream file = (.ok root, reader))
    (leftover : UInt32) :
    ofFile real file leftover =
      (Prog.ofExcept (Document.ofValue real root) >>= fun document =>
        new (.ok document) leftover) := by
  unfold ofFile
  rw [h]

theorem loaded_of_ofFile {real : Double -> Text} {file : Text}
    {leftover : UInt32} {s s' : Nfc} {settings : Settings}
    (h : ofFile real file leftover s = (.ok settings, s')) :
    exists members ticket,
      Loaded real file settings.config members ticket := by
  rcases hparse : Reader.parseStream file with ⟨result, reader⟩
  cases result with
  | error e =>
      have hfails : ofFile real file leftover =
          new (.error (String.ofList (Reader.getFormattedErrorMessages
            (file.takeWhile fun c => c != '\xff') reader.errors)))
            leftover := by
        unfold ofFile
        rw [hparse]
      rw [hfails] at h
      cases h
  | ok root =>
      have hroot : rootOf file = .ok root := by
        rw [rootOf, hparse]
      rw [ofFile_of_root real hparse] at h
      cases hdocument : Document.ofValue real root with
      | error e =>
          rw [hdocument] at h
          cases h
      | ok document =>
          rw [hdocument] at h
          cases h
          exact loaded_of_document hroot hdocument rfl rfl

/-!
## The numbers of the consos
-/

section Loaded

variable {real : Double -> Text} {file : Text} {config : Config}
  {members : Members} {ticket : String}

theorem Loaded.getConso (h : Loaded real file config members ticket) {nb : Nat}
    {conso : String × Rat} :
    config.getConso nb = .ok conso <->
      exists m, m ∈ members ∧ Priced m conso ∧
        nb = Sorted.rank m.1 members := by
  have hplace := Prog.forall₂_getElem? h.priced nb
  rw [getConso_eq_ok]
  constructor
  · intro hget
    rw [hget] at hplace
    cases hm : members[nb]? with
    | none =>
        rw [hm] at hplace
        cases hplace
    | some m =>
        rw [hm] at hplace
        rcases (Sorted.getElem?_eq_some_iff h.wellformed.ordered).mp hm with
          ⟨hmem, hrank⟩
        cases hplace with
        | some hpriced => exact ⟨m, hmem, hpriced, hrank⟩
  · rintro ⟨m, hmem, hpriced, hrank⟩
    have hm := (Sorted.getElem?_eq_some_iff h.wellformed.ordered).mpr
      ⟨hmem, hrank⟩
    rw [hm] at hplace
    cases hconso : config.consos[nb]? with
    | none =>
        rw [hconso] at hplace
        cases hplace
    | some other =>
        rw [hconso] at hplace
        cases hplace with
        | some hother =>
            have hname : other.1 = conso.1 :=
              hother.left.trans hpriced.left.symm
            have hprice : other.2 = conso.2 :=
              Except.ok.inj (hother.right.symm.trans hpriced.right)
            rw [Prod.ext hname hprice]

theorem Loaded.nb_unique (h : Loaded real file config members ticket)
    {nb nb' : Nat} {conso conso' : String × Rat}
    (hnb : config.getConso nb = .ok conso)
    (hnb' : config.getConso nb' = .ok conso') (hname : conso.1 = conso'.1) :
    nb = nb' := by
  rcases h.getConso.mp hnb with ⟨m, -, hpriced, hrank⟩
  rcases h.getConso.mp hnb' with ⟨m', -, hpriced', hrank'⟩
  have hkey : m.1 = m'.1 := by
    apply String.ofList_injective
    rw [← hpriced.left, ← hpriced'.left, hname]
  rw [hrank, hrank', hkey]

theorem Loaded.ticket_iff (h : Loaded real file config members ticket)
    {nb : Nat} :
    config.ticket = nb <->
      exists price, config.getConso nb = .ok (ticket, price) := by
  rw [h.entry]
  unfold ticketEntry
  cases hfind : config.consos.findIdx? fun i => i.1 == ticket with
  | none =>
      have hnone := List.findIdx?_eq_none_iff.mp hfind
      constructor
      · intro hneg
        simp only at hneg
        omega
      · rintro ⟨price, hprice⟩
        rw [getConso_eq_ok] at hprice
        have hne := hnone _ (List.mem_of_getElem? hprice)
        simp at hne
  | some i =>
      rcases List.findIdx?_eq_some_iff_getElem.mp hfind with ⟨hi, hname, -⟩
      have hget : config.getConso i =
          .ok (ticket, config.consos[i].2) := by
        rw [getConso_eq_ok, List.getElem?_eq_getElem hi]
        have hticket : config.consos[i].1 = ticket := beq_iff_eq.mp hname
        rw [← hticket]
      constructor
      · intro heq
        have hnb : i = nb := Int.ofNat.inj heq
        rw [← hnb]
        exact ⟨_, hget⟩
      · rintro ⟨price, hprice⟩
        exact congrArg Int.ofNat (h.nb_unique hget hprice rfl)

end Loaded

/-- The consos have the numbers of their names in their order, and the ticket is
the one that the file names. -/
theorem consos_of_file {real : Double -> Text} {file : Text}
    {leftover : UInt32} {s s' : Nfc} {settings : Settings}
    (h : ofFile real file leftover s = (.ok settings, s')) :
    exists members ticket,
      consosOf file = .ok members ∧ ticketOf real file = .ok ticket ∧
      (forall (nb : Nat) (conso : String × Rat),
        settings.config.getConso nb = .ok conso <->
          exists m, m ∈ members ∧ conso.1 = String.ofList m.1 ∧
            m.2.asFloat = .ok conso.2 ∧ nb = Sorted.rank m.1 members) ∧
      forall nb : Nat, settings.config.ticket = nb <->
        exists price, settings.config.getConso nb = .ok (ticket, price) := by
  rcases loaded_of_ofFile h with ⟨members, ticket, hloaded⟩
  refine ⟨members, ticket, hloaded.consos, hloaded.name, ?_, ?_⟩
  · intro nb conso
    rw [hloaded.getConso]
    constructor
    · rintro ⟨m, hm, ⟨hname, hprice⟩, hrank⟩
      exact ⟨m, hm, hname, hprice, hrank⟩
    · rintro ⟨m, hm, hname, hprice, hrank⟩
      exact ⟨m, hm, ⟨hname, hprice⟩, hrank⟩
  · exact fun nb => hloaded.ticket_iff

def carte : Text :=
  "\x7b\"ticket\":\"vin\",\"consos\":\x7b\"vin\":2,\"eau\":1\x7d\x7d".toList

def longerCarte : Text :=
  "\x7b\"ticket\":\"vin\",\"consos\":\x7b\"vin\":2,\"the\":3,\"eau\":1\x7d\x7d".toList

def settingsOf (consos : List (String × Rat)) (ticket : Int) : Settings where
  config :=
    { consos := consos
      pianss := ""
      ticket := ticket
      keys := Vec.replicate 6 0xff
      key := Vec.replicate 6 0xff }
  mode := ConfigMode.bar.value
  sql := []

theorem floatOfInt_small :
    Value.floatOfInt 1 = 1 ∧ Value.floatOfInt 2 = 2 ∧
      Value.floatOfInt 3 = 3 := by
  decide +kernel

theorem ofFile_carte :
    ofFile (fun _ => []) carte 0 Nfc.start =
      (.ok (settingsOf [("eau", 1), ("vin", 2)] 1), Nfc.start) := by
  have hload : ofFile (fun _ => []) carte 0 Nfc.start =
      (.ok (settingsOf [("eau", Value.floatOfInt 1),
        ("vin", Value.floatOfInt 2)] 1), Nfc.start) := rfl
  rcases floatOfInt_small with ⟨hone, htwo, _⟩
  rw [hload, hone, htwo]

theorem ofFile_longerCarte :
    ofFile (fun _ => []) longerCarte 0 Nfc.start =
      (.ok (settingsOf [("eau", 1), ("the", 3), ("vin", 2)] 2),
        Nfc.start) := by
  have hload : ofFile (fun _ => []) longerCarte 0 Nfc.start =
      (.ok (settingsOf [("eau", Value.floatOfInt 1),
        ("the", Value.floatOfInt 3), ("vin", Value.floatOfInt 2)] 2),
        Nfc.start) := rfl
  rcases floatOfInt_small with ⟨hone, htwo, hthree⟩
  rw [hload, hone, htwo, hthree]

theorem consos_of_carte :
    exists members ticket,
      consosOf carte = .ok members ∧
      ticketOf (fun _ => []) carte = .ok ticket ∧
      (forall (nb : Nat) (conso : String × Rat),
        (settingsOf [("eau", 1), ("vin", 2)] 1).config.getConso nb =
            .ok conso <->
          exists m, m ∈ members ∧ conso.1 = String.ofList m.1 ∧
            m.2.asFloat = .ok conso.2 ∧ nb = Sorted.rank m.1 members) ∧
      forall nb : Nat,
        (settingsOf [("eau", 1), ("vin", 2)] 1).config.ticket = nb <->
          exists price, (settingsOf [("eau", 1), ("vin", 2)]
            1).config.getConso nb = .ok (ticket, price) :=
  consos_of_file ofFile_carte

/-- A conso that is added to the file takes the next number from all consos whose
names are above its own. -/
theorem getConso_of_added {real : Double -> Text} {file file' : Text}
    {leftover leftover' : UInt32} {s s' t t' : Nfc}
    {settings settings' : Settings} {members : Members} {name : Text}
    {v : Value} (h : ofFile real file leftover s = (.ok settings, s'))
    (h' : ofFile real file' leftover' t = (.ok settings', t'))
    (hconsos : consosOf file = .ok members)
    (hconsos' : consosOf file' = .ok (Sorted.insert name v members))
    (hnew : name ∉ members.map Prod.fst) {nb : Nat} {conso : String × Rat}
    (hget : settings.config.getConso nb = .ok conso) :
    settings'.config.getConso (if name < conso.1.toList then nb + 1 else nb) =
      .ok conso := by
  rcases loaded_of_ofFile h with ⟨old, ticket, hloaded⟩
  rcases loaded_of_ofFile h' with ⟨new, ticket', hloaded'⟩
  have hold : old = members :=
    Except.ok.inj (hloaded.consos.symm.trans hconsos)
  have hnewer : new = Sorted.insert name v members :=
    Except.ok.inj (hloaded'.consos.symm.trans hconsos')
  have hother : forall m, m ∈ members -> m.1 ≠ name := by
    intro m hm heq
    apply hnew
    rw [← heq]
    exact List.mem_map_of_mem hm
  rcases hloaded.getConso.mp hget with ⟨m, hm, hpriced, hrank⟩
  rw [hold] at hm hrank
  rw [hpriced.left, String.toList_ofList]
  apply hloaded'.getConso.mpr
  rw [hnewer]
  refine ⟨m, Sorted.mem_insert_of_mem v hm (hother m hm), hpriced, ?_⟩
  rw [Sorted.rank_insert v hother, ← hrank]
  split
  · rfl
  · rfl

theorem getConso_of_longerCarte :
    (settingsOf [("eau", 1), ("the", 3), ("vin", 2)] 2).config.getConso 2 =
      .ok ("vin", 2) := by
  have hconsos : consosOf carte =
      .ok [("eau".toList, .int 1), ("vin".toList, .int 2)] := rfl
  have hconsos' : consosOf longerCarte =
      .ok (Sorted.insert "the".toList (.int 3)
        [("eau".toList, .int 1), ("vin".toList, .int 2)]) := rfl
  have hget : (settingsOf [("eau", 1), ("vin", 2)] 1).config.getConso 1 =
      .ok ("vin", 2) := rfl
  have hadded := getConso_of_added ofFile_carte ofFile_longerCarte hconsos
    hconsos' (by decide) hget
  rwa [if_pos (by decide)] at hadded

/-!
## The layout of the file
-/

theorem parseStream_of_text {file : Text} {j : Json} (h : Json.Text file j)
    (hfile : '\xff' ∉ file) :
    exists reader, Reader.parseStream file = (.ok (Value.ofJson j), reader) := by
  have hall : file.takeWhile (fun c => c != '\xff') = file := by
    apply List.takeWhile_eq_self_iff.mpr
    intro c hc
    apply bne_iff_ne.mpr
    rintro rfl
    exact hfile hc
  rcases h with ⟨first, behind, hbefore, hreads, -⟩
  have hstream : Reader.parseStream file = Reader.parse file := by
    unfold Reader.parseStream
    rw [hall]
  exact ⟨_, hstream.trans (Reader.parse_of_reads hbefore hreads)⟩

/-- How a file is written and in which order its members stand does not matter. -/
theorem ofFile_same {real : Double -> Text} {file file' : Text} {j j' : Json}
    (h : Json.Text file j) (h' : Json.Text file' j')
    (hsame : SameDocument j j') (hfile : '\xff' ∉ file)
    (hfile' : '\xff' ∉ file') : ofFile real file = ofFile real file' := by
  rcases parseStream_of_text h hfile with ⟨reader, hparse⟩
  rcases parseStream_of_text h' hfile' with ⟨reader', hparse'⟩
  rw [ofJson_same hsame] at hparse
  funext leftover
  rw [ofFile_of_root real hparse, ofFile_of_root real hparse']

theorem ofFile_of_swapped :
    ofFile (fun _ => []) ['{', '"', 'a', '"', ':', '1', ',', '"', 'b', '"',
        ':', '2', '}'] =
      ofFile (fun _ => []) ['{', '"', 'b', '"', ':', ' ', '2', ',', '\n', '"',
        'a', '"', ':', '1', '}'] := by
  have hname (c : Char) (hquote : c ≠ '"') (hbackslash : c ≠ '\\')
      (rest : Text) : Json.Body (c :: '"' :: rest) [c] rest :=
    Json.Body.plain hquote hbackslash (Json.Body.close rest)
  have hdigit (d : Char) (hd : d.isDigit = true) : Json.Digits [d] :=
    Json.digits_singleton hd
  have hone (c : Char) (hc : Json.isNumeric c = false) (rest : Text) :
      Json.Reads (.value (.integer 1)) ('1' :: c :: rest) (c :: rest) :=
    Json.Reads.integer false (hdigit '1' rfl) (Json.stops_cons hc rest)
  have htwo (c : Char) (hc : Json.isNumeric c = false) (rest : Text) :
      Json.Reads (.value (.integer 2)) ('2' :: c :: rest) (c :: rest) :=
    Json.Reads.integer false (hdigit '2' rfl) (Json.stops_cons hc rest)
  have hfile : Json.Text ['{', '"', 'a', '"', ':', '1', ',', '"', 'b', '"',
      ':', '2', '}']
      (.object [(['a'], .integer 1), (['b'], .integer 2)]) :=
    ⟨_, _, Json.Gap.none _, Json.Reads.object
      (Json.Reads.member (Json.Gap.none _) (hname 'a' (by decide) (by decide) _)
        (Json.Blanks.none _) (Json.Gap.none _) (hone ',' rfl _)
        (Json.Gap.none _)
        (Json.Reads.lastMember (Json.Gap.none _)
          (hname 'b' (by decide) (by decide) _) (Json.Blanks.none _)
          (Json.Gap.none _) (htwo '}' rfl []) (Json.Gap.none _))),
      Json.Gap.none []⟩
  have hfile' : Json.Text ['{', '"', 'b', '"', ':', ' ', '2', ',', '\n', '"',
      'a', '"', ':', '1', '}']
      (.object [(['b'], .integer 2), (['a'], .integer 1)]) :=
    ⟨_, _, Json.Gap.none _, Json.Reads.object
      (Json.Reads.member (Json.Gap.none _) (hname 'b' (by decide) (by decide) _)
        (Json.Blanks.none _) (Json.Gap.blank rfl (Json.Gap.none _))
        (htwo ',' rfl _) (Json.Gap.none _)
        (Json.Reads.lastMember (Json.Gap.blank rfl (Json.Gap.none _))
          (hname 'a' (by decide) (by decide) _) (Json.Blanks.none _)
          (Json.Gap.none _) (hone '}' rfl []) (Json.Gap.none _))),
      Json.Gap.none []⟩
  exact ofFile_same hfile hfile'
    (SameDocument.order (List.Perm.swap _ _ []) (by decide)) (by decide)
    (by decide)

end Config

end BeeGadz
