import Mathlib.Data.List.Nodup
import BeeGadz.World

/-!
# Result iteration

The rows that `getNextData` returns.  The index of the next row is a static
variable of the function: all objects share it, and no request resets it.
-/

namespace BeeGadz

open Foundation

/-!
## The driver
-/

/-- `MYSQL_RES`: the rows of a stored result, each with the strings of its
columns, of which there is at least one. -/
structure MysqlRes where
  fields : Nat
  rows : List (Nat -> String)
  positive : 0 < fields

namespace MysqlRes

def lines (r : MysqlRes) : List (List String) :=
  r.rows.map fun row => (List.range r.fields).map row

def line (r : MysqlRes) (i : Nat) : List String :=
  (r.lines[i]?).getD []

theorem ne_nil_of_mem_lines {r : MysqlRes} {row : List String}
    (h : row ∈ r.lines) : row ≠ [] := by
  rcases List.mem_map.mp h with ⟨cells, _, rfl⟩
  have hpositive := r.positive
  simp
  omega

/-- Rows have a column, so that a missing row is not mistaken for one. -/
theorem line_inj {r : MysqlRes} {i j : Nat} :
    r.line i = r.line j <-> r.lines[i]? = r.lines[j]? := by
  have hsome : forall {k : Nat} {row : List String},
      r.lines[k]? = some row -> row ≠ [] :=
    fun h => ne_nil_of_mem_lines (List.mem_of_getElem? h)
  constructor
  · intro h
    rw [line, line] at h
    cases hi : r.lines[i]? with
    | none =>
        cases hj : r.lines[j]? with
        | none => rfl
        | some row =>
            rw [hi, hj] at h
            exact absurd h.symm (hsome hj)
    | some row =>
        cases hj : r.lines[j]? with
        | none =>
            rw [hi, hj] at h
            exact absurd h (hsome hi)
        | some row' =>
            rw [hi, hj] at h
            exact congrArg some h
  · intro h
    rw [line, line, h]

end MysqlRes

/-- The members of a `Mysql` object that the iteration uses. -/
structure Mysql where
  result : Option MysqlRes
  nbFields : Nat

/-- A `Mysql` object as its constructor leaves it. -/
def Mysql.new : Mysql where
  result := none
  nbFields := 0

/-- All objects of the program, and the static variable of `getNextData`. -/
structure Database (ι : Type) where
  object : ι -> Mysql
  line : Nat

def Database.start {ι : Type} : Database ι where
  object := fun _ => Mysql.new
  line := 0

namespace Database

variable {ι : Type} [DecidableEq ι]

/-- A call of `sendRequestData` that succeeds with the stored result `r`. -/
def sendRequestData (o : ι) (r : MysqlRes) : Prog (Database ι) Exn Unit :=
  Prog.modify fun s => { s with
    object := Function.update s.object o
      { result := some r, nbFields := r.fields } }

omit [DecidableEq ι] in
/-- `mysql_data_seek` and `mysql_fetch_row` index the stored result, which is a
null pointer before the first request. -/
def getData (o : ι) (nbLine : Nat) : Prog (Database ι) Exn (List String) := do
  let s ← Prog.get
  match (s.object o).result with
  | none => Prog.throw .crash
  | some r =>
      match r.rows[nbLine]? with
      | none => pure []
      | some row => pure ((List.range (s.object o).nbFields).map row)

omit [DecidableEq ι] in
def getNextData (o : ι) : Prog (Database ι) Exn (List String) := do
  Prog.modify fun s => { s with line := (s.line + 1) % sizeValues }
  let s ← Prog.get
  getData o ((s.line + sizeValues - 1) % sizeValues)

/-!
## Sequences of calls
-/

inductive Call (ι : Type) where
  | sendRequestData (o : ι) (r : MysqlRes)
  | getNextData (o : ι)

namespace Call

def run : Call ι -> Prog (Database ι) Exn Unit
  | .sendRequestData o r => Database.sendRequestData o r
  | .getNextData o => do
      let _ ← Database.getNextData o
      pure ()

def runAll : List (Call ι) -> Prog (Database ι) Exn Unit
  | [] => pure ()
  | call :: calls => do
      call.run
      runAll calls

def latestStep (o : ι) (r : Option MysqlRes) : Call ι -> Option MysqlRes
  | .sendRequestData o' r' => if o' = o then some r' else r
  | .getNextData _ => r

def latest (o : ι) (calls : List (Call ι)) : Option MysqlRes :=
  calls.foldl (latestStep o) none

def fetchedStep (o : ι) (n : Nat) : Call ι -> Nat
  | .sendRequestData o' _ => if o' = o then 0 else n
  | .getNextData o' => if o' = o then n + 1 else n

def fetched (o : ι) (calls : List (Call ι)) : Nat :=
  calls.foldl (fetchedStep o) 0

omit [DecidableEq ι] in
def isFetch : Call ι -> Bool
  | .sendRequestData _ _ => false
  | .getNextData _ => true

omit [DecidableEq ι] in
def fetches (calls : List (Call ι)) : Nat :=
  calls.countP isFetch

end Call

/-- What is the same in the database after a sequence of calls: the static
variable counts all fetches, and an object holds its latest result. -/
structure Counts (s : Database ι) (past : List (Call ι)) : Prop where
  line : s.line = Call.fetches past % sizeValues
  result : forall o, (s.object o).result = Call.latest o past
  nbFields : forall o r, Call.latest o past = some r ->
    (s.object o).nbFields = r.fields

theorem counts_start : Counts (start : Database ι) [] where
  line := rfl
  result := fun _ => rfl
  nbFields := by
    intro o r h
    cases h

theorem Call.latest_concat (o : ι) (past : List (Call ι)) (call : Call ι) :
    Call.latest o (past ++ [call]) =
      Call.latestStep o (Call.latest o past) call := by
  rw [Call.latest, List.foldl_append]
  rfl

omit [DecidableEq ι] in
theorem Call.fetches_concat (past : List (Call ι)) (call : Call ι) :
    Call.fetches (past ++ [call]) =
      Call.fetches past + if call.isFetch then 1 else 0 := by
  rw [Call.fetches, List.countP_append, List.countP_singleton]
  rfl

theorem counts_sendRequestData {s : Database ι} {past : List (Call ι)}
    (h : Counts s past) (o : ι) (r : MysqlRes) :
    Counts (sendRequestData o r s).2
      (past ++ [.sendRequestData o r]) where
  line := by
    rw [Call.fetches_concat]
    exact h.line
  result := by
    intro o'
    rw [Call.latest_concat]
    by_cases ho : o' = o
    · simp [sendRequestData, Call.latestStep, ho]
    · have hother : o ≠ o' := fun heq => ho heq.symm
      simpa [sendRequestData, Call.latestStep, ho, hother] using h.result o'
  nbFields := by
    intro o' r' hlatest
    rw [Call.latest_concat] at hlatest
    by_cases ho : o' = o
    · simp only [Call.latestStep, ho, if_true, Option.some.injEq] at hlatest
      simp [sendRequestData, ho, hlatest]
    · have hother : o ≠ o' := fun heq => ho heq.symm
      simp only [Call.latestStep, if_neg hother] at hlatest
      simpa [sendRequestData, ho] using h.nbFields o' r' hlatest

theorem getNextData_run {s : Database ι} {past : List (Call ι)}
    (h : Counts s past) (o : ι) :
    getNextData o s =
      (match Call.latest o past with
        | none => .error .crash
        | some r => .ok (r.line (Call.fetches past % sizeValues)),
        { s with line := (s.line + 1) % sizeValues }) := by
  have hback : ((s.line + 1) % sizeValues + sizeValues - 1) % sizeValues =
      Call.fetches past % sizeValues := by
    rw [h.line]
    have hlt : Call.fetches past % sizeValues < sizeValues :=
      Nat.mod_lt _ (by decide)
    generalize Call.fetches past % sizeValues = n at hlt
    unfold sizeValues at *
    omega
  rw [getNextData, Prog.bind_of_ok _ (Prog.modify_apply _ s),
    Prog.bind_of_ok _ (Prog.get_apply _)]
  dsimp only
  rw [hback, getData, Prog.bind_of_ok _ (Prog.get_apply _)]
  dsimp only
  rw [h.result o]
  cases hlatest : Call.latest o past with
  | none => rfl
  | some r =>
      dsimp only
      rw [h.nbFields o r hlatest, MysqlRes.line, MysqlRes.lines,
        List.getElem?_map]
      cases r.rows[Call.fetches past % sizeValues]? <;> rfl

theorem counts_getNextData {s : Database ι} {past : List (Call ι)}
    (h : Counts s past) (o : ι) :
    Counts (getNextData o s).2 (past ++ [.getNextData o]) := by
  rw [getNextData_run h o]
  constructor
  · rw [Call.fetches_concat]
    show (s.line + 1) % sizeValues = _
    rw [h.line, Nat.mod_add_mod]
    rfl
  · intro o'
    rw [Call.latest_concat]
    exact h.result o'
  · intro o' r hlatest
    rw [Call.latest_concat] at hlatest
    exact h.nbFields o' r hlatest

theorem counts_run {s s' : Database ι} {past : List (Call ι)}
    (h : Counts s past) {call : Call ι} (hrun : call.run s = (.ok (), s')) :
    Counts s' (past ++ [call]) := by
  cases call with
  | sendRequestData o r =>
      have hcounts := counts_sendRequestData h o r
      rw [Call.run] at hrun
      rwa [hrun] at hcounts
  | getNextData o =>
      have hcounts := counts_getNextData h o
      have hstate : s' = (getNextData o s).2 := by
        have hthen := Prog.then_pure_state (getNextData o) () s
        rw [Call.run] at hrun
        rw [hrun] at hthen
        exact hthen
      rwa [hstate]

theorem counts_runAll {s s' : Database ι} {past calls : List (Call ι)}
    (h : Counts s past) (hrun : Call.runAll calls s = (.ok (), s')) :
    Counts s' (past ++ calls) := by
  induction calls generalizing s past with
  | nil =>
      cases hrun
      simpa using h
  | cons call calls ih =>
      rw [Call.runAll, Prog.bind_apply] at hrun
      rcases hfirst : call.run s with ⟨r, s₁⟩
      rw [hfirst] at hrun
      cases r with
      | error e => cases hrun
      | ok u =>
          have hlater := ih (counts_run h hfirst) hrun
          simpa using hlater

/-!
## Which rows come
-/

omit [DecidableEq ι] in
/-- Among rows that differ, only the same index gives the same row, unless both
are past the last one. -/
theorem getElem?_eq_iff_of_nodup {α : Type} {l : List α} (h : l.Nodup)
    {i j : Nat} :
    l[i]? = l[j]? <-> i = j ∨ (l.length ≤ i ∧ l.length ≤ j) := by
  by_cases hi : i < l.length
  · rw [List.getElem?_inj hi h]
    constructor
    · intro hij
      exact Or.inl hij
    · intro hcase
      rcases hcase with hij | hpast
      · exact hij
      · omega
  · have hnone : l[i]? = none := List.getElem?_eq_none (by omega)
    rw [hnone, eq_comm, List.getElem?_eq_none_iff]
    omega

/-- A fetch returns the next row of the latest result of its object exactly when
that row is the one that the number of all fetches points at.  Where the rows
differ, this is when all fetches so far were on that object since its latest
request, or both numbers are past the last row. -/
theorem getNextData_iff (before : List (Call ι)) (o : ι) {r : MysqlRes}
    {s : Database ι} (hrun : Call.runAll before start = (.ok (), s))
    (hlatest : Call.latest o before = some r) :
    ((getNextData o s).1 = .ok (r.line (Call.fetched o before)) <->
      r.lines[Call.fetches before % sizeValues]? =
        r.lines[Call.fetched o before]?) ∧
    (r.lines.Nodup ->
      ((getNextData o s).1 = .ok (r.line (Call.fetched o before)) <->
        Call.fetches before % sizeValues = Call.fetched o before ∨
          (r.lines.length ≤ Call.fetches before % sizeValues ∧
            r.lines.length ≤ Call.fetched o before))) := by
  have hcounts : Counts s ([] ++ before) := counts_runAll counts_start hrun
  rw [List.nil_append] at hcounts
  have hfetch : (getNextData o s).1 =
      .ok (r.line (Call.fetches before % sizeValues)) := by
    rw [getNextData_run hcounts o, hlatest]
  have hiff : (getNextData o s).1 = .ok (r.line (Call.fetched o before)) <->
      r.lines[Call.fetches before % sizeValues]? =
        r.lines[Call.fetched o before]? := by
    rw [hfetch, Except.ok.injEq, MysqlRes.line_inj]
  exact ⟨hiff, fun hdistinct =>
    hiff.trans (getElem?_eq_iff_of_nodup hdistinct)⟩

def twoRows : MysqlRes where
  fields := 1
  rows := [fun _ => "first", fun _ => "second"]
  positive := by decide

theorem getNextData_first :
    let s := (Call.runAll [.sendRequestData true twoRows] start).2
    (getNextData true s).1 = .ok ["first"] :=
  (getNextData_iff [.sendRequestData true twoRows] true rfl rfl).left.mpr rfl

/-- After a fetch on another object, or on the same one before a new request,
the first row of a result is skipped. -/
theorem getNextData_skips :
    let other := (Call.runAll
      [.sendRequestData false twoRows, .getNextData false,
        .sendRequestData true twoRows] start).2
    let again := (Call.runAll
      [.sendRequestData true twoRows, .getNextData true,
        .sendRequestData true twoRows] start).2
    (getNextData true other).1 = .ok ["second"] ∧
      (getNextData true again).1 = .ok ["second"] ∧
      twoRows.line 0 = ["first"] := by
  decide

end Database

end BeeGadz
