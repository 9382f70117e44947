import BeeGadz.Foundation.Simulation
import BeeGadz.World

/-!
# The message queues of the display

What is queued on a line by `setCommand` and what `print` shows of it, for every
interleaving of the two.  The lines do not affect each other: each print does
one step on the queue of each line.
-/

namespace BeeGadz

open Foundation

/-!
## One line
-/

/-- A round of the loop of `print` on the queue of a line: the queue after it,
and what is sent to the display. -/
def printQueue (β : Type) (timer shown : Int) (i : Fin 4) :
    List Line -> List Line × List (Event β)
  | [] => ([], [])
  | front :: rest =>
      if front.printed = -1 then
        ({ front with printed := shown } :: rest,
          [.clearLine (i.val + 1), .printLCD front.message (i.val + 1)])
      else if front.time ≠ 0 ∧ timer - front.printed ≥ toInt front.time then
        (rest, [.clearLine (i.val + 1)])
      else if front.time = 0 ∧ rest ≠ [] then
        (rest, [.clearLine (i.val + 1)])
      else (front :: rest, [])

inductive Printed {β : Type} (timer shown : Int) (i : Fin 4) :
    List Line -> List Line -> List (Event β) -> Prop where
  | idle (queue : List Line) : Printed timer shown i queue queue []
  | shows (front : Line) (rest : List Line) (hnew : front.printed = -1) :
      Printed timer shown i (front :: rest)
        ({ front with printed := shown } :: rest)
        [.clearLine (i.val + 1), .printLCD front.message (i.val + 1)]
  | expires (front : Line) (rest : List Line) (hold : front.printed ≠ -1)
      (htime : front.time ≠ 0)
      (hlate : timer - front.printed ≥ toInt front.time) :
      Printed timer shown i (front :: rest) rest [.clearLine (i.val + 1)]
  | replaced (front : Line) (rest : List Line) (hold : front.printed ≠ -1)
      (htime : front.time = 0) (hrest : rest ≠ []) :
      Printed timer shown i (front :: rest) rest [.clearLine (i.val + 1)]

theorem printed_printQueue {β : Type} (timer shown : Int) (i : Fin 4)
    (queue : List Line) :
    Printed timer shown i queue (printQueue β timer shown i queue).1
      (printQueue β timer shown i queue).2 := by
  cases queue with
  | nil => exact .idle []
  | cons front rest =>
      rw [printQueue]
      by_cases hnew : front.printed = -1
      · rw [if_pos hnew]
        exact .shows front rest hnew
      · rw [if_neg hnew]
        split
        · rename_i hcase
          exact .expires front rest hnew hcase.left hcase.right
        · split
          · rename_i hcase
            exact .replaced front rest hnew hcase.left hcase.right
          · exact .idle (front :: rest)

section Lines

variable {β : Type}

theorem printLine_run (timer shown : Int) (i : Fin 4) (w : World β) :
    (printLine timer shown i w).2 =
      { w with
        screen := Function.update w.screen i
          (printQueue β timer shown i (w.screen i)).1 }.addLog
        (printQueue β timer shown i (w.screen i)).2 := by
  have hsame : forall {queue : List Line}, w.screen i = queue ->
      { w with screen := Function.update w.screen i queue } = w := by
    intro queue hqueue
    rw [← hqueue, Function.update_eq_self]
  rw [printLine, Prog.modify_apply]
  cases hqueue : w.screen i with
  | nil =>
      dsimp only [printQueue]
      rw [hsame hqueue, World.addLog_nil]
  | cons front rest =>
      dsimp only [printQueue]
      split
      · rfl
      · split
        · rfl
        · split
          · rfl
          · rw [hsame hqueue, World.addLog_nil]

def Event.onLine (i : Fin 4) : Event β -> Bool
  | .printLCD _ line => decide (line = i.val + 1)
  | .clearLine line => decide (line = i.val + 1)
  | _ => false

def lineLog (i : Fin 4) (w : World β) : List (Event β) :=
  w.log.filter (Event.onLine i)

@[simp] theorem onLine_clearLine (i j : Fin 4) :
    Event.onLine i (.clearLine (j.val + 1) : Event β) = decide (j = i) := by
  simp [Event.onLine, Fin.ext_iff]

@[simp] theorem onLine_printLCD (message : String) (i j : Fin 4) :
    Event.onLine i (.printLCD message (j.val + 1) : Event β) =
      decide (j = i) := by
  simp [Event.onLine, Fin.ext_iff]

theorem Printed.filter {timer shown : Int} {j : Fin 4}
    {queue queue' : List Line} {events : List (Event β)}
    (h : Printed timer shown j queue queue' events) (i : Fin 4) :
    events.filter (Event.onLine i) = if j = i then events else [] := by
  cases h with
  | idle => simp
  | shows front rest hnew => by_cases hji : j = i <;> simp [hji]
  | expires front rest hold htime hlate =>
      by_cases hji : j = i <;> simp [hji]
  | replaced front rest hold htime hrest =>
      by_cases hji : j = i <;> simp [hji]

theorem printLine_screen (timer shown : Int) (i j : Fin 4) (w : World β) :
    (printLine timer shown j w).2.screen i =
      if i = j then (printQueue β timer shown j (w.screen j)).1
      else w.screen i := by
  rw [printLine_run]
  exact Function.update_apply ..

theorem printLine_lineLog (timer shown : Int) (i j : Fin 4) (w : World β) :
    lineLog i (printLine timer shown j w).2 =
      lineLog i w ++
        if j = i then (printQueue β timer shown j (w.screen j)).2 else [] := by
  have hfilter :=
    (printed_printQueue (β := β) timer shown j (w.screen j)).filter i
  rw [printLine_run, lineLog, World.addLog_log, List.filter_append, hfilter]
  rfl

/-- The rounds of `print` for some of the lines. -/
def printLines (timer : Int) (shown : Fin 4 -> Int) (lines : List (Fin 4))
    (w : World β) : World β :=
  lines.foldl (fun w j => (printLine timer (shown j) j w).2) w

theorem print_run (timer : Int) (shown : Fin 4 -> Int) (w : World β) :
    (print timer shown w).2 = printLines timer shown [0, 1, 2, 3] w := rfl

/-- The rounds do one step on the queue of each of their lines. -/
theorem printLines_line (timer : Int) (shown : Fin 4 -> Int) (i : Fin 4)
    (lines : List (Fin 4)) (hlines : lines.Nodup) (w : World β) :
    (printLines timer shown lines w).screen i =
        (if i ∈ lines then
          (printQueue β timer (shown i) i (w.screen i)).1
        else w.screen i) ∧
      lineLog i (printLines timer shown lines w) =
        lineLog i w ++
          if i ∈ lines then (printQueue β timer (shown i) i (w.screen i)).2
          else [] := by
  induction lines generalizing w with
  | nil => simp [printLines]
  | cons j lines ih =>
      rw [List.nodup_cons] at hlines
      have hrest := ih hlines.right (printLine timer (shown j) j w).2
      rw [printLine_screen, printLine_lineLog] at hrest
      show (printLines timer shown lines
          (printLine timer (shown j) j w).2).screen i = _ ∧
        lineLog i (printLines timer shown lines
          (printLine timer (shown j) j w).2) = _
      rw [hrest.left, hrest.right]
      by_cases hij : i = j
      · subst hij
        simp [hlines.left]
      · have hji : j ≠ i := fun h => hij h.symm
        simp [hij, hji]

theorem mem_allLines (i : Fin 4) : i ∈ ([0, 1, 2, 3] : List (Fin 4)) := by
  revert i
  decide

theorem print_line (timer : Int) (shown : Fin 4 -> Int) (i : Fin 4)
    (w : World β) :
    exists events : List (Event β),
      Printed timer (shown i) i (w.screen i) ((print timer shown w).2.screen i)
          events ∧
        lineLog i (print timer shown w).2 = lineLog i w ++ events := by
  have hmem := mem_allLines i
  have hline := printLines_line timer shown i [0, 1, 2, 3] (by decide) w
  rw [if_pos hmem, if_pos hmem] at hline
  rw [print_run, hline.left]
  exact ⟨_, printed_printQueue timer (shown i) i (w.screen i), hline.right⟩

end Lines

/-!
## Interleavings
-/

/-- A call of `setCommand` or of `print`. -/
inductive ScreenOp where
  | setCommand (command : String) (line : Fin 4) (time : Nat)
  | print (timer : Int) (shown : Fin 4 -> Int)

namespace ScreenOp

/-- The duration is below the limit of an `int`, and no clock is negative. -/
def Valid : ScreenOp -> Prop
  | .setCommand _ _ time => time < intLimit
  | .print timer shown => 0 ≤ timer ∧ forall i, 0 ≤ shown i

def truncated (command : String) : String :=
  String.ofList (command.toList.take 21)

def pushes (i : Fin 4) : ScreenOp -> Option (String × Nat)
  | .setCommand command line time =>
      if line = i then some (truncated command, time) else none
  | .print _ _ => none

variable {β : Type}

def run : ScreenOp -> WorldM β Unit
  | .setCommand command line time => BeeGadz.setCommand command line time
  | .print timer shown => BeeGadz.print timer shown

def after (op : ScreenOp) (w : World β) : World β :=
  (op.run w).2

def afterAll (ops : List ScreenOp) (w : World β) : World β :=
  applyAll after ops w

theorem afterAll_concat (ops : List ScreenOp) (op : ScreenOp) (w : World β) :
    afterAll (ops ++ [op]) w = op.after (afterAll ops w) := by
  simp [afterAll, applyAll]

theorem setCommand_line (command : String) (line : Fin 4) (time : Nat)
    (i : Fin 4) (w : World β) :
    ((setCommand command line time).after w).screen i =
        w.screen i ++
          (if line = i then [⟨truncated command, time, -1⟩] else []) ∧
      lineLog i ((setCommand command line time).after w) = lineLog i w := by
  refine ⟨?_, rfl⟩
  show Function.update w.screen line _ i = _
  by_cases hi : line = i
  · subst hi
    simp [truncated]
  · rw [Function.update_of_ne (fun h => hi h.symm), if_neg hi,
      List.append_nil]

end ScreenOp

section Interleavings

variable {β : Type}

/-- The message that `printLCD` is handed for a line. -/
def Event.shownOn (i : Fin 4) : Event β -> Option String
  | .printLCD message line =>
      if line = i.val + 1 then some message else none
  | _ => none

/-- The messages that `printLCD` was handed for a line. -/
def displayed (i : Fin 4) (w : World β) : List String :=
  w.log.filterMap (Event.shownOn i)

def pushed (i : Fin 4) (ops : List ScreenOp) : List (String × Nat) :=
  ops.filterMap (ScreenOp.pushes i)

def Line.asked (line : Line) : String × Nat :=
  (line.message, line.time)

def current (queue : List Line) : Option String :=
  match queue with
  | [] => none
  | front :: _ => if front.printed = -1 then none else some front.message

theorem displayed_eq (i : Fin 4) (w : World β) :
    displayed i w = (lineLog i w).filterMap (Event.shownOn i) := by
  rw [displayed, lineLog, List.filterMap_filter]
  congr 1
  funext e
  cases e with
  | printLCD message line =>
      by_cases hline : line = i.val + 1 <;>
        simp [Event.shownOn, Event.onLine, hline]
  | _ => simp [Event.shownOn, Event.onLine]

def Messages (P : String -> Prop) (queue : List Line) : Prop :=
  forall line, line ∈ queue -> P line.message

def ScreenOp.Queues (P : String -> Prop) : ScreenOp -> Prop
  | .setCommand command _ _ => P (ScreenOp.truncated command)
  | .print _ _ => True

theorem Messages.printed {P : String -> Prop} {timer shown : Int}
    {i : Fin 4} {queue queue' : List Line} {events : List (Event β)}
    (hP : Messages P queue)
    (h : Printed timer shown i queue queue' events) : Messages P queue' := by
  intro line hline
  cases h with
  | idle => exact hP line hline
  | shows front rest hnew =>
      rcases List.mem_cons.mp hline with rfl | hline
      · exact hP front List.mem_cons_self
      · exact hP line (List.mem_cons_of_mem front hline)
  | expires front rest hold htime hlate =>
      exact hP line (List.mem_cons_of_mem front hline)
  | replaced front rest hold htime hrest =>
      exact hP line (List.mem_cons_of_mem front hline)

theorem messages_after {P : String -> Prop} {op : ScreenOp} {w : World β}
    (h : forall i, Messages P (w.screen i)) (hop : op.Queues P)
    (i : Fin 4) : Messages P ((op.after w).screen i) := by
  cases op with
  | setCommand command line time =>
      rw [(ScreenOp.setCommand_line command line time i w).left]
      intro other hother
      rcases List.mem_append.mp hother with hother | hother
      · exact h i other hother
      · split at hother
        · rw [List.mem_singleton.mp hother]
          exact hop
        · cases hother
  | print timer shown =>
      rcases print_line timer shown i w with ⟨events, hprinted, _⟩
      exact (h i).printed hprinted

theorem messages_afterAll {P : String -> Prop} {start : World β}
    (h : forall i, Messages P (start.screen i)) {ops : List ScreenOp}
    (hops : forall op, op ∈ ops -> op.Queues P) (i : Fin 4) :
    Messages P ((ScreenOp.afterAll ops start).screen i) := by
  induction ops using List.reverseRecOn generalizing i with
  | nil => exact h i
  | append_singleton past op ih =>
      rw [ScreenOp.afterAll_concat]
      exact messages_after
        (ih fun other hother => hops other (by simp [hother]))
        (hops op (by simp)) i

/-- A print of the past displayed the message, at the time it keeps, and nothing
was sent to the line after that. -/
def DisplayedSince (start : World β) (i : Fin 4) (past : List ScreenOp)
    (front : Line) : Prop :=
  exists early timer shown late,
    past = early ++ .print timer shown :: late ∧ front.printed = shown i ∧
      lineLog i (ScreenOp.afterAll (early ++ [.print timer shown]) start) =
        lineLog i (ScreenOp.afterAll early start) ++
          [.clearLine (i.val + 1), .printLCD front.message (i.val + 1)] ∧
      lineLog i (ScreenOp.afterAll past start) =
        lineLog i (ScreenOp.afterAll (early ++ [.print timer shown]) start)

/-- How the queue and the log of a line follow from the calls so far. -/
structure Tracks (start : World β) (i : Fin 4) (past : List ScreenOp)
    (queue : List Line) : Prop where
  order : exists gone,
    pushed i past = gone ++ queue.map Line.asked ∧
      displayed i (ScreenOp.afterAll past start) =
        gone.map Prod.fst ++ (current queue).toList
  waiting : forall line, line ∈ queue.tail -> line.printed = -1
  times : forall line, line ∈ queue -> line.time < intLimit
  front : forall front rest, queue = front :: rest -> front.printed ≠ -1 ->
    DisplayedSince start i past front

theorem displayed_append {i : Fin 4} {w w' : World β}
    {events : List (Event β)} (h : lineLog i w' = lineLog i w ++ events) :
    displayed i w' = displayed i w ++ events.filterMap (Event.shownOn i) := by
  rw [displayed_eq, displayed_eq, h, List.filterMap_append]

theorem displayed_congr {i : Fin 4} {w w' : World β}
    (h : lineLog i w' = lineLog i w) : displayed i w' = displayed i w := by
  rw [displayed_eq, displayed_eq, h]

theorem DisplayedSince.concat {start : World β} {i : Fin 4}
    {past : List ScreenOp} {front : Line}
    (h : DisplayedSince start i past front) {op : ScreenOp}
    (hquiet : lineLog i (ScreenOp.afterAll (past ++ [op]) start) =
      lineLog i (ScreenOp.afterAll past start)) :
    DisplayedSince start i (past ++ [op]) front := by
  rcases h with ⟨early, timer, shown, late, hpast, htime, hshown, hlog⟩
  exact ⟨early, timer, shown, late ++ [op], by simp [hpast], htime, hshown,
    hquiet.trans hlog⟩

theorem tracks_start (mem : Uid -> Nat -> Bytes β 16) (mode : ConfigMode)
    (i : Fin 4) : Tracks (World.start mem mode) i [] [] where
  order := ⟨[], rfl, rfl⟩
  waiting := by simp
  times := by simp
  front := by
    intro front rest h
    cases h

section Step

variable {start : World β} {i : Fin 4} {past : List ScreenOp}
  {queue : List Line} (h : Tracks start i past queue)

include h

theorem Tracks.push {op : ScreenOp} {line : Line}
    (hpush : ScreenOp.pushes i op = some line.asked)
    (hnew : line.printed = -1) (htime : line.time < intLimit)
    (hlog : lineLog i (ScreenOp.afterAll (past ++ [op]) start) =
      lineLog i (ScreenOp.afterAll past start)) :
    Tracks start i (past ++ [op]) (queue ++ [line]) where
  order := by
    rcases h.order with ⟨gone, hpushed, hshown⟩
    have hcurrent : current (queue ++ [line]) = current queue := by
      cases queue with
      | nil => simp [current, hnew]
      | cons front rest => rfl
    have hsame := displayed_congr hlog
    refine ⟨gone, ?_, ?_⟩
    · rw [pushed, List.filterMap_append, ← pushed, hpushed]
      simp [hpush]
    · rw [hsame, hcurrent, hshown]
  waiting := by
    intro other hother
    cases queue with
    | nil => cases hother
    | cons front rest =>
        rcases List.mem_append.mp hother with hother | hother
        · exact h.waiting other hother
        · rwa [List.mem_singleton.mp hother]
  times := by
    intro other hother
    rcases List.mem_append.mp hother with hother | hother
    · exact h.times other hother
    · rwa [List.mem_singleton.mp hother]
  front := by
    intro front rest hqueue hold
    cases hq : queue with
    | nil =>
        rw [hq, List.nil_append, List.cons.injEq] at hqueue
        exact absurd (hqueue.left ▸ hnew) hold
    | cons first others =>
        rw [hq, List.cons_append, List.cons.injEq] at hqueue
        rw [← hqueue.left] at hold ⊢
        exact (h.front first others hq hold).concat hlog

theorem Tracks.idle {op : ScreenOp} (hpush : ScreenOp.pushes i op = none)
    (hlog : lineLog i (ScreenOp.afterAll (past ++ [op]) start) =
      lineLog i (ScreenOp.afterAll past start)) :
    Tracks start i (past ++ [op]) queue where
  order := by
    rcases h.order with ⟨gone, hpushed, hshown⟩
    have hsame := displayed_congr hlog
    refine ⟨gone, ?_, hsame.trans hshown⟩
    rw [pushed, List.filterMap_append, ← pushed, hpushed]
    simp [hpush]
  waiting := h.waiting
  times := h.times
  front := fun front rest hqueue hold =>
    (h.front front rest hqueue hold).concat hlog

theorem Tracks.show {front : Line} {rest : List Line}
    (hqueue : queue = front :: rest) (hnew : front.printed = -1)
    {timer : Int} {shown : Fin 4 -> Int} (hshown : 0 ≤ shown i)
    (hlog : lineLog i
        (ScreenOp.afterAll (past ++ [.print timer shown]) start) =
      lineLog i (ScreenOp.afterAll past start) ++
        [.clearLine (i.val + 1), .printLCD front.message (i.val + 1)]) :
    Tracks start i (past ++ [.print timer shown])
      ({ front with printed := shown i } :: rest) where
  order := by
    rcases h.order with ⟨gone, hpushed, hdisplayed⟩
    have hold : current queue = none := by simp [hqueue, current, hnew]
    have hnow : current ({ front with printed := shown i } :: rest) =
        some front.message := by
      have hne : shown i ≠ -1 := by omega
      simp [current, hne]
    refine ⟨gone, ?_, ?_⟩
    · rw [pushed, List.filterMap_append, ← pushed, hpushed, hqueue]
      simp [ScreenOp.pushes, Line.asked]
    · rw [displayed_append hlog, hdisplayed, hold, hnow]
      simp [Event.shownOn, List.filterMap_cons]
  waiting := by
    intro line hline
    have htail : line ∈ queue.tail := by
      rw [hqueue]
      exact hline
    exact h.waiting line htail
  times := by
    intro line hline
    rcases List.mem_cons.mp hline with rfl | hline
    · exact h.times front (by simp [hqueue])
    · exact h.times line (by simp [hqueue, hline])
  front := by
    intro first others hfirst _
    rw [List.cons.injEq] at hfirst
    rw [← hfirst.left]
    exact ⟨past, timer, shown, [], rfl, rfl, hlog, rfl⟩

theorem Tracks.pop {front : Line} {rest : List Line}
    (hqueue : queue = front :: rest) (hold : front.printed ≠ -1)
    {timer : Int} {shown : Fin 4 -> Int}
    (hlog : lineLog i
        (ScreenOp.afterAll (past ++ [.print timer shown]) start) =
      lineLog i (ScreenOp.afterAll past start) ++
        [.clearLine (i.val + 1)]) :
    Tracks start i (past ++ [.print timer shown]) rest where
  order := by
    rcases h.order with ⟨gone, hpushed, hdisplayed⟩
    have hbefore : current queue = some front.message := by
      simp [hqueue, current, hold]
    have hnow : current rest = none := by
      cases hrest : rest with
      | nil => rfl
      | cons next others =>
          have hnew := h.waiting next (by simp [hqueue, hrest])
          simp [current, hnew]
    refine ⟨gone ++ [front.asked], ?_, ?_⟩
    · rw [pushed, List.filterMap_append, ← pushed, hpushed, hqueue]
      simp [ScreenOp.pushes]
    · rw [displayed_append hlog, hdisplayed, hbefore, hnow]
      simp [Event.shownOn, Line.asked]
  waiting := by
    intro line hline
    apply h.waiting
    rw [hqueue]
    exact List.mem_of_mem_tail hline
  times := by
    intro line hline
    apply h.times
    rw [hqueue]
    exact List.mem_cons_of_mem front hline
  front := by
    intro first others hrest hnow
    have hwaiting := h.waiting first (by simp [hqueue, hrest])
    exact absurd hwaiting hnow

end Step

theorem print_line_afterAll (start : World β) (past : List ScreenOp)
    (timer : Int) (shown : Fin 4 -> Int) (i : Fin 4) :
    exists events : List (Event β),
      Printed timer (shown i) i ((ScreenOp.afterAll past start).screen i)
          ((ScreenOp.afterAll (past ++ [.print timer shown]) start).screen i)
          events ∧
        lineLog i (ScreenOp.afterAll (past ++ [.print timer shown]) start) =
          lineLog i (ScreenOp.afterAll past start) ++ events := by
  rw [ScreenOp.afterAll_concat]
  exact print_line timer shown i (ScreenOp.afterAll past start)

theorem tracks_concat {start : World β} {i : Fin 4} {past : List ScreenOp}
    (h : Tracks start i past ((ScreenOp.afterAll past start).screen i))
    {op : ScreenOp} (hop : op.Valid) :
    Tracks start i (past ++ [op])
      ((ScreenOp.afterAll (past ++ [op]) start).screen i) := by
  cases op with
  | setCommand command line time =>
      have hafter := ScreenOp.afterAll_concat past
        (.setCommand command line time) start
      have hline := ScreenOp.setCommand_line command line time i
        (ScreenOp.afterAll past start)
      rw [← hafter] at hline
      rw [hline.left]
      by_cases hi : line = i
      · rw [if_pos hi]
        refine h.push ?_ rfl ?_ hline.right
        · simp [ScreenOp.pushes, hi, Line.asked]
        · exact hop
      · rw [if_neg hi, List.append_nil]
        apply h.idle ?_ hline.right
        simp [ScreenOp.pushes, hi]
  | print timer shown =>
      rcases print_line_afterAll start past timer shown i with
        ⟨events, hprinted, hlog⟩
      generalize hqueue : (ScreenOp.afterAll past start).screen i = queue at *
      generalize (ScreenOp.afterAll (past ++ [.print timer shown])
        start).screen i = queue' at *
      cases hprinted with
      | idle => exact h.idle rfl (by rw [hlog, List.append_nil])
      | shows front rest hnew => exact h.show rfl hnew (hop.right i) hlog
      | expires front rest hold _ _ => exact h.pop rfl hold hlog
      | replaced front rest hold _ _ => exact h.pop rfl hold hlog

theorem tracks_afterAll (mem : Uid -> Nat -> Bytes β 16) (mode : ConfigMode)
    (i : Fin 4) {ops : List ScreenOp}
    (hvalid : forall op, op ∈ ops -> op.Valid) :
    Tracks (World.start mem mode) i ops
      ((ScreenOp.afterAll ops (World.start mem mode)).screen i) := by
  induction ops using List.reverseRecOn with
  | nil => exact tracks_start mem mode i
  | append_singleton past op ih =>
      exact tracks_concat (ih fun other hother => hvalid other (by simp [hother]))
        (hvalid op (by simp))

/-- How a message leaves the queue of a line: a print removes the front message,
which an earlier print displayed, after the duration given to its `setCommand`
or for a later message; and the line is cleared and nothing else sent to it. -/
def Removes (start : World β) (i : Fin 4) (past : List ScreenOp)
    (op : ScreenOp) : Prop :=
  exists timer shown front rest,
    op = .print timer shown ∧
      (ScreenOp.afterAll past start).screen i = front :: rest ∧
      (ScreenOp.afterAll (past ++ [op]) start).screen i = rest ∧
      (exists gone, pushed i past = gone ++ front.asked :: rest.map Line.asked ∧
        displayed i (ScreenOp.afterAll past start) =
          gone.map Prod.fst ++ [front.message]) ∧
      DisplayedSince start i past front ∧
      (front.time ≠ 0 -> front.printed + front.time ≤ timer) ∧
      (front.time = 0 -> rest ≠ []) ∧
      lineLog i (ScreenOp.afterAll (past ++ [op]) start) =
        lineLog i (ScreenOp.afterAll past start) ++ [.clearLine (i.val + 1)]

theorem Tracks.front_asked {start : World β} {i : Fin 4}
    {past : List ScreenOp} {front : Line} {rest : List Line}
    (h : Tracks start i past (front :: rest)) (hold : front.printed ≠ -1) :
    exists gone, pushed i past = gone ++ front.asked :: rest.map Line.asked ∧
      displayed i (ScreenOp.afterAll past start) =
        gone.map Prod.fst ++ [front.message] := by
  rcases h.order with ⟨gone, hpushed, hdisplayed⟩
  refine ⟨gone, hpushed, ?_⟩
  rw [hdisplayed, current, if_neg hold]
  rfl

theorem Tracks.removes {start : World β} {i : Fin 4} {past : List ScreenOp}
    (h : Tracks start i past ((ScreenOp.afterAll past start).screen i))
    {op : ScreenOp}
    (hshorter : ((ScreenOp.afterAll (past ++ [op]) start).screen i).length <
      ((ScreenOp.afterAll past start).screen i).length) :
    Removes start i past op := by
  cases op with
  | setCommand command line time =>
      have hafter := ScreenOp.afterAll_concat past
        (.setCommand command line time) start
      have hline := ScreenOp.setCommand_line command line time i
        (ScreenOp.afterAll past start)
      rw [hafter, hline.left, List.length_append] at hshorter
      omega
  | print timer shown =>
      rcases print_line_afterAll start past timer shown i with
        ⟨events, hprinted, hlog⟩
      generalize hqueue : (ScreenOp.afterAll past start).screen i = queue at *
      generalize hqueue' : (ScreenOp.afterAll (past ++
        [.print timer shown]) start).screen i = queue' at *
      cases hprinted with
      | idle => omega
      | shows front rest hnew => simp at hshorter
      | expires front rest hold htime hlate =>
          have hsmall := h.times front (by simp)
          rw [toInt_of_small hsmall] at hlate
          exact ⟨timer, shown, front, queue', rfl, hqueue, hqueue',
            h.front_asked hold, h.front front queue' rfl hold,
            fun _ => by omega,
            fun hzero => absurd hzero htime, hlog⟩
      | replaced front rest hold htime hrest =>
          exact ⟨timer, shown, front, queue', rfl, hqueue, hqueue',
            h.front_asked hold, h.front front queue' rfl hold,
            fun hne => absurd htime hne, fun _ => hrest, hlog⟩

theorem Tracks.displayed_prefix {start : World β} {i : Fin 4}
    {ops : List ScreenOp} {queue : List Line} (h : Tracks start i ops queue) :
    displayed i (ScreenOp.afterAll ops start) <+:
      (pushed i ops).map Prod.fst := by
  rcases h.order with ⟨gone, hpushed, hdisplayed⟩
  rw [hpushed, hdisplayed, List.map_append, List.prefix_append_right_inj]
  cases queue with
  | nil => exact List.prefix_rfl
  | cons front rest =>
      rw [current]
      split
      · exact List.nil_prefix
      · exact ⟨(rest.map Line.asked).map Prod.fst, rfl⟩

/-- Whatever was queued and printed in whatever order, a line was handed a prefix
of its messages, the others are still queued with their durations, and a queue
gets shorter only in the way above. -/
theorem queues_in_order (mem : Uid -> Nat -> Bytes β 16) (mode : ConfigMode)
    {ops : List ScreenOp} (hvalid : forall op, op ∈ ops -> op.Valid)
    (i : Fin 4) :
    let start := World.start mem mode
    let w := ScreenOp.afterAll ops start
    displayed i w <+: (pushed i ops).map Prod.fst ∧
      (exists gone, pushed i ops = gone ++ (w.screen i).map Line.asked ∧
        displayed i w =
          gone.map Prod.fst ++ (current (w.screen i)).toList) ∧
      forall past op later, ops = past ++ op :: later ->
        ((ScreenOp.afterAll (past ++ [op]) start).screen i).length <
            ((ScreenOp.afterAll past start).screen i).length ->
          Removes start i past op := by
  intro start w
  have htracks := tracks_afterAll mem mode i hvalid
  refine ⟨htracks.displayed_prefix, htracks.order, ?_⟩
  intro past op later hops hshorter
  have hpast : forall other, other ∈ past -> other.Valid := by
    intro other hother
    exact hvalid other (by simp [hops, hother])
  exact (tracks_afterAll mem mode i hpast).removes hshorter

/-- A message with a duration of one second is removed a second after it was
displayed. -/
theorem queues_in_order_second :
    Removes (World.start (fun _ _ _ => 0) .bar : World UInt8) 0
      [.setCommand "OK" 0 1, .print 5 fun _ => 5] (.print 6 fun _ => 6) := by
  have hvalid : forall op : ScreenOp,
      op ∈ [.setCommand "OK" 0 1, .print 5 fun _ => 5,
        .print 6 fun _ => 6] -> op.Valid := by
    intro op hop
    simp only [List.mem_cons, List.not_mem_nil, or_false] at hop
    rcases hop with rfl | rfl | rfl
    · exact (by decide : 1 < intLimit)
    · exact ⟨by decide, fun _ => (by decide : (0 : Int) ≤ 5)⟩
    · exact ⟨by decide, fun _ => (by decide : (0 : Int) ≤ 6)⟩
  exact (queues_in_order (β := UInt8) (fun _ _ _ => 0) .bar hvalid 0).right.right
    [.setCommand "OK" 0 1, .print 5 fun _ => 5] (.print 6 fun _ => 6) [] rfl
    (by decide)

end Interleavings

end BeeGadz
