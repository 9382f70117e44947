import BeeGadz.Confinement
import BeeGadz.Dialogue.Round

/-!
# The dialogue of a run

Whatever is done with the application, the commands that go to the cards are in
order: no block is read or written unless a key was just accepted for it, and no
rejected command is left without a new selection of its card.
-/

namespace BeeGadz

open Foundation

/-!
## The menus
-/

namespace Admin

variable {β : Type} [FloatCell β]

theorem orderly_round (cfg : Config) (inp : Input β) :
    Prog.Moves Loop.Orderly (round cfg inp) := by
  apply (built_round cfg inp).moves (R := Loop.Orderly)
  intro γ q hq
  cases hq with
  | still h => exact Loop.orderly_still h
  | loop h => exact h.orderly
  | giveUp => exact Loop.orderly_setPointer_none
  | take keys target => exact Loop.orderly_found keys target

end Admin

/-!
## Runs of the application
-/

namespace Application

variable {β : Type} [FloatCell β]

/-- The card of the mode that runs has its sixteen sectors. -/
def Sectored (app : Application β) : Prop :=
  match app.running with
  | .bar s => s.Sectored
  | .kve s => s.Sectored
  | .caisse s => s.Sectored
  | .admin s => s.Sectored
  | .ended _ => True

omit [FloatCell β] in
theorem enter_sectored (clock : Int) (mode tmp : ConfigMode) (w : World β) :
    Sectored ⟨tmp, enter clock mode w⟩ := by
  cases mode with
  | _ =>
      intro c hc
      cases hc

omit [FloatCell β] in
theorem enter_converses (clock : Int) (mode : ConfigMode) (w : World β) :
    w.Converses (enter clock mode w).world := by
  have hsay : forall message : String,
      Prog.Moves World.Converses (printInfo message : WorldM β Unit) :=
    fun message => World.converses_emit rfl
  cases mode with
  | bar =>
      apply Prog.moves_then (hsay _)
      apply Prog.moves_then (hsay _)
      exact fun _ => World.converses_of_log rfl
  | kve => exact Prog.moves_then (hsay _) (hsay _) w
  | caisse => exact Prog.moves_then (hsay _) (hsay _) w
  | admin => exact hsay _ w

omit [FloatCell β] in
theorem replace_converses (clock : Int) (tmp : ConfigMode) (w : World β) :
    w.Converses (replace clock tmp w).world := by
  let w₁ := (createMode w).addLog [.clearScreen]
  let w₂ := if w₁.mode = .admin then { w₁ with mode := tmp } else w₁
  have hlog : w₂.log = w.log ++ [.clearScreen] := by
    unfold w₂
    split <;> rfl
  have hcleared : w.Converses w₂ := ⟨_, hlog, rfl⟩
  exact Trans.trans hcleared (enter_converses clock w.mode w₂)

omit [FloatCell β] in
theorem finish_orderly {L : Type} (clock : Int) (app : Application β)
    (mode : ConfigMode) {next : Loop L β -> Running β}
    (hworld : forall s, (next s).world = s.world)
    (hsectors : forall s, s.Sectored -> Sectored ⟨app.tmp, next s⟩)
    {s : Loop L β} {r : Except Exn (Option Bool) × Loop L β}
    (hs : s.Sectored) (h : Loop.Orderly s r.2) :
    Sectored (finish clock app mode next r) ∧
      s.world.Converses (finish clock app mode next r).world := by
  rcases h hs with ⟨hafter, hround⟩
  rcases r with ⟨result, t⟩
  cases result with
  | error e =>
      cases e with
      | exception =>
          exact ⟨enter_sectored _ _ _ _,
            Trans.trans hround (enter_converses clock mode t.world)⟩
      | crash => exact ⟨trivial, hround⟩
  | ok exit =>
      cases exit with
      | none =>
          refine ⟨hsectors t hafter, ?_⟩
          change s.world.Converses (next t).world
          rw [hworld]
          exact hround
      | some again =>
          cases again with
          | false => exact ⟨trivial, hround⟩
          | true =>
              exact ⟨enter_sectored _ _ _ _,
                Trans.trans hround (replace_converses clock app.tmp t.world)⟩

theorem step_orderly {cfg : Config} {inp : Input β} {app app' : Application β}
    (h : step cfg inp app = some app') (hsectors : app.Sectored) :
    app'.Sectored ∧ app.world.Converses app'.world := by
  rcases app with ⟨tmp, running⟩
  cases running with
  | bar s =>
      cases h
      apply finish_orderly _ _ _ (fun _ => rfl) (fun _ => id) hsectors
      rw [returned_state]
      exact Bar.orderly_round cfg inp.hash inp.sale s
  | kve s =>
      cases h
      apply finish_orderly _ _ _ (fun _ => rfl) (fun _ => id) hsectors
      rw [returned_state]
      exact Kve.orderly_round cfg inp.sale s
  | caisse s =>
      cases h
      apply finish_orderly _ _ _ (fun _ => rfl) (fun _ => id) hsectors
      rw [returned_state]
      exact Caisse.orderly_round cfg inp.sale s
  | admin s =>
      cases h
      exact finish_orderly _ _ _ (fun _ => rfl) (fun _ => id) hsectors
        (Admin.orderly_round cfg inp.menu s)
  | ended w => cases h

/-- In every run of the application, whatever the reader answers, the dialogue
with the cards is in order and no command is open at a loop head. -/
theorem dialogue_of_run (cfg : Config) (clock : Int) (w : World β)
    (is : List (Input β)) {last : Application β}
    (h : Run.head (step cfg) is (start clock w) = some last) :
    Dialogue.Complete (w.since last.world) ∧
      Dialogue.InOrder (w.since last.world) := by
  have hcreated : w.Converses (createMode w) := World.converses_of_log rfl
  have hstart : w.Converses (start clock w).world :=
    Trans.trans hcreated (enter_converses clock w.mode (createMode w))
  have hrun : last.Sectored ∧ w.Converses last.world := by
    apply Run.invariant_head
      (I := fun app => app.Sectored ∧ w.Converses app.world) ?_
      ⟨enter_sectored _ _ _ _, hstart⟩ h
    intro r hr hall
    rcases hall with ⟨hsectors, hbefore⟩
    rcases step_orderly (Run.mem_transitions_step hr) hsectors with
      ⟨hafter, hround⟩
    exact ⟨hafter, Trans.trans hbefore hround⟩
  have hcomplete := hrun.right.since
  exact ⟨hcomplete, hcomplete.inOrder⟩

def everyKeyRejected : Input Rat :=
  { Input.idle with
    sale :=
      { BeeGadz.Input.idle with
        found := some ⟨fun _ => 0, 0x4⟩
        reading := fun _ => Answers.rejecting } }

def fiveAdded : Input Rat :=
  { Input.idle with
    sale :=
      { BeeGadz.Input.idle with
        found := some ⟨fun _ => 0, 0x4⟩
        amount := 5 } }

omit [FloatCell β] in
def someAccepted (cmd : MifareCmd) (events : List (Event β)) : Bool :=
  events.any fun e =>
    match e with
    | .frame _ f ok => f.cmd = cmd ∧ ok
    | _ => false

theorem dialogue_of_rejected :
    let cfg : Config :=
      ⟨[], "", 0, Vec.replicate 6 0xff, Vec.replicate 6 0xff⟩
    let w : World Rat := World.start (fun _ _ _ => 0) .caisse
    exists last,
      Run.head (step cfg) [everyKeyRejected, fiveAdded] (start 0 w) =
          some last ∧
        someAccepted .read (w.since last.world) = true ∧
        someAccepted .write (w.since last.world) = true ∧
        Dialogue.Complete (w.since last.world) ∧
          Dialogue.InOrder (w.since last.world) := by
  intro cfg w
  have hstep : (Run.head (step cfg) [everyKeyRejected, fiveAdded]
      (start 0 w)).any (fun last =>
        someAccepted .read (w.since last.world) &&
          someAccepted .write (w.since last.world)) = true := by
    decide +kernel
  rcases (Option.any_eq_true _ _).mp hstep with ⟨last, hlast, hcommands⟩
  rw [Bool.and_eq_true] at hcommands
  exact ⟨last, hlast, hcommands.left, hcommands.right,
    dialogue_of_run cfg 0 w [everyKeyRejected, fiveAdded] hlast⟩

end Application

end BeeGadz
