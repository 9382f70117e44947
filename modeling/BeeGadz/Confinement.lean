import BeeGadz.Application
import BeeGadz.Confinement.Round

/-!
# Write confinement

Whatever is done with the application, the only blocks that it writes are the
three of the record: no trailer, no block of another sector.  Bar and Kve never
write the name of a card.
-/

namespace BeeGadz

open Foundation

/-!
## The menus
-/

namespace Loop

variable {L β : Type} {blocks : List Nat}

def Prepared (blocks : List Nat) (s : Loop L β) : Prop :=
  forall c, s.card = some c -> c.Ready blocks

/-- A held card stays ready, and only the listed blocks are written. -/
def Kept (blocks : List Nat) (s s' : Loop L β) : Prop :=
  s.Prepared blocks -> s'.Prepared blocks ∧ s.world.Confined blocks s'.world

instance (blocks : List Nat) : IsPreorder (Loop L β) (Kept blocks) where
  refl s := fun hs => ⟨hs, refl _⟩
  trans s t u hst htu := by
    intro hs
    have hfirst := hst hs
    have hsecond := htu hfirst.left
    exact ⟨hsecond.left, Trans.trans hfirst.right hsecond.right⟩

theorem Confined.kept {s s' : Loop L β} (h : Confined blocks s s') :
    Kept blocks s s' := by
  intro hs
  refine ⟨?_, h.world hs⟩
  intro c' hc'
  cases hc : s.card with
  | none =>
      rw [(h.absent hc).left] at hc'
      cases hc'
  | some c =>
      rcases h.present c hc (hs c hc) with ⟨c₁, hc₁, hconfines⟩
      rw [hc₁] at hc'
      cases hc'
      exact hconfines.ready

theorem kept_confined {α : Type} {p : LoopM L β α}
    (h : Prog.Moves (Confined blocks) p) : Prog.Moves (Kept blocks) p :=
  h.mono fun _ _ hconfined => hconfined.kept

theorem kept_setPointer_none :
    Prog.Moves (Kept blocks) (setPointer none : LoopM L β Unit) := by
  intro s _
  refine ⟨?_, refl _⟩
  intro c hc
  cases hc

variable [Cell β]

theorem ready_fresh (target : Target) (keys : Vec UInt8) :
    (Card.fresh target keys : Card β).Ready blocks where
  classic := Card.classic_fresh target keys
  within := by
    intro a ha
    rw [Card.Pending, Card.blockAt, fresh_block] at ha
    cases ha

theorem kept_found (keys : Vec UInt8) (target : Target) :
    Prog.Moves (Kept blocks)
      (do
        let c ← Prog.ofExcept (Card.new target keys)
        setPointer (some c) : LoopM L β Unit) := by
  intro s hs
  by_cases hatqa : target.atqa = 0x4
  · have hnew : (Card.new target keys : Except Exn (Card β)) =
        .ok (Card.fresh target keys) := if_pos hatqa
    rw [Prog.bind_apply, Prog.ofExcept_apply, hnew]
    refine ⟨?_, refl _⟩
    intro c hc
    cases hc
    exact ready_fresh target keys
  · have hnew : (Card.new target keys : Except Exn (Card β)) =
        .error .exception := if_neg hatqa
    rw [Prog.bind_apply, Prog.ofExcept_apply, hnew]
    exact ⟨hs, refl _⟩

end Loop

namespace Admin

variable {β : Type} [FloatCell β]

/-- A round of Admin only writes the record of a card that it has just found. -/
theorem kept_round (cfg : Config) (inp : Input β) :
    Prog.Moves (Loop.Kept recordBlocks) (round cfg inp) := by
  apply (built_round cfg inp).moves (R := Loop.Kept recordBlocks)
  intro γ q hq
  cases hq with
  | still h => exact Loop.kept_confined (Loop.confined_still h)
  | loop h => exact Loop.kept_confined h.confined
  | giveUp => exact Loop.kept_setPointer_none
  | take keys target => exact Loop.kept_found keys target

end Admin

/-!
## Runs of the application
-/

namespace Application

variable {β : Type} [FloatCell β]

def soldTo (cfg : Config) (inp : Input β) (app : Application β) :
    Option (Card β) :=
  match app.running with
  | .bar s => (Bar.round cfg inp.hash inp.sale s).2.card
  | .kve s => (Kve.round cfg inp.sale s).2.card
  | _ => none

def Sells (app : Application β) : Prop :=
  match app.running with
  | .bar _ => True
  | .kve _ => True
  | _ => False

/-- A round of Bar or Kve writes blocks 5 and 6 of the card that it holds, which
is a DEBIT card, and leaves all other blocks and the roles of all cards as they
are. -/
structure SaleConfined (cfg : Config)
    (r : Transition (Input β) (Application β)) : Prop where
  writes : forall uid f ok,
    .frame uid f ok ∈ r.before.world.since r.after.world -> f.cmd = .write ->
      (f.block = 5 ∨ f.block = 6) ∧
        exists c, soldTo cfg r.input r.before = some c ∧ c.uid = uid ∧
          c.isDebit
  mem : forall uid a, a ≠ 5 -> a ≠ 6 ->
    r.after.world.mem uid a = r.before.world.mem uid a
  role : forall uid role,
    Memory.Says (r.after.world.mem uid) role <->
      Memory.Says (r.before.world.mem uid) role

/-- A card that is held in a menu is ready to be written. -/
def Prepared (app : Application β) : Prop :=
  match app.running with
  | .admin s => s.Prepared Admin.recordBlocks
  | _ => True

omit [FloatCell β] in
theorem enter_prepared (clock : Int) (mode tmp : ConfigMode) (w : World β) :
    Prepared ⟨tmp, enter clock mode w⟩ := by
  cases mode with
  | admin =>
      intro c hc
      cases hc
  | _ => trivial

omit [FloatCell β] in
theorem confined_printInfo (message : String) :
    Prog.Moves (World.Confined []) (printInfo message : WorldM β Unit) :=
  fun _ => ⟨fun _ _ _ => rfl, [.info message], rfl, by
    simp [sentWrites, Event.written]⟩

omit [FloatCell β] in
theorem confined_setCommand (command : String) (line : Fin 4) (time : Nat) :
    Prog.Moves (World.Confined [])
      (setCommand command line time : WorldM β Unit) :=
  fun _ => ⟨fun _ _ _ => rfl, [], (List.append_nil _).symm, by simp⟩

omit [FloatCell β] in
theorem enter_confined (clock : Int) (mode : ConfigMode) (w : World β) :
    w.Confined [] (enter clock mode w).world := by
  cases mode with
  | bar =>
      apply Prog.moves_then (confined_printInfo _)
      apply Prog.moves_then (confined_printInfo _)
      exact confined_setCommand _ _ _
  | kve =>
      apply Prog.moves_then (confined_printInfo _)
      exact confined_printInfo _
  | caisse =>
      apply Prog.moves_then (confined_printInfo _)
      exact confined_printInfo _
  | admin => exact confined_printInfo _ w

omit [FloatCell β] in
theorem replace_confined (clock : Int) (tmp : ConfigMode) (w : World β) :
    w.Confined [] (replace clock tmp w).world := by
  let w₁ := (createMode w).addLog [.clearScreen]
  let w₂ := if w₁.mode = .admin then { w₁ with mode := tmp } else w₁
  have hlog : w₂.log = w.log ++ [.clearScreen] := by
    unfold w₂
    split <;> rfl
  have hmem : w₂.mem = w.mem := by
    unfold w₂
    split <;> rfl
  have hcleared : w.Confined [] w₂ :=
    ⟨fun _ _ _ => by rw [hmem], [.clearScreen], hlog, by
      simp [sentWrites, Event.written]⟩
  exact Trans.trans hcleared (enter_confined clock w.mode w₂)

omit [FloatCell β] in
theorem finish_confined {L : Type} (clock : Int) (app : Application β)
    (mode : ConfigMode) (next : Loop L β -> Running β)
    (hnext : forall s, (next s).world = s.world)
    (r : Except Exn (Option Bool) × Loop L β) :
    r.2.world.Confined [] (finish clock app mode next r).world := by
  rcases r with ⟨result, s⟩
  cases result with
  | error e =>
      cases e with
      | exception => exact enter_confined clock mode s.world
      | crash => exact refl _
  | ok exit =>
      cases exit with
      | none =>
          change s.world.Confined [] (next s).world
          rw [hnext]
          exact refl _
      | some again =>
          cases again with
          | false => exact refl _
          | true => exact replace_confined clock app.tmp s.world

omit [FloatCell β] in
theorem finish_prepared {L : Type} (clock : Int) (app : Application β)
    (mode : ConfigMode) {next : Loop L β -> Running β}
    {r : Except Exn (Option Bool) × Loop L β}
    (hnext : Prepared ⟨app.tmp, next r.2⟩) :
    Prepared (finish clock app mode next r) := by
  rcases r with ⟨result, s⟩
  cases result with
  | error e =>
      cases e with
      | exception => exact enter_prepared _ _ _ _
      | crash => trivial
  | ok exit =>
      cases exit with
      | none => exact hnext
      | some again =>
          cases again with
          | false => trivial
          | true => exact enter_prepared _ _ _ _

omit [FloatCell β] in
theorem returned_state {L : Type} (p : LoopM L β Exit) (s : Loop L β) :
    (returned p s).2 = (p s).2 := by
  unfold returned
  rw [Prog.bind_apply]
  rcases p s with ⟨result, s'⟩
  cases result with
  | error e => rfl
  | ok exit => cases exit <;> rfl

omit [FloatCell β] in
theorem sale_confined {L : Type} {blocks : List Nat} (clock : Int)
    (app : Application β) (mode : ConfigMode) {next : Loop L β -> Running β}
    (hnext : forall s, (next s).world = s.world) {p : LoopM L β Exit}
    {s : Loop L β} (h : s.world.Confined blocks (p s).2.world) :
    s.world.Confined blocks
      (finish clock app mode next (returned p s)).world := by
  have hfinish := finish_confined clock app mode next hnext (returned p s)
  rw [returned_state] at hfinish
  exact h.quiet hfinish

theorem step_confined {cfg : Config} {inp : Input β}
    {app app' : Application β} (h : step cfg inp app = some app')
    (hprepared : app.Prepared) :
    app'.Prepared ∧ app.world.Confined Admin.recordBlocks app'.world := by
  rcases app with ⟨tmp, running⟩
  have hsub : [5, 6] ⊆ Admin.recordBlocks := by
    decide
  cases running with
  | bar s =>
      cases h
      exact ⟨finish_prepared _ _ _ trivial,
        (sale_confined _ _ _ (fun _ => rfl)
          (Bar.round_confined cfg inp.hash inp.sale s)).mono hsub⟩
  | kve s =>
      cases h
      exact ⟨finish_prepared _ _ _ trivial,
        (sale_confined _ _ _ (fun _ => rfl)
          (Kve.round_confined cfg inp.sale s)).mono hsub⟩
  | caisse s =>
      cases h
      exact ⟨finish_prepared _ _ _ trivial,
        sale_confined _ _ _ (fun _ => rfl)
          (Caisse.round_confined cfg inp.sale s)⟩
  | admin s =>
      cases h
      rcases Admin.kept_round cfg inp.menu s hprepared with
        ⟨hready, hconfined⟩
      have hfinish := finish_confined inp.clock ⟨tmp, .admin s⟩ .admin
        .admin (fun _ => rfl) (Admin.round cfg inp.menu s)
      exact ⟨finish_prepared _ _ _ hready,
        hconfined.quiet hfinish⟩
  | ended w => cases h

theorem saleConfined_of_round {L : Type} {cfg : Config}
    {r : Transition (Input β) (Application β)} {w : World β}
    {held : Loop L β}
    (hround : r.before.world.Confined [5, 6] w)
    (hfinish : w.Confined [] r.after.world)
    (hheld : soldTo cfg r.input r.before = held.card)
    (hdebit : forall {uid f ok},
      (uid, f, ok) ∈ sentWrites (r.before.world.since w) ->
        exists c, held.card = some c ∧ c.uid = uid ∧ c.isDebit) :
    SaleConfined cfg r := by
  have hall : r.before.world.Confined [5, 6] r.after.world :=
    hround.quiet hfinish
  refine ⟨?_, ?_, ?_⟩
  · intro uid f ok hmem hcmd
    refine ⟨by simpa using hall.block hmem hcmd, ?_⟩
    have hsent := mem_sentWrites.mpr ⟨hmem, hcmd⟩
    rw [hround.sentWrites_since hfinish] at hsent
    rw [hheld]
    exact hdebit hsent
  · intro uid a h5 h6
    exact hall.mem uid a (by simp [h5, h6])
  · intro uid role
    rw [Memory.Says, Memory.Says, hall.mem uid 4 (by decide)]

theorem step_saleConfined {cfg : Config}
    {r : Transition (Input β) (Application β)}
    (h : step cfg r.input r.before = some r.after) (hsells : r.before.Sells) :
    SaleConfined cfg r := by
  rcases r with ⟨⟨tmp, running⟩, inp, app'⟩
  cases running with
  | bar s =>
      have hafter : finish inp.clock ⟨tmp, .bar s⟩ .bar .bar
          (returned (Bar.round cfg inp.hash inp.sale) s) = app' :=
        Option.some.inj h
      have hfinish := finish_confined inp.clock ⟨tmp, .bar s⟩ .bar .bar
        (fun _ => rfl) (returned (Bar.round cfg inp.hash inp.sale) s)
      rw [returned_state, hafter] at hfinish
      exact saleConfined_of_round
        (Bar.round_confined cfg inp.hash inp.sale s) hfinish rfl
        Bar.round_debit
  | kve s =>
      have hafter : finish inp.clock ⟨tmp, .kve s⟩ .kve .kve
          (returned (Kve.round cfg inp.sale) s) = app' :=
        Option.some.inj h
      have hfinish := finish_confined inp.clock ⟨tmp, .kve s⟩ .kve .kve
        (fun _ => rfl) (returned (Kve.round cfg inp.sale) s)
      rw [returned_state, hafter] at hfinish
      exact saleConfined_of_round
        (Kve.round_confined cfg inp.sale s) hfinish rfl Kve.round_debit
  | caisse s => cases hsells
  | admin s => cases hsells
  | ended w => cases hsells

/-- In every run of the application the writes that are sent address the blocks
4, 5 and 6; and in Bar and Kve the blocks 5 and 6 of DEBIT cards, whose roles
they keep. -/
theorem writes_confined (cfg : Config) (clock : Int) (w : World β)
    (is : List (Input β)) :
    (forall last, Run.head (step cfg) is (start clock w) = some last ->
      forall uid f ok, .frame uid f ok ∈ w.since last.world ->
        f.cmd = .write -> f.block = 4 ∨ f.block = 5 ∨ f.block = 6) ∧
    forall r, r ∈ Run.transitions (step cfg) is (start clock w) ->
      r.before.Sells -> SaleConfined cfg r := by
  constructor
  · intro last hlast uid f ok hmem hcmd
    have hentered := enter_confined clock w.mode (createMode w)
    have hcreated : w.Confined [] (start clock w).world :=
      ⟨hentered.mem, hentered.log⟩
    have hstart : w.Confined Admin.recordBlocks (start clock w).world :=
      hcreated.mono (List.nil_subset _)
    have hrun : last.Prepared ∧
        w.Confined Admin.recordBlocks last.world := by
      apply Run.invariant_head
        (I := fun app => app.Prepared ∧
          w.Confined Admin.recordBlocks app.world) ?_
        ⟨enter_prepared _ _ _ _, hstart⟩ hlast
      intro r hr hall
      rcases hall with ⟨hprepared, hbefore⟩
      rcases step_confined (Run.mem_transitions_step hr) hprepared with
        ⟨hafter, hround⟩
      exact ⟨hafter, Trans.trans hbefore hround⟩
    simpa [Admin.recordBlocks] using hrun.right.block hmem hcmd
  · intro r hr hsells
    exact step_saleConfined (Run.mem_transitions_step hr) hsells

end Application

end BeeGadz
