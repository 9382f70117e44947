import BeeGadz.Application
import BeeGadz.Issued
import BeeGadz.Nfc
import BeeGadz.Serve.Bar
import BeeGadz.Serve.Caisse
import BeeGadz.Serve.Kve

/-!
# Work on an absent card

A null pointer to a card is a crash as soon as anything is done with the card.
The selling modes look at the pointer in every round and never crash; the menu of
cards of Admin does not, and crashes exactly when it asks for a card and none is
found.
-/

namespace BeeGadz

open Foundation

/-!
## Computations on a card that is there
-/

namespace Session

variable {β : Type}

def Steady {α : Type} (p : SessionM β α) : Prop :=
  Prog.Avoids .crash (fun s => s.card.Classic) p

theorem steady_getCard : Steady (getCard : SessionM β (Card β)) :=
  Prog.avoids_of_ok fun s hs => ⟨s.card, s, rfl, hs⟩

variable [Cell β]

theorem steady_editCard {f : Card β -> Card β}
    (hf : forall c, Card.SameFrame c (f c)) (pass : Pass β) :
    Steady (do
      modifyCard f
      writeCard pass : SessionM β Unit) := by
  apply Prog.avoids_of_ok
  rintro ⟨c, w⟩ hc
  rcases editCard_run f pass hc (hf c) w with ⟨c', w', hframe, _, _, _, hrun⟩
  exact ⟨(), ⟨c', w'⟩, hrun, Card.Classic.of_sameFrame hc hframe⟩

theorem Built.steady {blocks : List Nat} {α : Type} {p : SessionM β α}
    (h : Built blocks p) : Steady p := by
  apply h.avoids
  intro γ q hq
  cases hq with
  | getCard => exact steady_getCard
  | onWorld h => exact fun s hs => ⟨(h.avoids s.world trivial).left, hs⟩
  | editCard pass h => exact steady_editCard (fun c => (h c).frame) pass

end Session

/-!
## Rounds of the selling modes
-/

namespace Loop

variable {L β : Type}

def Present (s : Loop L β) : Prop :=
  exists c, s.card = some c ∧ c.Classic

def Steady {α : Type} (p : LoopM L β α) : Prop :=
  Prog.Avoids .crash Present p

theorem steady_modify {f : Loop L β -> Loop L β}
    (h : forall s, (f s).card = s.card) :
    Steady (Prog.modify f : LoopM L β Unit) := by
  apply Prog.avoids_modify
  rintro s ⟨c, hc, hclassic⟩
  exact ⟨c, (h s).trans hc, hclassic⟩

theorem steady_getLocals : Steady (getLocals : LoopM L β L) :=
  Prog.avoids_of_ok fun s hs => ⟨s.locals, s, rfl, hs⟩

theorem steady_onCard {α : Type} {p : SessionM β α}
    (h : Session.Steady p) : Steady (onCard p : LoopM L β α) := by
  rintro ⟨l, card, r, w⟩ ⟨c, hc, hclassic⟩
  cases hc
  have hrun := h ⟨c, w⟩ hclassic
  exact ⟨hrun.left, _, rfl, hrun.right⟩

theorem steady_next : Steady (pure .next : LoopM L β Exit) :=
  Prog.avoids_pure _

theorem steady_guarded {body : LoopM L β Exit} (h : Steady body) :
    Steady (guarded body) := by
  apply Prog.avoids_catching h
  intro e he
  cases e with
  | exception => exact steady_next
  | crash => exact absurd rfl he

theorem Built.steady [Cell β] {blocks : List Nat} {α : Type} {p : LoopM L β α}
    (h : Built blocks p) : Steady p := by
  apply h.avoids
  intro γ q hq
  cases hq with
  | getLocals => exact steady_getLocals
  | modify hcard _ => exact steady_modify hcard
  | onWorld h => exact fun s hs => ⟨(h.avoids s.world trivial).left, hs⟩
  | onCard h => exact steady_onCard h.steady

theorem guarded_visit_ne_crash [Cell β] {words : List String}
    {ph : Phases L β} (hph : ph.Sound words) (inp : Input β)
    {dispatch body : LoopM L β Exit} (hdispatch : Steady dispatch)
    {s t s₀ : Loop L β} (hbody : body t = visit ph inp dispatch s₀)
    (hwaits : Waits words s s₀) (hcard : s₀.card = s.card) :
    (guarded body t).1 ≠ .error .crash := by
  have hvisit := guarded_visit_run hph inp dispatch hbody hwaits hcard
  cases harrival : arrival ph.keys inp s.card with
  | none =>
      rw [harrival] at hvisit
      rcases hvisit with ⟨s', reads, _, _, _, hrun⟩
      rw [hrun]
      simp
  | some target =>
      rw [harrival] at hvisit
      rcases hvisit with ⟨s₁, c, _, _, hc, hpresented, hrun⟩
      rw [hrun]
      exact (steady_guarded hdispatch s₁ ⟨c, hc, hpresented.classic⟩).left

end Loop

namespace Bar

variable {β : Type} [FloatCell β]

theorem round_ne_crash (cfg : Config) (hash : HashOrder) (inp : Input β)
    (s : Loop Locals β) : (round cfg hash inp s).1 ≠ .error .crash :=
  Loop.guarded_visit_ne_crash (phases_sound cfg inp) inp
    (built_dispatch cfg hash inp).steady (body_apply cfg inp _ s)
    (waits_afterKeys inp s) (afterKeys_card inp s)

end Bar

namespace Kve

variable {β : Type} [FloatCell β]

theorem round_ne_crash (cfg : Config) (inp : Input β) (s : Loop Locals β) :
    (round cfg inp s).1 ≠ .error .crash :=
  Loop.guarded_visit_ne_crash (phases_sound cfg) inp
    (built_dispatch cfg inp).steady (body_apply cfg inp _ s)
    (waits_afterKeys inp s) (afterKeys_card inp s)

end Kve

namespace Caisse

variable {β : Type} [FloatCell β]

theorem round_ne_crash (cfg : Config) (inp : Input β) (s : Loop Unit β) :
    (round cfg inp s).1 ≠ .error .crash :=
  Loop.guarded_visit_ne_crash (phases_sound cfg) inp
    (built_dispatch cfg inp).steady rfl (Loop.Waits.refl _ s) rfl

end Caisse

/-!
## Rounds of Admin
-/

namespace Admin

variable {β : Type} [FloatCell β]

/-- The round waits for a card: a key of the menu of cards was pressed, and the
number of a conso was let through. -/
def Asks (cfg : Config) (inp : Input β) (menu : Menu) : Prop :=
  menu = .create ∧
    (inp.key = 48 ∨
      (inp.key = 49 ∧ 0 ≤ typed inp ∧ typed inp ≤ cfg.getNbConso) ∨
      inp.key = 50 ∨ inp.key = 51)

theorem findCard_crash_iff {cfg : Config} {inp : Input β}
    {q : LoopM Menu β Unit} (hq : Loop.Steady q)
    (hnone : forall s, s.card = none -> (q s).1 = .error .crash)
    (l : Menu) (r : Bool) (w : World β) :
    ((do
      findCard cfg inp
      q : LoopM Menu β Unit) ⟨l, none, r, w⟩).1 = .error .crash <->
      inp.found = none := by
  let w₁ : World β := w.addLog [.info "Posez une carte"]
  have hfind : findCard cfg inp ⟨l, none, r, w⟩ =
      Loop.scan (cfg.getKeys true) inp.found ⟨l, none, r, w₁⟩ := rfl
  cases hfound : inp.found with
  | none =>
      have hrun : findCard cfg inp ⟨l, none, r, w⟩ =
          (.ok (), ⟨l, none, r, w₁.addLog [.scan none]⟩) := by
        rw [hfind, hfound]
        rfl
      rw [Prog.bind_of_ok _ hrun, hnone _ rfl]
      simp
  | some target =>
      have hscan : findCard cfg inp ⟨l, none, r, w⟩ =
          (do
            let c ← Prog.ofExcept (Card.new target (cfg.getKeys true))
            Loop.setPointer (some c) : LoopM Menu β Unit)
              ⟨l, none, r, w₁.addLog [.scan (some target)]⟩ := by
        rw [hfind, hfound]
        rfl
      rw [Prog.bind_apply, hscan, Prog.bind_apply, Prog.ofExcept_apply]
      by_cases hatqa : target.atqa = 0x4
      · have hclassic := Card.classic_fresh (β := β) target (cfg.getKeys true)
        rw [Card.new, if_pos hatqa]
        have hrest := hq ⟨l, some (Card.fresh target (cfg.getKeys true)), r,
          w₁.addLog [.scan (some target)]⟩ ⟨_, rfl, hclassic⟩
        simpa [Loop.setPointer] using hrest.left
      · rw [Card.new, if_neg hatqa]
        simp

theorem createAdmin_crash_iff (cfg : Config) (inp : Input β) (l : Menu)
    (r : Bool) (w : World β) :
    (createAdmin cfg inp ⟨l, none, r, w⟩).1 = .error .crash <->
      inp.found = none := by
  apply findCard_crash_iff
  · have hbuilt : Session.Built recordBlocks
        (Session.createAdmin inp.writing : SessionM β Unit) :=
      Session.built_createAdmin (by decide) _
    exact (Loop.built_onCard hbuilt).steady
  · intro s hs
    rw [onCard_none _ hs]

theorem createSOS_crash_iff (cfg : Config) (inp : Input β) (l : Menu)
    (r : Bool) (w : World β) :
    (createSOS cfg inp ⟨l, none, r, w⟩).1 = .error .crash <->
      inp.found = none := by
  apply findCard_crash_iff
  · have hbuilt : Session.Built recordBlocks
        (Session.createSOS inp.writing : SessionM β Unit) :=
      Session.built_createSOS (by decide) _
    exact (Loop.built_onCard hbuilt).steady
  · intro s hs
    rw [onCard_none _ hs]

theorem createDebit_crash_iff (cfg : Config) (inp : Input β) (l : Menu)
    (r : Bool) (w : World β) :
    (createDebit cfg inp ⟨l, none, r, w⟩).1 = .error .crash <->
      inp.found = none := by
  apply findCard_crash_iff
  · exact (built_createDebit_rest cfg inp).steady
  · intro s hs
    rw [Prog.bind_of_error _ (onCard_none _ hs)]

theorem createConso_crash_iff (cfg : Config) (inp : Input β) (l : Menu)
    (r : Bool) (w : World β) :
    (createConso cfg inp ⟨l, none, r, w⟩).1 = .error .crash <->
      (0 ≤ typed inp ∧ typed inp ≤ cfg.getNbConso) ∧ inp.found = none := by
  rcases createConso_apply cfg inp l r w with ⟨w', _, happly⟩
  rw [happly]
  by_cases hrange : typed inp < 0 ∨ typed inp > cfg.getNbConso
  · rw [if_pos hrange]
    constructor
    · intro h
      cases h
    · intro h
      omega
  · have hlet : 0 ≤ typed inp ∧ typed inp ≤ cfg.getNbConso := by
      omega
    rw [if_neg hrange, and_iff_right hlet]
    apply findCard_crash_iff
    · have hbuilt : Session.Built recordBlocks
          (Session.createConso inp.writing (UInt8.ofInt (typed inp)) :
            SessionM β Unit) :=
        Session.built_createConso (by decide) (by decide) _ _
      exact (Loop.built_onCard hbuilt).steady
    · intro s hs
      rw [onCard_none _ hs]

theorem createMenu_crash_iff (cfg : Config) (inp : Input β)
    (s : Loop Menu β) :
    (createMenu cfg inp s).1 = .error .crash <->
      Asks cfg inp .create ∧ inp.found = none := by
  rcases createMenu_apply cfg inp s with ⟨w, _, happly⟩
  rw [happly, Asks]
  by_cases hadmin : inp.key = 48
  · rw [if_pos hadmin, createAdmin_crash_iff]
    simp [hadmin]
  · rw [if_neg hadmin]
    by_cases hconso : inp.key = 49
    · rw [if_pos hconso, createConso_crash_iff]
      simp [hconso]
    · rw [if_neg hconso]
      by_cases hdebit : inp.key = 50
      · rw [if_pos hdebit, createDebit_crash_iff]
        simp [hdebit]
      · rw [if_neg hdebit]
        by_cases hsos : inp.key = 51
        · rw [if_pos hsos, createSOS_crash_iff]
          simp [hsos]
        · rw [if_neg hsos]
          constructor
          · intro h
            cases h
          · intro h
            rcases h.left.right with hkey | hkey | hkey | hkey
            · exact absurd hkey hadmin
            · exact absurd hkey.left hconso
            · exact absurd hkey hdebit
            · exact absurd hkey hsos

section Menus

def Quiet {α : Type} (p : LoopM Menu β α) : Prop :=
  Prog.Avoids .crash (fun _ => True) p

omit [FloatCell β] in
theorem quiet_emit (e : Event β) : Quiet (Loop.onWorld (emit e)) :=
  Prog.avoids_of_ok fun _ _ => ⟨(), _, rfl, trivial⟩

omit [FloatCell β] in
theorem quiet_setMenu (menu : Menu) :
    Quiet (setMenu menu : LoopM Menu β Unit) :=
  Prog.avoids_modify fun _ _ => trivial

omit [FloatCell β] in
theorem quiet_chooseMode (mode : ConfigMode) (message : String) :
    Quiet (chooseMode mode message : LoopM Menu β Unit) := by
  apply Prog.avoids_then
  · exact Prog.avoids_of_ok fun _ _ => ⟨(), _, rfl, trivial⟩
  · exact quiet_emit _

omit [FloatCell β] in
theorem quiet_modeMenu (inp : Input β) : Quiet (modeMenu inp) := by
  apply Prog.avoids_then (quiet_emit _)
  apply Prog.avoids_then (quiet_emit _)
  apply Prog.avoids_then (quiet_emit _)
  apply Prog.avoids_then (quiet_emit _)
  apply Prog.avoids_then (quiet_emit _)
  apply Prog.avoids_then
  · apply Prog.avoids_ite (quiet_chooseMode _ _)
    apply Prog.avoids_ite (quiet_chooseMode _ _)
    exact Prog.avoids_ite (quiet_chooseMode _ _) (Prog.avoids_pure ())
  · apply Prog.avoids_then (quiet_emit _)
    exact Prog.avoids_then (quiet_emit _) (quiet_setMenu _)

omit [FloatCell β] in
theorem quiet_mainMenu (inp : Input β) : Quiet (mainMenu inp) := by
  apply Prog.avoids_then (quiet_emit _)
  apply Prog.avoids_then (quiet_emit _)
  apply Prog.avoids_then (quiet_emit _)
  apply Prog.avoids_then (quiet_emit _)
  apply Prog.avoids_then (quiet_emit _)
  apply Prog.avoids_ite
  · exact Prog.avoids_then (quiet_setMenu _) (Prog.avoids_pure _)
  · apply Prog.avoids_ite
    · apply Prog.avoids_then (quiet_emit _)
      exact Prog.avoids_then (quiet_setMenu _) (Prog.avoids_pure _)
    · apply Prog.avoids_ite (Prog.avoids_pure _)
      apply Prog.avoids_ite (Prog.avoids_pure _)
      exact Prog.avoids_then (quiet_emit _) (Prog.avoids_pure _)

end Menus

theorem round_crash_iff (cfg : Config) (inp : Input β) (s : Loop Menu β) :
    (round cfg inp s).1 = .error .crash <->
      Asks cfg inp s.locals ∧ inp.found = none := by
  rcases s with ⟨menu, card, r, w⟩
  cases menu with
  | main =>
      have hmain := (quiet_mainMenu inp ⟨.main, card, r, w⟩ trivial).left
      have hround : round cfg inp ⟨.main, card, r, w⟩ =
          mainMenu inp ⟨.main, card, r, w⟩ := rfl
      rw [hround]
      exact iff_of_false hmain fun h => by cases h.left.left
  | create =>
      have hround : round cfg inp ⟨.create, card, r, w⟩ =
          (do
            createMenu cfg inp
            pure none : LoopM Menu β (Option Bool))
              ⟨.create, card, r, w⟩ := rfl
      rw [hround, Prog.then_pure_error, createMenu_crash_iff]
  | modes =>
      have hmodes := (quiet_modeMenu inp ⟨.modes, card, r, w⟩ trivial).left
      have hround : round cfg inp ⟨.modes, card, r, w⟩ =
          (do
            modeMenu inp
            pure none : LoopM Menu β (Option Bool))
              ⟨.modes, card, r, w⟩ := rfl
      rw [hround, Prog.then_pure_error]
      exact iff_of_false hmodes fun h => by cases h.left.left

end Admin

/-!
## Runs
-/

namespace Application

variable {β : Type} [FloatCell β]

def Crashes (cfg : Config) (inp : Input β) (app : Application β) : Prop :=
  match app.running with
  | .bar s => (Bar.round cfg inp.hash inp.sale s).1 = .error .crash
  | .kve s => (Kve.round cfg inp.sale s).1 = .error .crash
  | .caisse s => (Caisse.round cfg inp.sale s).1 = .error .crash
  | .admin s => (Admin.round cfg inp.menu s).1 = .error .crash
  | .ended _ => False

def AsksInVain (cfg : Config) (property : Bool) (d : Driver) (inp : Input β)
    (app : Application β) : Prop :=
  exists s, app.running = .admin s ∧ Admin.Asks cfg inp.menu s.locals ∧
    (Driver.findCard property inp.menu.found (cfg.getKeys true) true d).1 =
      .ok (none : Option (Card β))

theorem crashes_iff (cfg : Config) (property : Bool) (d : Driver)
    (inp : Input β) (app : Application β) :
    Crashes cfg inp app <-> AsksInVain cfg property d inp app := by
  rcases app with ⟨tmp, running⟩
  unfold Crashes AsksInVain
  cases running with
  | bar s => simp [Bar.round_ne_crash]
  | kve s => simp [Kve.round_ne_crash]
  | caisse s => simp [Caisse.round_ne_crash]
  | admin s => simp [Admin.round_crash_iff, Driver.findCard_none_iff]
  | ended w => simp

/-- A run works on no absent card exactly when Admin never waits for a card in
vain.  The `i`-th answer to the change of the property and what the driver was
like then are those of `reader`. -/
theorem never_crashes_iff (cfg : Config)
    (reader : Transition (Input β) (Application β) -> Bool × Driver)
    (inputs : List (Input β)) (app : Application β) :
    (forall r, r ∈ Run.transitions (step cfg) inputs app ->
      ¬ Crashes cfg r.input r.before) <->
    forall r, r ∈ Run.transitions (step cfg) inputs app ->
      ¬ AsksInVain cfg (reader r).1 (reader r).2 r.input r.before := by
  apply forall_congr'
  intro r
  apply forall_congr'
  intro _
  rw [crashes_iff cfg (reader r).1 (reader r).2]

def chosenAlone (key : Int) : Input Rat :=
  { chosen key 0 0 with menu := { (chosen key 0 0).menu with found := none } }

theorem admin_card_missing :
    let cfg : Config :=
      ⟨[("Biere", 2)], "", -1, Vec.replicate 6 0xff, Vec.replicate 6 0xff⟩
    let w : World Rat := World.start (fun _ _ _ => 0) .admin
    exists r, r ∈ Run.transitions (step cfg) [chosen 51 0 0, chosenAlone 48]
        (start 0 w) ∧ Crashes cfg r.input r.before := by
  intro cfg w
  rcases opened_menu cfg (chosenAlone 48) w rfl with
    ⟨r, hr, hinput, s, hs, hmenu⟩
  refine ⟨r, hr, ?_⟩
  have hcrash : (Admin.round cfg (chosenAlone 48).menu s).1 =
      .error .crash := by
    rw [Admin.round_crash_iff, hmenu]
    exact ⟨⟨rfl, Or.inl rfl⟩, rfl⟩
  rw [hinput, Crashes, hs]
  exact hcrash

end Application

end BeeGadz
