import BeeGadz.Foundation.Sharing
import BeeGadz.Shop

/-!
# Several boxes

Every box runs the application with its own configuration, display and log.
What the boxes share are the cards, which lie at one box at a time: the boxes
take turns at them, in any order.
-/

namespace BeeGadz

open Foundation

def Loop.withCards {L β : Type} (mem : Uid -> Memory β) (s : Loop L β) :
    Loop L β :=
  { s with world := { s.world with mem := mem } }

def Running.withCards {β : Type} (mem : Uid -> Memory β) :
    Running β -> Running β
  | .bar s => .bar (s.withCards mem)
  | .kve s => .kve (s.withCards mem)
  | .caisse s => .caisse (s.withCards mem)
  | .admin s => .admin (s.withCards mem)
  | .ended w => .ended { w with mem := mem }

def Application.withCards {β : Type} (mem : Uid -> Memory β)
    (app : Application β) : Application β :=
  { app with running := app.running.withCards mem }

theorem Application.withCards_world {β : Type} (mem : Uid -> Memory β)
    (app : Application β) :
    (app.withCards mem).world = { app.world with mem := mem } := by
  rcases app with ⟨tmp, running⟩
  cases running <;> rfl

abbrev Boxes (ι β : Type) : Type :=
  Shared ι (Uid -> Memory β) (Application β)

namespace Boxes

variable {ι β : Type} [DecidableEq ι] [FloatCell β]

def step (cfgs : ι -> Config) :
    ι × Application.Input β -> Boxes ι β -> Option (Boxes ι β) :=
  Shared.turn (fun app => app.world.mem) Application.withCards
    fun i => Application.step (cfgs i)

def booked (cfgs : ι -> Config) (turns : List (ι × Application.Input β))
    (boxes : Boxes ι β) : List (ι × Entry) :=
  Shared.entered (fun app => app.world.mem) Application.withCards
    (fun i => Application.step (cfgs i))
    (fun i inp app => Application.entriesOf (cfgs i) inp app) turns boxes

def sent (boxes : Boxes ι β) (i : ι) : List (Uid × Row) :=
  rows (boxes.parts i).world.log

def shop (boxes : Boxes ι β) : Shop :=
  shopOf boxes.common

/-- A box in the mode Caisse and one in the mode Kve, and cards with a credit of
10 and a ticket. -/
def caisseAndKve : Boxes Bool Rat where
  common := fun _ => Bar.tenAndTicket
  parts := fun kve =>
    Application.start 0
      (World.start (fun _ => Bar.tenAndTicket) (if kve then .kve else .caisse))

/-- At the second box a ticket is used, at the first 10 is added to the card, and
at the second 4 is paid with it. -/
def ticketTenFour : List (Bool × Application.Input Rat) :=
  [(true, Application.selling { tenAdded with key := 48 }),
    (false, Application.selling tenAdded),
    (true, Application.selling { tenAdded with amount := 4 })]

theorem ticketTenFour_accepted :
    forall turn, turn ∈ ticketTenFour -> turn.2.Accepted := by
  intro turn hturn
  rcases List.mem_cons.mp hturn with rfl | hturn
  · exact Application.selling_accepted ⟨rfl, rfl, rfl⟩ (by decide +kernel)
  rcases List.mem_cons.mp hturn with rfl | hturn
  · exact Application.selling_accepted ⟨rfl, rfl, rfl⟩ (by decide +kernel)
  · rw [List.mem_singleton.mp hturn]
    exact Application.selling_accepted ⟨rfl, rfl, rfl⟩ (by decide +kernel)

theorem ticketTenFour_run :
    (Run.head (step fun _ => Bar.oneConso) ticketTenFour caisseAndKve).isSome =
      true := by
  decide +kernel

section Runs

variable [ExactFloat β] {cfgs : ι -> Config}

theorem run_books (hcfgs : forall i, (cfgs i).PricesNonneg)
    {turns : List (ι × Application.Input β)}
    (hturns : forall turn, turn ∈ turns -> turn.2.Accepted)
    {boxes last : Boxes ι β}
    (h : Run.head (step cfgs) turns boxes = some last) :
    Enters ((booked cfgs turns boxes).map Prod.snd) boxes.common last.common ∧
      forall i, last.sent i =
        boxes.sent i ++
          Books.posted (Shared.own i (booked cfgs turns boxes)) := by
  apply Shared.related_turns Enters
    (fun app : Application β => rows app.world.log) Entry.posted enters_nil
    ?_ ?_ ?_ ?_ h
  · intro es es' s t u hfirst hsecond
    exact hfirst.trans hsecond
  · intro mem app
    rw [Application.withCards_world]
  · intro mem app
    rw [Application.withCards_world]
  · intro turn hturn app app' hstep
    have hbooks := Application.step_books (hcfgs turn.1) (hturns turn hturn)
      hstep
    exact ⟨hbooks.cards, hbooks.rows⟩

/-- However the boxes take turns: the records of the cards are those of the
entries of all boxes, made one after the other, and every box has sent the rows
of its own entries. -/
theorem books_of_turns (hcfgs : forall i, (cfgs i).PricesNonneg)
    {turns : List (ι × Application.Input β)}
    (hturns : forall turn, turn ∈ turns -> turn.2.Accepted)
    {boxes last : Boxes ι β}
    (h : Run.head (step cfgs) turns boxes = some last) :
    let entries := booked cfgs turns boxes
    Books.Allowed (entries.map Prod.snd) boxes.shop ∧
      last.shop = Books.apply (entries.map Prod.snd) boxes.shop ∧
      forall i, last.sent i =
        boxes.sent i ++ Books.posted (Shared.own i entries) := by
  intro entries
  rcases run_books hcfgs hturns h with ⟨hcards, hrows⟩
  exact ⟨hcards.allowed, hcards.shop, hrows⟩

theorem books_of_turns_of_two :
    exists last,
      Run.head (step fun _ => Bar.oneConso) ticketTenFour caisseAndKve =
          some last ∧
        forall i, last.sent i = caisseAndKve.sent i ++
          Books.posted (Shared.own i
            (booked (fun _ => Bar.oneConso) ticketTenFour caisseAndKve)) := by
  rcases Option.isSome_iff_exists.mp ticketTenFour_run with ⟨last, hlast⟩
  exact ⟨last, hlast, (books_of_turns (fun _ => Bar.oneConso_pricesNonneg)
    ticketTenFour_accepted hlast).right.right⟩

variable [Fintype ι]

omit [FloatCell β] [ExactFloat β] in
theorem pricesOf_own (kind : RowKind) (uid : Uid)
    (entries : List (ι × Entry)) :
    pricesOf kind uid (Books.posted (entries.map Prod.snd)) =
      ∑ i, pricesOf kind uid (Books.posted (Shared.own i entries)) :=
  Shared.sum_own (pricesOf_nil kind uid) (pricesOf_append kind uid) entries

omit [FloatCell β] [ExactFloat β] in
theorem shown_own (uid : Uid) (entries : List (ι × Entry)) :
    Entry.shown uid (Books.posted (entries.map Prod.snd)) =
      ∑ i, Entry.shown uid (Books.posted (Shared.own i entries)) :=
  Shared.sum_own rfl (fun _ _ => List.countP_append) entries

/-- No credit is spent twice: what all boxes sold to a card is never more than
what was on it and what all boxes added to it. -/
theorem credits_of_turns (hcfgs : forall i, (cfgs i).PricesNonneg)
    {turns : List (ι × Application.Input β)}
    (hturns : forall turn, turn ∈ turns -> turn.2.Accepted)
    {boxes last : Boxes ι β}
    (h : Run.head (step cfgs) turns boxes = some last) :
    exists new : ι -> List (Uid × Row),
      (forall i, last.sent i = boxes.sent i ++ new i) ∧
      (forall uid, (last.shop uid).credit =
        (boxes.shop uid).credit + ∑ i, pricesOf .topUp uid (new i) -
          ∑ i, pricesOf .sale uid (new i) -
          Books.wiped uid ((booked cfgs turns boxes).map Prod.snd)
            boxes.shop) ∧
      ((forall uid, 0 ≤ (boxes.shop uid).credit) -> forall uid,
        ∑ i, pricesOf .sale uid (new i) ≤
          (boxes.shop uid).credit + ∑ i, pricesOf .topUp uid (new i)) := by
  rcases run_books hcfgs hturns h with ⟨hcards, hrows⟩
  have hcredit : forall uid, (last.shop uid).credit =
      (boxes.shop uid).credit +
        ∑ i, pricesOf .topUp uid
          (Books.posted (Shared.own i (booked cfgs turns boxes))) -
        ∑ i, pricesOf .sale uid
          (Books.posted (Shared.own i (booked cfgs turns boxes))) -
        Books.wiped uid ((booked cfgs turns boxes).map Prod.snd)
          boxes.shop := by
    intro uid
    rw [← pricesOf_own, ← pricesOf_own, shop, hcards.shop]
    exact Books.credit_apply hcards.allowed uid
  refine ⟨_, hrows, hcredit, ?_⟩
  intro hstart uid
  have hlast : 0 ≤ (last.shop uid).credit := by
    rw [shop, hcards.shop]
    exact Books.nonneg_apply hcards.allowed hstart uid
  have hwiped := Books.wiped_nonneg hcards.allowed hstart uid
  rw [hcredit] at hlast
  unfold shop at *
  linarith

theorem credits_of_turns_of_two :
    exists last, exists new : Bool -> List (Uid × Row),
      Run.head (step fun _ => Bar.oneConso) ticketTenFour caisseAndKve =
          some last ∧
        (forall i, last.sent i = caisseAndKve.sent i ++ new i) ∧
        forall uid, ∑ i, pricesOf .sale uid (new i) ≤
          (caisseAndKve.shop uid).credit +
            ∑ i, pricesOf .topUp uid (new i) := by
  rcases Option.isSome_iff_exists.mp ticketTenFour_run with ⟨last, hlast⟩
  rcases credits_of_turns (fun _ => Bar.oneConso_pricesNonneg)
      ticketTenFour_accepted hlast with ⟨new, hsent, _, hspent⟩
  refine ⟨last, new, hlast, hsent, hspent ?_⟩
  intro uid
  show 0 ≤ (Memory.record Bar.tenAndTicket).credit
  decide +kernel

/-- No ticket is taken twice: the tickets that the databases of all boxes are
told of for a card, with those that are left on it, are never more than those
that were on it and those that all boxes put on it. -/
theorem tickets_of_turns (hcfgs : forall i, (cfgs i).PricesNonneg)
    {turns : List (ι × Application.Input β)}
    (hturns : forall turn, turn ∈ turns -> turn.2.Accepted)
    {boxes last : Boxes ι β}
    (h : Run.head (step cfgs) turns boxes = some last) :
    exists new : ι -> List (Uid × Row),
      (forall i, last.sent i = boxes.sent i ++ new i) ∧
      forall uid,
        (last.shop uid).tickets.length + ∑ i, Entry.shown uid (new i) ≤
          (boxes.shop uid).tickets.length +
            Books.given uid ((booked cfgs turns boxes).map Prod.snd) := by
  rcases run_books hcfgs hturns h with ⟨hcards, hrows⟩
  refine ⟨_, hrows, ?_⟩
  intro uid
  have htickets := Books.tickets_apply hcards.allowed uid
  have hshown := Books.shown_posted hcards.allowed uid
  rw [← hcards.shop] at htickets
  rw [shown_own] at hshown
  unfold shop
  omega

theorem tickets_of_turns_of_two :
    exists last, exists new : Bool -> List (Uid × Row),
      Run.head (step fun _ => Bar.oneConso) ticketTenFour caisseAndKve =
          some last ∧
        (caisseAndKve.shop fun _ => 1).tickets.length = 1 ∧
        forall uid,
          (last.shop uid).tickets.length + ∑ i, Entry.shown uid (new i) ≤
            (caisseAndKve.shop uid).tickets.length +
              Books.given uid ((booked (fun _ => Bar.oneConso) ticketTenFour
                caisseAndKve).map Prod.snd) := by
  rcases Option.isSome_iff_exists.mp ticketTenFour_run with ⟨last, hlast⟩
  rcases tickets_of_turns (fun _ => Bar.oneConso_pricesNonneg)
      ticketTenFour_accepted hlast with ⟨new, _, htickets⟩
  exact ⟨last, new, hlast, by decide +kernel, htickets⟩

end Runs

end Boxes

end BeeGadz
