import BeeGadz.Ledger
import BeeGadz.RoundTrip

/-!
# The books of a shop

The cards of a shop as records, and the entries that change them: an amount is
added, a sale is paid, a ticket is taken, a card is issued.  The rows of an entry
are what the databases are told about it.
-/

namespace BeeGadz

open Foundation

abbrev Shop : Type :=
  Uid -> Record

/-- What is done with a card, with the rows that are sent for it. -/
inductive Entry where
  | topUp (uid : Uid) (row : Row)
  | sale (uid : Uid) (sold : List Row)
  | ticket (uid : Uid) (taken : List Row)
  | issue (uid : Uid) (writer : Writer)

def priceOf (sold : List Row) : Rat :=
  (sold.map Row.price).sum

namespace Entry

def uid : Entry -> Uid
  | .topUp uid _ => uid
  | .sale uid _ => uid
  | .ticket uid _ => uid
  | .issue uid _ => uid

def writer : Entry -> Writer
  | .topUp _ row => .serve [.increment row.price]
  | .sale _ sold => .serve [.decrement (priceOf sold)]
  | .ticket _ _ => .serve [.takeTicket]
  | .issue _ writer => writer

def rows : Entry -> List Row
  | .topUp _ row => [row]
  | .sale _ sold => sold
  | .ticket _ taken => taken
  | .issue _ _ => []

def posted (e : Entry) : List (Uid × Row) :=
  e.rows.map fun row => (e.uid, row)

def apply (e : Entry) (shop : Shop) : Shop :=
  Function.update shop e.uid (e.writer.onRecord (shop e.uid))

def kind : Entry -> Option RowKind
  | .topUp _ _ => some .topUp
  | .sale _ _ => some .sale
  | .ticket _ _ => some .ticket
  | .issue _ _ => none

/-- A DEBIT card is dealt with, the amount of a top-up is not more than 250, a
sale is covered by the credit, and a ticket is there and shown once at most. -/
def Fits : Entry -> Shop -> Prop
  | .topUp uid row, shop =>
      (shop uid).role = some .debit ∧ 0 ≤ row.price ∧ row.price ≤ 250
  | .sale uid sold, shop =>
      (shop uid).role = some .debit ∧ 0 ≤ priceOf sold ∧
        priceOf sold ≤ (shop uid).credit
  | .ticket uid taken, shop => (shop uid).tickets ≠ [] ∧ taken.length ≤ 1
  | .issue _ writer, _ => writer.WritesRole

/-- The entry fits the card, and its rows say what they are for. -/
def Allowed (e : Entry) (shop : Shop) : Prop :=
  e.Fits shop ∧ forall row, row ∈ e.rows -> some row.kind = e.kind

def wiped (e : Entry) (shop : Shop) (uid : Uid) : Rat :=
  match e with
  | .issue card _ => if card = uid then (shop uid).credit else 0
  | _ => 0

def takes (uid : Uid) : Entry -> Bool
  | .ticket card _ => card == uid
  | _ => false

def shown (uid : Uid) (sent : List (Uid × Row)) : Nat :=
  sent.countP fun x => x.1 = uid ∧ x.2.kind = .ticket

def given (uid : Uid) : Entry -> Nat
  | .issue card writer =>
      if card = uid then (writer.onRecord .blank).tickets.length else 0
  | _ => 0

def spilled (e : Entry) (shop : Shop) (uid : Uid) : Nat :=
  match e with
  | .issue card _ => if card = uid then (shop uid).tickets.length else 0
  | _ => 0

theorem apply_self (e : Entry) (shop : Shop) :
    e.apply shop e.uid = e.writer.onRecord (shop e.uid) :=
  Function.update_self _ _ _

theorem apply_other (e : Entry) (shop : Shop) {uid : Uid} (h : uid ≠ e.uid) :
    e.apply shop uid = shop uid :=
  Function.update_of_ne h _ _

end Entry

/-!
## Credits
-/

theorem pricesOf_map (kind : RowKind) (uid card : Uid) (sent : List Row)
    {own : Option RowKind}
    (h : forall row, row ∈ sent -> some row.kind = own) :
    pricesOf kind uid (sent.map fun row => (card, row)) =
      if card = uid ∧ own = some kind then priceOf sent else 0 := by
  induction sent with
  | nil => simp [priceOf]
  | cons row sent ih =>
      have hrow := h row List.mem_cons_self
      have hrest := ih fun row hrow => h row (List.mem_cons_of_mem _ hrow)
      have hcons : (row :: sent).map (fun row => (card, row)) =
          [(card, row)] ++ sent.map fun row => (card, row) := rfl
      rw [hcons, pricesOf_append, hrest, pricesOf_single, ← hrow]
      by_cases hall : card = uid ∧ row.kind = kind
      · simp [priceOf, hall]
      · simp [hall]

namespace Entry

theorem pricesOf_posted {e : Entry} {shop : Shop} (h : e.Allowed shop)
    (kind : RowKind) (uid : Uid) :
    pricesOf kind uid e.posted =
      if e.uid = uid ∧ e.kind = some kind then priceOf e.rows else 0 :=
  pricesOf_map kind uid e.uid e.rows h.right

theorem credit_of_writesRole {writer : Writer} (h : writer.WritesRole)
    (r : Record) : (writer.onRecord r).credit = 0 := by
  cases writer with
  | serve deals => exact absurd h id
  | _ => rfl

theorem credit_onRecord {e : Entry} {shop : Shop} (h : e.Fits shop) :
    (e.writer.onRecord (shop e.uid)).credit =
      (shop e.uid).credit + (if e.kind = some .topUp then priceOf e.rows else 0) -
        (if e.kind = some .sale then priceOf e.rows else 0) -
        e.wiped shop e.uid := by
  cases e with
  | topUp uid row =>
      cases hshop : shop uid with
      | debit credit tickets =>
          simp [writer, Writer.onRecord, Entry.uid, hshop, kind, rows, wiped,
            priceOf, applyAll, Deal.onRecord, Record.credit]
      | _ =>
          have hrole : (shop uid).role = some .debit := h.left
          rw [hshop] at hrole
          cases hrole
  | sale uid sold =>
      cases hshop : shop uid with
      | debit credit tickets =>
          simp [writer, Writer.onRecord, Entry.uid, hshop, kind, rows, wiped,
            applyAll, Deal.onRecord, Record.credit]
      | _ =>
          have hrole : (shop uid).role = some .debit := h.left
          rw [hshop] at hrole
          cases hrole
  | ticket uid taken =>
      cases hshop : shop uid <;>
        simp [writer, Writer.onRecord, Entry.uid, hshop, kind, wiped, applyAll,
          Deal.onRecord, Record.credit]
  | issue uid writer =>
      simp [Entry.writer, credit_of_writesRole h, kind, wiped, Entry.uid]

/-- An allowed entry changes the credit of every card by its rows, and by what an
issue destroys. -/
theorem credit_apply {e : Entry} {shop : Shop} (h : e.Allowed shop)
    (uid : Uid) :
    (e.apply shop uid).credit =
      (shop uid).credit + pricesOf .topUp uid e.posted -
        pricesOf .sale uid e.posted - e.wiped shop uid := by
  rw [pricesOf_posted h, pricesOf_posted h]
  by_cases huid : e.uid = uid
  · subst huid
    rw [apply_self, credit_onRecord h.left]
    simp
  · have hwiped : e.wiped shop uid = 0 := by
      cases e with
      | issue card writer => exact if_neg huid
      | _ => rfl
    rw [apply_other e shop (Ne.symm huid), hwiped]
    simp [huid]

theorem nonneg_apply {e : Entry} {shop : Shop} (h : e.Allowed shop)
    (hshop : forall uid, 0 ≤ (shop uid).credit) (uid : Uid) :
    0 ≤ (e.apply shop uid).credit := by
  by_cases huid : uid = e.uid
  · subst huid
    rw [apply_self, credit_onRecord h.left]
    have hcredit := hshop e.uid
    cases e with
    | topUp card row =>
        rcases h.left with ⟨_, hrow, _⟩
        simp only [kind, rows, priceOf, wiped, Entry.uid] at hcredit ⊢
        simp
        linarith
    | sale card sold =>
        rcases h.left with ⟨_, _, hcovers⟩
        simp only [kind, rows, wiped, Entry.uid] at hcredit ⊢
        simp
        linarith
    | ticket card taken => simpa [kind, wiped, Entry.uid] using hcredit
    | issue card writer => simp [kind, wiped, Entry.uid]
  · rw [apply_other e shop huid]
    exact hshop uid

/-!
## Tickets
-/

theorem tickets_apply {e : Entry} {shop : Shop} (h : e.Allowed shop)
    (uid : Uid) :
    (e.apply shop uid).tickets.length + (if e.takes uid = true then 1 else 0) +
        e.spilled shop uid =
      (shop uid).tickets.length + e.given uid := by
  by_cases huid : e.uid = uid
  · subst huid
    rw [apply_self]
    cases e with
    | topUp uid row =>
        cases hshop : shop uid <;>
          simp [writer, Writer.onRecord, Entry.uid, hshop, takes, spilled,
            given, applyAll, Deal.onRecord, Record.tickets]
    | sale uid sold =>
        cases hshop : shop uid <;>
          simp [writer, Writer.onRecord, Entry.uid, hshop, takes, spilled,
            given, applyAll, Deal.onRecord, Record.tickets]
    | ticket uid taken =>
        have hleft : (shop uid).tickets ≠ [] := h.left.left
        cases hshop : shop uid with
        | debit credit tickets =>
            rw [hshop] at hleft
            cases tickets with
            | nil => exact absurd rfl hleft
            | cons ticket tickets =>
                simp [writer, Writer.onRecord, Entry.uid, hshop, takes, spilled,
                  given, applyAll, Deal.onRecord, Record.tickets]
        | _ =>
            rw [hshop] at hleft
            exact absurd rfl hleft
    | issue uid writer =>
        have hsame := Writer.onRecord_same h.left (shop uid) .blank
        simp [Entry.writer, Entry.uid, hsame, takes, spilled, given, add_comm]
  · have htakes : e.takes uid = false := by
      cases e with
      | ticket card taken => simpa [takes, Entry.uid] using huid
      | _ => rfl
    have hspilled : e.spilled shop uid = 0 := by
      cases e with
      | issue card writer => exact if_neg huid
      | _ => rfl
    have hgiven : e.given uid = 0 := by
      cases e with
      | issue card writer => exact if_neg huid
      | _ => rfl
    rw [apply_other e shop (Ne.symm huid), htakes, hspilled, hgiven]
    rfl

theorem shown_posted {e : Entry} {shop : Shop} (h : e.Allowed shop)
    (uid : Uid) : shown uid e.posted ≤ if e.takes uid = true then 1 else 0 := by
  have hrest : e.takes uid = false -> shown uid e.posted = 0 := by
    intro htakes
    rw [shown, List.countP_eq_zero]
    intro x hx
    rcases List.mem_map.mp hx with ⟨row, hrow, rfl⟩
    have hkind := h.right row hrow
    cases e with
    | ticket card taken =>
        have hcard : ¬ card = uid := by
          simpa [takes] using htakes
        simp [Entry.uid, hcard]
    | issue card writer => cases hrow
    | _ => simp [Option.some.inj hkind]
  by_cases htakes : e.takes uid = true
  · rw [if_pos htakes]
    cases e with
    | ticket card taken =>
        have hlength : (Entry.posted (.ticket card taken)).length ≤ 1 := by
          rw [posted, List.length_map]
          exact h.left.right
        exact List.countP_le_length.trans hlength
    | _ => cases htakes
  · rw [if_neg htakes]
    exact (hrest (Bool.eq_false_iff.mpr htakes)).le

end Entry

/-!
## Sequences of entries
-/

namespace Books

def posted (entries : List Entry) : List (Uid × Row) :=
  entries.flatMap Entry.posted

def wiped (uid : Uid) : List Entry -> Shop -> Rat
  | [], _ => 0
  | e :: entries, shop => e.wiped shop uid + wiped uid entries (e.apply shop)

def spilled (uid : Uid) : List Entry -> Shop -> Nat
  | [], _ => 0
  | e :: entries, shop =>
      e.spilled shop uid + spilled uid entries (e.apply shop)

def given (uid : Uid) : List Entry -> Nat
  | [] => 0
  | e :: entries => e.given uid + given uid entries

def Allowed (entries : List Entry) (shop : Shop) : Prop :=
  Permitted Entry.Allowed Entry.apply entries shop

def apply (entries : List Entry) (shop : Shop) : Shop :=
  applyAll Entry.apply entries shop

@[simp] theorem posted_append (first second : List Entry) :
    posted (first ++ second) = posted first ++ posted second :=
  List.flatMap_append

/-- The credit of a card is what it was, with the top-ups and without the sales
that were posted and what was destroyed. -/
theorem credit_apply {entries : List Entry} {shop : Shop}
    (h : Allowed entries shop) (uid : Uid) :
    (apply entries shop uid).credit =
      (shop uid).credit + pricesOf .topUp uid (posted entries) -
        pricesOf .sale uid (posted entries) - wiped uid entries shop := by
  induction entries generalizing shop with
  | nil =>
      show (shop uid).credit = (shop uid).credit + 0 - 0 - 0
      rw [add_zero, sub_zero, sub_zero]
  | cons e entries ih =>
      have hone := Entry.credit_apply h.left uid
      have hrest := ih h.right
      have hposted : posted (e :: entries) = e.posted ++ posted entries := rfl
      have hafter : apply (e :: entries) shop =
          apply entries (e.apply shop) := rfl
      rw [hafter, hrest, hone, hposted, pricesOf_append, pricesOf_append, wiped]
      linarith

theorem nonneg_apply {entries : List Entry} {shop : Shop}
    (h : Allowed entries shop) (hshop : forall uid, 0 ≤ (shop uid).credit)
    (uid : Uid) : 0 ≤ (apply entries shop uid).credit :=
  applyAll_invariant (I := fun shop : Shop => forall uid, 0 ≤ (shop uid).credit)
    (fun _ _ _ hshop hallowed => Entry.nonneg_apply hallowed hshop) hshop h uid

/-- What issues destroy is never a debt. -/
theorem wiped_nonneg {entries : List Entry} {shop : Shop}
    (h : Allowed entries shop) (hshop : forall uid, 0 ≤ (shop uid).credit)
    (uid : Uid) : 0 ≤ wiped uid entries shop := by
  induction entries generalizing shop with
  | nil => exact le_refl 0
  | cons e entries ih =>
      have hone : 0 ≤ e.wiped shop uid := by
        cases e with
        | issue card writer =>
            show 0 ≤ if card = uid then (shop uid).credit else 0
            split
            · exact hshop uid
            · exact le_refl 0
        | _ => exact le_refl 0
      have hrest : 0 ≤ wiped uid entries (e.apply shop) :=
        ih h.right (Entry.nonneg_apply h.left hshop)
      exact add_nonneg hone hrest

theorem tickets_apply {entries : List Entry} {shop : Shop}
    (h : Allowed entries shop) (uid : Uid) :
    (apply entries shop uid).tickets.length +
        entries.countP (Entry.takes uid) + spilled uid entries shop =
      (shop uid).tickets.length + given uid entries := by
  induction entries generalizing shop with
  | nil => rfl
  | cons e entries ih =>
      have hone := Entry.tickets_apply h.left uid
      have hrest := ih h.right
      have hafter : apply (e :: entries) shop =
          apply entries (e.apply shop) := rfl
      have hgiven : given uid (e :: entries) = e.given uid + given uid entries :=
        rfl
      rw [hafter, List.countP_cons, spilled, hgiven]
      omega

theorem shown_posted {entries : List Entry} {shop : Shop}
    (h : Allowed entries shop) (uid : Uid) :
    Entry.shown uid (posted entries) ≤ entries.countP (Entry.takes uid) := by
  induction entries generalizing shop with
  | nil => exact Nat.le_refl 0
  | cons e entries ih =>
      have hone := Entry.shown_posted h.left uid
      have hrest := ih h.right
      have hposted : Entry.shown uid (posted (e :: entries)) =
          Entry.shown uid e.posted + Entry.shown uid (posted entries) :=
        List.countP_append
      rw [hposted, List.countP_cons]
      omega

end Books

end BeeGadz
