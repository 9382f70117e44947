import BeeGadz.Deeds.Visit

/-!
# What the modes do to a record

Kve and Caisse flush a card once in a round.  Bar flushes it for a ticket and
again for the credit, and so does Admin for a new DEBIT card and its ticket.
-/

namespace BeeGadz

open Foundation

/-!
## Operations on the record
-/

section Record

variable {β : Type}

def Card.ticketDeeds (c : Card β) (pass : Pass β) : List (Deed Nat) :=
  .edit 6 :: c.flushDeeds pass [6]

def Card.creditDeeds (c : Card β) (pass : Pass β) (marked : List Nat)
    (amount : Rat) : List (Deed Nat) :=
  if amount = 0 then [] else .edit 5 :: c.flushDeeds pass (5 :: marked)

def Card.debitDeeds (c : Card β) (pass : Pass β) : List (Deed Nat) :=
  [.edit 4, .edit 5, .edit 6] ++ c.flushDeeds pass [6, 5, 4]

theorem Card.SameFrame.ticketDeeds {c c' : Card β} (h : Card.SameFrame c c')
    (pass : Pass β) : c'.ticketDeeds pass = c.ticketDeeds pass := by
  rw [Card.ticketDeeds, Card.ticketDeeds, h.flushDeeds]

theorem Card.SameFrame.creditDeeds {c c' : Card β} (h : Card.SameFrame c c')
    (pass : Pass β) (marked : List Nat) (amount : Rat) :
    c'.creditDeeds pass marked amount = c.creditDeeds pass marked amount := by
  rw [Card.creditDeeds, Card.creditDeeds, h.flushDeeds]

theorem Card.SameFrame.debitDeeds {c c' : Card β} (h : Card.SameFrame c c')
    (pass : Pass β) : c'.debitDeeds pass = c.debitDeeds pass := by
  rw [Card.debitDeeds, Card.debitDeeds, h.flushDeeds]

end Record

namespace Session

variable {β : Type} [FloatCell β]

end Session

namespace Loop

variable {L β : Type} [Cell β]

end Loop

/-!
## Kve
-/

namespace Kve

variable {β : Type} [FloatCell β]

def recordDeeds (inp : Input β) (want : Bool) (c : Card β)
    (view : Memory β) : List (Deed Nat) :=
  if view.Says .debit then
    if want = true ∧ view.tickets ≠ 0 then c.ticketDeeds inp.ticketing
    else if view.credit ≥ inp.amount then
      c.creditDeeds inp.writing [] view.credit
    else []
  else []

def deeds (cfg : Config) (inp : Input β) (s : Loop Locals β) :
    List (Deed Nat) :=
  Loop.deedsAt (cfg.getKeys false) inp s
    (recordDeeds inp (wanted inp s.locals))

end Kve

/-!
## Caisse
-/

namespace Caisse

variable {β : Type} [FloatCell β]

def recordDeeds (inp : Input β) (c : Card β) (view : Memory β) :
    List (Deed Nat) :=
  if view.Says .debit then
    if inp.amount > 250 then []
    else c.creditDeeds inp.writing [] inp.amount
  else if view.Says .admin ∨ view.Says .sos ∨ view.Says .conso then []
  else c.debitDeeds inp.writing

def deeds (cfg : Config) (inp : Input β) (s : Loop Unit β) :
    List (Deed Nat) :=
  Loop.deedsAt (cfg.getKeys true) inp s (recordDeeds inp)

end Caisse

/-!
## Bar
-/

namespace Bar

variable {β : Type} [FloatCell β]

/-- The second stage of a settlement, with these blocks marked and this credit
seen. -/
def chargeDeeds (cfg : Config) (hash : HashOrder) (inp : Input β)
    (c : Card β) (marked : List Nat) (credit : Rat) (order : Order) :
    List (Deed Nat) :=
  match getPrice β cfg hash order with
  | .ok price =>
      if credit ≥ price then c.creditDeeds inp.writing marked credit else []
  | .error _ => []

/-- What is done with a card, of which this was seen.  Block 6 is still marked
when the credit is written after a ticket. -/
def recordDeeds (cfg : Config) (hash : HashOrder) (inp : Input β)
    (order : Order) (c : Card β) (view : Memory β) : List (Deed Nat) :=
  if view.Says .debit ∧ isEmpty order = false then
    if view.tickets ≠ 0 ∧ view.ticket.toNat ∈ order then
      match cfg.getConso view.ticket.toNat with
      | .ok _ =>
          c.ticketDeeds inp.ticketing ++
            chargeDeeds cfg hash inp c [6] view.credit
              (decrement order view.ticket.toNat)
      | .error _ => []
    else chargeDeeds cfg hash inp c [] view.credit order
  else []

def deeds (cfg : Config) (hash : HashOrder) (inp : Input β)
    (s : Loop Locals β) : List (Deed Nat) :=
  Loop.deedsAt (cfg.getKeys false) inp s
    (recordDeeds cfg hash inp (orderAt inp s))

end Bar

/-!
## Admin
-/

namespace Admin

variable {β : Type} [FloatCell β]

def addedDeeds (cfg : Config) (inp : Input β) (c : Card β) :
    List (Deed Nat) :=
  if inp.ticket = 49 then
    match Config.stoi cfg.ticket with
    | .ok _ => .edit 6 :: c.flushDeeds inp.ticketing [6, 5, 4]
    | .error _ => []
  else []

def recordDeeds (cfg : Config) (inp : Input β) (c : Card β) :
    List (Deed Nat) :=
  if inp.key = 48 then .edit 4 :: c.flushDeeds inp.writing [4]
  else if inp.key = 49 then
    if typed inp < 0 ∨ typed inp > cfg.getNbConso then []
    else [.edit 4, .edit 5] ++ c.flushDeeds inp.writing [5, 4]
  else if inp.key = 50 then
    c.debitDeeds inp.writing ++ addedDeeds cfg inp c
  else if inp.key = 51 then .edit 4 :: c.flushDeeds inp.writing [4]
  else []

def foundDeeds (cfg : Config) (inp : Input β)
    (deeds : Card β -> List (Deed Nat)) : List (Deed Nat) :=
  match foundCard cfg inp with
  | none => []
  | some c => deeds c

def deeds (cfg : Config) (inp : Input β) (s : Loop Menu β) :
    List (Deed Nat) :=
  if s.locals = .create then foundDeeds cfg inp (recordDeeds cfg inp) else []

end Admin

end BeeGadz
