import BeeGadz.Visit

/-!
# Caisse

A card without a role becomes a DEBIT card; a DEBIT card is topped up by an
amount that the operator types.
-/

namespace BeeGadz

open Foundation

def Card.toppedUp {β : Type} [FloatCell β] (c : Card β) (credit : Rat) :
    Card β :=
  c.edit 1 fun data => data.putCredit (credit + c.getCredit)

namespace Session

variable {β : Type} [FloatCell β]

def incrementCredit (pass : Pass β) (credit : Rat) : SessionM β Unit :=
  if credit = 0 then pure ()
  else do
    let c ← getCard
    let total := credit + c.getCredit
    modifyCard fun c => c.edit 1 fun data => data.putCredit total
    writeCard pass

theorem incrementCredit_run (pass : Pass β) (credit : Rat) {c : Card β}
    (hc : c.Classic) (w : World β) :
    if credit = 0 then
      incrementCredit pass credit ⟨c, w⟩ = (.ok (), ⟨c, w⟩)
    else
      exists (c' : Card β) (w' : World β),
        Card.SameFrame c c' ∧ Card.SameBlocks (c.toppedUp credit) c' ∧
          Card.Flushed (c.toppedUp credit) pass w.mem w'.mem 4 8 ∧
          w.Says w' ((c.toppedUp credit).writeSays pass) ∧
          incrementCredit pass credit ⟨c, w⟩ = (.ok (), ⟨c', w'⟩) := by
  by_cases hcredit : credit = 0
  · rw [if_pos hcredit, incrementCredit, if_pos hcredit, Prog.pure_apply]
  · rcases editCard_run
        (fun c₀ => c₀.edit 1 fun data =>
          data.putCredit (credit + c.getCredit))
        pass hc (Card.sameFrame_edit _ _ _) w with
      ⟨c', w', hframe, hblocks, hflushed, hsay, hrun⟩
    rw [if_neg hcredit]
    refine ⟨c', w', hframe, hblocks, hflushed, hsay, ?_⟩
    rw [incrementCredit, if_neg hcredit,
      Prog.bind_of_ok _ (getCard_apply c w)]
    exact hrun

end Session

namespace Caisse

variable {β : Type} [FloatCell β]

def phases (cfg : Config) : Loop.Phases Unit β where
  keys := cfg.getKeys true
  gone := Loop.setRead false
  scanned := pure ()
  reading :=
    Loop.onWorld
      (printInfo "Lecture de la carte en cours, ne pas retirer la carte.")
  lost := Loop.onWorld (printInfo "Posez une carte.")
  finished := Loop.onWorld (printInfo "Lecture terminée")

def words : List String :=
  ["Lecture de la carte en cours, ne pas retirer la carte.",
    "Posez une carte.", "Lecture terminée"]

omit [FloatCell β] in
theorem phases_sound (cfg : Config) :
    (phases cfg : Loop.Phases Unit β).Sound words where
  gone := fun _ _ => Loop.idle_modify rfl rfl
  scanned := Loop.idle_pure words
  reading := Loop.idle_printInfo (by decide)
  lost := Loop.idle_printInfo (by decide)
  finished := Loop.idle_printInfo (by decide)
  unread := fun _ => Or.inr ⟨rfl, fun _ => rfl⟩
  scannedLocals := fun _ => rfl
  readingLocals := fun _ => rfl
  finishedLocals := fun _ => rfl

def showTicket (cfg : Config) : LoopM Unit β Unit := do
  let c ← Loop.onCard Session.getCard
  if c.hasTicket then
    match cfg.getConso c.getTicket.toNat with
    | .ok conso => Loop.onWorld (printInfo ("Ticket sur la carte : " ++ conso.1))
    | .error _ => pure ()
  else pure ()

def answerSOS (cfg : Config) : LoopM Unit β Exit := do
  Loop.onCard (Session.sendSOS cfg)
  Loop.onWorld (printInfo "SOS envoyé")
  pure .next

def refuseConso : LoopM Unit β Exit := do
  Loop.onWorld (printInfo "Ceci est une carte CONSO")
  Loop.onWorld (printInfo "Posez une carte.")
  pure .next

def create (inp : Input β) : LoopM Unit β Exit := do
  Loop.onWorld (printInfo "Création de la carte en cours")
  Loop.onCard (Session.createDebit inp.writing)
  pure .next

def deposit (cfg : Config) (inp : Input β) : LoopM Unit β Exit := do
  Loop.onCard (Session.incrementCredit inp.writing inp.amount)
  Loop.onCard (Session.sendHistory cfg .topUp "DEBIT" inp.amount)
  let c ← Loop.onCard Session.getCard
  Loop.onWorld
    (printInfo ("Montant sur la carte : " ++ FloatCell.stream β c.getCredit))
  Loop.onWorld (printInfo "Posez une carte")
  pure .next

def refuseAmount : LoopM Unit β Exit := do
  Loop.onWorld (printInfo "Montant trop gros !")
  Loop.onWorld (printInfo "Posez une carte.")
  pure .next

def topUp (cfg : Config) (inp : Input β) : LoopM Unit β Exit := do
  let c ← Loop.onCard Session.getCard
  Loop.onWorld
    (printInfo ("Montant sur la carte : " ++ FloatCell.stream β c.getCredit))
  showTicket cfg
  Loop.onWorld (printInfo "Entrez le montant à ajouter sur la carte : ")
  if inp.amount > 250 then refuseAmount else deposit cfg inp

/-- What is done with a card that was read, by its role.  The last branch of the
source is not reached: a card is either a DEBIT card or not. -/
def dispatch (cfg : Config) (inp : Input β) : LoopM Unit β Exit := do
  let admin ← Loop.onCard Session.isAdmin
  if admin then pure .leave
  else do
    let c ← Loop.onCard Session.getCard
    if c.isSOS then answerSOS cfg
    else if c.isConso then refuseConso
    else if ¬ c.isDebit then create inp
    else topUp cfg inp

/-- One round of the loop of `Caisse::run`. -/
def round (cfg : Config) (inp : Input β) : LoopM Unit β Exit :=
  Loop.guarded (Loop.visit (phases cfg) inp (dispatch cfg inp))

/-- From a loop head of `Caisse::run` to the next one. -/
def step (cfg : Config) (inp : Input β) (s : Loop Unit β) :
    Option (Loop Unit β) :=
  Loop.next (round cfg inp s)

/-- What `Caisse::run` does before its loop. -/
def enter (w : World β) : Loop Unit β where
  locals := ()
  card := none
  read := false
  world :=
    ((do
      printInfo "Mode Caisse"
      printInfo "Posez une carte" : WorldM β Unit) w).2

end Caisse

end BeeGadz
