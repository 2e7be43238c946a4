import RadiusModule.Services.CardReconcile.TimeReconcile

/-!
# The accounting reconcile of cards

The second tool that derives a card's expiry again. It reads every card of the
tenant, trusts the stamp of the first use where there is one and looks at the
sessions only where there is none. `last` is the last instant an expiry may
have.
-/

namespace RadiusModule.CardReconcile

open Library CardAccounting

structure AccountingRow where
  card : Card
  batch : Option Batch
  plan : Option Plan

def accountingRows (t : Tables) (tenantId : ℤ) : List AccountingRow :=
  (t.cards.filter fun c => c.tenantId = tenantId).map fun c => ⟨c, batchOf t c, planOf t c⟩

structure CardUpdate where
  cardId : ℤ
  username : String
  oldExpire : Option String
  newExpire : String
  firstConnection : String
  budgetSeconds : ℤ
  remainingSeconds : ℤ

inductive Skip
  | noBatch
  | notFromFirstConnect
  | noBudget
  | notConnected
  | revoked
  | alreadyCorrect
deriving DecidableEq, Repr

inductive Outcome
  | skip (reason : Skip)
  | update (u : CardUpdate)

def Outcome.update? : Outcome → Option CardUpdate
  | update u => some u
  | skip _ => none

def Outcome.skip? : Outcome → Option Skip
  | skip reason => some reason
  | update _ => none

/-- `skipped` has the reason of every row that was skipped. -/
structure AccountingPlan where
  tenantId : ℤ
  generatedAt : String
  cardUpdates : List CardUpdate
  scannedCards : ℕ
  skipped : List Skip

def clampedExpiry (last start : DateTime) (seconds : ℤ) : DateTime :=
  match start.addSeconds? seconds with
  | some out => if last.1 < out.1 then last else out
  | none => last

def firstConnectExpiryAt (last first : DateTime) (budget : ℤ) : Option DateTime :=
  if budget ≤ 0 then none else some (clampedExpiry last first budget)

section Texts

variable (texts : DateTexts)

/-- `parse_dt` of the database helpers: a time with an offset becomes the UTC time. -/
def parseDtUtc : Option String → Except DateError (Option DateTime)
  | none => .ok none
  | some s =>
    if s = "" then .ok none
    else match texts.fromisoformat (dropChar s 'Z') with
      | none => .ok none
      | some m =>
        match m.offset with
        | none => .ok (some m.wall)
        | some offset =>
          match DateTime.ofMicros? (m.wall.1 - offset) with
          | some u => .ok (some u)
          | none => .error .overflow

def firstSessionAt (t : Tables) (c : Card) : Option String :=
  (startTexts t.sessions c.tenantId c.username (acctNorm (c.usageResetAt.getD ""))).min?

/-- `_first_connection` of the service: the stamp, else the first session. -/
def accountingFirst (t : Tables) (c : Card) : Except DateError (Option DateTime) := do
  match ← parseDtUtc texts c.firstUsedAt with
  | some stamped => pure (some stamped)
  | none => parseDtUtc texts (firstSessionAt t c)

def accountingCard (last : DateTime) (t : Tables) (now : DateTime) (r : AccountingRow) :
    Except DateError Outcome :=
  match r.batch with
  | none => .ok (.skip .noBatch)
  | some b =>
    let mode := accountingMode b.countFromFirstConnect
    if mode ≠ .fromFirstConnect then .ok (.skip .notFromFirstConnect)
    else
      let budget := Row.budget ⟨r.card, b, r.plan⟩
      if budget ≤ 0 then .ok (.skip .noBudget)
      else if isExhausted budget r.card.extraSeconds then .ok (.skip .alreadyCorrect)
      else
        let budget := budgetWithExtra budget r.card.extraSeconds
        if r.card.revoked then .ok (.skip .revoked)
        else do
          match ← accountingFirst texts t r.card with
          | none => pure (.skip .notConnected)
          | some firstConn =>
            match firstConnectExpiryAt last firstConn budget with
            | none => pure (.skip .noBudget)
            | some newExpire => do
              let curExpire ← parseDtUtc texts r.card.expireAt
              if ∃ cur ∈ curExpire, newExpire.1 ≤ cur.1 then pure (.skip .alreadyCorrect)
              else do
                -- the remaining time is counted to the end that is not clamped
                let finish ← addSeconds firstConn budget
                pure (.update
                  { cardId := r.card.id, username := r.card.username
                    oldExpire := r.card.expireAt
                    newExpire := texts.isoformat newExpire
                    firstConnection := texts.isoformat firstConn
                    budgetSeconds := budget
                    remainingSeconds := max 0 ⌊finish.secondsSince now⌋ })

def accountingPlan (last : DateTime) (t : Tables) (tenantId : ℤ) (now : DateTime) :
    Except DateError AccountingPlan := do
  let outcomes ← (accountingRows t tenantId).mapM (accountingCard texts last t now)
  pure
    { tenantId := tenantId, generatedAt := texts.isoformat now
      cardUpdates := outcomes.filterMap Outcome.update?
      scannedCards := (accountingRows t tenantId).length
      skipped := outcomes.filterMap Outcome.skip? }

end Texts

end RadiusModule.CardReconcile
