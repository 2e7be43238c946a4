import Mathlib.Data.String.Basic
import RadiusModule.Services.CardReconcile.Rows

/-!
# The time reconcile of migrated cards

`planReconcile` reads and decides card by card, `applyReconcile` writes the
fixes of a plan and keeps an undo entry for each, `revert` replays the entries.
A written expiry goes to the card and to the subscriber of the same name.
-/

namespace RadiusModule.CardReconcile

open Library CardAccounting

inductive Action
  | fix
  | keep
  | skip
deriving DecidableEq, Repr

structure CardDecision where
  cardId : ℤ
  username : String
  batchId : ℤ
  action : Action
  reason : String
  mode : Mode
  budgetSeconds : ℤ
  oldExpireAt : Option String := none
  newExpireAt : Option String := none
  remainingOld : Option ℤ := none
  remainingNew : Option ℤ := none

structure ReconcilePlan where
  tenantId : ℤ
  now : String
  decisions : List CardDecision

def ReconcilePlan.toFix (p : ReconcilePlan) : List CardDecision :=
  p.decisions.filter fun d => d.action = .fix

structure Row where
  card : Card
  batch : Batch
  plan : Option Plan

def batchOf (t : Tables) (c : Card) : Option Batch :=
  t.batches.find? fun b => b.tenantId = c.tenantId ∧ b.id = c.batchId

def planOf (t : Tables) (c : Card) : Option Plan :=
  t.plans.find? fun p => p.tenantId = c.tenantId ∧ some p.id = c.planId

def candidate (t : Tables) (tenantId : ℤ) (batchId : Option ℤ) (username : Option String)
    (c : Card) : Option Row :=
  if c.tenantId = tenantId ∧ (∀ b ∈ batchId, c.batchId = b) ∧ (∀ u ∈ username, c.username = u) then
    match batchOf t c with
    | some b =>
      if b.sourceType = "imported" ∧ b.deletedAt = none then some ⟨c, b, planOf t c⟩ else none
    | none => none
  else none

def candidateRows (t : Tables) (tenantId : ℤ) (batchId : Option ℤ) (username : Option String) :
    List Row := t.cards.filterMap (candidate t tenantId batchId username)

def accountingMode (countFromFirstConnect : Bool) : Mode :=
  if countFromFirstConnect then .fromFirstConnect else .bySeconds

def Row.budget (r : Row) : ℤ :=
  CardAccounting.budgetSeconds r.batch.validityAfterFirstLoginDays r.batch.timeValue
    (if r.batch.timeUnit = "" then "days" else r.batch.timeUnit)
    ((r.plan.map Plan.durationMinutes).getD 0) ((r.plan.map Plan.validityDays).getD 0)

def cardResetSince (t : Tables) (tenantId : ℤ) (username : String) : String :=
  match t.cards.find? fun c => c.tenantId = tenantId ∧ c.username = username with
  | some c => toSpaceTs c.usageResetAt
  | none => ""

section Texts

variable (texts : DateTexts)

def firstConnection (t : Tables) (tenantId : ℤ) (username : String)
    (firstUsedAt : Option String) : Option DateTime :=
  let firstStart := ((startTexts t.sessions tenantId username
    (cardResetSince t tenantId username)).map acctNorm).min?
  match parseDt texts firstUsedAt, parseDt texts firstStart with
  | none, accounted => accounted
  | some stamped, none => some stamped
  | some stamped, some accounted => some (if accounted.1 < stamped.1 then accounted else stamped)

def planCard (t : Tables) (tenantId : ℤ) (now : DateTime) (r : Row) :
    Except DateError CardDecision :=
  let mode := accountingMode r.batch.countFromFirstConnect
  let oldExpireDt := parseDt texts r.card.expireAt
  let base : CardDecision :=
    { cardId := r.card.id, username := r.card.username, batchId := r.card.batchId
      action := .skip, reason := "", mode := mode, budgetSeconds := r.budget
      oldExpireAt := oldExpireDt.map texts.isoformat }
  if r.card.revoked then .ok { base with reason := "revoked" }
  else if mode ≠ .fromFirstConnect then .ok { base with reason := "not_from_first_connect" }
  else if r.budget ≤ 0 then .ok { base with reason := "no_budget" }
  else if isExhausted r.budget r.card.extraSeconds then
    .ok { base with reason := "exhausted_by_deduction" }
  else
    let budget := budgetWithExtra r.budget r.card.extraSeconds
    match firstConnection texts t tenantId r.card.username r.card.firstUsedAt with
    | none => .ok { base with budgetSeconds := budget, reason := "not_connected" }
    | some firstConn => do
      let target ← addSeconds firstConn budget
      let remainingOld := remainingFrom oldExpireDt now
      let remainingNew := max 0 (target.secondsSince now)
      let base := { base with
        budgetSeconds := budget
        remainingOld := remainingOld.map Int.floor
        remainingNew := some ⌊remainingNew⌋ }
      if withinLimit remainingNew remainingOld then
        pure { base with action := .keep, reason := "genuinely_fine" }
      else
        pure { base with
          action := .fix
          reason := match oldExpireDt with
            | some old => if old.1 < now.1 then "stale_past_expiry" else "too_short"
            | none => "missing_expiry"
          newExpireAt := some (texts.isoformat target) }

def planReconcile (t : Tables) (tenantId : ℤ) (now : DateTime) (batchId : Option ℤ)
    (username : Option String) : Except DateError ReconcilePlan := do
  let decisions ← (candidateRows t tenantId batchId username).mapM (planCard texts t tenantId now)
  pure { tenantId := tenantId, now := texts.isoformat now, decisions := decisions }

structure UndoEntry where
  cardId : ℤ
  username : String
  oldCardExpireAt : Option String
  oldSubscriberExpireAt : Option String
  hadSubscriber : Bool
  newExpireAt : String

structure Applied where
  tables : Tables
  undo : List UndoEntry

def setCardExpiry (t : Tables) (tenantId id : ℤ) (text : Option String) : Tables :=
  { t with cards := Keyed.modify Card.key (tenantId, id) (·.withExpiry text) t.cards }

def setSubscriberExpiry (t : Tables) (tenantId : ℤ) (username : String) (text : Option String) :
    Tables :=
  { t with
    subscribers := Keyed.modify Subscriber.name (tenantId, username)
      (·.withExpiry text) t.subscribers }

def applyFix (tenantId : ℤ) (now : DateTime) (s : Applied) (d : CardDecision) : Applied :=
  match d.newExpireAt with
  | none => s
  | some text =>
    if text = "" then s
    else match parseDt texts (some text) with
      | none => s
      | some newDt =>
        match Keyed.get? Card.key (tenantId, d.cardId) s.tables.cards with
        | none => s
        | some cur =>
          -- the rule is checked again on the stored value of the card, and of the card only
          if withinLimit (max 0 (newDt.secondsSince now))
              (remainingFrom (parseDt texts cur.expireAt) now) then s
          else
            let sub := Keyed.get? Subscriber.name (tenantId, d.username) s.tables.subscribers
            let entry : UndoEntry :=
              { cardId := d.cardId, username := d.username
                oldCardExpireAt := cur.expireAt
                oldSubscriberExpireAt := sub.bind Subscriber.expireAt
                hadSubscriber := sub.isSome
                newExpireAt := texts.isoformat newDt }
            { tables := setSubscriberExpiry
                (setCardExpiry s.tables tenantId d.cardId (some (texts.isoformat newDt)))
                tenantId d.username (some (texts.isoformat newDt))
              undo := s.undo ++ [entry] }

/-- `utcnow` is the clock that is read where the plan's time cannot be. -/
def applyReconcile (utcnow : DateTime) (t : Tables) (plan : ReconcilePlan) : Applied :=
  plan.toFix.foldl (applyFix texts plan.tenantId ((parseDt texts (some plan.now)).getD utcnow))
    ⟨t, []⟩

def revertEntry (tenantId : ℤ) (t : Tables) (e : UndoEntry) : Tables :=
  let t := setCardExpiry t tenantId e.cardId e.oldCardExpireAt
  if e.hadSubscriber then setSubscriberExpiry t tenantId e.username e.oldSubscriberExpireAt else t

def revert (tenantId : ℤ) (t : Tables) (undo : List UndoEntry) : Tables :=
  undo.foldl (revertEntry tenantId) t

end Texts

end RadiusModule.CardReconcile
