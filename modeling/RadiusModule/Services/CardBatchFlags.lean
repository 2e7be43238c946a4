import RadiusModule.Core.Database
import RadiusModule.Services.CardAccounting
import RadiusModule.Services.DeviceLimit
import RadiusModule.Services.MacAddress

/-!
# Card batch flags

The time budget of a card that is charged by the second, what a first login
does to a card, and the renewal of a card that has ended. `last` is the last
instant an expiry may have.
-/

namespace RadiusModule.CardBatchFlags
open Library PyText CardAccounting DeviceLimit

variable (db : Db)

def cardAndBatch (tenantId : ℤ) (username : String) : Option (Card × CardBatch) :=
  (db.card tenantId username).bind fun card =>
    (db.batch tenantId card.batchId).map fun batch => (card, batch)

def cardBudgetSeconds (batch : CardBatch) (plan : Option AccessPlan) : ℤ :=
  let durationMinutes := (plan.map AccessPlan.durationMinutes).getD 0
  if 0 < durationMinutes then durationMinutes * 60
  else if 0 < batch.timeValue then
    batch.timeValue *
      match lower (if batch.timeUnit = "" then "days" else batch.timeUnit) with
      | "minutes" => 60
      | "hours" => 3600
      | _ => 86400
  else 0

def cardExtraSeconds (tenantId : ℤ) (username : String) : ℤ :=
  ((db.card tenantId username).map Card.extraSeconds).getD 0

/-- `card_reset_since`; no reset reads as an empty text. -/
def cardResetSince (tenantId : ℤ) (username : String) : Option ℤ :=
  (db.card tenantId username).bind fun c => c.usageResetAt.time?

/-- `acctstarttime >= since` for a text `since` that may be empty. -/
def startsSince (since : Option ℤ) (r : Radacct) : Bool :=
  match since with
  | some s => r.acctStartTime.notBefore s
  | none => !r.acctStartTime.isNull

def accountedSeconds (tenantId : ℤ) (username : String) : ℤ :=
  ((db.radacct.select fun r => ofUser tenantId username r &&
    startsSince (cardResetSince db tenantId username) r).map Radacct.acctSessionTime).sum

def checkCardTimeBudget (tenantId : ℤ) (username : String) (plan : Option AccessPlan) :
    Option String :=
  match cardAndBatch db tenantId username with
  | none => none
  | some (_, batch) =>
    let extra := cardExtraSeconds db tenantId username
    if extra < 0 && isExhausted (cardBudget batch plan) extra then some "card_time_exhausted"
    else if !batch.countBySeconds then none
    else
      let budget := cardBudgetSeconds batch plan
      if budget ≤ 0 then none
      else if budget + extra ≤ 0 then some "card_time_exhausted"
      else if budget + extra ≤ accountedSeconds db tenantId username then
        some "card_time_exhausted"
      else none

def normMac (mac : String) : String := MacAddress.normalizeMac mac

def ofCardId (tenantId : ℤ) (id : ℕ) (c : Card) : Bool := c.tenantId = tenantId && c.id = id

def ofCardName (tenantId : ℤ) (username : String) (c : Card) : Bool :=
  c.tenantId = tenantId && c.username = username

def ofSubscriber (tenantId : ℤ) (username : String) (s : Subscriber) : Bool :=
  s.tenantId = tenantId && s.username = username

def livePlan (tenantId : ℤ) (card : Card) : Option AccessPlan :=
  card.planId.bind fun id => db.plan tenantId id false

def firstLoginExpiry (last now tenantId : ℤ) (username : String) (card : Card)
    (batch : CardBatch) : Option ℤ :=
  if batch.countFromFirstConnect = false ∨ card.expireAt.time?.isSome then none
  else firstConnectExpiry last now (budgetWithExtra (cardBudget batch (livePlan db tenantId card))
    (cardExtraSeconds db tenantId username))

def materializeFirstLoginValidity (last now tenantId : ℤ) (username : String) (card : Card)
    (batch : CardBatch) : Db :=
  match firstLoginExpiry db last now tenantId username card batch with
  | none => db
  | some e =>
    (db.updateCards (ofCardId tenantId card.id) (Card.withExpiry · e)).updateSubscribers
      (ofSubscriber tenantId username) (Subscriber.withExpiry · e)

def onFirstConnect (last now tenantId : ℤ) (username callingStationId : String) : Db :=
  match cardAndBatch db tenantId username with
  | none => db
  | some (card, batch) =>
    let mac := normMac callingStationId
    let locked :=
      if batch.switchToMacOnConnect && card.lockedMac = "" && mac ≠ "" then
        db.updateCards (ofCardId tenantId card.id) fun c => { c with lockedMac := strip mac }
      else db
    materializeFirstLoginValidity locked last now tenantId username card batch

def renewDays (tenantId : ℤ) (card : Card) (batch : CardBatch) : ℤ :=
  if 0 < batch.validityAfterFirstLoginDays then batch.validityAfterFirstLoginDays
  else ((livePlan db tenantId card).map AccessPlan.validityDays).getD 0

def renewal (now : ℤ) (sub : Subscriber) (source : Source) : Option (Card × ℤ) :=
  if source = .card then
    (cardAndBatch db sub.tenantId sub.username).bind fun (card, batch) =>
      let days := renewDays db sub.tenantId card batch
      if batch.autoRenewAfterFirstUse && card.firstUsedAt.time?.isSome &&
          !(card.expireAt.time?.any fun e => now < e) && 0 < days then
        some (card, afterSeconds now (days * 86400))
      else none
  else none

def maybeAutoRenew (now : ℤ) (sub : Subscriber) (source : Source) : Db × Subscriber :=
  match renewal db now sub source with
  | none => (db, sub)
  | some (card, e) =>
    ((db.updateCards (ofCardId sub.tenantId card.id) fun c =>
        { c.withExpiry e with used := true }).updateSubscribers
        (ofSubscriber sub.tenantId sub.username) (Subscriber.withExpiry · e),
      { sub.withExpiry e with status := "enabled" })

section
variable {db : Db} {tenantId : ℤ} {username : String} {card : Card} {batch : CardBatch}

theorem cardAndBatch_eq (hcard : db.card tenantId username = some card)
    (hbatch : db.batch tenantId card.batchId = some batch) :
    cardAndBatch db tenantId username = some (card, batch) := by
  simp [cardAndBatch, hcard, hbatch]

theorem cardExtraSeconds_eq (hcard : db.card tenantId username = some card) :
    cardExtraSeconds db tenantId username = card.extraSeconds := by
  simp [cardExtraSeconds, hcard]

theorem firstLoginExpiry_updateCards (hcard : db.card tenantId username = some card)
    {p : Card → Bool} {f : Card → Card} (hkeys : ∀ c, (f c).tenantId = c.tenantId ∧
      (f c).username = c.username) (hextra : ∀ c, (f c).extraSeconds = c.extraSeconds)
    (last now : ℤ) : firstLoginExpiry (db.updateCards p f) last now tenantId username card batch =
      firstLoginExpiry db last now tenantId username card batch := by
  have hsame : (if p card then f card else card).extraSeconds = card.extraSeconds := by
    split_ifs
    · exact hextra card
    · rfl
  rw [firstLoginExpiry, firstLoginExpiry, cardExtraSeconds_eq (Db.card_updateCards_of hcard hkeys),
    cardExtraSeconds_eq hcard, hsame]
  rfl

theorem subscribers_onFirstConnect (last now : ℤ) (callingStationId : String)
    (hcard : db.card tenantId username = some card)
    (hbatch : db.batch tenantId card.batchId = some batch) :
    (onFirstConnect db last now tenantId username callingStationId).subscribers =
      ((firstLoginExpiry db last now tenantId username card batch).map fun e =>
        (db.updateSubscribers (ofSubscriber tenantId username)
          (Subscriber.withExpiry · e)).subscribers).getD db.subscribers := by
  simp only [onFirstConnect, cardAndBatch_eq hcard hbatch, materializeFirstLoginValidity]
  split_ifs
  · rw [firstLoginExpiry_updateCards hcard]
    · cases firstLoginExpiry db last now tenantId username card batch <;> rfl
    · exact fun _ => ⟨rfl, rfl⟩
    · exact fun _ => rfl
  · cases firstLoginExpiry db last now tenantId username card batch <;> rfl

theorem card_onFirstConnect (last now : ℤ) (callingStationId : String)
    (hcard : db.card tenantId username = some card)
    (hbatch : db.batch tenantId card.batchId = some batch) :
    ∃ c, (onFirstConnect db last now tenantId username callingStationId).card tenantId username =
        some c ∧ c.firstUsedAt = card.firstUsedAt ∧
      c.expireAt = ((firstLoginExpiry db last now tenantId username card batch).map
        Stamp.instant).getD card.expireAt := by
  simp only [onFirstConnect, cardAndBatch_eq hcard hbatch]
  set locked := (if batch.switchToMacOnConnect && card.lockedMac = "" && normMac callingStationId ≠ ""
    then db.updateCards (ofCardId tenantId card.id) fun c =>
      { c with lockedMac := strip (normMac callingStationId) } else db) with hlocked
  obtain ⟨c, hc, hid, htenant, hextra, hused, hexp⟩ : ∃ c, locked.card tenantId username = some c ∧
      c.id = card.id ∧ c.tenantId = tenantId ∧ c.extraSeconds = card.extraSeconds ∧
      c.firstUsedAt = card.firstUsedAt ∧ c.expireAt = card.expireAt := by
    have htenant := (Db.card_found hcard).1
    rw [hlocked]
    split_ifs
    · refine ⟨_, Db.card_updateCards_of hcard fun _ => ⟨rfl, rfl⟩, ?_⟩
      split_ifs <;> exact ⟨rfl, htenant, rfl, rfl, rfl⟩
    · exact ⟨card, hcard, rfl, htenant, rfl, rfl, rfl⟩
  have hplan : livePlan locked tenantId card = livePlan db tenantId card := by
    rw [hlocked]
    split_ifs <;> rfl
  have hsame : firstLoginExpiry locked last now tenantId username card batch =
      firstLoginExpiry db last now tenantId username card batch := by
    simp only [firstLoginExpiry, cardExtraSeconds_eq hc, cardExtraSeconds_eq hcard, hextra, hplan]
  simp only [materializeFirstLoginValidity, hsame]
  cases firstLoginExpiry db last now tenantId username card batch with
  | none => exact ⟨c, hc, hused, hexp⟩
  | some e =>
    refine ⟨_, Db.card_updateCards_of hc fun _ => ⟨rfl, rfl⟩, ?_⟩
    simp [ofCardId, hid, htenant, hused, Card.withExpiry]

end

end RadiusModule.CardBatchFlags
