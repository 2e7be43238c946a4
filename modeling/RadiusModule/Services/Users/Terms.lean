import RadiusModule.Services.Accounting.Pricing

/-!
# What an action on a subscriber charges

The pure part of the actions of `UsersService` that move the balance or the
end of a subscription: their checks, their amounts in cents and their dates in
microseconds.
-/

namespace RadiusModule.Users
open Library
open Accounting (Error roundMoney actionAmount basePlanMinutes normalizeCurrency toFloat)

structure PlanRow extends Accounting.Plan where
  enabled : Bool := true
  deleted : Bool := false

/-- The limits besides those of the accounting; an end is before `expiryLimit`. -/
structure Settings extends Accounting.Settings where
  plans : ℕ → Option PlanRow := fun _ => none
  maxBalanceAdd : ℚ := 100000
  expiryLimit : ℤ := 4133980800 * 1000000

def minute : ℤ := 60 * 1000000

def expiryMin : ℤ := 946684800 * 1000000

inductive ChargeMode
  | free
  | paid
  | debt
deriving DecidableEq

def ChargeMode.ofText (text : String) : Except Error ChargeMode :=
  if text = "free" then .ok .free
  else if text = "paid" then .ok .paid
  else if text = "debt" then .ok .debt
  else .error .validation

/-- `_charge_amount`, in cents; what is free charges nothing. -/
def chargeAmount (cfg : Settings) (mode : ChargeMode) (amount : ℚ) : Except Error ℤ :=
  match mode with
  | .free => .ok 0
  | .paid | .debt =>
    if roundMoney amount ≤ 0 then .error .validation
    else actionAmount "amount" cfg.maxPayment (roundMoney amount)

def requirePaidBalance (balance : ℚ) (cents : ℤ) (mode : ChargeMode) : Except Error Unit :=
  if mode = .paid ∧ balance + 1 / 1000000000 < cents / 100 then .error .validation else .ok ()

def addMinutesCapped (cfg : Settings) (base minutes : ℤ) : Except Error ℤ :=
  if cfg.expiryLimit ≤ base + minutes * minute then .error (.nonFinite "expire_at")
  else .ok (base + minutes * minute)

def anchor (expireAt : Option ℤ) (now : ℤ) : ℤ :=
  match expireAt with
  | some expireAt => max expireAt now
  | none => now

def validateExpiryJump (cfg : Settings) (now : ℤ) (current : Option ℤ) (new : ℤ) :
    Except Error Unit :=
  if new < expiryMin ∨ cfg.expiryLimit ≤ new then .error .validation
  else if cfg.maxExtendMinutes * minute < new - anchor current now then .error .validation
  else .ok ()

structure ExpiryTerms where
  newExpire : ℤ
  minutes : ℤ
  mode : ChargeMode
  cents : ℤ
  currency : String

/-- What an operator asks of `extend_time` and `set_expiry`. -/
structure Charge where
  mode : String := "free"
  amount : ℚ := 0
  currency : String := ""

/-- The checks of `extend_time`: an end that is there moves on from the later of it and now. -/
def extendTerms (cfg : Settings) (now : ℤ) (expireAt : Option ℤ) (balance : ℚ) (minutes : ℤ)
    (charge : Charge) : Except Error ExpiryTerms := do
  if minutes ≤ 0 then throw .validation
  if cfg.maxExtendMinutes < minutes then throw (.nonFinite "minutes")
  let currency ← normalizeCurrency cfg.toSettings charge.currency ""
  let mode ← ChargeMode.ofText charge.mode
  let cents ← chargeAmount cfg mode charge.amount
  if expireAt.isNone then throw .validation
  requirePaidBalance balance cents mode
  let newExpire ← addMinutesCapped cfg (anchor expireAt now) minutes
  pure { newExpire, minutes, mode, cents, currency }

/-- The checks of `set_expiry`; the minutes are for the records. -/
def setExpiryTerms (cfg : Settings) (now : ℤ) (expireAt : Option ℤ) (balance : ℚ) (new : ℤ)
    (charge : Charge) : Except Error ExpiryTerms := do
  if cfg.expiryLimit ≤ new then throw (.nonFinite "expire_at")
  let mode ← ChargeMode.ofText charge.mode
  let cents ← chargeAmount cfg mode charge.amount
  let currency ← normalizeCurrency cfg.toSettings charge.currency ""
  requirePaidBalance balance cents mode
  validateExpiryJump cfg now expireAt new
  let minutes := Binary64.roundHalfEven ((new - anchor expireAt now : ℤ) / minute)
  pure { newExpire := new, minutes, mode, cents, currency }

/-- The credit of `add_cash_balance` in cents: what the settled part leaves of the cash. -/
structure CashTerms where
  credit : ℤ
  currency : String

def cashTerms (cfg : Settings) (amount : ℚ) (currency : String) (settledDeduction : ℚ) :
    Except Error CashTerms := do
  let currency ← normalizeCurrency cfg.toSettings currency ""
  let cents := roundMoney amount
  if cents ≤ 0 then throw .validation
  let cents ← actionAmount "amount" cfg.maxBalanceAdd cents
  let credit := Binary64.roundHalfEven (max (cents - max settledDeduction 0 * 100) 0)
  pure { credit, currency }

inductive Policy
  | lowerCompensate
  | lowerKeepExpiry
  | higherDebt
  | higherReduceDays
  | higherKeepExpiry
  | neutralKeepExpiry
deriving DecidableEq

def Policy.ofText (text : String) : Except Error Policy :=
  if text = "lower_compensate" then .ok .lowerCompensate
  else if text = "lower_keep_expiry" then .ok .lowerKeepExpiry
  else if text = "higher_debt" then .ok .higherDebt
  else if text = "higher_reduce_days" then .ok .higherReduceDays
  else if text = "higher_keep_expiry" then .ok .higherKeepExpiry
  else if text = "neutral_keep_expiry" then .ok .neutralKeepExpiry
  else .error .validation

inductive PlanDirection
  | lower
  | higher
  | neutral
deriving DecidableEq

def Policy.direction : Policy → PlanDirection
  | .lowerCompensate | .lowerKeepExpiry => .lower
  | .higherDebt | .higherReduceDays | .higherKeepExpiry => .higher
  | .neutralKeepExpiry => .neutral

def planPeriodMinutes (plan : Option PlanRow) : ℤ :=
  if plan.isNone then 0
  else
    let minutes := basePlanMinutes (plan.map PlanRow.toPlan)
    if minutes = 0 then 43200 else minutes

def planRatePerMinute (plan : Option PlanRow) : ℚ :=
  let price := (plan.map fun plan => plan.price).getD 0
  if price ≤ 0 then 0 else price / planPeriodMinutes plan

def planChangeDirection (oldRate newRate : ℚ) : PlanDirection :=
  if oldRate ≤ 0 ∧ newRate ≤ 0 then .neutral
  else if oldRate ≤ 0 then .higher
  else if newRate ≤ 0 then .lower
  else if |newRate - oldRate| ≤ max oldRate newRate / 1000000000 then .neutral
  else if newRate < oldRate then .lower
  else .higher

def remainingMinutes (expireAt : Option ℤ) (now : ℤ) : ℤ :=
  match expireAt with
  | none => 0
  | some expireAt => max 0 ((expireAt - now) / minute)

structure PlanChangeTerms where
  newExpire : Option ℤ
  minuteDelta : ℤ
  debt : ℤ

def minuteDelta (policy : Policy) (remaining : ℤ) (oldRate newRate : ℚ) : Except Error ℤ :=
  let adjusted := Binary64.roundHalfEven (remaining * oldRate / newRate)
  match policy with
  | .lowerCompensate =>
    if newRate ≤ 0 then .error .validation else .ok (max remaining adjusted - remaining)
  | .higherReduceDays => .ok (max 0 (min remaining adjusted) - remaining)
  | _ => .ok 0

def planDebt (policy : Policy) (remaining : ℤ) (oldRate newRate : ℚ) : ℤ :=
  if policy = .higherDebt then
    Binary64.roundHalfEven (max ((newRate - oldRate) * remaining) 0 * 100)
  else 0

def shiftedExpire (cfg : Settings) (now : ℤ) (expireAt : Option ℤ) (delta : ℤ) :
    Except Error (Option ℤ) :=
  match expireAt with
  | none => .ok none
  | some expireAt =>
    if delta = 0 then .ok (some expireAt)
    else (addMinutesCapped cfg expireAt delta).map fun new => some (max new now)

/-- The amounts of `change_plan`; without time left only the plan changes. -/
def planChangeAmounts (cfg : Settings) (now : ℤ) (policy : Policy) (expireAt : Option ℤ)
    (oldRate newRate : ℚ) : Except Error PlanChangeTerms := do
  let remaining := remainingMinutes expireAt now
  if remaining ≤ 0 then return { newExpire := expireAt, minuteDelta := 0, debt := 0 }
  let delta ← minuteDelta policy remaining oldRate newRate
  let debt := planDebt policy remaining oldRate newRate
  if cfg.maxExtendMinutes < delta then throw (.nonFinite "policy")
  if cfg.maxPayment + 1 / 1000000000 < debt / 100 then throw (.nonFinite "policy")
  let newExpire ← shiftedExpire cfg now expireAt delta
  pure { newExpire, minuteDelta := delta, debt }

/-- The checks of `change_plan`. An archived plan of the subscriber still has its price. -/
def planChangeTerms (cfg : Settings) (now : ℤ) (planId : Option ℕ) (expireAt : Option ℤ)
    (newPlanId : ℕ) (policy : String) : Except Error PlanChangeTerms := do
  if newPlanId = 0 then throw .validation
  let policy ← Policy.ofText policy
  if planId = some newPlanId then throw .validation
  match (cfg.plans newPlanId).filter fun plan => !plan.deleted with
  | none => throw .notFound
  | some newPlan =>
    if !newPlan.enabled then throw .validation
    let oldRate := planRatePerMinute (planId.bind cfg.plans)
    let newRate := planRatePerMinute (some newPlan)
    if policy.direction ≠ planChangeDirection oldRate newRate then throw .validation
    planChangeAmounts cfg now policy expireAt oldRate newRate

/-- `is_renewal`: an account that had ended comes back, or a whole period is added. -/
def isRenewal (now : ℤ) (oldExpire : Option ℤ) (newExpire minutes : ℤ) (plan : Option PlanRow) :
    Bool :=
  let period := planPeriodMinutes plan
  now < newExpire && (oldExpire.all (· ≤ now) || (period ≠ 0 && period ≤ minutes))

end RadiusModule.Users
