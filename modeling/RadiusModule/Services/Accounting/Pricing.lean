import RadiusModule.Library.Binary64
import RadiusModule.Services.Accounting.Books

/-!
# What a payment buys and what a loan costs

The part of `create_payment` and `create_loan` before their first write. The
numbers of a request are exact, as they are written.
-/

namespace RadiusModule.Accounting
open Library PyText

structure Plan where
  id : ℕ
  price : ℚ
  durationMinutes : ℤ := 0
  validityDays : ℤ := 0
  durationValue : ℤ := 0
  durationUnit : String := ""

structure Settings where
  defaultCurrency : String := "ILS"
  plan : ℕ → Option Plan := fun _ => none
  managerPlanPrice : ℕ → ℕ → ℚ := fun _ _ => 0
  maxPayment : ℚ := 100000
  maxLoan : ℚ := 100000
  maxExtendMinutes : ℤ := 365 * 1440
  maxLoanMinutes : ℤ := 72 * 60
  maxDebtLoanMinutes : ℤ := 365 * 1440

def moneyMax : ℚ := 1000000000

def currencySymbols : List String :=
  ["JOD", "ILS", "USD", "IQD", "SAR", "EGP", "AED", "EUR", "TRY"]

/-- `value or default` with the system's currency as the last resort. -/
def normalizeCurrency (cfg : Settings) (value orElse : String) : Except Error String :=
  let code := upper (strip value)
  if code = "" then
    let fallback := if orElse = "" then cfg.defaultCurrency else orElse
    .ok (String.ofList ((upper (strip fallback)).toList.take 8))
  else if code ∈ currencySymbols then .ok code
  else .error .validation

def toFloat (field : String) (minimum value : ℚ) : Except Error ℚ :=
  if moneyMax < |value| ∨ value < minimum then .error (.nonFinite field) else .ok value

def toInt (field : String) (minimum value : ℤ) : Except Error ℤ :=
  if value < minimum then .error (.nonFinite field) else .ok value

/-- `round_money`, in cents: half a cent goes away from zero. -/
def roundMoney (value : ℚ) : ℤ :=
  if 0 ≤ value then ⌊value * 100 + 1 / 2⌋ else -⌊-value * 100 + 1 / 2⌋

theorem roundMoney_nonneg {value : ℚ} (h : 0 ≤ value) : 0 ≤ roundMoney value := by
  rw [roundMoney, if_pos h]
  exact Int.floor_nonneg.mpr (by positivity)

theorem roundMoney_cents (cents : ℤ) : roundMoney ((cents : ℚ) / 100) = cents := by
  have hfloor : ∀ c : ℤ, ⌊(c : ℚ) + 1 / 2⌋ = c := fun c => by
    rw [Int.floor_intCast_add]
    norm_num
  have hpos : (cents : ℚ) / 100 * 100 = cents := by ring
  have hneg : -((cents : ℚ) / 100) * 100 = ((-cents : ℤ) : ℚ) := by
    push_cast
    ring
  unfold roundMoney
  rw [hpos, hneg, hfloor, hfloor]
  split_ifs <;> ring

def actionAmount (field : String) (cap : ℚ) (cents : ℤ) : Except Error ℤ :=
  if cap + 1 / 1000000000 < cents / 100 then .error (.nonFinite field) else .ok cents

def exact (value : ℚ) : ℚ := Binary64.roundHalfEven (value * 1000000) / 1000000

inductive Rounding
  | floor
  | ceil
  | nearest

def calculateProportionalMinutes (amountPaid planPrice : ℚ) (baseMinutes : ℤ)
    (mode : Rounding) : Except Error ℤ :=
  if amountPaid ≤ 0 ∨ planPrice ≤ 0 ∨ baseMinutes ≤ 0 then .ok 0
  else if exact planPrice = 0 then .error .zeroDivision
  else
    let raw := baseMinutes * exact amountPaid / exact planPrice
    .ok (match mode with
      | .ceil => ⌈raw⌉
      | .nearest => ⌊raw + 1 / 2⌋
      | .floor => ⌊raw⌋)

def calculateProportionalAmount (minutes : ℤ) (planPrice : ℚ) (baseMinutes : ℤ) : ℤ :=
  if minutes ≤ 0 ∨ planPrice ≤ 0 ∨ baseMinutes ≤ 0 then 0
  else
    let units := roundMoney planPrice * minutes
    if baseMinutes ≤ 2 * (units % baseMinutes) then units / baseMinutes + 1
    else units / baseMinutes

theorem calculateProportionalAmount_nonneg (minutes : ℤ) (planPrice : ℚ) (baseMinutes : ℤ) :
    0 ≤ calculateProportionalAmount minutes planPrice baseMinutes := by
  unfold calculateProportionalAmount
  split_ifs with hnone
  · exact le_rfl
  · simp only [not_or, not_le] at hnone
    have hunits := mul_nonneg (roundMoney_nonneg hnone.2.1.le) hnone.1.le
    have hquotient := Int.ediv_nonneg hunits hnone.2.2.le
    dsimp only
    split_ifs
    · exact hquotient.trans (Int.le_add_one le_rfl)
    · exact hquotient

def coercePrice (value : ℚ) : ℚ := if 0 < value then value else 0

def basePlanMinutes : Option Plan → ℤ
  | none => 0
  | some plan =>
    if 0 < plan.durationMinutes then plan.durationMinutes
    else if 0 < plan.validityDays then plan.validityDays * 24 * 60
    else if plan.durationValue ≤ 0 then 0
    else if lower plan.durationUnit ∈ ["mins", "min", "minute", "minutes"] then plan.durationValue
    else if lower plan.durationUnit ∈ ["hrs", "hr", "hour", "hours"] then plan.durationValue * 60
    else if lower plan.durationUnit ∈ ["days", "day"] then plan.durationValue * 24 * 60
    else if lower plan.durationUnit ∈ ["months", "month"] then plan.durationValue * 30 * 24 * 60
    else 0

def effectiveSubscriberPrice (cfg : Settings) (account : Account) (plan : Option Plan) : ℚ :=
  let override := match account.managerId, (plan.map Plan.id).or account.planId with
    | some managerId, some planId => cfg.managerPlanPrice managerId planId
    | _, _ => 0
  if 0 < account.customPrice then account.customPrice
  else if 0 < override then override
  else (plan.map fun plan => coercePrice plan.price).getD 0

/-- `days_price`, over `price_basis`; a plan without a duration counts as a month. -/
def daysPrice (cfg : Settings) (account : Account) (minutes : ℤ) : ℤ :=
  let plan := account.planId.bind cfg.plan
  let base := if basePlanMinutes plan = 0 then 43200 else basePlanMinutes plan
  calculateProportionalAmount minutes (effectiveSubscriberPrice cfg account plan) base

structure PaymentBody where
  subscriberId : Option ℕ := none
  username : String := ""
  planId : Option ℕ := none
  amount : ℚ
  currency : String := ""
  customPrice : Option ℚ := none
  discountAmount : ℚ := 0
  roundingMode : Rounding := .floor
  loanSettledTotal : ℚ := 0
  balanceSettledTotal : ℚ := 0
  applyToRadius : Bool := false
  dryRun : Bool := false

def checkDiscount (discount planPrice : ℚ) : Except Error Unit :=
  if 0 < discount ∧ planPrice + 1 / 200 < discount then .error .validation else .ok ()

structure PaymentTerms where
  amount : ℤ
  currency : String
  earnedMinutes : ℤ

def paymentTerms (cfg : Settings) (account : Account) (body : PaymentBody) :
    Except Error PaymentTerms := do
  let plan := (body.planId.or account.planId).bind cfg.plan
  let amount := roundMoney (← toFloat "amount" 0 body.amount)
  if amount < 1 then throw (.nonFinite "amount")
  let amount ← actionAmount "amount" cfg.maxPayment amount
  let currency ← normalizeCurrency cfg body.currency ""
  let price ← match body.customPrice with
    | some price => toFloat "custom_price" (1 / 100) price
    | none => pure (effectiveSubscriberPrice cfg account plan)
  let discount ← toFloat "discount_amount" 0 body.discountAmount
  checkDiscount discount price
  let settled ← toFloat "loan_settled_total" 0 body.loanSettledTotal
  let balanceSettled ← toFloat "balance_settled_total" 0 body.balanceSettledTotal
  let earnedMinutes ← calculateProportionalMinutes
    (max (amount / 100 - settled - balanceSettled) 0) (max (price - discount) 0)
    (basePlanMinutes plan) body.roundingMode
  pure { amount, currency, earnedMinutes }

structure LoanBody where
  subscriberId : Option ℕ := none
  username : String := ""
  amount : ℚ := 0
  hours : Option ℤ := none
  days : Option ℤ := none
  durationMinutes : Option ℤ := none
  priceFromDays : Bool := false
  applyToRadius : Bool := false
  dryRun : Bool := false

def namedMinutes (body : LoanBody) : Except Error ℤ := do
  let hours ← toInt "hours" 0 (body.hours.getD 0)
  let days ← toInt "days" 0 (body.days.getD 0)
  let explicit ← toInt "duration_minutes" 0 (body.durationMinutes.getD 0)
  let named := hours * 60 + days * 24 * 60
  if explicit = 0 then pure named
  else if named ≠ 0 ∧ named ≠ explicit then throw .validation
  else pure explicit

def loanAmountAndMinutes (cfg : Settings) (account : Account) (body : LoanBody) :
    Except Error (ℤ × ℤ) :=
  match toFloat "amount" 0 body.amount, namedMinutes body with
  | .error e, _ => .error e
  | _, .error e => .error e
  | .ok value, .ok minutes =>
    let amount := if body.priceFromDays ∧ 0 < minutes then daysPrice cfg account minutes
      else roundMoney value
    (actionAmount "amount" cfg.maxLoan amount).map fun amount => (amount, minutes)

structure LoanTerms where
  amount : ℤ
  minutes : ℤ

/-- Named time wins; else the amount buys its time, within the cap of a debt. A free loan has the
stricter cap. -/
def loanTerms (cfg : Settings) (account : Account) (body : LoanBody) : Except Error LoanTerms :=
  match loanAmountAndMinutes cfg account body with
  | .error e => .error e
  | .ok (amount, named) =>
    let plan := account.planId.bind cfg.plan
    let derived := if named ≤ 0 ∧ 0 < amount then
        calculateProportionalMinutes (amount / 100) (effectiveSubscriberPrice cfg account plan)
          (basePlanMinutes plan) .floor
      else .ok 0
    match derived with
    | .error e => .error e
    | .ok derived =>
      if 0 < derived then .ok ⟨amount, min derived cfg.maxDebtLoanMinutes⟩
      else if named ≤ 0 then
        .error (if body.durationMinutes.isNone then .validation else .nonFinite "duration_minutes")
      else
        let isDebt := body.priceFromDays ∨ 0 < amount
        if (if isDebt then cfg.maxDebtLoanMinutes else cfg.maxLoanMinutes) < named then
          .error (if isDebt ∧ cfg.maxExtendMinutes < named then .nonFinite "duration_minutes"
            else .validation)
        else .ok ⟨amount, named⟩

end RadiusModule.Accounting
