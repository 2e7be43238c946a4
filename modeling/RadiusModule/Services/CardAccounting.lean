import RadiusModule.Core.Types
import RadiusModule.Library.PyText

/-!
# Card accounting

A card's time budget and what remains of it. `last` is the last instant an
expiry may have, one second before `limits.expiry_limit()`.
-/

namespace RadiusModule.CardAccounting
open Library PyText

def unitSeconds : String → ℤ
  | "seconds" => 1
  | "minutes" => 60
  | "hours" => 3600
  | "days" => 86400
  | "weeks" => 604800
  | "months" => 2592000
  | "years" => 31536000
  | _ => 86400

def unitToSeconds (value : ℤ) (unit : String) : ℤ :=
  if value ≤ 0 then 0
  else value * unitSeconds (lower (strip (if unit = "" then "days" else unit)))

def budgetSeconds (validityAfterFirstLoginDays timeValue : ℤ) (timeUnit : String)
    (durationMinutes validityDays : ℤ) : ℤ :=
  let window := unitToSeconds timeValue timeUnit
  if 0 < validityAfterFirstLoginDays then validityAfterFirstLoginDays * 86400
  else if 0 < window then window
  else if 0 < durationMinutes then durationMinutes * 60
  else if 0 < validityDays then validityDays * 86400
  else 0

def cardBudget (batch : CardBatch) (plan : Option AccessPlan) : ℤ :=
  budgetSeconds batch.validityAfterFirstLoginDays batch.timeValue
    (if batch.timeUnit = "" then "days" else batch.timeUnit)
    ((plan.map AccessPlan.durationMinutes).getD 0) ((plan.map AccessPlan.validityDays).getD 0)

def budgetWithExtra (budget extraSeconds : ℤ) : ℤ :=
  if budget ≤ 0 then 0 else max 0 (budget + extraSeconds)

def isExhausted (budget extraSeconds : ℤ) : Bool := 0 < budget && budget + extraSeconds ≤ 0

/-- Whole seconds, as `int(timedelta.total_seconds())`. -/
def wholeSeconds (micros : ℤ) : ℤ := micros.tdiv second

inductive Mode
  | fromFirstConnect
  | bySeconds
deriving DecidableEq, Repr

def remainingSeconds (mode : Mode) (budget now : ℤ) (firstConnectionAt : Option ℤ)
    (accountedSeconds : ℤ) (expireAt : Option ℤ) : Option ℤ :=
  let computed : Option ℤ :=
    if budget ≤ 0 then none
    else match mode, firstConnectionAt with
      | .fromFirstConnect, none => some budget
      | .fromFirstConnect, some first =>
        some (max 0 (wholeSeconds (afterSeconds first budget - now)))
      | .bySeconds, _ => some (max 0 (budget - accountedSeconds))
  match computed, expireAt with
  | none, some e => some (max 0 (wholeSeconds (e - now)))
  | computed, _ => computed

def clampExpiry (last start seconds : ℤ) : ℤ := min (afterSeconds start seconds) last

def firstConnectExpiry (last firstConnectionAt budget : ℤ) : Option ℤ :=
  if budget ≤ 0 then none else some (clampExpiry last firstConnectionAt budget)

theorem unitSeconds_pos (unit : String) : 0 < unitSeconds unit := by
  unfold unitSeconds
  split <;> decide

theorem unitToSeconds_pos {value : ℤ} (unit : String) (h : 0 < value) :
    0 < unitToSeconds value unit := by
  simp only [unitToSeconds, if_neg (not_le.mpr h)]
  exact mul_pos h (unitSeconds_pos _)

theorem cardBudget_of_batch {batch : CardBatch} (h : 0 < cardBudget batch none)
    (plan : Option AccessPlan) : cardBudget batch plan = cardBudget batch none := by
  simp only [cardBudget, budgetSeconds, Option.map_none, Option.getD_none] at h ⊢
  split_ifs at h ⊢ <;> first | rfl | omega

end RadiusModule.CardAccounting
