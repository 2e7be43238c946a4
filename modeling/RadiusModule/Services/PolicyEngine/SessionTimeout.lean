import RadiusModule.Services.CardBatchFlags
import RadiusModule.Services.PolicyEngine.ConnectionTime

/-!
# Session-Timeout

The Access-Accept's Session-Timeout is put together from the plan's session
limit, the card's budget, the time to the expiry or the window of the first
login, what is left of the time caps, and the end of the schedule window. An
attribute written on the subscriber replaces it.
-/

namespace RadiusModule.PolicyEngine
open Library PyText AccessSchedule ScheduleWindow CardAccounting CardBatchFlags

def bySeconds (batch : CardBatch) : Bool := batch.countBySeconds && !batch.countFromFirstConnect

/-- The window of the first login as the batch has it; 0 stands for none. -/
def cardWindowSeconds (batch : CardBatch) : ℤ :=
  let days := if 0 < batch.validityAfterFirstLoginDays then
    batch.validityAfterFirstLoginDays * 86400 else 0
  if bySeconds batch || batch.timeValue ≤ 0 then days
  else match lower (strip batch.timeUnit) with
    | "minutes" => batch.timeValue * 60
    | "hours" => batch.timeValue * 3600
    | "days" => batch.timeValue * 86400
    | _ => days

/-- -1 stands for a window that the operator has used up. -/
def addCardExtra (base : ℤ) (batch : CardBatch) (extraSeconds : ℤ) : ℤ :=
  if base ≤ 0 || bySeconds batch then base
  else if 0 < base + extraSeconds then base + extraSeconds else -1

variable (loads : String → Option Json) (db : Db)

def cardBatchWindowSeconds (tenantId : ℤ) (batchId : Option ℕ) : ℤ :=
  match batchId.bind (db.batch tenantId) with
  | some batch => cardWindowSeconds batch
  | none => 0

def cardSessionWindowSeconds (tenantId : ℤ) (batchId : Option ℕ) (username : String) : ℤ :=
  let base := cardBatchWindowSeconds db tenantId batchId
  if base ≤ 0 || username = "" then base
  else match db.card tenantId username with
    | none => base
    | some card =>
      match db.batch tenantId card.batchId with
      | some batch => addCardExtra base batch card.extraSeconds
      | none => if 0 < base + card.extraSeconds then base + card.extraSeconds else -1

/-- `none`: no budget is known. 0: the expiry decides. -/
def cardBudgetSessionCap (sub : Subscriber) (plan : AccessPlan) : Option ℤ :=
  match cardAndBatch db sub.tenantId sub.username with
  | none => none
  | some (card, batch) =>
    if bySeconds batch then
      let base := if plan.durationMinutes ≠ 0 then plan.durationMinutes * 60
        else unitToSeconds batch.timeValue (if batch.timeUnit = "" then "days" else batch.timeUnit)
      if base ≤ 0 then none
      else some (max 1 (base + card.extraSeconds - accountedSessionSeconds db.radacct sub.tenantId
        sub.username (cardResetSince db sub.tenantId sub.username)))
    else if sub.expireAt.time?.isSome then some 0
    else
      let base := cardBudget batch (some plan)
      if base ≤ 0 then none
      else
        let total := budgetWithExtra base card.extraSeconds
        some (if 0 < total then total else 1)

def isTimeBudget (sub : Subscriber) : Bool := sub.userType = .card || sub.cardBatchId.isSome

def planTimeout (sub : Subscriber) (plan : AccessPlan) : ℤ :=
  if plan.sessionTimeoutSec ≠ 0 then plan.sessionTimeoutSec
  else if plan.durationMinutes ≠ 0 ∧ isTimeBudget sub = true then
    (cardBudgetSessionCap db sub plan).getD (plan.durationMinutes * 60)
  else 0

/-- `cut if not timeout else min(timeout, cut)` -/
def cutTo (timeout cut : ℤ) : ℤ := if timeout = 0 then cut else min timeout cut

def planSessionTimeout (now : ℤ) (sub : Subscriber) (plan : AccessPlan) : ℤ :=
  let timeout := planTimeout db sub plan
  match sub.expireAt.time? with
  | some e =>
    let remaining := wholeSeconds (e - now)
    if 0 < remaining then cutTo timeout remaining else timeout
  | none =>
    if isTimeBudget sub then
      let window := cardSessionWindowSeconds db sub.tenantId sub.cardBatchId sub.username
      let window := if window < 0 then 1 else window
      if 0 < window then cutTo timeout window else timeout
    else timeout

/-- `remaining if existing <= 0 else min(existing, remaining)` for a positive remainder. -/
def cutBy (existing remaining : Option ℤ) : Option ℤ :=
  match remaining with
  | none => existing
  | some r => if r ≤ 0 then existing else
    match existing with
    | none => some r
    | some e => some (if e ≤ 0 then r else min e r)

def scheduleRemaining (d : Today) (sub : Subscriber) (plan : Option AccessPlan) : Option ℤ :=
  match secondsUntilWindowEnd loads sub plan d.localNow with
  | .ok remaining => remaining
  | .error _ => none

def planned (d : Today) (sub : Subscriber) (plan : Option AccessPlan) : Option ℤ :=
  plan.bind fun p =>
    let timeout := planSessionTimeout db d.now sub p
    if 0 < timeout then some timeout else none

/-- The seconds that `_build_accept_attrs` puts into Session-Timeout. -/
def builtTimeout (d : Today) (sub : Subscriber) (plan : Option AccessPlan) : Option ℤ :=
  cutBy (cutBy (planned db d sub plan) (timeCapRemainingSeconds db.radacct d sub plan))
    (scheduleRemaining loads d sub plan)

def isNameChar (c : Char) : Bool := c.isAlphanum || c = '-'

def stripOf (c : Char) (cs : List Char) : List Char :=
  ((cs.dropWhile (· = c)).reverse.dropWhile (· = c)).reverse

/-- What follows the separator `:=`, `=` or `:`, which may not be empty. -/
def extraValue : List Char → Option (List Char)
  | ':' :: '=' :: [] => some ['=']
  | ':' :: '=' :: v => some (v.dropWhile isSpace)
  | '=' :: c :: v => some ((c :: v).dropWhile isSpace)
  | ':' :: c :: v => some ((c :: v).dropWhile isSpace)
  | _ => none

/-- One line `name = value`; quotes around the value are dropped. -/
def parseExtraLine (line : List Char) : Option (String × String) :=
  match stripChars line with
  | [] => none
  | c :: cs =>
    if c.isAlpha then
      (extraValue ((cs.dropWhile isNameChar).dropWhile isSpace)).bind fun v =>
        let value := stripChars (stripOf (Char.ofNat 39) (stripOf (Char.ofNat 34) (stripChars v)))
        if value = [] then none
        else some (String.ofList (c :: cs.takeWhile isNameChar), String.ofList value)
    else none

def parsePppExtra (text : String) : List (String × String) :=
  (splitChars '\n' (text.toList.map fun c => if c = ';' ∨ c = '\r' then '\n' else c)).filterMap
    parseExtraLine

def extraTimeout (sub : Subscriber) : Option String :=
  (((parsePppExtra sub.pppAttributesExtra).filter fun a => a.1 = "Session-Timeout").getLast?).map
    Prod.snd

inductive TimeoutValue
  | seconds (n : ℤ)
  | written (text : String)
deriving DecidableEq, Repr

def TimeoutValue.seconds? : TimeoutValue → Option ℤ
  | seconds n => some n
  | written text => int? text

def sessionTimeout (d : Today) (sub : Subscriber) (plan : Option AccessPlan) :
    Option TimeoutValue :=
  match extraTimeout sub with
  | some text => some (.written text)
  | none => (builtTimeout loads db d sub plan).map .seconds

theorem cutBy_pos {existing remaining : Option ℤ} (h : ∀ e ∈ existing, 0 < e) :
    ∀ n ∈ cutBy existing remaining, 0 < n := by
  intro n hn
  cases remaining with
  | none => exact h n hn
  | some r =>
    simp only [cutBy] at hn
    split_ifs at hn with hr
    · exact h n hn
    · cases existing with
      | none =>
        obtain rfl := Option.mem_some_iff.mp hn
        omega
      | some e =>
        have he := h e rfl
        obtain rfl := Option.mem_some_iff.mp hn
        split_ifs <;> omega

theorem planned_pos (d : Today) (sub : Subscriber) (plan : Option AccessPlan) :
    ∀ n ∈ planned db d sub plan, 0 < n := by
  intro n hn
  cases plan with
  | none => cases hn
  | some p =>
    simp only [planned, Option.bind_some] at hn
    split_ifs at hn with hpos
    · obtain rfl := Option.mem_some_iff.mp hn
      exact hpos
    · cases hn

end RadiusModule.PolicyEngine
