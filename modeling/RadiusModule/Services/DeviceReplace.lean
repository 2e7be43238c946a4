import RadiusModule.Core.Database
import RadiusModule.Services.CardAccounting
import RadiusModule.Services.DeviceLimit

/-!
# Limit and mode of a user

How many devices a user may have and what happens at the limit: the login is
rejected, or the oldest session is closed.
-/

namespace RadiusModule.DeviceLimit
open Library PyText CardAccounting

inductive LimitMode
  | reject
  | replace
deriving DecidableEq, Repr

def normMode (raw : String) : Option LimitMode :=
  match lower (strip raw) with
  | "reject" => some .reject
  | "replace" => some .replace
  | _ => none

def isCard (sub : Subscriber) : Bool := sub.userType = .card || sub.cardBatchId.isSome

variable (db : Db)

def globalMode (tenantId : ℤ) (card : Bool) : LimitMode :=
  let key := if card then "device_limit.cards.mode" else "device_limit.subscribers.mode"
  ((normMode (db.setting tenantId key "") <|>
    normMode (db.setting tenantId "billing.device_limit_mode" "")).getD .reject)

def globalCountDefault : ℤ := 1

def globalCount (tenantId : ℤ) (card : Bool) : ℤ :=
  let key := if card then "device_limit.cards.count" else "device_limit.subscribers.count"
  let raw := strip (db.setting tenantId key "1")
  if raw = "" then globalCountDefault
  else match int? raw with
    | some n => max 0 n
    | none => globalCountDefault

def effectiveMode (tenantId : ℤ) (sub : Subscriber) : LimitMode :=
  (normMode sub.deviceLimitMode).getD (globalMode db tenantId (isCard sub))

def effectiveLimit (sub : Subscriber) (plan : Option AccessPlan) : ℤ × Bool :=
  if 0 < sub.overrideConcurrent then (sub.overrideConcurrent, false)
  else if 0 < sub.deviceCount then (sub.deviceCount, true)
  else
    let typeCount := globalCount db sub.tenantId (isCard sub)
    if 0 < typeCount then (typeCount, true)
    else (max 0 ((plan.map AccessPlan.concurrentSessions).getD 0), false)

theorem effectiveMode_congr {db db' : Db} (h : db.settings = db'.settings) (tenantId : ℤ)
    (sub : Subscriber) : effectiveMode db tenantId sub = effectiveMode db' tenantId sub := by
  simp only [effectiveMode, globalMode, Db.setting, h]

theorem effectiveLimit_congr {db db' : Db} (h : db.settings = db'.settings) (sub : Subscriber)
    (plan : Option AccessPlan) : effectiveLimit db sub plan = effectiveLimit db' sub plan := by
  have hsetting : db.setting = db'.setting := by
    funext tenantId key default
    rw [Db.setting, Db.setting, h]
  have hcount : globalCount db = globalCount db' := by
    unfold globalCount
    rw [hsetting]
  simp only [effectiveLimit, hcount]

def closeSessionRow (now : ℤ) (cause : String) (r : Radacct) : Radacct :=
  { r with
    acctStopTime := .instant now
    acctSessionTime := match r.acctStartTime.time? with
      | some start => max r.acctSessionTime (max 0 (wholeSeconds (now - start)))
      | none => r.acctSessionTime
    acctTerminateCause := cause }

/-- The rows that `force_close` writes; without a session id these are all of the user. -/
def forceCloses (tenantId : ℤ) (username sessionId : String) (r : Radacct) : Bool :=
  ofUser tenantId username r && r.acctStopTime.isNull &&
    (sessionId = "" || r.acctSessionId = sessionId)

def forceClose (t : RadacctTable) (now tenantId : ℤ) (username sessionId cause : String) :
    RadacctTable :=
  t.update (forceCloses tenantId username sessionId) (closeSessionRow now cause) fun _ => rfl

def causeReplace : String := "Device-Limit-Replace"

def replaceOldest (t : RadacctTable) (now tenantId : ℤ) (username : String)
    (sessions : List Radacct) : RadacctTable :=
  match sessions with
  | [] => t
  | oldest :: _ =>
    forceClose t now tenantId username (strip oldest.acctSessionId) causeReplace

def openRows (t : RadacctTable) : List Radacct := t.select fun r => r.acctStopTime.isOpen

theorem forceClose_eq_self {t : RadacctTable} {tenantId : ℤ} {username sessionId : String}
    (h : ∀ r ∈ t.rows, forceCloses tenantId username sessionId r = false) (now : ℤ)
    (cause : String) : forceClose t now tenantId username sessionId cause = t :=
  Table.update_eq_self _ _ _ _ h

theorem openRows_forceClose (t : RadacctTable) (now tenantId : ℤ)
    (username sessionId cause : String) :
    openRows (forceClose t now tenantId username sessionId cause) = openRows t ↔
      ∀ r ∈ t.rows, forceCloses tenantId username sessionId r = false := by
  refine Table.select_update_eq_iff t _ _ _ _ (fun r hr => ?_) fun r => rfl
  simp only [forceCloses, Bool.and_eq_true] at hr
  cases hs : r.acctStopTime <;> simp_all [Stamp.isOpen, Stamp.isNull]

end RadiusModule.DeviceLimit
