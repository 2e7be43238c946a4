import RadiusModule.Services.PolicyEngine.Gates
import RadiusModule.Services.PolicyEngine.LoginStamp

/-!
# Authorization

A card that is due is renewed before the gates; then the gates run in order,
and some of them write. A rejected login keeps its entitlements exactly when
no write takes effect before the gate that rejects. Logs, counters of failed
attempts and the attributes of the reply are not modelled.
-/

namespace RadiusModule.PolicyEngine
open Library PyText AccessSchedule CardAccounting CardBatchFlags DeviceLimit

/-- An exception in the schedule leaves `authorize` too. -/
abbrev Outcome := Except ScheduleError AuthDecision

section
variable (env : Env) (db : Db)

def findLogin (req : AuthRequest) : Option (AuthRequest × Subscriber × Source) :=
  let card (name : String) := (db.card req.tenantId name).map fun c =>
    ({ req with username := name }, cardToSubscriber db c, Source.card)
  match db.subscriber req.tenantId req.username false with
  | some sub =>
    if isCard sub then some ((card req.username).getD (req, sub, .subscriber))
    else some (req, sub, .subscriber)
  | none =>
    let lowered := lower (strip req.username)
    card req.username <|> if lowered ≠ "" ∧ lowered ≠ req.username then card lowered else none

def planOf (req : AuthRequest) (sub : Subscriber) : Option AccessPlan :=
  sub.planId.bind fun id => db.plan req.tenantId id true

def scheduleOutcome (sub : Subscriber) (plan : Option AccessPlan) : Option Outcome :=
  match checkSchedule env.loads sub plan (env.today sub).localNow with
  | .ok bad => bad.map .ok
  | .error e => some (.error e)

variable (req : AuthRequest) (sub : Subscriber) (plan : Option AccessPlan) (source : Source)

def readingGates : List (Db → Option Outcome) :=
  [fun _ => (env.checkBlocks sub plan req source).map .ok,
    fun db => if loginWithoutPassword db req.tenantId req.username then none
      else (checkPassword env.verifyChap sub req).map .ok,
    fun _ => (checkExpiryCaptive env.captive env.now sub).map .ok,
    fun _ => scheduleOutcome env sub plan,
    fun db => (env.checkQuota db.radacct sub plan).map .ok,
    fun db => (checkCardTimeBudget db sub.tenantId sub.username plan).map fun _ =>
      .ok (reject "card_time_exhausted"),
    fun db => (checkConnectionTime db.radacct (env.today sub) sub plan).map .ok,
    fun _ => (checkMac sub req).map .ok,
    fun db => (checkRandomMac db req source).map .ok]

def outcome (gate : Db → Option AuthDecision × Db) : Gate Db Outcome := fun db =>
  ((gate db).1.map .ok, (gate db).2)

def allowGate : Gate Db Outcome := outcome fun db => checkAllowMode db sub req

def cloneGate : Gate Db Outcome := outcome fun db => checkAntiMacClone env db sub req

def concurrentGate : Gate Db Outcome := outcome fun db => checkConcurrent env db sub plan req

def capGate : Gate Db Outcome := .read fun db => (checkProviderActiveCap env db sub req).map .ok

def slotGate : Gate Db Outcome := outcome fun db => claimDeviceSlot env db sub plan req

def writingGates : List (Gate Db Outcome) :=
  [allowGate req sub, cloneGate env req sub, concurrentGate env req sub plan,
    capGate env req sub, slotGate env req sub plan]

def gates : List (Gate Db Outcome) :=
  (readingGates env req sub plan source).map .read ++ writingGates env req sub plan

def welcome : AuthDecision :=
  ⟨true, "", match sub.expireAt.time? with
    | none => message "ok_welcome"
    | some e =>
      let left := wholeSeconds (e - env.now)
      if left < 0 ∨ 4 * 86400 ≤ left then message "ok_welcome"
      else if isCard sub then message "ok_card_time_left" ++ " " ++ env.remainingText left
      else message "ok_expires_soon" ++ " (" ++ env.remainingText left ++ ")"⟩

def authorize : Outcome × Db :=
  if req.username = "" then (.ok (reject "user_not_found"), db)
  else match findLogin db req with
    | none => (.ok (reject "user_not_found"), db)
    | some (req, sub, source) =>
      let plan := planOf db req sub
      let (renewed, sub) := maybeAutoRenew db env.now sub source
      match Gate.run (gates env req sub plan source) renewed with
      | (some decision, after) => (decision, after)
      | (none, after) => (.ok (welcome env sub),
          updateLoginTimestamps after env.last env.now req.tenantId req.username
            req.callingStationId source)

end

end RadiusModule.PolicyEngine
