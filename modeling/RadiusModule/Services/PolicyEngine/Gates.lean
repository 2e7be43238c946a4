import RadiusModule.Library.Gates
import RadiusModule.Services.AllowMode
import RadiusModule.Services.AntiMacClone
import RadiusModule.Services.CardBatchFlags
import RadiusModule.Services.DeviceReplace
import RadiusModule.Services.PolicyEngine.ConnectionTime

/-!
# The gates of a login

Each gate is a function of the database, the request and the account, and of
what comes from outside: the clock, the digests, and the services that only
read tables that are not modelled (blocks, quotas, the provider's contract).
-/

namespace RadiusModule.PolicyEngine
open Library PyText AccessSchedule CardBatchFlags DeviceLimit MacAddress

structure AuthRequest where
  username : String
  password : String := ""
  chapPassword : String := ""
  chapChallenge : String := ""
  tenantId : ℤ := 1
  callingStationId : String := ""
  calledStationId : String := ""
  nasIp : String := ""
  nasPort : String := ""
  nasPortType : String := ""
  userAgent : String := ""
  simulate : Bool := false
deriving DecidableEq, Repr

/-- `window` is `live_sessions.window_minutes()`, `last` the last instant an expiry may have,
`captive` is `HOBERADIUS_EXPIRED_CAPTIVE_ENABLED`. -/
structure Env where
  now : ℤ
  today : Subscriber → Today
  window : ℤ := 15
  last : ℤ
  captive : Bool := false
  loads : String → Option Json
  verifyChap : String → String → String → Bool
  sha256 : String → String
  remainingText : ℤ → String
  checkBlocks : Subscriber → Option AccessPlan → AuthRequest → Source → Option AuthDecision
  checkQuota : RadacctTable → Subscriber → Option AccessPlan → Option AuthDecision
  activeOnlineCap : ℤ → Option ℤ
  countActiveSessions : RadacctTable → ℤ → Bool → ℤ

/-- Services that find nothing to object to. -/
def calmEnv (now : ℤ) : Env where
  now := now
  today _ := ⟨now, now, 0, .null⟩
  last := lastInstant
  loads _ := none
  verifyChap _ _ _ := false
  sha256 text := text
  remainingText _ := ""
  checkBlocks _ _ _ _ := none
  checkQuota _ _ _ := none
  activeOnlineCap _ := none
  countActiveSessions _ _ _ := 0

def batchDead (batch : CardBatch) : Bool :=
  batch.deletedAt.time?.isSome ||
    ["deleted", "revoked", "cancelled", "canceled"].contains (lower (strip batch.status))

def cardToSubscriber (db : Db) (card : Card) : Subscriber :=
  let batch := db.batch card.tenantId card.batchId
  let mode := strip card.deviceLimitMode
  let hasSpeedOverride := 0 < card.cardSpeedDownKbps && 0 < card.cardSpeedUpKbps
  let batchQuotaMb := (batch.map CardBatch.totalQuotaMb).getD 0
  let sessions := db.radacct.select (ofUser card.tenantId card.username)
  { tenantId := card.tenantId
    username := card.username
    userType := .card
    planId := card.planId
    cardBatchId := some card.batchId
    status :=
      if card.revoked || batch.any batchDead then "disabled" else "enabled"
    expireAt := card.expireAt
    password := card.password
    macLock := card.lockedMac
    deviceCount :=
      if 0 < card.deviceCount then card.deviceCount
      else ((batch.map CardBatch.deviceCount).getD 0)
    deviceLimitMode :=
      if mode ≠ "" then mode else strip ((batch.map CardBatch.deviceLimitMode).getD "")
    bandwidthControlEnabled := hasSpeedOverride
    downloadSpeedKbps := if hasSpeedOverride then card.cardSpeedDownKbps else 0
    uploadSpeedKbps := if hasSpeedOverride then card.cardSpeedUpKbps else 0
    combinedQuotaMb := batchQuotaMb
    quotaLimitEnabled := batchQuotaMb ≠ 0
    usedBytesIn := (sessions.map Radacct.acctInputOctets).sum
    usedBytesOut := (sessions.map Radacct.acctOutputOctets).sum }

/-- `captive` is `HOBERADIUS_EXPIRED_CAPTIVE_ENABLED`. -/
def checkExpiryCaptive (captive : Bool) (now : ℤ) (sub : Subscriber) : Option AuthDecision :=
  if sub.status ≠ "enabled" ∧ sub.status ≠ "expired" then some (reject "disabled")
  else if sub.status ≠ "expired" ∧ ¬(sub.expireAt.time?.any fun e => e < now) = true then none
  else if captive then some ⟨true, "expired_captive", message "expired"⟩
  else some (reject "expired")

def checkPassword (verifyChap : String → String → String → Bool) (sub : Subscriber)
    (req : AuthRequest) : Option AuthDecision :=
  if req.password ≠ "" then
    if sub.password ≠ req.password then some (reject "password_wrong") else none
  else if req.chapPassword ≠ "" then
    if sub.password = "" ∨ verifyChap sub.password req.chapPassword req.chapChallenge = false then
      some (reject "password_wrong")
    else none
  else some (reject "password_wrong")

def loginWithoutPassword (db : Db) (tenantId : ℤ) (username : String) : Bool :=
  match cardAndBatch db tenantId username with
  | some (_, batch) => batch.loginWithoutPassword
  | none => (db.subscriber tenantId username true).any Subscriber.loginWithoutPassword

def checkMac (sub : Subscriber) (req : AuthRequest) : Option AuthDecision :=
  let raw := replaceChar (replaceChar sub.macLock ';' ',') '\n' ','
  let locked := ((split raw ',').filter fun m => strip m ≠ "").map normalizeMac
  let incoming := replaceChar (upper req.callingStationId) '-' ':'
  if locked.isEmpty then none
  else if incoming = "" ∨ ¬locked.contains incoming = true then some (reject "mac_mismatch")
  else none

def checkRandomMac (db : Db) (req : AuthRequest) (source : Source) : Option AuthDecision :=
  let key := match source with
    | .card => "security.block_random_mac_cards"
    | .subscriber => "security.block_random_mac_subscribers"
  let enabled := ["1", "true", "t", "on", "True"].contains (db.setting req.tenantId key "0")
  if enabled && isRandomMac req.callingStationId then some (reject "random_mac_blocked") else none

def denial (reason text : String) : AuthDecision :=
  ⟨false, reason, if text ≠ "" then text else message reason⟩

section
variable (env : Env) (db : Db) (sub : Subscriber) (plan : Option AccessPlan) (req : AuthRequest)

def checkAllowMode : Option AuthDecision × Db :=
  let (verdict, after) := AllowMode.evaluate db req.tenantId sub.username sub.planId
    sub.cardBatchId req.callingStationId
  (verdict.bind fun v => if v.deny then some (denial v.reason.code v.message) else none, after)

def liveDevice : String × Fingerprint :=
  AntiMacClone.buildFingerprint env.sha256 db req.tenantId req.callingStationId
    req.calledStationId req.nasIp req.nasPort req.nasPortType req.userAgent

def cloneVerdict : Option AntiMacClone.Verdict :=
  let (mac, live) := liveDevice env db req
  AntiMacClone.evaluate env.sha256 db env.now req.tenantId sub.username sub.planId sub.group mac live

def cloneReason : AntiMacClone.Reason → String
  | .stepupRequired => "stepup_required"
  | _ => "mac_clone_detected"

def checkAntiMacClone : Option AuthDecision × Db :=
  match cloneVerdict env db sub req with
  | none => (none, db)
  | some v =>
    let (mac, live) := liveDevice env db req
    (if v.action = .deny then some (denial (cloneReason v.reason) v.message) else none,
      AntiMacClone.applyDecision db env.now req.tenantId sub.username mac live v)

def sessionsAtLimit : Option (List Radacct) :=
  let (limit, macAware) := effectiveLimit db sub plan
  if limit ≤ 0 then none
  else
    let active := activeOtherDevices db.radacct env.window env.now sub.tenantId sub.username
      req.callingStationId macAware
    if (active.length : ℤ) < limit then none else some active

def checkConcurrent : Option AuthDecision × Db :=
  match sessionsAtLimit env db sub plan req with
  | none => (none, db)
  | some active =>
    if effectiveMode db sub.tenantId sub = .replace then
      (none, { db with
        radacct := replaceOldest db.radacct env.now sub.tenantId sub.username active })
    else (some (reject "concurrent_limit"), db)

def userHasOpenSession (t : RadacctTable) (tenantId : ℤ) (username : String) : Bool :=
  username ≠ "" && t.rows.any fun r => ofUser tenantId username r && r.acctStopTime.isNull

def checkProviderActiveCap : Option AuthDecision :=
  match env.activeOnlineCap req.tenantId with
  | none => none
  | some cap =>
    if cap ≤ 0 ∨ userHasOpenSession db.radacct req.tenantId sub.username = true then none
    else if cap ≤ env.countActiveSessions db.radacct req.tenantId false ∧
        cap ≤ env.countActiveSessions db.radacct req.tenantId true then
      some (reject "provider_active_cap")
    else none

def claimDeviceSlot : Option AuthDecision × Db :=
  let (limit, macAware) := effectiveLimit db sub plan
  if limit ≤ 0 then (none, db)
  else
    let (granted, claims) := claimSlot db.claims db.radacct env.window env.now sub.tenantId
      sub.username ⟨req.callingStationId, req.simulate⟩ limit macAware
      (effectiveMode db sub.tenantId sub = .replace)
    (if granted then none else some (reject "concurrent_limit"), { db with claims := claims })

end

end RadiusModule.PolicyEngine
