import RadiusModule.Core.Radacct

/-!
# Plans, subscribers, batches and cards

The fields of the records that the services below read, with the defaults of
the source. Times are instants; an absent time is `none`.
-/

namespace RadiusModule

inductive UserType
  | subscriber
  | card
  | trial
deriving DecidableEq, Repr

inductive Source
  | subscriber
  | card
deriving DecidableEq, Repr

/-- `pppAttributesExtra` is the value of that key in `metadata`. -/
structure Subscriber where
  tenantId : ℤ := 1
  username : String
  userType : UserType := .subscriber
  planId : Option ℕ := none
  cardBatchId : Option ℕ := none
  status : String := "enabled"
  expireAt : Stamp := .null
  deletedAt : Stamp := .null
  totalConnectionTimeMin : ℤ := 0
  dailyConnectionTimeMin : ℤ := 0
  connectionTimeLimitEnabled : Bool := false
  workingDays : String := ""
  connectionSchedule : String := ""
  pppAttributesExtra : String := ""
  password : String := ""
  loginWithoutPassword : Bool := false
  group : String := ""
  subscriberGroupId : Option ℕ := none
  macLock : String := ""
  overrideConcurrent : ℤ := 0
  deviceCount : ℤ := 0
  deviceLimitMode : String := ""
  bandwidthControlEnabled : Bool := false
  downloadSpeedKbps : ℤ := 0
  uploadSpeedKbps : ℤ := 0
  equalShareDownload : Bool := false
  equalShareUpload : Bool := false
  queuePriority : ℤ := 0
  quotaLimitEnabled : Bool := false
  combinedQuotaMb : ℤ := 0
  downloadQuotaMb : ℤ := 0
  uploadQuotaMb : ℤ := 0
  usedBytesIn : ℕ := 0
  usedBytesOut : ℕ := 0
deriving DecidableEq, Repr

structure CardBatch where
  id : ℕ
  tenantId : ℤ := 1
  timeValue : ℤ := 0
  timeUnit : String := "days"
  validityAfterFirstLoginDays : ℤ := 0
  countBySeconds : Bool := false
  countFromFirstConnect : Bool := true
  status : String := "active"
  deletedAt : Stamp := .null
  loginWithoutPassword : Bool := false
  autoRenewAfterFirstUse : Bool := false
  switchToMacOnConnect : Bool := false
  deviceCount : ℤ := 0
  deviceLimitMode : String := ""
  totalQuotaMb : ℤ := 0
  onQuotaExhaust : String := ""
  deletedBy : String := ""
  deleteReason : String := ""
  archiveSource : String := ""
  archivePolicyId : Option ℕ := none
  retentionExpiresAt : Stamp := .null
  autoArchiveAt : Stamp := .null
deriving DecidableEq, Repr

structure Card where
  id : ℕ
  tenantId : ℤ := 1
  batchId : ℕ
  username : String
  planId : Option ℕ := none
  firstUsedAt : Stamp := .null
  expireAt : Stamp := .null
  revoked : Bool := false
  extraSeconds : ℤ := 0
  usageResetAt : Stamp := .null
  password : String := ""
  used : Bool := false
  lockedMac : String := ""
  deviceCount : ℤ := 0
  deviceLimitMode : String := ""
  deletedAt : Stamp := .null
  printOnly : Bool := false
  rechargeOnly : Bool := false
  cardSpeedDownKbps : ℤ := 0
  cardSpeedUpKbps : ℤ := 0
  deletedBy : String := ""
  deleteReason : String := ""
  frozenRemainingSeconds : ℤ := 0
deriving DecidableEq, Repr

structure Claim where
  tenantId : ℤ
  username : String
  deviceKey : String
  claimedAt : ℤ
deriving DecidableEq, Repr

def Claim.same (c d : Claim) : Bool :=
  c.tenantId = d.tenantId && c.username = d.username && c.deviceKey = d.deviceKey

inductive AllowMode
  | openMode
  | tofu
  | manual
deriving DecidableEq, Repr

inductive AllowScope
  | plan
  | cardBatch
deriving DecidableEq, Repr

structure AllowPolicy where
  id : ℕ
  tenantId : ℤ := 1
  scopeType : AllowScope
  scopeId : ℕ
  mode : AllowMode
  maxDevices : ℤ := 0
  active : Bool := true
deriving DecidableEq, Repr

/-- A row of `allow_mode_devices`; an empty name shares the device. -/
structure AllowDevice where
  policyId : ℕ
  username : String
  mac : String
deriving DecidableEq, Repr

structure Fingerprint where
  hostname : String := ""
  dhcpClassId : String := ""
  osFamily : String := ""
  deviceBrand : String := ""
  deviceModel : String := ""
  uaHash : String := ""
  uaSample : String := ""
  vendorOui : String := ""
  nasIp : String := ""
  calledStation : String := ""
  nasPort : String := ""
  nasPortType : String := ""
deriving DecidableEq, Repr

@[ext]
structure CloneBinding where
  tenantId : ℤ
  username : String
  mac : String
  fingerprint : Fingerprint
deriving DecidableEq, Repr

inductive CloneEventType
  | bind
  | verifyOk
  | cloneDetected
  | stepupRequired
deriving DecidableEq, Repr

/-- A row of `mac_clone_events`; the hash is the one in its signals. -/
structure CloneEvent where
  tenantId : ℤ
  username : String
  mac : String
  eventType : CloneEventType
  createdAt : ℤ
  liveHash : Option String := none
deriving DecidableEq, Repr

def Card.withExpiry (c : Card) (e : ℤ) : Card := { c with expireAt := .instant e }

def Subscriber.withExpiry (s : Subscriber) (e : ℤ) : Subscriber :=
  { s with expireAt := .instant e }

/-- `ok` with the reason and the text shown to the user. -/
structure AuthDecision where
  ok : Bool
  reason : String := ""
  message : String := ""
deriving DecidableEq, Repr

structure AccessPlan where
  id : ℕ
  tenantId : ℤ := 1
  deletedAt : Stamp := .null
  durationMinutes : ℤ := 0
  validityDays : ℤ := 0
  maxDailyMinutes : ℤ := 0
  sessionTimeoutSec : ℤ := 0
  quotaTotalMb : ℤ := 0
  quotaDailyMb : ℤ := 0
  quotaMonthlyMb : ℤ := 0
  monthlyDownloadQuotaMb : ℤ := 0
  monthlyUploadQuotaMb : ℤ := 0
  monthlyCombinedQuotaMb : ℤ := 0
  dailyDownloadQuotaMb : ℤ := 0
  dailyUploadQuotaMb : ℤ := 0
  dailyCombinedQuotaMb : ℤ := 0
  concurrentSessions : ℤ := 1
  allowedDays : List String := ["mon", "tue", "wed", "thu", "fri", "sat", "sun"]
  allowedHoursFrom : String := ""
  allowedHoursTo : String := ""
  offerHoursFrom : String := ""
  offerHoursTo : String := ""
  connectionSchedule : String := ""
  bandwidthId : Option ℕ := none
  speedDownKbps : ℤ := 0
  speedUpKbps : ℤ := 0
  burstRaw : String := ""
deriving DecidableEq, Repr

structure BandwidthProfile where
  id : ℕ
  tenantId : ℤ := 1
  rateDown : ℤ := 0
  rateDownUnit : String := "kbps"
  rateUp : ℤ := 0
  rateUpUnit : String := "kbps"
  burst : String := ""
deriving DecidableEq, Repr

end RadiusModule
