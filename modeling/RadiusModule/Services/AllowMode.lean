import RadiusModule.Core.Database
import RadiusModule.Services.MacAddress

/-!
# Allow mode

A plan or a batch may admit any device (`open`), the first ones it sees
(`tofu`) or listed ones (`manual`). In the second mode the check binds the
device it admits. Counters of a bound device are not modelled.
-/

namespace RadiusModule.AllowMode
open Library MacAddress

inductive Reason
  | openMode
  | noMac
  | deviceAllowed
  | tofuBind
  | atCapacity
  | bindFailed
  | unknownDevice
deriving DecidableEq, Repr

def Reason.code : Reason → String
  | openMode => "open_mode"
  | noMac => "no_mac"
  | deviceAllowed => "device_allowed"
  | tofuBind => "tofu_bind"
  | atCapacity => "allow_mode_at_capacity"
  | bindFailed => "allow_mode_bind_failed"
  | unknownDevice => "allow_mode_unknown_device"

structure Verdict where
  deny : Bool := false
  reason : Reason
  message : String := ""
deriving DecidableEq, Repr

def msgUnknownDevice : String :=
  "هذا الجهاز غير مُسجَّل في قائمة الأجهزة المسموح بها — راجع الإدارة"

def msgAtCapacity : String :=
  "تم الوصول للحدّ الأقصى للأجهزة المربوطة بهذا الحساب — تواصل مع الإدارة"

variable (db : Db)

def getPolicy (tenantId : ℤ) (scope : AllowScope) (id : ℕ) : Option AllowPolicy :=
  db.allowPolicies.find? fun p =>
    p.tenantId = tenantId && p.scopeType = scope && p.scopeId = id && p.active

def resolvePolicy (tenantId : ℤ) (cardBatchId planId : Option ℕ) : Option AllowPolicy :=
  (cardBatchId.bind (getPolicy db tenantId .cardBatch)) <|>
    planId.bind (getPolicy db tenantId .plan)

def findDeviceMatch (policyId : ℕ) (username mac : String) : Option AllowDevice :=
  db.allowDevices.find? fun d =>
    d.policyId = policyId && d.mac = mac && (d.username = username || d.username = "")

def countDevices (policyId : ℕ) (username : String) : ℕ :=
  db.allowDevices.countP fun d =>
    d.policyId = policyId && (username = "" || d.username = username)

def judge (tenantId : ℤ) (username : String) (planId cardBatchId : Option ℕ) (mac : String) :
    Option (AllowPolicy × Verdict) :=
  (resolvePolicy db tenantId cardBatchId planId).map fun policy =>
    let mac := normalizeMac mac
    (policy,
      if policy.mode = .openMode then { reason := .openMode }
      else if mac = "" then { reason := .noMac }
      else if (findDeviceMatch db policy.id username mac).isSome then { reason := .deviceAllowed }
      else if policy.mode = .tofu then
        if 0 < policy.maxDevices ∧ policy.maxDevices ≤ countDevices db policy.id username then
          { deny := true, reason := .atCapacity, message := msgAtCapacity }
        else { reason := .tofuBind }
      else { deny := true, reason := .unknownDevice, message := msgUnknownDevice })

def addDevice (policyId : ℕ) (username mac : String) : Db :=
  { db with allowDevices := db.allowDevices ++ [⟨policyId, username, mac⟩] }

/-- `evaluate`: a device that is admitted for the first time is bound. -/
def evaluate (tenantId : ℤ) (username : String) (planId cardBatchId : Option ℕ) (mac : String) :
    Option Verdict × Db :=
  match judge db tenantId username planId cardBatchId mac with
  | none => (none, db)
  | some (policy, verdict) =>
    (some verdict,
      if verdict.reason = .tofuBind then addDevice db policy.id username (normalizeMac mac)
      else db)

def Binds (tenantId : ℤ) (username : String) (planId cardBatchId : Option ℕ) (mac : String) :
    Prop :=
  ∃ v ∈ judge db tenantId username planId cardBatchId mac, v.2.reason = .tofuBind

end RadiusModule.AllowMode
