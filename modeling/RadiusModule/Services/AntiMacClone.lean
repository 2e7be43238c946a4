import RadiusModule.Core.Database
import RadiusModule.Services.MacAddress

/-!
# Anti MAC clone

A user's MAC is bound to the fingerprint of the device that brought it first.
A later login is compared with the binding, and live sessions of the same MAC
elsewhere count against it. `sha256` is the digest as a hexadecimal text. The
counters and times of a binding, alerts and disconnects are not modelled.
-/

namespace RadiusModule.AntiMacClone
open Library PyText MacAddress

inductive Confidence
  | low
  | medium
  | high
deriving DecidableEq, Repr

def Confidence.rank : Confidence → ℕ
  | low => 1
  | medium => 2
  | high => 3

inductive Action
  | allow
  | deny
  | monitor
deriving DecidableEq, Repr

inductive Reason
  | firstBind
  | verifyOk
  | macCloneDetected
  | stepupRequired
  | stepupConfirmed
deriving DecidableEq, Repr

/-- `liveHash` is the hash among the signals, once a clone has been judged. -/
structure Verdict where
  action : Action
  reason : Reason
  message : String := ""
  confidence : Confidence := .low
  score : ℕ := 0
  liveHash : Option String := none
deriving DecidableEq, Repr

def msgClone : String :=
  "تنبيه أمني: تم رصد محاولة دخول من جهاز مختلف بنفس عنوان MAC — الدخول مرفوض"

def msgStepup : String := "هذا الجهاز جديد — أعد كتابة كلمة المرور للتأكيد"

section
variable (db : Db) (tenantId : ℤ)

def setting (key default : String) : String := strip (db.setting tenantId key default)

def flag (key default : String) : Bool :=
  ["1", "true", "t", "on", "yes"].contains (lower (setting db tenantId key default))

def isEnabled : Bool := flag db tenantId "anti_mac_clone.enabled" "0"

def orDefault (text default : String) : String := if text = "" then default else text

def scopeApplies (planId : Option ℕ) (group : String) : Bool :=
  match orDefault (setting db tenantId "anti_mac_clone.scope" "all") "all" with
  | "plans" =>
    let allowed := (split (setting db tenantId "anti_mac_clone.scope_plan_ids" "") ',').filterMap
      fun p => natChars? p.toList
    planId.any allowed.contains
  | "groups" =>
    let allowed := ((split (setting db tenantId "anti_mac_clone.scope_group_names" "") ',').map
      strip).filter (· ≠ "")
    group ≠ "" && allowed.contains group
  | _ => true

def confidenceMin : Confidence :=
  match orDefault (setting db tenantId "anti_mac_clone.confidence_min" "medium") "medium" with
  | "low" => .low
  | "high" => .high
  | _ => .medium

def stepupWindowSec : ℤ :=
  max 15 (min 3600 ((int? (orDefault
    (setting db tenantId "anti_mac_clone.stepup_window_sec" "120") "120")).getD 120))

end

def hashUserAgent (sha256 : String → String) (ua : String) : String :=
  if strip ua = "" then "" else sha256 (strip ua)

def ouiOf (mac : String) : String :=
  if 8 ≤ mac.toList.length then String.ofList (mac.toList.take 8) else ""

def buildFingerprint (sha256 : String → String) (db : Db) (tenantId : ℤ)
    (callingStationId calledStationId nasIp nasPort nasPortType userAgent : String) :
    String × Fingerprint :=
  let mac := normalizeMac callingStationId
  let known := ((if mac = "" then none else db.deviceFingerprints tenantId mac).getD {})
  (mac,
    { known with
      vendorOui := ouiOf mac
      nasIp := strip nasIp
      calledStation := strip calledStationId
      nasPort := strip nasPort
      nasPortType := strip nasPortType
      uaHash := hashUserAgent sha256 userAgent
      uaSample := String.ofList ((strip userAgent).toList.take 40) })

inductive Signal
  | vendorOui
  | osFamily
  | deviceBrand
  | deviceModel
  | dhcpClassId
  | hostname
  | uaHash
  | nasIp
  | calledStation
  | nasPort
  | nasPortType
deriving DecidableEq, Repr

namespace Signal

def all : List Signal :=
  [vendorOui, osFamily, deviceBrand, deviceModel, dhcpClassId, hostname, uaHash, nasIp,
    calledStation, nasPort, nasPortType]

def weight : Signal → ℕ
  | vendorOui => 0
  | osFamily => 35
  | deviceBrand => 25
  | deviceModel => 15
  | dhcpClassId => 20
  | hostname => 10
  | uaHash => 25
  | nasIp => 10
  | calledStation => 10
  | nasPort => 3
  | nasPortType => 5

def val (fp : Fingerprint) : Signal → String
  | vendorOui => strip fp.vendorOui
  | osFamily => strip fp.osFamily
  | deviceBrand => strip fp.deviceBrand
  | deviceModel => strip fp.deviceModel
  | dhcpClassId => strip fp.dhcpClassId
  | hostname => strip fp.hostname
  | uaHash => strip fp.uaHash
  | nasIp => strip fp.nasIp
  | calledStation => strip fp.calledStation
  | nasPort => strip fp.nasPort
  | nasPortType => strip fp.nasPortType

end Signal

def diverged (binding live : Fingerprint) : List Signal :=
  Signal.all.filter fun s => s.val binding ≠ "" && s.val live ≠ "" && s.val binding ≠ s.val live

def compare (binding live : Fingerprint) : ℕ × Confidence :=
  let diverged := diverged binding live
  let score := min 100 (diverged.map Signal.weight).sum
  (score,
    if 60 ≤ score || diverged.contains .osFamily || diverged.contains .deviceBrand then .high
    else if 30 ≤ score || diverged.contains .dhcpClassId || diverged.contains .uaHash then .medium
    else .low)

def isClone (confidence threshold : Confidence) : Bool := threshold.rank ≤ confidence.rank

def liveFingerprintHash (sha256 : String → String) (fp : Fingerprint) : String :=
  sha256 (String.intercalate "|" [fp.osFamily, fp.deviceBrand, fp.deviceModel, fp.dhcpClassId,
    fp.hostname, fp.uaHash, fp.vendorOui])

def findConcurrentSessions (db : Db) (tenantId : ℤ) (mac : String) : List Radacct :=
  db.radacct.select fun r => r.tenantId = tenantId &&
    upper (replaceChar r.callingStationId '-' ':') = mac && r.acctStopTime.isNull

def isDivergentContext (r : Radacct) (live : Fingerprint) : Bool :=
  !(strip r.nasIpAddress = strip live.nasIp &&
    upper (strip r.calledStationId) = upper (strip live.calledStation))

def ofBinding (tenantId : ℤ) (username mac : String) (b : CloneBinding) : Bool :=
  b.tenantId = tenantId && b.username = username && b.mac = mac

def getBinding (bindings : List CloneBinding) (tenantId : ℤ) (username mac : String) :
    Option CloneBinding :=
  if username = "" ∨ mac = "" then none else bindings.find? (ofBinding tenantId username mac)

def hasRecentStepupPending (db : Db) (now tenantId : ℤ) (username mac liveHash : String)
    (windowSec : ℤ) : Bool :=
  let events := db.cloneEvents.filter fun e => e.tenantId = tenantId && e.username = username &&
    e.mac = mac && e.eventType = .stepupRequired && afterSeconds now (-windowSec) ≤ e.createdAt
  ((events.insertionSort fun a b => b.createdAt ≤ a.createdAt).take 5).any fun e =>
    e.liveHash = some liveHash

def evaluate (sha256 : String → String) (db : Db) (now tenantId : ℤ) (username : String)
    (planId : Option ℕ) (group mac : String) (live : Fingerprint) : Option Verdict :=
  if !isEnabled db tenantId || !scopeApplies db tenantId planId group || mac = "" then none
  else
    let mode := lower (orDefault (setting db tenantId "anti_mac_clone.mode" "enforce") "enforce")
    let liveHash := liveFingerprintHash sha256 live
    let concurrent := flag db tenantId "anti_mac_clone.concurrent_guard" "1" &&
      (findConcurrentSessions db tenantId mac).any (isDivergentContext · live)
    match getBinding db.cloneBindings tenantId username mac with
    | none =>
      if concurrent then
        if mode = "enforce" then some ⟨.deny, .macCloneDetected, msgClone, .high, 100, none⟩
        else some ⟨.monitor, .macCloneDetected, "", .high, 100, none⟩
      else some ⟨.allow, .firstBind, "", .high, 0, none⟩
    | some binding =>
      let (score, confidence) := compare binding.fingerprint live
      let confidence := if concurrent then .high else confidence
      let score := if concurrent then max score 80 else score
      if !isClone confidence (confidenceMin db tenantId) && !concurrent then
        some ⟨.allow, .verifyOk, "", confidence, score, none⟩
      else if concurrent && mode ≠ "monitor" then
        some ⟨.deny, .macCloneDetected, msgClone, confidence, score, some liveHash⟩
      else if mode = "stepup" then
        if hasRecentStepupPending db now tenantId username mac liveHash
            (stepupWindowSec db tenantId) then
          some ⟨.allow, .stepupConfirmed, "", confidence, score, some liveHash⟩
        else some ⟨.deny, .stepupRequired, msgStepup, confidence, score, some liveHash⟩
      else if mode = "enforce" then
        some ⟨.deny, .macCloneDetected, msgClone, confidence, score, some liveHash⟩
      else some ⟨.monitor, .macCloneDetected, "", confidence, score, some liveHash⟩

/-- `_keep`: an absent signal does not replace a known one. -/
def keep (new old : String) : String := if strip new ≠ "" then new else old

def Fingerprint.keep (new old : Fingerprint) : Fingerprint where
  hostname := AntiMacClone.keep new.hostname old.hostname
  dhcpClassId := AntiMacClone.keep new.dhcpClassId old.dhcpClassId
  osFamily := AntiMacClone.keep new.osFamily old.osFamily
  deviceBrand := AntiMacClone.keep new.deviceBrand old.deviceBrand
  deviceModel := AntiMacClone.keep new.deviceModel old.deviceModel
  uaHash := AntiMacClone.keep new.uaHash old.uaHash
  uaSample := AntiMacClone.keep new.uaSample old.uaSample
  vendorOui := AntiMacClone.keep new.vendorOui old.vendorOui
  nasIp := AntiMacClone.keep new.nasIp old.nasIp
  calledStation := AntiMacClone.keep new.calledStation old.calledStation
  nasPort := AntiMacClone.keep new.nasPort old.nasPort
  nasPortType := AntiMacClone.keep new.nasPortType old.nasPortType

def upsertBinding (bindings : List CloneBinding) (tenantId : ℤ) (username mac : String)
    (live : Fingerprint) : List CloneBinding :=
  if username = "" ∨ mac = "" then bindings
  else if bindings.any (ofBinding tenantId username mac) then
    bindings.map fun b => if ofBinding tenantId username mac b then
      { b with fingerprint := Fingerprint.keep live b.fingerprint } else b
  else bindings ++ [⟨tenantId, username, mac, live⟩]

def eventType : Reason → CloneEventType
  | .firstBind => .bind
  | .verifyOk => .verifyOk
  | .macCloneDetected => .cloneDetected
  | .stepupRequired => .stepupRequired
  | .stepupConfirmed => .verifyOk

def rebind (bindings : List CloneBinding) (tenantId : ℤ) (username mac : String)
    (live : Fingerprint) : Reason → List CloneBinding
  | .macCloneDetected => bindings
  | .stepupRequired => bindings
  | .stepupConfirmed =>
    upsertBinding (bindings.filter fun b => !ofBinding tenantId username mac b) tenantId username
      mac live
  | .firstBind => upsertBinding bindings tenantId username mac live
  | .verifyOk => upsertBinding bindings tenantId username mac live

def applyDecision (db : Db) (now tenantId : ℤ) (username mac : String) (live : Fingerprint)
    (verdict : Verdict) : Db :=
  { db with
    cloneEvents := db.cloneEvents ++
      [⟨tenantId, username, mac, eventType verdict.reason, now, verdict.liveHash⟩]
    cloneBindings := rebind db.cloneBindings tenantId username mac live verdict.reason }

section
variable (bindings : List CloneBinding) (tenantId : ℤ) (username mac : String) (live : Fingerprint)

def Learns : Prop :=
  username ≠ "" ∧ mac ≠ "" ∧ ∀ b ∈ getBinding bindings tenantId username mac,
    Fingerprint.keep live b.fingerprint ≠ b.fingerprint

def Rebinds : Reason → Prop
  | .macCloneDetected => False
  | .stepupRequired => False
  | .stepupConfirmed => username ≠ "" ∧ mac ≠ "" ∧
      getBinding bindings tenantId username mac ≠ some ⟨tenantId, username, mac, live⟩
  | .firstBind => Learns bindings tenantId username mac live
  | .verifyOk => Learns bindings tenantId username mac live

end

section
variable {bindings : List CloneBinding} {tenantId : ℤ} {username mac : String} {live : Fingerprint}

theorem ofBinding_iff {b : CloneBinding} : ofBinding tenantId username mac b = true ↔
    b.tenantId = tenantId ∧ b.username = username ∧ b.mac = mac := by
  simp [ofBinding, and_assoc]

def relearn (tenantId : ℤ) (username mac : String) (live : Fingerprint) (b : CloneBinding) :
    CloneBinding :=
  if ofBinding tenantId username mac b then
    { b with fingerprint := Fingerprint.keep live b.fingerprint } else b

theorem find?_relearn (t : ℤ) (u m : String) :
    (bindings.map (relearn tenantId username mac live)).find? (ofBinding t u m) =
      (bindings.find? (ofBinding t u m)).map (relearn tenantId username mac live) := by
  rw [List.find?_map]
  congr 2
  funext b
  simp only [Function.comp, relearn]
  split_ifs <;> rfl

theorem getBinding_upsertBinding (hu : username ≠ "") (hm : mac ≠ "") :
    getBinding (upsertBinding bindings tenantId username mac live) tenantId username mac =
      some (((getBinding bindings tenantId username mac).map fun b =>
        { b with fingerprint := Fingerprint.keep live b.fingerprint }).getD
          ⟨tenantId, username, mac, live⟩) := by
  simp only [getBinding, upsertBinding, hu, hm, or_self, if_false]
  cases hfind : bindings.find? (ofBinding tenantId username mac) with
  | some b =>
    have hb := List.find?_some hfind
    have hany : bindings.any (ofBinding tenantId username mac) = true :=
      List.any_eq_true.mpr ⟨b, List.mem_of_find?_eq_some hfind, hb⟩
    rw [if_pos hany]
    refine (find?_relearn tenantId username mac).trans ?_
    simp [hfind, relearn, hb]
  | none =>
    have hany : ¬bindings.any (ofBinding tenantId username mac) = true := by
      simpa using hfind
    have hnew : ofBinding tenantId username mac ⟨tenantId, username, mac, live⟩ = true :=
      ofBinding_iff.mpr ⟨rfl, rfl, rfl⟩
    rw [if_neg hany, List.find?_append, hfind]
    simp [hnew]

theorem getBinding_upsertBinding_of_ne {t : ℤ} {u m : String}
    (hne : ¬(t = tenantId ∧ u = username ∧ m = mac)) :
    getBinding (upsertBinding bindings tenantId username mac live) t u m =
      getBinding bindings t u m := by
  have hother : ∀ b, ofBinding t u m b = true → ofBinding tenantId username mac b = false := by
    intro b hb
    obtain ⟨rfl, rfl, rfl⟩ := ofBinding_iff.mp hb
    exact Bool.eq_false_iff.mpr fun h => hne (ofBinding_iff.mp h)
  simp only [getBinding, upsertBinding]
  split_ifs with hempty hsame hany
  · rfl
  · rfl
  · refine (find?_relearn t u m).trans ?_
    cases hfind : bindings.find? (ofBinding t u m) with
    | none => rfl
    | some b => simp [relearn, hother b (List.find?_some hfind)]
  · have hnew : ofBinding t u m ⟨tenantId, username, mac, live⟩ = false := by
      refine Bool.eq_false_iff.mpr fun h => hne ?_
      obtain ⟨ht, hu, hm⟩ := ofBinding_iff.mp h
      exact ⟨ht.symm, hu.symm, hm.symm⟩
    rw [List.find?_append]
    simp [hnew]

theorem getBinding_forget (t : ℤ) (u m : String) :
    getBinding (bindings.filter fun b => !ofBinding tenantId username mac b) t u m =
      if t = tenantId ∧ u = username ∧ m = mac then none else getBinding bindings t u m := by
  simp only [getBinding, List.find?_filter]
  by_cases hsame : t = tenantId ∧ u = username ∧ m = mac
  · obtain ⟨rfl, rfl, rfl⟩ := hsame
    simp
  · have hkept : (fun b => decide ((!ofBinding tenantId username mac b) = true ∧
        ofBinding t u m b = true)) = ofBinding t u m := by
      funext b
      cases hb : ofBinding t u m b with
      | false => simp
      | true =>
        obtain ⟨rfl, rfl, rfl⟩ := ofBinding_iff.mp hb
        have hother : ofBinding tenantId username mac b = false :=
          Bool.eq_false_iff.mpr fun h => hsame (ofBinding_iff.mp h)
        simp [hother]
    simp only [hkept, if_neg hsame]

theorem getBinding_congr_iff {bs cs : List CloneBinding}
    (h : ∀ t u m, ¬(t = tenantId ∧ u = username ∧ m = mac) →
      getBinding bs t u m = getBinding cs t u m) :
    getBinding bs = getBinding cs ↔
      getBinding bs tenantId username mac = getBinding cs tenantId username mac := by
  refine ⟨fun he => by rw [he], fun he => ?_⟩
  funext t u m
  by_cases hsame : t = tenantId ∧ u = username ∧ m = mac
  · obtain ⟨rfl, rfl, rfl⟩ := hsame
    exact he
  · exact h t u m hsame

theorem getBinding_learn_iff :
    getBinding (upsertBinding bindings tenantId username mac live) = getBinding bindings ↔
      ¬Learns bindings tenantId username mac live := by
  by_cases hempty : username = "" ∨ mac = ""
  · have hno : ¬Learns bindings tenantId username mac live := fun h =>
      hempty.elim h.1 h.2.1
    simp [upsertBinding, hempty, hno]
  · obtain ⟨hu, hm⟩ := not_or.mp hempty
    rw [getBinding_congr_iff fun t u m => getBinding_upsertBinding_of_ne,
      getBinding_upsertBinding hu hm]
    cases hb : getBinding bindings tenantId username mac with
    | none => simp [Learns, hb, hu, hm]
    | some b =>
      simp only [Learns, hb, hu, hm, ne_eq, not_false_eq_true, true_and, Option.mem_some_iff,
        forall_eq', not_not, Option.map_some, Option.getD_some, Option.some.injEq]
      exact ⟨congrArg CloneBinding.fingerprint, fun h => CloneBinding.ext rfl rfl rfl h⟩

theorem getBinding_rebind_iff (reason : Reason) :
    getBinding (rebind bindings tenantId username mac live reason) = getBinding bindings ↔
      ¬Rebinds bindings tenantId username mac live reason := by
  cases reason with
  | firstBind => exact getBinding_learn_iff
  | verifyOk => exact getBinding_learn_iff
  | macCloneDetected => simp [rebind, Rebinds]
  | stepupRequired => simp [rebind, Rebinds]
  | stepupConfirmed =>
    simp only [rebind, Rebinds]
    by_cases hempty : username = "" ∨ mac = ""
    · have hno : getBinding bindings tenantId username mac = none := by
        rw [getBinding, if_pos hempty]
      have hkept : getBinding (bindings.filter fun b => !ofBinding tenantId username mac b) =
          getBinding bindings := by
        funext t u m
        rw [getBinding_forget]
        split_ifs with hsame
        · obtain ⟨rfl, rfl, rfl⟩ := hsame
          exact hno.symm
        · rfl
      simp only [upsertBinding, if_pos hempty, hkept, true_iff]
      exact fun h => hempty.elim h.1 h.2.1
    · obtain ⟨hu, hm⟩ := not_or.mp hempty
      rw [getBinding_congr_iff fun t u m hne => by
          rw [getBinding_upsertBinding_of_ne hne, getBinding_forget, if_neg hne],
        getBinding_upsertBinding hu hm, getBinding_forget, if_pos ⟨rfl, rfl, rfl⟩]
      simp [hu, hm, eq_comm]

end

end RadiusModule.AntiMacClone
