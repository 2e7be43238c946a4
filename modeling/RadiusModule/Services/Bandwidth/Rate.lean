import RadiusModule.Library.Binary64
import RadiusModule.Library.NumberText
import RadiusModule.Services.Bandwidth.Schedules
import RadiusModule.Services.DeviceLimit

/-!
# Bandwidth rates

The text of Mikrotik-Rate-Limit for an open session: the speed of the active
schedule, of the account, of the plan's profile or of the plan, in this order;
divided among the open sessions of an account that shares its speed equally,
and multiplied by the factors of the speed policy that is applied. A card's
row is asked first.
-/

namespace RadiusModule.Bandwidth
open Library PyText Binary64 DeviceLimit

def rateText (up down : ℤ) : String := toString up ++ "k/" ++ toString down ++ "k"

def speedUnitRatio (unit : String) : ℤ :=
  match lower (strip (if unit = "" then "kbps" else unit)) with
  | "mbps" => 1024
  | "gbps" => 1024 * 1024
  | _ => 1

/-- `int(round(float(value) * ratio))` -/
def speedToKbps (value : ℤ) (unit : String) : ℤ :=
  roundHalfEven (fl (fl value * speedUnitRatio unit))

def profileRateKbps (profile : BandwidthProfile) : ℤ × ℤ :=
  (speedToKbps profile.rateDown profile.rateDownUnit, speedToKbps profile.rateUp profile.rateUpUnit)

/-- `get_setting("speed.active_factors")` as the speed centre writes it. -/
structure FactorOverride where
  down : Option ℚ := none
  up : Option ℚ := none
deriving DecidableEq

structure ActiveFactors where
  multiplier : ℚ
  overrides : List (ℕ × FactorOverride) := []
  profileIds : List ℕ := []
deriving DecidableEq

/-- The tables and readings that only speeds need; `readFactors` is none where the text of the
setting is no such record. -/
structure Speeds where
  schedules : List BandwidthSchedule := []
  groups : List SubscriberGroup := []
  readFactors : String → Option ActiveFactors := fun _ => none
  localMinute : ℤ → ℤ → ℕ

section
variable (db : Db)

def resolvePlanProfile (plan : AccessPlan) : Option BandwidthProfile :=
  plan.bandwidthId.bind fun id =>
    if id = 0 then none
    else db.bandwidthProfiles.find? fun b => b.tenantId = plan.tenantId && b.id = id

def planOwnRate (plan : AccessPlan) : Option String :=
  if plan.speedDownKbps ≠ 0 ∨ plan.speedUpKbps ≠ 0 then
    some (if plan.burstRaw ≠ "" then plan.burstRaw
      else rateText plan.speedUpKbps plan.speedDownKbps)
  else none

def planRateLimit (plan : AccessPlan) : Option String :=
  match resolvePlanProfile db plan with
  | none => planOwnRate plan
  | some profile =>
    let burst := strip profile.burst
    let (down, up) := profileRateKbps profile
    if burst ≠ "" then some burst
    else if down ≠ 0 ∨ up ≠ 0 then some (rateText up down)
    else planOwnRate plan

def splitMinKbps : ℤ := 256

def liveDeviceCount (tenantId : ℤ) (username : String) : ℤ :=
  max 1 (db.radacct.select fun r => ofUser tenantId username r && r.running).length

def share (split : Bool) (count rate : ℤ) : ℤ :=
  if split ∧ rate ≠ 0 then max splitMinKbps (rate / count) else rate

def applyDeviceSplit (sub : Subscriber) (count down up : ℤ) : ℤ × ℤ :=
  if ¬(sub.equalShareDownload || sub.equalShareUpload) ∨ count ≤ 1 then (down, up)
  else (share sub.equalShareDownload count down, share sub.equalShareUpload count up)

def planBaseKbps (plan : AccessPlan) : ℤ × ℤ :=
  let own := (plan.speedDownKbps, plan.speedUpKbps)
  match resolvePlanProfile db plan with
  | none => own
  | some profile =>
    let (down, up) := profileRateKbps profile
    if down ≠ 0 ∨ up ≠ 0 then (down, up) else own

variable (speeds : Speeds) (now : ℤ)

def activeRule (tenantId : ℤ) (username : String) (cardBatchId planId : Option ℕ)
    (plan : Option AccessPlan) : Option BandwidthSchedule :=
  resolveEffectiveBandwidthSchedule speeds.schedules tenantId (speeds.localMinute tenantId now) db
    speeds.groups username cardBatchId ((plan.map AccessPlan.id) <|> planId)

def hasOwnSpeed (sub : Subscriber) : Bool :=
  sub.bandwidthControlEnabled && (sub.downloadSpeedKbps ≠ 0 || sub.uploadSpeedKbps ≠ 0)

def planRow (tenantId : ℤ) (planId : Option ℕ) : Option AccessPlan :=
  planId.bind fun id => db.plan tenantId id true

def baseRateKbps (tenantId : ℤ) (username : String) (sub : Subscriber) : ℤ × ℤ :=
  let plan := planRow db tenantId sub.planId
  match activeRule db speeds now tenantId username sub.cardBatchId sub.planId plan with
  | some rule => (rule.speedDownKbps, rule.speedUpKbps)
  | none =>
    if hasOwnSpeed sub then (sub.downloadSpeedKbps, sub.uploadSpeedKbps)
    else (plan.map (planBaseKbps db)).getD (0, 0)

def effectiveRateKbps (tenantId : ℤ) (username : String) (sub : Subscriber) : ℤ × ℤ :=
  let (down, up) := baseRateKbps db speeds now tenantId username sub
  applyDeviceSplit sub (liveDeviceCount db tenantId username) down up

end

def ActiveFactors.ofPlan (f : ActiveFactors) (planId : Option ℕ) : Option (ℚ × ℚ) :=
  let multiplier := if f.multiplier = 0 then 1 else f.multiplier
  if planId.any (fun id => !f.profileIds.isEmpty && !f.profileIds.contains id) then none
  else
    let override := planId.bind fun id => List.lookup id f.overrides
    let bounded (q : Option ℚ) := max 0 (min 5 (q.getD multiplier))
    some (bounded (override.bind FactorOverride.down), bounded (override.bind FactorOverride.up))

def isOne (factor : ℚ) : Bool := |fl (factor - 1)| < fl (1 / 10 ^ 9)

def truncate (q : ℚ) : ℤ := if q < 0 then ⌈q⌉ else ⌊q⌋

/-- `int(int(text) * factor)` -/
def scale (rate : ℤ) (factor : ℚ) : ℤ := truncate (fl (fl rate * factor))

def kbps? (cs : List Char) : Option ℤ :=
  if cs.getLast? = some 'k' then int? (String.ofList cs.dropLast) else none

def readRate (text : String) : Option (ℤ × ℤ × String) :=
  let cs := stripChars text.toList
  let main := cs.takeWhile (· ≠ ' ')
  let tail := cs.dropWhile (· ≠ ' ')
  if main.contains '/' then
    (kbps? (main.takeWhile (· ≠ '/'))).bind fun up =>
      (kbps? ((main.dropWhile (· ≠ '/')).drop 1)).map fun down => (up, down, String.ofList tail)
  else none

def scaleText (factors : ℚ × ℚ) (text : String) : String :=
  if isOne factors.1 && isOne factors.2 then text
  else match readRate text with
    | some (up, down, tail) => rateText (scale up factors.2) (scale down factors.1) ++ tail
    | none => text

theorem toList_rateText (up down : ℤ) : (rateText up down).toList =
    ((toString up).toList ++ ['k']) ++ '/' :: ((toString down).toList ++ ['k']) := by
  simp only [rateText, String.toList_append, List.append_assoc, List.cons_append, List.nil_append]
  rfl

theorem rateText_ne_empty (up down : ℤ) : rateText up down ≠ "" := fun h => by
  have hlist := congrArg String.toList h
  rw [toList_rateText] at hlist
  simp at hlist

theorem kbps?_toString (z : ℤ) : kbps? ((toString z).toList ++ ['k']) = some z := by
  rw [kbps?, if_pos List.getLast?_concat, List.dropLast_concat, String.ofList_toList,
    int?_toString]

theorem readRate_rateText (up down : ℤ) : readRate (rateText up down) = some (up, down, "") := by
  have hplain : ∀ c ∈ (rateText up down).toList, isSpace c = false ∧ c ≠ ' ' := by
    intro c hc
    rw [toList_rateText] at hc
    have hnumber : ∀ z : ℤ, c ∈ (toString z).toList → isSpace c = false ∧ c ≠ ' ' := by
      refine fun z hz => ⟨?_, fun h => not_mem_toString (by decide) (by decide) (h ▸ hz)⟩
      rcases mem_toString hz with h | rfl
      · exact isSpace_of_isDigit h
      · decide
    simp only [List.mem_append, List.mem_cons, List.not_mem_nil, or_false] at hc
    rcases hc with (hz | rfl) | rfl | hz | rfl
    · exact hnumber up hz
    · decide
    · decide
    · exact hnumber down hz
    · decide
  have hslash : ∀ c ∈ (toString up).toList ++ ['k'], c ≠ '/' := by
    intro c hc
    rcases List.mem_append.mp hc with hz | hk
    · exact fun h => not_mem_toString (by decide) (by decide) (h ▸ hz)
    · rw [List.mem_singleton.mp hk]
      decide
  have hstrip : stripChars (rateText up down).toList = (rateText up down).toList :=
    stripChars_of_noSpace fun c hc => (hplain c hc).1
  have hmain : (rateText up down).toList.takeWhile (· ≠ ' ') = (rateText up down).toList :=
    List.takeWhile_eq_self_iff.mpr fun c hc => by simpa using (hplain c hc).2
  have htail : (rateText up down).toList.dropWhile (· ≠ ' ') = [] :=
    List.dropWhile_eq_nil_iff.mpr fun c hc => by simpa using (hplain c hc).2
  have hbefore : (rateText up down).toList.takeWhile (· ≠ '/') = (toString up).toList ++ ['k'] := by
    rw [toList_rateText, List.takeWhile_append_of_pos fun c hc => by simpa using hslash c hc]
    simp
  have hafter : ((rateText up down).toList.dropWhile (· ≠ '/')).drop 1 =
      (toString down).toList ++ ['k'] := by
    rw [toList_rateText, List.dropWhile_append_of_pos fun c hc => by simpa using hslash c hc]
    simp
  have hcontains : (rateText up down).toList.contains '/' = true := by
    rw [toList_rateText]
    simp
  rw [readRate, hstrip]
  simp only [hmain, htail, hcontains, if_true, hbefore, hafter, kbps?_toString, Option.bind_some,
    Option.map_some]

theorem rateText_injective {up down up' down' : ℤ} (h : rateText up down = rateText up' down') :
    up = up' ∧ down = down' := by
  have hread := congrArg readRate h
  rw [readRate_rateText, readRate_rateText] at hread
  simpa using hread

theorem scaleText_rateText (factors : ℚ × ℚ) (up down : ℤ) :
    scaleText factors (rateText up down) =
      if isOne factors.1 && isOne factors.2 then rateText up down
      else rateText (scale up factors.2) (scale down factors.1) := by
  rw [scaleText, readRate_rateText]
  split
  · rfl
  · exact String.append_empty

section
variable (db : Db) (speeds : Speeds) (now : ℤ)

def activeSpeedFactors (tenantId : ℤ) : Option ActiveFactors :=
  speeds.readFactors (db.setting tenantId "speed.active_factors" "")

def applyActiveSpeedFactor (tenantId : ℤ) (planId : Option ℕ) (text : String) : String :=
  if text = "" then text
  else match (activeSpeedFactors db speeds tenantId).bind fun f => f.ofPlan planId with
    | some factors => scaleText factors text
    | none => text

def cardEffectiveRateLimit (tenantId : ℤ) (card : Card) : String :=
  let plan := planRow db tenantId card.planId
  let result := match activeRule db speeds now tenantId card.username (some card.batchId)
      card.planId plan with
    | some rule => rateText rule.speedUpKbps rule.speedDownKbps
    | none =>
      if card.cardSpeedDownKbps ≠ 0 ∧ card.cardSpeedUpKbps ≠ 0 then
        rateText card.cardSpeedUpKbps card.cardSpeedDownKbps
      else (plan.bind (planRateLimit db)).getD ""
  applyActiveSpeedFactor db speeds tenantId card.planId result

def subscriberRateText (tenantId : ℤ) (username : String) (sub : Subscriber) : String :=
  let (down, up) := effectiveRateKbps db speeds now tenantId username sub
  if (sub.equalShareDownload || sub.equalShareUpload) ∧ (down ≠ 0 ∨ up ≠ 0) then rateText up down
  else
    let plan := planRow db tenantId sub.planId
    match activeRule db speeds now tenantId username sub.cardBatchId sub.planId plan with
    | some rule => rateText rule.speedUpKbps rule.speedDownKbps
    | none =>
      if hasOwnSpeed sub then rateText sub.uploadSpeedKbps sub.downloadSpeedKbps
      else (plan.bind (planRateLimit db)).getD ""

def effectiveRateLimit (tenantId : ℤ) (username : String) : String :=
  match db.card tenantId username with
  | some card => cardEffectiveRateLimit db speeds now tenantId card
  | none =>
    match db.subscriber tenantId username false with
    | some sub => applyActiveSpeedFactor db speeds tenantId sub.planId
        (subscriberRateText db speeds now tenantId username sub)
    | none => ""

end

end RadiusModule.Bandwidth
