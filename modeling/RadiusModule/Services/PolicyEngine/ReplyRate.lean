import RadiusModule.Services.Bandwidth.Rate
import RadiusModule.Services.PolicyEngine.Authorize
import RadiusModule.Services.PolicyEngine.SessionTimeout

/-!
# The rate of the reply

The Access-Accept carries the speed that its own cascade finds; the panel, the
worker of the schedules and CoA send what `effective_rate_limit` finds. Both
read a rate from the same rows, but the reply neither divides it among the open
sessions nor multiplies it by the applied policy, and only the panel lets a
card go before an account of its name. The two agree exactly when these steps
give the rate back.
-/

namespace RadiusModule.PolicyEngine
open Library PyText CardBatchFlags Bandwidth

section
variable (db : Db)

def quotaExhaustMode (tenantId : ℤ) (username : String) : String :=
  match cardAndBatch db tenantId username with
  | none => "stop"
  | some (_, batch) =>
    let mode := lower (strip (if batch.onQuotaExhaust = "" then "stop" else batch.onQuotaExhaust))
    if mode = "" then "stop" else mode

def defaultThrottleRate : String := "128k/128k"

def quotaThrottleRate (tenantId : ℤ) : String :=
  let val := db.setting tenantId "cards.quota_throttle_rate" defaultThrottleRate
  let rate := strip (if val = "" then defaultThrottleRate else val)
  if rate = "" then defaultThrottleRate else rate

/-- `str.split()` -/
def words (text : String) : List String :=
  ((text.toList.splitOnP isSpace).filter (· ≠ [])).map String.ofList

def augmentRatePriority (rate : String) (priority : ℤ) : String :=
  let toks := words rate
  if toks.isEmpty then rate
  else
    let padded := toks ++ List.replicate (4 - toks.length) "0/0"
    " ".intercalate (padded.take 4 ++ toString priority :: padded.drop 5)

variable (speeds : Speeds) (now : ℤ) (sub : Subscriber) (plan : Option AccessPlan)

def builtRate : Option String :=
  match activeRule db speeds now sub.tenantId sub.username sub.cardBatchId sub.planId plan with
  | some rule => some (rateText rule.speedUpKbps rule.speedDownKbps)
  | none =>
    if hasOwnSpeed sub then some (rateText sub.uploadSpeedKbps sub.downloadSpeedKbps)
    else plan.bind (planRateLimit db)

def extraRate : Option String :=
  (((parsePppExtra sub.pppAttributesExtra).filter fun a => a.1 = "Mikrotik-Rate-Limit").getLast?).map
    Prod.snd

/-- Mikrotik-Rate-Limit as `_build_accept_attrs` leaves it. -/
def replyRate (isQuotaExhausted : Subscriber → Option AccessPlan → Bool) : Option String :=
  let rate := builtRate db speeds now sub plan
  let rate :=
    if isQuotaExhausted sub plan ∧ quotaExhaustMode db sub.tenantId sub.username = "reduce_speed"
    then some (quotaThrottleRate db sub.tenantId) else rate
  let rate :=
    if 1 ≤ sub.queuePriority ∧ sub.queuePriority ≤ 8 then
      rate.map fun r => if r = "" then r else augmentRatePriority r sub.queuePriority
    else rate
  (extraRate sub) <|> rate

end

inductive Rate
  | kbps (up down : ℤ)
  | burst (text : String)
deriving DecidableEq

namespace Rate

def text : Rate → String
  | kbps up down => rateText up down
  | burst text => text

def scaled (factors : ℚ × ℚ) : Rate → Rate
  | kbps up down =>
    if isOne factors.1 && isOne factors.2 then kbps up down
    else kbps (scale up factors.2) (scale down factors.1)
  | burst text => burst (scaleText factors text)

def Same : Rate → Rate → Prop
  | kbps up down, kbps up' down' => up = up' ∧ down = down'
  | kbps up down, burst text => text = rateText up down
  | burst text, kbps up down => text = rateText up down
  | burst text, burst text' => text = text'

def Kept (factors : ℚ × ℚ) : Option Rate → Option Rate → Prop
  | none, none => True
  | some sent, some rate => sent.Same (rate.scaled factors)
  | _, _ => False

theorem text_eq_iff (r s : Rate) : r.text = s.text ↔ r.Same s := by
  cases r with
  | kbps up down =>
    cases s with
    | kbps up' down' =>
      refine ⟨rateText_injective, ?_⟩
      rintro ⟨rfl, rfl⟩
      rfl
    | burst text => exact eq_comm
  | burst text => cases s <;> exact Iff.rfl

theorem scaleText_text (factors : ℚ × ℚ) (r : Rate) :
    scaleText factors r.text = (r.scaled factors).text := by
  cases r with
  | burst text => rfl
  | kbps up down =>
    rw [text, scaleText_rateText, scaled]
    split <;> rfl

end Rate

section
variable (db : Db)

def planOwn (plan : AccessPlan) : Option Rate :=
  if plan.speedDownKbps ≠ 0 ∨ plan.speedUpKbps ≠ 0 then
    some (if plan.burstRaw ≠ "" then .burst plan.burstRaw
      else .kbps plan.speedUpKbps plan.speedDownKbps)
  else none

def planRate (plan : AccessPlan) : Option Rate :=
  match resolvePlanProfile db plan with
  | none => planOwn plan
  | some profile =>
    let (down, up) := profileRateKbps profile
    if strip profile.burst ≠ "" then some (.burst (strip profile.burst))
    else if down ≠ 0 ∨ up ≠ 0 then some (.kbps up down)
    else planOwn plan

def decidedRate (rule : Option BandwidthSchedule) (own : Option (ℤ × ℤ))
    (plan : Option AccessPlan) : Option Rate :=
  match rule, own with
  | some rule, _ => some (.kbps rule.speedUpKbps rule.speedDownKbps)
  | none, some (up, down) => some (.kbps up down)
  | none, none => plan.bind (planRate db)

variable (speeds : Speeds) (now : ℤ)

def ownRate (sub : Subscriber) : Option (ℤ × ℤ) :=
  if hasOwnSpeed sub then some (sub.uploadSpeedKbps, sub.downloadSpeedKbps) else none

def accountRate (sub : Subscriber) : Option Rate :=
  let plan := planRow db sub.tenantId sub.planId
  decidedRate db (activeRule db speeds now sub.tenantId sub.username sub.cardBatchId sub.planId plan)
    (ownRate sub) plan

def cardRate (card : Card) : Option Rate :=
  let plan := planRow db card.tenantId card.planId
  decidedRate db (activeRule db speeds now card.tenantId card.username (some card.batchId)
      card.planId plan)
    (if card.cardSpeedDownKbps ≠ 0 ∧ card.cardSpeedUpKbps ≠ 0 then
      some (card.cardSpeedUpKbps, card.cardSpeedDownKbps) else none) plan

def sharedRate (sub : Subscriber) : Option Rate :=
  let (down, up) := effectiveRateKbps db speeds now sub.tenantId sub.username sub
  if (sub.equalShareDownload || sub.equalShareUpload) ∧ (down ≠ 0 ∨ up ≠ 0) then
    some (.kbps up down) else accountRate db speeds now sub

def panelRate (tenantId : ℤ) (username : String) : Option Rate × Option ℕ :=
  match db.card tenantId username with
  | some card => (cardRate db speeds now card, card.planId)
  | none =>
    match db.subscriber tenantId username false with
    | some sub => (sharedRate db speeds now sub, sub.planId)
    | none => (none, none)

def panelFactors (tenantId : ℤ) (planId : Option ℕ) : ℚ × ℚ :=
  ((activeSpeedFactors db speeds tenantId).bind fun f => f.ofPlan planId).getD (1, 1)

/-- The rows that decide the panel's rate give, divided and multiplied, the rate of the rows
that decide the reply's. -/
def SpeedKept (sub : Subscriber) : Prop :=
  let panel := panelRate db speeds now sub.tenantId sub.username
  Rate.Kept (panelFactors db speeds sub.tenantId panel.2) (accountRate db speeds now sub) panel.1

end

section
variable {db : Db} {speeds : Speeds} {now : ℤ}

theorem planOwnRate_eq (plan : AccessPlan) : planOwnRate plan = (planOwn plan).map Rate.text := by
  unfold planOwnRate planOwn
  split_ifs <;> rfl

theorem planRateLimit_eq (plan : AccessPlan) :
    planRateLimit db plan = (planRate db plan).map Rate.text := by
  unfold planRateLimit planRate
  cases resolvePlanProfile db plan with
  | none => exact planOwnRate_eq plan
  | some profile =>
    simp only
    split_ifs
    · rfl
    · rfl
    · exact planOwnRate_eq plan

section
variable (rule : Option BandwidthSchedule) (own : Prop) [Decidable own] (up down : ℤ)
    (plan : Option AccessPlan)

theorem decidedRate_text :
    (decidedRate db rule (if own then some (up, down) else none) plan).map Rate.text =
      match rule with
      | some rule => some (rateText rule.speedUpKbps rule.speedDownKbps)
      | none => if own then some (rateText up down) else plan.bind (planRateLimit db) := by
  cases rule with
  | some rule => rfl
  | none =>
    split_ifs
    · rfl
    · cases plan with
      | none => rfl
      | some plan => exact (planRateLimit_eq plan).symm

theorem decidedRate_getD :
    ((decidedRate db rule (if own then some (up, down) else none) plan).map Rate.text).getD "" =
      match rule with
      | some rule => rateText rule.speedUpKbps rule.speedDownKbps
      | none => if own then rateText up down else (plan.bind (planRateLimit db)).getD "" := by
  rw [decidedRate_text]
  cases rule with
  | some rule => rfl
  | none => split_ifs <;> rfl

end

theorem builtRate_eq (sub : Subscriber) :
    builtRate db speeds now sub (planRow db sub.tenantId sub.planId) =
      (accountRate db speeds now sub).map Rate.text :=
  (decidedRate_text _ _ _ _ _).symm

theorem text_ne_empty_of_planOwn {plan : AccessPlan} {r : Rate} (h : planOwn plan = some r) :
    r.text ≠ "" := by
  unfold planOwn at h
  split_ifs at h with hspeed hburst
  · cases h
    exact hburst
  · cases h
    exact rateText_ne_empty _ _

theorem text_ne_empty_of_planRate {plan : AccessPlan} {r : Rate} (h : planRate db plan = some r) :
    r.text ≠ "" := by
  unfold planRate at h
  split at h
  · exact text_ne_empty_of_planOwn h
  · simp only at h
    split_ifs at h with hburst hspeed
    · cases h
      exact hburst
    · cases h
      exact rateText_ne_empty _ _
    · exact text_ne_empty_of_planOwn h

theorem text_ne_empty_of_decidedRate {rule : Option BandwidthSchedule} {own : Option (ℤ × ℤ)}
    {plan : Option AccessPlan} {r : Rate} (h : decidedRate db rule own plan = some r) :
    r.text ≠ "" := by
  cases rule with
  | some rule =>
    cases h
    exact rateText_ne_empty _ _
  | none =>
    cases own with
    | some own =>
      cases h
      exact rateText_ne_empty _ _
    | none =>
      obtain ⟨plan, rfl, hplan⟩ := Option.bind_eq_some_iff.mp h
      exact text_ne_empty_of_planRate hplan

theorem scaleText_ne_empty {text : String} (h : text ≠ "") (factors : ℚ × ℚ) :
    scaleText factors text ≠ "" := by
  unfold scaleText
  split_ifs
  · exact h
  · split
    · intro hempty
      exact rateText_ne_empty _ _ (String.append_eq_empty_iff.mp hempty).1
    · exact h

theorem isOne_one : isOne 1 = true := by decide +kernel

theorem scaled_one (r : Rate) : r.scaled (1, 1) = r := by
  cases r with
  | kbps up down => simp [Rate.scaled, isOne_one]
  | burst text => simp [Rate.scaled, scaleText, isOne_one]

theorem applyActiveSpeedFactor_text (tenantId : ℤ) (planId : Option ℕ) {r : Rate}
    (h : r.text ≠ "") :
    applyActiveSpeedFactor db speeds tenantId planId r.text =
      (r.scaled (panelFactors db speeds tenantId planId)).text := by
  rw [applyActiveSpeedFactor, if_neg h, panelFactors]
  cases (activeSpeedFactors db speeds tenantId).bind fun f => f.ofPlan planId with
  | none => rw [Option.getD_none, scaled_one]
  | some factors => exact Rate.scaleText_text factors r

theorem applyActiveSpeedFactor_map (tenantId : ℤ) (planId : Option ℕ) {rate : Option Rate}
    (h : ∀ r ∈ rate, r.text ≠ "") :
    applyActiveSpeedFactor db speeds tenantId planId ((rate.map Rate.text).getD "") =
      (rate.map fun r => (r.scaled (panelFactors db speeds tenantId planId)).text).getD "" := by
  cases rate with
  | none => rfl
  | some r => exact applyActiveSpeedFactor_text tenantId planId (h r rfl)

theorem cardEffectiveRateLimit_eq (card : Card) :
    cardEffectiveRateLimit db speeds now card.tenantId card =
      ((cardRate db speeds now card).map fun r =>
        (r.scaled (panelFactors db speeds card.tenantId card.planId)).text).getD "" := by
  have hdecided : ∀ r ∈ cardRate db speeds now card, r.text ≠ "" :=
    fun r hr => text_ne_empty_of_decidedRate hr
  rw [← applyActiveSpeedFactor_map card.tenantId card.planId hdecided]
  refine congrArg (applyActiveSpeedFactor db speeds card.tenantId card.planId) ?_
  exact (decidedRate_getD _ (card.cardSpeedDownKbps ≠ 0 ∧ card.cardSpeedUpKbps ≠ 0) _ _ _).symm

theorem subscriberRateText_eq (sub : Subscriber) :
    subscriberRateText db speeds now sub.tenantId sub.username sub =
      ((sharedRate db speeds now sub).map Rate.text).getD "" := by
  unfold subscriberRateText sharedRate
  rcases effectiveRateKbps db speeds now sub.tenantId sub.username sub with ⟨down, up⟩
  dsimp only
  by_cases hshared : (sub.equalShareDownload || sub.equalShareUpload) = true ∧ (down ≠ 0 ∨ up ≠ 0)
  · rw [if_pos hshared, if_pos hshared]
    rfl
  · rw [if_neg hshared, if_neg hshared]
    exact (decidedRate_getD _ (hasOwnSpeed sub = true) _ _ _).symm

theorem text_ne_empty_of_sharedRate {sub : Subscriber} {r : Rate}
    (h : sharedRate db speeds now sub = some r) : r.text ≠ "" := by
  unfold sharedRate at h
  split at h
  split_ifs at h
  · cases h
    exact rateText_ne_empty _ _
  · exact text_ne_empty_of_decidedRate h

theorem subscriber_found {tenantId : ℤ} {username : String} {deleted : Bool} {sub : Subscriber}
    (h : db.subscriber tenantId username deleted = some sub) :
    sub.tenantId = tenantId ∧ sub.username = username := by
  have hfound := List.find?_some h
  simp only [Bool.and_eq_true, decide_eq_true_eq] at hfound
  exact hfound.1

theorem effectiveRateLimit_eq (tenantId : ℤ) (username : String) :
    effectiveRateLimit db speeds now tenantId username =
      ((panelRate db speeds now tenantId username).1.map fun r =>
        (r.scaled (panelFactors db speeds tenantId
          (panelRate db speeds now tenantId username).2)).text).getD "" := by
  unfold effectiveRateLimit panelRate
  cases hcard : db.card tenantId username with
  | some card =>
    obtain ⟨rfl, -⟩ := Db.card_found hcard
    exact cardEffectiveRateLimit_eq card
  | none =>
    cases hsub : db.subscriber tenantId username false with
    | none => rfl
    | some sub =>
      obtain ⟨rfl, rfl⟩ := subscriber_found hsub
      simp only
      rw [subscriberRateText_eq, applyActiveSpeedFactor_map sub.tenantId sub.planId
        fun r hr => text_ne_empty_of_sharedRate hr]

theorem findLogin_tenant {req req' : AuthRequest} {sub : Subscriber} {source : Source}
    (h : findLogin db req = some (req', sub, source)) :
    req'.tenantId = req.tenantId ∧ sub.tenantId = req.tenantId := by
  have hcard : ∀ name, ((db.card req.tenantId name).map fun c =>
      ({ req with username := name }, cardToSubscriber db c, Source.card)) =
        some (req', sub, source) → req'.tenantId = req.tenantId ∧ sub.tenantId = req.tenantId := by
    intro name hname
    obtain ⟨card, hfound, heq⟩ := Option.map_eq_some_iff.mp hname
    obtain ⟨rfl, rfl, -⟩ := by simpa using heq
    exact ⟨rfl, (Db.card_found hfound).1⟩
  unfold findLogin at h
  cases hsub : db.subscriber req.tenantId req.username false with
  | some mirror =>
    simp only [hsub] at h
    have htenant := (subscriber_found hsub).1
    split_ifs at h
    · cases hdirect : (db.card req.tenantId req.username).map fun c =>
          ({ req with username := req.username }, cardToSubscriber db c, Source.card) with
      | none =>
        rw [hdirect] at h
        cases h
        exact ⟨rfl, htenant⟩
      | some found =>
        rw [hdirect] at h
        exact hcard _ (hdirect.trans h)
    · cases h
      exact ⟨rfl, htenant⟩
  | none =>
    simp only [hsub] at h
    cases hdirect : (db.card req.tenantId req.username).map fun c =>
        ({ req with username := req.username }, cardToSubscriber db c, Source.card) with
    | some found =>
      rw [hdirect] at h
      exact hcard _ (hdirect.trans h)
    | none =>
      rw [hdirect] at h
      split_ifs at h
      · exact hcard _ h
      · cases h

theorem replyRate_eq_builtRate {sub : Subscriber} {plan : Option AccessPlan}
    {isQuotaExhausted : Subscriber → Option AccessPlan → Bool}
    (hquota : isQuotaExhausted sub plan = false) (hpriority : sub.queuePriority = 0)
    (hextra : sub.pppAttributesExtra = "") :
    replyRate db speeds now sub plan isQuotaExhausted = builtRate db speeds now sub plan := by
  have hnone : extraRate sub = none := by
    rw [extraRate, hextra]
    rfl
  simp [replyRate, hnone, hquota, hpriority]

/-- An absent attribute and an empty text stand for each other. -/
def SameRate (sent : Option String) (text : String) : Prop :=
  sent = if text = "" then none else some text

theorem sameRate_map_iff {sent rate : Option Rate} (factors : ℚ × ℚ)
    (hrate : ∀ r ∈ rate, r.text ≠ "") :
    SameRate (sent.map Rate.text) ((rate.map fun r => (r.scaled factors).text).getD "") ↔
      Rate.Kept factors sent rate := by
  unfold SameRate
  cases rate with
  | none => cases sent <;> simp [Rate.Kept]
  | some rate =>
    have hne : (rate.scaled factors).text ≠ "" := by
      rw [← Rate.scaleText_text]
      exact scaleText_ne_empty (hrate rate rfl) factors
    rw [Option.map_some, Option.getD_some, if_neg hne]
    cases sent with
    | none => simp [Rate.Kept]
    | some sent => simpa [Rate.Kept] using Rate.text_eq_iff sent (rate.scaled factors)

theorem text_ne_empty_of_panelRate {tenantId : ℤ} {username : String} {r : Rate}
    (h : (panelRate db speeds now tenantId username).1 = some r) : r.text ≠ "" := by
  unfold panelRate at h
  split at h
  · exact text_ne_empty_of_decidedRate h
  · split at h
    · exact text_ne_empty_of_sharedRate h
    · cases h

theorem reply_rate_effective_iff {req req' : AuthRequest} {sub : Subscriber} {source : Source}
    {isQuotaExhausted : Subscriber → Option AccessPlan → Bool}
    (hlogin : findLogin db req = some (req', sub, source))
    (hquota : isQuotaExhausted sub (planOf db req' sub) = false)
    (hpriority : sub.queuePriority = 0) (hextra : sub.pppAttributesExtra = "") :
    SameRate (replyRate db speeds now sub (planOf db req' sub) isQuotaExhausted)
        (effectiveRateLimit db speeds now sub.tenantId sub.username) ↔
      SpeedKept db speeds now sub := by
  obtain ⟨hreq, hsub⟩ := findLogin_tenant hlogin
  have hplan : planOf db req' sub = planRow db sub.tenantId sub.planId := by
    rw [planOf, hreq, ← hsub]
    rfl
  rw [replyRate_eq_builtRate hquota hpriority hextra, hplan, builtRate_eq, effectiveRateLimit_eq]
  exact sameRate_map_iff _ fun r hr => text_ne_empty_of_panelRate hr

end

theorem speedKept_of_plain {db : Db} {speeds : Speeds} (now : ℤ) {sub : Subscriber}
    (hcard : db.card sub.tenantId sub.username = none)
    (hsub : db.subscriber sub.tenantId sub.username false = some sub)
    (hdown : sub.equalShareDownload = false) (hup : sub.equalShareUpload = false)
    (hfactors : activeSpeedFactors db speeds sub.tenantId = none) :
    SpeedKept db speeds now sub := by
  have hshared : sharedRate db speeds now sub = accountRate db speeds now sub := by
    simp [sharedRate, hdown, hup]
  have hpanel : panelRate db speeds now sub.tenantId sub.username =
      (accountRate db speeds now sub, sub.planId) := by
    simp only [panelRate, hcard, hsub, hshared]
  simp only [SpeedKept, hpanel, panelFactors, hfactors, Option.bind_none, Option.getD_none]
  cases accountRate db speeds now sub with
  | none => trivial
  | some rate => exact (Rate.text_eq_iff rate _).mp (by rw [scaled_one])

section

def sharedPlanDb (setting : Option String) : Db where
  subscribers := [{ username := "nour", planId := some 1 }]
  plans := [{ id := 1, speedDownKbps := 1024, speedUpKbps := 512 }]
  settings := fun _ key => if key = "speed.active_factors" then setting else none

/-- The setting `half` stands for the record of a policy that halves every speed. -/
def halfSpeeds : Speeds where
  readFactors := fun text => if text = "half" then some { multiplier := 1 / 2 } else none
  localMinute := fun _ _ => 600

example : effectiveRateLimit (sharedPlanDb none) halfSpeeds 0 1 "nour" = "512k/1024k" := by
  decide +kernel

/-- Under a policy of a half the login is sent the whole speed of its plan. -/
theorem half_policy_sent_whole :
    findLogin (sharedPlanDb (some "half")) { username := "nour" } =
        some ({ username := "nour" }, { username := "nour", planId := some 1 }, .subscriber) ∧
      replyRate (sharedPlanDb (some "half")) halfSpeeds 0 { username := "nour", planId := some 1 }
          (planOf (sharedPlanDb (some "half")) { username := "nour" }
            { username := "nour", planId := some 1 }) (fun _ _ => false) = some "512k/1024k" ∧
      effectiveRateLimit (sharedPlanDb (some "half")) halfSpeeds 0 1 "nour" = "256k/512k" ∧
      ¬SameRate (some "512k/1024k") "256k/512k" := by
  refine ⟨by decide +kernel, by decide +kernel, by decide +kernel, ?_⟩
  simp [SameRate]

theorem reply_rate_effective_plain :
    SameRate
      (replyRate (sharedPlanDb none) halfSpeeds 0 { username := "nour", planId := some 1 }
        (planOf (sharedPlanDb none) { username := "nour" } { username := "nour", planId := some 1 })
        fun _ _ => false)
      (effectiveRateLimit (sharedPlanDb none) halfSpeeds 0 1 "nour") := by
  have hlogin : findLogin (sharedPlanDb none) { username := "nour" } =
      some ({ username := "nour" }, { username := "nour", planId := some 1 }, .subscriber) := by
    decide
  exact (reply_rate_effective_iff hlogin rfl rfl rfl).mpr
    (speedKept_of_plain 0 (by decide) (by decide) rfl rfl (by decide))

end

end RadiusModule.PolicyEngine
