import RadiusModule.Services.PolicyEngine.LiveCards

/-!
# Resetting a card

A reset clears the card and its account and marks the instant; what it leaves
is to be read from that instant on. The time budget and the stamp of the next
first login do so. The quota, the daily limit of the plan, the devices taken
in, the clone check and the claims do not, and neither does the part of
Session-Timeout that the daily limit gives.
-/

namespace RadiusModule.PolicyEngine
open Library PyText AccessSchedule CardBatchFlags DeviceLimit

def resetAt (now : ℤ) (c : Card) : Card :=
  { c with used := false, firstUsedAt := .null, expireAt := .null, usageResetAt := .instant now }

def resetCardUsage (db : Db) (now tenantId : ℤ) (id : ℕ) : Db :=
  match db.cards.find? (ofCardId tenantId id) with
  | none => db
  | some card =>
    (db.updateCards (ofCardId tenantId id) (resetAt now)).updateSubscribers
      (fun s => s.tenantId = tenantId && s.userType = .card && s.username = card.username)
      fun s => { s with expireAt := .null }

def neverReset (c : Card) : Card := { c with usageResetAt := .null }

section
variable (db : Db) (card : Card)

def takenIn (d : AllowDevice) : Bool :=
  (AllowMode.resolvePolicy db card.tenantId (some card.batchId) card.planId).any fun p =>
    p.mode = .tofu && d.policyId = p.id && d.username = card.username

def asNewRow (c : Card) : Card := if ofCardId card.tenantId card.id c then neverReset c else c

def asNew : Db :=
  { db with
    cards := db.cards.map (asNewRow card)
    radacct := db.radacct.delete (ofUser card.tenantId card.username)
    claims := db.claims.filter fun c =>
      !(c.tenantId = card.tenantId && c.username = card.username)
    allowDevices := db.allowDevices.filter fun d => !takenIn db card d
    cloneBindings := db.cloneBindings.filter fun b =>
      !(b.tenantId = card.tenantId && b.username = card.username)
    cloneEvents := db.cloneEvents.filter fun e =>
      !(e.tenantId = card.tenantId && e.username = card.username) }

def stamps : Option Card × List Subscriber :=
  ((db.card card.tenantId card.username).map neverReset, db.subscribers)

end

/-- The services outside read the use of an account from its bytes and from the open sessions. -/
structure Env.ReadsUse (env : Env) : Prop where
  blocks : ∀ sub i o plan req source,
    env.checkBlocks { sub with usedBytesIn := i, usedBytesOut := o } plan req source =
      env.checkBlocks sub plan req source
  blocksReject : env.BlocksReject
  today : ∀ sub i o, env.today { sub with usedBytesIn := i, usedBytesOut := o } = env.today sub
  quota : ∀ t sub plan, t.select (ofUser sub.tenantId sub.username) = [] →
    sub.usedBytesIn = 0 → sub.usedBytesOut = 0 → env.checkQuota t sub plan = none
  quotaRejects : ∀ t sub plan, ∀ d ∈ env.checkQuota t sub plan,
    d.ok = false ∧ d.reason = "quota_exhausted"
  online : ∀ t (p : Radacct → Bool), (∀ r ∈ t.rows, p r = true → r.acctStopTime.isOpen = false) →
    ∀ tenantId verified,
      env.countActiveSessions (t.delete p) tenantId verified =
        env.countActiveSessions t tenantId verified

section
variable (env : Env) (db : Db) (req : AuthRequest)

def replyTimeout : Option TimeoutValue :=
  (findLogin db req).bind fun (req, sub, _) =>
    sessionTimeout env.loads db (env.today sub) sub (planOf db req sub)

def ServedAlike (db' : Db) (card : Card) : Prop :=
  (authorize env db req).1 = (authorize env db' req).1 ∧
    (Accepted env db req → replyTimeout env db req = replyTimeout env db' req) ∧
    stamps (authorize env db req).2 card = stamps (authorize env db' req).2 card

variable (sub : Subscriber) (plan : Option AccessPlan)

def ListFull : Prop :=
  ∃ v ∈ AllowMode.judge db req.tenantId sub.username sub.planId sub.cardBatchId
    req.callingStationId, v.1.mode = .tofu ∧ v.2.deny = true

def RefusedElsewhere : Prop :=
  AntiMacClone.flag db req.tenantId "anti_mac_clone.concurrent_guard" "1" = true ∧
    (AntiMacClone.findConcurrentSessions db req.tenantId (liveDevice env db req).1).any
      (AntiMacClone.isDivergentContext · (liveDevice env db req).2) = true ∧
    lower (AntiMacClone.orDefault
      (AntiMacClone.setting db req.tenantId "anti_mac_clone.mode" "enforce") "enforce") = "enforce"

def BindingHeld : Prop :=
  (checkAntiMacClone env db sub req).1 ≠ none ∧ ¬RefusedElsewhere env db req

def dayTaken : ℤ :=
  let d := env.today sub
  min (accountedSessionSeconds db.radacct sub.tenantId sub.username (some d.since))
    (elapsedSince d.now d.since)

def otherLimit : Option ℤ :=
  cutBy (planned db (env.today sub) sub plan) (scheduleRemaining env.loads (env.today sub) sub plan)

/-- The plan has no daily limit, nothing was taken from it today, or another limit is as short as
what is left of it. -/
def TimeoutKept : Prop :=
  let cap := (plan.map AccessPlan.maxDailyMinutes).getD 0 * 60
  cap ≤ 0 ∨ dayTaken env db sub = 0 ∨
    ∃ o ∈ otherLimit env db sub plan, o ≤ cap ∧ (0 < cap - dayTaken env db sub →
      o ≤ cap - dayTaken env db sub)

def ForgetsUse : Prop :=
  env.checkBlocks sub plan req .card = none →
  (if loginWithoutPassword db req.tenantId req.username then none
    else checkPassword env.verifyChap sub req) = none →
  checkExpiryCaptive env.captive env.now sub = none → scheduleOutcome env sub plan = none →
  env.checkQuota db.radacct sub plan = none ∧
  (checkCardTimeBudget db sub.tenantId sub.username plan = none →
    checkConnectionTime db.radacct (env.today sub) sub plan = none ∧
    (checkMac sub req = none → checkRandomMac db req .card = none →
      ¬ListFull db req sub ∧
      ((checkAllowMode db sub req).1 = none →
        ¬BindingHeld env db req sub ∧
        ((checkAntiMacClone env db sub req).1 = none →
          checkProviderActiveCap env db sub req = none →
          (claimDeviceSlot env db sub plan req).1 = none ∧ TimeoutKept env db sub plan))))

end

section
variable {env : Env} {db : Db} {card : Card} {since : ℤ}

structure OldSessions (db : Db) (card : Card) (since : ℤ) : Prop where
  found : db.card card.tenantId card.username = some card
  unusedYet : card.firstUsedAt = .null
  unexpired : card.expireAt = .null
  reset : card.usageResetAt = .instant since
  closed : ∀ r ∈ db.radacct.rows, ofUser card.tenantId card.username r = true →
    r.acctStopTime.isOpen = false
  before : ∀ r ∈ db.radacct.rows, ofUser card.tenantId card.username r = true →
    r.acctStartTime.notBefore since = false

theorem card_asNew (tenantId : ℤ) (username : String) :
    (asNew db card).card tenantId username =
      (db.card tenantId username).map (asNewRow card) := by
  have hkeys : ∀ c, (neverReset c).tenantId = c.tenantId ∧ (neverReset c).username = c.username :=
    fun _ => ⟨rfl, rfl⟩
  exact db.card_updateCards tenantId hkeys username

theorem asNewRow_self (card : Card) : asNewRow card card = neverReset card := by
  simp [asNewRow, ofCardId]

theorem card_asNew_self (h : OldSessions db card since) :
    (asNew db card).card card.tenantId card.username = some (neverReset card) := by
  rw [card_asNew, h.found, Option.map_some, asNewRow_self]

theorem batchId_asNewRow (c : Card) : (asNewRow card c).batchId = c.batchId := by
  unfold asNewRow
  split_ifs <;> rfl

theorem cardAndBatch_asNew (tenantId : ℤ) (username : String) :
    cardAndBatch (asNew db card) tenantId username =
      (cardAndBatch db tenantId username).map fun cb => (asNewRow card cb.1, cb.2) := by
  rw [cardAndBatch, card_asNew, cardAndBatch]
  cases db.card tenantId username with
  | none => rfl
  | some c =>
    simp only [Option.map_some, Option.bind_some, batchId_asNewRow, Option.map_map]
    rfl

theorem ofUser_asNew {r : Radacct} (hr : r ∈ (asNew db card).radacct.rows) :
    ofUser card.tenantId card.username r = false := by
  simpa using (List.mem_filter.mp hr).2

theorem select_asNew (p : Radacct → Bool) :
    (asNew db card).radacct.select (fun r => ofUser card.tenantId card.username r && p r) = [] :=
  List.filter_eq_nil_iff.mpr fun r hr => by simp [ofUser_asNew hr]

theorem select_ofUser_asNew :
    (asNew db card).radacct.select (ofUser card.tenantId card.username) = [] := by
  simpa using @select_asNew db card fun _ => true

theorem select_since (h : OldSessions db card since) :
    (db.radacct.select fun r => ofUser card.tenantId card.username r &&
      startsSince (some since) r) = [] := by
  refine List.filter_eq_nil_iff.mpr fun r hr => ?_
  simp only [Bool.and_eq_true, not_and, Bool.not_eq_true, startsSince]
  exact h.before r hr

theorem cardResetSince_eq (h : OldSessions db card since) :
    cardResetSince db card.tenantId card.username = some since := by
  simp [cardResetSince, h.found, h.reset, Stamp.time?]

theorem accountedSeconds_zero (h : OldSessions db card since) :
    accountedSeconds db card.tenantId card.username = 0 := by
  rw [accountedSeconds, cardResetSince_eq h, select_since h]
  rfl

theorem accountedSeconds_asNew : accountedSeconds (asNew db card) card.tenantId card.username = 0 := by
  rw [accountedSeconds, select_asNew]
  rfl

theorem cardToSubscriber_asNew :
    cardToSubscriber (asNew db card) (neverReset card) =
      { cardToSubscriber db card with usedBytesIn := 0, usedBytesOut := 0 } := by
  have hnone := @select_ofUser_asNew db card
  have hbatch : (asNew db card).batch card.tenantId card.batchId =
    db.batch card.tenantId card.batchId := rfl
  simp only [cardToSubscriber, neverReset, hnone, hbatch, List.map_nil, List.sum_nil]
  rfl

theorem cardExtraSeconds_asNew (tenantId : ℤ) (username : String) :
    cardExtraSeconds (asNew db card) tenantId username = cardExtraSeconds db tenantId username := by
  rw [cardExtraSeconds, card_asNew, cardExtraSeconds]
  cases db.card tenantId username with
  | none => rfl
  | some c =>
    simp only [Option.map_some, Option.getD_some, asNewRow]
    split_ifs <;> rfl

theorem loginWithoutPassword_asNew (tenantId : ℤ) (username : String) :
    loginWithoutPassword (asNew db card) tenantId username =
      loginWithoutPassword db tenantId username := by
  rw [loginWithoutPassword, cardAndBatch_asNew, loginWithoutPassword]
  cases cardAndBatch db tenantId username <;> rfl

theorem checkCardTimeBudget_asNew (h : OldSessions db card since) (plan : Option AccessPlan) :
    checkCardTimeBudget (asNew db card) card.tenantId card.username plan =
      checkCardTimeBudget db card.tenantId card.username plan := by
  simp only [checkCardTimeBudget, cardAndBatch_asNew, cardExtraSeconds_asNew,
    accountedSeconds_zero h, accountedSeconds_asNew]
  cases cardAndBatch db card.tenantId card.username <;> rfl

def newAccount (db : Db) (card : Card) : Subscriber :=
  { cardToSubscriber db card with usedBytesIn := 0, usedBytesOut := 0 }

theorem effectiveTimeCaps_card (db : Db) (card : Card) (plan : Option AccessPlan) :
    effectiveTimeCaps (cardToSubscriber db card) plan =
      (0, (plan.map AccessPlan.maxDailyMinutes).getD 0) := rfl

theorem dailyUsedSeconds_asNew (midnight now : ℤ) :
    dailyUsedSeconds (asNew db card).radacct card.tenantId card.username midnight now ≤ 0 := by
  have hnone : (asNew db card).radacct.select (ofDay card.tenantId card.username midnight) = [] :=
    select_asNew _
  rw [dailyUsedSeconds, hnone]
  split_ifs
  · exact le_rfl
  · exact min_le_left _ _

theorem checkConnectionTime_asNew (d : Today) (plan : Option AccessPlan) :
    checkConnectionTime (asNew db card).radacct d (newAccount db card) plan = none := by
  have hcaps : effectiveTimeCaps (newAccount db card) plan =
      (0, (plan.map AccessPlan.maxDailyMinutes).getD 0) := rfl
  have hused := @dailyUsedSeconds_asNew db card d.since d.now
  simp only [checkConnectionTime, hcaps, lt_irrefl, false_and, if_false]
  refine if_neg fun hday => ?_
  have hle : (plan.map AccessPlan.maxDailyMinutes).getD 0 * 60 ≤ 0 := hday.2.trans hused
  have hpos := hday.1
  omega

theorem activeOtherDevices_old (h : OldSessions db card since) (window now : ℤ) (mac : String)
    (macAware : Bool) :
    activeOtherDevices db.radacct window now card.tenantId card.username mac macAware = [] := by
  have hnone : db.radacct.select (liveSession window now card.tenantId card.username) = [] := by
    refine List.filter_eq_nil_iff.mpr fun r hr hlive => ?_
    simp only [liveSession, Bool.and_eq_true] at hlive
    rw [h.closed r hr hlive.1.1] at hlive
    cases hlive.1.2
  rw [activeOtherDevices, hnone]
  split_ifs <;> rfl

theorem activeOtherDevices_asNew (window now : ℤ) (mac : String) (macAware : Bool) :
    activeOtherDevices (asNew db card).radacct window now card.tenantId card.username mac
      macAware = [] := by
  have hnone : (asNew db card).radacct.select
      (liveSession window now card.tenantId card.username) = [] := by
    refine List.filter_eq_nil_iff.mpr fun r hr hlive => ?_
    simp [liveSession, ofUser_asNew hr] at hlive
  rw [activeOtherDevices, hnone]
  split_ifs <;> rfl

theorem sessionsAtLimit_old (h : OldSessions db card since) (plan : Option AccessPlan)
    (req : AuthRequest) :
    sessionsAtLimit env db (cardToSubscriber db card) plan req = none := by
  have hactive := activeOtherDevices_old h env.window env.now req.callingStationId
    (effectiveLimit db (cardToSubscriber db card) plan).2
  simp only [sessionsAtLimit]
  split_ifs with hlimit hcount
  · rfl
  · rfl
  · refine absurd ?_ hcount
    have hlength : activeOtherDevices db.radacct env.window env.now
        (cardToSubscriber db card).tenantId (cardToSubscriber db card).username
        req.callingStationId (effectiveLimit db (cardToSubscriber db card) plan).2 = [] := hactive
    rw [hlength]
    simpa using hlimit

theorem sessionsAtLimit_asNew (plan : Option AccessPlan) (req : AuthRequest) :
    sessionsAtLimit env (asNew db card) (newAccount db card) plan req = none := by
  have hactive : activeOtherDevices (asNew db card).radacct env.window env.now
      (newAccount db card).tenantId (newAccount db card).username req.callingStationId
      (effectiveLimit (asNew db card) (newAccount db card) plan).2 = [] :=
    activeOtherDevices_asNew _ _ _ _
  simp only [sessionsAtLimit]
  split_ifs with hlimit hcount
  · rfl
  · rfl
  · refine absurd ?_ hcount
    rw [hactive]
    simpa using hlimit

theorem checkProviderActiveCap_asNew (henv : env.ReadsUse) (h : OldSessions db card since)
    {req : AuthRequest} (htenant : req.tenantId = card.tenantId) :
    checkProviderActiveCap env (asNew db card) (newAccount db card) req =
      checkProviderActiveCap env db (cardToSubscriber db card) req := by
  have hopen : userHasOpenSession db.radacct req.tenantId card.username = false := by
    rw [userHasOpenSession, htenant, Bool.and_eq_false_iff]
    refine .inr (List.any_eq_false.mpr fun r hr => ?_)
    simp only [Bool.and_eq_true, not_and, Bool.not_eq_true]
    intro huser
    have hclosed := h.closed r hr huser
    cases hs : r.acctStopTime <;> simp_all [Stamp.isOpen, Stamp.isNull]
  have hopenNew : userHasOpenSession (asNew db card).radacct req.tenantId card.username =
      false := by
    rw [userHasOpenSession, htenant, Bool.and_eq_false_iff]
    exact .inr (List.any_eq_false.mpr fun r hr => by simp [ofUser_asNew hr])
  have honline := henv.online db.radacct (ofUser card.tenantId card.username) h.closed req.tenantId
  simp only [checkProviderActiveCap]
  cases env.activeOnlineCap req.tenantId with
  | none => rfl
  | some cap =>
    have hname : (newAccount db card).username = card.username := rfl
    have hname' : (cardToSubscriber db card).username = card.username := rfl
    have htable : (asNew db card).radacct =
      db.radacct.delete (ofUser card.tenantId card.username) := rfl
    simp only [hname, hname', hopen, hopenNew]
    rw [htable, honline, honline]

theorem claimDeviceSlot_asNew (plan : Option AccessPlan) (req : AuthRequest) :
    (claimDeviceSlot env (asNew db card) (newAccount db card) plan req).1 = none := by
  have hactive : ∀ macAware, activeOtherDevices (asNew db card).radacct env.window env.now
      (newAccount db card).tenantId (newAccount db card).username req.callingStationId
      macAware = [] := fun _ => activeOtherDevices_asNew _ _ _ _
  have hpending : ∀ macAware, pendingClaims ((asNew db card).claims.filter fun c =>
      !expired env.now c) (asNew db card).radacct env.window env.now (newAccount db card).tenantId
      (newAccount db card).username req.callingStationId macAware = [] := by
    intro macAware
    have hnone : (((asNew db card).claims.filter fun c => !expired env.now c).filter fun c =>
        c.tenantId = (newAccount db card).tenantId && c.username = (newAccount db card).username &&
          c.deviceKey ≠ deviceKey req.callingStationId) = [] := by
      refine List.filter_eq_nil_iff.mpr fun c hc hmine => ?_
      have hother := (List.mem_filter.mp (List.mem_filter.mp hc).1).2
      simp only [Bool.and_eq_true, decide_eq_true_eq] at hmine
      simp only [Bool.not_eq_true', Bool.and_eq_false_iff, decide_eq_false_iff_not] at hother
      exact hother.elim (· hmine.1.1) (· hmine.1.2)
    simp only [pendingClaims, hnone]
    rfl
  have hgranted : ∀ limit macAware replace, ¬limit ≤ 0 →
      (claimSlot (asNew db card).claims (asNew db card).radacct env.window env.now
        (newAccount db card).tenantId (newAccount db card).username
        ⟨req.callingStationId, req.simulate⟩ limit macAware replace).1 = true := by
    intro limit macAware replace hlimit
    have hfree : ¬limit ≤ ((0 : ℕ) : ℤ) + ((0 : ℕ) : ℤ) := by simpa using hlimit
    simp only [claimSlot, hactive, hpending, if_neg hlimit, List.length_nil, hfree, decide_false,
      Bool.false_and, Bool.false_eq_true, if_false]
    split_ifs <;> rfl
  simp only [claimDeviceSlot]
  split_ifs with hlimit hgrant
  · rfl
  · rfl
  · exact absurd (hgranted _ _ _ hlimit) hgrant

theorem checkAllowMode_fst (db : Db) (sub : Subscriber) (req : AuthRequest) :
    (checkAllowMode db sub req).1 =
      (AllowMode.judge db req.tenantId sub.username sub.planId sub.cardBatchId
        req.callingStationId).bind fun v =>
          if v.2.deny then some (denial v.2.reason.code v.2.message) else none := by
  simp only [checkAllowMode, AllowMode.evaluate]
  cases AllowMode.judge db req.tenantId sub.username sub.planId sub.cardBatchId
    req.callingStationId <;> rfl

def judged (db : Db) (card : Card) (mac : String) : Option (AllowPolicy × AllowMode.Verdict) :=
  AllowMode.judge db card.tenantId card.username card.planId (some card.batchId) mac

theorem judged_asNew (hname : card.username ≠ "") (mac : String) :
    (∀ v ∈ judged db card mac, v.1.mode ≠ .tofu) ∧
        judged (asNew db card) card mac = judged db card mac ∨
      (∀ v ∈ judged db card mac, v.1.mode = .tofu) ∧
        ∀ v ∈ judged (asNew db card) card mac, v.2.deny = false := by
  have hresolve : AllowMode.resolvePolicy (asNew db card) card.tenantId (some card.batchId)
      card.planId = AllowMode.resolvePolicy db card.tenantId (some card.batchId) card.planId := rfl
  simp only [judged, AllowMode.judge, hresolve]
  cases hpolicy : AllowMode.resolvePolicy db card.tenantId (some card.batchId) card.planId with
  | none =>
    left
    simp
  | some policy =>
    by_cases htofu : policy.mode = .tofu
    · have hcount : AllowMode.countDevices (asNew db card) policy.id card.username = 0 := by
        refine List.countP_eq_zero.mpr fun d hd => ?_
        have hkept := (List.mem_filter.mp hd).2
        simp only [takenIn, hpolicy, Option.any_some, htofu, decide_true, Bool.true_and,
          Bool.not_eq_true', Bool.and_eq_false_iff, decide_eq_false_iff_not] at hkept
        simpa [hname] using fun hid => hkept.resolve_left (not_not.mpr hid)
      have hroom : ¬(0 < policy.maxDevices ∧
          policy.maxDevices ≤ (AllowMode.countDevices (asNew db card) policy.id card.username)) := by
        rw [hcount]
        omega
      refine .inr ⟨fun v hv => ?_, fun v hv => ?_⟩
      · obtain rfl := Option.some.inj hv
        exact htofu
      · obtain rfl := Option.some.inj hv
        simp only [if_pos htofu, if_neg hroom]
        split_ifs <;> rfl
    · have hdevices : (asNew db card).allowDevices = db.allowDevices := by
        refine List.filter_eq_self.mpr fun d _ => ?_
        simp [takenIn, hpolicy, htofu]
      have hmatch : ∀ id username m, AllowMode.findDeviceMatch (asNew db card) id username m =
          AllowMode.findDeviceMatch db id username m := fun id username m => by
        rw [AllowMode.findDeviceMatch, hdevices, AllowMode.findDeviceMatch]
      have hcount : ∀ id username, AllowMode.countDevices (asNew db card) id username =
          AllowMode.countDevices db id username := fun id username => by
        rw [AllowMode.countDevices, hdevices, AllowMode.countDevices]
      refine .inl ⟨fun v hv => ?_, ?_⟩
      · obtain rfl := Option.some.inj hv
        exact htofu
      · simp only [hmatch, hcount]

theorem checkAllowMode_asNew (hname : card.username ≠ "") {req : AuthRequest}
    (htenant : req.tenantId = card.tenantId) :
    (checkAllowMode db (cardToSubscriber db card) req).1 =
        (checkAllowMode (asNew db card) (newAccount db card) req).1 ∧
          ¬ListFull db req (cardToSubscriber db card) ∨
      (checkAllowMode (asNew db card) (newAccount db card) req).1 = none ∧
        ((checkAllowMode db (cardToSubscriber db card) req).1 = none ↔
          ¬ListFull db req (cardToSubscriber db card)) := by
  have hold : AllowMode.judge db card.tenantId (cardToSubscriber db card).username
      (cardToSubscriber db card).planId (cardToSubscriber db card).cardBatchId
      req.callingStationId = judged db card req.callingStationId := rfl
  have hnew : AllowMode.judge (asNew db card) card.tenantId (newAccount db card).username
      (newAccount db card).planId (newAccount db card).cardBatchId req.callingStationId =
      judged (asNew db card) card req.callingStationId := rfl
  simp only [checkAllowMode_fst, ListFull, htenant, hold, hnew]
  rcases @judged_asNew db card hname req.callingStationId with ⟨hmode, hsame⟩ | ⟨hmode, hopen⟩
  · refine .inl ⟨by rw [hsame], ?_⟩
    rintro ⟨v, hv, htofu, -⟩
    exact hmode v hv htofu
  · refine .inr ⟨Option.bind_eq_none_iff.mpr fun v hv => by simp [hopen v hv], ?_⟩
    rw [Option.bind_eq_none_iff]
    constructor
    · rintro hnone ⟨v, hv, -, hdeny⟩
      simpa [hdeny] using hnone v hv
    · intro hfull v hv
      refine if_neg fun hdeny => hfull ⟨v, hv, hmode v hv, hdeny⟩

theorem findConcurrentSessions_asNew (h : OldSessions db card since) (tenantId : ℤ)
    (mac : String) :
    AntiMacClone.findConcurrentSessions (asNew db card) tenantId mac =
      AntiMacClone.findConcurrentSessions db tenantId mac := by
  refine Table.select_delete_of_disjoint _ _ _ fun r hr => ?_
  obtain ⟨hrow, hlive⟩ := Table.mem_select.mp hr
  simp only [Bool.and_eq_true] at hlive
  by_contra huser
  have hclosed := h.closed r hrow (by simpa using huser)
  cases hs : r.acctStopTime <;> simp_all [Stamp.isOpen, Stamp.isNull]

theorem getBinding_asNew (mac : String) :
    AntiMacClone.getBinding (asNew db card).cloneBindings card.tenantId card.username mac =
      none := by
  unfold AntiMacClone.getBinding
  split_ifs
  · rfl
  · refine List.find?_eq_none.mpr fun b hb hmine => ?_
    have hother := (List.mem_filter.mp hb).2
    simp only [AntiMacClone.ofBinding, Bool.and_eq_true] at hmine
    simp [hmine.1.1, hmine.1.2] at hother

def refusal (v : Option AntiMacClone.Verdict) : Option AuthDecision :=
  v.bind fun v => if v.action = .deny then some (denial (cloneReason v.reason) v.message) else none

section
variable {db db' : Db} (h : db.settings = db'.settings)
include h

theorem setting_congr : AntiMacClone.setting db = AntiMacClone.setting db' := by
  funext tenantId key default
  rw [AntiMacClone.setting, Db.setting, h, AntiMacClone.setting, Db.setting]

theorem flag_congr : AntiMacClone.flag db = AntiMacClone.flag db' := by
  funext tenantId key default
  rw [AntiMacClone.flag, setting_congr h, AntiMacClone.flag]

theorem scopeApplies_congr : AntiMacClone.scopeApplies db = AntiMacClone.scopeApplies db' := by
  funext tenantId planId group
  simp only [AntiMacClone.scopeApplies, setting_congr h]

end

theorem cloneVerdict_eq (db : Db) (sub : Subscriber) (req : AuthRequest) :
    cloneVerdict env db sub req = AntiMacClone.evaluate env.sha256 db env.now req.tenantId
      sub.username sub.planId sub.group (liveDevice env db req).1 (liveDevice env db req).2 := by
  rw [cloneVerdict]

theorem checkAntiMacClone_fst (db : Db) (sub : Subscriber) (req : AuthRequest) :
    (checkAntiMacClone env db sub req).1 =
      refusal (AntiMacClone.evaluate env.sha256 db env.now req.tenantId sub.username sub.planId
        sub.group (liveDevice env db req).1 (liveDevice env db req).2) := by
  rw [← cloneVerdict_eq]
  unfold checkAntiMacClone refusal
  cases cloneVerdict env db sub req <;> rfl

theorem evaluate_congr (db db' : Db) (hsettings : db.settings = db'.settings)
    (hradacct : db.radacct = db'.radacct) (hbindings : db.cloneBindings = db'.cloneBindings)
    (hevents : db.cloneEvents = db'.cloneEvents) (sha256 : String → String) :
    AntiMacClone.evaluate sha256 db = AntiMacClone.evaluate sha256 db' := by
  have hsetting := setting_congr hsettings
  have hflag := flag_congr hsettings
  have henabled : AntiMacClone.isEnabled db = AntiMacClone.isEnabled db' := by
    funext tenantId
    rw [AntiMacClone.isEnabled, hflag, AntiMacClone.isEnabled]
  have hscope := scopeApplies_congr hsettings
  have hmin : AntiMacClone.confidenceMin db = AntiMacClone.confidenceMin db' := by
    funext tenantId
    simp only [AntiMacClone.confidenceMin, hsetting]
  have hwindow : AntiMacClone.stepupWindowSec db = AntiMacClone.stepupWindowSec db' := by
    funext tenantId
    simp only [AntiMacClone.stepupWindowSec, hsetting]
  have hsessions : AntiMacClone.findConcurrentSessions db =
      AntiMacClone.findConcurrentSessions db' := by
    funext tenantId mac
    rw [AntiMacClone.findConcurrentSessions, hradacct, AntiMacClone.findConcurrentSessions]
  have hpending : AntiMacClone.hasRecentStepupPending db =
      AntiMacClone.hasRecentStepupPending db' := by
    funext now tenantId username mac liveHash windowSec
    rw [AntiMacClone.hasRecentStepupPending, hevents, AntiMacClone.hasRecentStepupPending]
  funext now tenantId username planId group mac live
  simp only [AntiMacClone.evaluate, henabled, hscope, hsetting, hflag, hsessions, hbindings, hmin,
    hwindow, hpending]

theorem liveDevice_congr {db db' : Db} (h : db.deviceFingerprints = db'.deviceFingerprints)
    (req : AuthRequest) : liveDevice env db req = liveDevice env db' req := by
  rw [liveDevice, AntiMacClone.buildFingerprint, h, liveDevice, AntiMacClone.buildFingerprint]

theorem refusal_unbound {sha256 : String → String} {db : Db} {now tenantId : ℤ}
    {username group mac : String} {planId : Option ℕ} {live : Fingerprint}
    (hfree : AntiMacClone.getBinding db.cloneBindings tenantId username mac = none)
    (h : ¬(AntiMacClone.flag db tenantId "anti_mac_clone.concurrent_guard" "1" = true ∧
      (AntiMacClone.findConcurrentSessions db tenantId mac).any
        (AntiMacClone.isDivergentContext · live) = true ∧
      lower (AntiMacClone.orDefault
        (AntiMacClone.setting db tenantId "anti_mac_clone.mode" "enforce") "enforce") =
          "enforce")) :
    refusal (AntiMacClone.evaluate sha256 db now tenantId username planId group mac live) =
      none := by
  unfold AntiMacClone.evaluate
  rw [hfree]
  split
  · rfl
  · simp only
    split_ifs with hconcurrent hmode
    · exact absurd ⟨(Bool.and_eq_true_iff.mp hconcurrent).1,
        (Bool.and_eq_true_iff.mp hconcurrent).2, hmode⟩ h
    · rfl
    · rfl

theorem refusal_elsewhere {sha256 : String → String} {db : Db} {now tenantId : ℤ}
    {username group mac : String} {planId : Option ℕ} {live : Fingerprint}
    (hguard : AntiMacClone.flag db tenantId "anti_mac_clone.concurrent_guard" "1" = true)
    (hlive : (AntiMacClone.findConcurrentSessions db tenantId mac).any
      (AntiMacClone.isDivergentContext · live) = true)
    (hmode : lower (AntiMacClone.orDefault
      (AntiMacClone.setting db tenantId "anti_mac_clone.mode" "enforce") "enforce") = "enforce") :
    refusal (AntiMacClone.evaluate sha256 db now tenantId username planId group mac live) =
      if !AntiMacClone.isEnabled db tenantId || !AntiMacClone.scopeApplies db tenantId planId group ||
        mac = "" then none else some (denial "mac_clone_detected" AntiMacClone.msgClone) := by
  unfold AntiMacClone.evaluate
  simp only [hguard, hlive, hmode, Bool.and_self, if_true]
  split
  · rfl
  · cases AntiMacClone.getBinding db.cloneBindings tenantId username mac with
    | none => rfl
    | some binding =>
      have hmonitor : decide ("enforce" ≠ "monitor") = true := by decide
      simp only [Bool.not_true, Bool.and_false, hmonitor, Bool.true_and, if_true,
        Bool.false_eq_true, if_false]
      rfl

theorem refusal_asNew (h : OldSessions db card since) (sha256 : String → String) (now : ℤ)
    (planId : Option ℕ) (group mac : String) (live : Fingerprint) :
    refusal (AntiMacClone.evaluate sha256 (asNew db card) now card.tenantId card.username planId
        group mac live) =
      if AntiMacClone.flag db card.tenantId "anti_mac_clone.concurrent_guard" "1" = true ∧
          (AntiMacClone.findConcurrentSessions db card.tenantId mac).any
            (AntiMacClone.isDivergentContext · live) = true ∧
          lower (AntiMacClone.orDefault
            (AntiMacClone.setting db card.tenantId "anti_mac_clone.mode" "enforce") "enforce") =
              "enforce" then
        refusal (AntiMacClone.evaluate sha256 db now card.tenantId card.username planId group mac
          live)
      else none := by
  have hsessions := findConcurrentSessions_asNew h card.tenantId mac
  have hsettings : (asNew db card).settings = db.settings := rfl
  have hsetting := setting_congr hsettings
  have hflag := flag_congr hsettings
  have henabled : AntiMacClone.isEnabled (asNew db card) = AntiMacClone.isEnabled db := by
    funext tenantId
    rw [AntiMacClone.isEnabled, hflag, AntiMacClone.isEnabled]
  have hscope := scopeApplies_congr hsettings
  by_cases helsewhere : AntiMacClone.flag db card.tenantId "anti_mac_clone.concurrent_guard" "1" =
      true ∧ (AntiMacClone.findConcurrentSessions db card.tenantId mac).any
        (AntiMacClone.isDivergentContext · live) = true ∧
      lower (AntiMacClone.orDefault
        (AntiMacClone.setting db card.tenantId "anti_mac_clone.mode" "enforce") "enforce") =
          "enforce"
  · obtain ⟨hguard, hdivergent, hmode⟩ := helsewhere
    rw [if_pos ⟨hguard, hdivergent, hmode⟩, refusal_elsewhere hguard hdivergent hmode,
      ← henabled, ← hscope]
    rw [← hflag] at hguard
    rw [← hsessions] at hdivergent
    rw [← hsetting] at hmode
    exact refusal_elsewhere hguard hdivergent hmode
  · rw [if_neg helsewhere]
    rw [← hflag, ← hsessions, ← hsetting] at helsewhere
    exact refusal_unbound (getBinding_asNew mac) helsewhere

theorem checkAntiMacClone_asNew (h : OldSessions db card since) {req : AuthRequest}
    (htenant : req.tenantId = card.tenantId) :
    (checkAntiMacClone env db (cardToSubscriber db card) req).1 =
        (checkAntiMacClone env (asNew db card) (newAccount db card) req).1 ∧
          ¬BindingHeld env db req (cardToSubscriber db card) ∨
      (checkAntiMacClone env (asNew db card) (newAccount db card) req).1 = none ∧
        ((checkAntiMacClone env db (cardToSubscriber db card) req).1 = none ↔
          ¬BindingHeld env db req (cardToSubscriber db card)) := by
  have hlive : liveDevice env (asNew db card) req = liveDevice env db req := liveDevice_congr rfl req
  have hname : (cardToSubscriber db card).username = card.username := rfl
  have hnameNew : (newAccount db card).username = card.username := rfl
  have hplan : (newAccount db card).planId = (cardToSubscriber db card).planId := rfl
  have hgroup : (newAccount db card).group = (cardToSubscriber db card).group := rfl
  rw [BindingHeld, checkAntiMacClone_fst, checkAntiMacClone_fst, hlive, hname, hnameNew, hplan,
    hgroup, htenant, refusal_asNew h]
  by_cases helsewhere : RefusedElsewhere env db req
  · refine .inl ⟨?_, fun hheld => hheld.2 helsewhere⟩
    rw [RefusedElsewhere, htenant] at helsewhere
    rw [if_pos helsewhere]
  · refine .inr ⟨?_, by simp [helsewhere]⟩
    rw [RefusedElsewhere, htenant] at helsewhere
    rw [if_neg helsewhere]

end

section
variable (env : Env) (db : Db) (req : AuthRequest) (sub : Subscriber) (plan : Option AccessPlan)

def firstAnswers : List (Option Outcome) := (readingGates env req sub plan .card).map (· db)

def lastAnswers : List (Option Outcome) :=
  [(checkAllowMode db sub req).1.map .ok, (checkAntiMacClone env db sub req).1.map .ok, none,
    (checkProviderActiveCap env db sub req).map .ok, (claimDeviceSlot env db sub plan req).1.map .ok]

def answers : List (Option Outcome) :=
  firstAnswers env db req sub plan ++ lastAnswers env db req sub plan

/-- The tables that the gates for devices write are left out. -/
def rest : Db :=
  { db with allowDevices := [], cloneBindings := [], cloneEvents := [], claims := [] }

end

section
variable {env : Env} {db db' : Db} {req : AuthRequest} {sub : Subscriber} {plan : Option AccessPlan}

theorem sessionsAtLimit_congr (hsettings : db.settings = db'.settings)
    (hradacct : db.radacct = db'.radacct) :
    sessionsAtLimit env db sub plan req = sessionsAtLimit env db' sub plan req := by
  simp only [sessionsAtLimit, effectiveLimit_congr hsettings, hradacct]

theorem claimDeviceSlot_fst_congr (hsettings : db.settings = db'.settings)
    (hradacct : db.radacct = db'.radacct) (hclaims : db.claims = db'.claims) :
    (claimDeviceSlot env db sub plan req).1 = (claimDeviceSlot env db' sub plan req).1 := by
  simp only [claimDeviceSlot, effectiveLimit_congr hsettings, effectiveMode_congr hsettings,
    hradacct, hclaims]
  split_ifs <;> rfl

theorem checkAntiMacClone_fst_allowDevices (ds : List AllowDevice) :
    (checkAntiMacClone env { db with allowDevices := ds } sub req).1 =
      (checkAntiMacClone env db sub req).1 := by
  have hlive : liveDevice env { db with allowDevices := ds } req = liveDevice env db req :=
    liveDevice_congr rfl req
  have hevaluate : AntiMacClone.evaluate env.sha256 { db with allowDevices := ds } =
      AntiMacClone.evaluate env.sha256 db :=
    evaluate_congr { db with allowDevices := ds } db rfl rfl rfl rfl env.sha256
  rw [checkAntiMacClone_fst, checkAntiMacClone_fst, hlive, hevaluate]

theorem run_readingGates : Gate.run ((readingGates env req sub plan .card).map .read) db =
    ((firstAnswers env db req sub plan).findSome? id, db) := by
  rw [Gate.run_read, firstAnswers, List.findSome?_map]
  rfl

theorem cloneGate_answer :
    (cloneGate env req sub db).1 = (checkAntiMacClone env db sub req).1.map .ok := by
  rw [cloneGate, outcome]

theorem slotGate_answer :
    (slotGate env req sub plan db).1 = (claimDeviceSlot env db sub plan req).1.map .ok := by
  rw [slotGate, outcome]

theorem concurrentGate_free (hfree : sessionsAtLimit env db sub plan req = none) :
    concurrentGate env req sub plan db = (none, db) := by
  rw [concurrentGate, outcome, checkConcurrent, hfree]
  rfl

theorem run_writingGates_fst (hfree : sessionsAtLimit env db sub plan req = none) :
    (Gate.run (writingGates env req sub plan) db).1 =
      (lastAnswers env db req sub plan).findSome? id := by
  have hallow : (allowGate req sub db).1 = (checkAllowMode db sub req).1.map .ok := rfl
  have hclone : (cloneGate env req sub (allowGate req sub db).2).1 =
      (checkAntiMacClone env db sub req).1.map .ok := by
    obtain ⟨ds, hds⟩ := checkAllowMode_db db sub req
    rw [allowGate_snd, hds, cloneGate_answer, checkAntiMacClone_fst_allowDevices]
  have hkept : ∀ {ω : Type} (obs : Db → ω), (∀ db ds, obs { db with allowDevices := ds } = obs db) →
      (∀ db bs es, obs { db with cloneBindings := bs, cloneEvents := es } = obs db) →
      obs (cloneGate env req sub (allowGate req sub db).2).2 = obs db := fun obs hds hbs =>
    (cloneGate_keeps obs env req sub hbs _).trans (allowGate_keeps obs hds db)
  have hsettings := hkept Db.settings (fun _ _ => rfl) fun _ _ _ => rfl
  have hradacct := hkept Db.radacct (fun _ _ => rfl) fun _ _ _ => rfl
  have hclaims := hkept Db.claims (fun _ _ => rfl) fun _ _ _ => rfl
  generalize htable : (cloneGate env req sub (allowGate req sub db).2).2 = t
    at hsettings hradacct hclaims
  have hconcurrent := concurrentGate_free ((sessionsAtLimit_congr hsettings hradacct).trans hfree)
  have hcap : (capGate env req sub t).1 = (checkProviderActiveCap env db sub req).map .ok := by
    rw [capGate, Gate.read, checkProviderActiveCap, hradacct, checkProviderActiveCap]
  have hcapDb : (capGate env req sub t).2 = t := rfl
  have hslot : (slotGate env req sub plan t).1 =
      (claimDeviceSlot env db sub plan req).1.map .ok := by
    rw [slotGate_answer, claimDeviceSlot_fst_congr hsettings hradacct hclaims]
  simp only [writingGates, Gate.run_cons_fst, hallow, hclone, htable, hconcurrent, hcap, hcapDb,
    hslot, Gate.run_nil]
  simp only [lastAnswers, Gate.findSome?_id_cons, List.findSome?_nil]

end

end RadiusModule.PolicyEngine
