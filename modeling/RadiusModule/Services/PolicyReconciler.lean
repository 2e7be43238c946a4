import RadiusModule.Services.PolicyEngine.Authorize
import RadiusModule.Services.PolicyEngine.Quota
import RadiusModule.Services.QuotaConservation

/-!
# The reconciler of live sessions

After a save the live sessions are checked against the rules again, with a
lookup of its own and most of the gates of `authorize`. The lookup knows
neither the lower-case names of cards nor archived plans, and no card is
renewed before its gates.
-/

namespace RadiusModule.PolicyReconciler
open Library PyText CardBatchFlags DeviceLimit PolicyEngine

/-- What a block is matched against. The service type is that of the plan that was found, and
else of the account. -/
structure AuthContext where
  source : Source
  username : String
  group : String
  planId : Option ℕ
  cardBatchId : Option ℕ
  servicePlan : Option ℕ
  nasIp : String
  mac : String

/-- What the gates read beside the database: the blocks in effect, and for each account the wall
clock and the quota tables. -/
structure Surroundings where
  base : Env
  activeBlock : ℤ → AuthContext → Option AuthDecision
  today : ℤ → String → Today
  quota : ℤ → String → QuotaReads

def Surroundings.checkBlocks (w : Surroundings) (sub : Subscriber) (plan : Option AccessPlan)
    (req : AuthRequest) (source : Source) : Option AuthDecision :=
  w.activeBlock req.tenantId
    { source := source
      username := sub.username
      group := sub.group
      planId := sub.planId
      cardBatchId := sub.cardBatchId
      servicePlan := plan.map AccessPlan.id
      nasIp := req.nasIp
      mac := req.callingStationId }

/-- The surroundings of the gates on the database `db`. -/
def Surroundings.env (w : Surroundings) (db : Db) : Env :=
  { w.base with
    today := fun sub => w.today sub.tenantId sub.username
    checkBlocks := w.checkBlocks
    checkQuota := fun t sub plan =>
      checkQuota (w.quota sub.tenantId sub.username) sub plan { db with radacct := t } }

def resolve (db : Db) (tenantId : ℤ) (username : String) :
    Option (Subscriber × Option AccessPlan × Source) :=
  let card := (db.card tenantId username).map (cardToSubscriber db)
  let found : Option (Subscriber × Source) :=
    match db.subscriber tenantId username false with
    | some sub =>
      if isCard sub then
        match card with
        | some sub => some (sub, .card)
        | none => some (sub, .subscriber)
      else some (sub, .subscriber)
    | none => card.map fun sub => (sub, .card)
  found.map fun (sub, source) =>
    (sub, sub.planId.bind fun id => db.plan tenantId id false, source)

def checkStatus (sub : Subscriber) : Option AuthDecision :=
  if sub.status = "enabled" then none
  else if sub.status = "expired" then some (reject "expired")
  else some (reject "disabled")

/-- A check that raises is left out. -/
def unlessRaised (bad : Except AccessSchedule.ScheduleError (Option AuthDecision)) :
    Option AuthDecision :=
  match bad with
  | .ok bad => bad
  | .error _ => none

/-- The checks, with the label that stands for an empty reason. -/
def checks (w : Surroundings) (db : Db) (req : AuthRequest) (sub : Subscriber)
    (plan : Option AccessPlan) (source : Source) : List (String × Option AuthDecision) :=
  let env := w.env db
  [("blocks", env.checkBlocks sub plan req source),
    ("status", checkStatus sub),
    ("expiry", checkExpiryCaptive env.captive env.now sub),
    ("schedule", unlessRaised (checkSchedule env.loads sub plan (env.today sub).localNow)),
    ("quota", env.checkQuota db.radacct sub plan),
    ("card_time", (checkCardTimeBudget db sub.tenantId sub.username plan).map fun _ =>
      reject "card_time_exhausted"),
    ("conn_time", checkConnectionTime db.radacct (env.today sub) sub plan),
    ("mac", checkMac sub req)]

/-- `check_session_compliance` of a row of the tenant. -/
def checkSessionCompliance (w : Surroundings) (db : Db) (row : Radacct) : Option String :=
  let username := strip row.username
  if username = "" then none
  else
    match resolve db row.tenantId username with
    | none => some "user_deleted"
    | some (sub, plan, source) =>
      let req : AuthRequest :=
        { username := username
          tenantId := row.tenantId
          nasIp := row.nasIpAddress
          callingStationId := row.callingStationId }
      (checks w db req sub plan source).findSome? fun (label, bad) =>
        bad.map fun decision => if decision.reason = "" then label else decision.reason

def loginRequest (row : Radacct) (password : String) : AuthRequest :=
  { username := row.username
    password := password
    tenantId := row.tenantId
    nasIp := row.nasIpAddress
    callingStationId := row.callingStationId }

/-- The gates that are compared, in the order of `authorize`. -/
def gatesOf (env : Env) (req : AuthRequest) (sub : Subscriber) (plan : Option AccessPlan)
    (source : Source) : List (Db → Option Outcome) :=
  [fun _ => (env.checkBlocks sub plan req source).map .ok,
    fun _ => (checkExpiryCaptive env.captive env.now sub).map .ok,
    fun _ => scheduleOutcome env sub plan,
    fun db => (env.checkQuota db.radacct sub plan).map .ok,
    fun db => (checkCardTimeBudget db sub.tenantId sub.username plan).map fun _ =>
      .ok (reject "card_time_exhausted"),
    fun db => (checkConnectionTime db.radacct (env.today sub) sub plan).map .ok,
    fun _ => (checkMac sub req).map .ok]

theorem readingGates_eq (env : Env) (req : AuthRequest) (sub : Subscriber)
    (plan : Option AccessPlan) (source : Source) :
    ((readingGates env req sub plan source).eraseIdx 8).eraseIdx 1 =
      gatesOf env req sub plan source := rfl

/-- With the right password and an address of the device's own, the reading gates of `authorize`
stop a login exactly when one of these does. -/
theorem readingGates_stop_iff {env : Env} {req : AuthRequest} {sub : Subscriber}
    {plan : Option AccessPlan} {source : Source} {db : Db}
    (hpassword : loginWithoutPassword db req.tenantId req.username = true ∨
      checkPassword env.verifyChap sub req = none)
    (hrandom : checkRandomMac db req source = none) :
    (Gate.run ((readingGates env req sub plan source).map .read) db).1 ≠ none ↔
      ∃ gate ∈ gatesOf env req sub plan source, gate db ≠ none := by
  have hpass : (if loginWithoutPassword db req.tenantId req.username then none
      else (checkPassword env.verifyChap sub req).map Except.ok) = (none : Option Outcome) := by
    obtain hfree | hright := hpassword
    · rw [if_pos hfree]
    · rw [hright, Option.map_none, ite_self]
  rw [Gate.run_read, ← Option.isSome_iff_ne_none, List.findSome?_isSome_iff, readingGates, gatesOf]
  simp only [List.exists_mem_cons_iff, List.not_mem_nil, false_and, exists_false, or_false,
    Option.isSome_iff_ne_none, hpass, hrandom, Option.map_none, ne_eq, not_true_eq_false, false_or]

/-- `authorize` is stopped by the lookup or by one of these gates. -/
def LoginStopped (w : Surroundings) (db : Db) (req : AuthRequest) : Prop :=
  req.username = "" ∨
    match findLogin db req with
    | none => True
    | some (req, sub, source) =>
      let (renewed, account) := maybeAutoRenew db w.base.now sub source
      ∃ gate ∈ gatesOf (w.env renewed) req account (planOf db req sub) source,
        gate renewed ≠ none

def Ended (w : Surroundings) (sub : Subscriber) : Prop :=
  checkExpiryCaptive w.base.captive w.base.now sub ≠ none

/-- The schedule of the plan cannot be read, so the gate raises. -/
def Raises (w : Surroundings) (sub : Subscriber) (plan : Option AccessPlan) : Prop :=
  ∃ e, checkSchedule w.base.loads sub plan (w.today sub.tenantId sub.username).localNow = .error e

def ScheduleStops (w : Surroundings) (sub : Subscriber) (plan : Option AccessPlan) : Prop :=
  ∃ bad, checkSchedule w.base.loads sub plan (w.today sub.tenantId sub.username).localNow =
    .ok (some bad)

def Stops (w : Surroundings) (db : Db) (req : AuthRequest) (sub : Subscriber)
    (plan : Option AccessPlan) (source : Source) : Prop :=
  w.checkBlocks sub plan req source ≠ none ∨
    ScheduleStops w sub plan ∨
    checkQuota (w.quota sub.tenantId sub.username) sub plan db ≠ none ∨
    checkCardTimeBudget db sub.tenantId sub.username plan ≠ none ∨
    checkConnectionTime db.radacct (w.today sub.tenantId sub.username) sub plan ≠ none ∨
    checkMac sub req ≠ none

section
variable {w : Surroundings} {db : Db} {req : AuthRequest} {sub : Subscriber}
  {plan : Option AccessPlan} {source : Source}

theorem checkStatus_ended (h : checkStatus sub ≠ none) : Ended w sub := by
  unfold checkStatus at h
  unfold Ended checkExpiryCaptive
  by_cases henabled : sub.status = "enabled"
  · simp [henabled] at h
  · by_cases hexpired : sub.status = "expired"
    · simp only [hexpired]
      cases w.base.captive <;> simp
    · simp [henabled, hexpired]

theorem schedule_stops_iff : scheduleOutcome (w.env db) sub plan ≠ none ↔
    ScheduleStops w sub plan ∨ Raises w sub plan := by
  simp only [scheduleOutcome, Raises, ScheduleStops, Surroundings.env]
  cases checkSchedule w.base.loads sub plan (w.today sub.tenantId sub.username).localNow with
  | error e => simp
  | ok bad => cases bad <;> simp

theorem unlessRaised_stops_iff : unlessRaised (checkSchedule w.base.loads sub plan
    (w.today sub.tenantId sub.username).localNow) ≠ none ↔ ScheduleStops w sub plan := by
  simp only [ScheduleStops]
  cases checkSchedule w.base.loads sub plan (w.today sub.tenantId sub.username).localNow with
  | error e => simp [unlessRaised]
  | ok bad => cases bad <;> simp [unlessRaised]

theorem gatesOf_stop_iff :
    (∃ gate ∈ gatesOf (w.env db) req sub plan source, gate db ≠ none) ↔
      Ended w sub ∨ Stops w db req sub plan source ∨ Raises w sub plan := by
  have hblocks : ((w.env db).checkBlocks sub plan req source).map Except.ok ≠
      (none : Option Outcome) ↔ w.checkBlocks sub plan req source ≠ none :=
    not_congr Option.map_eq_none_iff
  have hended : (checkExpiryCaptive (w.env db).captive (w.env db).now sub).map Except.ok ≠
      (none : Option Outcome) ↔ Ended w sub := not_congr Option.map_eq_none_iff
  have hquota : ((w.env db).checkQuota db.radacct sub plan).map Except.ok ≠
      (none : Option Outcome) ↔ checkQuota (w.quota sub.tenantId sub.username) sub plan db ≠ none :=
    not_congr Option.map_eq_none_iff
  have hbudget : ((checkCardTimeBudget db sub.tenantId sub.username plan).map fun _ =>
      Except.ok (reject "card_time_exhausted")) ≠ (none : Option Outcome) ↔
      checkCardTimeBudget db sub.tenantId sub.username plan ≠ none :=
    not_congr Option.map_eq_none_iff
  have htime : (checkConnectionTime db.radacct ((w.env db).today sub) sub plan).map Except.ok ≠
      (none : Option Outcome) ↔
      checkConnectionTime db.radacct (w.today sub.tenantId sub.username) sub plan ≠ none :=
    not_congr Option.map_eq_none_iff
  have hmac : (checkMac sub req).map Except.ok ≠ (none : Option Outcome) ↔ checkMac sub req ≠ none :=
    not_congr Option.map_eq_none_iff
  rw [gatesOf]
  simp only [List.exists_mem_cons_iff, List.not_mem_nil, false_and, exists_false, or_false]
  rw [hblocks, hended, schedule_stops_iff, hquota, hbudget, htime, hmac, Stops]
  exact iff_of_eq (by ac_rfl)

theorem checks_evict_iff :
    ((checks w db req sub plan source).findSome? fun (label, bad) =>
      bad.map fun decision =>
        if decision.reason = "" then label else decision.reason).isSome = true ↔
      Ended w sub ∨ Stops w db req sub plan source := by
  have hstatus : ∀ p : Prop, (checkStatus sub ≠ none ∨ Ended w sub ∨ p) ↔ Ended w sub ∨ p := by
    intro p
    rw [← or_assoc, or_iff_right_of_imp checkStatus_ended]
  have hbudget : ((checkCardTimeBudget db sub.tenantId sub.username plan).map fun _ =>
      reject "card_time_exhausted") ≠ none ↔
      checkCardTimeBudget db sub.tenantId sub.username plan ≠ none :=
    not_congr Option.map_eq_none_iff
  have hschedule : unlessRaised (checkSchedule w.base.loads sub plan
      (w.today sub.tenantId sub.username).localNow) ≠ none ↔ ScheduleStops w sub plan :=
    unlessRaised_stops_iff
  have hfound : ∀ l : List (String × Option AuthDecision),
      (l.findSome? fun (label, bad) => bad.map fun decision =>
        if decision.reason = "" then label else decision.reason).isSome = true ↔
      ∃ check ∈ l, check.2 ≠ none := by
    intro l
    rw [List.findSome?_isSome_iff]
    refine exists_congr fun check => and_congr_right fun _ => ?_
    rw [Option.isSome_map, Option.isSome_iff_ne_none]
  rw [hfound, checks]
  simp only [List.exists_mem_cons_iff, List.not_mem_nil, false_and, exists_false, or_false]
  change w.checkBlocks sub plan req source ≠ none ∨ checkStatus sub ≠ none ∨ Ended w sub ∨
    unlessRaised (checkSchedule w.base.loads sub plan
      (w.today sub.tenantId sub.username).localNow) ≠ none ∨
    checkQuota (w.quota sub.tenantId sub.username) sub plan db ≠ none ∨ _ ≠ none ∨
    checkConnectionTime db.radacct (w.today sub.tenantId sub.username) sub plan ≠ none ∨
    checkMac sub req ≠ none ↔ _
  rw [hstatus, hschedule, hbudget, Stops, or_left_comm]

section
variable {db' : Db} {p : Card → Bool} {f : Card → Card}

theorem card_column_kept {α : Type} (column : Card → α)
    (hf : ∀ c, (f c).tenantId = c.tenantId ∧ (f c).username = c.username)
    (hcolumn : ∀ c, column (f c) = column c) (tenantId : ℤ) (username : String) :
    ((db.updateCards p f).card tenantId username).map column =
      (db.card tenantId username).map column := by
  rw [Db.card_updateCards db tenantId hf, Option.map_map]
  congr 1
  funext c
  simp only [Function.comp]
  split_ifs
  · exact hcolumn c
  · rfl

theorem batchOf_eq (tenantId : ℤ) (username : String) :
    (cardAndBatch db tenantId username).map Prod.snd =
      ((db.card tenantId username).map Card.batchId).bind (db.batch tenantId) := by
  rw [cardAndBatch]
  cases db.card tenantId username with
  | none => rfl
  | some c => simp only [Option.bind_some, Option.map_some, Option.map_map, Function.comp_def,
      Option.map_id_fun', id]

theorem checkCardTimeBudget_congr {tenantId : ℤ} {username : String}
    (hbatch : (cardAndBatch db' tenantId username).map Prod.snd =
      (cardAndBatch db tenantId username).map Prod.snd)
    (hextra : cardExtraSeconds db' tenantId username = cardExtraSeconds db tenantId username)
    (hseconds : accountedSeconds db' tenantId username = accountedSeconds db tenantId username) :
    checkCardTimeBudget db' tenantId username plan =
      checkCardTimeBudget db tenantId username plan := by
  simp only [checkCardTimeBudget, hextra, hseconds]
  cases hfound' : cardAndBatch db' tenantId username with
  | none =>
    cases hfound : cardAndBatch db tenantId username with
    | none => rfl
    | some found => simp [hfound', hfound] at hbatch
  | some found' =>
    cases hfound : cardAndBatch db tenantId username with
    | none => simp [hfound', hfound] at hbatch
    | some found =>
      have hsame : found'.2 = found.2 := by simpa [hfound', hfound] using hbatch
      simp only [hsame]

theorem quotaExhaustMode_congr {tenantId : ℤ} {username : String}
    (hbatch : (cardAndBatch db' tenantId username).map Prod.snd =
      (cardAndBatch db tenantId username).map Prod.snd) :
    quotaExhaustMode db' tenantId username = quotaExhaustMode db tenantId username := by
  simp only [quotaExhaustMode]
  cases hfound' : cardAndBatch db' tenantId username with
  | none =>
    cases hfound : cardAndBatch db tenantId username with
    | none => rfl
    | some found => simp [hfound', hfound] at hbatch
  | some found' =>
    cases hfound : cardAndBatch db tenantId username with
    | none => simp [hfound', hfound] at hbatch
    | some found =>
      have hsame : found'.2 = found.2 := by simpa [hfound', hfound] using hbatch
      simp only [hsame]

end

theorem cardResetSince_eq (tenantId : ℤ) (username : String) :
    cardResetSince db tenantId username =
      ((db.card tenantId username).map fun c => c.usageResetAt.time?).join := by
  rw [cardResetSince]
  cases db.card tenantId username <;> rfl

theorem stops_renewed {card : Card} {e : ℤ} :
    Stops w ((db.updateCards (ofCardId sub.tenantId card.id) fun c =>
        { c.withExpiry e with used := true }).updateSubscribers
          (ofSubscriber sub.tenantId sub.username) (Subscriber.withExpiry · e)) req
        { sub.withExpiry e with status := "enabled" } plan source ↔
      Stops w db req sub plan source := by
  set f : Card → Card := fun c => { c.withExpiry e with used := true }
  set db' := (db.updateCards (ofCardId sub.tenantId card.id) f).updateSubscribers
    (ofSubscriber sub.tenantId sub.username) (Subscriber.withExpiry · e)
  have hcolumn : ∀ {α : Type} (column : Card → α), (∀ c, column (f c) = column c) →
      (db'.card sub.tenantId sub.username).map column =
        (db.card sub.tenantId sub.username).map column := fun column h =>
    card_column_kept (f := f) column (fun _ => ⟨rfl, rfl⟩) h sub.tenantId sub.username
  have hbatch : (cardAndBatch db' sub.tenantId sub.username).map Prod.snd =
      (cardAndBatch db sub.tenantId sub.username).map Prod.snd := by
    rw [batchOf_eq, batchOf_eq, hcolumn Card.batchId fun _ => rfl]
    rfl
  have hreset : cardResetSince db' sub.tenantId sub.username =
      cardResetSince db sub.tenantId sub.username := by
    rw [cardResetSince_eq, cardResetSince_eq, hcolumn (fun c => c.usageResetAt.time?) fun _ => rfl]
  have hbudget : checkCardTimeBudget db' sub.tenantId sub.username plan =
      checkCardTimeBudget db sub.tenantId sub.username plan :=
    checkCardTimeBudget_congr hbatch
      (congrArg (Option.getD · 0) (hcolumn Card.extraSeconds fun _ => rfl))
      (by simp only [accountedSeconds, hreset]; rfl)
  have hquota : checkQuota (w.quota sub.tenantId sub.username)
      { sub.withExpiry e with status := "enabled" } plan db' =
        checkQuota (w.quota sub.tenantId sub.username) sub plan db := by
    have hexhausted : quotaExhaustion (w.quota sub.tenantId sub.username) db'.radacct
        { sub.withExpiry e with status := "enabled" } plan =
        quotaExhaustion (w.quota sub.tenantId sub.username) db.radacct sub plan := rfl
    have hmode : quotaExhaustMode db' (sub.withExpiry e).tenantId (sub.withExpiry e).username =
        quotaExhaustMode db sub.tenantId sub.username := quotaExhaustMode_congr hbatch
    simp only [checkQuota, hexhausted, hmode]
  change (w.checkBlocks sub plan req source ≠ none ∨ ScheduleStops w sub plan ∨
    checkQuota (w.quota sub.tenantId sub.username)
      { sub.withExpiry e with status := "enabled" } plan db' ≠ none ∨
    checkCardTimeBudget db' sub.tenantId sub.username plan ≠ none ∨
    checkConnectionTime db.radacct (w.today sub.tenantId sub.username) sub plan ≠ none ∨
    checkMac sub req ≠ none) ↔ _
  rw [hquota, hbudget, Stops]

theorem not_ended_renewed {card : Card} {e : ℤ}
    (h : renewal db w.base.now sub source = some (card, e)) :
    ¬Ended w { sub.withExpiry e with status := "enabled" } := by
  obtain ⟨days, hdays, he⟩ : ∃ days : ℤ, 0 < days ∧ e = afterSeconds w.base.now (days * 86400) := by
    unfold renewal at h
    split_ifs at h
    obtain ⟨⟨c, batch⟩, -, h⟩ := Option.bind_eq_some_iff.mp h
    dsimp only at h
    split_ifs at h with hdue
    simp only [Bool.and_eq_true, decide_eq_true_eq] at hdue
    simp only [Option.some.injEq, Prod.mk.injEq] at h
    exact ⟨_, hdue.2, h.2.symm⟩
  have hlater : ¬e < w.base.now := by
    rw [he, afterSeconds, second]
    omega
  simp [Ended, checkExpiryCaptive, Subscriber.withExpiry, Stamp.time?, hlater]

/-- The login of the account is stopped: it has ended and no renewal is due, another gate stops it
or its schedule cannot be read. -/
def Refused (w : Surroundings) (db : Db) (req : AuthRequest) (sub : Subscriber) (source : Source) :
    Prop :=
  (renewal db w.base.now sub source = none ∧ Ended w sub) ∨
    Stops w db req sub (planOf db req sub) source ∨ Raises w sub (planOf db req sub)

theorem refused_iff :
    (let (renewed, account) := maybeAutoRenew db w.base.now sub source
      ∃ gate ∈ gatesOf (w.env renewed) req account plan source, gate renewed ≠ none) ↔
      (renewal db w.base.now sub source = none ∧ Ended w sub) ∨
        Stops w db req sub plan source ∨ Raises w sub plan := by
  cases hrenewal : renewal db w.base.now sub source with
  | none => simp only [maybeAutoRenew, hrenewal, gatesOf_stop_iff, true_and]
  | some due =>
    obtain ⟨card, e⟩ := due
    have hraises : Raises w { sub.withExpiry e with status := "enabled" } plan ↔
        Raises w sub plan := Iff.rfl
    simp only [maybeAutoRenew, hrenewal, gatesOf_stop_iff, stops_renewed, hraises,
      not_ended_renewed hrenewal, reduceCtorEq, false_and, false_or]

end

section
variable {db : Db} {row : Radacct} {password : String}

def loweredCard (db : Db) (tenantId : ℤ) (username : String) : Option Card :=
  let lowered := lower (strip username)
  if lowered ≠ "" ∧ lowered ≠ username then db.card tenantId lowered else none

def loginAccount (db : Db) (tenantId : ℤ) (username : String) : Option (Subscriber × Source) :=
  (findLogin db { username := username, tenantId := tenantId }).map Prod.snd

theorem findLogin_eq (req : AuthRequest) :
    ∃ name, findLogin db req = (loginAccount db req.tenantId req.username).map fun account =>
      ({ req with username := name }, account) := by
  simp only [loginAccount, findLogin, Option.orElse_eq_orElse, Option.orElse_eq_or]
  cases db.subscriber req.tenantId req.username false with
  | none =>
    cases db.card req.tenantId req.username with
    | some card => exact ⟨req.username, rfl⟩
    | none =>
      refine ⟨lower (strip req.username), ?_⟩
      simp only [Option.map_none, Option.none_or]
      split_ifs
      · cases db.card req.tenantId (lower (strip req.username)) <;> rfl
      · rfl
  | some sub =>
    refine ⟨req.username, ?_⟩
    dsimp only
    split_ifs
    · cases db.card req.tenantId req.username <;> rfl
    · rfl

theorem loginAccount_exact {tenantId : ℤ} {username : String} :
    loginAccount db tenantId username =
      match resolve db tenantId username with
      | some (sub, _, source) => some (sub, source)
      | none => (loweredCard db tenantId username).map fun card =>
        (cardToSubscriber db card, .card) := by
  simp only [resolve, loginAccount, findLogin, loweredCard, Option.orElse_eq_orElse,
    Option.orElse_eq_or]
  cases db.subscriber tenantId username false with
  | none =>
    cases db.card tenantId username with
    | some card => rfl
    | none =>
      simp only [Option.map_none, Option.none_or]
      split_ifs
      · cases db.card tenantId (lower (strip username)) <;> rfl
      · rfl
  | some sub =>
    by_cases hcard : isCard sub = true
    · simp only [hcard, if_true]
      cases db.card tenantId username <;> rfl
    · simp only [hcard, Bool.false_eq_true, if_false]
      rfl

variable {w : Surroundings}

theorem loginStopped_iff (hname : row.username ≠ "") :
    LoginStopped w db (loginRequest row password) ↔
      ∀ account, loginAccount db row.tenantId row.username = some account →
        Refused w db (loginRequest row "") account.1 account.2 := by
  obtain ⟨name, hfound⟩ : ∃ name, findLogin db (loginRequest row password) = _ :=
    findLogin_eq (loginRequest row password)
  rw [LoginStopped, or_iff_right (show ¬(loginRequest row password).username = "" from hname),
    hfound]
  change _ ↔ ∀ account, loginAccount db (loginRequest row password).tenantId
    (loginRequest row password).username = some account → _
  cases loginAccount db (loginRequest row password).tenantId
      (loginRequest row password).username with
  | none => simp
  | some account =>
    simp only [Option.map_some, Option.some.injEq, forall_eq']
    exact refused_iff

theorem evicted_iff (hname : strip row.username ≠ "") :
    (checkSessionCompliance w db row).isSome = true ↔
      ∀ found, resolve db row.tenantId (strip row.username) = some found →
        Ended w found.1 ∨ Stops w db (loginRequest row "") found.1 found.2.1 found.2.2 := by
  rw [checkSessionCompliance, if_neg hname]
  cases resolve db row.tenantId (strip row.username) with
  | none => simp
  | some found =>
    simp only [checks_evict_iff, Option.some.injEq, forall_eq']
    rfl

end

section
variable (w : Surroundings) (db : Db) (row : Radacct)

/-- The account is judged alike with the live plan and without a renewal as with the archived plan
after a renewal. -/
def SameVerdict (sub : Subscriber) (plan : Option AccessPlan) (source : Source) : Prop :=
  let req := loginRequest row ""
  let archived := planOf db req sub
  let stopped := Stops w db req sub archived source ∨ Raises w sub archived
  if renewal db w.base.now sub source = none then
    Ended w sub ∨ (Stops w db req sub plan source ↔ stopped)
  else Ended w sub ∨ Stops w db req sub plan source ↔ stopped

/-- What has to hold of the row: no card under its lower-case name would be let in, and the account
found is judged alike. A name with spaces around it is another name to the login. -/
def Compared : Prop :=
  let username := strip row.username
  let req := loginRequest row ""
  if username = "" then row.username ≠ "" ∧
    ∃ account, loginAccount db row.tenantId row.username = some account ∧
      ¬Refused w db req account.1 account.2
  else if row.username = username then
    match resolve db row.tenantId username with
    | some (sub, plan, source) => SameVerdict w db row sub plan source
    | none => ∀ card, loweredCard db row.tenantId username = some card →
        Refused w db req (cardToSubscriber db card) .card
  else
    (∃ account, loginAccount db row.tenantId row.username = some account ∧
      ¬Refused w db req account.1 account.2) ↔
    ∃ found, resolve db row.tenantId username = some found ∧
      ¬(Ended w found.1 ∨ Stops w db req found.1 found.2.1 found.2.2)

variable {w db row}

theorem sameVerdict_iff {sub : Subscriber} {plan : Option AccessPlan} {source : Source} :
    (Ended w sub ∨ Stops w db (loginRequest row "") sub plan source ↔
      Refused w db (loginRequest row "") sub source) ↔ SameVerdict w db row sub plan source := by
  unfold SameVerdict Refused
  by_cases hrenewal : renewal db w.base.now sub source = none
  · simp only [hrenewal, true_and, if_true]
    by_cases hended : Ended w sub
    · simp only [hended, true_or]
    · simp only [hended, false_or]
  · simp only [hrenewal, false_and, false_or, if_false]

/-- A live session is evicted exactly when a new login would be stopped, if the accounts compare. -/
theorem evicted_iff_login_stopped (w : Surroundings) (db : Db) (row : Radacct)
    (password : String) :
    ((checkSessionCompliance w db row).isSome = true ↔
      LoginStopped w db (loginRequest row password)) ↔ Compared w db row := by
  unfold Compared
  by_cases hblank : strip row.username = ""
  · rw [if_pos hblank, checkSessionCompliance, if_pos hblank]
    by_cases hempty : row.username = ""
    · simp [hempty, LoginStopped, loginRequest]
    · rw [loginStopped_iff hempty]
      simp [hempty]
  have hname : row.username ≠ "" := by
    intro hempty
    exact hblank (by rw [hempty]; decide)
  rw [if_neg hblank, loginStopped_iff hname, evicted_iff hblank]
  by_cases hexact : row.username = strip row.username
  · rw [if_pos hexact, ← hexact, loginAccount_exact]
    cases resolve db row.tenantId row.username with
    | none => cases loweredCard db row.tenantId row.username <;> simp
    | some found =>
      obtain ⟨sub, plan, source⟩ := found
      simp only [Option.some.injEq, forall_eq']
      exact sameVerdict_iff
  · rw [if_neg hexact]
    have hnot : ∀ {α : Type} (p q : α → Prop), (∃ x, p x ∧ ¬q x) ↔ ¬∀ x, p x → q x := by
      intro α p q
      simp only [not_forall, exists_prop]
    rw [hnot, hnot, not_iff_not]
    exact iff_comm

def sampleEnv : Env where
  now := 0
  today _ := ⟨0, 0, 0, .null⟩
  last := 0
  loads _ := none
  verifyChap _ _ _ := false
  sha256 text := text
  remainingText _ := ""
  checkBlocks _ _ _ _ := none
  checkQuota _ _ _ := none
  activeOnlineCap _ := none
  countActiveSessions _ _ _ := 0

def unblocked : Surroundings where
  base := sampleEnv
  activeBlock _ _ := none
  today _ _ := ⟨0, 0, 0, .null⟩
  quota _ _ := ⟨QuotaWindows.sampleCalendar, 0, fun _ => {}, none⟩

/-- The upper-case name of a card leads the login to the card and the reconciler nowhere. -/
theorem capitals_evicted : ∃ (w : Surroundings) (db : Db) (row : Radacct) (password : String),
    ¬((checkSessionCompliance w db row).isSome = true ↔
      LoginStopped w db (loginRequest row password)) := by
  refine ⟨unblocked, { cards := [{ id := 1, batchId := 1, username := "abc12" }] },
    { radacctid := 1, tenantId := 1, username := "ABC12" }, "", fun h => ?_⟩
  have hstopped := (loginStopped_iff (by decide)).mp (h.mp (by decide))
  obtain ⟨-, hended⟩ | hstops | ⟨e, hraises⟩ := hstopped (cardToSubscriber _ _, .card) rfl
  · exact hended rfl
  · obtain hblock | ⟨bad, hbad⟩ | hquota | hbudget | htime | hmac := hstops
    · exact hblock rfl
    · cases (show (.ok none : Except AccessSchedule.ScheduleError (Option AuthDecision)) =
        .ok (some bad) from hbad)
    · exact hquota (by decide)
    · exact hbudget (by decide)
    · exact htime (by decide)
    · exact hmac (by decide)
  · cases (show (.ok none : Except AccessSchedule.ScheduleError (Option AuthDecision)) =
      .error e from hraises)

theorem sameVerdict_of_plain {sub : Subscriber} {plan : Option AccessPlan} {source : Source}
    (hplan : planOf db (loginRequest row "") sub = plan)
    (hrenewal : renewal db w.base.now sub source = none) (hread : ¬Raises w sub plan) :
    SameVerdict w db row sub plan source := by
  simp only [SameVerdict, hplan, hrenewal, hread, if_true, or_false]
  exact .inr trivial

end

end RadiusModule.PolicyReconciler
