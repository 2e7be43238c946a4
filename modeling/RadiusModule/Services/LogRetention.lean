import RadiusModule.Services.PolicyEngine.LoginStamp
import RadiusModule.Services.PolicyEngine.Quota

/-!
# Retention of the accounting log

The closed sessions of `radacct` are deleted after their window like any log,
but several entitlements are sums over all of them. A run leaves the
entitlements as they are exactly when no limit depends on what it deletes.
-/

namespace RadiusModule.LogRetention
open Library CardBatchFlags CardAccounting DeviceLimit PolicyEngine

/-- A run, with the two overrides that concern the tables below. A delete may raise, and a run
that a too long window of an earlier table stops does not come to the later one. -/
structure RetentionRun where
  now : ℤ
  radacctDays : Option ℤ := none
  cloneEventDays : Option ℤ := none
  dryRun : Bool := false
  radacctRaises : Bool := false
  cloneEventsRaise : Bool := false

/-- `_days_for` of a rule with a default; 0 disables the rule. -/
def daysFor (override : Option ℤ) (defaultDays : ℤ) : ℤ := max 0 (override.getD defaultDays)

def dayOf (t : ℤ) : ℤ := t / (86400 * second)

namespace RetentionRun

/-- The day before which a rule deletes. There is no `datetime` before the first instant. -/
def cutoff (run : RetentionRun) (days : ℤ) (raises : Bool) : Option ℤ :=
  let moment := afterSeconds run.now (-(days * 86400))
  if days = 0 ∨ run.dryRun ∨ raises ∨ moment < firstInstant then none else some (dayOf moment)

def prunes (run : RetentionRun) (r : Radacct) : Bool :=
  match run.cutoff (daysFor run.radacctDays 90) run.radacctRaises, r.acctStopTime with
  | some day, .instant t => dayOf t < day
  | _, _ => false

def prunesEvent (run : RetentionRun) (e : CloneEvent) : Bool :=
  (run.cutoff (daysFor run.cloneEventDays 90) run.cloneEventsRaise).any fun day =>
    dayOf e.createdAt < day

end RetentionRun

/-- `run_retention`, on the tables that hold rows of accounts. -/
def runRetention (run : RetentionRun) (db : Db) : Db :=
  { db with
    radacct := db.radacct.delete run.prunes
    cloneEvents := db.cloneEvents.filter fun e => !run.prunesEvent e }

def planOfCard (db : Db) (card : Card) : Option AccessPlan :=
  card.planId.bind fun id => db.plan card.tenantId id true

def planOfSubscriber (db : Db) (sub : Subscriber) : Option AccessPlan :=
  sub.planId.bind fun id => db.plan sub.tenantId id true

def totalExhausted (db : Db) (sub : Subscriber) : Bool :=
  let cap := (effectiveTimeCaps sub (planOfSubscriber db sub)).1
  0 < cap && cap * 60 ≤ accountedSessionSeconds db.radacct sub.tenantId sub.username none

def totalRemaining (db : Db) (sub : Subscriber) : Option ℤ :=
  let cap := (effectiveTimeCaps sub (planOfSubscriber db sub)).1
  if 0 < cap then
    some (max 0 (cap * 60 - accountedSessionSeconds db.radacct sub.tenantId sub.username none))
  else none

def firstConnection (db : Db) (card : Card) : Option ℤ :=
  card.firstUsedAt.time? <|> earliestAccountedStart db card.tenantId card.username

structure QuotaTables where
  cal : ℤ → QuotaWindows.Calendar
  now : ℤ
  marks : QuotaWindows.Marks
  states : ℤ → ℕ → Option QuotaPeriod.QuotaState

def QuotaTables.reads (q : QuotaTables) (card : Card) : QuotaReads :=
  ⟨q.cal card.tenantId, q.now, q.marks, q.states card.tenantId card.id⟩

def quotaRefuses (q : QuotaTables) (db : Db) (card : Card) : Bool :=
  (checkQuota (q.reads card) (cardToSubscriber db card) (planOfCard db card) db).isSome

structure Unchanged (q : QuotaTables) (db after : Db) : Prop where
  timeBudget : ∀ card ∈ db.cards,
    checkCardTimeBudget after card.tenantId card.username (planOfCard db card) =
      checkCardTimeBudget db card.tenantId card.username (planOfCard db card)
  sessionCap : ∀ card ∈ db.cards, ∀ plan ∈ planOfCard db card,
    cardBudgetSessionCap after (cardToSubscriber after card) plan =
      cardBudgetSessionCap db (cardToSubscriber db card) plan
  total : ∀ sub ∈ db.subscribers, totalExhausted after sub = totalExhausted db sub
  remaining : ∀ sub ∈ db.subscribers, totalRemaining after sub = totalRemaining db sub
  quota : ∀ card ∈ db.cards, quotaRefuses q after card = quotaRefuses q db card
  window : ∀ card ∈ db.cards, firstConnection after card = firstConnection db card

def SameSide (limit kept all : ℤ) : Prop := limit ≤ kept ↔ limit ≤ all

def SameRest (limit kept all : ℤ) : Prop := kept = all ∨ limit ≤ kept ∧ limit ≤ all

section
variable (run : RetentionRun) (db : Db)

def keptSum (p : Radacct → Bool) (f : Radacct → ℤ) : ℤ :=
  ((db.radacct.select fun r => p r && !run.prunes r).map f).sum

def wholeSum (p : Radacct → Bool) (f : Radacct → ℤ) : ℤ := ((db.radacct.select p).map f).sum

def charged (card : Card) (r : Radacct) : Bool :=
  ofUser card.tenantId card.username r &&
    startsSince (cardResetSince db card.tenantId card.username) r

def secondsLimit (card : Card) : Option ℤ :=
  (cardAndBatch db card.tenantId card.username).bind fun (_, batch) =>
    let plan := planOfCard db card
    let extra := cardExtraSeconds db card.tenantId card.username
    let budget := cardBudgetSeconds batch plan
    if extra < 0 && isExhausted (cardBudget batch plan) extra then none
    else if !batch.countBySeconds || budget ≤ 0 || budget + extra ≤ 0 then none
    else some (budget + extra)

def cut (card : Card) (r : Radacct) : Bool :=
  ofUser card.tenantId card.username r &&
    match cardResetSince db card.tenantId card.username with
    | some s => r.acctStartTime.notBefore s
    | none => true

def capLimit (card : Card) (plan : AccessPlan) : Option ℤ :=
  (cardAndBatch db card.tenantId card.username).bind fun (found, batch) =>
    let base := if plan.durationMinutes ≠ 0 then plan.durationMinutes * 60
      else unitToSeconds batch.timeValue (if batch.timeUnit = "" then "days" else batch.timeUnit)
    if bySeconds batch ∧ 0 < base then some (base + found.extraSeconds) else none

def octets (r : Radacct) : ℤ := r.acctInputOctets + r.acctOutputOctets

def quotaUsedUp (q : QuotaTables) (card : Card) (used : ℤ) (t : RadacctTable) : Prop :=
  let sub := cardToSubscriber db card
  let plan := planOfCard db card
  0 < effectiveQuotaMb sub plan ∧ effectiveQuotaMb sub plan * mib ≤ used ∨
    (windowExhaustion (q.reads card) t sub plan).isSome = true

structure Spared (q : QuotaTables) : Prop where
  timeBudget : ∀ card ∈ db.cards, ∀ limit ∈ secondsLimit db card,
    SameSide limit (keptSum run db (charged db card) Radacct.acctSessionTime)
      (wholeSum db (charged db card) Radacct.acctSessionTime)
  sessionCap : ∀ card ∈ db.cards, ∀ plan ∈ planOfCard db card, ∀ limit ∈ capLimit db card plan,
    SameRest (limit - 1) (keptSum run db (cut db card) Radacct.acctSessionTime)
      (wholeSum db (cut db card) Radacct.acctSessionTime)
  total : ∀ sub ∈ db.subscribers,
    let cap := (effectiveTimeCaps sub (planOfSubscriber db sub)).1
    0 < cap → SameRest (cap * 60)
      (keptSum run db (ofUser sub.tenantId sub.username) Radacct.acctSessionTime)
      (wholeSum db (ofUser sub.tenantId sub.username) Radacct.acctSessionTime)
  quota : ∀ card ∈ db.cards, quotaStops db (cardToSubscriber db card) →
    quotaUsedUp db q card (wholeSum db (ofUser card.tenantId card.username) octets) db.radacct →
    quotaUsedUp db q card (keptSum run db (ofUser card.tenantId card.username) octets)
      (db.radacct.delete run.prunes)
  window : ∀ card ∈ db.cards, card.firstUsedAt.time? = none →
    ∀ r ∈ db.radacct.select (charged db card), run.prunes r = true →
      ∀ start ∈ r.acctStartTime.time?, ∃ r' ∈ db.radacct.select (charged db card),
        run.prunes r' = false ∧ ∃ start' ∈ r'.acctStartTime.time?, start' ≤ start

theorem sum_kept (p : Radacct → Bool) (f : Radacct → ℤ) :
    (((runRetention run db).radacct.select p).map f).sum = keptSum run db p f := by
  rw [runRetention, Table.select_delete, keptSum, Table.select, Table.select, List.filter_filter]
  congr 3
  funext r
  exact Bool.and_comm _ _

variable {db}

theorem timeBudget_iff (card : Card) :
    checkCardTimeBudget (runRetention run db) card.tenantId card.username (planOfCard db card) =
        checkCardTimeBudget db card.tenantId card.username (planOfCard db card) ↔
      ∀ limit ∈ secondsLimit db card,
        SameSide limit (keptSum run db (charged db card) Radacct.acctSessionTime)
          (wholeSum db (charged db card) Radacct.acctSessionTime) := by
  have hkept : accountedSeconds (runRetention run db) card.tenantId card.username =
      keptSum run db (charged db card) Radacct.acctSessionTime := sum_kept run db _ _
  have hwhole : accountedSeconds db card.tenantId card.username =
      wholeSum db (charged db card) Radacct.acctSessionTime := rfl
  have hcard : cardAndBatch (runRetention run db) card.tenantId card.username =
      cardAndBatch db card.tenantId card.username := rfl
  have hextra : cardExtraSeconds (runRetention run db) card.tenantId card.username =
      cardExtraSeconds db card.tenantId card.username := rfl
  simp only [checkCardTimeBudget, secondsLimit, hkept, hwhole, hcard, hextra]
  cases cardAndBatch db card.tenantId card.username with
  | none => simp
  | some found =>
    obtain ⟨c, batch⟩ := found
    dsimp only [Option.bind_some]
    generalize keptSum run db (charged db card) Radacct.acctSessionTime = kept
    generalize wholeSum db (charged db card) Radacct.acctSessionTime = whole
    by_cases hover : (decide (cardExtraSeconds db card.tenantId card.username < 0) &&
        isExhausted (cardBudget batch (planOfCard db card))
          (cardExtraSeconds db card.tenantId card.username)) = true
    · simp [hover]
    · by_cases hseconds : batch.countBySeconds = true
      · by_cases hbudget : cardBudgetSeconds batch (planOfCard db card) ≤ 0
        · simp [hover, hbudget]
        · by_cases hleft : cardBudgetSeconds batch (planOfCard db card) +
              cardExtraSeconds db card.tenantId card.username ≤ 0
          · simp [hover, hbudget, hleft]
          · simp only [hover, hseconds, hbudget, hleft, SameSide]
            by_cases hk : cardBudgetSeconds batch (planOfCard db card) +
                cardExtraSeconds db card.tenantId card.username ≤ kept
            · simp [hk]
            · simp [hk]
      · simp [hover, hseconds]

theorem sameRest_iff {limit kept whole : ℤ} :
    max 0 (limit - kept) = max 0 (limit - whole) ↔ SameRest limit kept whole := by
  simp only [SameRest]
  omega

theorem sessionCap_iff (card : Card) (plan : AccessPlan) :
    cardBudgetSessionCap (runRetention run db) (cardToSubscriber (runRetention run db) card) plan =
        cardBudgetSessionCap db (cardToSubscriber db card) plan ↔
      ∀ limit ∈ capLimit db card plan,
        SameRest (limit - 1) (keptSum run db (cut db card) Radacct.acctSessionTime)
          (wholeSum db (cut db card) Radacct.acctSessionTime) := by
  have hkept : accountedSessionSeconds (runRetention run db).radacct card.tenantId card.username
      (cardResetSince (runRetention run db) card.tenantId card.username) =
      keptSum run db (cut db card) Radacct.acctSessionTime := sum_kept run db _ _
  have hwhole : accountedSessionSeconds db.radacct card.tenantId card.username
      (cardResetSince db card.tenantId card.username) =
      wholeSum db (cut db card) Radacct.acctSessionTime := rfl
  have hcard : cardAndBatch (runRetention run db) card.tenantId card.username =
      cardAndBatch db card.tenantId card.username := rfl
  simp only [cardBudgetSessionCap, capLimit, cardToSubscriber, hkept, hwhole, hcard]
  cases cardAndBatch db card.tenantId card.username with
  | none => simp
  | some found =>
    obtain ⟨c, batch⟩ := found
    dsimp only [Option.bind_some]
    generalize keptSum run db (cut db card) Radacct.acctSessionTime = kept
    generalize wholeSum db (cut db card) Radacct.acctSessionTime = whole
    generalize (if plan.durationMinutes ≠ 0 then plan.durationMinutes * 60 else
      unitToSeconds batch.timeValue (if batch.timeUnit = "" then "days" else batch.timeUnit)) = base
    by_cases hseconds : bySeconds batch = true
    · by_cases hbase : base ≤ 0
      · simp [hseconds, hbase]
      · simp only [hseconds, hbase, if_true, if_false, not_le.mp hbase, and_self, Option.some.injEq,
          Option.mem_def, forall_eq', SameRest]
        omega
    · simp [hseconds]

theorem total_iff (sub : Subscriber) :
    totalExhausted (runRetention run db) sub = totalExhausted db sub ∧
        totalRemaining (runRetention run db) sub = totalRemaining db sub ↔
      (0 < (effectiveTimeCaps sub (planOfSubscriber db sub)).1 →
        SameRest ((effectiveTimeCaps sub (planOfSubscriber db sub)).1 * 60)
          (keptSum run db (ofUser sub.tenantId sub.username) Radacct.acctSessionTime)
          (wholeSum db (ofUser sub.tenantId sub.username) Radacct.acctSessionTime)) := by
  have hplan : planOfSubscriber (runRetention run db) sub = planOfSubscriber db sub := rfl
  have hall : ∀ t : RadacctTable, accountedSessionSeconds t sub.tenantId sub.username none =
      ((t.select (ofUser sub.tenantId sub.username)).map Radacct.acctSessionTime).sum := fun t => by
    simp only [accountedSessionSeconds, Bool.and_true, sumSeconds]
  have hwhole : ((db.radacct.select (ofUser sub.tenantId sub.username)).map
      Radacct.acctSessionTime).sum =
      wholeSum db (ofUser sub.tenantId sub.username) Radacct.acctSessionTime := rfl
  simp only [totalExhausted, totalRemaining, hplan, hall, sum_kept, hwhole]
  generalize keptSum run db (ofUser sub.tenantId sub.username) Radacct.acctSessionTime = kept
  generalize wholeSum db (ofUser sub.tenantId sub.username) Radacct.acctSessionTime = whole
  generalize (effectiveTimeCaps sub (planOfSubscriber db sub)).1 = cap
  by_cases hcap : 0 < cap
  · simp only [hcap, decide_true, Bool.true_and, if_true, Option.some.injEq, sameRest_iff,
      forall_const, decide_eq_decide]
    refine and_iff_right_of_imp fun hrest => ?_
    rcases hrest with hsame | ⟨hkept, hwhole⟩
    · rw [hsame]
    · exact iff_of_true hkept hwhole
  · simp [hcap]

theorem quota_iff (q : QuotaTables) (card : Card) :
    quotaRefuses q (runRetention run db) card = quotaRefuses q db card ↔
      (quotaStops db (cardToSubscriber db card) →
        quotaUsedUp db q card (wholeSum db (ofUser card.tenantId card.username) octets) db.radacct →
        quotaUsedUp db q card (keptSum run db (ofUser card.tenantId card.username) octets)
          (db.radacct.delete run.prunes)) := by
  have hsum : ∀ rows : List Radacct, (((rows.map Radacct.acctInputOctets).sum +
      (rows.map Radacct.acctOutputOctets).sum : ℕ) : ℤ) = (rows.map octets).sum := by
    intro rows
    induction rows with
    | nil => rfl
    | cons r rows ih =>
      simp only [List.map_cons, List.sum_cons, octets] at ih ⊢
      push_cast at ih ⊢
      omega
  have hrefuses : ∀ db : Db, quotaRefuses q db card = true ↔
      quotaStops db (cardToSubscriber db card) ∧ quotaUsedUp db q card
        (wholeSum db (ofUser card.tenantId card.username) octets) db.radacct := by
    intro db
    rw [quotaRefuses, checkQuota_isSome_iff, subscriberUsedBytes_card, wholeSum, ← hsum]
    rfl
  have hafter : quotaRefuses q (runRetention run db) card = true ↔
      quotaStops db (cardToSubscriber db card) ∧ quotaUsedUp db q card
        (keptSum run db (ofUser card.tenantId card.username) octets)
        (db.radacct.delete run.prunes) := by
    rw [hrefuses, wholeSum, sum_kept]
    rfl
  have hfewer : quotaUsedUp db q card (keptSum run db (ofUser card.tenantId card.username) octets)
      (db.radacct.delete run.prunes) →
      quotaUsedUp db q card (wholeSum db (ofUser card.tenantId card.username) octets)
        db.radacct := by
    have hle : keptSum run db (ofUser card.tenantId card.username) octets ≤
        wholeSum db (ofUser card.tenantId card.username) octets := by
      rw [← sum_kept, wholeSum]
      refine List.Sublist.sum_le_sum (List.Sublist.map _ ?_) fun n hn => ?_
      · rw [runRetention, Table.select_delete]
        exact List.filter_sublist
      · obtain ⟨r, -, rfl⟩ := List.mem_map.mp hn
        simp only [octets]
        omega
    rintro (⟨hpos, hreached⟩ | hwindow)
    · exact .inl ⟨hpos, hreached.trans hle⟩
    · exact .inr (windowExhaustion_mono _ _ _ _ _ hwindow)
  rw [Bool.eq_iff_iff, hafter, hrefuses]
  constructor
  · exact fun h hstops hused => (h.mpr ⟨hstops, hused⟩).2
  · exact fun h => ⟨fun ⟨hstops, hused⟩ => ⟨hstops, hfewer hused⟩,
      fun ⟨hstops, hused⟩ => ⟨hstops, h hstops hused⟩⟩

theorem min?_eq_iff {some' all : List ℤ} (h : ∀ a ∈ some', a ∈ all) :
    some'.min? = all.min? ↔ ∀ b ∈ all, ∃ a ∈ some', a ≤ b := by
  constructor
  · intro hmin b hb
    obtain ⟨m, hm⟩ := Option.isSome_iff_exists.mp (List.isSome_min?_of_mem hb)
    exact ⟨m, (List.min?_eq_some_iff.mp (hmin.trans hm)).1, (List.min?_eq_some_iff.mp hm).2 b hb⟩
  · intro hbelow
    cases hm : all.min? with
    | none =>
      rw [List.min?_eq_none_iff] at hm ⊢
      subst hm
      exact List.eq_nil_iff_forall_not_mem.mpr fun a ha => List.not_mem_nil (h a ha)
    | some m =>
      obtain ⟨hmem, hleast⟩ := List.min?_eq_some_iff.mp hm
      obtain ⟨a, ha, hle⟩ := hbelow m hmem
      obtain rfl : a = m := le_antisymm hle (hleast a (h a ha))
      exact List.min?_eq_some_iff.mpr ⟨ha, fun b hb => hleast b (h b hb)⟩

theorem earliest_iff (card : Card) :
    earliestAccountedStart (runRetention run db) card.tenantId card.username =
        earliestAccountedStart db card.tenantId card.username ↔
      ∀ r ∈ db.radacct.select (charged db card), run.prunes r = true →
        ∀ start ∈ r.acctStartTime.time?, ∃ r' ∈ db.radacct.select (charged db card),
          run.prunes r' = false ∧ ∃ start' ∈ r'.acctStartTime.time?, start' ≤ start := by
  have hafter : earliestAccountedStart (runRetention run db) card.tenantId card.username =
      (((db.radacct.select (charged db card)).filter fun r => !run.prunes r).filterMap fun r =>
        r.acctStartTime.time?).min? := by
    rw [← Table.select_delete]
    rfl
  have hmem : ∀ {rows : List Radacct} {start : ℤ},
      start ∈ rows.filterMap (fun r => r.acctStartTime.time?) ↔
        ∃ r ∈ rows, start ∈ r.acctStartTime.time? := List.mem_filterMap
  have hkept : ∀ {r : Radacct}, r ∈ (db.radacct.select (charged db card)).filter
      (fun r => !run.prunes r) ↔
        r ∈ db.radacct.select (charged db card) ∧ run.prunes r = false := by
    intro r
    simp [List.mem_filter]
  rw [hafter]
  refine (min?_eq_iff fun start hstart => ?_).trans ⟨fun h r hr hpruned start hstart => ?_,
    fun h start hstart => ?_⟩
  · obtain ⟨r, hr, hs⟩ := hmem.mp hstart
    exact hmem.mpr ⟨r, (hkept.mp hr).1, hs⟩
  · obtain ⟨start', hstart', hle⟩ := h start (hmem.mpr ⟨r, hr, hstart⟩)
    obtain ⟨r', hr', hs'⟩ := hmem.mp hstart'
    exact ⟨r', (hkept.mp hr').1, (hkept.mp hr').2, start', hs', hle⟩
  · obtain ⟨r, hr, hs⟩ := hmem.mp hstart
    cases hpruned : run.prunes r with
    | false => exact ⟨start, hmem.mpr ⟨r, hkept.mpr ⟨hr, hpruned⟩, hs⟩, le_rfl⟩
    | true =>
      obtain ⟨r', hr', hnot, start', hs', hle⟩ := h r hr hpruned start hs
      exact ⟨start', hmem.mpr ⟨r', hkept.mpr ⟨hr', hnot⟩, hs'⟩, hle⟩

theorem firstConnection_iff (card : Card) :
    firstConnection (runRetention run db) card = firstConnection db card ↔
      (card.firstUsedAt.time? = none →
        earliestAccountedStart (runRetention run db) card.tenantId card.username =
          earliestAccountedStart db card.tenantId card.username) := by
  cases hused : card.firstUsedAt.time? with
  | some t => simp [firstConnection, hused]
  | none => simp [firstConnection, hused]

/-- A run gives no entitlement back exactly when no limit depends on what it deletes. -/
theorem retention_unchanged_iff (run : RetentionRun) (q : QuotaTables) (db : Db) :
    Unchanged q db (runRetention run db) ↔ Spared run db q := by
  constructor
  · intro h
    exact
      { timeBudget := fun card hcard => (timeBudget_iff run card).mp (h.timeBudget card hcard)
        sessionCap := fun card hcard plan hplan =>
          (sessionCap_iff run card plan).mp (h.sessionCap card hcard plan hplan)
        total := fun sub hsub => (total_iff run sub).mp ⟨h.total sub hsub, h.remaining sub hsub⟩
        quota := fun card hcard => (quota_iff run q card).mp (h.quota card hcard)
        window := fun card hcard hunused => (earliest_iff run card).mp
          ((firstConnection_iff run card).mp (h.window card hcard) hunused) }
  · intro h
    exact
      { timeBudget := fun card hcard => (timeBudget_iff run card).mpr (h.timeBudget card hcard)
        sessionCap := fun card hcard plan hplan =>
          (sessionCap_iff run card plan).mpr (h.sessionCap card hcard plan hplan)
        total := fun sub hsub => ((total_iff run sub).mpr (h.total sub hsub)).1
        remaining := fun sub hsub => ((total_iff run sub).mpr (h.total sub hsub)).2
        quota := fun card hcard => (quota_iff run q card).mpr (h.quota card hcard)
        window := fun card hcard => (firstConnection_iff run card).mpr fun hunused =>
          (earliest_iff run card).mpr (h.window card hcard hunused) }

end

def oldSession (username : String) (id : ℕ) : Radacct :=
  { radacctid := id
    tenantId := 1
    username := username
    acctStartTime := .instant 0
    acctStopTime := .instant (3600 * second)
    acctSessionTime := 3600 }

def usedUp : Db where
  cards := [{ id := 1, batchId := 1, username := "abc12", firstUsedAt := .instant 0 }]
  batches := [{ id := 1, timeValue := 1, timeUnit := "hours", countBySeconds := true }]
  subscribers := [{ username := "ali", totalConnectionTimeMin := 60 }]
  radacct := (Table.empty.insert (oldSession "abc12") fun _ => rfl).insert (oldSession "ali")
    fun _ => rfl

/-- They are refused before the run of a hundred days later and let in after it. -/
theorem used_up_let_in_again :
    let run : RetentionRun := { now := 100 * 86400 * second }
    let ali : Subscriber := { username := "ali", totalConnectionTimeMin := 60 }
    (checkCardTimeBudget usedUp 1 "abc12" none, totalExhausted usedUp ali) =
        (some "card_time_exhausted", true) ∧
      (checkCardTimeBudget (runRetention run usedUp) 1 "abc12" none,
        totalExhausted (runRetention run usedUp) ali) = (none, false) := by
  decide

end RadiusModule.LogRetention
