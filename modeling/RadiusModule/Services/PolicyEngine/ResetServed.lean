import RadiusModule.Services.PolicyEngine.ResetAsNew

/-!
# The timeout and the stamps of a reset card

The budget and the windows are read from the reset on, so only the daily limit
of the plan can make the two timeouts differ. Both first logins are stamped
from now on.
-/

namespace RadiusModule.PolicyEngine
open Library PyText AccessSchedule CardAccounting CardBatchFlags DeviceLimit

section
variable {p c s o : Option ℤ}

theorem cutBy_right_comm (hp : ∀ n ∈ p, 0 < n) :
    cutBy (cutBy p c) s = cutBy (cutBy p s) c := by
  cases p with
  | none => cases c <;> cases s <;> grind [cutBy]
  | some n =>
    have hn := hp n rfl
    cases c <;> cases s <;> grind [cutBy]

theorem cutBy_taken_iff (ho : ∀ n ∈ o, 0 < n) {cap taken : ℤ} (hcap : 0 < cap) :
    cutBy o (some (max 0 (cap - taken))) = cutBy o (some (max 0 cap)) ↔
      taken = 0 ∨ ∃ n ∈ o, n ≤ cap ∧ (0 < cap - taken → n ≤ cap - taken) := by
  have hmax : max 0 cap = cap := max_eq_right hcap.le
  have hpos : ¬cap ≤ 0 := not_le.mpr hcap
  rw [hmax]
  by_cases htaken : max 0 (cap - taken) ≤ 0
  · cases o with
    | none =>
      simp only [cutBy, if_pos htaken, if_neg hpos]
      grind
    | some n =>
      have hn := ho n rfl
      simp only [cutBy, if_pos htaken, if_neg hpos]
      grind
  · cases o with
    | none =>
      simp only [cutBy, if_neg htaken, if_neg hpos]
      grind
    | some n =>
      have hn := ho n rfl
      simp only [cutBy, if_neg htaken, if_neg hpos]
      grind

end

section
variable {env : Env} {db : Db} {card : Card} {since : ℤ}

theorem accountedSessionSeconds_old (h : OldSessions db card since) :
    accountedSessionSeconds db.radacct card.tenantId card.username
      (cardResetSince db card.tenantId card.username) = 0 := by
  rw [accountedSessionSeconds, cardResetSince_eq h]
  exact congrArg sumSeconds (select_since h)

theorem accountedSessionSeconds_asNew (since : Option ℤ) :
    accountedSessionSeconds (asNew db card).radacct card.tenantId card.username since = 0 := by
  rw [accountedSessionSeconds, select_asNew]
  rfl

theorem cardBudgetSessionCap_asNew (h : OldSessions db card since) (plan : AccessPlan) :
    cardBudgetSessionCap (asNew db card) (newAccount db card) plan =
      cardBudgetSessionCap db (cardToSubscriber db card) plan := by
  have hbatch : cardAndBatch (asNew db card) (newAccount db card).tenantId
      (newAccount db card).username =
        (cardAndBatch db (cardToSubscriber db card).tenantId
          (cardToSubscriber db card).username).map fun cb => (asNewRow card cb.1, cb.2) :=
    cardAndBatch_asNew _ _
  have hold : accountedSessionSeconds db.radacct (cardToSubscriber db card).tenantId
      (cardToSubscriber db card).username (cardResetSince db (cardToSubscriber db card).tenantId
        (cardToSubscriber db card).username) = 0 := accountedSessionSeconds_old h
  have hnew : ∀ t, accountedSessionSeconds (asNew db card).radacct (newAccount db card).tenantId
      (newAccount db card).username t = 0 := accountedSessionSeconds_asNew
  have hexpire : (newAccount db card).expireAt = (cardToSubscriber db card).expireAt := rfl
  rw [cardBudgetSessionCap, hbatch, cardBudgetSessionCap]
  cases cardAndBatch db (cardToSubscriber db card).tenantId (cardToSubscriber db card).username with
  | none => rfl
  | some cb =>
    obtain ⟨c, batch⟩ := cb
    have hextra : (asNewRow card c).extraSeconds = c.extraSeconds := by
      unfold asNewRow
      split_ifs <;> rfl
    simp only [Option.map_some, hextra, hold, hnew, hexpire]

theorem cardSessionWindowSeconds_asNew (tenantId : ℤ) (batchId : Option ℕ) (username : String) :
    cardSessionWindowSeconds (asNew db card) tenantId batchId username =
      cardSessionWindowSeconds db tenantId batchId username := by
  have hbase : cardBatchWindowSeconds (asNew db card) tenantId batchId =
    cardBatchWindowSeconds db tenantId batchId := rfl
  have hbatches : ∀ id, (asNew db card).batch tenantId id = db.batch tenantId id := fun _ => rfl
  simp only [cardSessionWindowSeconds, hbase, card_asNew]
  cases db.card tenantId username with
  | none => rfl
  | some c =>
    have hextra : (asNewRow card c).extraSeconds = c.extraSeconds := by
      unfold asNewRow
      split_ifs <;> rfl
    simp only [Option.map_some, batchId_asNewRow, hextra, hbatches]

theorem planned_asNew (h : OldSessions db card since) (d : Today) (plan : Option AccessPlan) :
    planned (asNew db card) d (newAccount db card) plan =
      planned db d (cardToSubscriber db card) plan := by
  have htimeout : ∀ p, planTimeout (asNew db card) (newAccount db card) p =
      planTimeout db (cardToSubscriber db card) p := fun p => by
    rw [planTimeout, cardBudgetSessionCap_asNew h, planTimeout]
    rfl
  have hsession : ∀ p, planSessionTimeout (asNew db card) d.now (newAccount db card) p =
      planSessionTimeout db d.now (cardToSubscriber db card) p := fun p => by
    rw [planSessionTimeout, htimeout, cardSessionWindowSeconds_asNew, planSessionTimeout]
    rfl
  simp only [planned, hsession]

theorem timeCapRemainingSeconds_card (t : RadacctTable) (d : Today) (plan : Option AccessPlan)
    {sub : Subscriber} (hcaps : effectiveTimeCaps sub plan =
      (0, (plan.map AccessPlan.maxDailyMinutes).getD 0)) :
    timeCapRemainingSeconds t d sub plan =
      if 0 < (plan.map AccessPlan.maxDailyMinutes).getD 0 then
        some (max 0 ((plan.map AccessPlan.maxDailyMinutes).getD 0 * 60 -
          min (accountedSessionSeconds t sub.tenantId sub.username (some d.since))
            (elapsedSince d.now d.since)))
      else none := by
  simp only [timeCapRemainingSeconds, hcaps, lt_irrefl, if_false]

theorem sessionTimeout_asNew_iff (henv : env.ReadsUse) (h : OldSessions db card since)
    (plan : Option AccessPlan) :
    sessionTimeout env.loads db (env.today (cardToSubscriber db card)) (cardToSubscriber db card)
        plan =
      sessionTimeout env.loads (asNew db card) (env.today (newAccount db card)) (newAccount db card)
        plan ↔ TimeoutKept env db (cardToSubscriber db card) plan := by
  have htoday : env.today (newAccount db card) = env.today (cardToSubscriber db card) :=
    henv.today _ _ _
  rw [htoday]
  generalize hd : env.today (cardToSubscriber db card) = d
  have hschedule : scheduleRemaining env.loads d (newAccount db card) plan =
    scheduleRemaining env.loads d (cardToSubscriber db card) plan := rfl
  have hplanned := planned_pos db d (cardToSubscriber db card) plan
  have hother : otherLimit env db (cardToSubscriber db card) plan =
      cutBy (planned db d (cardToSubscriber db card) plan)
        (scheduleRemaining env.loads d (cardToSubscriber db card) plan) := by
    rw [otherLimit, hd]
  have htaken : dayTaken env db (cardToSubscriber db card) =
      min (accountedSessionSeconds db.radacct card.tenantId card.username (some d.since))
        (elapsedSince d.now d.since) := by
    rw [dayTaken, hd]
    rfl
  have hnone : min (accountedSessionSeconds (asNew db card).radacct (newAccount db card).tenantId
      (newAccount db card).username (some d.since)) (elapsedSince d.now d.since) = 0 := by
    have hzero : accountedSessionSeconds (asNew db card).radacct (newAccount db card).tenantId
      (newAccount db card).username (some d.since) = 0 := accountedSessionSeconds_asNew _
    rw [hzero]
    exact min_eq_left (le_max_left _ _)
  have hextra : extraTimeout (cardToSubscriber db card) = none := rfl
  have hextraNew : extraTimeout (newAccount db card) = none := rfl
  have hsame : sessionTimeout env.loads db d (cardToSubscriber db card) plan =
        sessionTimeout env.loads (asNew db card) d (newAccount db card) plan ↔
      builtTimeout env.loads db d (cardToSubscriber db card) plan =
        builtTimeout env.loads (asNew db card) d (newAccount db card) plan := by
    rw [sessionTimeout, hextra, sessionTimeout, hextraNew]
    exact (Option.map_injective fun a b hab => TimeoutValue.seconds.inj hab).eq_iff
  have hcomm : ∀ c, cutBy (cutBy (planned db d (cardToSubscriber db card) plan) c)
      (scheduleRemaining env.loads d (cardToSubscriber db card) plan) =
        cutBy (otherLimit env db (cardToSubscriber db card) plan) c := fun c => by
    rw [hother, cutBy_right_comm hplanned]
  have hnew : effectiveTimeCaps (newAccount db card) plan =
    (0, (plan.map AccessPlan.maxDailyMinutes).getD 0) := rfl
  have hpositive : ∀ n ∈ otherLimit env db (cardToSubscriber db card) plan, 0 < n := by
    rw [hother]
    exact cutBy_pos hplanned
  rw [hsame, builtTimeout, builtTimeout, planned_asNew h, hschedule, hcomm, hcomm,
    timeCapRemainingSeconds_card _ _ _ (effectiveTimeCaps_card db card plan),
    timeCapRemainingSeconds_card _ _ _ hnew, hnone, TimeoutKept]
  by_cases hcap : 0 < (plan.map AccessPlan.maxDailyMinutes).getD 0
  · have hseconds : 0 < (plan.map AccessPlan.maxDailyMinutes).getD 0 * 60 := by omega
    have htaken' : min (accountedSessionSeconds db.radacct (cardToSubscriber db card).tenantId
        (cardToSubscriber db card).username (some d.since)) (elapsedSince d.now d.since) =
          dayTaken env db (cardToSubscriber db card) := htaken.symm
    rw [if_pos hcap, if_pos hcap, htaken', sub_zero, cutBy_taken_iff hpositive hseconds]
    simp [not_le.mpr hseconds]
  · have hzero : (plan.map AccessPlan.maxDailyMinutes).getD 0 * 60 ≤ 0 := by omega
    simp [if_neg hcap, hzero]

end

def withoutUse (db : Db) : Db :=
  { rest db with cards := db.cards.map neverReset, radacct := Table.empty }

section
variable {db : Db}

theorem card_withoutUse (tenantId : ℤ) (username : String) :
    (withoutUse db).card tenantId username = (db.card tenantId username).map neverReset := by
  have hkeys : ((fun c : Card => c.tenantId = tenantId && c.username = username) ∘ neverReset) =
    fun c : Card => c.tenantId = tenantId && c.username = username := rfl
  rw [Db.card, withoutUse, List.find?_map, hkeys, Db.card]

theorem updateCards_withoutUse {p : Card → Bool} {f : Card → Card}
    (hp : ∀ c, p (neverReset c) = p c) (hf : ∀ c, neverReset (f c) = f (neverReset c)) :
    withoutUse (db.updateCards p f) = (withoutUse db).updateCards p f := by
  have hcards : (db.cards.map fun c => if p c then f c else c).map neverReset =
      (db.cards.map neverReset).map fun c => if p c then f c else c := by
    rw [List.map_map, List.map_map]
    refine List.map_congr_left fun c _ => ?_
    simp only [Function.comp, hp]
    split_ifs
    · exact hf c
    · rfl
  simp only [withoutUse, rest, Db.updateCards, hcards]

theorem updateSubscribers_withoutUse (p : Subscriber → Bool) (f : Subscriber → Subscriber) :
    withoutUse (db.updateSubscribers p f) = (withoutUse db).updateSubscribers p f := rfl

theorem cardAndBatch_withoutUse (tenantId : ℤ) (username : String) :
    cardAndBatch (withoutUse db) tenantId username =
      (cardAndBatch db tenantId username).map fun cb => (neverReset cb.1, cb.2) := by
  rw [cardAndBatch, card_withoutUse, cardAndBatch]
  cases db.card tenantId username with
  | none => rfl
  | some c =>
    simp only [Option.map_some, Option.bind_some, Option.map_map]
    rfl

theorem stampSeconds_withoutUse (tenantId : ℤ) (username : String) :
    stampSeconds (withoutUse db) tenantId username = stampSeconds db tenantId username := by
  rw [stampSeconds, cardAndBatch_withoutUse, stampSeconds]
  cases cardAndBatch db tenantId username <;> rfl

theorem stampExpiry_withoutUse (last start tenantId : ℤ) (username : String) :
    withoutUse (stampExpiry db last start tenantId username) =
      stampExpiry (withoutUse db) last start tenantId username := by
  simp only [stampExpiry, stampSeconds_withoutUse]
  split_ifs
  · rw [updateSubscribers_withoutUse, updateCards_withoutUse]
    all_goals exact fun _ => rfl
  · rfl

theorem materializeFirstLoginValidity_withoutUse (last now tenantId : ℤ) (username : String)
    (card : Card) (batch : CardBatch) :
    withoutUse (materializeFirstLoginValidity db last now tenantId username card batch) =
      materializeFirstLoginValidity (withoutUse db) last now tenantId username (neverReset card)
        batch := by
  have hextra : cardExtraSeconds (withoutUse db) tenantId username =
      cardExtraSeconds db tenantId username := by
    rw [cardExtraSeconds, card_withoutUse, cardExtraSeconds]
    cases db.card tenantId username <;> rfl
  have hexpiry : firstLoginExpiry (withoutUse db) last now tenantId username (neverReset card)
      batch = firstLoginExpiry db last now tenantId username card batch := by
    rw [firstLoginExpiry, hextra, firstLoginExpiry]
    rfl
  simp only [materializeFirstLoginValidity, hexpiry]
  cases firstLoginExpiry db last now tenantId username card batch with
  | none => rfl
  | some e =>
    simp only
    rw [updateSubscribers_withoutUse, updateCards_withoutUse]
    · rfl
    · exact fun _ => rfl
    · exact fun _ => rfl

theorem onFirstConnect_withoutUse (last now tenantId : ℤ) (username callingStationId : String) :
    withoutUse (onFirstConnect db last now tenantId username callingStationId) =
      onFirstConnect (withoutUse db) last now tenantId username callingStationId := by
  rw [onFirstConnect, onFirstConnect, cardAndBatch_withoutUse]
  cases cardAndBatch db tenantId username with
  | none => rfl
  | some cb =>
    obtain ⟨card, batch⟩ := cb
    simp only [Option.map_some, materializeFirstLoginValidity_withoutUse]
    have hmac : (neverReset card).lockedMac = card.lockedMac := rfl
    have hid : (neverReset card).id = card.id := rfl
    rw [hmac, hid]
    split_ifs
    · rw [updateCards_withoutUse]
      all_goals exact fun _ => rfl
    · rfl

theorem updateLoginTimestamps_withoutUse {now tenantId : ℤ} {username : String}
    (hstart : stampStart db now tenantId username = now) (last : ℤ) (callingStationId : String) :
    withoutUse (updateLoginTimestamps db last now tenantId username callingStationId .card) =
      updateLoginTimestamps (withoutUse db) last now tenantId username callingStationId .card := by
  have hnow : stampStart (withoutUse db) now tenantId username = now := rfl
  simp only [updateLoginTimestamps, card_withoutUse, hstart, hnow]
  cases db.card tenantId username with
  | none => rfl
  | some card =>
    have hfirst : (neverReset card).firstUsedAt = card.firstUsedAt := rfl
    simp only [Option.map_some, hfirst, ite_self]
    split_ifs
    · rw [onFirstConnect_withoutUse, stampExpiry_withoutUse, updateCards_withoutUse]
      all_goals exact fun _ => rfl
    · rw [updateCards_withoutUse]
      all_goals exact fun _ => rfl

theorem stamps_withoutUse (card : Card) : stamps (withoutUse db) card = stamps db card := by
  rw [stamps, card_withoutUse, Option.map_map]
  rfl

theorem withoutUse_of_rest {db db' : Db} (h : rest db = rest db') : withoutUse db = withoutUse db' := by
  have hcards : (rest db).cards = (rest db').cards := by rw [h]
  have hcards' : db.cards = db'.cards := hcards
  rw [withoutUse, withoutUse, h, hcards']

theorem withoutUse_asNew (card : Card) : withoutUse (asNew db card) = withoutUse db := by
  have hcards : (db.cards.map (asNewRow card)).map neverReset = db.cards.map neverReset := by
    rw [List.map_map]
    refine List.map_congr_left fun c _ => ?_
    simp only [Function.comp, asNewRow]
    split_ifs <;> rfl
  simp only [withoutUse, rest, asNew, hcards]

end

section
variable {db : Db} {card : Card} {since : ℤ}

theorem stampStart_old (h : OldSessions db card since) (now : ℤ) :
    stampStart db now card.tenantId card.username = now := by
  rw [stampStart, earliestAccountedStart, cardResetSince_eq h, select_since h]
  rfl

theorem stampStart_asNew (now : ℤ) :
    stampStart (asNew db card) now card.tenantId card.username = now := by
  rw [stampStart, earliestAccountedStart, select_asNew]
  rfl

theorem stampStart_of_rest {db db' : Db} (h : rest db = rest db') (now tenantId : ℤ)
    (username : String) : stampStart db now tenantId username = stampStart db' now tenantId username := by
  have hsame : ∀ d : Db, stampStart (rest d) now tenantId username =
    stampStart d now tenantId username := fun _ => rfl
  rw [← hsame, h, hsame]

variable {env : Env} {req req' : AuthRequest}

theorem findLogin_named {sub : Subscriber} {source : Source}
    (h : findLogin db req = some (req', sub, source)) (hname : req.username ≠ "") :
    req'.username ≠ "" := by
  unfold findLogin at h
  dsimp only at h
  have hcard : ∀ {name : String}, name ≠ "" → ∀ login,
      (db.card req.tenantId name).map (fun c =>
        ({ req with username := name }, cardToSubscriber db c, Source.card)) = some login →
      login.1.username ≠ "" := by
    rintro name hne login hlogin
    obtain ⟨c, -, rfl⟩ := Option.map_eq_some_iff.mp hlogin
    exact hne
  cases hmirror : db.subscriber req.tenantId req.username false with
  | some mirror =>
    simp only [hmirror] at h
    split_ifs at h
    · cases hdirect : (db.card req.tenantId req.username).map fun c =>
          ({ req with username := req.username }, cardToSubscriber db c, Source.card) with
      | none =>
        rw [hdirect] at h
        obtain ⟨rfl, -⟩ := Prod.mk.inj (Option.some.inj h)
        exact hname
      | some login =>
        rw [hdirect] at h
        obtain rfl := Option.some.inj h
        exact hcard hname _ hdirect
    · obtain ⟨rfl, -⟩ := Prod.mk.inj (Option.some.inj h)
      exact hname
  | none =>
    simp only [hmirror] at h
    cases hdirect : (db.card req.tenantId req.username).map fun c =>
        ({ req with username := req.username }, cardToSubscriber db c, Source.card) with
    | some login =>
      rw [hdirect] at h
      obtain rfl := Option.some.inj h
      exact hcard hname _ hdirect
    | none =>
      rw [hdirect] at h
      split_ifs at h with hlowered
      · exact hcard hlowered.1 _ h
      · cases h

theorem answer_accepts_iff {as : List (Option Outcome)} {last : AuthDecision}
    (hlast : last.ok = true) (hrefuse : ∀ a ∈ as, ∀ o ∈ a, refused o) :
    (∃ d, Gate.answer (.ok last) as = .ok d ∧ d.ok = true) ↔ as.findSome? id = none := by
  unfold Gate.answer
  cases hfind : as.findSome? id with
  | none => simpa using hlast
  | some o =>
    obtain ⟨a, ha, hao⟩ := List.exists_of_findSome?_eq_some hfind
    have hrefused := hrefuse a ha o hao
    simp only [Option.getD_some, reduceCtorEq, iff_false, not_exists, not_and]
    rintro d rfl hok
    rw [refused, hok] at hrefused
    cases hrefused

theorem stamps_asNew : stamps (asNew db card) card = stamps db card := by
  rw [← stamps_withoutUse, withoutUse_asNew, stamps_withoutUse]

theorem stamps_authorized (h : OldSessions db card since) {t t' : Db} (ht : rest t = rest db)
    (ht' : rest t' = rest (asNew db card)) (last now : ℤ) (callingStationId : String) (p : Prop)
    [Decidable p] :
    stamps (if p then updateLoginTimestamps t last now card.tenantId card.username callingStationId
        .card else t) card =
      stamps (if p then updateLoginTimestamps t' last now card.tenantId card.username
        callingStationId .card else t') card := by
  have hview : withoutUse t = withoutUse t' := by
    rw [withoutUse_of_rest ht, withoutUse_of_rest ht', withoutUse_asNew]
  have hstart : stampStart t now card.tenantId card.username = now :=
    (stampStart_of_rest ht now _ _).trans (stampStart_old h now)
  have hstart' : stampStart t' now card.tenantId card.username = now :=
    (stampStart_of_rest ht' now _ _).trans (stampStart_asNew now)
  split_ifs
  · rw [← stamps_withoutUse, updateLoginTimestamps_withoutUse hstart, hview,
      ← updateLoginTimestamps_withoutUse hstart', stamps_withoutUse]
  · rw [← stamps_withoutUse, hview, stamps_withoutUse]

theorem servedAlike_asNew_iff (henv : env.ReadsUse) (h : OldSessions db card since)
    (hlogin : findLogin db req = some (req', cardToSubscriber db card, .card)) :
    ServedAlike env db req (asNew db card) card ↔
      (req.username ≠ "" → ForgetsUse env db req' (cardToSubscriber db card)
        (planOf db req' (cardToSubscriber db card))) := by
  by_cases hname : req.username = ""
  · have hempty : ∀ d : Db, authorize env d req = (.ok (reject "user_not_found"), d) := fun d => by
      rw [authorize, if_pos hname]
    simp only [ServedAlike, hempty, stamps_asNew, true_and, and_true, hname, ne_eq, not_true,
      false_implies, iff_true]
    rintro ⟨d, hd, hok⟩
    rw [hempty] at hd
    cases hd
    cases hok
  obtain ⟨hlogin', htenant, hself⟩ := findLogin_asNew h hlogin
  have hne : card.username ≠ "" := hself ▸ findLogin_named hlogin hname
  set plan := planOf db req' (cardToSubscriber db card) with hplan
  have hplan' : planOf (asNew db card) req' (newAccount db card) = plan := rfl
  obtain ⟨t, ht, hauth⟩ := @authorize_free env db req req' _ hname hlogin (maybeAutoRenew_old h)
    (sessionsAtLimit_old h plan req')
  obtain ⟨t', ht', hauth'⟩ := @authorize_free env _ req req' _ hname hlogin'
    (maybeAutoRenew_asNew h) (sessionsAtLimit_asNew plan req')
  have hwelcome : welcome env (newAccount db card) = welcome env (cardToSubscriber db card) := rfl
  rw [hplan', ← pairs_snd, hwelcome, htenant, hself] at hauth'
  rw [← hplan, htenant, hself] at hauth
  have hrefuse := @answers_refuse env db card req' henv h.unexpired plan
  rw [← pairs_fst] at hauth hrefuse
  have hanswers := Gate.answer_eq_iff (telling_pairs henv h htenant hne plan)
  have hforgets := (@Gate.alike_iff _ _ (pairs env db card req' plan)).symm.trans
    (alike_iff_forgetsUse henv h htenant hne plan)
  have haccepted : Accepted env db req ↔
      ((pairs env db card req' plan).map Prod.fst).findSome? id = none := by
    rw [Accepted, hauth]
    exact answer_accepts_iff rfl hrefuse
  have htimeout : replyTimeout env db req = replyTimeout env (asNew db card) req ↔
      TimeoutKept env db (cardToSubscriber db card) plan := by
    simp only [replyTimeout, hlogin, hlogin', Option.bind_some]
    exact sessionTimeout_asNew_iff henv h plan
  have hfirst : (authorize env db req).1 = (authorize env (asNew db card) req).1 ↔
      Gate.Alike True (pairs env db card req' plan) := by
    rw [hauth, hauth']
    exact hanswers
  rw [← hforgets, ServedAlike, hfirst, htimeout, haccepted]
  simp only [ne_eq, hname, not_false_eq_true, true_implies]
  constructor
  · rintro ⟨halike, hkept, -⟩
    exact ⟨halike, hkept⟩
  · rintro ⟨halike, hkept⟩
    refine ⟨halike, hkept, ?_⟩
    rw [hauth, hauth', Gate.findSome?_of_alike halike]
    exact stamps_authorized h ht ht' _ _ _ _

theorem card_resetCardUsage {now : ℤ} {c : Card}
    (hcard : db.card c.tenantId c.username = some c) :
    (resetCardUsage db now c.tenantId c.id).card c.tenantId c.username = some (resetAt now c) := by
  have hself : ofCardId c.tenantId c.id c = true := by simp [ofCardId]
  have hmem : c ∈ db.cards := List.mem_of_find?_eq_some hcard
  unfold resetCardUsage
  cases hfind : db.cards.find? (ofCardId c.tenantId c.id) with
  | none => exact absurd hself (List.find?_eq_none.mp hfind c hmem)
  | some c' =>
    have hkeys : ∀ c, (resetAt now c).tenantId = c.tenantId ∧ (resetAt now c).username = c.username :=
      fun _ => ⟨rfl, rfl⟩
    simp only [Db.card_updateSubscribers]
    rw [Db.card_updateCards_of hcard hkeys, if_pos hself]

theorem radacct_resetCardUsage (now tenantId : ℤ) (id : ℕ) :
    (resetCardUsage db now tenantId id).radacct = db.radacct := by
  unfold resetCardUsage
  cases db.cards.find? (ofCardId tenantId id) <;> rfl

theorem oldSessions_reset {now : ℤ} {c : Card} (hcard : db.card c.tenantId c.username = some c)
    (hclosed : ∀ r ∈ db.radacct.rows, ofUser c.tenantId c.username r = true →
      r.acctStopTime.isOpen = false)
    (hbefore : ∀ r ∈ db.radacct.rows, ofUser c.tenantId c.username r = true →
      r.acctStartTime.notBefore now = false) :
    OldSessions (resetCardUsage db now c.tenantId c.id) (resetAt now c) now where
  found := card_resetCardUsage hcard
  unusedYet := rfl
  unexpired := rfl
  reset := rfl
  closed := by
    rw [radacct_resetCardUsage]
    exact hclosed
  before := by
    rw [radacct_resetCardUsage]
    exact hbefore

end

/-- After a reset the card is served as a new one exactly when no gate that the login reaches holds
the old use against it. -/
theorem reset_served_as_new_iff (env : Env) (henv : env.ReadsUse) (db : Db) (now : ℤ) (c : Card)
    (hcard : db.card c.tenantId c.username = some c)
    (hclosed : ∀ r ∈ db.radacct.rows, ofUser c.tenantId c.username r = true →
      r.acctStopTime.isOpen = false)
    (hbefore : ∀ r ∈ db.radacct.rows, ofUser c.tenantId c.username r = true →
      r.acctStartTime.notBefore now = false) (req : AuthRequest)
    (hlogin : loginCard (resetCardUsage db now c.tenantId c.id) req = some (resetAt now c)) :
    let after := resetCardUsage db now c.tenantId c.id
    ServedAlike env after req (asNew after (resetAt now c)) (resetAt now c) ↔
      (req.username ≠ "" → ∀ login ∈ findLogin after req,
        ForgetsUse env after login.1 login.2.1 (planOf after login.1 login.2.1)) := by
  obtain ⟨req', hfound, -⟩ := findLogin_of_loginCard hlogin
  simp only [hfound, Option.mem_some_iff, forall_eq']
  exact servedAlike_asNew_iff henv (oldSessions_reset hcard hclosed hbefore) hfound

def dailyCard : Card :=
  { id := 1, batchId := 1, username := "ab12", password := "1", planId := some 1, used := true,
    firstUsedAt := .instant 0 }

def dailyDb (maxDailyMinutes : ℤ) : Db where
  cards := [dailyCard]
  batches := [{ id := 1 }]
  plans := [{ id := 1, maxDailyMinutes := maxDailyMinutes }]
  radacct := Table.empty.insert (fun n => {
    radacctid := n
    tenantId := 1
    username := "ab12"
    acctStartTime := .instant 0
    acctStopTime := .instant (3600 * second)
    acctSessionTime := 3600 }) fun _ => rfl
  planKeys := List.pairwise_singleton _ _

theorem calmEnv_readsUse (now : ℤ) : (calmEnv now).ReadsUse where
  blocks _ _ _ _ _ _ := rfl
  blocksReject := by rintro _ _ _ _ d ⟨⟩
  today _ _ _ := rfl
  quota _ _ _ _ _ _ := rfl
  quotaRejects := by rintro _ _ _ d ⟨⟩
  online _ _ _ _ _ := rfl

theorem dailyDb_closed (m now : ℤ) (hnow : 0 < now) :
    (∀ r ∈ (dailyDb m).radacct.rows, ofUser dailyCard.tenantId dailyCard.username r = true →
      r.acctStopTime.isOpen = false) ∧
    ∀ r ∈ (dailyDb m).radacct.rows, ofUser dailyCard.tenantId dailyCard.username r = true →
      r.acctStartTime.notBefore now = false := by
  simp [dailyDb, Stamp.isOpen, Stamp.notBefore, hnow]

theorem reset_served_as_new_no_limit :
    let after := resetCardUsage (dailyDb 0) (3600 * second) 1 1
    ServedAlike (calmEnv (7200 * second)) after { username := "ab12", password := "1" }
      (asNew after (resetAt (3600 * second) dailyCard)) (resetAt (3600 * second) dailyCard) := by
  obtain ⟨hclosed, hbefore⟩ := dailyDb_closed 0 (3600 * second) (by decide)
  refine (reset_served_as_new_iff (calmEnv (7200 * second)) (calmEnv_readsUse _) (dailyDb 0)
    (3600 * second) dailyCard (by decide) hclosed hbefore
    { username := "ab12", password := "1" } (by decide)).mpr fun _ login hlogin => ?_
  have hfound : findLogin (resetCardUsage (dailyDb 0) (3600 * second) dailyCard.tenantId dailyCard.id)
      { username := "ab12", password := "1" } =
        some ({ username := "ab12", password := "1" }, cardToSubscriber (resetCardUsage (dailyDb 0)
          (3600 * second) dailyCard.tenantId dailyCard.id) (resetAt (3600 * second) dailyCard),
          .card) := by
    decide
  obtain rfl := Option.some.inj (hfound.symm.trans hlogin)
  intro _ _ _ _
  refine ⟨rfl, fun _ => ⟨by decide, fun _ _ => ⟨?_, fun _ => ⟨?_, fun _ _ =>
    ⟨by decide, .inl le_rfl⟩⟩⟩⟩⟩
  · rintro ⟨v, hv, -⟩
    cases hv
  · exact fun hheld => hheld.1 (by decide)

/-- The hour of a card with a limit of an hour is held against it on the day of its reset. -/
theorem reset_card_refused_today : ¬∀ (env : Env) (db : Db) (now : ℤ) (c : Card) (req : AuthRequest),
    env.ReadsUse → db.card c.tenantId c.username = some c →
    (∀ r ∈ db.radacct.rows, ofUser c.tenantId c.username r = true →
      r.acctStopTime.isOpen = false) →
    (∀ r ∈ db.radacct.rows, ofUser c.tenantId c.username r = true →
      r.acctStartTime.notBefore now = false) →
    loginCard (resetCardUsage db now c.tenantId c.id) req = some (resetAt now c) →
    ServedAlike env (resetCardUsage db now c.tenantId c.id) req
      (asNew (resetCardUsage db now c.tenantId c.id) (resetAt now c)) (resetAt now c) := by
  intro h
  obtain ⟨hclosed, hbefore⟩ := dailyDb_closed 60 (3600 * second) (by decide)
  have hdecision := (h (calmEnv (7200 * second)) (dailyDb 60) (3600 * second) dailyCard
    { username := "ab12", password := "1" } (calmEnv_readsUse _) (by decide) hclosed hbefore
    (by decide)).1
  have hrefused : (authorize (calmEnv (7200 * second))
      (resetCardUsage (dailyDb 60) (3600 * second) dailyCard.tenantId dailyCard.id)
      { username := "ab12", password := "1" }).1 = .ok (reject "time_daily_exhausted") := by
    decide
  have hwelcome : (authorize (calmEnv (7200 * second))
      (asNew (resetCardUsage (dailyDb 60) (3600 * second) dailyCard.tenantId dailyCard.id)
        (resetAt (3600 * second) dailyCard)) { username := "ab12", password := "1" }).1 =
      .ok ⟨true, "", message "ok_welcome"⟩ := by
    decide
  rw [hrefused, hwelcome] at hdecision
  exact absurd (congrArg (fun o : Outcome => reasonOf o) hdecision) (by decide)

end RadiusModule.PolicyEngine
