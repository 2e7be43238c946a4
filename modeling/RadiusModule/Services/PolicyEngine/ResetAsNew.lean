import RadiusModule.Services.PolicyEngine.ResetCard

/-!
# A reset card is served as a new one

Two logins are compared: one of the reset card, one of the same card had it
never been used. Gate by gate the answers are equal, or the new card passes and
the reset one is refused for its past. So the logins end alike exactly when no
gate that is reached refuses the reset card for its past.
-/

namespace RadiusModule.PolicyEngine
open Library PyText AccessSchedule ScheduleWindow CardBatchFlags DeviceLimit

section
variable {env : Env} {db : Db} {card : Card} {since : ℤ} {req req' : AuthRequest}

theorem cardLogin_asNew (h : OldSessions db card since) (name : String) {source : Source}
    (hfound : ((db.card req.tenantId name).map fun c =>
      ({ req with username := name }, cardToSubscriber db c, Source.card)) =
        some (req', cardToSubscriber db card, source)) :
    ((asNew db card).card req.tenantId name).map (fun c =>
        ({ req with username := name }, cardToSubscriber (asNew db card) c, Source.card)) =
      some (req', newAccount db card, source) ∧
    req'.tenantId = card.tenantId ∧ req'.username = card.username := by
  obtain ⟨c, hc, heq⟩ := Option.map_eq_some_iff.mp hfound
  obtain ⟨rfl, hsub, rfl⟩ : { req with username := name } = req' ∧
      cardToSubscriber db c = cardToSubscriber db card ∧ Source.card = source := by
    simpa only [Prod.mk.injEq] using heq
  obtain ⟨htenant, hname⟩ := Db.card_found hc
  have htenant' : c.tenantId = card.tenantId := congrArg Subscriber.tenantId hsub
  have hname' : c.username = card.username := congrArg Subscriber.username hsub
  have hself : db.card card.tenantId card.username = some c := by
    rw [← htenant', ← hname', htenant, hname]
    exact hc
  obtain rfl := Option.some.inj (h.found.symm.trans hself)
  refine ⟨?_, htenant.symm, hname.symm⟩
  rw [card_asNew, hc, Option.map_some, asNewRow_self, Option.map_some, cardToSubscriber_asNew]
  rfl

theorem findLogin_asNew (h : OldSessions db card since)
    (hlogin : findLogin db req = some (req', cardToSubscriber db card, .card)) :
    findLogin (asNew db card) req = some (req', newAccount db card, .card) ∧
      req'.tenantId = card.tenantId ∧ req'.username = card.username := by
  have hnone : ∀ name, db.card req.tenantId name = none →
      (asNew db card).card req.tenantId name = none := fun name hname => by
    rw [card_asNew, hname, Option.map_none]
  have hsubscriber : (asNew db card).subscriber req.tenantId req.username false =
    db.subscriber req.tenantId req.username false := rfl
  unfold findLogin at hlogin ⊢
  rw [hsubscriber]
  cases hsub : db.subscriber req.tenantId req.username false with
  | some mirror =>
    simp only [hsub] at hlogin ⊢
    split_ifs at hlogin ⊢
    · cases hdirect : db.card req.tenantId req.username with
      | none =>
        rw [hdirect] at hlogin
        cases hlogin
      | some c =>
        have hfound := cardLogin_asNew h req.username (by rw [hdirect] at hlogin ⊢; exact hlogin)
        rw [hfound.1]
        exact ⟨rfl, hfound.2⟩
    · cases hlogin
  | none =>
    simp only [hsub] at hlogin ⊢
    cases hdirect : db.card req.tenantId req.username with
    | some c =>
      have hfound := cardLogin_asNew h req.username (by rw [hdirect] at hlogin ⊢; exact hlogin)
      rw [hfound.1]
      exact ⟨rfl, hfound.2⟩
    | none =>
      rw [hdirect] at hlogin
      rw [hnone _ hdirect]
      simp only [Option.map_none, Option.orElse_eq_orElse, Option.orElse_eq_or, Option.none_or]
        at hlogin ⊢
      split_ifs at hlogin ⊢
      have hfound := cardLogin_asNew h _ hlogin
      exact ⟨hfound.1, hfound.2⟩

theorem maybeAutoRenew_old (h : OldSessions db card since) :
    maybeAutoRenew db env.now (cardToSubscriber db card) .card =
      (db, cardToSubscriber db card) := by
  have hnone : renewal db env.now (cardToSubscriber db card) .card = none := by
    have hname : cardAndBatch db (cardToSubscriber db card).tenantId
        (cardToSubscriber db card).username = cardAndBatch db card.tenantId card.username := rfl
    have hunused : card.firstUsedAt.time?.isSome = false := by rw [h.unusedYet]; rfl
    rw [renewal, if_pos rfl, hname, cardAndBatch, h.found]
    cases hbatch : db.batch card.tenantId card.batchId with
    | none => simp [hbatch]
    | some batch => simp [hunused]
  rw [maybeAutoRenew, hnone]

theorem maybeAutoRenew_asNew (h : OldSessions db card since) :
    maybeAutoRenew (asNew db card) env.now (newAccount db card) .card =
      (asNew db card, newAccount db card) := by
  have hnone : renewal (asNew db card) env.now (newAccount db card) .card = none := by
    have hname : cardAndBatch (asNew db card) (newAccount db card).tenantId
        (newAccount db card).username =
          cardAndBatch (asNew db card) card.tenantId card.username := rfl
    have hunused : (neverReset card).firstUsedAt.time?.isSome = false := by
      rw [neverReset, h.unusedYet]
      rfl
    rw [renewal, if_pos rfl, hname, cardAndBatch, card_asNew_self h]
    cases hbatch : (asNew db card).batch card.tenantId (neverReset card).batchId with
    | none => simp [hbatch]
    | some batch => simp [hunused]
  rw [maybeAutoRenew, hnone]

end

section
variable {env : Env} {db : Db} {req req' : AuthRequest} {sub : Subscriber} {plan : Option AccessPlan}

theorem run_gates_fst (hfree : sessionsAtLimit env db sub plan req = none) :
    (Gate.run (gates env req sub plan .card) db).1 =
      (answers env db req sub plan).findSome? id := by
  rw [gates, Gate.run_append, run_readingGates, answers, List.findSome?_append]
  cases (firstAnswers env db req sub plan).findSome? id with
  | some d => rfl
  | none => exact run_writingGates_fst hfree

theorem settings_of_rest {db db' : Db} (h : rest db = rest db') : db.settings = db'.settings := by
  have hrest : (rest db).settings = (rest db').settings := by rw [h]
  exact hrest

theorem radacct_of_rest {db db' : Db} (h : rest db = rest db') : db.radacct = db'.radacct := by
  have hrest : (rest db).radacct = (rest db').radacct := by rw [h]
  exact hrest

theorem run_gates_rest (hfree : sessionsAtLimit env db sub plan req = none) :
    rest (Gate.run (gates env req sub plan .card) db).2 = rest db := by
  have hgates : ∀ g ∈ gates env req sub plan .card, ∀ t, rest t = rest db →
      rest (g t).2 = rest db := by
    refine List.forall_mem_append.mpr ⟨fun g hg t ht => ?_, ?_⟩
    · obtain ⟨f, -, rfl⟩ := List.mem_map.mp hg
      exact ht
    refine List.forall_mem_cons.mpr ⟨fun t ht =>
      (allowGate_keeps rest (fun _ _ => rfl) t).trans ht, List.forall_mem_cons.mpr ⟨fun t ht =>
      (cloneGate_keeps rest env req sub (fun _ _ _ => rfl) t).trans ht,
      List.forall_mem_cons.mpr ⟨fun t ht => ?_, List.forall_mem_cons.mpr ⟨fun t ht => ht,
      List.forall_mem_singleton.mpr fun t ht =>
        (slotGate_keeps rest (fun _ _ => rfl) t).trans ht⟩⟩⟩⟩
    have hlimit : sessionsAtLimit env t sub plan req = none :=
      (sessionsAtLimit_congr (settings_of_rest ht) (radacct_of_rest ht)).trans hfree
    rw [concurrentGate_free hlimit]
    exact ht
  exact Gate.run_preserves hgates rfl

theorem authorize_free (hname : req.username ≠ "")
    (hlogin : findLogin db req = some (req', sub, .card))
    (hrenew : maybeAutoRenew db env.now sub .card = (db, sub))
    (hfree : sessionsAtLimit env db sub (planOf db req' sub) req' = none) :
    ∃ t, rest t = rest db ∧ authorize env db req =
      (Gate.answer (.ok (welcome env sub)) (answers env db req' sub (planOf db req' sub)),
        if (answers env db req' sub (planOf db req' sub)).findSome? id = none then
          updateLoginTimestamps t env.last env.now req'.tenantId req'.username
            req'.callingStationId .card
        else t) := by
  refine ⟨_, run_gates_rest hfree, ?_⟩
  have hfst := run_gates_fst hfree
  simp only [authorize, if_neg hname, hlogin, hrenew]
  rcases hrun : Gate.run (gates env req' sub (planOf db req' sub) .card) db with ⟨decision, after⟩
  rw [hrun] at hfst
  simp only at hfst
  subst hfst
  cases hanswers : (answers env db req' sub (planOf db req' sub)).findSome? id with
  | none => simp [Gate.answer, hanswers]
  | some d => simp [Gate.answer, hanswers]

end

def reasonOf : Outcome → String
  | .ok d => d.reason
  | .error _ => ""

def refused : Outcome → Prop
  | .ok d => d.ok = false
  | .error _ => True

def Says (reasons : List String) (a : Option Outcome) : Prop :=
  ∀ o ∈ a, refused o ∧ reasonOf o ∈ reasons

theorem says_none (reasons : List String) : Says reasons none := by
  rintro o ⟨⟩

theorem says_map {reasons : List String} {a : Option AuthDecision}
    (h : ∀ d ∈ a, d.ok = false ∧ d.reason ∈ reasons) : Says reasons (a.map .ok) := by
  rintro o ho
  obtain ⟨d, hd, rfl⟩ := Option.map_eq_some_iff.mp ho
  exact h d hd

theorem says_reject {reason : String} {p : Prop} [Decidable p] :
    Says [reason] ((if p then some (reject reason) else none).map .ok) := by
  refine says_map fun d hd => ?_
  split_ifs at hd
  · obtain rfl := Option.some.inj hd
    exact ⟨rfl, List.mem_singleton_self _⟩
  · cases hd

def allowCodes : List String := ["allow_mode_at_capacity", "allow_mode_unknown_device",
  "open_mode", "no_mac", "device_allowed", "tofu_bind", "allow_mode_bind_failed"]

def cloneCodes : List String := ["mac_clone_detected", "stepup_required"]

section
variable (env : Env) (db : Db) (req : AuthRequest) (sub : Subscriber) (plan : Option AccessPlan)

theorem says_checkMac : Says ["mac_mismatch"] ((checkMac sub req).map .ok) := by
  refine says_map fun d hd => ?_
  simp only [checkMac] at hd
  split_ifs at hd
  · cases hd
  · obtain rfl := Option.some.inj hd
    exact ⟨rfl, List.mem_singleton_self _⟩
  · cases hd

theorem says_checkRandomMac (source : Source) :
    Says ["random_mac_blocked"] ((checkRandomMac db req source).map .ok) := by
  unfold checkRandomMac
  exact says_reject

theorem says_checkConnectionTime (t : RadacctTable) (d : Today) :
    Says ["time_total_exhausted", "time_daily_exhausted"]
      ((checkConnectionTime t d sub plan).map .ok) := by
  refine says_map fun e he => ?_
  simp only [checkConnectionTime] at he
  split_ifs at he
  · obtain rfl := Option.some.inj he
    exact ⟨rfl, by decide⟩
  · obtain rfl := Option.some.inj he
    exact ⟨rfl, by decide⟩
  · cases he

theorem says_checkAllowMode : Says allowCodes ((checkAllowMode db sub req).1.map .ok) := by
  rw [checkAllowMode_fst]
  refine says_map fun d hd => ?_
  obtain ⟨v, -, hv⟩ := Option.bind_eq_some_iff.mp hd
  split_ifs at hv
  obtain rfl := Option.some.inj hv
  refine ⟨rfl, ?_⟩
  cases hreason : v.2.reason <;> simp [denial, AllowMode.Reason.code, allowCodes]

theorem says_checkAntiMacClone :
    Says cloneCodes ((checkAntiMacClone env db sub req).1.map .ok) := by
  rw [checkAntiMacClone_fst]
  refine says_map fun d hd => ?_
  obtain ⟨v, -, hv⟩ := Option.bind_eq_some_iff.mp hd
  split_ifs at hv
  obtain rfl := Option.some.inj hv
  refine ⟨rfl, ?_⟩
  cases hreason : v.reason <;> simp [denial, cloneReason, cloneCodes]

theorem says_checkProviderActiveCap :
    Says ["provider_active_cap"] ((checkProviderActiveCap env db sub req).map .ok) := by
  refine says_map fun d hd => ?_
  unfold checkProviderActiveCap at hd
  split at hd
  · cases hd
  · split_ifs at hd
    · cases hd
    · obtain rfl := Option.some.inj hd
      exact ⟨rfl, List.mem_singleton_self _⟩
    · cases hd

theorem says_claimDeviceSlot :
    Says ["concurrent_limit"] ((claimDeviceSlot env db sub plan req).1.map .ok) := by
  refine says_map fun d hd => ?_
  simp only [claimDeviceSlot] at hd
  split_ifs at hd
  · cases hd
  · cases hd
  · obtain rfl := Option.some.inj hd
    exact ⟨rfl, List.mem_singleton_self _⟩

end

theorem checkDays_refuses {plan : AccessPlan} {now : ℤ} : ∀ d ∈ checkDays plan now, d.ok = false := by
  intro d hd
  unfold checkDays at hd
  split_ifs at hd
  · cases hd
  · exact (Option.some.inj hd) ▸ rfl

theorem checkPlanScheduleDays_refuses {loads : String → Option Json} {plan : Option AccessPlan}
    {localDt : ℤ} : ∀ d ∈ checkPlanScheduleDays loads plan localDt, d.ok = false := by
  intro d hd
  cases plan with
  | none => cases hd
  | some p =>
    simp only [checkPlanScheduleDays] at hd
    cases hwindows : hasWindows loads (strip p.connectionSchedule) with
    | error e =>
      rw [hwindows] at hd
      exact checkDays_refuses d hd
    | ok has =>
      rw [hwindows] at hd
      cases has with
      | false => exact checkDays_refuses d hd
      | true =>
        cases hallowed : isAllowed loads (strip p.connectionSchedule) localDt with
        | error e =>
          rw [hallowed] at hd
          exact checkDays_refuses d hd
        | ok allowed =>
          rw [hallowed] at hd
          cases allowed with
          | true => cases hd
          | false =>
            obtain rfl := Option.some.inj hd
            rfl

theorem checkOfferHours_refuses {plan : Option AccessPlan} {nowLocal : ℤ} {d : AuthDecision}
    (h : checkOfferHours plan nowLocal = .ok (some d)) : d.ok = false := by
  cases plan with
  | none => cases h
  | some p =>
    simp only [checkOfferHours] at h
    cases hoffer : offerWindows (some p) with
    | none => simp [hoffer] at h
    | some ws =>
      cases ws with
      | nil => simp [hoffer] at h
      | cons w ws =>
        cases hallowed : isAllowedWindow w nowLocal with
        | error e => simp [hoffer, hallowed, Except.map] at h
        | ok allowed =>
          cases allowed with
          | true => simp [hoffer, hallowed, Except.map] at h
          | false =>
            simp only [hoffer, hallowed, Except.map, Bool.false_eq_true, if_false, Except.ok.injEq,
              Option.some.injEq] at h
            exact h ▸ rfl

theorem refused_scheduleOutcome {env : Env} {sub : Subscriber} {plan : Option AccessPlan}
    (hsub : subscriberHasSchedule env.loads sub = false) :
    ∀ o ∈ scheduleOutcome env sub plan, refused o := by
  intro o ho
  unfold scheduleOutcome at ho
  cases hcheck : checkSchedule env.loads sub plan (env.today sub).localNow with
  | error e =>
    rw [hcheck] at ho
    obtain rfl := Option.some.inj ho
    trivial
  | ok bad =>
    rw [hcheck] at ho
    obtain ⟨d, rfl, rfl⟩ := Option.map_eq_some_iff.mp ho
    simp only [checkSchedule, checkScheduleDimension, hsub, Bool.false_eq_true, if_false] at hcheck
    cases hdays : checkPlanScheduleDays env.loads plan (env.today sub).localNow with
    | some bad =>
      rw [hdays] at hcheck
      obtain rfl : bad = d := by simpa using hcheck
      exact checkPlanScheduleDays_refuses bad hdays
    | none =>
      rw [hdays] at hcheck
      exact checkOfferHours_refuses hcheck

theorem Says.mono {reasons others : List String} {a : Option Outcome} (h : Says reasons a)
    (hsub : reasons ⊆ others) : Says others a :=
  fun o ho => ⟨(h o ho).1, hsub (h o ho).2⟩

theorem telling_cons {last : Outcome} {a b : Option Outcome} {reasons : List String}
    {ps : List (Option Outcome × Option Outcome)} (ha : Says reasons a) (hb : a ≠ b → b = none)
    (hlast : reasonOf last ∉ reasons) (others : List String) (hdisjoint : ∀ r ∈ others, r ∉ reasons)
    (hlater : ∀ p ∈ ps, Says others p.2) (hps : Gate.Telling last ps) :
    Gate.Telling last ((a, b) :: ps) := by
  refine ⟨fun hab => ⟨hb hab, ?_, fun p hp heq => ?_⟩, hps⟩
  · rintro rfl
    exact hlast (ha last rfl).2
  · cases a with
    | none => exact hab (hb hab).symm
    | some o => exact hdisjoint _ (hlater p hp o heq).2 (ha o rfl).2

theorem telling_same {last : Outcome} {a b : Option Outcome}
    {ps : List (Option Outcome × Option Outcome)} (hab : a = b) (hps : Gate.Telling last ps) :
    Gate.Telling last ((a, b) :: ps) :=
  ⟨fun hne => absurd hab hne, hps⟩

def laterCodes : List String :=
  ["card_time_exhausted", "mac_mismatch", "random_mac_blocked"] ++ allowCodes ++ cloneCodes ++
    ["provider_active_cap"]

section
variable {last : Outcome} {blocks password captive schedule quota budget time mac random allow
  allow' clone clone' cap slot : Option Outcome}

theorem telling_shape (hlast : reasonOf last = "") (hquota : Says ["quota_exhausted"] quota)
    (hbudget : Says ["card_time_exhausted"] budget)
    (htime : Says ["time_total_exhausted", "time_daily_exhausted"] time)
    (hmac : Says ["mac_mismatch"] mac) (hrandom : Says ["random_mac_blocked"] random)
    (hallow : Says allowCodes allow) (hallow' : Says allowCodes allow')
    (hallowDiff : allow ≠ allow' → allow' = none)
    (hclone : Says cloneCodes clone) (hclone' : Says cloneCodes clone')
    (hcloneDiff : clone ≠ clone' → clone' = none)
    (hcap : Says ["provider_active_cap"] cap) (hslot : Says ["concurrent_limit"] slot) :
    Gate.Telling last [(blocks, blocks), (password, password), (captive, captive),
      (schedule, schedule), (quota, none), (budget, budget), (time, none), (mac, mac),
      (random, random), (allow, allow'), (clone, clone'), (none, none), (cap, cap),
      (slot, none)] := by
  have hafterClone : ∀ p ∈ [((none : Option Outcome), none), (cap, cap), (slot, none)],
      Says ["provider_active_cap"] p.2 := by
    simpa [says_none] using hcap
  have hafterAllow : ∀ p ∈ (clone, clone') :: [(none, none), (cap, cap), (slot, none)],
      Says (cloneCodes ++ ["provider_active_cap"]) p.2 :=
    List.forall_mem_cons.mpr ⟨hclone'.mono (List.subset_append_left _ _),
      fun p hp => (hafterClone p hp).mono (List.subset_append_right _ _)⟩
  have hafterTime : ∀ p ∈ (mac, mac) :: (random, random) :: (allow, allow') :: (clone, clone') ::
      [(none, none), (cap, cap), (slot, none)], Says laterCodes p.2 :=
    List.forall_mem_cons.mpr ⟨hmac.mono (by decide), List.forall_mem_cons.mpr
      ⟨hrandom.mono (by decide), List.forall_mem_cons.mpr ⟨hallow'.mono (by decide),
        fun p hp => (hafterAllow p hp).mono (by decide)⟩⟩⟩
  have hafterQuota : ∀ p ∈ (budget, budget) :: (time, none) :: (mac, mac) :: (random, random) ::
      (allow, allow') :: (clone, clone') :: [(none, none), (cap, cap), (slot, none)],
      Says laterCodes p.2 :=
    List.forall_mem_cons.mpr ⟨hbudget.mono (by decide), List.forall_mem_cons.mpr
      ⟨says_none _, hafterTime⟩⟩
  have htold : ∀ reasons : List String, "" ∉ reasons → reasonOf last ∉ reasons := fun _ h => by
    rwa [hlast]
  refine telling_same rfl <| telling_same rfl <| telling_same rfl <| telling_same rfl <|
    telling_cons hquota (fun _ => rfl) (htold _ (by decide)) laterCodes (by decide) hafterQuota <|
    telling_same rfl <|
    telling_cons htime (fun _ => rfl) (htold _ (by decide)) laterCodes (by decide) hafterTime <|
    telling_same rfl <| telling_same rfl <|
    telling_cons hallow hallowDiff (htold _ (by decide)) _ (by decide) hafterAllow <|
    telling_cons hclone hcloneDiff (htold _ (by decide)) _ (by decide) hafterClone <|
    telling_same rfl <| telling_same rfl <|
    telling_cons hslot (fun _ => rfl) (htold _ (by decide)) [] (by simp) ?_ trivial
  simp

end

section
variable {env : Env} {db : Db} {card : Card} {since : ℤ} {req : AuthRequest}

def pairs (env : Env) (db : Db) (card : Card) (req : AuthRequest) (plan : Option AccessPlan) :
    List (Option Outcome × Option Outcome) :=
  (answers env db req (cardToSubscriber db card) plan).zip
    (answers env (asNew db card) req (newAccount db card) plan)

theorem pairs_fst (plan : Option AccessPlan) :
    (pairs env db card req plan).map Prod.fst =
      answers env db req (cardToSubscriber db card) plan :=
  List.map_fst_zip (by simp [answers, firstAnswers, readingGates, lastAnswers])

theorem pairs_snd (plan : Option AccessPlan) :
    (pairs env db card req plan).map Prod.snd =
      answers env (asNew db card) req (newAccount db card) plan :=
  List.map_snd_zip (by simp [answers, firstAnswers, readingGates, lastAnswers])

theorem scheduleOutcome_asNew (henv : env.ReadsUse) (plan : Option AccessPlan) :
    scheduleOutcome env (newAccount db card) plan =
      scheduleOutcome env (cardToSubscriber db card) plan := by
  have htoday : env.today (newAccount db card) = env.today (cardToSubscriber db card) :=
    henv.today _ _ _
  rw [scheduleOutcome, htoday, scheduleOutcome]
  rfl

theorem checkQuota_asNew (henv : env.ReadsUse) (plan : Option AccessPlan) :
    env.checkQuota (asNew db card).radacct (newAccount db card) plan = none :=
  henv.quota _ _ _ select_ofUser_asNew rfl rfl

theorem pairs_eq (henv : env.ReadsUse) (h : OldSessions db card since)
    (htenant : req.tenantId = card.tenantId) (plan : Option AccessPlan) :
    pairs env db card req plan =
      let sub := cardToSubscriber db card
      let same (a : Option Outcome) := (a, a)
      [same ((env.checkBlocks sub plan req .card).map .ok),
        same (if loginWithoutPassword db req.tenantId req.username then none
          else (checkPassword env.verifyChap sub req).map .ok),
        same ((checkExpiryCaptive env.captive env.now sub).map .ok),
        same (scheduleOutcome env sub plan),
        ((env.checkQuota db.radacct sub plan).map .ok, none),
        same ((checkCardTimeBudget db sub.tenantId sub.username plan).map fun _ =>
          .ok (reject "card_time_exhausted")),
        ((checkConnectionTime db.radacct (env.today sub) sub plan).map .ok, none),
        same ((checkMac sub req).map .ok),
        same ((checkRandomMac db req .card).map .ok),
        ((checkAllowMode db sub req).1.map .ok,
          (checkAllowMode (asNew db card) (newAccount db card) req).1.map .ok),
        ((checkAntiMacClone env db sub req).1.map .ok,
          (checkAntiMacClone env (asNew db card) (newAccount db card) req).1.map .ok),
        same none,
        same ((checkProviderActiveCap env db sub req).map .ok),
        ((claimDeviceSlot env db sub plan req).1.map .ok, none)] := by
  have hblocks : env.checkBlocks (newAccount db card) plan req .card =
      env.checkBlocks (cardToSubscriber db card) plan req .card := henv.blocks _ _ _ _ _ _
  have hpassword : checkPassword env.verifyChap (newAccount db card) req =
      checkPassword env.verifyChap (cardToSubscriber db card) req := rfl
  have hcaptive : checkExpiryCaptive env.captive env.now (newAccount db card) =
      checkExpiryCaptive env.captive env.now (cardToSubscriber db card) := rfl
  have hbudget : checkCardTimeBudget (asNew db card) (newAccount db card).tenantId
      (newAccount db card).username plan =
        checkCardTimeBudget db (cardToSubscriber db card).tenantId
          (cardToSubscriber db card).username plan := checkCardTimeBudget_asNew h plan
  have hmac : checkMac (newAccount db card) req = checkMac (cardToSubscriber db card) req := rfl
  have hrandom : checkRandomMac (asNew db card) req .card = checkRandomMac db req .card := rfl
  simp only [pairs, answers, firstAnswers, lastAnswers, readingGates, List.map_cons, List.map_nil,
    List.cons_append, List.nil_append, List.zip_cons_cons, List.zip_nil_right, hblocks,
    loginWithoutPassword_asNew, hpassword, hcaptive, scheduleOutcome_asNew henv,
    checkQuota_asNew henv, hbudget, checkConnectionTime_asNew, hmac, hrandom,
    checkProviderActiveCap_asNew henv h htenant, claimDeviceSlot_asNew, Option.map_none]

theorem map_ok_diff {a b : Option AuthDecision} (h : a = b ∨ b = none) :
    a.map (Except.ok (ε := ScheduleError)) ≠ b.map .ok →
      b.map (Except.ok (ε := ScheduleError)) = none := by
  rcases h with rfl | rfl
  · exact fun hne => absurd rfl hne
  · exact fun _ => rfl

theorem telling_pairs (henv : env.ReadsUse) (h : OldSessions db card since)
    (htenant : req.tenantId = card.tenantId) (hname : card.username ≠ "")
    (plan : Option AccessPlan) :
    Gate.Telling (.ok (welcome env (cardToSubscriber db card))) (pairs env db card req plan) := by
  rw [pairs_eq henv h htenant]
  refine telling_shape rfl ?_ ?_ (says_checkConnectionTime _ _ _ _) (says_checkMac _ _)
    (says_checkRandomMac _ _ _) (says_checkAllowMode _ _ _) (says_checkAllowMode _ _ _)
    (map_ok_diff ?_) (says_checkAntiMacClone _ _ _ _) (says_checkAntiMacClone _ _ _ _)
    (map_ok_diff ?_) (says_checkProviderActiveCap _ _ _ _) (says_claimDeviceSlot _ _ _ _ _)
  · exact says_map fun d hd => ⟨(henv.quotaRejects _ _ _ d hd).1,
      List.mem_singleton.mpr (henv.quotaRejects _ _ _ d hd).2⟩
  · rintro o ho
    obtain ⟨-, -, rfl⟩ := Option.map_eq_some_iff.mp ho
    exact ⟨rfl, List.mem_singleton_self _⟩
  · exact (checkAllowMode_asNew hname htenant).imp And.left And.left
  · exact (checkAntiMacClone_asNew h htenant).imp And.left And.left

theorem map_ok_eq_iff {a b : Option AuthDecision} {held : Prop}
    (h : a = b ∧ ¬held ∨ b = none ∧ (a = none ↔ ¬held)) :
    a.map (Except.ok (ε := ScheduleError)) = b.map .ok ↔ ¬held := by
  rcases h with ⟨rfl, hnot⟩ | ⟨rfl, hiff⟩
  · exact iff_of_true rfl hnot
  · rw [Option.map_none, Option.map_eq_none_iff, hiff]

theorem alike_iff_forgetsUse (henv : env.ReadsUse) (h : OldSessions db card since)
    (htenant : req.tenantId = card.tenantId) (hne : card.username ≠ "")
    (plan : Option AccessPlan) :
    Gate.Alike (TimeoutKept env db (cardToSubscriber db card) plan) (pairs env db card req plan) ↔
      ForgetsUse env db req (cardToSubscriber db card) plan := by
  have hallow := map_ok_eq_iff (@checkAllowMode_asNew db card hne req htenant)
  have hclone := map_ok_eq_iff (@checkAntiMacClone_asNew env db card since h req htenant)
  have hpassword : (if loginWithoutPassword db req.tenantId req.username then none
      else (checkPassword env.verifyChap (cardToSubscriber db card) req).map
        (Except.ok (ε := ScheduleError))) = none ↔
      (if loginWithoutPassword db req.tenantId req.username then none
        else checkPassword env.verifyChap (cardToSubscriber db card) req) = none := by
    split_ifs <;> simp
  have hpassed (p q : Prop) : p ∧ (p → q) ↔ p ∧ q := and_congr_right fun hp => by simp [hp]
  rw [pairs_eq henv h htenant]
  simp only [Gate.Alike, true_and, Option.map_eq_none_iff, hallow, hclone, hpassword, hpassed,
    ForgetsUse]

theorem subscriberHasSchedule_card (loads : String → Option Json) :
    subscriberHasSchedule loads (cardToSubscriber db card) = false := rfl

theorem checkExpiryCaptive_card (hexpire : card.expireAt = .null) (captive : Bool) (now : ℤ) :
    ∀ d ∈ checkExpiryCaptive captive now (cardToSubscriber db card), d.ok = false := by
  have hnone : (cardToSubscriber db card).expireAt.time? = none := by
    change card.expireAt.time? = none
    rw [hexpire]
    rfl
  intro d hd
  rw [checkExpiryCaptive, hnone, status_cardToSubscriber] at hd
  by_cases hdead : ((marks db card).revoked || (marks db card).batchDead) = true
  · simp [hdead] at hd
    exact hd ▸ rfl
  · simp [hdead] at hd

theorem answers_refuse (henv : env.ReadsUse) (hexpire : card.expireAt = .null)
    (plan : Option AccessPlan) :
    ∀ a ∈ answers env db req (cardToSubscriber db card) plan, ∀ o ∈ a, refused o := by
  have hmap {a : Option AuthDecision} (h : ∀ d ∈ a, d.ok = false) :
      ∀ o ∈ a.map (Except.ok (ε := ScheduleError)), refused o := by
    intro o ho
    obtain ⟨d, hd, rfl⟩ := Option.map_eq_some_iff.mp ho
    exact h d hd
  have hpassword : ∀ d ∈ checkPassword env.verifyChap (cardToSubscriber db card) req,
      d.ok = false := by
    intro d hd
    unfold checkPassword at hd
    split_ifs at hd <;> first | cases hd; done | exact (Option.some.inj hd) ▸ rfl
  have hnone : ∀ o ∈ (none : Option Outcome), refused o := by
    rintro o ⟨⟩
  simp only [answers, firstAnswers, readingGates, lastAnswers, List.map_cons, List.map_nil,
    List.cons_append, List.nil_append, List.forall_mem_cons]
  refine ⟨hmap (henv.blocksReject _ _ _ _), ?_, hmap (checkExpiryCaptive_card hexpire _ _),
    refused_scheduleOutcome (subscriberHasSchedule_card _),
    hmap fun d hd => (henv.quotaRejects _ _ _ d hd).1, ?_,
    fun o ho => (says_checkConnectionTime _ _ _ _ o ho).1, fun o ho => (says_checkMac _ _ o ho).1,
    fun o ho => (says_checkRandomMac _ _ _ o ho).1, fun o ho => (says_checkAllowMode _ _ _ o ho).1,
    fun o ho => (says_checkAntiMacClone _ _ _ _ o ho).1, hnone,
    fun o ho => (says_checkProviderActiveCap _ _ _ _ o ho).1,
    fun o ho => (says_claimDeviceSlot _ _ _ _ _ o ho).1, by simp⟩
  · split_ifs
    · exact hnone
    · exact hmap hpassword
  · rintro o ho
    obtain ⟨-, -, rfl⟩ := Option.map_eq_some_iff.mp ho
    rfl

end

end RadiusModule.PolicyEngine
