import RadiusModule.Services.CardTime.Grant

/-!
# What a grant adds

A grant counts from the budget of the batch. With it the window of a started
card ends later by what was granted, from now on if it had ended, and the
window of the first login is longer by it; grants add up, and a deduction
takes a grant back. A card whose budget its plan gives keeps to this only
where the missing budget does not show.
-/

namespace RadiusModule.CardTime
open Library CardAccounting CardBatchFlags PolicyEngine

section

variable {now base delta : ℤ} {card : Card}

theorem newExtra_eq (h : 0 ≤ base + (card.extraSeconds + delta)) :
    newExtra base card delta = card.extraSeconds + delta :=
  max_eq_left (by omega)

theorem newEnding_of_first {f : ℤ} (hleft : 0 ≤ base + (card.extraSeconds + delta))
    (hused : isExhausted base (card.extraSeconds + delta) = false)
    (hfirst : (newFirst now .fromFirstConnect base card delta).or card.firstUsedAt.time? = some f) :
    newEnding now .fromFirstConnect base card delta =
      .set (afterSeconds f (base + (card.extraSeconds + delta))) := by
  simp only [newEnding, newExtra_eq hleft, hused, Bool.false_eq_true, if_false, hfirst]

variable (now) in
theorem grantWrite_started {f : ℤ} (hf : card.firstUsedAt.time? = some f) (hdelta : 0 < delta)
    (hleft : 0 ≤ base + (card.extraSeconds + delta))
    (hused : isExhausted base (card.extraSeconds + delta) = false) :
    grantWrite now .fromFirstConnect base card delta =
      ⟨card.extraSeconds + delta,
        if afterSeconds f (base + card.extraSeconds) ≤ now then
          some (afterSeconds now (-(base + card.extraSeconds))) else none,
        .set (afterSeconds (max now (afterSeconds f (base + card.extraSeconds))) delta), false⟩ := by
  have hfirst : newFirst now .fromFirstConnect base card delta =
      if afterSeconds f (base + card.extraSeconds) ≤ now then
        some (afterSeconds now (-(base + card.extraSeconds))) else none := by
    simp [newFirst, hf, hdelta]
  have hending : newEnding now .fromFirstConnect base card delta =
      .set (afterSeconds (max now (afterSeconds f (base + card.extraSeconds))) delta) := by
    by_cases hended : afterSeconds f (base + card.extraSeconds) ≤ now
    · rw [if_pos hended] at hfirst
      rw [newEnding_of_first hleft hused (f := afterSeconds now (-(base + card.extraSeconds)))
        (by rw [hfirst, Option.some_or]), max_eq_left hended, Ending.set.injEq]
      simp only [afterSeconds]
      ring
    · rw [if_neg hended] at hfirst
      rw [newEnding_of_first hleft hused (f := f) (by rw [hfirst, Option.none_or, hf]),
        max_eq_right (not_le.mp hended).le, Ending.set.injEq]
      simp only [afterSeconds]
      ring
  rw [grantWrite, hending, hfirst, newExtra_eq hleft, hused]

theorem grantWrite_deducted {f : ℤ} (hf : card.firstUsedAt.time? = some f) (hdelta : delta < 0)
    (hleft : 0 ≤ base + (card.extraSeconds + delta))
    (hused : isExhausted base (card.extraSeconds + delta) = false) :
    grantWrite now .fromFirstConnect base card delta =
      ⟨card.extraSeconds + delta, none,
        .set (afterSeconds f (base + (card.extraSeconds + delta))), false⟩ := by
  have hfirst : newFirst now .fromFirstConnect base card delta = none := by
    simp [newFirst, hf, hdelta.le]
  rw [grantWrite, newEnding_of_first hleft hused (by rw [hfirst, Option.none_or, hf]), hfirst,
    newExtra_eq hleft, hused]

end

theorem not_exhausted {base extra : ℤ} (h : base ≤ 0 ∨ 0 < base + extra) :
    isExhausted base extra = false := by
  simp only [isExhausted, Bool.and_eq_false_iff, decide_eq_false_iff_not]
  omega

theorem afterSeconds_add (t m n : ℤ) : afterSeconds t (m + n) = afterSeconds (afterSeconds t m) n := by
  simp only [afterSeconds]
  ring

theorem lt_afterSeconds (t : ℤ) {n : ℤ} (h : 0 < n) : t < afterSeconds t n := by
  simp only [afterSeconds, second]
  omega

theorem firstUsedAt_row (w : Write) (c : Card) :
    (w.row c).firstUsedAt.time? = w.first.or c.firstUsedAt.time? := by
  unfold Write.row
  cases w.first <;> rfl

section

variable {now base a b f : ℤ} {card : Card} (hf : card.firstUsedAt.time? = some f) (ha : 0 < a)
  (hleft : 0 ≤ base + (card.extraSeconds + a))
  (hused : base ≤ 0 ∨ 0 < base + card.extraSeconds)
include hf ha hleft hused

variable (now) in
theorem restarted : ∃ f₁, ((grantWrite now .fromFirstConnect base card a).row
      card).firstUsedAt.time? = some f₁ ∧
    afterSeconds f₁ (base + (card.extraSeconds + a)) =
      afterSeconds (max now (afterSeconds f (base + card.extraSeconds))) a ∧
    (now < afterSeconds f (base + card.extraSeconds) → f₁ = f) := by
  rw [firstUsedAt_row, grantWrite_started now hf ha hleft (not_exhausted (by omega)), hf]
  by_cases hended : afterSeconds f (base + card.extraSeconds) ≤ now
  · refine ⟨afterSeconds now (-(base + card.extraSeconds)), by simp [hended], ?_, fun h => ?_⟩
    · rw [max_eq_left hended]
      simp only [afterSeconds]
      ring
    · exact absurd hended (not_le.mpr h)
  · refine ⟨f, by simp [hended], ?_, fun _ => rfl⟩
    rw [max_eq_right (not_le.mp hended).le, ← afterSeconds_add, add_assoc]

variable (now) in
theorem grantWrite_next (hb : 0 < b) :
    grantWrite now .fromFirstConnect base ((grantWrite now .fromFirstConnect base card a).row card)
      b = ⟨card.extraSeconds + a + b, none,
        .set (afterSeconds (max now (afterSeconds f (base + card.extraSeconds))) (a + b)), false⟩ := by
  obtain ⟨f₁, hf₁, hend, -⟩ := restarted now hf ha hleft hused
  have hextra : ((grantWrite now .fromFirstConnect base card a).row card).extraSeconds =
      card.extraSeconds + a := newExtra_eq hleft
  have hlater : now < afterSeconds (max now (afterSeconds f (base + card.extraSeconds))) a :=
    (le_max_left _ _).trans_lt (lt_afterSeconds _ ha)
  rw [grantWrite_started now hf₁ hb (by rw [hextra]; omega) (not_exhausted (by rw [hextra]; omega)),
    hextra, hend, if_neg (not_le.mpr hlater), max_eq_right hlater.le, afterSeconds_add _ a b]

theorem grantWrite_twice (hb : 0 < b) :
    (grantWrite now .fromFirstConnect base card a).after (grantWrite now .fromFirstConnect base
        ((grantWrite now .fromFirstConnect base card a).row card) b) =
      grantWrite now .fromFirstConnect base card (a + b) := by
  rw [grantWrite_next now hf ha hleft hused hb,
    grantWrite_started now hf ha hleft (not_exhausted (by omega)),
    grantWrite_started now hf (add_pos ha hb) (by omega) (not_exhausted (by omega)),
    Write.after, Option.none_or, add_assoc]

variable (now) in
theorem grantWrite_back (hlive : now < afterSeconds f (base + card.extraSeconds))
    (hbudget : 0 ≤ base + card.extraSeconds) :
    grantWrite now .fromFirstConnect base ((grantWrite now .fromFirstConnect base card a).row card)
      (-a) = ⟨card.extraSeconds, none, .set (afterSeconds f (base + card.extraSeconds)), false⟩ := by
  obtain ⟨f₁, hf₁, -, hsame⟩ := restarted now hf ha hleft hused
  rw [hsame hlive] at hf₁
  have hextra : ((grantWrite now .fromFirstConnect base card a).row card).extraSeconds + -a =
      card.extraSeconds := by
    rw [Write.row, grantWrite, newExtra_eq hleft]
    ring
  rw [grantWrite_deducted hf₁ (neg_lt_zero.mpr ha) (by rw [hextra]; exact hbudget)
    (not_exhausted (by rw [hextra]; exact hused)), hextra]

end

def EndsAt (db : Db) (card : Card) (stamp : Stamp) : Prop :=
  (db.card card.tenantId card.username).map Card.expireAt = some stamp ∧
    ∀ s ∈ db.subscribers, ofMirror card.tenantId card.username s = true → s.expireAt = stamp

def loggedIn (db : Db) (last t : ℤ) (card : Card) (station : String) : Db :=
  updateLoginTimestamps db last t card.tenantId card.username station .card

def loginEnd (last start t window budget extra : ℤ) : Option ℤ :=
  if 0 < window ∧ 0 < window + extra then some (clampExpiry last start (window + extra))
  else firstConnectExpiry last t (budgetWithExtra budget extra)

section

variable {last start t window budget extra a : ℤ}

theorem loginEnd_of_window (h : 0 < window ∧ 0 < window + extra) :
    loginEnd last start t window budget extra = some (min (afterSeconds start (window + extra)) last) :=
  if_pos h

theorem loginEnd_of_budget (h : ¬(0 < window ∧ 0 < window + extra)) (hbudget : 0 < budget)
    (hleft : 0 < budget + extra) :
    loginEnd last start t window budget extra = some (min (afterSeconds t (budget + extra)) last) := by
  rw [loginEnd, if_neg h, budgetWithExtra, if_neg (not_le.mpr hbudget), max_eq_right hleft.le,
    firstConnectExpiry, if_neg (not_le.mpr hleft), clampExpiry]

theorem loginEnd_longer (hbudget : 0 < budget) (hleft : 0 < budget + extra) (ha : 0 < a)
    (h : window ≤ 0 ∨ 0 < window + extra ∨ window + extra + a ≤ 0) :
    ∃ e, loginEnd last start t window budget extra = some e ∧
      loginEnd last start t window budget (extra + a) = some (min (afterSeconds e a) last) := by
  by_cases hwin : 0 < window ∧ 0 < window + extra
  · refine ⟨_, loginEnd_of_window hwin, ?_⟩
    rw [loginEnd_of_window ⟨hwin.1, by omega⟩, Option.some_inj]
    simp only [afterSeconds, second]
    omega
  · refine ⟨_, loginEnd_of_budget hwin hbudget hleft, ?_⟩
    rw [loginEnd_of_budget (by omega) hbudget (by omega), Option.some_inj]
    simp only [afterSeconds, second]
    omega

theorem loginEnd_shorter (hleft : 0 < budget + extra) (hstart : start ≤ t)
    (hlast : afterSeconds t (budget + extra + a) < last) (hwindow : 0 < window)
    (hdeducted : window + extra ≤ 0) (hgranted : 0 < window + extra + a) {e : ℤ}
    (he : loginEnd last start t window budget extra = some e) :
    loginEnd last start t window budget (extra + a) ≠ some (min (afterSeconds e a) last) := by
  rw [loginEnd_of_budget (by omega) (by omega) hleft, Option.some_inj] at he
  rw [loginEnd_of_window ⟨hwindow, by omega⟩, ne_eq, Option.some_inj, ← he]
  simp only [afterSeconds, second] at hlast ⊢
  omega

end

section

variable {db : Db} {card c : Card} {batch : CardBatch} {now limit delta : ℤ}

variable (limit) in
theorem granted_eq (hid : cardById db card.tenantId card.id = some c)
    (hbatch : db.batch card.tenantId c.batchId = some batch)
    (hflag : batch.countFromFirstConnect = true) (hdelta : delta ≠ 0) {w : Write}
    (hw : grantWrite now .fromFirstConnect (cardBudget batch none) c delta = w)
    (hcap : 0 < delta → w.potential now (cardBudget batch none) < limit) :
    granted db now limit card delta = some (w.apply db card.tenantId card.id c.username) := by
  have hmode : modeOf (some batch) = .fromFirstConnect := by simp [modeOf, hflag]
  have hcapped : (!w.exhausted && decide (0 < delta) &&
      decide (limit ≤ w.potential now (cardBudget batch none))) = false := by
    by_cases hpos : 0 < delta
    · simp [hcap hpos]
    · simp [hpos]
  simp only [granted, grantCardTime, hid, hbatch, hmode, baseBudget, Option.map_some,
    Option.getD_some, hw, hdelta, if_false, hcapped, Bool.false_eq_true]

theorem extra_granted {db' : Db} (hid : cardById db card.tenantId card.id = some c)
    (hbatch : db.batch card.tenantId c.batchId = some batch)
    (h : granted db now limit card delta = some db') :
    ∃ c', cardById db' card.tenantId card.id = some c' ∧ c'.batchId = c.batchId ∧
      c'.extraSeconds = newExtra (cardBudget batch none) c delta ∧
      db'.batch card.tenantId c.batchId = some batch := by
  simp only [granted, grantCardTime, hid, hbatch, baseBudget, Option.map_some,
    Option.getD_some] at h
  split_ifs at h with hzero hcap
  simp only [Option.some_inj] at h
  subst h
  refine ⟨_, cardById_apply _ _ hid, rfl, rfl, ?_⟩
  rw [apply_eq]
  exact hbatch

theorem endsAt_apply (hname : db.card card.tenantId card.username = some c) (hc : c.id = card.id)
    {stamp : Stamp} (h : EndsAt db card stamp) (w : Write) :
    EndsAt (w.apply db card.tenantId card.id card.username) card (w.ending.stamp stamp) := by
  have hcolumn : c.expireAt = stamp := by
    have hrow := h.1
    rwa [hname, Option.map_some, Option.some_inj] at hrow
  constructor
  · rw [← hc, card_apply w hname, Option.map_some, Write.row, hcolumn]
  · intro s hs hmine
    rw [apply_eq] at hs
    obtain ⟨s₀, hs₀, rfl⟩ := List.mem_map.mp hs
    split_ifs at hmine ⊢ with hmirror
    · rw [Write.account, h.2 s₀ hs₀ hmirror]
    · exact absurd hmine hmirror

theorem batch_apply (w : Write) (t : ℤ) (id : ℕ) :
    (w.apply db card.tenantId card.id card.username).batch t id = db.batch t id := by
  rw [apply_eq]
  rfl

theorem stampStart_apply (hname : db.card card.tenantId card.username = some card) (w : Write)
    (t : ℤ) : stampStart (w.apply db card.tenantId card.id card.username) t card.tenantId
      card.username = stampStart db t card.tenantId card.username := by
  have hreset : cardResetSince (w.apply db card.tenantId card.id card.username) card.tenantId
      card.username = cardResetSince db card.tenantId card.username := by
    rw [cardResetSince, card_apply w hname, cardResetSince, hname]
    rfl
  have hrows : (w.apply db card.tenantId card.id card.username).radacct = db.radacct := by
    rw [apply_eq]
    rfl
  rw [stampStart, stampStart, earliestAccountedStart, earliestAccountedStart, hreset, hrows]

theorem mirrors_update {stamp stamp' : Stamp} {q : Subscriber → Bool} {g : Subscriber → Subscriber}
    (h : ∀ s ∈ db.subscribers, ofMirror card.tenantId card.username s = true → s.expireAt = stamp)
    (hq : ∀ s, ofMirror card.tenantId card.username s = true → s.expireAt = stamp → q s = true)
    (hg : ∀ s, (g s).expireAt = stamp') :
    ∀ s ∈ (db.updateSubscribers q g).subscribers,
      ofMirror card.tenantId card.username s = true → s.expireAt = stamp' := by
  intro s hs hmine
  obtain ⟨s₀, hs₀, rfl⟩ := List.mem_map.mp hs
  split_ifs at hmine ⊢ with hreached
  · exact hg s₀
  · exact absurd (hq s₀ hmine (h s₀ hs₀ hmine)) hreached

variable (card) in
theorem endsAt_loggedIn (hname : db.card card.tenantId card.username = some card)
    (hbatch : db.batch card.tenantId card.batchId = some batch)
    (hflag : batch.countFromFirstConnect = true) (hfirst : card.firstUsedAt.time? = none)
    (hends : EndsAt db card .null) (last t : ℤ) (station : String) :
    EndsAt (loggedIn db last t card station) card
      (((loginEnd last (stampStart db t card.tenantId card.username) t (cardWindowSeconds batch)
        (cardBudget batch (livePlan db card.tenantId card)) card.extraSeconds).map
          Stamp.instant).getD .null) := by
  have hnull : card.expireAt = .null := by
    have hrow := hends.1
    rwa [hname, Option.map_some, Option.some_inj] at hrow
  obtain ⟨c, hc, -, hexpire⟩ :=
    card_updateLoginTimestamps last t station hname hbatch hflag hfirst
  constructor
  · rw [loggedIn, hc, Option.map_some, hexpire, hnull, loginEnd]
    split_ifs <;> simp_all [Stamp.isNull, Stamp.time?]
  · rw [loggedIn, subscribers_updateLoginTimestamps last t station hname hbatch hflag hfirst hnull,
      loginEnd]
    split_ifs
    · refine mirrors_update hends.2 ?_ fun _ => rfl
      intro s hs hopen
      simp [ofSubscriber_of_mirror hs, hopen, Stamp.isOpen]
    · cases firstConnectExpiry last t (budgetWithExtra
        (cardBudget batch (livePlan db card.tenantId card)) card.extraSeconds) with
      | none => exact hends.2
      | some e =>
        exact mirrors_update hends.2 (fun s hs _ => ofSubscriber_of_mirror hs) fun _ => rfl

theorem eq_some_of_stamp {o : Option ℤ} {e : ℤ}
    (h : (o.map Stamp.instant).getD .null = .instant e) : o = some e := by
  cases o with
  | none => simp at h
  | some e' => simpa using h

theorem endsAt_unique {stamp stamp' : Stamp} (h : EndsAt db card stamp)
    (h' : EndsAt db card stamp') : stamp = stamp' :=
  Option.some_inj.mp (h.1.symm.trans h'.1)

end

/-- What a grant to a card in use does: it moves the end from now on, adds up with a second one,
and is taken back by a deduction. -/
structure StartedGrants (db : Db) (now limit : ℤ) (card : Card) (e a b : ℤ) (da dab : Db) :
    Prop where
  once : granted db now limit card a = some da
  twice : granted da now limit card b = some dab
  both : granted db now limit card (a + b) = some dab
  ends : EndsAt da card (.instant (afterSeconds (max now e) a))
  later : e ≤ afterSeconds (max now e) a
  deducted : now < e → ∃ dd, granted da now limit card (-a) = some dd ∧
    EndsAt dd card (.instant e)

structure PendingGrants (db : Db) (now limit : ℤ) (card : Card) (a b : ℤ) (da dab : Db) :
    Prop where
  once : granted db now limit card a = some da
  twice : granted da now limit card b = some dab
  both : granted db now limit card (a + b) = some dab
  ends : EndsAt da card .null
  deducted : ∃ dd, granted da now limit card (-a) = some dd ∧ EndsAt dd card .null
  longer : ∀ t ≥ now, ∀ station, ∃ e,
    EndsAt (loggedIn db (limit - second) t card station) card (.instant e) ∧
    EndsAt (loggedIn da (limit - second) t card station) card
      (.instant (min (afterSeconds e a) (limit - second)))

section

variable {db : Db} {card : Card} {batch : CardBatch} {now limit a b f : ℤ} {stamp : Stamp}
  (hid : cardById db card.tenantId card.id = some card)
  (hname : db.card card.tenantId card.username = some card)
  (hbatch : db.batch card.tenantId card.batchId = some batch)
  (hflag : batch.countFromFirstConnect = true) (ha : 0 < a)

section

variable (hf : card.firstUsedAt.time? = some f) (hends : EndsAt db card stamp)
  (hleft : 0 ≤ cardBudget batch none + (card.extraSeconds + a))
  (hused : cardBudget batch none ≤ 0 ∨ 0 < cardBudget batch none + card.extraSeconds)
include hid hname hbatch hflag ha hf hends hleft hused

theorem granted_started (hcap : afterSeconds
      (max now (afterSeconds f (cardBudget batch none + card.extraSeconds))) a < limit) :
    granted db now limit card a = some ((grantWrite now .fromFirstConnect (cardBudget batch none)
        card a).apply db card.tenantId card.id card.username) ∧
      EndsAt ((grantWrite now .fromFirstConnect (cardBudget batch none) card a).apply db
        card.tenantId card.id card.username) card (.instant (afterSeconds
          (max now (afterSeconds f (cardBudget batch none + card.extraSeconds))) a)) := by
  have hwritten := grantWrite_started now hf ha hleft (not_exhausted (by omega))
  constructor
  · refine granted_eq limit hid hbatch hflag ha.ne' rfl fun _ => ?_
    rw [hwritten]
    exact hcap
  · have hset := endsAt_apply hname rfl hends
      (grantWrite now .fromFirstConnect (cardBudget batch none) card a)
    rwa [show (grantWrite now .fromFirstConnect (cardBudget batch none) card a).ending = _ from
      congrArg Write.ending hwritten] at hset

variable (now limit) in
theorem startedGrants (hb : 0 < b) (hcap : afterSeconds
      (max now (afterSeconds f (cardBudget batch none + card.extraSeconds))) (a + b) < limit)
    (hbudget : now < afterSeconds f (cardBudget batch none + card.extraSeconds) →
      0 ≤ cardBudget batch none + card.extraSeconds) :
    ∃ da dab, StartedGrants db now limit card
      (afterSeconds f (cardBudget batch none + card.extraSeconds)) a b da dab := by
  set base := cardBudget batch none with hbase
  set w := grantWrite now .fromFirstConnect base card a with hw
  have hfits := hcap
  rw [afterSeconds_add] at hfits
  obtain ⟨hda, hends'⟩ := granted_started hid hname hbatch hflag ha hf hends hleft hused
    ((lt_afterSeconds _ hb).trans hfits)
  have hfound := cardById_apply w card.username hid
  have hfoundName := card_apply w hname
  have hfoundBatch : (w.apply db card.tenantId card.id card.username).batch card.tenantId
      (w.row card).batchId = some batch := (batch_apply w _ _).trans hbatch
  have hnext := grantWrite_next now hf ha hleft hused hb
  have hdab := granted_eq limit hfound hfoundBatch hflag hb.ne' rfl fun _ => by
    rw [hnext]
    exact hcap
  have hsum : granted db now limit card (a + b) = some ((grantWrite now .fromFirstConnect base card
      (a + b)).apply db card.tenantId card.id card.username) := by
    refine granted_eq limit hid hbatch hflag (add_pos ha hb).ne' rfl fun _ => ?_
    rw [grantWrite_started now hf (add_pos ha hb) (by omega) (not_exhausted (by omega))]
    exact hcap
  refine ⟨_, _, hda, hdab, ?_, hends', ?_, fun hlive => ?_⟩
  · rw [hsum, ← grantWrite_twice hf ha hleft hused hb]
    exact congrArg some (apply_apply w db card.tenantId card.id card.username _).symm
  · exact (le_max_right _ _).trans (lt_afterSeconds _ ha).le
  · have hback := grantWrite_back now hf ha hleft hused hlive (hbudget hlive)
    have hdd := granted_eq limit hfound hfoundBatch hflag (neg_ne_zero.mpr ha.ne') hback
      fun hpos => absurd hpos (by omega)
    exact ⟨_, hdd, endsAt_apply hfoundName rfl hends' _⟩

end

section

variable (hfirst : card.firstUsedAt.time? = none) (hends : EndsAt db card .null)
include hid hname hbatch hflag hfirst hends

variable (card now limit) in
theorem granted_pending {delta : ℤ} (hdelta : delta ≠ 0)
    (hused : isExhausted (cardBudget batch none)
      (newExtra (cardBudget batch none) card delta) = false)
    (hcap : 0 < delta → afterSeconds now (max 0 (cardBudget batch none +
      newExtra (cardBudget batch none) card delta)) < limit) :
    granted db now limit card delta = some (Write.apply
      ⟨newExtra (cardBudget batch none) card delta, none, .keep, false⟩ db card.tenantId card.id
        card.username) := by
  have hnull : card.expireAt = .null := by
    have hrow := hends.1
    rwa [hname, Option.map_some, Option.some_inj] at hrow
  exact granted_eq limit hid hbatch hflag hdelta (grantWrite_open (Or.inr hfirst) hnull hused) hcap

omit hid in
theorem endsAt_loggedIn_apply (extra last t : ℤ) (station : String) :
    EndsAt (loggedIn (Write.apply ⟨extra, none, .keep, false⟩ db card.tenantId card.id
        card.username) last t card station) card
      (((loginEnd last (stampStart db t card.tenantId card.username) t (cardWindowSeconds batch)
        (cardBudget batch (livePlan db card.tenantId card)) extra).map
          Stamp.instant).getD .null) := by
  set w : Write := ⟨extra, none, .keep, false⟩
  have hends' : EndsAt (w.apply db card.tenantId card.id card.username) (w.row card) .null :=
    endsAt_apply hname rfl hends w
  have hfound : (w.apply db card.tenantId card.id card.username).card card.tenantId card.username =
      some (w.row card) := card_apply w hname
  have hfoundBatch : (w.apply db card.tenantId card.id card.username).batch card.tenantId
      (w.row card).batchId = some batch := (batch_apply w _ _).trans hbatch
  have hafter := endsAt_loggedIn (w.row card) hfound hfoundBatch hflag hfirst hends' last t
    station
  have hsame : stampStart (w.apply db card.tenantId card.id card.username) t
      (w.row card).tenantId (w.row card).username =
        stampStart db t card.tenantId card.username := stampStart_apply hname w t
  have hplan : livePlan (w.apply db card.tenantId card.id card.username) (w.row card).tenantId
      (w.row card) = livePlan db card.tenantId card := by
    rw [apply_eq]
    rfl
  rwa [hsame, hplan] at hafter

include ha

theorem pendingGrants (hb : 0 < b)
    (hleft : 0 ≤ cardBudget batch none + (card.extraSeconds + a))
    (hused : cardBudget batch none ≤ 0 ∨ 0 < cardBudget batch none + card.extraSeconds)
    (hcap : afterSeconds now
      (max 0 (cardBudget batch none + (card.extraSeconds + (a + b)))) < limit)
    (hlonger : ∀ t, ∃ e, loginEnd (limit - second)
        (stampStart db t card.tenantId card.username) t (cardWindowSeconds batch)
        (cardBudget batch (livePlan db card.tenantId card)) card.extraSeconds = some e ∧
      loginEnd (limit - second) (stampStart db t card.tenantId card.username) t
        (cardWindowSeconds batch) (cardBudget batch (livePlan db card.tenantId card))
        (card.extraSeconds + a) = some (min (afterSeconds e a) (limit - second))) :
    ∃ da dab, PendingGrants db now limit card a b da dab := by
  set base := cardBudget batch none with hbase
  set w : Write := ⟨card.extraSeconds + a, none, .keep, false⟩ with hw
  have hfits : afterSeconds now (max 0 (base + (card.extraSeconds + a))) < limit := by
    refine lt_of_le_of_lt ?_ hcap
    simp only [afterSeconds, second]
    omega
  have hda := granted_pending card now limit hid hname hbatch hflag hfirst hends
    ha.ne' (by rw [newExtra_eq hleft]; exact not_exhausted (by omega))
    fun _ => by rwa [newExtra_eq hleft]
  have hsum := granted_pending card now limit hid hname hbatch hflag hfirst hends
    (add_pos ha hb).ne' (by rw [newExtra_eq (by omega)]; exact not_exhausted (by omega))
    fun _ => by rwa [newExtra_eq (by omega)]
  rw [newExtra_eq hleft] at hda
  rw [newExtra_eq (by omega)] at hsum
  have hfound := cardById_apply w card.username hid
  have hfoundName := card_apply w hname
  have hfoundBatch : (w.apply db card.tenantId card.id card.username).batch card.tenantId
      (w.row card).batchId = some batch := (batch_apply w _ _).trans hbatch
  have hends' : EndsAt (w.apply db card.tenantId card.id card.username) card .null :=
    endsAt_apply hname rfl hends w
  have hextra : (w.row card).extraSeconds = card.extraSeconds + a := rfl
  have hmore : newExtra base (w.row card) b = card.extraSeconds + (a + b) := by
    rw [newExtra_eq (by rw [hextra]; omega), hextra, add_assoc]
  have hdab := granted_pending (w.row card) now limit hfound hfoundName
    hfoundBatch hflag hfirst hends' hb.ne' (by rw [← hbase, hmore]; exact not_exhausted (by omega))
    fun _ => by rwa [← hbase, hmore]
  have hdd := granted_pending (w.row card) now limit hfound hfoundName
    hfoundBatch hflag hfirst hends' (neg_ne_zero.mpr ha.ne')
    (not_exhausted (by rw [← hbase, newExtra, hextra]; omega)) fun hpos => absurd hpos (by omega)
  rw [← hbase, hmore] at hdab
  refine ⟨_, _, hda, hdab, ?_, hends', ⟨_, hdd, endsAt_apply hfoundName rfl hends' _⟩,
    fun t _ station => ?_⟩
  · rw [hsum]
    exact congrArg some (apply_apply w db card.tenantId card.id card.username
      ⟨card.extraSeconds + (a + b), none, .keep, false⟩).symm
  · obtain ⟨e, he, he'⟩ := hlonger t
    have hbefore := endsAt_loggedIn card hname hbatch hflag hfirst hends (limit - second) t station
    have hafter := endsAt_loggedIn_apply hname hbatch hflag hfirst hends (card.extraSeconds + a)
      (limit - second) t station
    rw [he] at hbefore
    rw [he'] at hafter
    exact ⟨e, hbefore, hafter⟩

end

end

/-- The end of the window of a started card whose budget is `budget`. -/
def windowEnd (card : Card) (budget : ℤ) : Option ℤ :=
  card.firstUsedAt.time?.map (afterSeconds · (budget + card.extraSeconds))

/-- Two grants at `now` to a card whose budget is `budget` add what they are to add. -/
def GrantsAdd (db : Db) (now limit : ℤ) (card : Card) (budget a b : ℤ) : Prop :=
  ∃ da dab, match windowEnd card budget with
    | some e => StartedGrants db now limit card e a b da dab
    | none => PendingGrants db now limit card a b da dab

/-- The cards and grants where a budget that only the plan gives does not show, and no grant makes
a window of a deducted one. -/
def GrantExact (now : ℤ) (card : Card) (batch : CardBatch) (plan : Option AccessPlan) (a : ℤ) :
    Prop :=
  match windowEnd card (cardBudget batch plan) with
  | some e => 0 < cardBudget batch none ∨ e ≤ now ∧ 0 ≤ card.extraSeconds + a
  | none =>
    (0 < cardBudget batch none ∨
      (∀ p ∈ plan, p.deletedAt.isNull = true) ∧ 0 ≤ card.extraSeconds + a) ∧
    (cardWindowSeconds batch ≤ 0 ∨ 0 < cardWindowSeconds batch + card.extraSeconds ∨
      cardWindowSeconds batch + card.extraSeconds + a ≤ 0)

theorem cardBudget_nonneg (batch : CardBatch) (plan : Option AccessPlan) :
    0 ≤ cardBudget batch plan := by
  simp only [cardBudget, budgetSeconds]
  split_ifs <;> omega

section

variable {db : Db} {card : Card} {batch : CardBatch} {plan : Option AccessPlan}
  {now limit a b f : ℤ} (hid : cardById db card.tenantId card.id = some card)
  (hname : db.card card.tenantId card.username = some card)
  (hbatch : db.batch card.tenantId card.batchId = some batch)
  (hflag : batch.countFromFirstConnect = true)
  (hleft : 0 < cardBudget batch plan + card.extraSeconds) (ha : 0 < a) (hb : 0 < b)
include hid hbatch hb

omit hname hflag hleft ha in
theorem extra_of_add {da dab : Db} (hbase : cardBudget batch none = 0)
    (once : granted db now limit card a = some da)
    (twice : granted da now limit card b = some dab)
    (both : granted db now limit card (a + b) = some dab) : 0 ≤ card.extraSeconds + a := by
  obtain ⟨c, hc, hcbatch, hextra, hbatch'⟩ := extra_granted hid hbatch once
  obtain ⟨c₁, hc₁, -, hextra₁, -⟩ := extra_granted hc (by rwa [hcbatch]) twice
  obtain ⟨c₂, hc₂, -, hextra₂, -⟩ := extra_granted hid hbatch both
  rw [hc₁, Option.some_inj] at hc₂
  rw [← hc₂, hextra₁, newExtra, newExtra, hextra, newExtra, hbase] at hextra₂
  omega

include hname hflag hleft ha

theorem startedGrants_iff (hbudget : 0 < cardBudget batch plan)
    (hf : card.firstUsedAt.time? = some f)
    (hends : EndsAt db card
      (.instant (afterSeconds f (cardBudget batch plan + card.extraSeconds))))
    (hcap : afterSeconds (max now (afterSeconds f (cardBudget batch plan + card.extraSeconds)))
      (a + b) < limit) :
    (∃ da dab, StartedGrants db now limit card
      (afterSeconds f (cardBudget batch plan + card.extraSeconds)) a b da dab) ↔
    0 < cardBudget batch none ∨
      afterSeconds f (cardBudget batch plan + card.extraSeconds) ≤ now ∧
        0 ≤ card.extraSeconds + a := by
  by_cases hpos : 0 < cardBudget batch none
  · rw [cardBudget_of_batch hpos plan] at hends hcap hleft ⊢
    refine iff_of_true ?_ (Or.inl hpos)
    exact startedGrants now limit hid hname hbatch hflag ha hf hends (by omega) (by omega) hb hcap
      fun _ => hleft.le
  · have hbase : cardBudget batch none = 0 := le_antisymm (not_lt.mp hpos) (cardBudget_nonneg _ _)
    have hearlier : afterSeconds f (cardBudget batch none + card.extraSeconds) <
        afterSeconds f (cardBudget batch plan + card.extraSeconds) := by
      simp only [afterSeconds, second]
      omega
    constructor
    · rintro ⟨da, dab, h⟩
      have hextra := extra_of_add hid hbatch hb hbase h.once h.twice h.both
      have hcap' : afterSeconds (max now (afterSeconds f
          (cardBudget batch none + card.extraSeconds))) a < limit := by
        simp only [afterSeconds, second] at hcap ⊢
        omega
      obtain ⟨hda, hend⟩ :=
        granted_started hid hname hbatch hflag ha hf hends (by omega) (by omega) hcap'
      have hsame := h.once
      rw [hda, Option.some_inj] at hsame
      rw [hsame] at hend
      have hends' := endsAt_unique hend h.ends
      refine Or.inr ⟨?_, hextra⟩
      simp only [Stamp.instant.injEq, afterSeconds, second] at hends' hearlier ⊢
      omega
    · rintro (h | ⟨hover, hextra⟩)
      · exact absurd h hpos
      · -- both windows have ended, so that both grants count from now on
        have hover' := hearlier.le.trans hover
        rw [max_eq_left hover] at hcap
        obtain ⟨da, dab, h⟩ := startedGrants now limit hid hname hbatch hflag ha
          hf hends (by omega) (by omega) hb (by rwa [max_eq_left hover'])
          fun hlive => absurd hover' (not_le.mpr hlive)
        refine ⟨da, dab, h.once, h.twice, h.both, ?_, ?_, fun hlive =>
          absurd hover (not_le.mpr hlive)⟩
        · rw [max_eq_left hover, ← max_eq_left hover']
          exact h.ends
        · exact (le_max_right _ _).trans (lt_afterSeconds _ ha).le

theorem pendingGrants_iff (hbudget : 0 < cardBudget batch plan)
    (hplan : plan = card.planId.bind fun id => db.plan card.tenantId id true)
    (hfirst : card.firstUsedAt.time? = none) (hends : EndsAt db card .null)
    (hcap : afterSeconds now (cardBudget batch plan + card.extraSeconds + (a + b)) < limit) :
    (∃ da dab, PendingGrants db now limit card a b da dab) ↔
    (0 < cardBudget batch none ∨
      (∀ p ∈ plan, p.deletedAt.isNull = true) ∧ 0 ≤ card.extraSeconds + a) ∧
    (cardWindowSeconds batch ≤ 0 ∨ 0 < cardWindowSeconds batch + card.extraSeconds ∨
      cardWindowSeconds batch + card.extraSeconds + a ≤ 0) := by
  have hnonneg := cardBudget_nonneg batch none
  have hsame := fun h : 0 < cardBudget batch none => cardBudget_of_batch h plan
  have hlive := livePlan_eq hplan
  constructor
  · rintro ⟨da, dab, h⟩
    obtain ⟨e, hbefore, hafter⟩ := h.longer now le_rfl ""
    set start := stampStart db now card.tenantId card.username
    have he : loginEnd (limit - second) start now (cardWindowSeconds batch)
        (cardBudget batch (livePlan db card.tenantId card)) card.extraSeconds = some e :=
      eq_some_of_stamp (endsAt_unique
        (endsAt_loggedIn card hname hbatch hflag hfirst hends (limit - second) now "") hbefore)
    constructor
    · obtain ⟨-, hgiven⟩ | ⟨hgone, hnot⟩ := liveBudget_cases batch plan
      · by_cases hpos : 0 < cardBudget batch none
        · exact Or.inl hpos
        · exact Or.inr ⟨hgiven.resolve_left hpos,
            extra_of_add hid hbatch hb (by omega) h.once h.twice h.both⟩
      · rw [← hlive] at hgone
        have hwindow : ¬0 < cardWindowSeconds batch := fun hwindow =>
          hnot (Or.inl (cardBudget_pos_of_window hwindow))
        rw [loginEnd, if_neg fun hwin => hwindow hwin.1, budgetWithExtra, if_pos hgone,
          firstConnectExpiry, if_pos le_rfl] at he
        cases he
    · by_contra hnot
      obtain ⟨hwindow, hdeducted, hgranted⟩ : 0 < cardWindowSeconds batch ∧
          cardWindowSeconds batch + card.extraSeconds ≤ 0 ∧
          0 < cardWindowSeconds batch + card.extraSeconds + a := by omega
      have hpos := cardBudget_pos_of_window hwindow
      have hbudgets := cardBudget_of_batch hpos (livePlan db card.tenantId card)
      rw [hsame hpos] at hleft hcap
      rw [hbudgets] at he
      have hda := granted_pending card now limit hid hname hbatch hflag hfirst
        hends ha.ne' (by
          rw [newExtra_eq (by omega)]
          exact not_exhausted (by omega)) fun _ => by
          rw [newExtra_eq (by omega)]
          refine lt_of_le_of_lt ?_ hcap
          simp only [afterSeconds, second]
          omega
      rw [newExtra_eq (by omega), h.once, Option.some_inj] at hda
      have hstamped' := endsAt_loggedIn_apply hname hbatch hflag hfirst hends
        (card.extraSeconds + a) (limit - second) now ""
      rw [← hda, hbudgets] at hstamped'
      refine loginEnd_shorter hleft (stampStart_le db now card.tenantId card.username) ?_ hwindow
        hdeducted hgranted he (eq_some_of_stamp (endsAt_unique hstamped' hafter))
      simp only [afterSeconds, second] at hcap ⊢
      omega
  · rintro ⟨hgiven, hkept⟩
    have hbudgets : cardBudget batch (livePlan db card.tenantId card) = cardBudget batch plan := by
      rw [hlive]
      obtain ⟨hsame, -⟩ | ⟨-, hnot⟩ := liveBudget_cases batch plan
      · exact hsame
      · exact absurd (hgiven.imp_right And.left) hnot
    refine pendingGrants hid hname hbatch hflag ha hfirst hends hb ?_ ?_ ?_ fun t => ?_
    · by_cases hpos : 0 < cardBudget batch none
      · have := hsame hpos
        omega
      · have := hgiven.resolve_left hpos
        omega
    · by_cases hpos : 0 < cardBudget batch none
      · exact Or.inr (hsame hpos ▸ hleft)
      · exact Or.inl (not_lt.mp hpos)
    · refine lt_of_le_of_lt ?_ hcap
      have hle : cardBudget batch none ≤ cardBudget batch plan := by
        by_cases hpos : 0 < cardBudget batch none
        · exact (hsame hpos).ge
        · omega
      simp only [afterSeconds, second]
      omega
    · rw [hbudgets]
      exact loginEnd_longer hbudget hleft ha hkept

end

theorem grants_add_iff {db : Db} {card : Card} {batch : CardBatch} {plan : Option AccessPlan}
    {now limit a b : ℤ} (hid : cardById db card.tenantId card.id = some card)
    (hname : db.card card.tenantId card.username = some card)
    (hbatch : db.batch card.tenantId card.batchId = some batch)
    (hflag : batch.countFromFirstConnect = true)
    (hplan : plan = card.planId.bind fun id => db.plan card.tenantId id true)
    (hbudget : 0 < cardBudget batch plan)
    (hleft : 0 < cardBudget batch plan + card.extraSeconds)
    (hends : EndsAt db card
      (((windowEnd card (cardBudget batch plan)).map Stamp.instant).getD .null))
    (ha : 0 < a) (hb : 0 < b)
    (hcap : afterSeconds (((windowEnd card (cardBudget batch plan)).map (max now)).getD
      (afterSeconds now (cardBudget batch plan + card.extraSeconds))) (a + b) < limit) :
    GrantsAdd db now limit card (cardBudget batch plan) a b ↔ GrantExact now card batch plan a := by
  unfold GrantsAdd GrantExact
  cases hfirst : card.firstUsedAt.time? with
  | some f =>
    have hwindow : windowEnd card (cardBudget batch plan) =
        some (afterSeconds f (cardBudget batch plan + card.extraSeconds)) := by
      rw [windowEnd, hfirst, Option.map_some]
    rw [hwindow] at hends hcap ⊢
    exact startedGrants_iff hid hname hbatch hflag hleft ha hb hbudget hfirst hends hcap
  | none =>
    have hwindow : windowEnd card (cardBudget batch plan) = none := by
      rw [windowEnd, hfirst, Option.map_none]
    rw [hwindow] at hends hcap ⊢
    rw [Option.map_none, Option.getD_none, ← afterSeconds_add] at hcap
    exact pendingGrants_iff hid hname hbatch hflag hleft ha hb hbudget hplan hfirst hends hcap

def startedCard : Card :=
  { freshCard with firstUsedAt := .instant 0, expireAt := .instant (4 * 3600 * second) }

def startedDb : Db where
  cards := [startedCard]
  batches := [fourHours]
  subscribers := [{ username := "c1", userType := .card, expireAt := .instant (4 * 3600 * second) }]

theorem grants_add_ten_minutes :
    GrantsAdd startedDb (3600 * second) lastExpiry startedCard (4 * 3600) 600 60 :=
  (@grants_add_iff startedDb startedCard fourHours none (3600 * second) lastExpiry 600 60
    (by rfl) (by rfl) (by rfl) (by rfl) (by rfl) (by decide) (by decide) ⟨by rfl, by decide⟩
    (by decide) (by decide) (by decide)).mpr (Or.inl (by decide))

def plainBatch : CardBatch := { id := 1 }

def hourPlan : AccessPlan := { id := 1, durationMinutes := 60 }

def hourCard : Card :=
  { freshCard with
    planId := some 1, firstUsedAt := .instant 0, expireAt := .instant (3600 * second) }

def hourDb : Db where
  cards := [hourCard]
  batches := [plainBatch]
  plans := [hourPlan]

/-- Ten minutes granted to a card that has nearly an hour left end it after ten minutes. -/
theorem hour_of_plan_shortened :
    ¬∀ (db : Db) (card : Card) (batch : CardBatch) (plan : Option AccessPlan) (now limit a b : ℤ),
      cardById db card.tenantId card.id = some card →
      db.card card.tenantId card.username = some card →
      db.batch card.tenantId card.batchId = some batch → batch.countFromFirstConnect = true →
      (plan = card.planId.bind fun id => db.plan card.tenantId id true) →
      0 < cardBudget batch plan → 0 < cardBudget batch plan + card.extraSeconds →
      EndsAt db card (((windowEnd card (cardBudget batch plan)).map Stamp.instant).getD .null) →
      0 < a → 0 < b →
      afterSeconds (((windowEnd card (cardBudget batch plan)).map (max now)).getD
        (afterSeconds now (cardBudget batch plan + card.extraSeconds))) (a + b) < limit →
      GrantsAdd db now limit card (cardBudget batch plan) a b := by
  intro h
  obtain ⟨da, dab, hgrants⟩ := h hourDb hourCard plainBatch (some hourPlan) second lastExpiry 600 60
    (by rfl) (by rfl) (by rfl) (by rfl) (by rfl) (by decide) (by decide) ⟨by rfl, by decide⟩
    (by decide) (by decide) (by decide)
  have hends : (granted hourDb second lastExpiry hourCard 600).map
      (fun d => (d.card 1 "c1").map Card.expireAt) =
        some (some (.instant (601 * second))) := by decide
  have hend := hgrants.ends.1
  rw [show granted hourDb second lastExpiry hourCard 600 = some da from hgrants.once,
    Option.map_some, Option.some_inj] at hends
  exact absurd (hends.symm.trans hend) (by decide)

end RadiusModule.CardTime
