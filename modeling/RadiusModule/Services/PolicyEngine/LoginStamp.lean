import RadiusModule.Services.PolicyEngine.SessionTimeout

/-!
# The first login of a card

An accepted login stamps the card: with the batch's window from the start of
the count, or else, when the batch counts from the first connection, with the
card's budget from now on. The checker shows the budget counted from the first
login. One call reads the clock once, as `now`.
-/

namespace RadiusModule.PolicyEngine
open Library PyText CardAccounting CardBatchFlags DeviceLimit

section
variable (db : Db)

def earliestAccountedStart (tenantId : ℤ) (username : String) : Option ℤ :=
  ((db.radacct.select fun r => ofUser tenantId username r &&
    startsSince (cardResetSince db tenantId username) r).filterMap fun r =>
      r.acctStartTime.time?).min?

def stampStart (now tenantId : ℤ) (username : String) : ℤ :=
  match earliestAccountedStart db tenantId username with
  | some earliest => if earliest < now then earliest else now
  | none => now

def stampSeconds (tenantId : ℤ) (username : String) : ℤ :=
  match cardAndBatch db tenantId username with
  | none => 0
  | some (card, batch) => max 0 (addCardExtra (cardWindowSeconds batch) batch card.extraSeconds)

def stampExpiry (last start tenantId : ℤ) (username : String) : Db :=
  let seconds := stampSeconds db tenantId username
  if 0 < seconds then
    let e := clampExpiry last start seconds
    (db.updateCards (fun c => ofCardName tenantId username c && c.expireAt.isNull)
        (Card.withExpiry · e)).updateSubscribers
      (fun s => ofSubscriber tenantId username s && s.expireAt.isOpen) (Subscriber.withExpiry · e)
  else db

/-- `_update_login_timestamps`; a card that is not found is not stamped. -/
def updateLoginTimestamps (last now tenantId : ℤ) (username callingStationId : String)
    (source : Source) : Db :=
  match source, db.card tenantId username with
  | .card, some card =>
    let wasFirstCardUse := card.firstUsedAt.time?.isNone
    let start := if wasFirstCardUse then stampStart db now tenantId username else now
    let used := db.updateCards (ofCardName tenantId username) fun c =>
      { c with firstUsedAt := c.firstUsedAt.coalesce (.instant start), used := true }
    if wasFirstCardUse then
      onFirstConnect (stampExpiry used last start tenantId username) last now tenantId username
        callingStationId
    else used
  | _, _ => db

end

def CheckerAgrees (last f budget : ℤ) (expireAt : Stamp) : Prop :=
  let e := clampExpiry last f budget
  expireAt = .instant e ∧ ∀ now accountedSeconds,
    ∃ r ∈ remainingSeconds .fromFirstConnect budget now (some f) accountedSeconds (some e),
      max 0 (wholeSeconds (e - now)) = min r (max 0 (wholeSeconds (last - now)))

def StampMeetsBudget (db : Db) (last now : ℤ) (card : Card) (batch : CardBatch)
    (plan : Option AccessPlan) : Prop :=
  let f := stampStart db now card.tenantId card.username
  let window := cardWindowSeconds batch
  let budget := cardBudget batch plan
  let ends (seconds : ℤ) : ℤ := afterSeconds f (seconds + card.extraSeconds)
  match card.expireAt with
  | .instant e => e = clampExpiry last f (budgetWithExtra budget card.extraSeconds)
  | stamp => 0 < budget ∧
      if stamp.isNull ∧ 0 < window ∧ 0 < window + card.extraSeconds then
        window = budget ∨ last ≤ ends window ∧ last ≤ ends budget
      else
        (0 < cardBudget batch none ∨ ∀ p ∈ plan, p.deletedAt.isNull = true) ∧
          (f = now ∨ last ≤ ends budget)

theorem stampStart_le (db : Db) (now tenantId : ℤ) (username : String) :
    stampStart db now tenantId username ≤ now := by
  unfold stampStart
  split
  · split_ifs <;> omega
  · exact le_rfl

theorem wholeSeconds_mono {s t : ℤ} (h : s ≤ t) : wholeSeconds s ≤ wholeSeconds t := by
  exact Int.tdiv_le_tdiv (by decide) h

theorem clampExpiry_le (last start seconds : ℤ) : clampExpiry last start seconds ≤ last :=
  min_le_right _ _

theorem checkerAgrees_iff {last f budget : ℤ} {expireAt : Stamp} :
    CheckerAgrees last f budget expireAt ↔ expireAt = .instant (clampExpiry last f budget) := by
  have hmono (now : ℤ) : Monotone fun t : ℤ => max 0 (wholeSeconds (t - now)) := fun s t hst =>
    max_le_max le_rfl (wholeSeconds_mono (sub_le_sub_right hst now))
  refine ⟨And.left, fun he => ⟨he, fun now accountedSeconds => ?_⟩⟩
  by_cases h : budget ≤ 0
  · refine ⟨max 0 (wholeSeconds (clampExpiry last f budget - now)), ?_, ?_⟩
    · simp [remainingSeconds, h]
    · exact (min_eq_left (hmono now (clampExpiry_le last f budget))).symm
  · refine ⟨max 0 (wholeSeconds (afterSeconds f budget - now)), ?_, ?_⟩
    · simp [remainingSeconds, h]
    · exact (hmono now).map_min

theorem clampExpiry_eq_iff {last f m n : ℤ} : clampExpiry last f m = clampExpiry last f n ↔
    m = n ∨ last ≤ afterSeconds f m ∧ last ≤ afterSeconds f n := by
  simp only [clampExpiry, afterSeconds, second]
  omega

theorem clampExpiry_start_eq_iff {last f now n : ℤ} (h : f ≤ now) :
    clampExpiry last now n = clampExpiry last f n ↔ f = now ∨ last ≤ afterSeconds f n := by
  simp only [clampExpiry, afterSeconds, second]
  omega

theorem cardBudget_pos_of_window {batch : CardBatch} (h : 0 < cardWindowSeconds batch) :
    0 < cardBudget batch none := by
  by_cases hdays : 0 < batch.validityAfterFirstLoginDays
  · simp only [cardBudget, budgetSeconds, if_pos hdays]
    omega
  · by_cases hvalue : 0 < batch.timeValue
    · have hunit := unitToSeconds_pos (if batch.timeUnit = "" then "days" else batch.timeUnit) hvalue
      simpa only [cardBudget, budgetSeconds, if_neg hdays, if_pos hunit] using hunit
    · simp [cardWindowSeconds, hdays, not_lt.mp hvalue] at h

section
variable {db : Db} {last now : ℤ} {card : Card} {batch : CardBatch}

theorem firstLoginExpiry_eq {tenantId : ℤ} {username : String}
    (hcard : db.card tenantId username = some card) (hflag : batch.countFromFirstConnect = true)
    (hexp : card.expireAt.time? = none) :
    firstLoginExpiry db last now tenantId username card batch =
      firstConnectExpiry last now
        (budgetWithExtra (cardBudget batch (livePlan db tenantId card)) card.extraSeconds) := by
  simp [firstLoginExpiry, hflag, hexp, cardExtraSeconds_eq hcard]

theorem firstLoginExpiry_withExpiry (tenantId : ℤ) (username : String) (c : Card) (e : ℤ) :
    firstLoginExpiry db last now tenantId username (c.withExpiry e) batch = none :=
  if_pos (Or.inr rfl)

theorem stampSeconds_eq {tenantId : ℤ} {username : String}
    (hcard : db.card tenantId username = some card)
    (hbatch : db.batch tenantId card.batchId = some batch)
    (hflag : batch.countFromFirstConnect = true) :
    stampSeconds db tenantId username =
      if 0 < cardWindowSeconds batch ∧ 0 < cardWindowSeconds batch + card.extraSeconds then
        cardWindowSeconds batch + card.extraSeconds else 0 := by
  have hby : bySeconds batch = false := by simp [bySeconds, hflag]
  simp only [stampSeconds, cardAndBatch_eq hcard hbatch, addCardExtra, hby, Bool.or_false,
    decide_eq_true_eq]
  split_ifs <;> omega

theorem card_stampExpiry (last start : ℤ) {tenantId : ℤ} {username : String}
    (hcard : db.card tenantId username = some card)
    (hbatch : db.batch tenantId card.batchId = some batch)
    (hflag : batch.countFromFirstConnect = true) :
    (stampExpiry db last start tenantId username).card tenantId username = some
      (if card.expireAt.isNull ∧ 0 < cardWindowSeconds batch ∧
          0 < cardWindowSeconds batch + card.extraSeconds then
        card.withExpiry (clampExpiry last start (cardWindowSeconds batch + card.extraSeconds))
      else card) := by
  have hname : ofCardName tenantId username card = true := by
    simpa [ofCardName] using Db.card_found hcard
  simp only [stampExpiry, stampSeconds_eq hcard hbatch hflag]
  by_cases hwin : 0 < cardWindowSeconds batch ∧ 0 < cardWindowSeconds batch + card.extraSeconds
  · simp only [hwin, and_self, and_true, if_true, Db.card_updateSubscribers]
    refine (Db.card_updateCards_of hcard ?_).trans ?_
    · exact fun _ => ⟨rfl, rfl⟩
    · simp only [hname, Bool.true_and]
  · simp only [hwin, and_false, if_false, lt_irrefl, hcard]

theorem livePlan_stampExpiry (start tenantId t : ℤ) (username : String) (c : Card) :
    livePlan (stampExpiry db last start tenantId username) t c = livePlan db t c := by
  simp only [stampExpiry]
  split_ifs <;> rfl

theorem batch_stampExpiry (start tenantId t : ℤ) (username : String) (id : ℕ) :
    (stampExpiry db last start tenantId username).batch t id = db.batch t id := by
  simp only [stampExpiry]
  split_ifs <;> rfl

/-- The card after its first login. Its expiry is the end of the window from the start of the
count, or the one it had, or else the end of the budget from now. -/
theorem card_updateLoginTimestamps (last now : ℤ) (callingStationId : String)
    (hcard : db.card card.tenantId card.username = some card)
    (hbatch : db.batch card.tenantId card.batchId = some batch)
    (hflag : batch.countFromFirstConnect = true) (hfirst : card.firstUsedAt.time? = none) :
    ∃ c, (updateLoginTimestamps db last now card.tenantId card.username callingStationId
        .card).card card.tenantId card.username = some c ∧
      c.firstUsedAt = card.firstUsedAt.coalesce
        (.instant (stampStart db now card.tenantId card.username)) ∧
      c.expireAt = if card.expireAt.isNull ∧ 0 < cardWindowSeconds batch ∧
          0 < cardWindowSeconds batch + card.extraSeconds then
        .instant (clampExpiry last (stampStart db now card.tenantId card.username)
          (cardWindowSeconds batch + card.extraSeconds))
      else if card.expireAt.time?.isSome then card.expireAt
      else ((firstConnectExpiry last now (budgetWithExtra
        (cardBudget batch (livePlan db card.tenantId card)) card.extraSeconds)).map
          Stamp.instant).getD card.expireAt := by
  simp only [updateLoginTimestamps, hcard, hfirst, Option.isNone_none, if_true]
  generalize stampStart db now card.tenantId card.username = start
  set used := db.updateCards (ofCardName card.tenantId card.username) fun c =>
    { c with firstUsedAt := c.firstUsedAt.coalesce (.instant start), used := true }
  obtain ⟨c, hc, hcbatch, hcplan, hcextra, hcused, hcexp⟩ : ∃ c,
      used.card card.tenantId card.username = some c ∧ c.batchId = card.batchId ∧
      c.planId = card.planId ∧ c.extraSeconds = card.extraSeconds ∧
      c.firstUsedAt = card.firstUsedAt.coalesce (.instant start) ∧ c.expireAt = card.expireAt := by
    refine ⟨_, Db.card_updateCards_of hcard fun _ => ⟨rfl, rfl⟩, ?_⟩
    simp [ofCardName]
  have hcb : used.batch card.tenantId c.batchId = some batch := by rw [hcbatch]; exact hbatch
  have hplan : livePlan (stampExpiry used last start card.tenantId card.username) card.tenantId c =
      livePlan db card.tenantId card := by
    rw [livePlan_stampExpiry, livePlan, hcplan]
    rfl
  by_cases hwin : card.expireAt.isNull ∧ 0 < cardWindowSeconds batch ∧
      0 < cardWindowSeconds batch + card.extraSeconds
  · have hstamp : (stampExpiry used last start card.tenantId card.username).card card.tenantId
        card.username = some (c.withExpiry (clampExpiry last start
          (cardWindowSeconds batch + card.extraSeconds))) := by
      rw [card_stampExpiry _ _ hc hcb hflag, hcexp, hcextra, if_pos hwin]
    obtain ⟨c', hc', hused, hexp⟩ := card_onFirstConnect last now callingStationId hstamp
      ((batch_stampExpiry _ _ _ _ _).trans hcb)
    have hset : (c.withExpiry (clampExpiry last start
        (cardWindowSeconds batch + card.extraSeconds))).expireAt.time?.isSome = true := rfl
    refine ⟨c', hc', hused.trans hcused, ?_⟩
    rw [hexp, if_pos hwin, firstLoginExpiry, if_pos (Or.inr hset)]
    rfl
  · have hstamp : (stampExpiry used last start card.tenantId card.username).card card.tenantId
        card.username = some c := by
      rw [card_stampExpiry _ _ hc hcb hflag, hcexp, hcextra, if_neg hwin]
    obtain ⟨c', hc', hused, hexp⟩ := card_onFirstConnect last now callingStationId hstamp
      ((batch_stampExpiry _ _ _ _ _).trans hcb)
    have hflag' : batch.countFromFirstConnect ≠ false := by simp [hflag]
    refine ⟨c', hc', hused.trans hcused, ?_⟩
    rw [hexp, if_neg hwin, firstLoginExpiry, hcexp, cardExtraSeconds_eq hstamp, hcextra, hplan]
    by_cases hset : card.expireAt.time?.isSome = true
    · rw [if_pos (Or.inr hset), if_pos hset]
      rfl
    · rw [if_neg (not_or.mpr ⟨hflag', hset⟩), if_neg hset]

theorem subscribers_updateLoginTimestamps (last now : ℤ) (callingStationId : String)
    (hcard : db.card card.tenantId card.username = some card)
    (hbatch : db.batch card.tenantId card.batchId = some batch)
    (hflag : batch.countFromFirstConnect = true) (hfirst : card.firstUsedAt.time? = none)
    (hend : card.expireAt = .null) :
    (updateLoginTimestamps db last now card.tenantId card.username callingStationId
        .card).subscribers =
      if 0 < cardWindowSeconds batch ∧ 0 < cardWindowSeconds batch + card.extraSeconds then
        (db.updateSubscribers
          (fun s => ofSubscriber card.tenantId card.username s && s.expireAt.isOpen)
          (Subscriber.withExpiry · (clampExpiry last
            (stampStart db now card.tenantId card.username)
            (cardWindowSeconds batch + card.extraSeconds)))).subscribers
      else ((firstConnectExpiry last now (budgetWithExtra
        (cardBudget batch (livePlan db card.tenantId card)) card.extraSeconds)).map fun e =>
          (db.updateSubscribers (ofSubscriber card.tenantId card.username)
            (Subscriber.withExpiry · e)).subscribers).getD db.subscribers := by
  simp only [updateLoginTimestamps, hcard, hfirst, Option.isNone_none, if_true]
  generalize stampStart db now card.tenantId card.username = start
  have hc := Db.card_updateCards_of (p := ofCardName card.tenantId card.username)
    (f := fun c => { c with firstUsedAt := c.firstUsedAt.coalesce (.instant start), used := true })
    hcard fun _ => ⟨rfl, rfl⟩
  rw [if_pos (by simp [ofCardName])] at hc
  by_cases hwin : 0 < cardWindowSeconds batch ∧ 0 < cardWindowSeconds batch + card.extraSeconds
  · have hstamp := card_stampExpiry last start hc hbatch hflag
    rw [if_pos ⟨by simp [hend, Stamp.isNull], hwin⟩] at hstamp
    rw [subscribers_onFirstConnect last now callingStationId hstamp
      ((batch_stampExpiry _ _ _ _ _).trans hbatch), firstLoginExpiry_withExpiry,
      if_pos hwin, Option.map_none, Option.getD_none, stampExpiry,
      stampSeconds_eq hc hbatch hflag, if_pos hwin, if_pos hwin.2]
    rfl
  · have hstamp := card_stampExpiry last start hc hbatch hflag
    rw [if_neg fun h => hwin h.2] at hstamp
    rw [subscribers_onFirstConnect last now callingStationId hstamp
      ((batch_stampExpiry _ _ _ _ _).trans hbatch), if_neg hwin,
      firstLoginExpiry_eq hstamp hflag (by rw [hend]; rfl), stampExpiry,
      stampSeconds_eq hc hbatch hflag, if_neg hwin, if_neg (lt_irrefl 0)]
    rfl

theorem budget_of_gate {plan : Option AccessPlan}
    (hcard : db.card card.tenantId card.username = some card)
    (hbatch : db.batch card.tenantId card.batchId = some batch)
    (hgate : checkCardTimeBudget db card.tenantId card.username plan = none)
    (hbudget : 0 < cardBudget batch plan) : 0 < cardBudget batch plan + card.extraSeconds := by
  by_contra hused
  have hdeducted : card.extraSeconds < 0 := by omega
  simp [checkCardTimeBudget, cardAndBatch_eq hcard hbatch, cardExtraSeconds_eq hcard, isExhausted,
    hdeducted, hbudget, not_lt.mp hused] at hgate

theorem livePlan_eq {plan : Option AccessPlan}
    (hplan : plan = card.planId.bind fun id => db.plan card.tenantId id true) :
    livePlan db card.tenantId card = plan.filter fun p => p.deletedAt.isNull := by
  rw [hplan, livePlan]
  cases card.planId with
  | none => rfl
  | some id => exact db.plan_live card.tenantId id

theorem liveBudget_cases (batch : CardBatch) (plan : Option AccessPlan) :
    cardBudget batch (plan.filter fun p => p.deletedAt.isNull) = cardBudget batch plan ∧
        (0 < cardBudget batch none ∨ ∀ p ∈ plan, p.deletedAt.isNull = true) ∨
      cardBudget batch (plan.filter fun p => p.deletedAt.isNull) ≤ 0 ∧
        ¬(0 < cardBudget batch none ∨ ∀ p ∈ plan, p.deletedAt.isNull = true) := by
  cases plan with
  | none => exact Or.inl ⟨rfl, Or.inr (by simp)⟩
  | some p =>
    cases hp : p.deletedAt.isNull with
    | true => exact Or.inl ⟨by simp [Option.filter, hp], Or.inr (by simpa using hp)⟩
    | false =>
      by_cases hnone : 0 < cardBudget batch none
      · refine Or.inl ⟨?_, Or.inl hnone⟩
        simp [Option.filter, hp, cardBudget_of_batch hnone (some p)]
      · refine Or.inr ⟨?_, by simp [hnone, hp]⟩
        simpa [Option.filter, hp] using hnone

theorem firstConnect_iff {f b n extraSeconds : ℤ} {stamp : Stamp} (hstart : f ≤ now)
    (hstamp : stamp.time? = none) (hb : b = n ∨ b ≤ 0) (hleft : 0 < n → 0 < n + extraSeconds) :
    ((firstConnectExpiry last now (budgetWithExtra b extraSeconds)).map Stamp.instant).getD stamp =
        .instant (clampExpiry last f (budgetWithExtra n extraSeconds)) ↔
      0 < b ∧ (f = now ∨ last ≤ afterSeconds f (n + extraSeconds)) := by
  by_cases hpos : 0 < b
  · obtain rfl := hb.resolve_right (not_le.mpr hpos)
    have hsum := hleft hpos
    simp [budgetWithExtra, not_le.mpr hpos, max_eq_right hsum.le, firstConnectExpiry,
      not_le.mpr hsum, clampExpiry_start_eq_iff hstart, hpos]
  · simp only [hpos, false_and, iff_false]
    intro hset
    simp only [budgetWithExtra, if_pos (not_lt.mp hpos), firstConnectExpiry, le_refl, if_true,
      Option.map_none, Option.getD_none] at hset
    simp [hset, Stamp.time?] at hstamp

theorem unsetStamp_iff {f extraSeconds : ℤ} {plan : Option AccessPlan} {stamp : Stamp}
    (hstart : f ≤ now) (hstamp : stamp.time? = none)
    (hleft : 0 < cardBudget batch plan → 0 < cardBudget batch plan + extraSeconds) :
    (if stamp.isNull = true ∧ 0 < cardWindowSeconds batch ∧
          0 < cardWindowSeconds batch + extraSeconds then
        Stamp.instant (clampExpiry last f (cardWindowSeconds batch + extraSeconds))
      else ((firstConnectExpiry last now (budgetWithExtra (cardBudget batch
        (plan.filter fun p => p.deletedAt.isNull)) extraSeconds)).map Stamp.instant).getD stamp) =
        .instant (clampExpiry last f (budgetWithExtra (cardBudget batch plan) extraSeconds)) ↔
      0 < cardBudget batch plan ∧
        if stamp.isNull = true ∧ 0 < cardWindowSeconds batch ∧
            0 < cardWindowSeconds batch + extraSeconds then
          cardWindowSeconds batch = cardBudget batch plan ∨
            last ≤ afterSeconds f (cardWindowSeconds batch + extraSeconds) ∧
              last ≤ afterSeconds f (cardBudget batch plan + extraSeconds)
        else (0 < cardBudget batch none ∨ ∀ p ∈ plan, p.deletedAt.isNull = true) ∧
          (f = now ∨ last ≤ afterSeconds f (cardBudget batch plan + extraSeconds)) := by
  by_cases hwin : stamp.isNull = true ∧ 0 < cardWindowSeconds batch ∧
      0 < cardWindowSeconds batch + extraSeconds
  · have hgiven := cardBudget_pos_of_window hwin.2.1
    have hbudget : 0 < cardBudget batch plan := by rwa [cardBudget_of_batch hgiven]
    have hsum := hleft hbudget
    rw [if_pos hwin, if_pos hwin, Stamp.instant.injEq, clampExpiry_eq_iff]
    simp [budgetWithExtra, not_le.mpr hbudget, max_eq_right hsum.le, hbudget]
  · rw [if_neg hwin, if_neg hwin]
    rcases liveBudget_cases batch plan with ⟨heq, hlive⟩ | ⟨hle, harchived⟩
    · rw [firstConnect_iff hstart hstamp (Or.inl heq) hleft, heq]
      rw [and_iff_right hlive]
    · rw [firstConnect_iff hstart hstamp (Or.inr hle) hleft]
      exact iff_of_false (fun h => not_lt.mpr hle h.1) fun h => harchived h.2.1

/-- The first accepted login of a card that counts from its first connection stamps the budget
that the checker counts down, for just these inputs. -/
theorem stamp_meets_budget_iff (db : Db) (last now : ℤ) (card : Card) (batch : CardBatch)
    (plan : Option AccessPlan) (callingStationId : String)
    (hcard : db.card card.tenantId card.username = some card)
    (hbatch : db.batch card.tenantId card.batchId = some batch)
    (hplan : plan = card.planId.bind fun id => db.plan card.tenantId id true)
    (hflag : batch.countFromFirstConnect = true) (hfirst : card.firstUsedAt.time? = none)
    (hgate : checkCardTimeBudget db card.tenantId card.username plan = none) :
    (∃ c ∈ (updateLoginTimestamps db last now card.tenantId card.username callingStationId
          .card).card card.tenantId card.username,
        c.firstUsedAt = card.firstUsedAt.coalesce
          (.instant (stampStart db now card.tenantId card.username)) ∧
        CheckerAgrees last (stampStart db now card.tenantId card.username)
          (budgetWithExtra (cardBudget batch plan) card.extraSeconds) c.expireAt) ↔
      StampMeetsBudget db last now card batch plan := by
  obtain ⟨c, hc, hused, hexpire⟩ := card_updateLoginTimestamps last now callingStationId hcard hbatch
    hflag hfirst
  simp only [hc, Option.mem_some_iff, exists_eq_left', hused, true_and, hexpire, checkerAgrees_iff,
    StampMeetsBudget, livePlan_eq hplan]
  have hstart := stampStart_le db now card.tenantId card.username
  generalize stampStart db now card.tenantId card.username = f at hstart
  have hleft : 0 < cardBudget batch plan → 0 < cardBudget batch plan + card.extraSeconds :=
    budget_of_gate hcard hbatch hgate
  cases hexp : card.expireAt with
  | instant e => simp [Stamp.time?]
  | null =>
    simp only [Stamp.time?, Option.isSome_none, Bool.false_eq_true, if_false]
    exact unsetStamp_iff hstart rfl hleft
  | blank =>
    simp only [Stamp.time?, Option.isSome_none, Bool.false_eq_true, if_false]
    exact unsetStamp_iff hstart rfl hleft

end

def lastExpiry : ℤ := 4133980799 * second

def fourHours : CardBatch := { id := 1, timeValue := 4, timeUnit := "hours" }

def freshCard : Card := { id := 1, batchId := 1, username := "c1" }

def freshDb : Db := { cards := [freshCard], batches := [fourHours] }

theorem stamp_meets_budget_four_hours :
    ∃ c ∈ (updateLoginTimestamps freshDb lastExpiry 0 1 "c1" "" .card).card 1 "c1",
      c.firstUsedAt = .instant (stampStart freshDb 0 1 "c1") ∧
      CheckerAgrees lastExpiry (stampStart freshDb 0 1 "c1")
        (budgetWithExtra (cardBudget fourHours none) 0) c.expireAt := by
  refine (stamp_meets_budget_iff freshDb lastExpiry 0 freshCard fourHours none "" rfl rfl rfl rfl
    rfl (by decide)).mpr ⟨by decide, ?_⟩
  rw [if_pos (by decide)]
  exact Or.inl (by decide)

def thirtyDays : CardBatch := { fourHours with validityAfterFirstLoginDays := 30 }

def validityDb : Db := { cards := [freshCard], batches := [thirtyDays] }

/-- The login stamps four hours, the checker counts thirty days. -/
theorem hours_stamped_days_shown :
    checkCardTimeBudget validityDb 1 "c1" none = none ∧
      ((updateLoginTimestamps validityDb lastExpiry 0 1 "c1" "" .card).card 1 "c1").map
        Card.expireAt = some (.instant (afterSeconds 0 (4 * 3600))) ∧
      ¬CheckerAgrees lastExpiry (stampStart validityDb 0 1 "c1")
        (budgetWithExtra (cardBudget thirtyDays none) 0) (.instant (afterSeconds 0 (4 * 3600))) := by
  rw [checkerAgrees_iff]
  decide

end RadiusModule.PolicyEngine
