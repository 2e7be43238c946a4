import RadiusModule.Services.PolicyEngine.CardTime

/-!
# Cards charged by the second

The checker takes a card's budget from its batch and then from its plan. The
gate and the session cap take it from the plan and then from the batch, and the
gate knows three units. When they come to one answer.
-/

namespace RadiusModule.PolicyEngine
open Library CardAccounting CardBatchFlags DeviceLimit

section
variable (db : Db) (card : Card) (batch : CardBatch) (plan : Option AccessPlan)

def chargedSeconds : ℤ := accountedSeconds db card.tenantId card.username

def shownRemaining (now : ℤ) : Option ℤ :=
  remainingSeconds .bySeconds (budgetWithExtra (cardBudget batch plan) card.extraSeconds) now none
    (chargedSeconds db card) none

/-- A card with a budget is rejected when nothing is shown to remain; otherwise a plan with a
duration caps the session at what is shown. -/
structure ShownIsEnforced (now : ℤ) : Prop where
  rejected : checkCardTimeBudget db card.tenantId card.username plan =
      some "card_time_exhausted" ↔
    0 < cardBudget batch plan ∧ shownRemaining db card batch plan now = some 0
  capped : checkCardTimeBudget db card.tenantId card.username plan = none →
    ∀ p ∈ plan, 0 < p.durationMinutes →
      cardBudgetSessionCap db (cardToSubscriber db card) p = shownRemaining db card batch plan now

/-- The deduction leaves some of the budget, the seconds used reach both budgets or neither, and
what a plan with a duration leaves of the one is what is left of the other. -/
def BudgetsMeet : Prop :=
  let shown := cardBudget batch plan + card.extraSeconds
  let enforced := cardBudgetSeconds batch plan + card.extraSeconds
  let used := chargedSeconds db card
  isExhausted (cardBudget batch plan) card.extraSeconds = false ∧
    (0 < cardBudgetSeconds batch plan ∧ enforced ≤ max 0 used ↔
      0 < cardBudget batch plan ∧ shown ≤ used) ∧
    ∀ p ∈ plan, 0 < p.durationMinutes → max 0 used < enforced →
      max 1 (enforced - usedSeconds db card) = shown - used

end

variable {db : Db} {card : Card} {batch : CardBatch} {plan : Option AccessPlan}

theorem cardBudget_pos_of_duration {p : AccessPlan} (h : 0 < p.durationMinutes) :
    0 < cardBudget batch (some p) := by
  have hwindow : ∀ value unit, 0 ≤ unitToSeconds value unit := by
    intro value unit
    by_cases hvalue : 0 < value
    · exact (unitToSeconds_pos unit hvalue).le
    · rw [unitToSeconds, if_pos (not_lt.mp hvalue)]
  simp only [cardBudget, budgetSeconds, Option.map_some, Option.getD_some]
  split_ifs <;> omega

theorem cardBudgetSeconds_of_duration {p : AccessPlan} (h : 0 < p.durationMinutes) :
    cardBudgetSeconds batch (some p) = p.durationMinutes * 60 := by
  simp [cardBudgetSeconds, h]

theorem shownRemaining_of_exhausted {now : ℤ}
    (h : isExhausted (cardBudget batch plan) card.extraSeconds = true) :
    shownRemaining db card batch plan now = none := by
  simp only [isExhausted, Bool.and_eq_true, decide_eq_true_eq] at h
  have hzero : budgetWithExtra (cardBudget batch plan) card.extraSeconds = 0 := by
    rw [budgetWithExtra, if_neg (not_le.mpr h.1), max_eq_left h.2]
  simp [shownRemaining, remainingSeconds, hzero]

theorem shownRemaining_of_left {now : ℤ} (hpos : 0 < cardBudget batch plan)
    (h : isExhausted (cardBudget batch plan) card.extraSeconds = false) :
    shownRemaining db card batch plan now =
      some (max 0 (cardBudget batch plan + card.extraSeconds - chargedSeconds db card)) := by
  have hleft : 0 < cardBudget batch plan + card.extraSeconds := by
    simpa [isExhausted, hpos] using h
  have hbudget : budgetWithExtra (cardBudget batch plan) card.extraSeconds =
      cardBudget batch plan + card.extraSeconds := by
    rw [budgetWithExtra, if_neg (not_le.mpr hpos), max_eq_right hleft.le]
  simp [shownRemaining, remainingSeconds, hbudget, not_le.mpr hleft]

section
variable (hcard : db.card card.tenantId card.username = some card)
  (hbatch : db.batch card.tenantId card.batchId = some batch) (hmode : bySeconds batch = true)
include hcard hbatch hmode

theorem checkCardTimeBudget_bySeconds :
    checkCardTimeBudget db card.tenantId card.username plan =
      if isExhausted (cardBudget batch plan) card.extraSeconds = true ∨
          0 < cardBudgetSeconds batch plan ∧
            cardBudgetSeconds batch plan + card.extraSeconds ≤ max 0 (chargedSeconds db card) then
        some "card_time_exhausted"
      else none := by
  have hseconds : batch.countBySeconds = true := by
    simp only [bySeconds, Bool.and_eq_true] at hmode
    exact hmode.1
  have hextra : isExhausted (cardBudget batch plan) card.extraSeconds = true →
      card.extraSeconds < 0 := by
    simp only [isExhausted, Bool.and_eq_true, decide_eq_true_eq]
    omega
  simp only [checkCardTimeBudget, cardAndBatch_eq hcard hbatch, cardExtraSeconds_eq hcard, hseconds,
    Bool.not_true, Bool.false_eq_true, if_false, chargedSeconds]
  by_cases hexhausted : isExhausted (cardBudget batch plan) card.extraSeconds = true
  · simp [hexhausted, hextra hexhausted]
  · have hnot : isExhausted (cardBudget batch plan) card.extraSeconds = false := by
      simpa using hexhausted
    simp only [hnot, Bool.and_false, Bool.false_eq_true, if_false, false_or]
    split_ifs <;> first | rfl | omega

theorem cardBudgetSessionCap_bySeconds {p : AccessPlan} (hdur : 0 < p.durationMinutes) :
    cardBudgetSessionCap db (cardToSubscriber db card) p =
      some (max 1 (p.durationMinutes * 60 + card.extraSeconds - usedSeconds db card)) := by
  rw [cardBudgetSessionCap_eq hcard hbatch hdur.ne' (cardBudget_pos_of_duration hdur),
    if_pos hmode, if_pos hdur]

/-- Of a card charged by the second the shown time is enforced exactly when the budgets meet. -/
theorem shown_is_enforced_iff (now : ℤ) :
    ShownIsEnforced db card batch plan now ↔ BudgetsMeet db card batch plan := by
  have hcheck : checkCardTimeBudget db card.tenantId card.username plan = _ :=
    checkCardTimeBudget_bySeconds hcard hbatch hmode
  by_cases hexhausted : isExhausted (cardBudget batch plan) card.extraSeconds = true
  · -- rejected, and shown without a limit
    refine ⟨fun h => ?_, fun h => absurd hexhausted (by simp [h.1])⟩
    have hrejected := h.rejected.mp (by rw [hcheck, if_pos (.inl hexhausted)])
    rw [shownRemaining_of_exhausted hexhausted] at hrejected
    exact absurd hrejected.2 (by simp)
  have hleft : isExhausted (cardBudget batch plan) card.extraSeconds = false := by
    simpa using hexhausted
  have hrejects : checkCardTimeBudget db card.tenantId card.username plan =
      some "card_time_exhausted" ↔ 0 < cardBudgetSeconds batch plan ∧
        cardBudgetSeconds batch plan + card.extraSeconds ≤ max 0 (chargedSeconds db card) := by
    rw [hcheck]
    split_ifs with h
    · exact iff_of_true rfl (h.resolve_left hexhausted)
    · exact iff_of_false (by simp) fun hspent => h (.inr hspent)
  have hshown : 0 < cardBudget batch plan ∧ shownRemaining db card batch plan now = some 0 ↔
      0 < cardBudget batch plan ∧
        cardBudget batch plan + card.extraSeconds ≤ chargedSeconds db card := by
    refine and_congr_right fun hpos => ?_
    rw [shownRemaining_of_left hpos hleft, Option.some_inj]
    omega
  have hpasses : checkCardTimeBudget db card.tenantId card.username plan = none ↔
      ¬(0 < cardBudgetSeconds batch plan ∧
        cardBudgetSeconds batch plan + card.extraSeconds ≤ max 0 (chargedSeconds db card)) := by
    rw [hcheck]
    split_ifs with h
    · exact iff_of_false (by simp) (not_not.mpr (h.resolve_left hexhausted))
    · exact iff_of_true rfl fun hspent => h (.inr hspent)
  -- with a duration, the cap is what the plan's budget leaves
  have hcap : ∀ p ∈ plan, 0 < p.durationMinutes →
      (cardBudgetSessionCap db (cardToSubscriber db card) p = shownRemaining db card batch plan now ↔
        max 1 (cardBudgetSeconds batch plan + card.extraSeconds - usedSeconds db card) =
          max 0 (cardBudget batch plan + card.extraSeconds - chargedSeconds db card)) := by
    rintro p rfl hdur
    rw [cardBudgetSessionCap_bySeconds hcard hbatch hmode hdur,
      shownRemaining_of_left (cardBudget_pos_of_duration hdur) hleft,
      cardBudgetSeconds_of_duration hdur, Option.some_inj]
  constructor
  · intro h
    refine ⟨hleft, hrejects.symm.trans (h.rejected.trans hshown), fun p hp hdur hunspent => ?_⟩
    have hsame := (hcap p hp hdur).mp (h.capped (hpasses.mpr fun hspent =>
      absurd hspent.2 (not_le.mpr hunspent)) p hp hdur)
    omega
  · rintro ⟨-, hspent, hmeet⟩
    refine ⟨hrejects.trans (hspent.trans hshown.symm), fun hnone p hp hdur => ?_⟩
    have hcharged : 0 < cardBudgetSeconds batch plan := by
      rw [Option.mem_def.mp hp, cardBudgetSeconds_of_duration hdur]
      omega
    have hunspent := not_le.mp fun hle => hpasses.mp hnone ⟨hcharged, hle⟩
    have hsame := hmeet p hp hdur hunspent
    exact (hcap p hp hdur).mpr (by omega)

end

/-- A card of a batch without a window, under a plan with a duration: nothing was deducted from it,
and its sessions have a start and no negative time. -/
theorem budgetsMeet_of_plain {p : AccessPlan}
    (hcard : db.card card.tenantId card.username = some card)
    (hdays : batch.validityAfterFirstLoginDays ≤ 0) (hvalue : batch.timeValue ≤ 0)
    (hdur : 0 < p.durationMinutes) (hextra : 0 ≤ card.extraSeconds)
    (hrows : ∀ r ∈ db.radacct.rows, ofUser card.tenantId card.username r = true →
      r.acctStartTime.isNull = false ∧ 0 ≤ r.acctSessionTime) :
    BudgetsMeet db card batch (some p) := by
  have hbudget : cardBudget batch (some p) = p.durationMinutes * 60 := by
    simp only [cardBudget, budgetSeconds, Option.map_some, Option.getD_some, unitToSeconds,
      if_pos hvalue, if_neg (not_lt.mpr hdays), if_pos hdur]
    rfl
  have hused : usedSeconds db card = chargedSeconds db card := by
    have hsince : cardResetSince db card.tenantId card.username = card.usageResetAt.time? := by
      rw [cardResetSince, hcard, Option.bind_some]
    simp only [usedSeconds, chargedSeconds, accountedSessionSeconds, accountedSeconds, sumSeconds,
      hsince, Table.select]
    congr 2
    refine List.filter_congr fun r hr => ?_
    cases huser : ofUser card.tenantId card.username r with
    | false => rfl
    | true =>
      cases card.usageResetAt.time? with
      | some s => rfl
      | none => simp [startsSince, (hrows r hr huser).1]
  have hpos : 0 ≤ chargedSeconds db card := by
    refine List.sum_nonneg fun n hn => ?_
    obtain ⟨r, hr, rfl⟩ := List.mem_map.mp hn
    obtain ⟨hrow, hmatch⟩ := Table.mem_select.mp hr
    exact (hrows r hrow (Bool.and_eq_true_iff.mp hmatch).1).2
  rw [BudgetsMeet, hbudget, cardBudgetSeconds_of_duration hdur, hused, max_eq_right hpos]
  refine ⟨?_, Iff.rfl, fun _ _ _ hless => by omega⟩
  simp only [isExhausted, Bool.and_eq_false_iff, decide_eq_false_iff_not]
  omega

theorem shown_is_enforced_hour : ShownIsEnforced secondsDb hourCard secondsBatch hourPlan 0 :=
  (shown_is_enforced_iff rfl rfl rfl 0).mpr ⟨by decide, by decide, by
    rintro p hp - -
    obtain rfl := Option.some_inj.mp hp
    decide⟩

def longPlan : AccessPlan := { id := 1, durationMinutes := 120 }

/-- An hour on the card under a plan of two: the checker shows one, the session may last two. -/
theorem longer_plan_unseen :
    secondsDb.card 1 "c1" = some hourCard ∧ secondsDb.batch 1 1 = some secondsBatch ∧
      bySeconds secondsBatch = true ∧
      ¬ShownIsEnforced secondsDb hourCard secondsBatch longPlan 0 := by
  refine ⟨rfl, rfl, rfl, fun h => ?_⟩
  have hcap := h.capped (by decide) longPlan rfl (by decide)
  revert hcap
  decide

end RadiusModule.PolicyEngine
