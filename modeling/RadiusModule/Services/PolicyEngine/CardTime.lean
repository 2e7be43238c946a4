import RadiusModule.Services.PolicyEngine.Gates
import RadiusModule.Services.PolicyEngine.TimeCaps

/-!
# The time of a card

When the Session-Timeout of an accepted card is within what the card has left:
the limits that the plan, the card and its batch give are listed without the
code that puts them together.
-/

namespace RadiusModule.PolicyEngine
open Library PyText AccessSchedule CardAccounting CardBatchFlags

section
variable (db : Db) (d : Today) (card : Card) (batch : CardBatch) (plan : AccessPlan)

def usageLeft (plan : Option AccessPlan) : ℤ :=
  cardBudgetSeconds batch plan + card.extraSeconds -
    accountedSeconds db card.tenantId card.username

def firstLoginWindow (plan : Option AccessPlan) : ℤ :=
  if 0 < cardWindowSeconds batch then cardWindowSeconds batch else cardBudget batch plan

def usedSeconds : ℤ :=
  accountedSessionSeconds db.radacct card.tenantId card.username card.usageResetAt.time?

/-- The limit that the plan writes: its session limit, or else its duration as a budget of use,
or, of a card not stamped yet, the card's budget. -/
def planLimit : List ℤ :=
  if plan.sessionTimeoutSec ≠ 0 then [plan.sessionTimeoutSec]
  else if plan.durationMinutes = 0 then []
  else if bySeconds batch then
    if 0 < plan.durationMinutes then
      [max 1 (plan.durationMinutes * 60 + card.extraSeconds - usedSeconds db card)]
    else [plan.durationMinutes * 60]
  else if card.expireAt.time?.isSome then []
  else [max 1 (cardBudget batch (some plan) + card.extraSeconds)]

def clockLimit : List ℤ :=
  match card.expireAt.time? with
  | some e => if second ≤ e - d.now then [(e - d.now) / second] else []
  | none =>
    if cardWindowSeconds batch ≤ 0 then []
    else if bySeconds batch then [cardWindowSeconds batch]
    else [max 1 (cardWindowSeconds batch + card.extraSeconds)]

/-- One of the limits satisfies `P`; the plan's and the clock's do not count when one of them
is not positive. -/
def SomeLimit (loads : String → Option Json) (P : ℤ → Prop) : Prop :=
  let sub := cardToSubscriber db card
  let limits := planLimit db card batch plan ++ clockLimit d card batch
  ((∀ n ∈ limits, 0 < n) ∧ ∃ n ∈ limits, P n) ∨
    (∃ n ∈ timeCapRemainingSeconds db.radacct d sub (some plan), 0 < n ∧ P n) ∨
    ∃ n ∈ scheduleRemaining loads d sub (some plan), 0 < n ∧ P n

end

section
variable (loads : String → Option Json) (db : Db) (d : Today) (card : Card) (batch : CardBatch)
  (plan : Option AccessPlan)

/-- What the Session-Timeout of a card may not exceed: the usage it has left when it is charged
by the second, the time to its expiry, or the window of a first login with what was granted. -/
def Bounds : List ℤ :=
  (if batch.countBySeconds ∧ 0 < cardBudgetSeconds batch plan then
    [usageLeft db card batch plan] else []) ++
  (match card.expireAt.time? with
    | some e => [(e - d.now) / second]
    | none => if batch.countFromFirstConnect then
        [firstLoginWindow batch plan + card.extraSeconds] else [])

def CutInTime : Prop :=
  ∃ n, sessionTimeout loads db d (cardToSubscriber db card) plan = some (.seconds n) ∧ 0 < n ∧
    ∀ b ∈ Bounds db d card batch plan, n ≤ b

def LimitsReach : Prop :=
  ∃ p ∈ plan, SomeLimit db d card batch p loads (fun _ => True) ∧
    ∀ b ∈ Bounds db d card batch plan, SomeLimit db d card batch p loads (· ≤ b)

end

variable {loads : String → Option Json} {db : Db} {d : Today} {card : Card} {batch : CardBatch}

/-- A cut gives the smaller of two positive values, so what holds of the smaller value exactly
if it holds of either holds of the cut if it holds of one of them. -/
theorem exists_cutBy {existing remaining : Option ℤ} (h : ∀ e ∈ existing, 0 < e) {P : ℤ → Prop}
    (hP : ∀ a b, P (min a b) ↔ P a ∨ P b) :
    (∃ n ∈ cutBy existing remaining, P n) ↔
      (∃ e ∈ existing, P e) ∨ ∃ r ∈ remaining, 0 < r ∧ P r := by
  cases remaining with
  | none => simp [cutBy]
  | some r =>
    by_cases hr : r ≤ 0
    · simp [cutBy, hr, not_lt.mpr hr]
    · cases existing with
      | none => simp [cutBy, hr, not_le.mp hr]
      | some e =>
        have he : ¬e ≤ 0 := not_le.mpr (h e rfl)
        simp [cutBy, hr, he, not_le.mp hr, hP]

theorem budgetWithExtra_or_one {budget : ℤ} (extraSeconds : ℤ) (h : 0 < budget) :
    (if 0 < budgetWithExtra budget extraSeconds then budgetWithExtra budget extraSeconds else 1) =
      max 1 (budget + extraSeconds) := by
  rw [budgetWithExtra, if_neg (not_le.mpr h)]
  split_ifs <;> omega

theorem cardWindowSeconds_nonneg (batch : CardBatch) : 0 ≤ cardWindowSeconds batch := by
  have hdays : 0 ≤ if 0 < batch.validityAfterFirstLoginDays then
      batch.validityAfterFirstLoginDays * 86400 else 0 := by
    split_ifs <;> omega
  unfold cardWindowSeconds
  generalize (if 0 < batch.validityAfterFirstLoginDays then
    batch.validityAfterFirstLoginDays * 86400 else 0) = days at hdays
  by_cases hmode : bySeconds batch || batch.timeValue ≤ 0
  · simpa only [hmode, if_true] using hdays
  · have hvalue : 0 < batch.timeValue := by
      by_contra hle
      simp [not_lt.mp hle] at hmode
    simp only [hmode, Bool.false_eq_true, if_false]
    split <;> omega

theorem addCardExtra_or_one {base : ℤ} (extraSeconds : ℤ) (h : 0 < base) :
    (if addCardExtra base batch extraSeconds < 0 then 1 else addCardExtra base batch extraSeconds) =
      if bySeconds batch then base else max 1 (base + extraSeconds) := by
  have hbase : ¬base ≤ 0 := not_le.mpr h
  cases hby : bySeconds batch with
  | true => simp [addCardExtra, hby, h.le]
  | false =>
    simp only [addCardExtra, hby, hbase, decide_false, Bool.or_self, Bool.false_eq_true, if_false]
    split_ifs <;> omega

section
variable (hcard : db.card card.tenantId card.username = some card)
  (hbatch : db.batch card.tenantId card.batchId = some batch)
include hcard hbatch

theorem cardBudgetSessionCap_eq {p : AccessPlan} (hdur : p.durationMinutes ≠ 0)
    (hbudget : 0 < cardBudget batch (some p)) :
    cardBudgetSessionCap db (cardToSubscriber db card) p =
      if bySeconds batch then
        if 0 < p.durationMinutes then
          some (max 1 (p.durationMinutes * 60 + card.extraSeconds - usedSeconds db card))
        else none
      else if card.expireAt.time?.isSome then some 0
      else some (max 1 (cardBudget batch (some p) + card.extraSeconds)) := by
  have hfound : cardAndBatch db card.tenantId card.username = some (card, batch) := by
    simp [cardAndBatch, hcard, hbatch]
  have hreset : cardResetSince db card.tenantId card.username = card.usageResetAt.time? := by
    simp [cardResetSince, hcard]
  simp only [cardBudgetSessionCap, cardToSubscriber, hfound, hreset, if_pos hdur, usedSeconds,
    if_neg (not_le.mpr hbudget), budgetWithExtra_or_one _ hbudget]
  split_ifs with hby hpos hzero
  · omega
  · rfl
  · rfl
  · omega
  · rfl
  · rfl

theorem planTimeout_cases {p : AccessPlan} (hbudget : 0 < cardBudget batch (some p)) :
    (planLimit db card batch p = [] ∧ planTimeout db (cardToSubscriber db card) p = 0) ∨
      ∃ x, planLimit db card batch p = [x] ∧ x ≠ 0 ∧
        planTimeout db (cardToSubscriber db card) p = x := by
  have hcardlike : isTimeBudget (cardToSubscriber db card) = true := rfl
  by_cases hsession : p.sessionTimeoutSec = 0
  · by_cases hdur : p.durationMinutes = 0
    · exact Or.inl ⟨by simp [planLimit, hsession, hdur], by simp [planTimeout, hsession, hdur]⟩
    · simp only [planTimeout, planLimit, hsession, hdur, hcardlike, ne_eq, not_true_eq_false,
        not_false_eq_true, and_self, if_true, if_false, cardBudgetSessionCap_eq hcard hbatch hdur hbudget]
      split_ifs with hby hpos hstamped
      · exact Or.inr ⟨_, rfl, by omega, rfl⟩
      · exact Or.inr ⟨_, rfl, by omega, rfl⟩
      · exact Or.inl ⟨rfl, rfl⟩
      · exact Or.inr ⟨_, rfl, by omega, rfl⟩
  · exact Or.inr ⟨p.sessionTimeoutSec, by simp [planLimit, hsession], hsession, by
      simp [planTimeout, hsession]⟩

theorem cardSessionWindowSeconds_eq (hname : card.username ≠ "") :
    cardSessionWindowSeconds db card.tenantId (some card.batchId) card.username =
      if cardWindowSeconds batch ≤ 0 then cardWindowSeconds batch
      else addCardExtra (cardWindowSeconds batch) batch card.extraSeconds := by
  simp [cardSessionWindowSeconds, cardBatchWindowSeconds, hbatch, hcard, hname]

theorem planSessionTimeout_cases {p : AccessPlan} (hname : card.username ≠ "")
    (hended : ∀ e ∈ card.expireAt.time?, d.now ≤ e) :
    (clockLimit d card batch = [] ∧ planSessionTimeout db d.now (cardToSubscriber db card) p =
        planTimeout db (cardToSubscriber db card) p) ∨
      ∃ c, clockLimit d card batch = [c] ∧ 0 < c ∧
        planSessionTimeout db d.now (cardToSubscriber db card) p =
          cutTo (planTimeout db (cardToSubscriber db card) p) c := by
  have hcardlike : isTimeBudget (cardToSubscriber db card) = true := rfl
  cases hexp : card.expireAt.time? with
  | some e =>
    have hnow := hended e hexp
    have hwhole : wholeSeconds (e - d.now) = (e - d.now) / second := by
      rw [wholeSeconds, Int.tdiv_eq_ediv_of_nonneg (by omega)]
    by_cases hleft : second ≤ e - d.now
    · refine Or.inr ⟨(e - d.now) / second, by simp [clockLimit, hexp, hleft], ?_, ?_⟩
      · simp only [second] at hleft ⊢
        omega
      · have hpos : 0 < (e - d.now) / second := by
          simp only [second] at hleft ⊢
          omega
        simp [planSessionTimeout, cardToSubscriber, hexp, hwhole, hpos]
    · refine Or.inl ⟨by simp [clockLimit, hexp, hleft], ?_⟩
      have hzero : ¬0 < (e - d.now) / second := by
        simp only [second] at hleft ⊢
        omega
      simp [planSessionTimeout, cardToSubscriber, hexp, hwhole, hzero]
  | none =>
    have hwindow := cardSessionWindowSeconds_eq hcard hbatch hname
    have hsub : (cardToSubscriber db card).expireAt.time? = none := hexp
    by_cases hwin : cardWindowSeconds batch ≤ 0
    · refine Or.inl ⟨by simp [clockLimit, hexp, hwin], ?_⟩
      have hzero : cardWindowSeconds batch = 0 :=
        le_antisymm hwin (cardWindowSeconds_nonneg batch)
      simp only [planSessionTimeout, hsub, hcardlike, if_true]
      simp only [cardToSubscriber, hwindow, hzero, le_refl, lt_irrefl, if_true, if_false]
    · have hpos : 0 < if bySeconds batch then cardWindowSeconds batch
          else max 1 (cardWindowSeconds batch + card.extraSeconds) := by
        split_ifs <;> omega
      refine Or.inr ⟨if bySeconds batch then cardWindowSeconds batch
        else max 1 (cardWindowSeconds batch + card.extraSeconds), ?_, ?_, ?_⟩
      · simp only [clockLimit, hexp, if_neg hwin]
        split_ifs <;> rfl
      · exact hpos
      · simp only [planSessionTimeout, hsub, hcardlike, if_true]
        simp only [cardToSubscriber, hwindow, if_neg hwin,
          addCardExtra_or_one card.extraSeconds (not_le.mp hwin), if_pos hpos]

theorem exists_planned {p : AccessPlan} (hname : card.username ≠ "")
    (hbudget : 0 < cardBudget batch (some p)) (hended : ∀ e ∈ card.expireAt.time?, d.now ≤ e)
    {P : ℤ → Prop} (hP : ∀ a b, P (min a b) ↔ P a ∨ P b) :
    (∃ n ∈ planned db d (cardToSubscriber db card) (some p), P n) ↔
      let limits := planLimit db card batch p ++ clockLimit d card batch
      (∀ n ∈ limits, 0 < n) ∧ ∃ n ∈ limits, P n := by
  have hplanned : ∀ t, planSessionTimeout db d.now (cardToSubscriber db card) p = t →
      ((∃ n ∈ planned db d (cardToSubscriber db card) (some p), P n) ↔ 0 < t ∧ P t) := by
    rintro t rfl
    simp only [planned, Option.bind_some]
    split_ifs with ht <;> simp [ht]
  rcases planTimeout_cases hcard hbatch hbudget with ⟨hp, ht⟩ | ⟨x, hp, hx, ht⟩ <;>
    rcases planSessionTimeout_cases (p := p) hcard hbatch hname hended with
      ⟨hc, hs⟩ | ⟨c, hc, hpos, hs⟩ <;>
    rw [hplanned _ hs]
  · simp [hp, hc, ht]
  · simp [hp, hc, ht, cutTo, hpos]
  · simp [hp, hc, ht]
  · simp [hp, hc, ht, cutTo, hx, hpos, hP]

theorem exists_builtTimeout {p : AccessPlan} (hname : card.username ≠ "")
    (hbudget : 0 < cardBudget batch (some p)) (hended : ∀ e ∈ card.expireAt.time?, d.now ≤ e)
    {P : ℤ → Prop} (hP : ∀ a b, P (min a b) ↔ P a ∨ P b) :
    (∃ n ∈ builtTimeout loads db d (cardToSubscriber db card) (some p), P n) ↔
      SomeLimit db d card batch p loads P := by
  have hpos := planned_pos db d (cardToSubscriber db card) (some p)
  rw [builtTimeout, exists_cutBy (cutBy_pos hpos) hP, exists_cutBy hpos hP,
    exists_planned hcard hbatch hname hbudget hended hP, SomeLimit, or_assoc]

end

theorem builtTimeout_none : builtTimeout loads db d (cardToSubscriber db card) none = none := by
  have hcaps : timeCapRemainingSeconds db.radacct d (cardToSubscriber db card) none = none := rfl
  have hschedule : scheduleRemaining loads d (cardToSubscriber db card) none = none := rfl
  simp [builtTimeout, planned, hcaps, hschedule, cutBy]

theorem ended_of_checkExpiry {captive : Bool}
    (h : checkExpiryCaptive captive d.now (cardToSubscriber db card) = none) :
    ∀ e ∈ card.expireAt.time?, d.now ≤ e := by
  intro e he
  by_contra hlt
  have hexpired : ((cardToSubscriber db card).expireAt.time?.any fun e => e < d.now) = true := by
    rw [show (cardToSubscriber db card).expireAt.time? = some e from he]
    simpa using hlt
  simp only [checkExpiryCaptive, hexpired, not_true_eq_false, and_false, if_false] at h
  split_ifs at h

/-- An accepted card is cut in time for just these inputs. -/
theorem cut_in_time_iff (loads : String → Option Json) (db : Db) (d : Today) (card : Card)
    (batch : CardBatch) (plan : Option AccessPlan) (captive : Bool)
    (hcard : db.card card.tenantId card.username = some card)
    (hbatch : db.batch card.tenantId card.batchId = some batch) (hname : card.username ≠ "")
    (hbudget : 0 < cardBudget batch plan)
    (hexpiry : checkExpiryCaptive captive d.now (cardToSubscriber db card) = none) :
    CutInTime loads db d card batch plan ↔ LimitsReach loads db d card batch plan := by
  have hended := ended_of_checkExpiry hexpiry
  have hextra : extraTimeout (cardToSubscriber db card) = none := by rfl
  simp only [CutInTime, sessionTimeout, hextra, Option.map_eq_some_iff, TimeoutValue.seconds.injEq,
    exists_eq_right]
  cases plan with
  | none => simp [builtTimeout_none, LimitsReach]
  | some p =>
    simp only [LimitsReach, Option.mem_some_iff, exists_eq_left']
    have hsome : SomeLimit db d card batch p loads (fun _ => True) ↔
        ∃ n ∈ builtTimeout loads db d (cardToSubscriber db card) (some p), True :=
      (exists_builtTimeout hcard hbatch hname hbudget hended (by simp)).symm
    have hwithin : ∀ b, SomeLimit db d card batch p loads (· ≤ b) ↔
        ∃ n ∈ builtTimeout loads db d (cardToSubscriber db card) (some p), n ≤ b := fun b =>
      (exists_builtTimeout hcard hbatch hname hbudget hended fun _ _ => min_le_iff).symm
    simp only [hsome, hwithin]
    cases hbuilt : builtTimeout loads db d (cardToSubscriber db card) (some p) with
    | none => simp
    | some n =>
      have hpos : 0 < n := cutBy_pos (cutBy_pos (planned_pos _ _ _ _)) n hbuilt
      simp [hpos]

def hourBatch : CardBatch := { id := 1, timeValue := 1, timeUnit := "hours" }

def hourCard : Card := { id := 1, batchId := 1, username := "c1" }

def hourPlan : AccessPlan := { id := 1, durationMinutes := 60 }

def hourDb : Db := { cards := [hourCard], batches := [hourBatch] }

theorem cut_in_time_hour :
    CutInTime (fun _ => none) hourDb sampleDay hourCard hourBatch hourPlan := by
  refine (cut_in_time_iff _ _ _ _ _ _ false rfl rfl (by decide) (by decide) (by decide)).mpr
    ⟨hourPlan, rfl, Or.inl (by decide), fun b hb => Or.inl ?_⟩
  have hbounds : Bounds hourDb sampleDay hourCard hourBatch hourPlan = [3600] := by decide
  obtain rfl := List.mem_singleton.mp (hbounds ▸ hb)
  decide

def secondsBatch : CardBatch :=
  { hourBatch with countBySeconds := true, countFromFirstConnect := false }

def secondsDb : Db := { cards := [hourCard], batches := [secondsBatch] }

def ratePlan : AccessPlan := { id := 1 }

/-- A card charged by the second, under a plan without a duration, passes the gates and gets no
Session-Timeout. -/
theorem seconds_card_unlimited :
    let sub := cardToSubscriber secondsDb hourCard
    secondsDb.card 1 "c1" = some hourCard ∧ secondsDb.batch 1 1 = some secondsBatch ∧
      0 < cardBudget secondsBatch (some ratePlan) ∧
      checkExpiryCaptive false sampleDay.now sub = none ∧
      checkSchedule (fun _ => none) sub ratePlan sampleDay.localNow = .ok none ∧
      checkCardTimeBudget secondsDb 1 "c1" ratePlan = none ∧
      checkConnectionTime secondsDb.radacct sampleDay sub ratePlan = none ∧
      sessionTimeout (fun _ => none) secondsDb sampleDay sub ratePlan = none := by
  decide

end RadiusModule.PolicyEngine
