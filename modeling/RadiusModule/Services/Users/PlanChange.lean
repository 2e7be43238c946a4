import RadiusModule.Library.FloatFormat
import RadiusModule.Services.Users.EditRuns

/-!
# What a change of plan conserves

A policy that compensates turns the time left at the old rate into time left at
the new one, or into a debt. What is lost or gained by it is half a minute of
the new plan and half a cent.
-/

namespace RadiusModule.Users
open Library
open Accounting (basePlanMinutes)

section
variable {cfg : Settings} {now : ℤ} {policy : Policy} {expireAt : Option ℤ} {oldRate newRate : ℚ}
  {terms : PlanChangeTerms}

theorem remainingMinutes_nonneg (expireAt : Option ℤ) (now : ℤ) :
    0 ≤ remainingMinutes expireAt now := by
  cases expireAt with
  | none => exact le_rfl
  | some e => exact le_max_left _ _

theorem planRatePerMinute_nonneg (plan : Option PlanRow) : 0 ≤ planRatePerMinute plan := by
  have hbase : 0 ≤ basePlanMinutes (plan.map PlanRow.toPlan) := by
    unfold basePlanMinutes
    split
    · exact le_rfl
    · split_ifs <;> omega
  have hperiod : 0 ≤ planPeriodMinutes plan := by
    unfold planPeriodMinutes
    split_ifs
    · exact le_rfl
    · dsimp only
      split_ifs
      · norm_num
      · exact hbase
  unfold planRatePerMinute
  dsimp only
  split_ifs with hprice
  · exact le_rfl
  · exact div_nonneg (not_le.mp hprice).le (by exact_mod_cast hperiod)

theorem lt_of_lower (h : planChangeDirection oldRate newRate = .lower) : newRate < oldRate := by
  unfold planChangeDirection at h
  split_ifs at h with hfree hold hnew hsame hless
  · exact lt_of_le_of_lt hnew (not_le.mp hold)
  · exact hless

theorem lt_of_higher (h : planChangeDirection oldRate newRate = .higher) : oldRate < newRate := by
  unfold planChangeDirection at h
  split_ifs at h with hfree hold hnew hsame hless
  · exact lt_of_le_of_lt hold (not_le.mp fun hle => hfree ⟨hold, hle⟩)
  · refine lt_of_le_of_ne (not_lt.mp hless) fun heq => hsame ?_
    rw [heq, sub_self, abs_zero, max_self]
    exact div_nonneg (not_le.mp hnew).le (by norm_num)

theorem neg_le_minuteDelta {remaining delta : ℤ} (hr : 0 ≤ remaining)
    (h : minuteDelta policy remaining oldRate newRate = .ok delta) : -remaining ≤ delta := by
  cases policy with
  | lowerCompensate =>
    simp only [minuteDelta] at h
    split_ifs at h
    cases h
    omega
  | higherReduceDays =>
    cases h
    omega
  | lowerKeepExpiry | higherDebt | higherKeepExpiry | neutralKeepExpiry =>
    cases h
    omega

theorem planChangeAmounts_spec
    (h : planChangeAmounts cfg now policy expireAt oldRate newRate = .ok terms) :
    terms.newExpire = expireAt.map (· + terms.minuteDelta * minute) ∧
      -remainingMinutes expireAt now ≤ terms.minuteDelta ∧
      if remainingMinutes expireAt now ≤ 0 then terms.minuteDelta = 0 ∧ terms.debt = 0
      else minuteDelta policy (remainingMinutes expireAt now) oldRate newRate =
          .ok terms.minuteDelta ∧
        terms.debt = planDebt policy (remainingMinutes expireAt now) oldRate newRate := by
  unfold planChangeAmounts at h
  have hnonneg := remainingMinutes_nonneg expireAt now
  by_cases hnone : remainingMinutes expireAt now ≤ 0
  · simp only [if_pos hnone] at h ⊢
    cases h
    refine ⟨?_, by simpa using hnonneg, rfl, rfl⟩
    cases expireAt <;> simp
  · simp only [if_neg hnone, bind, Except.bind] at h ⊢
    cases hdelta : minuteDelta policy (remainingMinutes expireAt now) oldRate newRate with
    | error e =>
      rw [hdelta] at h
      cases h
    | ok delta =>
      have hle := neg_le_minuteDelta hnonneg hdelta
      simp only [hdelta, throw, throwThe, MonadExceptOf.throw] at h
      split_ifs at h
      · cases hshift : shiftedExpire cfg now expireAt delta with
        | error e =>
          rw [hshift] at h
          cases h
        | ok newExpire =>
          rw [hshift] at h
          cases h
          refine ⟨?_, hle, rfl, rfl⟩
          cases expireAt with
          | none => exact absurd le_rfl hnone
          | some e =>
            simp only [remainingMinutes] at hle hnone
            simp only [shiftedExpire] at hshift
            split_ifs at hshift with hzero
            · cases hshift
              simp [hzero]
            · unfold addMinutesCapped at hshift
              split_ifs at hshift
              · cases hshift
              · cases hshift
                have hnow : now ≤ e + delta * minute := by
                  unfold minute at hle hnone ⊢
                  omega
                simp [max_eq_left hnow]

theorem remainingMinutes_newExpire
    (h : planChangeAmounts cfg now policy expireAt oldRate newRate = .ok terms) :
    remainingMinutes terms.newExpire now = remainingMinutes expireAt now + terms.minuteDelta := by
  obtain ⟨hend, hle, hrest⟩ := planChangeAmounts_spec h
  by_cases hnone : remainingMinutes expireAt now ≤ 0
  · rw [if_pos hnone] at hrest
    rw [hend, hrest.1]
    cases expireAt <;> simp
  · rw [hend]
    cases expireAt with
    | none => exact absurd le_rfl hnone
    | some e =>
      have hshift : (e + terms.minuteDelta * minute - now) / minute =
          (e - now) / minute + terms.minuteDelta := by
        rw [show e + terms.minuteDelta * minute - now = e - now + terms.minuteDelta * minute by ring]
        exact Int.add_mul_ediv_right _ _ (by decide)
      simp only [Option.map_some, remainingMinutes, hshift] at hle hnone ⊢
      omega

/-- `lower_compensate`, `higher_reduce_days` and `higher_debt` -/
def Policy.compensates : Policy → Bool
  | .lowerCompensate | .higherReduceDays | .higherDebt => true
  | _ => false

theorem abs_adjusted_sub_le (oldRate : ℚ) (remaining : ℤ) (hnew : 0 < newRate) :
    |(Binary64.roundHalfEven (remaining * oldRate / newRate) : ℚ) * newRate - remaining * oldRate| ≤
      newRate / 2 := by
  have hhalf := Binary64.abs_roundHalfEven_sub_le (remaining * oldRate / newRate)
  have hscaled := mul_le_mul_of_nonneg_right hhalf hnew.le
  rw [← abs_of_pos hnew, ← abs_mul, abs_of_pos hnew, sub_mul, div_mul_cancel₀ _ hnew.ne'] at hscaled
  linarith

theorem le_adjusted {remaining : ℤ} (hr : 0 ≤ remaining) (hnew : 0 < newRate)
    (hlt : newRate < oldRate) :
    remaining ≤ Binary64.roundHalfEven (remaining * oldRate / newRate) := by
  refine Binary64.le_roundHalfEven ((le_div_iff₀ hnew).mpr ?_)
  exact mul_le_mul_of_nonneg_left hlt.le (by exact_mod_cast hr)

theorem adjusted_le {remaining : ℤ} (hr : 0 ≤ remaining) (hold : 0 ≤ oldRate)
    (hlt : oldRate < newRate) :
    0 ≤ Binary64.roundHalfEven (remaining * oldRate / newRate) ∧
      Binary64.roundHalfEven (remaining * oldRate / newRate) ≤ remaining := by
  have hnew : 0 < newRate := hold.trans_lt hlt
  have hr' : (0 : ℚ) ≤ remaining := by exact_mod_cast hr
  constructor
  · exact Binary64.le_roundHalfEven (by simpa using div_nonneg (mul_nonneg hr' hold) hnew.le)
  · exact Binary64.roundHalfEven_le ((div_le_iff₀ hnew).mpr
      (mul_le_mul_of_nonneg_left hlt.le hr'))

theorem abs_value_sub_le (hold : 0 ≤ oldRate) (hnew : 0 ≤ newRate)
    (hdirection : policy.direction = planChangeDirection oldRate newRate)
    (hcompensates : policy.compensates = true)
    (h : planChangeAmounts cfg now policy expireAt oldRate newRate = .ok terms) :
    |(remainingMinutes expireAt now + terms.minuteDelta : ℤ) * newRate - (terms.debt : ℚ) / 100 -
      remainingMinutes expireAt now * oldRate| ≤ newRate / 2 + 1 / 200 := by
  obtain ⟨-, -, hrest⟩ := planChangeAmounts_spec h
  have hnonneg := remainingMinutes_nonneg expireAt now
  generalize remainingMinutes expireAt now = remaining at hrest hnonneg ⊢
  by_cases hnone : remaining ≤ 0
  · rw [if_pos hnone] at hrest
    obtain rfl : remaining = 0 := le_antisymm hnone hnonneg
    rw [hrest.1, hrest.2]
    norm_num
    positivity
  rw [if_neg hnone] at hrest
  obtain ⟨hdelta, hdebt⟩ := hrest
  cases policy with
  | lowerCompensate =>
    have hlt := lt_of_lower hdirection.symm
    simp only [minuteDelta] at hdelta
    split_ifs at hdelta with hfree
    have hpos := not_le.mp hfree
    have hmax := max_eq_right (le_adjusted hnonneg hpos hlt)
    rw [← Except.ok.inj hdelta, hmax, hdebt, planDebt, if_neg (by decide), add_sub_cancel]
    have hvalue := abs_adjusted_sub_le oldRate remaining hpos
    norm_num
    linarith
  | higherReduceDays =>
    have hlt := lt_of_higher hdirection.symm
    obtain ⟨hzero, hle⟩ := adjusted_le hnonneg hold hlt
    simp only [minuteDelta, min_eq_right hle, max_eq_right hzero] at hdelta
    rw [← Except.ok.inj hdelta, hdebt, planDebt, if_neg (by decide), add_sub_cancel]
    have hvalue := abs_adjusted_sub_le oldRate remaining (hold.trans_lt hlt)
    norm_num
    linarith
  | higherDebt =>
    have hlt := lt_of_higher hdirection.symm
    rw [← Except.ok.inj hdelta, hdebt, planDebt, if_pos rfl, max_eq_left (mul_nonneg
      (sub_nonneg.mpr hlt.le) (by exact_mod_cast hnonneg)), add_zero]
    have hcents := abs_le.mp (Binary64.abs_roundHalfEven_sub_le ((newRate - oldRate) * remaining * 100))
    rw [abs_le]
    constructor <;> linarith
  | lowerKeepExpiry | higherKeepExpiry | neutralKeepExpiry => cases hcompensates

end

theorem planChangeTerms_spec {cfg : Settings} {now : ℤ} {planId : Option ℕ} {expireAt : Option ℤ}
    {newPlanId : ℕ} {text : String} {terms : PlanChangeTerms}
    (h : planChangeTerms cfg now planId expireAt newPlanId text = .ok terms) :
    0 < newPlanId ∧ ∃ policy, Policy.ofText text = .ok policy ∧
      policy.direction = planChangeDirection (planRatePerMinute (planId.bind cfg.plans))
        (planRatePerMinute (cfg.plans newPlanId)) ∧
      planChangeAmounts cfg now policy expireAt (planRatePerMinute (planId.bind cfg.plans))
        (planRatePerMinute (cfg.plans newPlanId)) = .ok terms := by
  simp only [planChangeTerms, bind, Except.bind, throw, throwThe, MonadExceptOf.throw] at h
  by_cases hid : newPlanId = 0
  · rw [if_pos hid] at h
    cases h
  rw [if_neg hid] at h
  cases hpolicy : Policy.ofText text with
  | error e =>
    rw [hpolicy] at h
    cases h
  | ok policy =>
    simp only [hpolicy] at h
    split_ifs at h with hsame
    cases hplan : (cfg.plans newPlanId).filter fun plan => !plan.deleted with
    | none =>
      rw [hplan] at h
      cases h
    | some newPlan =>
      have hread : cfg.plans newPlanId = some newPlan := (Option.filter_eq_some_iff.mp hplan).1
      simp only [hplan] at h
      split_ifs at h with henabled hdirection
      refine ⟨Nat.pos_of_ne_zero hid, policy, rfl, ?_, ?_⟩
      · rw [hread]
        exact not_not.mp hdirection
      · rw [hread]
        exact h

def rate (cfg : Settings) (u : Subscriber) : ℚ := planRatePerMinute ((planIdOf u).bind cfg.plans)

def worth (cfg : Settings) (now : ℤ) (u : Subscriber) : ℚ :=
  remainingMinutes u.expireAt now * rate cfg u + u.balance

variable {ν : Type}

structure Conserved (env : Env ν) (policy : Policy) (u u' : Subscriber) : Prop where
  value : policy.compensates = true →
    |worth env.cfg env.now u' - worth env.cfg env.now u| ≤ rate env.cfg u' / 2 + 1 / 200
  seconds : ∀ e ∈ u.expireAt, ∃ e' ∈ u'.expireAt, e' % minute = e % minute
  later : policy = .lowerCompensate → ∀ e ∈ u.expireAt, ∃ e' ∈ u'.expireAt, e ≤ e'
  sooner : policy = .higherReduceDays →
    ∀ e ∈ u.expireAt, ∃ e' ∈ u'.expireAt, e' ≤ e ∧ (env.now ≤ e → env.now ≤ e')
  kept : policy.compensates = false → u'.expireAt = u.expireAt ∧ u'.balance = u.balance

theorem conserved_of_amounts {env : Env ν} {policy : Policy} {u u' : Subscriber}
    {terms : PlanChangeTerms}
    (hdirection : policy.direction = planChangeDirection (rate env.cfg u) (rate env.cfg u'))
    (hamounts : planChangeAmounts env.cfg env.now policy u.expireAt (rate env.cfg u)
      (rate env.cfg u') = .ok terms)
    (hexpire : u'.expireAt = terms.newExpire)
    (hbalance : u'.balance = u.balance - (terms.debt : ℚ) / 100) : Conserved env policy u u' := by
  obtain ⟨hend, hle, hrest⟩ := planChangeAmounts_spec hamounts
  have hmoved : ∀ e ∈ u.expireAt, e + terms.minuteDelta * minute ∈ u'.expireAt := by
    intro e he
    rw [hexpire, hend, Option.mem_def.mp he]
    rfl
  have hzero : remainingMinutes u.expireAt env.now ≤ 0 → terms.minuteDelta = 0 ∧ terms.debt = 0 :=
    fun hnone => by rwa [if_pos hnone] at hrest
  have hsome : ¬ remainingMinutes u.expireAt env.now ≤ 0 →
      minuteDelta policy (remainingMinutes u.expireAt env.now) (rate env.cfg u)
        (rate env.cfg u') = .ok terms.minuteDelta ∧
      terms.debt = planDebt policy (remainingMinutes u.expireAt env.now) (rate env.cfg u)
        (rate env.cfg u') := fun hnone => by rwa [if_neg hnone] at hrest
  constructor
  · intro hcompensates
    have hold : 0 ≤ rate env.cfg u := planRatePerMinute_nonneg _
    have hnew : 0 ≤ rate env.cfg u' := planRatePerMinute_nonneg _
    have hvalue := abs_value_sub_le hold hnew hdirection hcompensates hamounts
    rw [worth, worth, hexpire, remainingMinutes_newExpire hamounts, hbalance]
    refine le_trans (le_of_eq (congrArg abs ?_)) hvalue
    ring
  · intro e he
    exact ⟨_, hmoved e he, Int.add_mul_emod_self_right _ _ _⟩
  · rintro rfl e he
    refine ⟨_, hmoved e he, ?_⟩
    have hnonneg : 0 ≤ terms.minuteDelta := by
      by_cases hnone : remainingMinutes u.expireAt env.now ≤ 0
      · exact (hzero hnone).1.ge
      · have hdelta := (hsome hnone).1
        simp only [minuteDelta] at hdelta
        split_ifs at hdelta
        have heq := Except.ok.inj hdelta
        omega
    have hminute : 0 ≤ terms.minuteDelta * minute := mul_nonneg hnonneg (by decide)
    omega
  · rintro rfl e he
    refine ⟨_, hmoved e he, ?_, fun hnow => ?_⟩
    · have hnonpos : terms.minuteDelta ≤ 0 := by
        by_cases hnone : remainingMinutes u.expireAt env.now ≤ 0
        · exact (hzero hnone).1.le
        · have heq := Except.ok.inj (hsome hnone).1
          omega
      have hminute : terms.minuteDelta * minute ≤ 0 := mul_nonpos_of_nonpos_of_nonneg hnonpos
        (by decide)
      omega
    · rw [Option.mem_def.mp he] at hle
      simp only [remainingMinutes, minute] at hle ⊢
      omega
  · intro hkeeps
    have hnothing : terms.minuteDelta = 0 ∧ terms.debt = 0 := by
      by_cases hnone : remainingMinutes u.expireAt env.now ≤ 0
      · exact hzero hnone
      · obtain ⟨hdelta, hdebt⟩ := hsome hnone
        cases policy with
        | lowerCompensate | higherReduceDays | higherDebt => cases hkeeps
        | lowerKeepExpiry | higherKeepExpiry | neutralKeepExpiry =>
          exact ⟨(Except.ok.inj hdelta).symm, hdebt.trans (if_neg (by decide))⟩
    rw [hexpire, hend, hbalance, hnothing.1, hnothing.2]
    simp

variable [DecidableEq ν]

structure Back (env env' : Env ν) (st st₁ st₂ : Store) (planId oldId : ℕ) : Prop where
  there : ∃ r, execute st ⟨.changePlan planId "higher_reduce_days", env⟩ = (.ok r, st₁)
  back : ∃ r, execute st₁ ⟨.changePlan oldId "lower_compensate", env'⟩ = (.ok r, st₂)
  plan : ∃ u, st.account = some u ∧ planIdOf u = some oldId
  instant : env'.now = env.now
  plans : env'.cfg.plans = env.cfg.plans

/-- What a call of `change_plan` may do to a subscriber and his ledger. -/
structure PlanChangeLaw (env : Env ν) (st : Store) (planId : ℕ) (text : String) : Prop where
  refused : ∀ e st', execute st ⟨.changePlan planId text, env⟩ = (.error e, st') → st' = st
  accepted : ∀ r st', execute st ⟨.changePlan planId text, env⟩ = (.ok r, st') →
    ∃ policy u u', Policy.ofText text = .ok policy ∧ st.account = some u ∧
      st'.account = some u' ∧ planIdOf u' = some planId ∧ Conserved env policy u u'
  roundTrip : ∀ env' st₁ st₂ oldId, Back env env' st st₁ st₂ planId oldId →
    ∃ u u₁ u₂, st.account = some u ∧ st₁.account = some u₁ ∧ st₂.account = some u₂ ∧
      ∀ e ∈ u.expireAt, ∃ e' ∈ u₂.expireAt, ((e' - e : ℤ) : ℚ) ≤
        (rate env.cfg u₁ / rate env.cfg u / 2 + 1) * minute

theorem execute_changePlan {env : Env ν} {st st' : Store} {planId : ℕ} {text : String} {r : Reply}
    (h : execute st ⟨.changePlan planId text, env⟩ = (.ok r, st')) :
    ∃ (row : Row) (restored : _) (terms : PlanChangeTerms), st.account = some row.value ∧
      planChangeTerms env.cfg env.now (planIdOf row.value) row.value.expireAt planId text =
        .ok terms ∧
      st'.rowValue = some (((((row.value.set .planId (some planId)).set .expireAt
        terms.newExpire).set .balance (stored .balance (row.value.balance -
          (terms.debt : ℚ) / 100))).stamp env.now).withRestored restored) := by
  simp only [execute, Op.program, Connection.perform_transaction] at h
  obtain ⟨e, hraised⟩ | ⟨r', st₁, heval, hdone⟩ := Connection.block_cases env.faults.sqlite
    ((Op.changePlan planId text).body env) st
  · rw [hraised] at h
    cases h
  · rw [hdone] at h
    cases h
    have hruns : Runs env (changePlan env planId text) st r st' := heval
    obtain ⟨u, restored, hu, -, hown⟩ := hruns.changePlan
    obtain ⟨u', hu', hterms⟩ := hruns.getAccount
    obtain ⟨terms, hterms, -⟩ := hterms.orRaise
    obtain rfl : u' = u := Option.some_inj.mp (hu'.symm.trans hu)
    obtain ⟨row, -, rfl⟩ := Store.row_of_account hu
    simp only [Op.own, hterms] at hown
    exact ⟨row, restored, terms, hu, hterms, hown⟩

theorem account_changePlan {env : Env ν} {st st' : Store} {planId : ℕ} {text : String} {r : Reply}
    (h : execute st ⟨.changePlan planId text, env⟩ = (.ok r, st')) :
    ∃ policy u u' terms, Policy.ofText text = .ok policy ∧ st.account = some u ∧
      st'.account = some u' ∧ planIdOf u' = some planId ∧
      policy.direction = planChangeDirection (rate env.cfg u) (rate env.cfg u') ∧
      planChangeAmounts env.cfg env.now policy u.expireAt (rate env.cfg u) (rate env.cfg u') =
        .ok terms ∧
      u'.expireAt = terms.newExpire ∧ u'.balance = u.balance - (terms.debt : ℚ) / 100 := by
  obtain ⟨row, restored, terms, hu, hterms, hvalue⟩ := execute_changePlan h
  obtain ⟨hid, policy, hpolicy, hdirection, hamounts⟩ := planChangeTerms_spec hterms
  set u' := ((((row.value.set .planId (some planId)).set .expireAt terms.newExpire).set .balance
    (stored .balance (row.value.balance - (terms.debt : ℚ) / 100))).stamp env.now).withRestored
      restored
  have hdeleted : u'.deletedAt = row.value.deletedAt := by
    cases restored <;> rfl
  have hexpire : u'.expireAt = terms.newExpire := by
    cases restored <;> rfl
  have hplan : planIdOf u' = some planId := by
    have hfield : u'.planId = some (planId : ℤ) := by
      cases restored <;> rfl
    rw [planIdOf, hfield, Option.map_some, Int.toNat_natCast, Option.filter_some,
      if_pos (decide_eq_true hid)]
  have hbalance : u'.balance = row.value.balance - (terms.debt : ℚ) / 100 := by
    have hfield : u'.balance = stored .balance (row.value.balance - (terms.debt : ℚ) / 100) := by
      cases restored <;> rfl
    have hcents : row.value.balance = (Accounting.roundMoney row.value.balance : ℚ) / 100 :=
      (row.kept .balance).symm
    have hsub : row.value.balance - (terms.debt : ℚ) / 100 =
        ((Accounting.roundMoney row.value.balance - terms.debt : ℤ) : ℚ) / 100 := by
      rw [Int.cast_sub, sub_div, ← hcents]
    rw [hfield, hsub]
    simp only [stored, Accounting.roundMoney_cents]
  have hrate : rate env.cfg u' = planRatePerMinute (env.cfg.plans planId) := by
    rw [rate, hplan, Option.bind_some]
  refine ⟨policy, row.value, u', terms, hpolicy, hu, ?_, hplan, ?_, ?_, hexpire, hbalance⟩
  · obtain ⟨-, halive⟩ := Option.filter_eq_some_iff.mp hu
    rw [Store.account, ← Store.rowValue, hvalue, Option.filter_some, hdeleted, if_pos halive]
  · rw [hrate]
    exact hdirection
  · rw [hrate]
    exact hamounts

theorem roundTrip_minutes {cfg cfg' : Settings} {now : ℤ} {expireAt : Option ℤ}
    {cheap dear : ℚ} {there back : PlanChangeTerms} (hcheap : 0 ≤ cheap)
    (hdirection : planChangeDirection cheap dear = .higher)
    (hthere : planChangeAmounts cfg now .higherReduceDays expireAt cheap dear = .ok there)
    (hback : planChangeAmounts cfg' now .lowerCompensate there.newExpire dear cheap = .ok back) :
    ((there.minuteDelta + back.minuteDelta : ℤ) : ℚ) ≤ dear / cheap / 2 + 1 := by
  have hlt := lt_of_higher hdirection
  have hdear : 0 < dear := hcheap.trans_lt hlt
  have hratio : 0 ≤ dear / cheap / 2 := by positivity
  have hleft := remainingMinutes_newExpire hthere
  obtain ⟨-, -, hfirst⟩ := planChangeAmounts_spec hthere
  obtain ⟨-, -, hsecond⟩ := planChangeAmounts_spec hback
  rw [hleft] at hsecond
  have hnonneg := remainingMinutes_nonneg expireAt now
  generalize remainingMinutes expireAt now = remaining at hfirst hsecond hnonneg
  by_cases hnone : remaining ≤ 0
  · rw [if_pos hnone] at hfirst
    rw [hfirst.1, add_zero, if_pos hnone] at hsecond
    rw [hfirst.1, hsecond.1]
    push_cast
    linarith
  rw [if_neg hnone] at hfirst
  obtain ⟨hzero, hle⟩ := adjusted_le hnonneg hcheap hlt
  have hdelta := hfirst.1
  simp only [minuteDelta, min_eq_right hle, max_eq_right hzero] at hdelta
  have hthere := Except.ok.inj hdelta
  have hround := abs_le.mp (Binary64.abs_roundHalfEven_sub_le (remaining * cheap / dear))
  generalize Binary64.roundHalfEven (remaining * cheap / dear) = kept at hthere hround hzero hle
  rw [← hthere, add_sub_cancel] at hsecond
  by_cases hgone : kept ≤ 0
  · rw [if_pos hgone] at hsecond
    rw [← hthere, hsecond.1]
    have hkept : (kept : ℚ) ≤ remaining := by exact_mod_cast hle
    push_cast
    linarith
  · rw [if_neg hgone] at hsecond
    have hdelta := hsecond.1
    simp only [minuteDelta] at hdelta
    split_ifs at hdelta with hfree
    have hcheap := not_le.mp hfree
    rw [max_eq_right (le_adjusted hzero hcheap hlt)] at hdelta
    have hback := Except.ok.inj hdelta
    have hagain := abs_le.mp (Binary64.abs_roundHalfEven_sub_le (kept * dear / cheap))
    have hscaled : (kept : ℚ) * dear / cheap ≤ remaining + dear / cheap / 2 := by
      have hmul := mul_le_mul_of_nonneg_right (sub_le_iff_le_add.mp hround.2)
        (div_nonneg hdear.le hcheap.le)
      have hexact : (1 / 2 + remaining * cheap / dear) * (dear / cheap) =
          remaining + dear / cheap / 2 := by
        field_simp
        ring
      rw [hexact, ← mul_div_assoc] at hmul
      exact hmul
    rw [← hthere, ← hback]
    push_cast
    linarith

theorem changePlan_law (env : Env ν) (st : Store) (planId : ℕ) (text : String) :
    PlanChangeLaw env st planId text := by
  constructor
  · intro e st' h
    obtain ⟨e', hraised⟩ | ⟨row, restored, -, hok, -⟩ := execute_cases
      ⟨.changePlan planId text, env⟩ st
    · rw [hraised] at h
      cases h
      rfl
    · rw [h] at hok
      cases hok
  · intro r st' h
    obtain ⟨policy, u, u', terms, hpolicy, hu, hu', hplan, hdirection, hamounts, hexpire,
      hbalance⟩ := account_changePlan h
    exact ⟨policy, u, u', hpolicy, hu, hu', hplan,
      conserved_of_amounts hdirection hamounts hexpire hbalance⟩
  · rintro env' st₁ st₂ oldId ⟨⟨r, hthere⟩, ⟨r', hback⟩, ⟨u, hu, hold⟩, hnow, hplans⟩
    obtain ⟨policy, u₀, u₁, there, hpolicy, hu₀, hu₁, -, hdirection, hamounts, hexpire, -⟩ :=
      account_changePlan hthere
    obtain ⟨policy', u₁', u₂, back, hpolicy', hu₁', hu₂, hplan₂, -, hamounts', hexpire', -⟩ :=
      account_changePlan hback
    obtain rfl : u₀ = u := Option.some_inj.mp (hu₀.symm.trans hu)
    obtain rfl : u₁' = u₁ := Option.some_inj.mp (hu₁'.symm.trans hu₁)
    obtain rfl : policy = .higherReduceDays := Except.ok.inj hpolicy.symm
    obtain rfl : policy' = .lowerCompensate := Except.ok.inj hpolicy'.symm
    have hrate₁ : rate env'.cfg u₁' = rate env.cfg u₁' := by rw [rate, rate, hplans]
    have hrate₂ : rate env'.cfg u₂ = rate env.cfg u₀ := by rw [rate, rate, hplans, hplan₂, hold]
    rw [hrate₁, hrate₂, hnow, hexpire] at hamounts'
    have hminutes := roundTrip_minutes (planRatePerMinute_nonneg _) hdirection.symm hamounts
      hamounts'
    refine ⟨u₀, u₁', u₂, hu, hu₁, hu₂, fun e he => ?_⟩
    refine ⟨e + there.minuteDelta * minute + back.minuteDelta * minute, ?_, ?_⟩
    · rw [hexpire', (planChangeAmounts_spec hamounts').1, (planChangeAmounts_spec hamounts).1,
        Option.mem_def.mp he]
      rfl
    · have hmoved : e + there.minuteDelta * minute + back.minuteDelta * minute - e =
          (there.minuteDelta + back.minuteDelta) * minute := by ring
      rw [hmoved, Int.cast_mul]
      exact mul_le_mul_of_nonneg_right hminutes (by norm_num [minute])

/-- Plans of a month at 30 and at 60. -/
def monthlyPlans : Env Unit where
  cfg := { plans := fun id =>
    if id = 1 then some { id := 1, price := 30 } else if id = 2 then some { id := 2, price := 60 }
    else none }
  now := 0
  digest _ := ()
  radacct := .empty

/-- An account with twenty days left of the cheaper plan. -/
def twentyDaysLeft : Store :=
  { row := some (.insert (((Subscriber.new "ali" "1").set .planId (some 1)).set .expireAt
      (some (28800 * minute))) 1 0) }

def dearer : Call Unit := ⟨.changePlan 2 "higher_reduce_days", monthlyPlans⟩

/-- The dearer plan is taken for half of the time. -/
theorem changePlan_law_halved :
    (execute twentyDaysLeft dearer).2.account.map (fun u => u.expireAt) =
        some (some (14400 * minute)) ∧
      ∃ policy u u', Policy.ofText "higher_reduce_days" = .ok policy ∧
        twentyDaysLeft.account = some u ∧
        (execute twentyDaysLeft dearer).2.account = some u' ∧ planIdOf u' = some 2 ∧
        Conserved monthlyPlans policy u u' := by
  have hhalf : (execute twentyDaysLeft dearer).2.account.map (fun u => u.expireAt) =
      some (some (14400 * minute)) := by decide +kernel
  have hok : (execute twentyDaysLeft dearer).1.toBool = true := by decide +kernel
  refine ⟨hhalf, ?_⟩
  rcases hdone : execute twentyDaysLeft dearer with ⟨_ | r, after⟩
  · rw [hdone] at hok
    cases hok
  · exact (changePlan_law monthlyPlans twentyDaysLeft 2 "higher_reduce_days").accepted r after hdone

end RadiusModule.Users
