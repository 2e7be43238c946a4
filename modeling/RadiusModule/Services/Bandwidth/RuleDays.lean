import RadiusModule.Core.AccessSchedule
import RadiusModule.Library.Lines
import RadiusModule.Library.Table
import RadiusModule.Services.Bandwidth.Schedules

/-!
# The days of a speed rule

A speed rule has hours and days. The hours may go past midnight, and then the
part after midnight is of the day on which they began. What a rule asks for is
said here in its own terms and compared with the rule that the resolution gives.
-/

namespace RadiusModule.Bandwidth
open Library AccessSchedule

abbrev ScheduleTable := Table BandwidthSchedule BandwidthSchedule.id

def createBandwidthSchedule (t : ScheduleTable) (data : BandwidthSchedule) : ScheduleTable :=
  t.insert (fun id => { data with
    id
    priority := if data.priority = 0 then 100 else data.priority }) fun _ => rfl

structure SpeedUser where
  tenantId : ℤ
  username : String
  cardBatchId : Option ℕ
  planId : Option ℕ

/-- `local_hhmm` -/
def minuteAt (when : ℤ) : ℕ := (when % dayLength / (60 * second)).toNat

def onDay (csv code : String) : Bool :=
  csv = "" || (PyText.splitChars ',' csv.toList).contains code.toList

def openedOn (r : BandwidthSchedule) (when : ℤ) : String :=
  if r.endsAt < r.startsAt ∧ minuteAt when < r.endsAt then weekdayCode (when - dayLength)
  else weekdayCode when

def inHours (r : BandwidthSchedule) (when : ℤ) : Bool :=
  inTimeWindow (minuteAt when) r.startsAt r.endsAt

def contains (r : BandwidthSchedule) (when : ℤ) : Bool :=
  inHours r when && onDay r.daysCsv (openedOn r when)

def TargetType.rank : TargetType → ℕ
  | .subscriber => 0
  | .subscriberGroup => 1
  | .cardBatch => 2
  | .plan => 3

def precedes (a b : BandwidthSchedule) : Prop :=
  a.targetType.rank < b.targetType.rank ∨ a.targetType.rank = b.targetType.rank ∧ sooner a b

section
variable (db : Db) (groups : List SubscriberGroup) (user : SpeedUser)

def aims (r : BandwidthSchedule) : Bool :=
  match r.targetType with
  | .subscriber => user.username ≠ "" && r.subscriberUsername = user.username
  | .subscriberGroup => user.username ≠ "" && groups.any fun g =>
      r.subscriberGroupId = some g.id && isMember user.tenantId db user.username g
  | .cardBatch => user.cardBatchId.any fun id => r.cardBatchId = some id
  | .plan => user.planId.any fun id => r.planId = some id

def applies (r : BandwidthSchedule) : Bool :=
  r.tenantId = user.tenantId && r.enabled && aims db groups user r

structure Honours (t : ScheduleTable) (when : ℤ) (given : Option BandwidthSchedule) : Prop where
  answers : given.isSome = true ↔
    ∃ r ∈ t.rows, applies db groups user r = true ∧ contains r when = true
  due : ∀ r ∈ given, r ∈ t.rows ∧ applies db groups user r = true ∧ contains r when = true
  first : ∀ r ∈ given, ∀ r' ∈ t.rows, applies db groups user r' = true →
    contains r' when = true → precedes r r'

def DaysKept (t : ScheduleTable) (when : ℤ) : Prop :=
  ∀ r ∈ t.rows, applies db groups user r = true → inHours r when = true →
    onDay r.daysCsv (openedOn r when) = false →
    ∃ r' ∈ t.rows, applies db groups user r' = true ∧ contains r' when = true ∧ precedes r' r

end

theorem sooner_total (a b : BandwidthSchedule) : sooner a b ∨ sooner b a := by
  simp only [sooner]
  omega

theorem sooner_trans {a b c : BandwidthSchedule} (h : sooner a b) (h' : sooner b c) :
    sooner a c := by
  simp only [sooner] at *
  omega

theorem sooner_refl (a : BandwidthSchedule) : sooner a a := .inr ⟨rfl, le_rfl⟩

theorem rank_injective {s s' : TargetType} (h : s.rank = s'.rank) : s = s' := by
  cases s <;> cases s' <;> first | rfl | cases h

theorem eq_of_precedes {t : ScheduleTable} {a b : BandwidthSchedule} (ha : a ∈ t.rows)
    (hb : b ∈ t.rows) (h : precedes a b) (h' : precedes b a) : a = b := by
  simp only [precedes, sooner] at h h'
  exact t.eq_of_key_eq ha hb (by omega)

theorem activeRuleForTarget_some {rows : List BandwidthSchedule} {tenantId : ℤ} {minute : ℕ}
    {s : TargetType} {target : BandwidthSchedule → Bool} {r : BandwidthSchedule}
    (h : activeRuleForTarget rows tenantId minute s target = some r) :
    (r ∈ rows ∧ (r.tenantId = tenantId && r.targetType = s && r.enabled && target r) = true ∧
      inTimeWindow minute r.startsAt r.endsAt = true) ∧
    ∀ r' ∈ rows, (r'.tenantId = tenantId && r'.targetType = s && r'.enabled && target r') = true →
      inTimeWindow minute r'.startsAt r'.endsAt = true → sooner r r' := by
  have htotal : Std.Total sooner := ⟨sooner_total⟩
  have htrans : IsTrans BandwidthSchedule sooner := ⟨fun _ _ _ => sooner_trans⟩
  rw [activeRuleForTarget, List.find?_eq_some_iff_append] at h
  obtain ⟨hhours, before, after, hsplit, hbefore⟩ := h
  have hsorted := List.pairwise_insertionSort sooner (rows.filter fun r =>
    r.tenantId = tenantId && r.targetType = s && r.enabled && target r)
  have hmem : ∀ q, q ∈ before ++ r :: after ↔ q ∈ rows ∧
      (q.tenantId = tenantId && q.targetType = s && q.enabled && target q) = true := by
    intro q
    rw [← hsplit, List.mem_insertionSort, List.mem_filter]
  rw [hsplit, List.pairwise_append, List.pairwise_cons] at hsorted
  obtain ⟨hrow, htarget⟩ := (hmem r).mp (List.mem_append_right _ List.mem_cons_self)
  refine ⟨⟨hrow, htarget, hhours⟩, fun r' hr' htarget' hhours' => ?_⟩
  obtain hr' | hr' := List.mem_append.mp ((hmem r').mpr ⟨hr', htarget'⟩)
  · have hnot := hbefore r' hr'
    rw [hhours'] at hnot
    cases hnot
  · obtain rfl | hr' := List.mem_cons.mp hr'
    · exact sooner_refl r'
    · exact hsorted.2.1.1 r' hr'

theorem activeRuleForTarget_none {rows : List BandwidthSchedule} {tenantId : ℤ} {minute : ℕ}
    {s : TargetType} {target : BandwidthSchedule → Bool}
    (h : activeRuleForTarget rows tenantId minute s target = none) : ∀ r ∈ rows,
    (r.tenantId = tenantId && r.targetType = s && r.enabled && target r) = true →
      inTimeWindow minute r.startsAt r.endsAt = false := by
  intro r hr htarget
  rw [activeRuleForTarget, List.find?_eq_none] at h
  refine Bool.eq_false_iff.mpr (h r ?_)
  rw [List.mem_insertionSort, List.mem_filter]
  exact ⟨hr, htarget⟩

def kindRule (t : ScheduleTable) (db : Db) (groups : List SubscriberGroup) (user : SpeedUser)
    (when : ℤ) (s : TargetType) : Option BandwidthSchedule :=
  activeRuleForTarget t.rows user.tenantId (minuteAt when) s fun r =>
    aims db groups user { r with targetType := s }

section
variable (t : ScheduleTable) (db : Db) (groups : List SubscriberGroup) (user : SpeedUser)
  (when : ℤ)

def effectiveSchedule : Option BandwidthSchedule :=
  resolveEffectiveBandwidthSchedule t.rows user.tenantId (minuteAt when) db groups user.username
    user.cardBatchId user.planId

theorem activeRuleForTarget_of_never {rows : List BandwidthSchedule} {tenantId : ℤ} {minute : ℕ}
    {s : TargetType} : activeRuleForTarget rows tenantId minute s (fun _ => false) = none := by
  simp [activeRuleForTarget]

theorem effectiveSchedule_eq : effectiveSchedule t db groups user when =
    (kindRule t db groups user when .subscriber <|> kindRule t db groups user when .subscriberGroup
      <|> kindRule t db groups user when .cardBatch <|> kindRule t db groups user when .plan) := by
  have hbatch : user.cardBatchId.bind (fun id => activeRuleForTarget t.rows user.tenantId
      (minuteAt when) .cardBatch fun r => r.cardBatchId = some id) =
      kindRule t db groups user when .cardBatch := by
    simp only [kindRule, aims]
    cases user.cardBatchId with
    | none => exact activeRuleForTarget_of_never.symm
    | some id => rfl
  have hplan : user.planId.bind (fun id => activeRuleForTarget t.rows user.tenantId
      (minuteAt when) .plan fun r => r.planId = some id) =
      kindRule t db groups user when .plan := by
    simp only [kindRule, aims]
    cases user.planId with
    | none => exact activeRuleForTarget_of_never.symm
    | some id => rfl
  rw [effectiveSchedule, resolveEffectiveBandwidthSchedule, hbatch, hplan]
  by_cases hname : user.username = ""
  · simp only [kindRule, aims, hname, ne_eq, not_true_eq_false, decide_false,
      Bool.false_and, activeRuleForTarget_of_never]
    rfl
  · simp only [kindRule, aims, ne_eq, hname, not_false_eq_true, decide_true, Bool.true_and,
      if_false, Option.orElse_eq_orElse, Option.orElse_eq_or, Option.or_assoc]

variable {t db groups user when}

theorem kindRule_some {s : TargetType} {r : BandwidthSchedule}
    (h : kindRule t db groups user when s = some r) :
    (r ∈ t.rows ∧ applies db groups user r = true ∧ inHours r when = true ∧ r.targetType = s) ∧
    ∀ r' ∈ t.rows, applies db groups user r' = true → inHours r' when = true →
      r'.targetType = s → sooner r r' := by
  obtain ⟨⟨hrow, htarget, hhours⟩, hfirst⟩ := activeRuleForTarget_some h
  simp only [Bool.and_eq_true, decide_eq_true_eq] at htarget hfirst
  obtain ⟨⟨⟨htenant, rfl⟩, henabled⟩, haims⟩ := htarget
  have happlies : applies db groups user r = true := by
    simp only [applies, Bool.and_eq_true, decide_eq_true_eq]
    exact ⟨⟨htenant, henabled⟩, haims⟩
  refine ⟨⟨hrow, happlies, hhours, rfl⟩, ?_⟩
  intro r' hrow' happlies hhours' hkind
  simp only [applies, Bool.and_eq_true, decide_eq_true_eq] at happlies
  refine hfirst r' hrow' ⟨⟨⟨happlies.1.1, hkind⟩, happlies.1.2⟩, ?_⟩ hhours'
  rw [← hkind]
  exact happlies.2

theorem kindRule_none {s : TargetType} (h : kindRule t db groups user when s = none) :
    ∀ r ∈ t.rows, applies db groups user r = true → inHours r when = true →
      r.targetType ≠ s := by
  rintro r hrow happlies hhours rfl
  simp only [applies, Bool.and_eq_true, decide_eq_true_eq] at happlies
  have hout := activeRuleForTarget_none h r hrow (by
    simp only [Bool.and_eq_true, decide_eq_true_eq]
    exact ⟨⟨⟨happlies.1.1, trivial⟩, happlies.1.2⟩, happlies.2⟩)
  rw [inHours, hout] at hhours
  cases hhours

theorem kindRule_of_effectiveSchedule {r : BandwidthSchedule}
    (h : effectiveSchedule t db groups user when = some r) : ∃ s,
    kindRule t db groups user when s = some r ∧ ∀ s' : TargetType, s'.rank < s.rank →
      kindRule t db groups user when s' = none := by
  rw [effectiveSchedule_eq] at h
  cases hown : kindRule t db groups user when .subscriber with
  | some q =>
    rw [hown] at h
    exact ⟨.subscriber, hown.trans h, fun s' hs' => absurd hs' (Nat.not_lt_zero _)⟩
  | none =>
    cases hgroup : kindRule t db groups user when .subscriberGroup with
    | some q =>
      rw [hown, hgroup] at h
      refine ⟨.subscriberGroup, hgroup.trans h, fun s' hs' => ?_⟩
      cases s' with
      | subscriber => exact hown
      | subscriberGroup | cardBatch | plan => exact absurd hs' (by decide)
    | none =>
      cases hbatch : kindRule t db groups user when .cardBatch with
      | some q =>
        rw [hown, hgroup, hbatch] at h
        refine ⟨.cardBatch, hbatch.trans h, fun s' hs' => ?_⟩
        cases s' with
        | subscriber => exact hown
        | subscriberGroup => exact hgroup
        | cardBatch | plan => exact absurd hs' (by decide)
      | none =>
        rw [hown, hgroup, hbatch] at h
        refine ⟨.plan, h, fun s' hs' => ?_⟩
        cases s' with
        | subscriber => exact hown
        | subscriberGroup => exact hgroup
        | cardBatch => exact hbatch
        | plan => exact absurd hs' (by decide)

theorem effectiveSchedule_some {r : BandwidthSchedule}
    (h : effectiveSchedule t db groups user when = some r) :
    (r ∈ t.rows ∧ applies db groups user r = true ∧ inHours r when = true) ∧
    ∀ r' ∈ t.rows, applies db groups user r' = true → inHours r' when = true → precedes r r' := by
  obtain ⟨s, hkind, hbefore⟩ := kindRule_of_effectiveSchedule h
  obtain ⟨⟨hrow, happlies, hhours, rfl⟩, hfirst⟩ := kindRule_some hkind
  refine ⟨⟨hrow, happlies, hhours⟩, fun r' hrow' happlies' hhours' => ?_⟩
  obtain hlt | hsame | hgt := lt_trichotomy r.targetType.rank r'.targetType.rank
  · exact .inl hlt
  · exact .inr ⟨hsame, hfirst r' hrow' happlies' hhours' (rank_injective hsame.symm)⟩
  · exact absurd rfl (kindRule_none (hbefore _ hgt) r' hrow' happlies' hhours')

theorem effectiveSchedule_none (h : effectiveSchedule t db groups user when = none) :
    ∀ r ∈ t.rows, applies db groups user r = true → inHours r when = false := by
  intro r hrow happlies
  rw [effectiveSchedule_eq] at h
  simp only [Option.orElse_eq_orElse, Option.orElse_eq_or, Option.or_eq_none_iff] at h
  have hnone : ∀ s, kindRule t db groups user when s = none := by
    intro s
    cases s with
    | subscriber => exact h.1
    | subscriberGroup => exact h.2.1
    | cardBatch => exact h.2.2.1
    | plan => exact h.2.2.2
  by_contra hhours
  exact kindRule_none (hnone r.targetType) r hrow happlies (Bool.not_eq_false _ ▸ hhours) rfl

end

/-- The resolution honours every restriction of the rules if and only if each rule whose hours have
come on a day that is not its own stands behind one that is due. -/
theorem honours_iff (t : ScheduleTable) (db : Db) (groups : List SubscriberGroup) (user : SpeedUser)
    (when : ℤ) :
    Honours db groups user t when (effectiveSchedule t db groups user when) ↔
      DaysKept db groups user t when := by
  constructor
  · intro h r hrow happlies hhours hday
    cases hgiven : effectiveSchedule t db groups user when with
    | none =>
      rw [effectiveSchedule_none hgiven r hrow happlies] at hhours
      cases hhours
    | some q =>
      obtain ⟨hq, happliesq, hcontains⟩ := h.due q hgiven
      exact ⟨q, hq, happliesq, hcontains, (effectiveSchedule_some hgiven).2 r hrow happlies hhours⟩
  · intro h
    -- the rule that comes first by its hours is due, since none that is due stands before it
    have hdue : ∀ q, effectiveSchedule t db groups user when = some q → contains q when = true := by
      intro q hgiven
      obtain ⟨⟨hrow, happlies, hhours⟩, hfirst⟩ := effectiveSchedule_some hgiven
      cases hday : onDay q.daysCsv (openedOn q when) with
      | true => rw [contains, hhours, hday, Bool.and_self]
      | false =>
        obtain ⟨r, hr, happliesr, hcontains, hbefore⟩ := h q hrow happlies hhours hday
        have hhoursr := (Bool.and_eq_true_iff.mp hcontains).1
        obtain rfl := eq_of_precedes hr hrow hbefore (hfirst r hr happliesr hhoursr)
        exact hcontains
    refine ⟨⟨fun hsome => ?_, ?_⟩, ?_, ?_⟩
    · obtain ⟨q, hgiven⟩ := Option.isSome_iff_exists.mp hsome
      obtain ⟨⟨hrow, happlies, -⟩, -⟩ := effectiveSchedule_some hgiven
      exact ⟨q, hrow, happlies, hdue q hgiven⟩
    · rintro ⟨r, hrow, happlies, hcontains⟩
      cases hgiven : effectiveSchedule t db groups user when with
      | some q => rfl
      | none =>
        rw [contains, effectiveSchedule_none hgiven r hrow happlies] at hcontains
        cases hcontains
    · intro q hgiven
      obtain ⟨⟨hrow, happlies, -⟩, -⟩ := effectiveSchedule_some hgiven
      exact ⟨hrow, happlies, hdue q hgiven⟩
    · intro q hgiven r' hrow' happlies' hcontains'
      exact (effectiveSchedule_some hgiven).2 r' hrow' happlies' (Bool.and_eq_true_iff.mp hcontains').1

def fridayNights : ScheduleTable :=
  createBandwidthSchedule .empty
    { id := 0, targetType := .plan, planId := some 3, startsAt := 1320, endsAt := 120,
      daysCsv := "fri", speedDownKbps := 1024 }

/-- On a Tuesday night the rule of the Friday nights is given. -/
theorem other_day_honoured_not : ¬ Honours {} [] ⟨1, "ali", none, some 3⟩
    fridayNights (23 * 60 * 60 * second - 2 * dayLength)
    (effectiveSchedule fridayNights {} [] ⟨1, "ali", none, some 3⟩
      (23 * 60 * 60 * second - 2 * dayLength)) := by
  intro h
  have hgiven : (effectiveSchedule fridayNights {} [] ⟨1, "ali", none, some 3⟩
      (23 * 60 * 60 * second - 2 * dayLength)).isSome = true := by decide
  obtain ⟨r, hrow, -, hcontains⟩ := h.answers.mp hgiven
  have hnone : (fridayNights.rows.all fun r =>
      !contains r (23 * 60 * 60 * second - 2 * dayLength)) = true := by decide
  have hnot := List.all_eq_true.mp hnone r hrow
  rw [hcontains] at hnot
  cases hnot

end RadiusModule.Bandwidth
