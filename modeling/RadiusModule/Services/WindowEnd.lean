import RadiusModule.Services.ScheduleWindow

/-!
# The end of the open window

The scan for the end of the window looks at whole minutes. Within a minute the
windows do not change, so the first minute that is out of them is the end.
-/

namespace RadiusModule.ScheduleWindow
open Library PyText AccessSchedule

variable {loads : String → Option Json} {sub : Subscriber} {plan : Option AccessPlan}

def bothAllow (loads : String → Option Json) (sub : Subscriber) (plan : Option AccessPlan)
    (when : ℤ) : Except ScheduleError Bool := do
  if ← dimAllows (scheduleDimWindows loads sub plan) when then dimAllows (offerWindows plan) when
  else return false

def Restricted (loads : String → Option Json) (sub : Subscriber) (plan : Option AccessPlan) :
    Prop :=
  scheduleDimWindows loads sub plan ≠ none ∨ offerWindows plan ≠ none

theorem isOutOfWindow_eq (when : ℤ) :
    isOutOfWindow loads sub plan when = (bothAllow loads sub plan when).map (!·) := by
  obtain ⟨b, hb⟩ := dimAllows_scheduleDim loads sub plan when
  simp only [isOutOfWindow, bothAllow]
  split_ifs with hnone
  · obtain ⟨hsd, hod⟩ := Bool.and_eq_true_iff.mp hnone
    rw [Option.isNone_iff_eq_none.mp hsd, Option.isNone_iff_eq_none.mp hod]
    rfl
  · cases b with
    | false =>
      rw [hb]
      rfl
    | true =>
      rw [hb]
      cases dimAllows (offerWindows plan) when <;> rfl

theorem secondsUntilWindowEnd_of_restricted (h : Restricted loads sub plan) (localDt : ℤ) :
    secondsUntilWindowEnd loads sub plan localDt = do
      if ← bothAllow loads sub plan localDt then
        scanEnd (bothAllow loads sub plan) (localDt / minuteLength * minuteLength) localDt
          scanHorizonMin 1
      else return some 0 := by
  have hsome : ((scheduleDimWindows loads sub plan).isNone && (offerWindows plan).isNone) =
      false := by
    rcases h with h | h
    · rw [Option.isNone_eq_false_iff.mpr (Option.isSome_iff_ne_none.mpr h), Bool.false_and]
    · rw [Option.isNone_eq_false_iff.mpr (Option.isSome_iff_ne_none.mpr h), Bool.and_false]
  simp only [secondsUntilWindowEnd, hsome, Bool.false_eq_true, if_false]
  rfl

section
variable {t t' : ℤ}

theorem weekdayCode_of_minute (h : t / minuteLength = t' / minuteLength) :
    weekdayCode t = weekdayCode t' := by
  have hday : t / dayLength = t' / dayLength := by
    simp only [minuteLength, dayLength, second] at h ⊢
    omega
  rw [weekdayCode, weekdayCode, weekday, weekday, hday]

theorem minuteOfDay_of_minute (h : t / minuteLength = t' / minuteLength) :
    minuteOfDay t = minuteOfDay t' := by
  simp only [minuteOfDay, minuteLength, dayLength, second] at h ⊢
  omega

theorem bothAllow_of_minute (h : t / minuteLength = t' / minuteLength) :
    bothAllow loads sub plan t = bothAllow loads sub plan t' := by
  have hdim : ∀ ws, dimAllows ws t = dimAllows ws t' := by
    intro ws
    cases ws with
    | none => rfl
    | some ws =>
      simp only [dimAllows, windowsAllow, weekdayCode_of_minute h, minuteOfDay_of_minute h]
  rw [bothAllow, bothAllow, hdim, hdim]

end

section
variable {allowed : ℤ → Except ScheduleError Bool} {floor base : ℤ}

theorem scanEnd_some {n : ℕ} {i seconds : ℤ}
    (h : scanEnd allowed floor base n i = .ok (some seconds)) :
    ∃ k : ℕ, k < n ∧ (∀ j : ℕ, j < k → allowed (floor + (i + j) * minuteLength) = .ok true) ∧
      allowed (floor + (i + k) * minuteLength) = .ok false ∧
        seconds = max 1 ((floor + (i + k) * minuteLength - base) / second) := by
  induction n generalizing i with
  | zero => cases h
  | succ n ih =>
    obtain ⟨b, hb, h⟩ := bind_eq_ok.mp h
    cases b with
    | false =>
      cases h
      refine ⟨0, Nat.succ_pos n, fun j hj => (Nat.not_lt_zero j hj).elim, ?_, ?_⟩ <;>
        simp only [Nat.cast_zero, add_zero]
      exact hb
    | true =>
      obtain ⟨k, hk, hbefore, hend, hseconds⟩ := ih h
      have hshift : ∀ j : ℕ, i + 1 + (j : ℤ) = i + ((j + 1 : ℕ) : ℤ) := fun j => by
        push_cast
        ring
      simp only [hshift] at hbefore hend hseconds
      refine ⟨k + 1, Nat.succ_lt_succ hk, fun j hj => ?_, hend, hseconds⟩
      cases j with
      | zero => simpa using hb
      | succ j => exact hbefore j (Nat.lt_of_succ_lt_succ hj)

theorem scanEnd_none {n : ℕ} {i : ℤ} (h : scanEnd allowed floor base n i = .ok none) :
    ∀ j : ℕ, j < n → allowed (floor + (i + j) * minuteLength) = .ok true := by
  induction n generalizing i with
  | zero => exact fun j hj => (Nat.not_lt_zero j hj).elim
  | succ n ih =>
    obtain ⟨b, hb, h⟩ := bind_eq_ok.mp h
    cases b with
    | false => cases h
    | true =>
      intro j hj
      cases j with
      | zero => simpa using hb
      | succ j =>
        have hnext := ih h j (Nat.lt_of_succ_lt_succ hj)
        rw [show i + ((j + 1 : ℕ) : ℤ) = i + 1 + j by push_cast; ring]
        exact hnext

end

section
variable {localDt : ℤ}

theorem isOutOfWindow_ok {when : ℤ} {b : Bool} :
    isOutOfWindow loads sub plan when = .ok b ↔ bothAllow loads sub plan when = .ok (!b) := by
  rw [isOutOfWindow_eq]
  cases bothAllow loads sub plan when with
  | error e => simp [Except.map]
  | ok a => cases a <;> cases b <;> simp [Except.map]

theorem bothAllow_between {k : ℕ} (hstart : bothAllow loads sub plan localDt = .ok true)
    (hminutes : ∀ j : ℕ, j < k → bothAllow loads sub plan
      (localDt / minuteLength * minuteLength + (1 + j) * minuteLength) = .ok true)
    {when : ℤ} (hfrom : localDt ≤ when)
    (hto : when < localDt / minuteLength * minuteLength + (1 + k) * minuteLength) :
    bothAllow loads sub plan when = .ok true := by
  have hlength : (0 : ℤ) < minuteLength := by decide
  by_cases hsame : when / minuteLength = localDt / minuteLength
  · rw [bothAllow_of_minute hsame]
    exact hstart
  · have hle : localDt / minuteLength ≤ when / minuteLength := Int.ediv_le_ediv hlength hfrom
    have hlt : when / minuteLength < localDt / minuteLength + (1 + k) := by
      refine Int.ediv_lt_of_lt_mul hlength ?_
      rw [add_mul]
      exact hto
    obtain ⟨j, hj⟩ : ∃ j : ℕ, when / minuteLength = localDt / minuteLength + (1 + j) :=
      ⟨(when / minuteLength - localDt / minuteLength - 1).toNat, by omega⟩
    have hminute := hminutes j (by omega)
    rw [← add_mul, ← hj] at hminute
    rw [← hminute]
    exact bothAllow_of_minute (Int.mul_ediv_cancel _ hlength.ne').symm

theorem not_restricted (h : ¬Restricted loads sub plan) (when : ℤ) :
    secondsUntilWindowEnd loads sub plan when = .ok none ∧
      isOutOfWindow loads sub plan when = .ok false := by
  obtain ⟨hsd, hod⟩ := not_or.mp h
  rw [secondsUntilWindowEnd, isOutOfWindow, not_not.mp hsd, not_not.mp hod]
  exact ⟨rfl, rfl⟩

theorem secondsUntilWindowEnd_pos {seconds : ℤ}
    (h : secondsUntilWindowEnd loads sub plan localDt = .ok (some seconds)) (hpos : 0 < seconds)
    (hsecond : localDt % second = 0) :
    (∀ when, localDt ≤ when → when < localDt + seconds * second →
      isOutOfWindow loads sub plan when = .ok false) ∧
      isOutOfWindow loads sub plan (localDt + seconds * second) = .ok true := by
  have hrestricted : Restricted loads sub plan := by
    by_contra hnone
    rw [(not_restricted hnone localDt).1] at h
    cases h
  rw [secondsUntilWindowEnd_of_restricted hrestricted] at h
  obtain ⟨b, hstart, h⟩ := bind_eq_ok.mp h
  cases b with
  | false =>
    cases h
    exact (lt_irrefl 0 hpos).elim
  | true =>
    obtain ⟨k, -, hminutes, hend, hseconds⟩ := scanEnd_some h
    have hexact : localDt + seconds * second =
        localDt / minuteLength * minuteLength + (1 + k) * minuteLength := by
      simp only [minuteLength, second] at hsecond hseconds ⊢
      omega
    rw [hexact]
    exact ⟨fun when hfrom hto => isOutOfWindow_ok.mpr (bothAllow_between hstart hminutes hfrom hto),
      isOutOfWindow_ok.mpr hend⟩

theorem secondsUntilWindowEnd_none
    (h : secondsUntilWindowEnd loads sub plan localDt = .ok none) {when : ℤ}
    (hfrom : localDt ≤ when) (hto : when ≤ localDt + 25 * 3600 * second) :
    isOutOfWindow loads sub plan when = .ok false := by
  by_cases hrestricted : Restricted loads sub plan
  · rw [secondsUntilWindowEnd_of_restricted hrestricted] at h
    obtain ⟨b, hstart, h⟩ := bind_eq_ok.mp h
    cases b with
    | false => cases h
    | true =>
      refine isOutOfWindow_ok.mpr (bothAllow_between hstart (scanEnd_none h) hfrom ?_)
      simp only [minuteLength, scanHorizonMin, second] at hto ⊢
      omega
  · exact (not_restricted hrestricted when).2

theorem secondsUntilWindowEnd_zero_iff :
    secondsUntilWindowEnd loads sub plan localDt = .ok (some 0) ↔
      isOutOfWindow loads sub plan localDt = .ok true := by
  by_cases hrestricted : Restricted loads sub plan
  · rw [secondsUntilWindowEnd_of_restricted hrestricted, isOutOfWindow_ok]
    cases hstart : bothAllow loads sub plan localDt with
    | error e => simp [bind, Except.bind]
    | ok b =>
      cases b with
      | false => exact iff_of_true rfl rfl
      | true =>
        refine iff_of_false (fun hscan => ?_) (fun hfalse => by cases hfalse)
        obtain ⟨k, -, -, -, hseconds⟩ := scanEnd_some hscan
        have hpos : (1 : ℤ) ≤ 0 := hseconds ▸ le_max_left 1 _
        exact absurd hpos (by decide)
  · obtain ⟨hnone, hin⟩ := not_restricted hrestricted localDt
    rw [hnone, hin]
    exact iff_of_false (fun h => by cases h) fun h => by cases h

/-- The answer is exact: the windows are open until it, and shut at it; without one they stay
open for 25 hours, and it is 0 just when they are shut. -/
theorem secondsUntilWindowEnd_exact (loads : String → Option Json) (sub : Subscriber)
    (plan : Option AccessPlan) (localDt : ℤ) (hsecond : localDt % second = 0) :
    (∀ seconds, secondsUntilWindowEnd loads sub plan localDt = .ok (some seconds) → 0 < seconds →
      (∀ when, localDt ≤ when → when < localDt + seconds * second →
        isOutOfWindow loads sub plan when = .ok false) ∧
      isOutOfWindow loads sub plan (localDt + seconds * second) = .ok true) ∧
    (secondsUntilWindowEnd loads sub plan localDt = .ok none →
      ∀ when, localDt ≤ when → when ≤ localDt + 25 * 3600 * second →
        isOutOfWindow loads sub plan when = .ok false) ∧
    (secondsUntilWindowEnd loads sub plan localDt = .ok (some 0) ↔
      isOutOfWindow loads sub plan localDt = .ok true) :=
  ⟨fun _ h hpos => secondsUntilWindowEnd_pos h hpos hsecond,
    fun h _ hfrom hto => secondsUntilWindowEnd_none h hfrom hto, secondsUntilWindowEnd_zero_iff⟩

theorem secondsUntilWindowEnd_exact_half_past_three :
    let sub : Subscriber := { username := "nour" }
    let plan : AccessPlan := { id := 1, offerHoursTo := "04:00" }
    let halfPastThree : ℤ := 3 * 3600 * second + 1800 * second
    secondsUntilWindowEnd (fun _ => none) sub plan halfPastThree = .ok (some 1800) ∧
      isOutOfWindow (fun _ => none) sub plan (halfPastThree + 1800 * second) = .ok true := by
  intro sub plan halfPastThree
  have hanswer : secondsUntilWindowEnd (fun _ => none) sub plan halfPastThree =
      .ok (some 1800) := by
    decide
  exact ⟨hanswer, ((secondsUntilWindowEnd_exact (fun _ => none) sub plan halfPastThree
    (by decide)).1 1800 hanswer (by decide)).2⟩

end

end RadiusModule.ScheduleWindow
