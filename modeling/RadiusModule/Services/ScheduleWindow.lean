import RadiusModule.Core.AccessSchedule
import RadiusModule.Core.Types

/-!
# The effective window

A subscriber may be online while the schedule dimension and the offer hours
both allow it. Within the first, the subscriber's own schedule stands in for
the plan's. `loads` is the JSON reader.
-/

namespace RadiusModule.ScheduleWindow
open Library PyText AccessSchedule

variable (loads : String → Option Json)

def windowsFromDays (codes : List String) : List Window :=
  if codes.isEmpty then [] else [⟨codes, "", ""⟩]

def knownCodes (codes : List String) : List String := inOrder (dayItems codes)

def restrictingDays (plan : AccessPlan) : List String :=
  let codes := knownCodes plan.allowedDays
  if codes = days then [] else codes

def scheduleTextWindows (text : String) : Option (List Window) :=
  let raw := strip text
  if raw = "" then none
  else match parse loads raw with
    | .ok (w :: ws) => some (w :: ws)
    | _ => none

def subscriberScheduleWindows (sub : Subscriber) : Option (List Window) :=
  match scheduleTextWindows loads sub.connectionSchedule with
  | some ws => some ws
  | none =>
    let days := strip sub.workingDays
    let codes := knownCodes (split days ',')
    if days ≠ "" && !codes.isEmpty then some (windowsFromDays codes) else none

def planScheduleWindows : Option AccessPlan → Option (List Window)
  | none => none
  | some plan =>
    match scheduleTextWindows loads plan.connectionSchedule with
    | some ws => some ws
    | none =>
      let days := restrictingDays plan
      if days.isEmpty then none else some (windowsFromDays days)

def scheduleDimWindows (sub : Subscriber) (plan : Option AccessPlan) : Option (List Window) :=
  match subscriberScheduleWindows loads sub with
  | some own => some own
  | none => planScheduleWindows loads plan

def orElse (a b : String) : String := if a ≠ "" then a else b

def effectivePlanHours (plan : AccessPlan) : String × String :=
  (orElse (strip plan.offerHoursFrom) (strip plan.allowedHoursFrom),
    orElse (strip plan.offerHoursTo) (strip plan.allowedHoursTo))

def offerWindows : Option AccessPlan → Option (List Window)
  | none => none
  | some plan =>
    let (f, t) := effectivePlanHours plan
    if f = "" && t = "" then none else some [⟨[], f, t⟩]

def dimAllows (windows : Option (List Window)) (when : ℤ) : Except ScheduleError Bool :=
  match windows with
  | none => .ok true
  | some ws => windowsAllow ws when

def isOutOfWindow (sub : Subscriber) (plan : Option AccessPlan) (localDt : ℤ) :
    Except ScheduleError Bool :=
  let sd := scheduleDimWindows loads sub plan
  let od := offerWindows plan
  if sd.isNone && od.isNone then .ok false
  else do
    if ← dimAllows sd localDt then return !(← dimAllows od localDt)
    return true

def minuteLength : ℤ := 60 * second

def scanHorizonMin : ℕ := 25 * 60

/-- The first of `n` minutes from the `i`-th after `floor` on that is not allowed. -/
def scanEnd (allowed : ℤ → Except ScheduleError Bool) (floor base : ℤ) :
    ℕ → ℤ → Except ScheduleError (Option ℤ)
  | 0, _ => .ok none
  | n + 1, i => do
    let cand := floor + i * minuteLength
    if ← allowed cand then scanEnd allowed floor base n (i + 1)
    else return some (max 1 ((cand - base) / second))

def secondsUntilWindowEnd (sub : Subscriber) (plan : Option AccessPlan) (localDt : ℤ) :
    Except ScheduleError (Option ℤ) :=
  let sd := scheduleDimWindows loads sub plan
  let od := offerWindows plan
  if sd.isNone && od.isNone then .ok none
  else do
    let allowed (dt : ℤ) : Except ScheduleError Bool := do
      if ← dimAllows sd dt then dimAllows od dt else return false
    if ← allowed localDt then
      scanEnd allowed (localDt / minuteLength * minuteLength) localDt scanHorizonMin 1
    else return some 0

variable {loads}

theorem windowsFromDays_readable (codes : List String) :
    ∀ w ∈ windowsFromDays codes, w.Readable := by
  intro w hw
  simp only [windowsFromDays] at hw
  split_ifs at hw
  · simp at hw
  · obtain rfl := List.mem_singleton.mp hw
    exact ⟨⟨none, rfl⟩, none, rfl⟩

theorem scheduleTextWindows_readable {text : String} {ws : List Window}
    (h : scheduleTextWindows loads text = some ws) : ∀ w ∈ ws, w.Readable := by
  simp only [scheduleTextWindows] at h
  split_ifs at h
  cases hparse : parse loads (strip text) with
  | error e => simp [hparse] at h
  | ok parsed =>
    cases parsed with
    | nil => simp [hparse] at h
    | cons v vs =>
      obtain rfl : v :: vs = ws := by simpa [hparse] using h
      exact parse_readable hparse

theorem subscriberScheduleWindows_readable {sub : Subscriber} {ws : List Window}
    (h : subscriberScheduleWindows loads sub = some ws) : ∀ w ∈ ws, w.Readable := by
  simp only [subscriberScheduleWindows] at h
  cases htext : scheduleTextWindows loads sub.connectionSchedule with
  | some vs =>
    obtain rfl : vs = ws := by simpa [htext] using h
    exact scheduleTextWindows_readable htext
  | none =>
    simp only [htext] at h
    split_ifs at h
    obtain rfl := Option.some.inj h
    exact windowsFromDays_readable _

theorem planScheduleWindows_readable {plan : Option AccessPlan} {ws : List Window}
    (h : planScheduleWindows loads plan = some ws) : ∀ w ∈ ws, w.Readable := by
  cases plan with
  | none => cases h
  | some plan =>
    simp only [planScheduleWindows] at h
    cases htext : scheduleTextWindows loads plan.connectionSchedule with
    | some vs =>
      obtain rfl : vs = ws := by simpa [htext] using h
      exact scheduleTextWindows_readable htext
    | none =>
      simp only [htext] at h
      split_ifs at h
      obtain rfl := Option.some.inj h
      exact windowsFromDays_readable _

theorem dimAllows_scheduleDim (loads : String → Option Json) (sub : Subscriber)
    (plan : Option AccessPlan) (when : ℤ) :
    ∃ b, dimAllows (scheduleDimWindows loads sub plan) when = .ok b := by
  cases hdim : scheduleDimWindows loads sub plan with
  | none => exact ⟨true, rfl⟩
  | some ws =>
    refine windowsAllow_of_readable (fun w hw => ?_) when
    simp only [scheduleDimWindows] at hdim
    cases hown : subscriberScheduleWindows loads sub with
    | some own =>
      obtain rfl : own = ws := by simpa [hown] using hdim
      exact subscriberScheduleWindows_readable hown w hw
    | none => exact planScheduleWindows_readable (by simpa [hown] using hdim) w hw

theorem isOutOfWindow_iff {sub : Subscriber} {plan : Option AccessPlan} {localDt : ℤ} :
    isOutOfWindow loads sub plan localDt = .ok true ↔
      dimAllows (scheduleDimWindows loads sub plan) localDt = .ok false ∨
        dimAllows (offerWindows plan) localDt = .ok false := by
  obtain ⟨b, hb⟩ := dimAllows_scheduleDim loads sub plan localDt
  simp only [isOutOfWindow]
  split_ifs with hnone
  · obtain ⟨hsd, hod⟩ := Bool.and_eq_true_iff.mp hnone
    simp [Option.isNone_iff_eq_none.mp hsd, Option.isNone_iff_eq_none.mp hod, dimAllows]
  · cases b with
    | false => simp [hb, bind, Except.bind, pure, Except.pure]
    | true =>
      cases dimAllows (offerWindows plan) localDt <;>
        simp [hb, bind, Except.bind, pure, Except.pure]

end RadiusModule.ScheduleWindow
