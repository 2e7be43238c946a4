import RadiusModule.Services.ScheduleWindow

/-!
# The schedule gate

The gate at login resolves the allowed hours a second time, with its own code
for the subscriber's schedule and the plan's days. Its answer is compared with
that of the sweep, `isOutOfWindow`.
-/

namespace RadiusModule.PolicyEngine
open Library PyText AccessSchedule ScheduleWindow

def messages : List (String × String) :=
  [("user_not_found", "اسم المستخدم غير موجود"),
    ("password_wrong", "كلمة المرور غير صحيحة"),
    ("disabled", "الحساب معطَّل — راجع الإدارة"),
    ("expired", "انتهت صلاحية الاشتراك"),
    ("outside_hours", "خارج أوقات الدوام المسموحة"),
    ("outside_days", "خارج أيام الدوام المسموحة"),
    ("outside_schedule", "خارج أوقات/أيام الدوام المسموحة لهذا الحساب"),
    ("out_of_window", "خارج وقت السماح"),
    ("quota_exhausted", "نفدت الكوتا — يلزم تجديد"),
    ("card_time_exhausted", "انتهى رصيد وقت الاستخدام لهذه البطاقة"),
    ("time_total_exhausted", "انتهى إجمالي وقت الاتصال المسموح لهذا الحساب"),
    ("time_daily_exhausted", "انتهى وقت الاتصال المسموح لهذا اليوم — حاول غدًا"),
    ("mac_mismatch", "هذا الجهاز غير مصرَّح بالدخول لهذا الحساب"),
    ("random_mac_blocked", "هذا الجهاز يستخدم عنوان MAC عشوائي/خاص — أوقف «العنوان الخاص» في " ++
      "إعدادات الواي فاي ثم أعد المحاولة"),
    ("concurrent_limit", "بلغت الحد الأقصى من الجلسات المسموحة لهذا الحساب"),
    ("access_suspended", "تسجيل الدخول معلّق مؤقتاً — راجع الإدارة"),
    ("access_blocked", "الدخول محظور حاليًا — راجع الإدارة"),
    ("mac_clone_detected", "تنبيه أمني: تم رصد محاولة دخول من جهاز مختلف بنفس عنوان MAC — " ++
      "الدخول مرفوض"),
    ("stepup_required", "هذا الجهاز جديد — أعد كتابة كلمة المرور للتأكيد"),
    ("allow_mode_unknown_device", "هذا الجهاز غير مُسجَّل في قائمة الأجهزة المسموح بها — " ++
      "راجع الإدارة"),
    ("allow_mode_at_capacity", "تم الوصول للحدّ الأقصى للأجهزة المربوطة بهذا الحساب — " ++
      "تواصل مع الإدارة"),
    ("allow_mode_bind_failed", "تعذّر ربط هذا الجهاز — تواصل مع الإدارة"),
    ("provider_active_cap", "تم بلوغ الحدّ الأقصى للمتصلين المتزامنين لباقتك — " ++
      "انتظر انتهاء جلسة أو رقّ باقتك"),
    ("ok_welcome", "أهلًا بك"),
    ("ok_expires_soon", "اشتراكك ينتهي قريبًا — جدّد قبل الانقطاع"),
    ("ok_card_time_left", "أهلًا بك — الوقت المتبقّي في بطاقتك:")]

def message (reason : String) : String := (messages.lookup reason).getD "غير مصرَّح"

def reject (reason : String) (extraMessage : String := "") : AuthDecision :=
  ⟨false, reason, message reason ++ extraMessage⟩

variable (loads : String → Option Json)

/-- `raw and parse(raw).get("windows")` -/
def hasWindows (raw : String) : Except ScheduleError Bool :=
  if raw = "" then .ok false else return !(← parse loads raw).isEmpty

def subscriberHasSchedule (sub : Subscriber) : Bool :=
  (match hasWindows loads (strip sub.connectionSchedule) with
    | .ok has => has
    | .error _ => false) ||
    strip sub.workingDays ≠ ""

def checkSubscriberSchedule (sub : Subscriber) (localDt : ℤ) : Option AuthDecision :=
  let raw := strip sub.connectionSchedule
  let attempt : Except ScheduleError (Option AuthDecision) := do
    if ← hasWindows loads raw then
      if ← isAllowed loads raw localDt then return none
      return some (reject "outside_schedule")
    let days := strip sub.workingDays
    let allowed := dayItems (split days ',')
    if days ≠ "" && !allowed.isEmpty && !allowed.contains (weekdayCode localDt) then
      return some (reject "outside_days")
    return none
  match attempt with
  | .ok decision => decision
  | .error _ => none

def checkDays (plan : AccessPlan) (now : ℤ) : Option AuthDecision :=
  if plan.allowedDays.isEmpty || plan.allowedDays.contains (weekdayCode now) then none
  else some (reject "outside_days")

def checkPlanScheduleDays (plan : Option AccessPlan) (localDt : ℤ) : Option AuthDecision :=
  match plan with
  | none => none
  | some plan =>
    let raw := strip plan.connectionSchedule
    let attempt : Except ScheduleError (Option (Option AuthDecision)) := do
      if ← hasWindows loads raw then
        if ← isAllowed loads raw localDt then return some none
        return some (some (reject "outside_schedule"))
      return none
    match attempt with
    | .ok (some decision) => decision
    | _ => checkDays plan localDt

def checkScheduleDimension (sub : Subscriber) (plan : Option AccessPlan) (localDt : ℤ) :
    Option AuthDecision :=
  if subscriberHasSchedule loads sub then checkSubscriberSchedule loads sub localDt
  else checkPlanScheduleDays loads plan localDt

def offerRejection (plan : AccessPlan) : AuthDecision :=
  let hours := effectivePlanHours plan
  reject "out_of_window"
    (" (" ++ orElse hours.1 "00:00" ++ "-" ++ orElse hours.2 "24:00" ++ ")")

def checkOfferHours (plan : Option AccessPlan) (nowLocal : ℤ) :
    Except ScheduleError (Option AuthDecision) :=
  match plan with
  | none => .ok none
  | some plan =>
    match offerWindows (some plan) with
    | some (w :: _) =>
      (isAllowedWindow w nowLocal).map fun allowed =>
        if allowed then none else some (offerRejection plan)
    | _ => .ok none

def checkSchedule (sub : Subscriber) (plan : Option AccessPlan) (localDt : ℤ) :
    Except ScheduleError (Option AuthDecision) :=
  match checkScheduleDimension loads sub plan localDt with
  | some bad => .ok (some bad)
  | none => checkOfferHours plan localDt

def failed {α : Type} : Except ScheduleError α → Bool
  | .ok _ => false
  | .error _ => true

def malformed (text : String) : Bool := failed (hasWindows loads (strip text))

def OfferCloses (plan : Option AccessPlan) (localDt : ℤ) : Prop :=
  dimAllows (offerWindows plan) localDt = .ok false

def PlanCloses (plan : Option AccessPlan) (localDt : ℤ) : Prop :=
  dimAllows (planScheduleWindows loads plan) localDt = .ok false

def DaysExclude (codes : List String) (localDt : ℤ) : Prop :=
  codes ≠ [] ∧ weekdayCode localDt ∉ codes

def PlanDaysRead (plan : Option AccessPlan) (localDt : ℤ) : Prop :=
  ∀ p ∈ plan, scheduleTextWindows loads p.connectionSchedule = none →
    (DaysExclude p.allowedDays localDt ↔ DaysExclude (knownCodes p.allowedDays) localDt)

def WorkingDaysRead (sub : Subscriber) (plan : Option AccessPlan) (localDt : ℤ) : Prop :=
  let named := split (strip sub.workingDays) ','
  if malformed loads sub.connectionSchedule then
    ¬DaysExclude (knownCodes named) localDt ∧ (knownCodes named = [] → ¬PlanCloses loads plan localDt)
  else knownCodes named = [] → (dayItems named ≠ [] ↔ PlanCloses loads plan localDt)

def OneWindow (sub : Subscriber) (plan : Option AccessPlan) (localDt : ℤ) : Prop :=
  OfferCloses plan localDt ∨
    (scheduleTextWindows loads sub.connectionSchedule = none →
      if strip sub.workingDays = "" then PlanDaysRead loads plan localDt
      else WorkingDaysRead loads sub plan localDt)

variable {loads}

theorem scheduleText_cases (loads : String → Option Json) (text : String) :
    (∃ ws, scheduleTextWindows loads text = some ws ∧ hasWindows loads (strip text) = .ok true ∧
      ∀ t, isAllowed loads (strip text) t = windowsAllow ws t ∧ ∃ b, windowsAllow ws t = .ok b) ∨
    scheduleTextWindows loads text = none ∧ (hasWindows loads (strip text) = .ok false ∨
      ∃ e, hasWindows loads (strip text) = .error e) := by
  by_cases hraw : strip text = ""
  · exact Or.inr ⟨by simp [scheduleTextWindows, hraw], Or.inl (by simp [hasWindows, hraw])⟩
  cases hparse : parse loads (strip text) with
  | error e =>
    exact Or.inr ⟨by simp [scheduleTextWindows, hraw, hparse], Or.inr ⟨e, by
      simp [hasWindows, hraw, hparse, bind, Except.bind]⟩⟩
  | ok ws =>
    cases ws with
    | nil =>
      exact Or.inr ⟨by simp [scheduleTextWindows, hraw, hparse], Or.inl (by
        simp [hasWindows, hraw, hparse, bind, Except.bind, pure, Except.pure])⟩
    | cons w ws =>
      refine Or.inl ⟨w :: ws, by simp [scheduleTextWindows, hraw, hparse], by
        simp [hasWindows, hraw, hparse, bind, Except.bind, pure, Except.pure], fun t => ⟨?_, ?_⟩⟩
      · simp [isAllowed, hparse, bind, Except.bind]
      · exact windowsAllow_of_readable (parse_readable hparse) t

theorem dimAllows_days {codes : List String} (t : ℤ) :
    dimAllows (if codes.isEmpty then none else some (windowsFromDays codes)) t = .ok false ↔
      DaysExclude codes t := by
  cases hc : codes.isEmpty with
  | true =>
    have : codes = [] := by simpa using hc
    simp [dimAllows, DaysExclude, this]
  | false =>
    have hne : codes ≠ [] := by simpa using hc
    simp [dimAllows, windowsFromDays, hc, windowsAllow_days hne, DaysExclude, hne]

theorem daysExclude_restrictingDays (plan : AccessPlan) (t : ℤ) :
    DaysExclude (restrictingDays plan) t ↔ DaysExclude (knownCodes plan.allowedDays) t := by
  simp only [restrictingDays]
  split_ifs with hall
  · simp [DaysExclude, hall, weekdayCode_mem_days]
  · exact Iff.rfl

theorem checkDays_ne_none (plan : AccessPlan) (t : ℤ) :
    checkDays plan t ≠ none ↔ DaysExclude plan.allowedDays t := by
  simp only [checkDays, DaysExclude, ne_eq, ← List.isEmpty_iff]
  cases plan.allowedDays.isEmpty <;> by_cases hc : weekdayCode t ∈ plan.allowedDays <;> simp [hc]

theorem planCloses_iff {plan : AccessPlan} {t : ℤ} :
    PlanCloses loads (some plan) t ↔
      match scheduleTextWindows loads plan.connectionSchedule with
      | some ws => windowsAllow ws t = .ok false
      | none => DaysExclude (knownCodes plan.allowedDays) t := by
  simp only [PlanCloses, planScheduleWindows]
  cases scheduleTextWindows loads plan.connectionSchedule with
  | some ws => rfl
  | none => exact (dimAllows_days t).trans (daysExclude_restrictingDays plan t)

theorem checkPlanScheduleDays_ne_none {plan : AccessPlan} {t : ℤ} :
    checkPlanScheduleDays loads (some plan) t ≠ none ↔
      match scheduleTextWindows loads plan.connectionSchedule with
      | some ws => windowsAllow ws t = .ok false
      | none => DaysExclude plan.allowedDays t := by
  rcases scheduleText_cases loads plan.connectionSchedule with
    ⟨ws, hws, hhas, hallowed⟩ | ⟨hnone, hhas | ⟨e, hhas⟩⟩
  · obtain ⟨heq, b, hb⟩ := hallowed t
    cases b <;>
      simp [checkPlanScheduleDays, hws, hhas, heq, hb, bind, Except.bind, pure, Except.pure]
  · simp only [checkPlanScheduleDays, hnone, hhas, bind, Except.bind, pure, Except.pure,
      Bool.false_eq_true, if_false]
    exact checkDays_ne_none plan t
  · simp only [checkPlanScheduleDays, hnone, hhas, bind, Except.bind]
    exact checkDays_ne_none plan t

theorem planDaysRead_iff {plan : Option AccessPlan} {t : ℤ} :
    PlanDaysRead loads plan t ↔
      (checkPlanScheduleDays loads plan t ≠ none ↔ PlanCloses loads plan t) := by
  cases plan with
  | none => simp [PlanDaysRead, checkPlanScheduleDays, PlanCloses, planScheduleWindows, dimAllows]
  | some plan =>
    rw [checkPlanScheduleDays_ne_none, planCloses_iff]
    simp only [PlanDaysRead, Option.mem_some_iff, forall_eq']
    cases scheduleTextWindows loads plan.connectionSchedule <;> simp

theorem mem_knownCodes {codes : List String} {t : ℤ} :
    weekdayCode t ∈ knownCodes codes ↔ weekdayCode t ∈ dayItems codes := by
  simp [knownCodes, inOrder, weekdayCode_mem_days]

theorem dimCloses_iff {sub : Subscriber} {plan : Option AccessPlan} {t : ℤ}
    (htext : scheduleTextWindows loads sub.connectionSchedule = none)
    (hdays : strip sub.workingDays ≠ "") :
    dimAllows (scheduleDimWindows loads sub plan) t = .ok false ↔
      if knownCodes (split (strip sub.workingDays) ',') = [] then PlanCloses loads plan t
      else DaysExclude (knownCodes (split (strip sub.workingDays) ',')) t := by
  by_cases hknown : knownCodes (split (strip sub.workingDays) ',') = []
  · simp [scheduleDimWindows, subscriberScheduleWindows, htext, hknown, PlanCloses]
  · rw [if_neg hknown, ← dimAllows_days]
    simp [scheduleDimWindows, subscriberScheduleWindows, htext, hknown, hdays]

theorem checkSubscriberSchedule_ne_none {sub : Subscriber} {t : ℤ}
    (hhas : hasWindows loads (strip sub.connectionSchedule) = .ok false)
    (hdays : strip sub.workingDays ≠ "") :
    checkSubscriberSchedule loads sub t ≠ none ↔
      DaysExclude (dayItems (split (strip sub.workingDays) ',')) t := by
  simp only [checkSubscriberSchedule, hhas, bind, Except.bind, pure, Except.pure,
    Bool.false_eq_true, if_false, hdays, ne_eq, not_false_eq_true, decide_true, Bool.true_and,
    DaysExclude, ← List.isEmpty_iff]
  cases (dayItems (split (strip sub.workingDays) ',')).isEmpty <;>
    by_cases hc : weekdayCode t ∈ dayItems (split (strip sub.workingDays) ',') <;> simp [hc]

theorem dimension_iff (sub : Subscriber) (plan : Option AccessPlan) (t : ℤ) :
    (checkScheduleDimension loads sub plan t ≠ none ↔
        dimAllows (scheduleDimWindows loads sub plan) t = .ok false) ↔
      (scheduleTextWindows loads sub.connectionSchedule = none →
        if strip sub.workingDays = "" then PlanDaysRead loads plan t
        else WorkingDaysRead loads sub plan t) := by
  rcases scheduleText_cases loads sub.connectionSchedule with
    ⟨ws, hws, hhas, hallowed⟩ | ⟨hnone, hhas⟩
  · obtain ⟨heq, b, hb⟩ := hallowed t
    cases b <;>
      simp [checkScheduleDimension, subscriberHasSchedule, checkSubscriberSchedule,
        scheduleDimWindows, subscriberScheduleWindows, dimAllows, hws, hhas, heq, hb, bind,
        Except.bind, pure, Except.pure]
  simp only [hnone, true_implies]
  split_ifs with hdays
  · have hdim : scheduleDimWindows loads sub plan = planScheduleWindows loads plan := by
      simp [scheduleDimWindows, subscriberScheduleWindows, hnone, hdays]
    have hcheck : checkScheduleDimension loads sub plan t = checkPlanScheduleDays loads plan t := by
      rcases hhas with hhas | ⟨e, hhas⟩ <;>
        simp [checkScheduleDimension, subscriberHasSchedule, hhas, hdays]
    rw [hdim, hcheck, planDaysRead_iff, PlanCloses]
  have hcheck : checkScheduleDimension loads sub plan t = checkSubscriberSchedule loads sub t := by
    simp [checkScheduleDimension, subscriberHasSchedule, hdays]
  rw [hcheck, dimCloses_iff hnone hdays]
  rcases hhas with hhas | ⟨e, hhas⟩
  · rw [checkSubscriberSchedule_ne_none hhas hdays]
    simp only [WorkingDaysRead, malformed, hhas, failed, Bool.false_eq_true, if_false]
    split_ifs with hknown
    · have hout : weekdayCode t ∉ dayItems (split (strip sub.workingDays) ',') := fun h => by
        simpa [hknown] using mem_knownCodes.mpr h
      simp [DaysExclude, hout, hknown]
    · have hne : dayItems (split (strip sub.workingDays) ',') ≠ [] := fun h => hknown (by
        simp [knownCodes, h, inOrder, days])
      simp [DaysExclude, hknown, hne, mem_knownCodes]
  · have herror : checkSubscriberSchedule loads sub t = none := by
      simp [checkSubscriberSchedule, hhas, bind, Except.bind]
    simp only [WorkingDaysRead, malformed, hhas, failed, if_true, herror]
    split_ifs with hknown
    · simp [hknown, DaysExclude]
    · simp [hknown]

theorem checkSchedule_rejects_iff {sub : Subscriber} {plan : Option AccessPlan} {t : ℤ} :
    (∃ d, checkSchedule loads sub plan t = .ok (some d)) ↔
      checkScheduleDimension loads sub plan t ≠ none ∨ OfferCloses plan t := by
  simp only [checkSchedule]
  cases hdim : checkScheduleDimension loads sub plan t with
  | some bad => simp
  | none =>
    simp only [ne_eq, not_true_eq_false, false_or, OfferCloses, checkOfferHours]
    cases plan with
    | none => simp [offerWindows, dimAllows]
    | some plan =>
      simp only [offerWindows]
      split_ifs with hoff
      · simp [dimAllows]
      · simp only [dimAllows, isAllowedWindow_eq]
        generalize windowsAllow [⟨[], (effectivePlanHours plan).1,
          (effectivePlanHours plan).2⟩] t = x
        cases x with
        | error e => simp [Except.map]
        | ok b => cases b <;> simp [Except.map]

/-- The login gate rejects exactly when the sweep finds the subscriber out of window, for just
the inputs on which the two read the same window. -/
theorem rejects_iff_out_of_window_iff (sub : Subscriber) (plan : Option AccessPlan) (t : ℤ) :
    ((∃ d, checkSchedule loads sub plan t = .ok (some d)) ↔
        isOutOfWindow loads sub plan t = .ok true) ↔
      OneWindow loads sub plan t := by
  rw [checkSchedule_rejects_iff, isOutOfWindow_iff, OneWindow, ← dimension_iff]
  have hcancel : ∀ a b c : Prop, (a ∨ c ↔ b ∨ c) ↔ c ∨ (a ↔ b) := by tauto
  exact hcancel _ _ _

/-- Working days without a known day: the gate always rejects, the sweep finds no restriction. -/
theorem unknown_working_day_rejected :
    ¬((∃ d, checkSchedule (fun _ => none) { username := "u1", workingDays := "foo" } none 0 =
        .ok (some d)) ↔
      isOutOfWindow (fun _ => none) { username := "u1", workingDays := "foo" } none 0 =
        .ok true) := by
  intro h
  have hreject : checkSchedule (fun _ => none) { username := "u1", workingDays := "foo" } none 0 =
      .ok (some (reject "outside_days")) := by
    decide
  exact absurd (h.mp ⟨_, hreject⟩) (by decide)

end RadiusModule.PolicyEngine
