import RadiusModule.Core.Types
import RadiusModule.Library.Run

/-!
# Quota periods and top-ups

A top-up on the total cap is written into the quota override of the subscriber
and recorded with the override before the first and after the last top-up of
the period. A new period puts the override back to its value before the first
top-up, unless the override differs from the one the last top-up left.
-/

namespace RadiusModule.QuotaPeriod
open Library

inductive Target
  | combined
  | download
  | upload
deriving DecidableEq, Repr

inductive Window
  | daily
  | monthly
deriving DecidableEq, Repr

structure Caps where
  combined : ℤ := 0
  download : ℤ := 0
  upload : ℤ := 0
deriving DecidableEq, Repr

namespace Caps

def get (c : Caps) : Target → ℤ
  | .combined => c.combined
  | .download => c.download
  | .upload => c.upload

def add (c : Caps) (d : Target) (mb : ℤ) : Caps :=
  match d with
  | .combined => { c with combined := c.combined + mb }
  | .download => { c with download := c.download + mb }
  | .upload => { c with upload := c.upload + mb }

def any (c : Caps) : Bool := c.combined ≠ 0 || c.download ≠ 0 || c.upload ≠ 0

end Caps

/-- `_override_snapshot`: the quota override of a subscriber. -/
structure Override where
  combined : ℤ := 0
  download : ℤ := 0
  upload : ℤ := 0
  enabled : Bool := false
deriving DecidableEq, Repr

structure WindowTopup where
  key : String
  added : Caps := {}
deriving DecidableEq, Repr

structure WindowTopups where
  daily : Option WindowTopup := none
  monthly : Option WindowTopup := none
deriving DecidableEq, Repr

namespace WindowTopups

def get (w : WindowTopups) : Window → Option WindowTopup
  | .daily => w.daily
  | .monthly => w.monthly

def set (w : WindowTopups) (window : Window) (cur : WindowTopup) : WindowTopups :=
  match window with
  | .daily => { w with daily := some cur }
  | .monthly => { w with monthly := some cur }

end WindowTopups

structure QuotaState where
  periodStart : Stamp := .null
  periodBaseIn : ℕ := 0
  periodBaseOut : ℕ := 0
  periodReason : String := ""
  dailyResetAt : Stamp := .null
  dailyBaseIn : ℕ := 0
  dailyBaseOut : ℕ := 0
  topupMb : ℤ := 0
  topupBefore : Option Override := none
  topupAfter : Option Override := none
  windowTopups : WindowTopups := {}
deriving DecidableEq, Repr

structure Account where
  tenantId : ℤ
  username : String
  override : Override
  state : Option QuotaState
deriving DecidableEq, Repr

def planInt (plan : Option AccessPlan) (field : AccessPlan → ℤ) : ℤ :=
  match plan with
  | none => 0
  | some p => max 0 (field p)

def planWindowCaps (plan : Option AccessPlan) : Window → Caps
  | .daily =>
    let combined := planInt plan (·.dailyCombinedQuotaMb)
    { combined := if combined ≠ 0 then combined else planInt plan (·.quotaDailyMb)
      download := planInt plan (·.dailyDownloadQuotaMb)
      upload := planInt plan (·.dailyUploadQuotaMb) }
  | .monthly =>
    let combined := planInt plan (·.monthlyCombinedQuotaMb)
    { combined := if combined ≠ 0 then combined else planInt plan (·.quotaMonthlyMb)
      download := planInt plan (·.monthlyDownloadQuotaMb)
      upload := planInt plan (·.monthlyUploadQuotaMb) }

def usernameRows (t : RadacctTable) (tenantId : ℤ) (username : String) : List Radacct :=
  t.select fun r => r.tenantId = tenantId && r.username = username

/-- `_alltime_bytes`: bytes from and to the subscriber, over all rows. -/
def alltimeBytes (t : RadacctTable) (tenantId : ℤ) (username : String) : ℕ × ℕ :=
  let rows := usernameRows t tenantId username
  ((rows.map (·.acctInputOctets)).sum, (rows.map (·.acctOutputOctets)).sum)

/-- Which cap a top-up names; `auto` is resolved to the first cap in force. -/
inductive QuotaWindow
  | auto
  | total
  | window (w : Window)
deriving DecidableEq, Repr

def noCapMessage : String :=
  "هذا المشترك بلا سقف كوتة (استهلاك غير محدود) — لا يوجد رصيد كوتة " ++
    "لتُضاف إليه. لتحديد سقف عدّل كوتة المشترك أو باقته."

def windowLabel : Window → String
  | .daily => "اليوميّة"
  | .monthly => "الشهريّة"

def perDirection (o : Override) : Bool := o.combined ≤ 0 && (0 < o.download || 0 < o.upload)

def hasTotal (o : Override) (plan : Option AccessPlan) : Bool :=
  0 < o.combined || perDirection o || 0 < (plan.map (·.quotaTotalMb)).getD 0

def resolveWindow (o : Override) (plan : Option AccessPlan) (w : QuotaWindow) :
    Option QuotaWindow :=
  match w with
  | .auto =>
    if hasTotal o plan then some .total
    else if (planWindowCaps plan .monthly).any then some (.window .monthly)
    else if (planWindowCaps plan .daily).any then some (.window .daily)
    else none
  | .total => if hasTotal o plan then some .total else none
  | .window w => if (planWindowCaps plan w).any then some (.window w) else none

def totalTopup (o : Override) (plan : Option AccessPlan) (target : Target) (mb : ℤ) :
    Except String Override :=
  if perDirection o then
    match target with
    | .download => .ok { o with enabled := true, download := o.download + mb }
    | .upload => .ok { o with enabled := true, upload := o.upload + mb }
    | .combined => .ok { o with enabled := true, combined := o.download + o.upload + mb }
  else if target ≠ .combined then
    .error ("كوتة هذا المشترك إجماليّة (تنزيل + رفع معًا) — أضِف إلى " ++
      "«الكوتة الإجماليّة» لا إلى اتجاهٍ واحد.")
  else
    let baseTotal := if 0 < o.combined then o.combined else (plan.map (·.quotaTotalMb)).getD 0
    .ok { o with enabled := true, combined := baseTotal + mb }

def recordTotalTopup (before after : Override) (mb : ℤ) (s : Option QuotaState) : QuotaState :=
  let state := s.getD {}
  { state with
    topupMb := state.topupMb + mb
    topupAfter := some after
    topupBefore := some (state.topupBefore.getD before) }

def recordWindowTopup (key : String) (window : Window) (target : Target) (mb : ℤ)
    (s : Option QuotaState) : QuotaState :=
  let state := s.getD {}
  let cur := match state.windowTopups.get window with
    | some cur => if cur.key = key then cur else { key := key }
    | none => { key := key }
  { state with
    windowTopups := state.windowTopups.set window { cur with added := cur.added.add target mb } }

/-- `add_quota` without its ledger side. `keys` holds the current day and month of the tenant. -/
def addQuota (keys : Window → String) (plan : Option AccessPlan) (mb : ℤ) (target : Target)
    (window : QuotaWindow) (a : Account) : Except String Account :=
  if mb ≤ 0 then .error "حجم الكوتة يجب أن يكون أكبر من صفر."
  else match resolveWindow a.override plan window with
    | none | some .auto => .error noCapMessage
    | some .total =>
      (totalTopup a.override plan target mb).map fun after =>
        { a with
          override := after
          state := some (recordTotalTopup a.override after mb a.state) }
    | some (.window w) =>
      if (planWindowCaps plan w).get target ≠ 0 then
        .ok { a with state := some (recordWindowTopup (keys w) w target mb a.state) }
      else if target = .combined then
        .error ("كوتة هذا المشترك " ++ windowLabel w ++
          " بالاتجاه (تنزيل/رفع) — اختر «تنزيل» أو «رفع».")
      else
        .error ("كوتة هذا المشترك " ++ windowLabel w ++ " لا تشمل هذا الاتجاه — أضِف إلى " ++
          "«الكوتة الإجماليّة» أو الاتجاه المحدَّد في الباقة.")

/-- `topup_before` and `topup_after`, absent without a state row. -/
def Account.pending (a : Account) : Option Override × Option Override :=
  ((a.state.getD {}).topupBefore, (a.state.getD {}).topupAfter)

def restored (a : Account) : Option Override :=
  match a.pending with
  | (some before, some after) => if a.override = after then some before else none
  | _ => none

def startNewPeriod (t : RadacctTable) (now : ℤ) (reason : String) (a : Account) : Account :=
  let base := alltimeBytes t a.tenantId a.username
  { a with
    override := (restored a).getD a.override
    state := some { a.state.getD {} with
      periodStart := .instant (floorSecond now)
      periodBaseIn := base.1
      periodBaseOut := base.2
      periodReason := String.ofList (reason.toList.take 40)
      dailyResetAt := .instant (floorSecond now)
      dailyBaseIn := base.1
      dailyBaseOut := base.2
      topupMb := 0
      topupBefore := none
      topupAfter := none
      windowTopups := {} } }

def resetDaily (t : RadacctTable) (now : ℤ) (a : Account) : Account :=
  let base := alltimeBytes t a.tenantId a.username
  { a with
    state := some { a.state.getD {} with
      dailyResetAt := .instant (floorSecond now)
      dailyBaseIn := base.1
      dailyBaseOut := base.2 } }

inductive QuotaEvent
  | topup (keys : Window → String) (plan : Option AccessPlan) (mb : ℤ) (target : Target)
      (window : QuotaWindow)
  | edit (o : Override)

def QuotaEvent.apply (a : Account) : QuotaEvent → Account
  | .topup keys plan mb target window =>
    match addQuota keys plan mb target window a with
    | .ok a' => a'
    | .error _ => a
  | .edit o => { a with override := o }

def QuotaEvent.topup? (o : Override) : QuotaEvent → Option Override
  | .topup _ plan mb target window =>
    if mb ≤ 0 then none
    else match resolveWindow o plan window with
      | some .total => (totalTopup o plan target mb).toOption
      | _ => none
  | .edit _ => none

/-- What a period did to the override: the last value set by hand, and the value before the
first and after the last top-up. -/
structure History where
  current : Override
  manual : Override
  topups : Option (Override × Override) := none
deriving DecidableEq, Repr

def History.step (h : History) (e : QuotaEvent) : History :=
  match e with
  | .edit o => { h with current := o, manual := o }
  | .topup .. =>
    match e.topup? h.current with
    | some after =>
      { h with current := after, topups := some ((h.topups.map Prod.fst).getD h.current, after) }
    | none => h

def history (o : Override) (events : List QuotaEvent) : History :=
  Run.run History.step { current := o, manual := o } events

def History.Recoverable (h : History) : Prop :=
  match h.topups with
  | none => True
  | some (before, after) => h.current ≠ after ∨ h.manual = before

instance (h : History) : Decidable h.Recoverable :=
  match ht : h.topups with
  | none => .isTrue (by simp [History.Recoverable, ht])
  | some (before, after) =>
    decidable_of_iff (h.current ≠ after ∨ h.manual = before) (by simp [History.Recoverable, ht])

def Records (a : Account) (h : History) : Prop :=
  a.override = h.current ∧ a.pending = (h.topups.map Prod.fst, h.topups.map Prod.snd)

theorem apply_of_topup {a : Account} {e : QuotaEvent} {after : Override}
    (h : e.topup? a.override = some after) :
    (e.apply a).override = after ∧
      (e.apply a).pending = (some (a.pending.1.getD a.override), some after) := by
  cases e with
  | edit o => cases h
  | topup keys plan mb target window =>
    simp only [QuotaEvent.topup?] at h
    by_cases hmb : mb ≤ 0
    · simp [hmb] at h
    rw [if_neg hmb] at h
    simp only [QuotaEvent.apply, addQuota, if_neg hmb]
    cases hw : resolveWindow a.override plan window with
    | none => simp [hw] at h
    | some w =>
      cases w with
      | auto => simp [hw] at h
      | window w => simp [hw] at h
      | total =>
        simp only [hw] at h ⊢
        cases ht : totalTopup a.override plan target mb with
        | error e => simp [ht, Except.toOption] at h
        | ok o =>
          have ho : o = after := by simpa [ht, Except.toOption] using h
          simp [Except.map, Account.pending, recordTotalTopup, ho]

theorem apply_of_no_topup {a : Account} {keys : Window → String} {plan : Option AccessPlan}
    {mb : ℤ} {target : Target} {window : QuotaWindow}
    (h : (QuotaEvent.topup keys plan mb target window).topup? a.override = none) :
    ((QuotaEvent.topup keys plan mb target window).apply a).override = a.override ∧
      ((QuotaEvent.topup keys plan mb target window).apply a).pending = a.pending := by
  simp only [QuotaEvent.topup?] at h
  simp only [QuotaEvent.apply, addQuota]
  by_cases hmb : mb ≤ 0
  · simp [hmb]
  rw [if_neg hmb] at h
  simp only [if_neg hmb]
  cases hw : resolveWindow a.override plan window with
  | none => exact ⟨rfl, rfl⟩
  | some w =>
    cases w with
    | auto => exact ⟨rfl, rfl⟩
    | total =>
      simp only [hw] at h ⊢
      cases ht : totalTopup a.override plan target mb with
      | error e => exact ⟨rfl, rfl⟩
      | ok o => simp [ht, Except.toOption] at h
    | window w =>
      simp only
      split_ifs <;> exact ⟨rfl, rfl⟩

theorem records_step {a : Account} {h : History} (hr : Records a h) (e : QuotaEvent) :
    Records (e.apply a) (h.step e) := by
  obtain ⟨hcur, hpend⟩ := hr
  cases e with
  | edit o => exact ⟨rfl, hpend⟩
  | topup keys plan mb target window =>
    simp only [History.step]
    cases ht : (QuotaEvent.topup keys plan mb target window).topup? h.current with
    | none =>
      obtain ⟨ho, hp⟩ := apply_of_no_topup (hcur ▸ ht)
      exact ⟨ho.trans hcur, hp.trans hpend⟩
    | some after =>
      obtain ⟨ho, hp⟩ := apply_of_topup (hcur ▸ ht)
      exact ⟨ho, by simp [hp, hpend, hcur]⟩

theorem records_foldl {a : Account} {h : History} (hr : Records a h) (events : List QuotaEvent) :
    Records (Run.run QuotaEvent.apply a events) (Run.run History.step h events) := by
  induction events generalizing a h with
  | nil => exact hr
  | cons e events ih => exact ih (records_step hr e)

theorem records_run (a : Account) (hclean : a.pending = (none, none)) (events : List QuotaEvent) :
    Records (Run.run QuotaEvent.apply a events) (history a.override events) :=
  records_foldl (h := { current := a.override, manual := a.override }) ⟨rfl, hclean⟩ events

def History.Settled (h : History) : Prop :=
  h.topups.map Prod.snd ≠ some h.current → h.current = h.manual

theorem settled_step {h : History} (hs : h.Settled) (e : QuotaEvent) : (h.step e).Settled := by
  cases e with
  | edit o => exact fun _ => rfl
  | topup keys plan mb target window =>
    simp only [History.step]
    cases ht : (QuotaEvent.topup keys plan mb target window).topup? h.current with
    | none => exact hs
    | some after => exact fun hne => absurd rfl hne

theorem settled_history (o : Override) (events : List QuotaEvent) :
    (history o events).Settled :=
  Run.run_always (I := History.Settled) (fun _ e hs => settled_step hs e) (fun _ => rfl)

theorem restored_getD {a : Account} {h : History} (hr : Records a h) :
    (restored a).getD a.override =
      match h.topups with
      | some (before, after) => if h.current = after then before else h.current
      | none => h.current := by
  obtain ⟨hcur, hpend⟩ := hr
  rw [restored, hpend, hcur]
  cases h.topups with
  | none => rfl
  | some p =>
    simp only [Option.map_some]
    split_ifs <;> rfl

theorem startNewPeriod_pending (t : RadacctTable) (now : ℤ) (reason : String) (a : Account) :
    (startNewPeriod t now reason a).pending = (none, none) := rfl

/-- From an account without pending top-ups, the new period gives back the last value set by
hand exactly when the history of the period is recoverable. -/
theorem new_period_restores_iff (t : RadacctTable) (now : ℤ) (reason : String) (a : Account)
    (hclean : a.pending = (none, none)) (events : List QuotaEvent) :
    (startNewPeriod t now reason (Run.run QuotaEvent.apply a events)).override =
        (history a.override events).manual ↔
      (history a.override events).Recoverable := by
  have hset := settled_history a.override events
  simp only [startNewPeriod, restored_getD (records_run a hclean events)]
  generalize history a.override events = h at hset ⊢
  cases ht : h.topups with
  | none => simpa [History.Recoverable, ht] using hset (by simp [ht])
  | some p =>
    obtain ⟨before, after⟩ := p
    by_cases hc : h.current = after
    · simp [History.Recoverable, ht, hc, eq_comm]
    · have hm : h.current = h.manual := hset (by simpa [ht] using Ne.symm hc)
      simp only [History.Recoverable, ht, if_neg hc]
      exact iff_of_true hm (Or.inl hc)

theorem new_period_restores_two_topups :
    (startNewPeriod .empty 0 "renewal"
      (Run.run QuotaEvent.apply ⟨1, "u1", { combined := 1000, enabled := true }, none⟩
        [.topup (fun _ => "") none 100 .combined .auto,
          .topup (fun _ => "") none 50 .combined .total])).override =
      (history { combined := 1000, enabled := true }
        [.topup (fun _ => "") none 100 .combined .auto,
          .topup (fun _ => "") none 50 .combined .total]).manual :=
  (new_period_restores_iff .empty 0 "renewal" ⟨1, "u1", { combined := 1000, enabled := true }, none⟩
    rfl _).mpr (by decide)

/-- A value set by hand between two top-ups is lost: the period ends with what came before the
first of them. -/
theorem manual_value_between_topups_lost :
    (startNewPeriod .empty 0 "renewal"
      (Run.run QuotaEvent.apply ⟨1, "u1", { combined := 1000, enabled := true }, none⟩
        [.topup (fun _ => "") none 100 .combined .auto,
          .edit { combined := 500, enabled := true },
          .topup (fun _ => "") none 50 .combined .auto])).override ≠
      (history { combined := 1000, enabled := true }
        [.topup (fun _ => "") none 100 .combined .auto,
          .edit { combined := 500, enabled := true },
          .topup (fun _ => "") none 50 .combined .auto]).manual := by
  decide

end RadiusModule.QuotaPeriod
