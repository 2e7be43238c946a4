import RadiusModule.Services.PolicyEngine.ReplyRate
import RadiusModule.Services.QuotaWindows
import Mathlib.Algebra.Order.BigOperators.Group.List

/-!
# The quota of a login

The total quota is compared with the octets that the account carries, or else
with the usage of its period; the daily and monthly quotas of the plan with
the usage of their windows. Fewer sessions never exhaust a quota that more
sessions leave open.
-/

namespace RadiusModule.PolicyEngine
open Library QuotaPeriod QuotaWindows

def mib : ℤ := 1048576

def effectiveQuotaMb (sub : Subscriber) (plan : Option AccessPlan) : ℤ :=
  let own :=
    if sub.quotaLimitEnabled || sub.combinedQuotaMb ≠ 0 || sub.downloadQuotaMb ≠ 0 ||
        sub.uploadQuotaMb ≠ 0 then
      if sub.combinedQuotaMb ≠ 0 then sub.combinedQuotaMb
      else sub.downloadQuotaMb + sub.uploadQuotaMb
    else 0
  if 0 < own then own else (plan.map AccessPlan.quotaTotalMb).getD 0

/-- What the usage of an account is read with: the tenant's calendar, the instant, the marks of
the sessions, and the row of `subscriber_quota_state` under the account's id. -/
structure QuotaReads where
  cal : Calendar
  now : ℤ
  marks : QuotaWindows.Marks
  state : Option QuotaState

variable (q : QuotaReads) (t : RadacctTable) (sub : Subscriber) (plan : Option AccessPlan)

def QuotaReads.usage (windows : Bool) : Usage :=
  QuotaWindows.usage q.cal q.now t q.marks
    ⟨sub.tenantId, sub.username, {}, q.state⟩ windows

def subscriberUsedBytes : ℕ :=
  let carried := sub.usedBytesIn + sub.usedBytesOut
  if 0 < carried then carried
  else
    let period := (q.usage t sub false).period
    period .input + period .output

/-- `window_caps`: the plan's caps and what has been added for this day or month. -/
def windowCaps (w : Window) : Caps :=
  let caps := planWindowCaps plan w
  match (q.state.getD {}).windowTopups.get w with
  | none => caps
  | some cur =>
    if cur.key = q.cal.key w q.now then
      [Target.combined, .download, .upload].foldl
        (fun c d => if c.get d ≠ 0 then c.add d (cur.added.get d) else c) caps
    else caps

def reaches (c : Caps) (used : Direction → ℕ) : Bool :=
  (c.combined ≠ 0 && c.combined * mib ≤ used .input + used .output) ||
    (c.download ≠ 0 && c.download * mib ≤ used .output) ||
    (c.upload ≠ 0 && c.upload * mib ≤ used .input)

def windowExhaustion : Option Window :=
  let caps := windowCaps q plan
  if ¬((caps .daily).any || (caps .monthly).any) then none
  else [Window.monthly, .daily].find? fun w => reaches (caps w) ((q.usage t sub true).window w)

/-- `_quota_exhaustion`; without a window it is the total. -/
def quotaExhaustion : Option (Option Window) :=
  let capMb := effectiveQuotaMb sub plan
  if 0 < capMb ∧ capMb * mib ≤ subscriberUsedBytes q t sub then some none
  else (windowExhaustion q t sub plan).map some

def quotaHint : Option Window → String
  | none => ""
  | some .daily => " (الكوتة اليوميّة — تتجدّد غدًا)"
  | some .monthly => " (الكوتة الشهريّة — تتجدّد الشهر القادم)"

def checkQuota (db : Db) : Option AuthDecision :=
  match quotaExhaustion q db.radacct sub plan with
  | none => none
  | some which =>
    let mode := quotaExhaustMode db sub.tenantId sub.username
    if mode = "reduce_speed" ∨ mode = "notify" then none
    else some ⟨false, "quota_exhausted", message "quota_exhausted" ++ quotaHint which⟩

theorem sum_map_sublist_le {α : Type*} {l l' : List α} (h : l.Sublist l') (f : α → ℕ) :
    (l.map f).sum ≤ (l'.map f).sum :=
  (h.map f).sum_le_sum fun _ _ => Nat.zero_le _

theorem bytesWhere_le {rows rows' : List Radacct} (h : rows.Sublist rows') (p : Radacct → Bool)
    (d : Direction) : bytesWhere rows p d ≤ bytesWhere rows' p d :=
  sum_map_sublist_le (h.filter p) _

theorem since_le {rows rows' : List Radacct} (h : rows.Sublist rows') (reset : ℤ)
    (base : Direction → ℕ) (d : Direction) : since rows reset base d ≤ since rows' reset base d :=
  Nat.add_le_add (bytesWhere_le h _ d) (Nat.sub_le_sub_right (bytesWhere_le h _ d) _)

theorem usernameRows_delete (p : Radacct → Bool) (tenantId : ℤ) (username : String) :
    (usernameRows (t.delete p) tenantId username).Sublist (usernameRows t tenantId username) := by
  rw [usernameRows, Table.select_delete]
  exact List.filter_sublist

theorem straddleUsage_le (cal : Calendar) (now : ℤ) (p : Radacct → Bool)
    (marks : QuotaWindows.Marks) (a : Account) (w : Window) (d : Direction) :
    straddleUsage cal now (t.delete p) marks a w d ≤ straddleUsage cal now t marks a w d :=
  sum_map_sublist_le ((usernameRows_delete t p a.tenantId a.username).filter _) _

theorem period_le (cal : Calendar) (now : ℤ) (p : Radacct → Bool)
    (marks : QuotaWindows.Marks) (a : Account) (windows : Bool) (d : Direction) :
    (QuotaWindows.usage cal now (t.delete p) marks a windows).period d ≤
      (QuotaWindows.usage cal now t marks a windows).period d := by
  have hrows := usernameRows_delete t p a.tenantId a.username
  simp only [QuotaWindows.usage]
  cases norm (a.state.getD {}).periodStart with
  | none => exact bytesWhere_le hrows _ d
  | some start => exact since_le hrows start _ d

theorem window_le (cal : Calendar) (now : ℤ) (p : Radacct → Bool)
    (marks : QuotaWindows.Marks) (a : Account) (windows : Bool) (w : Window) (d : Direction) :
    (QuotaWindows.usage cal now (t.delete p) marks a windows).window w d ≤
      (QuotaWindows.usage cal now t marks a windows).window w d := by
  have hrows := usernameRows_delete t p a.tenantId a.username
  have hperiod := period_le t cal now p marks a windows d
  have hcalendar : ∀ w, bytesWhere (usernameRows (t.delete p) a.tenantId a.username)
      (fun r => r.acctStartTime.notBefore (cal.start w now)) d +
        (if (windows && readsStraddles cal now (a.state.getD {})) = true then
          straddleUsage cal now (t.delete p) marks a w d else 0) ≤
      bytesWhere (usernameRows t a.tenantId a.username)
        (fun r => r.acctStartTime.notBefore (cal.start w now)) d +
        (if (windows && readsStraddles cal now (a.state.getD {})) = true then
          straddleUsage cal now t marks a w d else 0) := by
    intro w
    refine Nat.add_le_add (bytesWhere_le hrows _ d) ?_
    split_ifs
    · exact straddleUsage_le t cal now p marks a w d
    · exact le_rfl
  simp only [QuotaWindows.usage] at hperiod ⊢
  cases hreset : resetOf cal now (a.state.getD {}) w with
  | none => exact hcalendar w
  | some r =>
    cases w with
    | daily => exact since_le hrows r _ d
    | monthly => exact hperiod

theorem reaches_mono (c : Caps) {used used' : Direction → ℕ} (h : ∀ d, used d ≤ used' d)
    (hreaches : reaches c used = true) : reaches c used' = true := by
  have hin := h .input
  have hout := h .output
  simp only [reaches, Bool.or_eq_true, Bool.and_eq_true, decide_eq_true_eq] at hreaches ⊢
  omega

theorem windowExhaustion_isSome_iff : (windowExhaustion q t sub plan).isSome = true ↔
    ((windowCaps q plan .daily).any || (windowCaps q plan .monthly).any) = true ∧
      ∃ w, reaches (windowCaps q plan w) ((q.usage t sub true).window w) = true := by
  have hboth : (∃ w ∈ [Window.monthly, .daily],
      reaches (windowCaps q plan w) ((q.usage t sub true).window w) = true) ↔
      ∃ w, reaches (windowCaps q plan w) ((q.usage t sub true).window w) = true :=
    ⟨fun ⟨w, _, h⟩ => ⟨w, h⟩, fun ⟨w, h⟩ => ⟨w, by cases w <;> decide, h⟩⟩
  simp only [windowExhaustion]
  split_ifs with hcaps
  · rw [List.find?_isSome, hboth]
    exact (and_iff_right hcaps).symm
  · exact iff_of_false (fun h => nomatch h) fun h => hcaps h.1

theorem windowExhaustion_mono (p : Radacct → Bool)
    (h : (windowExhaustion q (t.delete p) sub plan).isSome = true) :
    (windowExhaustion q t sub plan).isSome = true := by
  rw [windowExhaustion_isSome_iff] at h ⊢
  obtain ⟨hcaps, w, hw⟩ := h
  exact ⟨hcaps, w, reaches_mono _ (fun d => window_le t q.cal q.now p q.marks _ true w d) hw⟩

theorem period_le_all (cal : Calendar) (now : ℤ) (marks : QuotaWindows.Marks) (a : Account)
    (windows : Bool) (d : Direction) : (QuotaWindows.usage cal now t marks a windows).period d ≤
      ((usernameRows t a.tenantId a.username).map fun r => octets r d).sum := by
  have hall : bytesWhere (usernameRows t a.tenantId a.username) (fun _ => true) d =
      ((usernameRows t a.tenantId a.username).map fun r => octets r d).sum := by
    simp [bytesWhere]
  simp only [QuotaWindows.usage]
  cases norm (a.state.getD {}).periodStart with
  | none => exact hall.le
  | some start =>
    have hsplit := List.sum_map_filter_add_sum_map_filter_not
      (fun r : Radacct => r.acctStartTime.after start = true) (fun r => octets r d)
      (usernameRows t a.tenantId a.username)
    simp only [since, bytesWhere]
    simp only [Bool.decide_eq_true, decide_not] at hsplit
    omega

def cardOctets (db : Db) (card : Card) : ℕ :=
  (cardToSubscriber db card).usedBytesIn + (cardToSubscriber db card).usedBytesOut

theorem subscriberUsedBytes_card (db : Db) (card : Card) :
    subscriberUsedBytes q db.radacct (cardToSubscriber db card) = cardOctets db card := by
  simp only [subscriberUsedBytes]
  change (if 0 < cardOctets db card then cardOctets db card else _) = _
  split_ifs with hcarried
  · rfl
  · have hin := period_le_all db.radacct q.cal q.now q.marks
      ⟨card.tenantId, card.username, {}, q.state⟩ false .input
    have hout := period_le_all db.radacct q.cal q.now q.marks
      ⟨card.tenantId, card.username, {}, q.state⟩ false .output
    change _ ≤ (cardToSubscriber db card).usedBytesIn at hin
    change _ ≤ (cardToSubscriber db card).usedBytesOut at hout
    simp only [cardOctets] at hcarried ⊢
    exact (Nat.le_zero.mp ((Nat.add_le_add hin hout).trans (not_lt.mp hcarried))).trans
      (Nat.le_zero.mp (not_lt.mp hcarried)).symm

def quotaStops (db : Db) (sub : Subscriber) : Prop :=
  ¬(quotaExhaustMode db sub.tenantId sub.username = "reduce_speed" ∨
    quotaExhaustMode db sub.tenantId sub.username = "notify")

theorem checkQuota_isSome_iff (db : Db) : (checkQuota q sub plan db).isSome = true ↔
    quotaStops db sub ∧ (0 < effectiveQuotaMb sub plan ∧
      effectiveQuotaMb sub plan * mib ≤ subscriberUsedBytes q db.radacct sub ∨
        (windowExhaustion q db.radacct sub plan).isSome = true) := by
  have hsome : (quotaExhaustion q db.radacct sub plan).isSome = true ↔
      0 < effectiveQuotaMb sub plan ∧
        effectiveQuotaMb sub plan * mib ≤ subscriberUsedBytes q db.radacct sub ∨
        (windowExhaustion q db.radacct sub plan).isSome = true := by
    simp only [quotaExhaustion]
    split_ifs with htotal
    · exact iff_of_true rfl (.inl htotal)
    · rw [Option.isSome_map]
      exact ⟨.inr, fun h => h.resolve_left htotal⟩
  rw [← hsome, checkQuota, quotaStops]
  cases quotaExhaustion q db.radacct sub plan with
  | none => simp
  | some which =>
    by_cases hmode : quotaExhaustMode db sub.tenantId sub.username = "reduce_speed" ∨
        quotaExhaustMode db sub.tenantId sub.username = "notify"
    · simp [hmode]
    · simp only [hmode, if_false]
      simp

end RadiusModule.PolicyEngine
