import RadiusModule.Services.PolicyEngine.Quota
import RadiusModule.Services.QuotaConservation

/-!
# What a top-up raises

`add_quota` works out the cap that it adds to by itself, from the override and
the live plan; a login enforces the caps of the override and of the plan that
the account was sold on, archived or not.
-/

namespace RadiusModule.QuotaTopups
open Library QuotaPeriod QuotaWindows PolicyEngine

inductive ChargeMode
  | free
  | paid
  | debt
deriving DecidableEq

/-- The window and the amount that the form asks for; `amount` is what `_charge_amount` reads,
an error when it refuses. -/
structure Topup where
  mb : ℤ
  target : Target := .combined
  window : QuotaWindow := .auto
  mode : ChargeMode := .free
  amount : Except String ℚ := .ok 0

structure Buyer where
  sub : Subscriber
  balance : ℚ
  state : Option QuotaState

def overrideOf (sub : Subscriber) : Override where
  combined := sub.combinedQuotaMb
  download := sub.downloadQuotaMb
  upload := sub.uploadQuotaMb
  enabled := sub.quotaLimitEnabled

def withOverride (sub : Subscriber) (o : Override) : Subscriber :=
  { sub with
    combinedQuotaMb := o.combined
    downloadQuotaMb := o.download
    uploadQuotaMb := o.upload
    quotaLimitEnabled := o.enabled }

def requirePaidBalance (mode : ChargeMode) (balance amount : ℚ) : Except String Unit :=
  if mode = .paid ∧ balance + 1 / 1000000000 < amount then
    .error "رصيد المشترك لا يكفي — «مدفوع» يُخصم من الرصيد."
  else .ok ()

def soldPlan (db : Db) (b : Buyer) : Option AccessPlan :=
  b.sub.planId.bind fun id => db.plan b.sub.tenantId id true

/-- `get_profile`, which does not find an archived plan; the top-up goes on without one. -/
def profileOf (db : Db) (b : Buyer) : Option AccessPlan :=
  b.sub.planId.bind fun id => db.plan b.sub.tenantId id false

/-- `add_quota` at an instant of the tenant's calendar. -/
def topUp (cal : Calendar) (now : ℤ) (db : Db) (t : Topup) (b : Buyer) : Except String Buyer :=
  if t.mb ≤ 0 then .error "حجم الكوتة يجب أن يكون أكبر من صفر."
  else
    match t.amount with
    | .error e => .error e
    | .ok amount =>
      match addQuota (cal.key · now) (profileOf db b) t.mb t.target t.window
        ⟨b.sub.tenantId, b.sub.username, overrideOf b.sub, b.state⟩ with
      | .error e => .error e
      | .ok a =>
        match requirePaidBalance t.mode b.balance amount with
        | .error e => .error e
        | .ok () =>
          .ok
            { sub := withOverride b.sub a.override
              balance := if t.mode = .free then b.balance else b.balance - amount
              state := a.state }

def enforcedTotal (db : Db) (b : Buyer) : ℤ := effectiveQuotaMb b.sub (soldPlan db b)

def enforcedWindow (cal : Calendar) (now : ℤ) (marks : QuotaWindows.Marks) (db : Db) (b : Buyer)
    (w : Window) : Caps :=
  windowCaps ⟨cal, now, marks, b.state⟩ (soldPlan db b) w

def Covered (t : Topup) (b : Buyer) : Prop :=
  ∃ amount, t.amount = .ok amount ∧ requirePaidBalance t.mode b.balance amount = .ok ()

def Unlimited (db : Db) (b : Buyer) : Prop :=
  enforcedTotal db b ≤ 0 ∧ ∀ w, (planWindowCaps (soldPlan db b) w).any = false

section
variable (cal : Calendar) (now : ℤ) (marks : QuotaWindows.Marks) (db : Db) (t : Topup) (b : Buyer)

def GrowsOne (b' : Buyer) : Prop :=
  (0 < enforcedTotal db b ∧ enforcedTotal db b' = enforcedTotal db b + t.mb ∧
    enforcedWindow cal now marks db b' = enforcedWindow cal now marks db b) ∨
  (enforcedTotal db b' = enforcedTotal db b ∧ ∃ w d,
    (planWindowCaps (soldPlan db b) w).get d ≠ 0 ∧
    enforcedWindow cal now marks db b' w = (enforcedWindow cal now marks db b w).add d t.mb ∧
    ∀ w', w' ≠ w → enforcedWindow cal now marks db b' w' = enforcedWindow cal now marks db b w')

/-- What the buyer gets: one cap more, a top-up where the total is enforced, and no cap where
there was none. -/
structure TopupKept : Prop where
  grows : ∀ b', topUp cal now db t b = .ok b' → GrowsOne cal now marks db t b b'
  served : 0 < t.mb → t.window = .auto → t.target = .combined → Covered t b →
    0 < enforcedTotal db b → ∃ b', topUp cal now db t b = .ok b'
  unlimited : Unlimited db b → ∀ b', topUp cal now db t b ≠ .ok b'

def DirectionsCount : Prop :=
  enforcedTotal db b = b.sub.downloadQuotaMb + b.sub.uploadQuotaMb ∧ 0 < enforcedTotal db b ∧
    (b.sub.combinedQuotaMb = 0 ∨ t.target = .combined)

structure SameCap : Prop where
  directions : 0 < t.mb → Covered t b →
    resolveWindow (overrideOf b.sub) (profileOf db b) t.window = some .total →
    perDirection (overrideOf b.sub) = true → DirectionsCount db t b
  plan : 0 < t.mb → t.window = .auto → t.target = .combined → Covered t b →
    0 < enforcedTotal db b → hasTotal (overrideOf b.sub) (profileOf db b) = true

end

def ownCap (o : Override) : ℤ := if o.combined ≠ 0 then o.combined else o.download + o.upload

theorem effectiveQuotaMb_eq (sub : Subscriber) (plan : Option AccessPlan) :
    effectiveQuotaMb sub plan = if 0 < ownCap (overrideOf sub) then ownCap (overrideOf sub)
      else (plan.map AccessPlan.quotaTotalMb).getD 0 := by
  simp only [effectiveQuotaMb, ownCap, overrideOf]
  by_cases hset : (sub.quotaLimitEnabled || sub.combinedQuotaMb ≠ 0 || sub.downloadQuotaMb ≠ 0 ||
      sub.uploadQuotaMb ≠ 0) = true
  · rw [if_pos hset]
    rfl
  · simp only [Bool.or_eq_true, decide_eq_true_eq, not_or, ne_eq, not_not] at hset
    obtain ⟨⟨⟨henabled, hcombined⟩, hdownload⟩, hupload⟩ := hset
    simp [henabled, hcombined, hdownload, hupload]

theorem profileOf_some {db : Db} {b : Buyer} {p : AccessPlan} (h : profileOf db b = some p) :
    soldPlan db b = some p := by
  unfold profileOf at h
  unfold soldPlan
  cases hid : b.sub.planId with
  | none =>
    rw [hid] at h
    cases h
  | some id =>
    rw [hid, Option.bind_some, Db.plan_live] at h
    exact (Option.filter_eq_some_iff.mp h).1

def addedNow (cal : Calendar) (now : ℤ) (s : Option QuotaState) (w : Window) (d : Target) : ℤ :=
  match (s.getD {}).windowTopups.get w with
  | some cur => if cur.key = cal.key w now then cur.added.get d else 0
  | none => 0

theorem windowCaps_get (q : QuotaReads) (plan : Option AccessPlan) (w : Window) (d : Target) :
    (windowCaps q plan w).get d =
      if (planWindowCaps plan w).get d ≠ 0 then
        (planWindowCaps plan w).get d + addedNow q.cal q.now q.state w d
      else 0 := by
  unfold addedNow
  unfold windowCaps
  rcases planWindowCaps plan w with ⟨combined, download, upload⟩
  cases (q.state.getD {}).windowTopups.get w with
  | none =>
    by_cases hd : (Caps.mk combined download upload).get d = 0 <;> simp [hd]
  | some cur =>
    by_cases hkey : cur.key = q.cal.key w q.now
    · simp only [if_pos hkey]
      by_cases hcombined : combined = 0 <;> by_cases hdownload : download = 0 <;>
        by_cases hupload : upload = 0 <;> cases d <;>
        simp [Caps.get, Caps.add, hcombined, hdownload, hupload]
    · simp only [if_neg hkey]
      by_cases hd : (Caps.mk combined download upload).get d = 0 <;> simp [hd]

theorem Caps.ext_get {c c' : Caps} (h : ∀ d, c.get d = c'.get d) : c = c' := by
  have hcombined := h .combined
  have hdownload := h .download
  have hupload := h .upload
  cases c
  cases c'
  simp_all [Caps.get]

theorem Caps.get_add (c : Caps) (d d' : Target) (mb : ℤ) :
    (c.add d mb).get d' = c.get d' + if d' = d then mb else 0 := by
  cases d <;> cases d' <;> simp [Caps.get, Caps.add]

theorem WindowTopups.get_set (tops : WindowTopups) (w w' : Window) (cur : WindowTopup) :
    (tops.set w cur).get w' = if w' = w then some cur else tops.get w' := by
  cases w <;> cases w' <;> rfl

theorem addedNow_record (cal : Calendar) (now : ℤ) (w : Window) (d : Target) (mb : ℤ)
    (s : Option QuotaState) (d' : Target) :
    addedNow cal now (some (recordWindowTopup (cal.key w now) w d mb s)) w d' =
      addedNow cal now s w d' + if d' = d then mb else 0 := by
  have hnone : (Caps.get {} d' : ℤ) = 0 := by cases d' <;> rfl
  simp only [addedNow, recordWindowTopup, Option.getD_some, WindowTopups.get_set, if_true]
  cases (s.getD {}).windowTopups.get w with
  | none => simp only [if_true, Caps.get_add, hnone]
  | some cur =>
    by_cases hkey : cur.key = cal.key w now
    · simp only [if_pos hkey, Caps.get_add]
    · simp only [if_neg hkey, if_true, Caps.get_add, hnone]

theorem windowCaps_topup (cal : Calendar) (now : ℤ) (marks : QuotaWindows.Marks)
    (plan : Option AccessPlan) (w : Window) (d : Target) (mb : ℤ) (s : Option QuotaState)
    (hcap : (planWindowCaps plan w).get d ≠ 0) :
    windowCaps ⟨cal, now, marks, some (recordWindowTopup (cal.key w now) w d mb s)⟩ plan w =
        (windowCaps ⟨cal, now, marks, s⟩ plan w).add d mb ∧
      ∀ w', w' ≠ w →
        windowCaps ⟨cal, now, marks, some (recordWindowTopup (cal.key w now) w d mb s)⟩ plan w' =
          windowCaps ⟨cal, now, marks, s⟩ plan w' := by
  constructor
  · refine Caps.ext_get fun d' => ?_
    rw [Caps.get_add, windowCaps_get, windowCaps_get]
    simp only [addedNow_record]
    by_cases hd : d' = d
    · subst hd
      rw [if_pos hcap, if_pos hcap, if_pos rfl, Int.add_assoc]
    · rw [if_neg hd, Int.add_zero, Int.add_zero]
  · intro w' hne
    simp only [windowCaps, recordWindowTopup, Option.getD_some, WindowTopups.get_set, if_neg hne]

theorem addQuota_ok {keys : Window → String} {plan : Option AccessPlan} {mb : ℤ}
    {target : Target} {window : QuotaWindow} {a a' : Account}
    (h : addQuota keys plan mb target window a = .ok a') :
    (resolveWindow a.override plan window = some .total ∧ ∃ after,
      totalTopup a.override plan target mb = .ok after ∧
      a' = { a with
        override := after, state := some (recordTotalTopup a.override after mb a.state) }) ∨
    ∃ w, resolveWindow a.override plan window = some (.window w) ∧
      (planWindowCaps plan w).get target ≠ 0 ∧
      a' = { a with state := some (recordWindowTopup (keys w) w target mb a.state) } := by
  unfold addQuota at h
  by_cases hmb : mb ≤ 0
  · rw [if_pos hmb] at h
    cases h
  rw [if_neg hmb] at h
  split at h
  · cases h
  · cases h
  · rename_i hresolve
    left
    cases htopup : totalTopup a.override plan target mb with
    | error e =>
      rw [htopup] at h
      cases h
    | ok after =>
      rw [htopup] at h
      cases h
      exact ⟨hresolve, after, rfl, rfl⟩
  · rename_i w hresolve
    right
    split_ifs at h with hcap
    cases h
    exact ⟨w, hresolve, hcap, rfl⟩

section
variable {cal : Calendar} {now : ℤ} {marks : QuotaWindows.Marks} {db : Db} {t : Topup}
  {b b' : Buyer}

def accountOf (b : Buyer) : Account := ⟨b.sub.tenantId, b.sub.username, overrideOf b.sub, b.state⟩

theorem topUp_ok_iff : topUp cal now db t b = .ok b' ↔ 0 < t.mb ∧ ∃ amount a,
    t.amount = .ok amount ∧ requirePaidBalance t.mode b.balance amount = .ok () ∧
    addQuota (cal.key · now) (profileOf db b) t.mb t.target t.window (accountOf b) = .ok a ∧
    b' = { sub := withOverride b.sub a.override
           balance := if t.mode = .free then b.balance else b.balance - amount
           state := a.state } := by
  unfold topUp accountOf
  constructor
  · intro h
    by_cases hmb : t.mb ≤ 0
    · rw [if_pos hmb] at h
      cases h
    rw [if_neg hmb] at h
    cases hamount : t.amount with
    | error e =>
      rw [hamount] at h
      cases h
    | ok amount =>
      simp only [hamount] at h
      split at h
      · cases h
      · rename_i a hadd
        split at h
        · cases h
        · rename_i hpaid
          cases h
          exact ⟨not_le.mp hmb, amount, a, rfl, hpaid, hadd, rfl⟩
  · rintro ⟨hmb, amount, a, hamount, hpaid, hadd, rfl⟩
    simp only [if_neg (not_le.mpr hmb), hamount, hadd, hpaid]

theorem windowCaps_total (cal : Calendar) (now : ℤ) (marks : QuotaWindows.Marks)
    (before after : Override) (mb : ℤ) (s : Option QuotaState) (plan : Option AccessPlan) :
    windowCaps ⟨cal, now, marks, some (recordTotalTopup before after mb s)⟩ plan =
      windowCaps ⟨cal, now, marks, s⟩ plan := rfl

theorem enforcedTotal_eq (db : Db) (b : Buyer) :
    enforcedTotal db b = if 0 < ownCap (overrideOf b.sub) then ownCap (overrideOf b.sub)
      else ((soldPlan db b).map AccessPlan.quotaTotalMb).getD 0 :=
  effectiveQuotaMb_eq ..

theorem directions_iff {o after : Override} {plan : Option AccessPlan} {target : Target}
    {mb total : ℤ} (hmb : 0 < mb) (hdirections : perDirection o = true)
    (hafter : totalTopup o plan target mb = .ok after) :
    (0 < (if 0 < ownCap o then ownCap o else total) ∧
      (if 0 < ownCap after then ownCap after else total) =
        (if 0 < ownCap o then ownCap o else total) + mb) ↔
    (if 0 < ownCap o then ownCap o else total) = o.download + o.upload ∧
      0 < (if 0 < ownCap o then ownCap o else total) ∧ (o.combined = 0 ∨ target = .combined) := by
  unfold totalTopup at hafter
  rw [if_pos hdirections] at hafter
  simp only [perDirection, Bool.and_eq_true, Bool.or_eq_true, decide_eq_true_eq] at hdirections
  obtain ⟨hcombined, -⟩ := hdirections
  cases target <;> cases hafter <;> simp only [ownCap] <;> split_ifs <;>
    simp only [or_true, or_false, and_true, true_and] <;> omega

theorem combined_grows {o after : Override} {plan : Option AccessPlan} {target : Target}
    {mb : ℤ} (hmb : 0 < mb) (hdirections : perDirection o = false)
    (htotal : hasTotal o plan = true) (hafter : totalTopup o plan target mb = .ok after) :
    let total := (plan.map AccessPlan.quotaTotalMb).getD 0
    0 < (if 0 < ownCap o then ownCap o else total) ∧
      (if 0 < ownCap after then ownCap after else total) =
        (if 0 < ownCap o then ownCap o else total) + mb := by
  have htarget : target = .combined := by
    by_contra hne
    simp only [totalTopup, hdirections, Bool.false_eq_true, if_false, if_pos hne] at hafter
    cases hafter
  subst htarget
  simp only [totalTopup, hdirections, Bool.false_eq_true, if_false, ne_eq, not_true_eq_false]
    at hafter
  cases hafter
  simp only [hasTotal, hdirections, Bool.or_false, Bool.or_eq_true, decide_eq_true_eq] at htotal
  simp only [perDirection, Bool.and_eq_false_iff, Bool.or_eq_false_iff, decide_eq_false_iff_not]
    at hdirections
  simp only [ownCap]
  generalize (plan.map AccessPlan.quotaTotalMb).getD 0 = total at htotal ⊢
  split_ifs <;> omega

theorem sameCap_of_kept (h : TopupKept cal now marks db t b) : SameCap db t b where
  directions hmb hcovered hresolve hdirections := by
    obtain ⟨amount, hamount, hpaid⟩ := hcovered
    have hafter : ∃ after, totalTopup (overrideOf b.sub) (profileOf db b) t.target t.mb =
        .ok after := by
      unfold totalTopup
      rw [if_pos hdirections]
      cases t.target <;> exact ⟨_, rfl⟩
    obtain ⟨after, hafter⟩ := hafter
    have hadd : addQuota (cal.key · now) (profileOf db b) t.mb t.target t.window (accountOf b) =
        .ok { accountOf b with
          override := after
          state := some (recordTotalTopup (overrideOf b.sub) after t.mb b.state) } := by
      simp only [addQuota, if_neg (not_le.mpr hmb), accountOf, hresolve, hafter]
      rfl
    have hkept := h.grows _ (topUp_ok_iff.mpr ⟨hmb, amount, _, hamount, hpaid, hadd, rfl⟩)
    rcases hkept with ⟨hpos, hgrown, -⟩ | ⟨hsame, w, d, -, hgrown, -⟩
    · rw [enforcedTotal_eq] at hpos
      rw [enforcedTotal_eq, enforcedTotal_eq] at hgrown
      rw [DirectionsCount, enforcedTotal_eq]
      exact (directions_iff hmb hdirections hafter).mp ⟨hpos, hgrown⟩
    · -- the windows are as they were
      have hleft := congrFun (windowCaps_total cal now marks (overrideOf b.sub) after t.mb b.state
        (soldPlan db b)) w
      have hsum : (enforcedWindow cal now marks db b w).get d =
          ((enforcedWindow cal now marks db b w).add d t.mb).get d :=
        congrArg (Caps.get · d) (hleft.symm.trans hgrown)
      rw [Caps.get_add, if_pos rfl] at hsum
      omega
  plan hmb hauto hcombined hcovered hpos := by
    obtain ⟨b', hserved⟩ := h.served hmb hauto hcombined hcovered hpos
    obtain ⟨-, amount, a, -, -, hadd, rfl⟩ := topUp_ok_iff.mp hserved
    rcases addQuota_ok hadd with ⟨hresolve, -⟩ | ⟨w, hresolve, hcap, -⟩
    · rw [hauto] at hresolve
      simp only [resolveWindow] at hresolve
      by_contra hnone
      have hfalse : hasTotal (accountOf b).override (profileOf db b) = false := by
        simpa [accountOf] using hnone
      rw [hfalse] at hresolve
      simp only [Bool.false_eq_true, if_false] at hresolve
      split_ifs at hresolve <;> cases hresolve
    · -- the plan is live, and a total that is enforced is one that the top-up sees
      by_contra hnone
      have hplan : ∃ p, profileOf db b = some p := by
        cases hp : profileOf db b with
        | some p => exact ⟨p, rfl⟩
        | none =>
          exfalso
          rw [hp] at hcap
          apply hcap
          cases w <;> cases t.target <;> rfl
      obtain ⟨p, hp⟩ := hplan
      rw [enforcedTotal_eq, profileOf_some hp] at hpos
      rw [hp] at hnone
      simp only [hasTotal, perDirection, Option.map_some, Option.getD_some, Bool.or_eq_true,
        Bool.and_eq_true, decide_eq_true_eq] at hnone
      simp only [ownCap, Option.map_some, Option.getD_some] at hpos
      split_ifs at hpos <;> omega

theorem grows_of_sameCap (h : SameCap db t b) (hb' : topUp cal now db t b = .ok b') :
    GrowsOne cal now marks db t b b' := by
  obtain ⟨hmb, amount, a, hamount, hpaid, hadd, rfl⟩ := topUp_ok_iff.mp hb'
  rcases addQuota_ok hadd with ⟨hresolve, after, hafter, rfl⟩ | ⟨w, hresolve, hcap, rfl⟩
  · left
    suffices hgrows : 0 < enforcedTotal db b ∧
        (if 0 < ownCap after then ownCap after
          else ((soldPlan db b).map AccessPlan.quotaTotalMb).getD 0) =
        enforcedTotal db b + t.mb from
      ⟨hgrows.1, (enforcedTotal_eq db _).trans hgrows.2,
        windowCaps_total cal now marks (overrideOf b.sub) after t.mb b.state (soldPlan db b)⟩
    rw [enforcedTotal_eq]
    by_cases hdirections : perDirection (overrideOf b.sub) = true
    · have hcount := h.directions hmb ⟨amount, hamount, hpaid⟩ hresolve hdirections
      rw [DirectionsCount, enforcedTotal_eq] at hcount
      exact (directions_iff hmb hdirections hafter).mpr hcount
    · have hnot : perDirection (overrideOf b.sub) = false := by simpa using hdirections
      have htotal : hasTotal (overrideOf b.sub) (profileOf db b) = true := by
        have hfound : resolveWindow (overrideOf b.sub) (profileOf db b) t.window =
          some .total := hresolve
        unfold resolveWindow at hfound
        split at hfound <;> split_ifs at hfound <;> first | assumption | cases hfound
      cases hp : profileOf db b with
      | some p =>
        rw [profileOf_some hp]
        rw [hp] at htotal hafter
        exact combined_grows hmb hnot htotal hafter
      | none =>
        -- without a live plan the cap is the subscriber's own
        rw [hp] at htotal hafter
        have hown := combined_grows hmb hnot htotal hafter
        simp only [Option.map_none, Option.getD_none] at hown
        split_ifs at hown ⊢ <;> omega
  · right
    have hplan : soldPlan db b = profileOf db b := by
      cases hp : profileOf db b with
      | some p => exact profileOf_some hp
      | none =>
        exfalso
        rw [hp] at hcap
        apply hcap
        cases w <;> cases t.target <;> rfl
    rw [← hplan] at hcap
    obtain ⟨hgrown, hothers⟩ :=
      windowCaps_topup cal now marks (soldPlan db b) w t.target t.mb b.state hcap
    exact ⟨rfl, w, t.target, hcap, hgrown, hothers⟩

theorem kept_of_sameCap (h : SameCap db t b) : TopupKept cal now marks db t b where
  grows b' hb' := grows_of_sameCap h hb'
  served hmb hauto hcombined hcovered hpos := by
    have htotal := h.plan hmb hauto hcombined hcovered hpos
    obtain ⟨amount, hamount, hpaid⟩ := hcovered
    have hafter : ∃ after, totalTopup (overrideOf b.sub) (profileOf db b) .combined t.mb =
        .ok after := by
      unfold totalTopup
      by_cases hdirections : perDirection (overrideOf b.sub) = true
      · exact ⟨_, if_pos hdirections⟩
      · exact ⟨_, (if_neg hdirections).trans (if_neg fun hne => hne rfl)⟩
    obtain ⟨after, hafter⟩ := hafter
    have hresolve : resolveWindow (overrideOf b.sub) (profileOf db b) .auto = some .total :=
      if_pos htotal
    refine ⟨_, topUp_ok_iff.mpr ⟨hmb, amount, { accountOf b with
      override := after
      state := some (recordTotalTopup (overrideOf b.sub) after t.mb b.state) }, hamount, hpaid,
        ?_, rfl⟩⟩
    simp only [addQuota, if_neg (not_le.mpr hmb), accountOf, hauto, hcombined, hresolve, hafter]
    rfl
  unlimited hnone b' hb' := by
    have hgrows : GrowsOne cal now marks db t b b' := grows_of_sameCap h hb'
    rcases hgrows with ⟨hpos, -⟩ | ⟨-, w, d, hcap, -⟩
    · exact absurd hpos (not_lt.mpr hnone.1)
    · apply hcap
      have hany := hnone.2 w
      simp only [Caps.any, Bool.or_eq_false_iff, decide_eq_false_iff_not, not_not] at hany
      obtain ⟨⟨hcombined, hdownload⟩, hupload⟩ := hany
      cases d
      · exact hcombined
      · exact hdownload
      · exact hupload

end

/-- A top-up raises the enforced cap by what was bought exactly when the cap that it works out is
the one in force. -/
theorem topupKept_iff (cal : Calendar) (now : ℤ) (marks : QuotaWindows.Marks) (db : Db) (t : Topup)
    (b : Buyer) : TopupKept cal now marks db t b ↔ SameCap db t b :=
  ⟨sameCap_of_kept, kept_of_sameCap⟩

def archivedPlan : AccessPlan := { id := 3, quotaTotalMb := 1024, deletedAt := .instant 0 }

def archivedDb : Db := { plans := [archivedPlan] }

def soldBuyer : Buyer :=
  { sub := { username := "nour", planId := some 3 }, balance := 10, state := none }

/-- The login enforces 1024, and a free top-up of 100 is refused for want of a cap. -/
theorem archived_plan_refused :
    enforcedTotal archivedDb soldBuyer = 1024 ∧
      topUp sampleCalendar 0 archivedDb { mb := 100 } soldBuyer = .error noCapMessage ∧
      ¬TopupKept sampleCalendar 0 (fun _ => {}) archivedDb { mb := 100 } soldBuyer := by
  have hcap : enforcedTotal archivedDb soldBuyer = 1024 := by decide
  have hrefused : topUp sampleCalendar 0 archivedDb { mb := 100 } soldBuyer =
      .error noCapMessage := rfl
  refine ⟨hcap, hrefused, fun hkept => ?_⟩
  obtain ⟨b', hserved⟩ := hkept.served (by decide) rfl rfl ⟨0, rfl, if_neg fun h => by cases h.1⟩
    (by rw [hcap]; decide)
  rw [hrefused] at hserved
  cases hserved

end RadiusModule.QuotaTopups
