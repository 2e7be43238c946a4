import RadiusModule.Library.Binary64
import RadiusModule.Services.QuotaPeriod

/-!
# Daily and monthly usage

The usage of a window is the bytes of the sessions that started inside it, and
for a session that crosses its start what the session carried since. That part
is counted from a baseline, fixed once per window key by interpolation between
the last snapshot of the session and its current reading.
-/

namespace RadiusModule.QuotaWindows
open Library QuotaPeriod Binary64

inductive Direction
  | input
  | output
deriving DecidableEq, Repr

def octets (r : Radacct) : Direction → ℕ
  | .input => r.acctInputOctets
  | .output => r.acctOutputOctets

/-- `_norm`: a stored time to the second; NULL and the empty text are no time. -/
def norm (s : Stamp) : Option ℤ := s.time?.map floorSecond

structure Calendar where
  start : Window → ℤ → ℤ
  key : Window → ℤ → String
  start_le : ∀ w t, start w t ≤ t
  start_mono : ∀ w s t, s ≤ t → start w s ≤ start w t
  start_start : ∀ w t, start w (start w t) = start w t
  start_whole : ∀ w t, floorSecond (start w t) = start w t
  month_le_day : ∀ t, start .monthly t ≤ start .daily t
  key_eq_iff : ∀ w s t, key w s = key w t ↔ start w s = start w t

structure Baseline where
  key : String
  octets : Direction → ℕ

/-- A row of `quota_session_marks`; a session without a row has the default. -/
structure Mark where
  snapAt : Option ℤ := none
  snap : Direction → ℕ := fun _ => 0
  base : Window → Option Baseline := fun _ => none

abbrev Marks := ℕ → Mark

def Marks.set (m : Marks) (radacctid : ℕ) (mark : Mark) : Marks :=
  fun i => if i = radacctid then mark else m i

/-- Bytes at `moment` between two readings, clamped to the current one. -/
def interpolate (preT : ℤ) (pre : ℕ) (curT : ℤ) (cur : ℕ) (moment : ℤ) : ℕ :=
  let span : ℚ := ((curT - preT) / second : ℤ)
  let v : ℚ :=
    if span ≤ 0 then pre
    else
      let frac := min 1 (max 0 (fl (((moment - preT) / second : ℤ) / span)))
      fl (fl pre + fl (fl (cur - pre) * frac))
  (roundHalfEven (min (max v 0) cur)).toNat

theorem interpolate_le (preT : ℤ) (pre : ℕ) (curT : ℤ) (cur : ℕ) (moment : ℤ) :
    interpolate preT pre curT cur moment ≤ cur := by
  simp only [interpolate]
  refine Int.toNat_le.mpr (roundHalfEven_le ?_)
  exact_mod_cast min_le_right _ _

theorem le_interpolate {pre cur : ℕ} (h : pre ≤ cur) (hpre : pre ≤ 2 ^ 53) (preT curT moment : ℤ) :
    pre ≤ interpolate preT pre curT cur moment := by
  have hq : (pre : ℚ) ≤ cur := by exact_mod_cast h
  have hv : ∀ v : ℚ, (pre : ℚ) ≤ v → pre ≤ (roundHalfEven (min (max v 0) cur)).toNat := by
    intro v hle
    have hmin : ((pre : ℤ) : ℚ) ≤ min (max v 0) cur :=
      le_min ((by exact_mod_cast hle : ((pre : ℤ) : ℚ) ≤ v).trans (le_max_left _ _))
        (by exact_mod_cast hq)
    have := le_roundHalfEven hmin
    omega
  simp only [interpolate]
  split_ifs with hspan
  · exact hv _ le_rfl
  · refine hv _ (natCast_le_fl hpre ?_)
    have hfl : (pre : ℚ) ≤ fl pre := natCast_le_fl hpre le_rfl
    have hstep : 0 ≤ fl (fl ((cur : ℚ) - pre) *
        min 1 (max 0 (fl (((moment - preT) / second : ℤ) / ((curT - preT) / second : ℤ))))) := by
      refine fl_nonneg (mul_nonneg (fl_nonneg (sub_nonneg.mpr hq)) ?_)
      exact le_min zero_le_one (le_max_left _ _)
    linarith

def seen (r : Radacct) : Option ℤ :=
  match (norm r.acctStopTime <|> norm r.acctUpdateTime), norm r.acctStartTime with
  | some upd, some start => some (max upd start)
  | some upd, none => some upd
  | none, start => start

/-- Start and last time of a session that crosses the window start `ws`. -/
def crossing (ws : ℤ) (r : Radacct) : Option (ℤ × ℤ) :=
  match norm r.acctStartTime, seen r with
  | some start, some upd => if start < ws ∧ ws < upd then some (start, upd) else none
  | _, _ => none

def freshBaseline (mark : Mark) (start upd ws : ℤ) (r : Radacct) (d : Direction) : ℕ :=
  match mark.snapAt with
  | some snapAt =>
    if start ≤ snapAt ∧ snapAt ≤ ws then interpolate snapAt (mark.snap d) upd (octets r d) ws
    else interpolate start 0 upd (octets r d) ws
  | none => interpolate start 0 upd (octets r d) ws

/-- The baseline of a session for a window that starts at `ws` under `key`. -/
def baseline (mark : Mark) (w : Window) (key : String) (start upd ws : ℤ) (r : Radacct) :
    Baseline :=
  match mark.base w with
  | some b => if b.key = key then b else ⟨key, freshBaseline mark start upd ws r⟩
  | none => ⟨key, freshBaseline mark start upd ws r⟩

def isOpen (r : Radacct) : Bool := r.acctStopTime.isOpen

def readMark (cal : Calendar) (now : ℤ) (mark : Mark) (r : Radacct) : Mark :=
  let base := fun w =>
    match crossing (cal.start w now) r with
    | some (start, upd) => some (baseline mark w (cal.key w now) start upd (cal.start w now) r)
    | none => mark.base w
  match seen r with
  | some upd =>
    if isOpen r && mark.snapAt.all (· < upd) then { snapAt := some upd, snap := octets r, base }
    else { mark with base }
  | none => { mark with base }

/-- What a session that crosses the start of window `w` carried since. -/
def straddle (cal : Calendar) (now : ℤ) (mark : Mark) (w : Window) (r : Radacct) (d : Direction) :
    ℕ :=
  match crossing (cal.start w now) r with
  | some (start, upd) =>
    octets r d - (baseline mark w (cal.key w now) start upd (cal.start w now) r).octets d
  | none => 0

def straddleRows (cal : Calendar) (now : ℤ) (t : RadacctTable) (a : Account) : List Radacct :=
  (usernameRows t a.tenantId a.username).filter fun r =>
    isOpen r ||
      (r.acctStartTime.before (cal.start .daily now) &&
        r.acctStopTime.after (cal.start .daily now)) ||
      (r.acctStartTime.before (cal.start .monthly now) &&
        r.acctStopTime.after (cal.start .monthly now))

def straddleUsage (cal : Calendar) (now : ℤ) (t : RadacctTable) (marks : Marks) (a : Account)
    (w : Window) (d : Direction) : ℕ :=
  ((straddleRows cal now t a).map fun r => straddle cal now (marks r.radacctid) w r d).sum

/-- `_save_marks`: every row that was looked at, in turn. -/
def saveMarks (cal : Calendar) (now : ℤ) (marks : Marks) (rows : List Radacct) : Marks :=
  rows.foldl (fun m r => m.set r.radacctid (readMark cal now (marks r.radacctid) r)) marks

def bytesWhere (rows : List Radacct) (p : Radacct → Bool) (d : Direction) : ℕ :=
  ((rows.filter p).map fun r => octets r d).sum

def since (rows : List Radacct) (reset : ℤ) (base : Direction → ℕ) (d : Direction) : ℕ :=
  bytesWhere rows (fun r => r.acctStartTime.after reset) d +
    (bytesWhere rows (fun r => !r.acctStartTime.after reset) d - base d)

structure Usage where
  period : Direction → ℕ
  window : Window → Direction → ℕ
  marks : Marks

def QuotaState.periodBase (s : QuotaState) : Direction → ℕ
  | .input => s.periodBaseIn
  | .output => s.periodBaseOut

def QuotaState.dailyBase (s : QuotaState) : Direction → ℕ
  | .input => s.dailyBaseIn
  | .output => s.dailyBaseOut

def resetOf (cal : Calendar) (now : ℤ) (s : QuotaState) (w : Window) : Option ℤ :=
  match w with
  | .daily => (norm s.dailyResetAt).filter (cal.start .daily now ≤ ·)
  | .monthly => (norm s.periodStart).filter (cal.start .monthly now ≤ ·)

def readsStraddles (cal : Calendar) (now : ℤ) (s : QuotaState) : Bool :=
  (resetOf cal now s .daily).isNone || (resetOf cal now s .monthly).isNone

def usage (cal : Calendar) (now : ℤ) (t : RadacctTable) (marks : Marks) (a : Account)
    (windows : Bool) : Usage :=
  let s := a.state.getD {}
  let rows := usernameRows t a.tenantId a.username
  let straddles := windows && readsStraddles cal now s
  let calendar := fun w d =>
    bytesWhere rows (fun r => r.acctStartTime.notBefore (cal.start w now)) d +
      if straddles then straddleUsage cal now t marks a w d else 0
  let period := fun d =>
    match norm s.periodStart with
    | some p => since rows p (QuotaState.periodBase s) d
    | none => bytesWhere rows (fun _ => true) d
  { period
    window := fun w d =>
      match resetOf cal now s w, w with
      | some r, .daily => since rows r (QuotaState.dailyBase s) d
      | some _, .monthly => period d
      | none, w => calendar w d
    marks := if straddles then saveMarks cal now marks (straddleRows cal now t a) else marks }

/-- `note_pre_interim`: the reading that an Interim-Update is about to replace. -/
def notePreInterim (cal : Calendar) (now : ℤ) (marks : Marks) (r : Radacct) : Marks :=
  match norm r.acctStartTime, (norm r.acctUpdateTime <|> norm r.acctStartTime) with
  | some start, some upd =>
    if upd ≤ cal.start .daily now ∧ start < cal.start .daily now then
      marks.set r.radacctid { marks r.radacctid with snapAt := some upd, snap := octets r }
    else marks
  | _, _ => marks

theorem norm_eq_some {s : Stamp} {t : ℤ} :
    norm s = some t ↔ ∃ u, s = .instant u ∧ floorSecond u = t := by
  cases s <;> simp [norm, Stamp.time?]

theorem start_le_seen {r : Radacct} {start : ℤ} (h : norm r.acctStartTime = some start) :
    ∃ upd ∈ seen r, start ≤ upd := by
  simp only [seen, h]
  cases (norm r.acctStopTime <|> norm r.acctUpdateTime) with
  | none => exact ⟨start, rfl, le_rfl⟩
  | some upd => exact ⟨max upd start, rfl, le_max_right _ _⟩

theorem crossing_eq_some {ws start upd : ℤ} {r : Radacct} :
    crossing ws r = some (start, upd) ↔
      norm r.acctStartTime = some start ∧ seen r = some upd ∧ start < ws ∧ ws < upd := by
  simp only [crossing]
  cases hs : norm r.acctStartTime with
  | none => simp
  | some a =>
    cases hu : seen r with
    | none => simp
    | some b =>
      simp only [Option.some.injEq]
      split_ifs with h
      · constructor
        · intro heq
          obtain ⟨rfl, rfl⟩ := Prod.ext_iff.mp (Option.some.inj heq)
          exact ⟨rfl, rfl, h⟩
        · rintro ⟨rfl, rfl, -⟩
          rfl
      · constructor
        · intro heq
          cases heq
        · rintro ⟨rfl, rfl, h'⟩
          exact absurd h' h

theorem floor_lt_iff {ws t : ℤ} (h : floorSecond ws = ws) : floorSecond t < ws ↔ t < ws := by
  constructor
  · intro hlt
    by_contra hge
    exact absurd (h ▸ floorSecond_mono (not_lt.mp hge)) (not_le.mpr hlt)
  · exact lt_of_le_of_lt (floorSecond_le t)

/-- The last time a session was alive at or after `ws`. -/
def overlaps (ws : ℤ) (r : Radacct) : Bool := (seen r).any (ws ≤ ·)

theorem overlaps_iff {ws : ℤ} {r : Radacct} : overlaps ws r = true ↔ ∃ u ∈ seen r, ws ≤ u := by
  cases h : seen r <;> simp [overlaps, h]

theorem overlaps_of_notBefore {ws : ℤ} (h : floorSecond ws = ws) {r : Radacct}
    (hr : r.acctStartTime.notBefore ws = true) : overlaps ws r = true := by
  cases hs : r.acctStartTime with
  | null => simp [hs, Stamp.notBefore] at hr
  | blank => simp [hs, Stamp.notBefore] at hr
  | instant t =>
    have ht : ws ≤ t := by simpa [hs, Stamp.notBefore] using hr
    obtain ⟨upd, hupd, hle⟩ := start_le_seen (norm_eq_some.mpr ⟨t, hs, rfl⟩)
    have hfloor := floorSecond_mono ht
    exact overlaps_iff.mpr ⟨upd, hupd, by omega⟩

theorem overlaps_of_crossing {ws : ℤ} {r : Radacct} {p : ℤ × ℤ} (h : crossing ws r = some p) :
    overlaps ws r = true := by
  obtain ⟨-, hu, -, hlt⟩ := crossing_eq_some.mp h
  exact overlaps_iff.mpr ⟨p.2, hu, hlt.le⟩

theorem not_notBefore_of_crossing {ws : ℤ} (h : floorSecond ws = ws) {r : Radacct} {p : ℤ × ℤ}
    (hc : crossing ws r = some p) : r.acctStartTime.notBefore ws = false := by
  obtain ⟨hs, -, hlt, -⟩ := crossing_eq_some.mp hc
  obtain ⟨t, ht, hf⟩ := norm_eq_some.mp hs
  have := (floor_lt_iff h).mp (hf ▸ hlt)
  simp [ht, Stamp.notBefore, this]

theorem straddle_le (cal : Calendar) (now : ℤ) (mark : Mark) (w : Window) (r : Radacct)
    (d : Direction) : straddle cal now mark w r d ≤ octets r d := by
  simp only [straddle]
  split
  · exact Nat.sub_le _ _
  · exact Nat.zero_le _

theorem selected_of_crossing {ws : ℤ} (h : floorSecond ws = ws) {r : Radacct} {p : ℤ × ℤ}
    (hc : crossing ws r = some p) :
    isOpen r = true ∨ (r.acctStartTime.before ws = true ∧ r.acctStopTime.after ws = true) := by
  obtain ⟨hs, hu, hlt, hgt⟩ := crossing_eq_some.mp hc
  obtain ⟨t, ht, hf⟩ := norm_eq_some.mp hs
  cases hstop : r.acctStopTime with
  | null => exact Or.inl (by simp [isOpen, hstop, Stamp.isOpen])
  | blank => exact Or.inl (by simp [isOpen, hstop, Stamp.isOpen])
  | instant u =>
    refine Or.inr ⟨?_, ?_⟩
    · have := (floor_lt_iff h).mp (hf ▸ hlt)
      simpa [ht, Stamp.before] using this
    · have hns : norm r.acctStopTime = some (floorSecond u) := by rw [hstop]; rfl
      have hmax : max (floorSecond u) p.1 = p.2 := by simpa [seen, hs, hns] using hu
      have hfloor : ws < floorSecond u := by
        rcases max_choice (floorSecond u) p.1 with hm | hm <;> omega
      simpa [Stamp.after] using hfloor.trans_le (floorSecond_le u)

theorem straddleRows_sublist (cal : Calendar) (now : ℤ) (t : RadacctTable) (a : Account) :
    (straddleRows cal now t a).Sublist (usernameRows t a.tenantId a.username) :=
  List.filter_sublist

theorem mem_straddleRows {cal : Calendar} {now : ℤ} {t : RadacctTable} {a : Account}
    {r : Radacct} (hr : r ∈ usernameRows t a.tenantId a.username)
    (hsel : isOpen r = true ∨ ∃ w p, crossing (cal.start w now) r = some p) :
    r ∈ straddleRows cal now t a := by
  refine List.mem_filter.mpr ⟨hr, ?_⟩
  rcases hsel with hopen | ⟨w, p, hc⟩
  · simp [hopen]
  · rcases selected_of_crossing (cal.start_whole w now) hc with hopen | hsel
    · simp [hopen]
    · cases w <;> simp [hsel.1, hsel.2]

theorem sum_filter_map_eq {α : Type*} (l : List α) (p : α → Bool) (f : α → ℕ)
    (h : ∀ x ∈ l, p x = false → f x = 0) : ((l.filter p).map f).sum = (l.map f).sum := by
  induction l with
  | nil => rfl
  | cons x l ih =>
    have ih := ih fun y hy => h y (List.mem_cons_of_mem _ hy)
    by_cases hp : p x = true
    · simp [hp, ih]
    · simp [hp, ih, h x List.mem_cons_self (by simpa using hp)]

theorem straddleUsage_eq (cal : Calendar) (now : ℤ) (t : RadacctTable) (marks : Marks)
    (a : Account) (w : Window) (d : Direction) :
    straddleUsage cal now t marks a w d =
      ((usernameRows t a.tenantId a.username).map fun r =>
        straddle cal now (marks r.radacctid) w r d).sum := by
  refine sum_filter_map_eq _ _ _ fun r hr hp => ?_
  cases hc : crossing (cal.start w now) r with
  | none => simp [straddle, hc]
  | some p =>
    have := (List.mem_filter.mp (mem_straddleRows hr (Or.inr ⟨w, p, hc⟩))).2
    rw [hp] at this
    cases this

theorem bytesWhere_eq (rows : List Radacct) (p : Radacct → Bool) (d : Direction) :
    bytesWhere rows p d = (rows.map fun r => if p r then octets r d else 0).sum := by
  rw [bytesWhere, ← sum_filter_map_eq rows p (fun r => if p r then octets r d else 0)
    (fun r _ hp => by simp [hp])]
  congr 1
  refine List.map_congr_left fun r hr => ?_
  simp [(List.mem_filter.mp hr).2]

def rowUsage (cal : Calendar) (now : ℤ) (mark : Mark) (w : Window) (r : Radacct) (d : Direction) :
    ℕ :=
  (if r.acctStartTime.notBefore (cal.start w now) then octets r d else 0) +
    straddle cal now mark w r d

theorem calendar_usage_eq (cal : Calendar) (now : ℤ) (t : RadacctTable) (marks : Marks)
    (a : Account) (w : Window) (d : Direction) :
    bytesWhere (usernameRows t a.tenantId a.username)
        (fun r => r.acctStartTime.notBefore (cal.start w now)) d +
      straddleUsage cal now t marks a w d =
      ((usernameRows t a.tenantId a.username).map fun r =>
        rowUsage cal now (marks r.radacctid) w r d).sum := by
  rw [bytesWhere_eq, straddleUsage_eq]
  exact List.sum_map_add.symm

theorem rowUsage_le (cal : Calendar) (now : ℤ) (mark : Mark) (w : Window) (r : Radacct)
    (d : Direction) :
    rowUsage cal now mark w r d ≤ if overlaps (cal.start w now) r then octets r d else 0 := by
  have hwhole := cal.start_whole w now
  cases hc : crossing (cal.start w now) r with
  | none =>
    by_cases hn : r.acctStartTime.notBefore (cal.start w now) = true
    · simp [rowUsage, straddle, hc, hn, overlaps_of_notBefore hwhole hn]
    · simp [rowUsage, straddle, hc, hn]
  | some p =>
    simpa [rowUsage, not_notBefore_of_crossing hwhole hc, overlaps_of_crossing hc] using
      straddle_le cal now mark w r d

theorem readMark_base (cal : Calendar) (now : ℤ) (mark : Mark) (r : Radacct) (w : Window) :
    (readMark cal now mark r).base w =
      match crossing (cal.start w now) r with
      | some (start, upd) => some (baseline mark w (cal.key w now) start upd (cal.start w now) r)
      | none => mark.base w := by
  simp only [readMark]
  split
  · split_ifs <;> rfl
  · rfl

theorem readMark_snap (cal : Calendar) (now : ℤ) (mark : Mark) (r : Radacct) :
    ((readMark cal now mark r).snapAt = mark.snapAt ∧ (readMark cal now mark r).snap = mark.snap ∧
        (isOpen r = true → ∀ upd ∈ seen r, ∃ at' ∈ mark.snapAt, upd ≤ at')) ∨
      ∃ upd ∈ seen r, (readMark cal now mark r).snapAt = some upd ∧
        (readMark cal now mark r).snap = octets r := by
  simp only [readMark]
  cases hseen : seen r with
  | none => exact Or.inl ⟨rfl, rfl, by simp⟩
  | some upd =>
    by_cases hnew : (isOpen r && mark.snapAt.all (· < upd)) = true
    · exact Or.inr ⟨upd, rfl, by simp [hnew], by simp [hnew]⟩
    · refine Or.inl ⟨by simp [hnew], by simp [hnew], fun hopen u hu => ?_⟩
      obtain rfl : upd = u := by simpa using hu
      cases hs : mark.snapAt with
      | none => simp [hopen, hs] at hnew
      | some τ => exact ⟨τ, rfl, by simpa [hopen, hs] using hnew⟩

theorem foldl_set_of_not_mem (cal : Calendar) (now : ℤ) (marks acc : Marks) {rows : List Radacct}
    {i : ℕ} (h : ∀ r ∈ rows, r.radacctid ≠ i) :
    rows.foldl (fun m r => m.set r.radacctid (readMark cal now (marks r.radacctid) r)) acc i =
      acc i := by
  induction rows generalizing acc with
  | nil => rfl
  | cons x rows ih =>
    rw [List.foldl_cons, ih _ fun r hr => h r (List.mem_cons_of_mem _ hr)]
    simp [Marks.set, Ne.symm (h x List.mem_cons_self)]

theorem foldl_set_of_mem (cal : Calendar) (now : ℤ) (marks acc : Marks) {rows : List Radacct}
    (hn : rows.Pairwise fun a b => a.radacctid < b.radacctid) {r : Radacct} (hr : r ∈ rows) :
    rows.foldl (fun m r => m.set r.radacctid (readMark cal now (marks r.radacctid) r)) acc
        r.radacctid = readMark cal now (marks r.radacctid) r := by
  induction rows generalizing acc with
  | nil => cases hr
  | cons x rows ih =>
    obtain ⟨hx, hrest⟩ := List.pairwise_cons.mp hn
    rcases List.mem_cons.mp hr with rfl | hr
    · rw [List.foldl_cons, foldl_set_of_not_mem cal now marks _ fun y hy => (hx y hy).ne']
      simp [Marks.set]
    · exact ih _ hrest hr

theorem saveMarks_of_mem (cal : Calendar) (now : ℤ) (t : RadacctTable) (marks : Marks)
    (a : Account) {r : Radacct} (hr : r ∈ straddleRows cal now t a) :
    saveMarks cal now marks (straddleRows cal now t a) r.radacctid =
      readMark cal now (marks r.radacctid) r :=
  foldl_set_of_mem cal now marks marks
    (t.sorted.sublist ((straddleRows_sublist cal now t a).trans List.filter_sublist)) hr

theorem saveMarks_of_not_mem (cal : Calendar) (now : ℤ) (t : RadacctTable) (marks : Marks)
    (a : Account) {i : ℕ} (h : ∀ r ∈ straddleRows cal now t a, r.radacctid ≠ i) :
    saveMarks cal now marks (straddleRows cal now t a) i = marks i :=
  foldl_set_of_not_mem cal now marks marks h

end RadiusModule.QuotaWindows
