import RadiusModule.Services.QuotaRuns

/-!
# No byte in two windows

The baseline of a window must not fall below what an earlier read has seen of
the session. It does not when every read keeps the snapshots up to date, when
counters move only together with the second of the last update, and when a
snapshot taken before an Interim-Update never replaces the last one before a
month whose baseline is still open.
-/

namespace RadiusModule.QuotaWindows
open Library QuotaPeriod Binary64

def Ticks (rows rows' : List Radacct) : Prop :=
  ∀ r ∈ rows, ∀ r' ∈ rows', r'.radacctid = r.radacctid → (∃ d, octets r d ≠ octets r' d) →
    ∀ u ∈ seen r, ∃ u' ∈ seen r', u < u'

/-- What keeps the snapshots faithful: reads that look at crossing sessions, counters of at
most 53 bits, updates that tick, and pre-interim snapshots inside a month only once the month
has its baseline. -/
def Kept (cal : Calendar) (s : World) (m : Move) : Prop :=
  match m with
  | .rows _ t => Ticks s.table.rows t.rows
  | .read now =>
    readsStraddles cal now s.state = true ∧ ∀ r ∈ s.table.rows, ∀ d, octets r d ≤ 2 ^ 53
  | .preInterim now row =>
    ∀ start upd, crossing (cal.start .monthly now) row = some (start, upd) →
      upd ≤ cal.start .daily now →
        ∃ b ∈ (s.marks row.radacctid).base .monthly, b.key = cal.key .monthly now
  | _ => True

def Exact (s : World) : Prop :=
  ∀ r ∈ s.table.rows, ∀ τ ∈ (s.marks r.radacctid).snapAt, τ ∈ seen r →
    ∀ d, (s.marks r.radacctid).snap d = octets r d

theorem row_of_new_row {s : World} {clock now : ℤ} {t : RadacctTable} {cal : Calendar}
    (h : WellFormed cal s) (he : Evolves clock now s.table.rows t.rows) {r' : Radacct}
    (hr' : r' ∈ t.rows) :
    (∃ r ∈ s.table.rows, RowGrows clock r r') ∨ s.marks r'.radacctid = {} := by
  obtain ⟨⟨olds, news, hrows, hgrow, -⟩, -⟩ := he
  rcases List.mem_append.mp (hrows ▸ hr' : r' ∈ olds ++ news) with hmem | hmem
  · exact Or.inl (exists_mem_left hgrow hmem)
  · refine Or.inr (h.unmarked _ fun r hr hid => ?_)
    obtain ⟨q, hq, hrel⟩ := exists_mem_right hgrow hr
    have hsorted := t.sorted
    rw [hrows] at hsorted
    have := (List.pairwise_append.mp hsorted).2.2 q hq r' hmem
    rw [hrel.id, hid] at this
    exact lt_irrefl _ this

theorem exact_step {cal : Calendar} {s : World} (h : WellFormed cal s) (hx : Exact s) {m : Move}
    (hm : Allowed s m) (hk : Kept cal s m) : Exact (s.step cal m) := by
  cases m with
  | resetDaily now => exact hx
  | newPeriod now reason => exact hx
  | rows now t =>
    intro r' hr' τ hτ hseen d
    simp only [World.step] at hr' hτ ⊢
    rcases row_of_new_row h hm.2 hr' with ⟨r, hr, hg⟩ | hnone
    · rw [hg.id] at hτ ⊢
      obtain ⟨⟨u, hu, hle⟩, -⟩ := h.snapshots r hr τ hτ
      obtain ⟨u', hu', hle'⟩ := hg.seen u hu
      obtain rfl : u' = τ := Option.some.inj (hu'.symm.trans hseen)
      obtain rfl : u = u' := le_antisymm hle' hle
      rw [hx r hr u hτ hu d]
      by_contra hne
      obtain ⟨v, hv, hlt⟩ := hk r hr r' hr' hg.id ⟨d, hne⟩ u hu
      obtain rfl : v = u := Option.some.inj (hv.symm.trans hseen)
      exact lt_irrefl _ hlt
    · simp [hnone] at hτ
  | read now =>
    intro r hr τ hτ hseen d
    simp only [World.step] at hr hτ ⊢
    rcases read_marks cal s now r.radacctid with hsame | ⟨r', hr', hid, hread⟩
    · rw [hsame] at hτ ⊢
      exact hx r hr τ hτ hseen d
    · obtain rfl := s.table.eq_of_key_eq hr' hr hid
      rw [hread] at hτ ⊢
      rcases readMark_snap cal now (s.marks r'.radacctid) r' with ⟨hat, hsnap, -⟩ |
        ⟨upd, -, -, hsnap⟩
      · rw [hat] at hτ
        rw [hsnap]
        exact hx r' hr τ hτ hseen d
      · rw [hsnap]
  | preInterim now row =>
    intro r hr τ hτ hseen d
    simp only [World.step] at hr hτ ⊢
    rcases preInterim_marks cal now s.marks row r.radacctid with hsame |
      ⟨hid, start, upd, -, -, -, -, hnote⟩
    · rw [hsame] at hτ ⊢
      exact hx r hr τ hτ hseen d
    · obtain rfl := s.table.eq_of_key_eq hr hm.2.1 hid
      rw [hnote]

theorem exact_of_fresh {s : World} (h : s.Fresh) : Exact s :=
  fun r _ τ hτ => by simp [h.marks] at hτ

theorem closed_run {cal : Calendar} {s : World} {moves : List Move} (h : WellFormed cal s)
    (hm : Run.Along Allowed (World.step cal) s moves) {r : Radacct} (hr : r ∈ s.table.rows)
    (hclosed : isOpen r = false) : r ∈ (runMoves cal s moves).table.rows := by
  induction moves generalizing s with
  | nil => exact hr
  | cons m moves ih =>
    refine ih (wellFormed_step h hm.1) hm.2 ?_
    cases m with
    | rows now t =>
      obtain ⟨⟨olds, news, hrows, hgrow, -⟩, -⟩ := hm.1.2
      obtain ⟨r', hmem, hg⟩ := exists_mem_right hgrow hr
      rw [hg.closed hclosed] at hmem
      exact (hrows ▸ List.mem_append_left news hmem : r ∈ t.rows)
    | _ => exact hr

/-- The window of `now₂` cannot get a baseline of session `i` below `c`: it has one, or the last
snapshot before its start already holds `c`. -/
def Held (cal : Calendar) (w : Window) (now₂ start : ℤ) (i : ℕ) (d : Direction) (c : ℕ)
    (s : World) : Prop :=
  (cal.start w now₂ ≤ cal.start w s.clock ∧
      ∃ b ∈ (s.marks i).base w, b.key = cal.key w now₂ ∧ c ≤ b.octets d) ∨
    (∀ b ∈ (s.marks i).base w, b.key ≠ cal.key w now₂) ∧
      ∃ τ ∈ (s.marks i).snapAt, start ≤ τ ∧ τ ≤ cal.start w now₂ ∧ c ≤ (s.marks i).snap d

structure Watched (s : World) (ws start : ℤ) (i : ℕ) (d : Direction) (c : ℕ) (r : Radacct) :
    Prop where
  mem : r ∈ s.table.rows
  id : r.radacctid = i
  begun : norm r.acctStartTime = some start
  before : start < ws
  carries : c ≤ octets r d

theorem le_freshBaseline {mark : Mark} {start upd ws τ : ℤ} {r : Radacct} {d : Direction}
    (hat : mark.snapAt = some τ) (hs : start ≤ τ) (hws : τ ≤ ws) (hle : mark.snap d ≤ octets r d)
    (hsmall : mark.snap d ≤ 2 ^ 53) : mark.snap d ≤ freshBaseline mark start upd ws r d := by
  simp only [freshBaseline, hat, hs, hws, and_self, if_true]
  exact le_interpolate hle hsmall _ _ _

theorem freshBaseline_le (mark : Mark) (start upd ws : ℤ) (r : Radacct) (d : Direction) :
    freshBaseline mark start upd ws r d ≤ octets r d := by
  simp only [freshBaseline]
  split
  · split_ifs <;> exact interpolate_le _ _ _ _ _
  · exact interpolate_le _ _ _ _ _

theorem baseline_of_other_key {mark : Mark} {w : Window} {key : String}
    (h : ∀ b ∈ mark.base w, b.key ≠ key) (start upd ws : ℤ) (r : Radacct) :
    baseline mark w key start upd ws r = ⟨key, freshBaseline mark start upd ws r⟩ := by
  simp only [baseline]
  split
  · rename_i b hb
    rw [if_neg (h b hb)]
  · rfl

theorem lt_start_of_start_lt {cal : Calendar} {w : Window} {now now₂ : ℤ}
    (h : cal.start w now < cal.start w now₂) : now < cal.start w now₂ := by
  by_contra hge
  have := cal.start_mono w _ _ (not_lt.mp hge)
  rw [cal.start_start] at this
  omega

theorem held_read {cal : Calendar} {s : World} (h : WellFormed cal s) {w : Window}
    {now now₂ start : ℤ} {i : ℕ} {d : Direction} {c : ℕ} (hclock : s.clock ≤ now)
    (hnow : now ≤ now₂) (hsmall : ∀ r ∈ s.table.rows, ∀ d, octets r d ≤ 2 ^ 53) {r : Radacct}
    (hr : Watched s (cal.start w now₂) start i d c r) (hh : Held cal w now₂ start i d c s) :
    Held cal w now₂ start i d c (s.step cal (.read now)) := by
  obtain ⟨hmem, rfl, hstart, hbefore, hc⟩ := hr
  have hmono := cal.start_mono w _ _ hclock
  have hle := cal.start_mono w _ _ hnow
  have hsnap := h.snapshots r hmem
  obtain ⟨upd, hseen, hstart_le⟩ := start_le_seen hstart
  have hpast : upd ≤ now := by
    have := (h.stamped r hmem).1 upd hseen
    have := floorSecond_le s.clock
    omega
  simp only [Held, World.step]
  rcases read_marks cal s now r.radacctid with hsame | ⟨r', hr', hid, hread⟩
  · rw [hsame]
    rcases hh with ⟨hws, hb⟩ | hright
    · exact Or.inl ⟨hws.trans hmono, hb⟩
    · exact Or.inr hright
  obtain rfl := s.table.eq_of_key_eq hr' hmem hid
  rw [hread, readMark_base]
  rcases hle.eq_or_lt with heq | hlt
  · -- the read is inside the window, so a crossing session gets its baseline now
    have hkey : cal.key w now = cal.key w now₂ := (cal.key_eq_iff w now now₂).mpr heq
    by_cases hcross : cal.start w now < upd
    · have hcr : crossing (cal.start w now) r' = some (start, upd) :=
        crossing_eq_some.mpr ⟨hstart, hseen, heq ▸ hbefore, hcross⟩
      refine Or.inl ⟨heq.ge, ?_⟩
      simp only [hcr]
      rcases hh with ⟨-, b, hb, hbk, hbc⟩ | ⟨hother, τ, hτ, hsτ, hτw, hτc⟩
      · exact ⟨b, congrArg some (baseline_of_key hb (hbk.trans hkey.symm) _ _ _ r'), hbk, hbc⟩
      · refine ⟨_, rfl, (baseline_key _ _ _ _ _ _ _).trans hkey, ?_⟩
        rw [baseline_of_other_key fun b hb => hkey ▸ hother b hb]
        exact hτc.trans (le_freshBaseline hτ hsτ (heq ▸ hτw) ((hsnap τ hτ).2 d)
          (((hsnap τ hτ).2 d).trans (hsmall r' hmem d)))
    · have hcr : crossing (cal.start w now) r' = none := by
        cases hc' : crossing (cal.start w now) r' with
        | none => rfl
        | some p =>
          obtain ⟨-, hu, -, hgt⟩ := crossing_eq_some.mp hc'
          exact absurd (Option.some.inj (hu.symm.trans hseen) ▸ hgt) hcross
      simp only [hcr]
      rcases hh with ⟨-, hb⟩ | ⟨hother, τ, hτ, hsτ, hτw, hτc⟩
      · exact Or.inl ⟨heq.ge, hb⟩
      · refine Or.inr ⟨hother, ?_⟩
        rcases readMark_snap cal now (s.marks r'.radacctid) r' with ⟨hat, hsn, -⟩ |
          ⟨u, hu, hat, hsn⟩
        · exact ⟨τ, hat ▸ hτ, hsτ, hτw, hsn ▸ hτc⟩
        · obtain rfl : u = upd := Option.some.inj (hu.symm.trans hseen)
          exact ⟨u, hat, hstart_le, heq ▸ not_lt.mp hcross, hsn ▸ hc⟩
  · -- the read is in an earlier window and only moves the snapshot on
    have hearly := lt_start_of_start_lt hlt
    have hkey : cal.key w now ≠ cal.key w now₂ := fun hk =>
      absurd ((cal.key_eq_iff w now now₂).mp hk) hlt.ne
    rcases hh with ⟨hws, -⟩ | ⟨hother, τ, hτ, hsτ, hτw, hτc⟩
    · omega
    · refine Or.inr ⟨?_, ?_⟩
      · cases crossing (cal.start w now) r' with
        | none => exact hother
        | some p =>
          intro b hb
          rw [← Option.some.inj hb, baseline_key]
          exact hkey
      · rcases readMark_snap cal now (s.marks r'.radacctid) r' with ⟨hat, hsn, -⟩ |
          ⟨u, hu, hat, hsn⟩
        · exact ⟨τ, hat ▸ hτ, hsτ, hτw, hsn ▸ hτc⟩
        · obtain rfl : u = upd := Option.some.inj (hu.symm.trans hseen)
          exact ⟨u, hat, hstart_le, by omega, hsn ▸ hc⟩

theorem held_preInterim {cal : Calendar} {s : World} (h : WellFormed cal s) {w : Window}
    {now now₂ start : ℤ} {i : ℕ} {d : Direction} {c : ℕ} {row : Radacct} (hclock : s.clock ≤ now)
    (hnow : now ≤ now₂) (hm : row ∈ s.table.rows ∧ isOpen row = true)
    (hk : Kept cal s (.preInterim now row)) {r : Radacct}
    (hr : Watched s (cal.start w now₂) start i d c r) (hh : Held cal w now₂ start i d c s) :
    Held cal w now₂ start i d c (s.step cal (.preInterim now row)) := by
  obtain ⟨hmem, rfl, hstart, hbefore, hc⟩ := hr
  have hmono := cal.start_mono w _ _ hclock
  simp only [Held, World.step]
  rcases preInterim_marks cal now s.marks row r.radacctid with hsame |
    ⟨hid, start', upd, hs', hupd, hday, hlt, hnote⟩
  · rw [hsame]
    rcases hh with ⟨hws, hb⟩ | hright
    · exact Or.inl ⟨hws.trans hmono, hb⟩
    · exact Or.inr hright
  obtain rfl := s.table.eq_of_key_eq hmem hm.1 hid
  obtain rfl : start = start' := Option.some.inj (hstart.symm.trans hs')
  rw [hnote]
  rcases hh with ⟨hws, hb⟩ | ⟨hother, τ, hτ, hsτ, hτw, hτc⟩
  · exact Or.inl ⟨hws.trans hmono, hb⟩
  refine Or.inr ⟨hother, upd, rfl, ?_, ?_, hc⟩
  · cases hu : norm r.acctUpdateTime with
    | none =>
      have heq : start = upd := by simpa [hu, hstart] using hupd
      exact heq.le
    | some v =>
      obtain rfl : v = upd := by simpa [hu] using hupd
      exact (h.stamped r hmem).2 v hu start hstart
  · by_contra hpast
    cases w with
    | daily => exact hpast (hday.trans (cal.start_mono .daily _ _ hnow))
    | monthly =>
      -- the month already has its baseline, which the second case of `Held` excludes
      have hmonth : cal.start .monthly now = cal.start .monthly now₂ := by
        refine le_antisymm (cal.start_mono _ _ _ hnow) ?_
        have hge : cal.start .monthly now₂ ≤ now :=
          (not_le.mp hpast).le.trans (hday.trans (cal.start_le .daily now))
        have := cal.start_mono .monthly _ _ hge
        rwa [cal.start_start] at this
      have hupd' : norm r.acctUpdateTime = some upd := by
        cases hu : norm r.acctUpdateTime with
        | none =>
          obtain rfl : start = upd := by simpa [hu, hstart] using hupd
          exact absurd hbefore.le hpast
        | some v => simpa [hu] using hupd
      have hseen : seen r = some upd := by
        have hle := (h.stamped r hmem).2 upd hupd' start hstart
        simp [seen, norm_stop_of_open hm.2, hupd', hstart, max_eq_left hle]
      have hcross : crossing (cal.start .monthly now) r = some (start, upd) :=
        crossing_eq_some.mpr ⟨hstart, hseen, hmonth ▸ hbefore, hmonth ▸ not_le.mp hpast⟩
      obtain ⟨b, hb, hbk⟩ := hk start upd hcross hday
      exact hother b hb (hbk.trans ((cal.key_eq_iff .monthly now now₂).mpr hmonth))

theorem held_run {cal : Calendar} {w : Window} {now₂ start : ℤ} {i : ℕ} {d : Direction} {c : ℕ}
    {moves : List Move} {s : World} (h : WellFormed cal s)
    (hm : Run.Along Allowed (World.step cal) s moves)
    (hk : Run.Along (Kept cal) (World.step cal) s moves)
    (hclock : (runMoves cal s moves).clock ≤ now₂) {r : Radacct}
    (hr : Watched s (cal.start w now₂) start i d c r) (hh : Held cal w now₂ start i d c s) :
    Held cal w now₂ start i d c (runMoves cal s moves) := by
  induction moves generalizing s r with
  | nil => exact hh
  | cons m moves ih =>
    have hstep : (s.step cal m).clock = m.now := by cases m <;> rfl
    have hnow : m.now ≤ now₂ := hstep ▸ (clock_le_run hm.2).trans hclock
    obtain ⟨r', hr', hrel⟩ := exists_later (later_step hm.1) hr.mem
    have hwatch : Watched (s.step cal m) (cal.start w now₂) start i d c r' :=
      ⟨hr', hrel.id.trans hr.id, hrel.start ▸ hr.begun, hr.before, hr.carries.trans (hrel.octets d)⟩
    refine ih (wellFormed_step h hm.1) hm.2 hk.2 hclock hwatch ?_
    have hkeep : ∀ s' : World, s'.marks = s.marks → s.clock ≤ s'.clock →
        Held cal w now₂ start i d c s' := by
      intro s' hmarks hle
      simp only [Held, hmarks]
      exact hh.imp_left fun ⟨hws, hb⟩ => ⟨hws.trans (cal.start_mono w _ _ hle), hb⟩
    cases m with
    | rows now t => exact hkeep _ rfl hm.1.1
    | resetDaily now => exact hkeep _ rfl hm.1.1
    | newPeriod now reason => exact hkeep _ rfl hm.1.1
    | read now => exact held_read h hm.1.1 hnow hk.1.2 hr hh
    | preInterim now row => exact held_preInterim h hm.1.1 hnow hm.1.2 hk.1 hr hh

theorem once {cal : Calendar} {s : World} (h : WellFormed cal s) (hx : Exact s) {now₁ now₂ : ℤ}
    {mid : List Move} (hread : Allowed s (.read now₁)) (hkread : Kept cal s (.read now₁))
    (hmid : Run.Along Allowed (World.step cal) (s.step cal (.read now₁)) mid)
    (hkmid : Run.Along (Kept cal) (World.step cal) (s.step cal (.read now₁)) mid)
    (hclock : (runMoves cal (s.step cal (.read now₁)) mid).clock ≤ now₂)
    (hsmall : ∀ r ∈ (runMoves cal (s.step cal (.read now₁)) mid).table.rows, ∀ d,
      octets r d ≤ 2 ^ 53) {w : Window} (hlt : cal.start w now₁ < cal.start w now₂) {r r' : Radacct}
    (hr : r ∈ s.userRows) (hr' : r' ∈ (runMoves cal (s.step cal (.read now₁)) mid).table.rows)
    (hid : r'.radacctid = r.radacctid) (d : Direction) :
    octets r d + straddle cal now₂
      ((runMoves cal (s.step cal (.read now₁)) mid).marks r'.radacctid) w r' d ≤ octets r' d := by
  have hmem : r ∈ s.table.rows := (List.mem_filter.mp hr).1
  have h₁ := wellFormed_step h hread
  have h₂ := wellFormed_run h₁ hmid
  obtain ⟨q, hq, hrel⟩ := exists_later (later_run hmid) hmem
  obtain rfl := Table.eq_of_key_eq _ hr' hq (hid.trans hrel.id.symm)
  have hle := hrel.octets d
  cases hc : crossing (cal.start w now₂) r' with
  | none => simpa [straddle, hc] using hle
  | some p =>
    obtain ⟨start, upd⟩ := p
    obtain ⟨hstart, hseen, hbefore, hafter⟩ := crossing_eq_some.mp hc
    have hstart₁ : norm r.acctStartTime = some start := hrel.start ▸ hstart
    have hearly := lt_start_of_start_lt hlt
    obtain ⟨u, hu, hsu⟩ := start_le_seen hstart₁
    have hpast : u ≤ now₁ := ((h.stamped r hmem).1 u hu).trans
      ((floorSecond_mono hread.1).trans (floorSecond_le now₁))
    have hopen : isOpen r = true := by
      by_contra hcl
      have hrun := closed_run h₁ hmid hmem (by simpa using hcl)
      obtain rfl := Table.eq_of_key_eq _ hr' hrun hid
      have : u = upd := Option.some.inj (hu.symm.trans hseen)
      omega
    -- the read has left a snapshot that holds the counters it saw
    have hsel : r ∈ straddleRows cal now₁ s.table s.account := mem_straddleRows hr (Or.inl hopen)
    have hmark : (s.step cal (.read now₁)).marks r.radacctid =
        readMark cal now₁ (s.marks r.radacctid) r := by
      have hreads := hkread.1
      simp only [World.state] at hreads
      simp only [World.step, World.readUsage, usage, Bool.true_and, hreads, if_true]
      exact saveMarks_of_mem cal now₁ s.table s.marks s.account hsel
    have hsnap : ∃ τ ∈ ((s.step cal (.read now₁)).marks r.radacctid).snapAt, τ ∈ seen r ∧
        octets r d ≤ ((s.step cal (.read now₁)).marks r.radacctid).snap d := by
      rw [hmark]
      rcases readMark_snap cal now₁ (s.marks r.radacctid) r with ⟨hat, hsn, hold⟩ |
        ⟨v, hv, hat, hsn⟩
      · obtain ⟨τ, hτ, hge⟩ := hold hopen u hu
        obtain ⟨v, hv, hvle⟩ := (h.snapshots r hmem τ hτ).1
        obtain rfl : v = u := Option.some.inj (hv.symm.trans hu)
        obtain rfl : τ = v := le_antisymm hvle hge
        exact ⟨τ, hat ▸ hτ, hu, by rw [hsn, hx r hmem τ hτ hu d]⟩
      · exact ⟨v, hat, hv, by rw [hsn]⟩
    obtain ⟨τ, hτ, hτseen, hτc⟩ := hsnap
    obtain rfl : τ = u := Option.some.inj (hτseen.symm.trans hu)
    have hheld : Held cal w now₂ start r.radacctid d (octets r d) (s.step cal (.read now₁)) := by
      refine Or.inr ⟨fun b hb hbk => ?_, τ, hτ, hsu, by omega, hτc⟩
      obtain ⟨t, ht, hkey⟩ := h₁.keys _ w b hb
      have hst := (cal.key_eq_iff w t now₂).mp (hkey.symm.trans hbk)
      have := cal.start_mono w _ _ (show t ≤ now₁ from ht)
      omega
    have hwatch : Watched (s.step cal (.read now₁)) (cal.start w now₂) start r.radacctid d
        (octets r d) r := ⟨hmem, rfl, hstart₁, hbefore, le_rfl⟩
    have hend := held_run h₁ hmid hkmid hclock hwatch hheld
    rw [hid]
    simp only [straddle, hc]
    rcases hend with ⟨-, b, hb, hbk, hbc⟩ | ⟨hother, τ', hτ', hsτ, hτw, hbc⟩
    · rw [baseline_of_key hb hbk]
      omega
    · have hsn := (h₂.snapshots r' hr' τ' (hid ▸ hτ')).2 d
      rw [hid] at hsn
      rw [baseline_of_other_key hother]
      have hfresh : _ ≤ freshBaseline _ start upd _ r' d :=
        le_freshBaseline hτ' hsτ hτw hsn (hsn.trans (hsmall r' hr' d))
      have := freshBaseline_le ((runMoves cal (s.step cal (.read now₁)) mid).marks r.radacctid)
        start upd (cal.start w now₂) r' d
      simp only
      omega

structure Conserves (cal : Calendar) (s : World) (moves : List Move) : Prop where
  bounded : ∀ pre now post, moves = pre ++ .read now :: post → ∀ w d,
    ((runMoves cal s pre).readUsage cal now).window w d ≤
      bytesWhere (runMoves cal s pre).userRows (overlaps (cal.start w now)) d
  monotone : ∀ pre now₁ mid now₂ post, moves = pre ++ .read now₁ :: (mid ++ .read now₂ :: post) →
    (∀ m ∈ mid, m.isReset = false) → ∀ w, cal.start w now₁ = cal.start w now₂ → ∀ d,
      ((runMoves cal s pre).readUsage cal now₁).window w d ≤
        ((runMoves cal s (pre ++ .read now₁ :: mid)).readUsage cal now₂).window w d
  between : ∀ pre now post, moves = pre ++ .read now :: post → ∀ r ∈ (runMoves cal s pre).userRows,
    ∀ w start upd, crossing (cal.start w now) r = some (start, upd) →
      (∀ b ∈ ((runMoves cal s pre).marks r.radacctid).base w, b.key ≠ cal.key w now) → ∀ d,
      let mark := (runMoves cal s pre).marks r.radacctid
      let base := baseline mark w (cal.key w now) start upd (cal.start w now) r
      base.octets d ≤ octets r d ∧
        ∀ τ ∈ mark.snapAt, start ≤ τ → τ ≤ cal.start w now → mark.snap d ≤ base.octets d
  once : ∀ pre now₁ mid now₂ post, moves = pre ++ .read now₁ :: (mid ++ .read now₂ :: post) →
    ∀ w, cal.start w now₁ < cal.start w now₂ → ∀ r ∈ (runMoves cal s pre).userRows,
      ∀ r' ∈ (runMoves cal s (pre ++ .read now₁ :: mid)).table.rows,
        r'.radacctid = r.radacctid → ∀ d,
          octets r d + straddle cal now₂
            ((runMoves cal s (pre ++ .read now₁ :: mid)).marks r'.radacctid) w r' d ≤ octets r' d

theorem exact_run {cal : Calendar} {s : World} {moves : List Move} (h : WellFormed cal s)
    (hx : Exact s) (hm : Run.Along Allowed (World.step cal) s moves)
    (hk : Run.Along (Kept cal) (World.step cal) s moves) : Exact (runMoves cal s moves) := by
  induction moves generalizing s with
  | nil => exact hx
  | cons m moves ih =>
    exact ih (wellFormed_step h hm.1) (exact_step h hx hm.1 hk.1) hm.2 hk.2

/-- In a run that keeps the snapshots faithful, daily and monthly usage is bounded, monotone
and counts no byte twice. -/
theorem usage_conserves (cal : Calendar) (s : World) (hs : s.Fresh) (moves : List Move)
    (hm : Run.Along Allowed (World.step cal) s moves)
    (hk : Run.Along (Kept cal) (World.step cal) s moves) : Conserves cal s moves := by
  have hwf : WellFormed cal s := wellFormed_of_fresh hs
  constructor
  · rintro pre now post rfl w d
    exact usage_le_overlapping (wellFormed_run hwf (Run.along_append.mp hm).1) now w d
  · rintro pre now₁ mid now₂ post rfl hno w hsame d
    have hm' := (Run.along_append.mp hm).2
    have hmid := Run.along_append.mp hm'.2
    have hrun : runMoves cal s (pre ++ .read now₁ :: mid) =
        runMoves cal ((runMoves cal s pre).step cal (.read now₁)) mid := by
      simp [runMoves, Run.run]
    rw [hrun]
    exact usage_mono hmid.1 hno hmid.2.1.1 hsame d
  · rintro pre now post rfl r hr w start upd hc hother d
    have hw := wellFormed_run hwf (Run.along_append.mp hm).1
    have hmem : r ∈ (runMoves cal s pre).table.rows := (List.mem_filter.mp hr).1
    have hsmall := (Run.along_append.mp hk).2.1.2 r hmem d
    simp only [baseline_of_other_key hother]
    refine ⟨freshBaseline_le _ _ _ _ _ _, fun τ hτ hsτ hτw => ?_⟩
    have hle := (hw.snapshots r hmem τ hτ).2 d
    exact le_freshBaseline hτ hsτ hτw hle (hle.trans hsmall)
  · rintro pre now₁ mid now₂ post rfl w hlt r hr r' hr' hid d
    have hm' := Run.along_append.mp hm
    have hk' := Run.along_append.mp hk
    have hmid := Run.along_append.mp hm'.2.2
    have hkmid := Run.along_append.mp hk'.2.2
    have hrun : runMoves cal s (pre ++ .read now₁ :: mid) =
        runMoves cal ((runMoves cal s pre).step cal (.read now₁)) mid := by
      simp [runMoves, Run.run]
    rw [hrun] at hr' ⊢
    exact once (wellFormed_run hwf hm'.1) (exact_run hwf (exact_of_fresh hs) hm'.1 hk'.1)
      hm'.2.1 hk'.2.1 hmid.1 hkmid.1 hmid.2.1.1 hkmid.2.1.2 hlt hr hr' hid d

def sampleLength : Window → ℤ
  | .daily => 86400 * second
  | .monthly => 31 * (86400 * second)

def sampleStart (w : Window) (t : ℤ) : ℤ := t / sampleLength w * sampleLength w

def sampleKey (w : Window) (t : ℤ) : String :=
  String.ofList (List.replicate (Equiv.intEquivNat (t / sampleLength w)) '#')

theorem sampleStart_le (w : Window) (t : ℤ) : sampleStart w t ≤ t :=
  Int.ediv_mul_le t (by cases w <;> decide)

theorem sampleStart_mono (w : Window) (s t : ℤ) (h : s ≤ t) : sampleStart w s ≤ sampleStart w t := by
  cases w <;> simp only [sampleStart, sampleLength, second] <;> omega

theorem sampleStart_start (w : Window) (t : ℤ) :
    sampleStart w (sampleStart w t) = sampleStart w t := by
  cases w <;> simp only [sampleStart, sampleLength, second] <;> omega

theorem sampleStart_whole (w : Window) (t : ℤ) : floorSecond (sampleStart w t) = sampleStart w t := by
  cases w <;> simp only [sampleStart, sampleLength, second, floorSecond] <;> omega

theorem sampleStart_month_le_day (t : ℤ) : sampleStart .monthly t ≤ sampleStart .daily t := by
  simp only [sampleStart, sampleLength, second]
  omega

theorem sampleKey_eq_iff (w : Window) (s t : ℤ) :
    sampleKey w s = sampleKey w t ↔ sampleStart w s = sampleStart w t := by
  have hpos : 0 < sampleLength w := by cases w <;> decide
  constructor
  · intro h
    have hl := congrArg (fun k => k.toList.length) h
    simp only [sampleKey, String.toList_ofList, List.length_replicate] at hl
    simp only [sampleStart, Equiv.intEquivNat.injective hl]
  · intro h
    rw [sampleKey, sampleKey, mul_right_cancel₀ hpos.ne' h]

def sampleCalendar : Calendar where
  start := sampleStart
  key := sampleKey
  start_le := sampleStart_le
  start_mono := sampleStart_mono
  start_start := sampleStart_start
  start_whole := sampleStart_whole
  month_le_day := sampleStart_month_le_day
  key_eq_iff := sampleKey_eq_iff

/-- A session of user `u1` that began at 23:00 of the first day. -/
def sampleRow (updated : ℤ) (bytes : ℕ) : Radacct :=
  { radacctid := 1, tenantId := 1, username := "u1"
    acctStartTime := .instant (82800 * second), acctUpdateTime := .instant (updated * second)
    acctInputOctets := bytes }

def sampleTable (updated : ℤ) (bytes : ℕ) : RadacctTable :=
  Table.empty.insert (fun n => { sampleRow updated bytes with radacctid := n }) fun _ => rfl

def sampleWorld : World := ⟨.empty, fun _ => {}, ⟨1, "u1", {}, none⟩, 0⟩

theorem sampleWorld_fresh : sampleWorld.Fresh := ⟨rfl, rfl, by simp [sampleWorld]⟩

theorem seen_sampleRow {updated : ℤ} (h : 82800 ≤ updated) (bytes : ℕ) :
    seen (sampleRow updated bytes) = some (updated * second) := by
  have : max (updated * second) (82800 * second) = updated * second := by
    simp only [second]
    omega
  simp [seen, sampleRow, norm, Stamp.time?, floorSecond, second] at this ⊢
  omega

theorem stamped_sampleRow {now updated : ℤ} (h : 82800 ≤ updated) (hnow : updated ≤ now)
    (bytes : ℕ) : Stamped (now * second) (sampleRow updated bytes) := by
  refine ⟨fun u hu => ?_, fun upd hupd start hstart => ?_⟩
  · rw [seen_sampleRow h] at hu
    obtain rfl := Option.some.inj hu
    simp only [floorSecond, second]
    omega
  · simp [sampleRow, norm, Stamp.time?, floorSecond, second] at hupd hstart
    omega

theorem allowed_first {s : World} (hc : s.clock ≤ 85800 * second) (ht : s.table.rows = []) :
    Allowed s (.rows (85800 * second) (sampleTable 85800 1000)) := by
  refine ⟨hc, ⟨[], [sampleRow 85800 1000], rfl, by rw [ht]; exact .nil, ?_⟩, ?_⟩
  · intro r hr
    obtain rfl := List.mem_singleton.mp hr
    exact ⟨_, seen_sampleRow (by decide) 1000, (floorSecond_le _).trans hc⟩
  · intro r hr
    obtain rfl := List.mem_singleton.mp hr
    exact stamped_sampleRow (by decide) le_rfl 1000

theorem rowGrows_sample :
    RowGrows (86100 * second) (sampleRow 85800 1000) (sampleRow 90000 1600) where
  id := rfl
  tenant := rfl
  username := rfl
  start := rfl
  octets := fun d => by cases d <;> decide
  seen := fun u hu => by
    rw [seen_sampleRow (by decide)] at hu
    obtain rfl := Option.some.inj hu
    exact ⟨_, seen_sampleRow (by decide) 1600, by decide⟩
  stamped := fun _ => ⟨_, seen_sampleRow (by decide) 1600, by decide⟩
  closed := fun h => by cases h

theorem allowed_growth {s : World} (hc : s.clock = 86100 * second)
    (ht : s.table.rows = [sampleRow 85800 1000]) :
    Allowed s (.rows (90000 * second) (sampleTable 90000 1600)) := by
  refine ⟨by rw [hc]; decide, ⟨[sampleRow 90000 1600], [], rfl, ?_, by simp⟩, ?_⟩
  · rw [ht, hc]
    exact .cons rowGrows_sample .nil
  · intro r hr
    obtain rfl := List.mem_singleton.mp hr
    exact stamped_sampleRow (by decide) le_rfl 1600

def sampleReads : List Move :=
  [.rows (85800 * second) (sampleTable 85800 1000), .read (86100 * second),
    .rows (90000 * second) (sampleTable 90000 1600), .read (90000 * second)]

theorem usage_conserves_sampleReads : Conserves sampleCalendar sampleWorld sampleReads := by
  have hsmall : ∀ updated bytes, bytes ≤ 2 ^ 53 → ∀ r ∈ (sampleTable updated bytes).rows, ∀ d,
      octets r d ≤ 2 ^ 53 := by
    intro updated bytes hb r hr d
    obtain rfl := List.mem_singleton.mp hr
    cases d
    · exact hb
    · exact Nat.zero_le _
  refine usage_conserves sampleCalendar sampleWorld sampleWorld_fresh sampleReads
    ⟨allowed_first (by decide) rfl, ⟨by decide, trivial⟩, allowed_growth rfl rfl,
      ⟨by decide, trivial⟩, trivial⟩
    ⟨?_, ⟨rfl, hsmall _ _ (by norm_num)⟩, ?_, ⟨rfl, hsmall _ _ (by norm_num)⟩, trivial⟩
  · intro r hr
    cases hr
  · intro r hr r' hr' _ _ u hu
    obtain rfl : r = sampleRow 85800 1000 := List.mem_singleton.mp hr
    obtain rfl : r' = sampleRow 90000 1600 := List.mem_singleton.mp hr'
    rw [seen_sampleRow (by decide)] at hu
    obtain rfl := Option.some.inj hu
    exact ⟨_, seen_sampleRow (by decide) 1600, by decide⟩

theorem interpolate_half : interpolate (82800 * second) 0 (90000 * second) 1600 (86400 * second) =
    800 := by
  have hhalf : fl (1 / 2) = 1 / 2 := by
    have := fl_of_dyadic (m := 1) (by norm_num) (-1)
    norm_num at this ⊢
    exact this
  have h0 : fl 0 = 0 := by simpa using fl_natCast (n := 0) (by norm_num)
  have h1600 : fl 1600 = 1600 := by exact_mod_cast fl_natCast (n := 1600) (by norm_num)
  have h800 : fl 800 = 800 := by exact_mod_cast fl_natCast (n := 800) (by norm_num)
  have hround : roundHalfEven 800 = 800 := by exact_mod_cast roundHalfEven_intCast 800
  norm_num [interpolate, second, hhalf, h0, h1600, h800, hround]
  rfl

/-- A renewal on the same day keeps the reads of that day away from the snapshots. The next
day then starts from a baseline below what the first has counted. -/
theorem renewal_day_counted_twice :
    sampleWorld.Fresh ∧
      Run.Along Allowed (World.step sampleCalendar) sampleWorld
        (.newPeriod (36000 * second) "renewal" :: sampleReads) ∧
      ¬Conserves sampleCalendar sampleWorld
        (.newPeriod (36000 * second) "renewal" :: sampleReads) := by
  refine ⟨sampleWorld_fresh, ⟨⟨by decide, trivial⟩, allowed_first (by decide) rfl,
    ⟨by decide, trivial⟩, allowed_growth rfl rfl, ⟨by decide, trivial⟩, trivial⟩, fun h => ?_⟩
  have htwice := h.once
    [.newPeriod (36000 * second) "renewal", .rows (85800 * second) (sampleTable 85800 1000)]
    (86100 * second) [.rows (90000 * second) (sampleTable 90000 1600)] (90000 * second) [] rfl
    .daily (by decide) (sampleRow 85800 1000) (List.mem_singleton.mpr rfl) (sampleRow 90000 1600)
    (List.mem_singleton.mpr rfl) rfl .input
  have hmark : (runMoves sampleCalendar sampleWorld
      [.newPeriod (36000 * second) "renewal", .rows (85800 * second) (sampleTable 85800 1000),
        .read (86100 * second), .rows (90000 * second) (sampleTable 90000 1600)]).marks 1 = {} :=
    rfl
  have hcross : crossing (86400 * second) (sampleRow 90000 1600) =
      some (82800 * second, 90000 * second) := by decide
  have hstart : sampleCalendar.start .daily (90000 * second) = 86400 * second := by decide
  have hid : (sampleRow 90000 1600).radacctid = 1 := rfl
  simp only [List.cons_append, List.nil_append, hid, hmark, straddle, hstart, hcross, baseline,
    freshBaseline] at htwice
  have hbase : interpolate (82800 * second) 0 (90000 * second)
      (octets (sampleRow 90000 1600) .input) (86400 * second) = 800 := interpolate_half
  rw [hbase] at htwice
  exact absurd htwice (by decide)

end RadiusModule.QuotaWindows
