import RadiusModule.Services.QuotaWindows

/-!
# Usage over whole runs

The accounting side moves the rows on while reads, pre-interim snapshots and
resets act on the marks and the state of one subscriber. A run is allowed when
the clock never goes back and the counters of sessions only grow. Four facts
about its reads: the usage of a window never exceeds the bytes of the sessions
that overlap it, it never decreases inside the window, a fixed baseline lies
between the last snapshot and the current reading, and no byte is counted in
two windows.
-/

namespace RadiusModule.QuotaWindows
open Library QuotaPeriod

structure World where
  table : RadacctTable
  marks : Marks
  account : Account
  clock : ℤ

inductive Move
  | rows (now : ℤ) (table : RadacctTable)
  | read (now : ℤ)
  | preInterim (now : ℤ) (row : Radacct)
  | resetDaily (now : ℤ)
  | newPeriod (now : ℤ) (reason : String)

def Move.now : Move → ℤ
  | .rows now _ | .read now | .preInterim now _ | .resetDaily now | .newPeriod now _ => now

def Move.isReset : Move → Bool
  | .resetDaily _ | .newPeriod _ _ => true
  | _ => false

namespace World

def userRows (s : World) : List Radacct :=
  usernameRows s.table s.account.tenantId s.account.username

def state (s : World) : QuotaState := s.account.state.getD {}

def readUsage (cal : Calendar) (s : World) (now : ℤ) : Usage :=
  usage cal now s.table s.marks s.account true

def step (cal : Calendar) (s : World) : Move → World
  | .rows now table => { s with table := table, clock := now }
  | .read now => { s with marks := (s.readUsage cal now).marks, clock := now }
  | .preInterim now row => { s with marks := notePreInterim cal now s.marks row, clock := now }
  | .resetDaily now =>
    { s with account := QuotaPeriod.resetDaily s.table now s.account, clock := now }
  | .newPeriod now reason =>
    { s with account := startNewPeriod s.table now reason s.account, clock := now }

end World

structure RowLater (r r' : Radacct) : Prop where
  id : r'.radacctid = r.radacctid
  tenant : r'.tenantId = r.tenantId
  username : r'.username = r.username
  start : r'.acctStartTime = r.acctStartTime
  octets : ∀ d, octets r d ≤ octets r' d
  seen : ∀ u ∈ seen r, ∃ u' ∈ QuotaWindows.seen r', u ≤ u'

/-- One move of a row: counters that grow are stamped at or after the clock, and a closed
session stays as it is. -/
structure RowGrows (clock : ℤ) (r r' : Radacct) : Prop extends RowLater r r' where
  stamped : (∃ d, QuotaWindows.octets r d ≠ QuotaWindows.octets r' d) →
    ∃ u ∈ QuotaWindows.seen r', floorSecond clock ≤ u
  closed : isOpen r = false → r' = r

def Stamped (now : ℤ) (r : Radacct) : Prop :=
  (∀ u ∈ seen r, u ≤ floorSecond now) ∧
    ∀ upd ∈ norm r.acctUpdateTime, ∀ start ∈ norm r.acctStartTime, start ≤ upd

def Evolves (clock now : ℤ) (rows rows' : List Radacct) : Prop :=
  (∃ olds news, rows' = olds ++ news ∧ List.Forall₂ (RowGrows clock) rows olds ∧
    ∀ r ∈ news, ∃ u ∈ seen r, floorSecond clock ≤ u) ∧
  ∀ r ∈ rows', Stamped now r

def Allowed (s : World) (m : Move) : Prop :=
  s.clock ≤ m.now ∧
    match m with
    | .rows now table => Evolves s.clock now s.table.rows table.rows
    | .preInterim _ row => row ∈ s.table.rows ∧ isOpen row = true
    | _ => True

structure World.Fresh (s : World) : Prop where
  marks : s.marks = fun _ => {}
  state : s.account.state = none
  rows : ∀ r ∈ s.table.rows, Stamped s.clock r

abbrev runMoves (cal : Calendar) (s : World) (moves : List Move) : World :=
  Run.run (World.step cal) s moves

theorem RowLater.refl (r : Radacct) : RowLater r r :=
  ⟨rfl, rfl, rfl, rfl, fun _ => le_rfl, fun u hu => ⟨u, hu, le_rfl⟩⟩

theorem RowLater.trans {a b c : Radacct} (hab : RowLater a b) (hbc : RowLater b c) :
    RowLater a c where
  id := hbc.id.trans hab.id
  tenant := hbc.tenant.trans hab.tenant
  username := hbc.username.trans hab.username
  start := hbc.start.trans hab.start
  octets := fun d => (hab.octets d).trans (hbc.octets d)
  seen := fun u hu => by
    obtain ⟨v, hv, huv⟩ := hab.seen u hu
    obtain ⟨x, hx, hvx⟩ := hbc.seen v hv
    exact ⟨x, hx, huv.trans hvx⟩

instance : Std.Refl RowLater := ⟨RowLater.refl⟩

instance : IsTrans Radacct RowLater := ⟨fun _ _ _ => RowLater.trans⟩

abbrev Later (rows rows' : List Radacct) : Prop := List.SublistForall₂ RowLater rows rows'

theorem later_of_evolves {clock now : ℤ} {rows rows' : List Radacct}
    (h : Evolves clock now rows rows') : Later rows rows' := by
  obtain ⟨⟨olds, news, rfl, hgrow, -⟩, -⟩ := h
  exact List.sublistForall₂_iff.mpr
    ⟨olds, hgrow.imp fun _ _ hr => hr.toRowLater, List.sublist_append_left olds news⟩

theorem later_filter {rows rows' : List Radacct} (h : Later rows rows') {p : Radacct → Bool}
    (hp : ∀ r r', RowLater r r' → p r' = p r) : Later (rows.filter p) (rows'.filter p) := by
  induction h with
  | nil => exact .nil
  | @cons a b l l' hab _ ih =>
    by_cases ha : p a = true
    · simpa [ha, hp a b hab] using List.SublistForall₂.cons hab ih
    · simpa [ha, hp a b hab] using ih
  | @cons_right b l l' _ ih =>
    by_cases hb : p b = true
    · simpa [hb] using List.SublistForall₂.cons_right ih
    · simpa [hb] using ih

theorem later_sum {rows rows' : List Radacct} (h : Later rows rows') {f g : Radacct → ℕ}
    (hfg : ∀ r ∈ rows, ∀ r' ∈ rows', RowLater r r' → f r ≤ g r') :
    (rows.map f).sum ≤ (rows'.map g).sum := by
  induction h with
  | nil => exact Nat.zero_le _
  | @cons a b l l' hab _ ih =>
    have htail := ih fun r hr r' hr' =>
      hfg r (List.mem_cons_of_mem _ hr) r' (List.mem_cons_of_mem _ hr')
    have hhead := hfg a List.mem_cons_self b List.mem_cons_self hab
    simp only [List.map_cons, List.sum_cons]
    omega
  | @cons_right b l l' _ ih =>
    have htail := ih fun r hr r' hr' => hfg r hr r' (List.mem_cons_of_mem _ hr')
    simp only [List.map_cons, List.sum_cons]
    omega

def BaseOk (clock : ℤ) (rows : List Radacct) (reset : Stamp) (base : Direction → ℕ) : Prop :=
  ∀ τ ∈ norm reset, τ ≤ floorSecond clock ∧
    ∀ d, bytesWhere rows (fun r => !overlaps τ r) d ≤ base d

structure WellFormed (cal : Calendar) (s : World) : Prop where
  stamped : ∀ r ∈ s.table.rows, Stamped s.clock r
  daily : BaseOk s.clock s.userRows s.state.dailyResetAt (QuotaState.dailyBase s.state)
  period : BaseOk s.clock s.userRows s.state.periodStart (QuotaState.periodBase s.state)
  snapshots : ∀ r ∈ s.table.rows, ∀ τ ∈ (s.marks r.radacctid).snapAt,
    (∃ u ∈ seen r, τ ≤ u) ∧ ∀ d, (s.marks r.radacctid).snap d ≤ octets r d
  keys : ∀ i w, ∀ b ∈ (s.marks i).base w, ∃ t ≤ s.clock, b.key = cal.key w t
  unmarked : ∀ i, (∀ r ∈ s.table.rows, r.radacctid ≠ i) → s.marks i = {}

theorem wellFormed_of_fresh {cal : Calendar} {s : World} (h : s.Fresh) : WellFormed cal s where
  stamped := h.rows
  daily := fun τ hτ => by simp [World.state, h.state, norm, Stamp.time?] at hτ
  period := fun τ hτ => by simp [World.state, h.state, norm, Stamp.time?] at hτ
  snapshots := fun r _ τ hτ => by simp [h.marks] at hτ
  keys := fun i w b hb => by simp [h.marks] at hb
  unmarked := fun i _ => by simp [h.marks]

theorem bytesWhere_filter (rows : List Radacct) (p q : Radacct → Bool) (d : Direction) :
    bytesWhere (rows.filter p) q d =
      (rows.map fun r => if q r && p r then octets r d else 0).sum := by
  rw [← bytesWhere_eq, bytesWhere, bytesWhere, List.filter_filter]

theorem overlaps_mono {τ : ℤ} {r r' : Radacct} (h : RowLater r r') (ho : overlaps τ r = true) :
    overlaps τ r' = true := by
  obtain ⟨u, hu, hle⟩ := overlaps_iff.mp ho
  obtain ⟨u', hu', hle'⟩ := h.seen u hu
  exact overlaps_iff.mpr ⟨u', hu', hle.trans hle'⟩

theorem bytesWhere_le_of_evolves {clock now τ : ℤ} {rows rows' : List Radacct} {p : Radacct → Bool}
    (hp : ∀ r r', RowLater r r' → p r' = p r) (h : Evolves clock now rows rows')
    (hτ : τ ≤ floorSecond clock) (d : Direction) :
    bytesWhere (rows'.filter p) (fun r => !overlaps τ r) d ≤
      bytesWhere (rows.filter p) (fun r => !overlaps τ r) d := by
  obtain ⟨⟨olds, news, rfl, hgrow, hnews⟩, -⟩ := h
  simp only [bytesWhere_filter, List.map_append, List.sum_append]
  have hzero : (news.map fun r => if !overlaps τ r && p r then octets r d else 0).sum = 0 := by
    refine List.sum_eq_zero fun x hx => ?_
    obtain ⟨r, hr, rfl⟩ := List.mem_map.mp hx
    obtain ⟨u, hu, hle⟩ := hnews r hr
    simp [overlaps_iff.mpr ⟨u, hu, hτ.trans hle⟩]
  rw [hzero, Nat.add_zero]
  refine List.Forall₂.sum_le_sum (List.forall₂_map_left_iff.mpr (List.forall₂_map_right_iff.mpr
    (hgrow.flip.imp fun r' r hr => ?_)))
  by_cases hdrop : overlaps τ r' = true
  · simp [hdrop]
  · have hsame : octets r' d = octets r d := by
      by_contra hne
      obtain ⟨u, hu, hle⟩ := hr.stamped ⟨d, Ne.symm hne⟩
      exact hdrop (overlaps_iff.mpr ⟨u, hu, hτ.trans hle⟩)
    have hold : overlaps τ r = false := by
      by_contra ho
      exact hdrop (overlaps_mono hr.toRowLater (by simpa using ho))
    simp [hdrop, hold, hsame, hp r r' hr.toRowLater]

theorem baseOk_mono {clock clock' : ℤ} (h : clock ≤ clock') {rows : List Radacct} {reset : Stamp}
    {base : Direction → ℕ} (hb : BaseOk clock rows reset base) : BaseOk clock' rows reset base :=
  fun τ hτ => ⟨(hb τ hτ).1.trans (floorSecond_mono h), (hb τ hτ).2⟩

theorem baseOk_reset (now : ℤ) (rows : List Radacct) {base : Direction → ℕ}
    (hbase : ∀ d, base d = (rows.map fun r => octets r d).sum) :
    BaseOk now rows (.instant (floorSecond now)) base := by
  intro τ hτ
  obtain rfl : floorSecond now = τ := by simpa [norm, Stamp.time?] using hτ
  refine ⟨le_rfl, fun d => ?_⟩
  rw [bytesWhere_eq, hbase]
  refine List.sum_le_sum fun r _ => ?_
  split_ifs
  · exact le_rfl
  · exact Nat.zero_le _

theorem user_later (a : Account) {r r' : Radacct} (h : RowLater r r') :
    (decide (r'.tenantId = a.tenantId) && decide (r'.username = a.username)) =
      (decide (r.tenantId = a.tenantId) && decide (r.username = a.username)) := by
  rw [h.tenant, h.username]

theorem exists_mem_left {R : Radacct → Radacct → Prop} {l l' : List Radacct}
    (h : List.Forall₂ R l l') {r' : Radacct} (hr : r' ∈ l') : ∃ r ∈ l, R r r' := by
  induction h with
  | nil => cases hr
  | @cons a b l l' hab _ ih =>
    rcases List.mem_cons.mp hr with rfl | hr
    · exact ⟨a, List.mem_cons_self, hab⟩
    · obtain ⟨r, hmem, hrel⟩ := ih hr
      exact ⟨r, List.mem_cons_of_mem _ hmem, hrel⟩

theorem exists_mem_right {R : Radacct → Radacct → Prop} {l l' : List Radacct}
    (h : List.Forall₂ R l l') {r : Radacct} (hr : r ∈ l) : ∃ r' ∈ l', R r r' :=
  exists_mem_left h.flip hr

theorem exists_later {rows rows' : List Radacct} (h : Later rows rows') {r : Radacct}
    (hr : r ∈ rows) : ∃ r' ∈ rows', RowLater r r' := by
  obtain ⟨l, hall, hsub⟩ := List.sublistForall₂_iff.mp h
  obtain ⟨r', hmem, hrel⟩ := exists_mem_right hall hr
  exact ⟨r', hsub.subset hmem, hrel⟩

theorem read_marks (cal : Calendar) (s : World) (now : ℤ) (i : ℕ) :
    (s.readUsage cal now).marks i = s.marks i ∨
      ∃ r ∈ s.table.rows, r.radacctid = i ∧
        (s.readUsage cal now).marks i = readMark cal now (s.marks i) r := by
  simp only [World.readUsage, usage]
  split_ifs
  · by_cases h : ∃ r ∈ straddleRows cal now s.table s.account, r.radacctid = i
    · obtain ⟨r, hr, rfl⟩ := h
      refine Or.inr ⟨r, ?_, rfl, saveMarks_of_mem cal now s.table s.marks s.account hr⟩
      exact (List.mem_filter.mp ((straddleRows_sublist cal now s.table s.account).subset hr)).1
    · exact Or.inl (saveMarks_of_not_mem cal now s.table s.marks s.account fun r hr hi =>
        h ⟨r, hr, hi⟩)
  · exact Or.inl rfl

theorem preInterim_marks (cal : Calendar) (now : ℤ) (marks : Marks) (row : Radacct) (i : ℕ) :
    notePreInterim cal now marks row i = marks i ∨
      i = row.radacctid ∧
        ∃ start upd, norm row.acctStartTime = some start ∧
          (norm row.acctUpdateTime <|> norm row.acctStartTime) = some upd ∧
          upd ≤ cal.start .daily now ∧ start < cal.start .daily now ∧
          notePreInterim cal now marks row i =
            { marks row.radacctid with snapAt := some upd, snap := octets row } := by
  simp only [notePreInterim]
  cases hs : norm row.acctStartTime with
  | none => exact Or.inl rfl
  | some start =>
    cases hu : (norm row.acctUpdateTime <|> some start) with
    | none => exact Or.inl rfl
    | some upd =>
      simp only
      split_ifs with h
      · by_cases hi : i = row.radacctid
        · exact Or.inr ⟨hi, start, upd, rfl, rfl, h.1, h.2, by simp [Marks.set, hi]⟩
        · exact Or.inl (by simp [Marks.set, hi])
      · exact Or.inl rfl

theorem norm_stop_of_open {r : Radacct} (h : isOpen r = true) : norm r.acctStopTime = none := by
  cases hs : r.acctStopTime with
  | null => rfl
  | blank => rfl
  | instant t => simp [isOpen, hs, Stamp.isOpen] at h

theorem le_seen_of_open {r : Radacct} (h : isOpen r = true) {upd : ℤ}
    (hu : (norm r.acctUpdateTime <|> norm r.acctStartTime) = some upd) :
    ∃ u ∈ seen r, upd ≤ u := by
  simp only [seen, norm_stop_of_open h]
  cases hupd : norm r.acctUpdateTime with
  | none =>
    have hstart : norm r.acctStartTime = some upd := by simpa [hupd] using hu
    exact ⟨upd, by simp [hstart], le_rfl⟩
  | some v =>
    obtain rfl : v = upd := by simpa [hupd] using hu
    cases norm r.acctStartTime with
    | none => exact ⟨v, rfl, le_rfl⟩
    | some start => exact ⟨max v start, rfl, le_max_left _ _⟩

theorem Stamped.mono {clock now : ℤ} (h : clock ≤ now) {r : Radacct} (hr : Stamped clock r) :
    Stamped now r := ⟨fun u hu => (hr.1 u hu).trans (floorSecond_mono h), hr.2⟩

theorem wellFormed_rows {cal : Calendar} {s : World} (h : WellFormed cal s) {now : ℤ}
    {t : RadacctTable} (hnow : s.clock ≤ now)
    (he : Evolves s.clock now s.table.rows t.rows) :
    WellFormed cal (s.step cal (.rows now t)) := by
  have hbase : ∀ reset base, BaseOk s.clock s.userRows reset base →
      BaseOk now (usernameRows t s.account.tenantId s.account.username) reset base := by
    intro reset base hb τ hτ
    obtain ⟨hle, hbytes⟩ := hb τ hτ
    refine ⟨hle.trans (floorSecond_mono hnow), fun d => ?_⟩
    exact (bytesWhere_le_of_evolves (fun _ _ => user_later s.account) he hle d).trans (hbytes d)
  obtain ⟨⟨olds, news, hrows, hgrow, -⟩, hstamped⟩ := he
  have hold : ∀ i, (∀ r' ∈ olds, r'.radacctid ≠ i) → s.marks i = {} := by
    intro i hi
    refine h.unmarked i fun r hr => ?_
    obtain ⟨r', hr', hg⟩ := exists_mem_right hgrow hr
    exact hg.id ▸ hi r' hr'
  have hnew : ∀ r ∈ news, s.marks r.radacctid = {} := by
    intro r hr
    refine hold _ fun r' hr' => ?_
    have hsorted := t.sorted
    rw [hrows] at hsorted
    exact ((List.pairwise_append.mp hsorted).2.2 r' hr' r hr).ne
  refine ⟨hstamped, hbase _ _ h.daily, hbase _ _ h.period, ?_, ?_, ?_⟩
  · intro r' hr' τ hτ
    rcases List.mem_append.mp (hrows ▸ hr' : r' ∈ olds ++ news) with hmem | hmem
    · obtain ⟨r, hr, hg⟩ := exists_mem_left hgrow hmem
      simp only [World.step, hg.id] at hτ ⊢
      obtain ⟨⟨u, hu, hle⟩, hsnap⟩ := h.snapshots r hr τ hτ
      obtain ⟨u', hu', hle'⟩ := hg.seen u hu
      exact ⟨⟨u', hu', hle.trans hle'⟩, fun d => (hsnap d).trans (hg.octets d)⟩
    · simp [World.step, hnew r' hmem] at hτ
  · intro i w b hb
    obtain ⟨u, hu, hkey⟩ := h.keys i w b hb
    exact ⟨u, hu.trans hnow, hkey⟩
  · intro i hi
    exact hold i fun r' hr' => hi r' (hrows ▸ List.mem_append_left _ hr')

theorem wellFormed_read {cal : Calendar} {s : World} (h : WellFormed cal s) {now : ℤ}
    (hnow : s.clock ≤ now) : WellFormed cal (s.step cal (.read now)) := by
  refine ⟨fun r hr => (h.stamped r hr).mono hnow,
    baseOk_mono hnow h.daily, baseOk_mono hnow h.period, ?_, ?_, ?_⟩
  · intro r hr τ hτ
    simp only [World.step] at hr hτ ⊢
    rcases read_marks cal s now r.radacctid with hsame | ⟨r', hr', hid, hread⟩
    · rw [hsame] at hτ ⊢
      exact h.snapshots r hr τ hτ
    · obtain rfl := s.table.eq_of_key_eq hr' hr hid
      rw [hread] at hτ ⊢
      rcases readMark_snap cal now (s.marks r'.radacctid) r' with ⟨hat, hsnap, -⟩ |
        ⟨upd, hupd, hat, hsnap⟩
      · rw [hat] at hτ
        rw [hsnap]
        exact h.snapshots r' hr τ hτ
      · rw [hat] at hτ
        rw [hsnap]
        obtain rfl : upd = τ := Option.some.inj hτ
        exact ⟨⟨upd, hupd, le_rfl⟩, fun _ => le_rfl⟩
  · intro i w b hb
    have hkeep : ∀ b ∈ (s.marks i).base w, ∃ t ≤ now, b.key = cal.key w t := fun b hb => by
      obtain ⟨t, ht, hkey⟩ := h.keys i w b hb
      exact ⟨t, ht.trans hnow, hkey⟩
    simp only [World.step] at hb ⊢
    rcases read_marks cal s now i with hsame | ⟨r, -, -, hread⟩
    · exact hkeep b (hsame ▸ hb)
    · rw [hread, readMark_base] at hb
      cases hc : crossing (cal.start w now) r with
      | none => exact hkeep b (by simpa [hc] using hb)
      | some p =>
        simp only [hc, baseline] at hb
        cases hbase : (s.marks i).base w with
        | none => exact ⟨now, le_rfl, by rw [hbase] at hb; rw [← Option.some.inj hb]⟩
        | some b' =>
          rw [hbase] at hb
          simp only at hb
          split_ifs at hb with hkey
          · obtain rfl := Option.some.inj hb
            exact ⟨now, le_rfl, hkey⟩
          · exact ⟨now, le_rfl, by rw [← Option.some.inj hb]⟩
  · intro i hi
    simp only [World.step] at hi ⊢
    rcases read_marks cal s now i with hsame | ⟨r, hr, hid, -⟩
    · exact hsame.trans (h.unmarked i hi)
    · exact absurd hid (hi r hr)

theorem wellFormed_preInterim {cal : Calendar} {s : World} (h : WellFormed cal s) {now : ℤ}
    {row : Radacct} (hnow : s.clock ≤ now) (hrow : row ∈ s.table.rows) (hopen : isOpen row = true) :
    WellFormed cal (s.step cal (.preInterim now row)) := by
  refine ⟨fun r hr => (h.stamped r hr).mono hnow,
    baseOk_mono hnow h.daily, baseOk_mono hnow h.period, ?_, ?_, ?_⟩
  · intro r hr τ hτ
    simp only [World.step] at hr hτ ⊢
    rcases preInterim_marks cal now s.marks row r.radacctid with hsame |
      ⟨hid, start, upd, -, hupd, -, -, hnote⟩
    · rw [hsame] at hτ ⊢
      exact h.snapshots r hr τ hτ
    · obtain rfl := s.table.eq_of_key_eq hr hrow hid
      rw [hnote] at hτ ⊢
      obtain rfl : upd = τ := Option.some.inj hτ
      exact ⟨le_seen_of_open hopen hupd, fun _ => le_rfl⟩
  · intro i w b hb
    simp only [World.step] at hb ⊢
    have hb' : b ∈ (s.marks i).base w := by
      rcases preInterim_marks cal now s.marks row i with hsame | ⟨rfl, _, _, -, -, -, -, hnote⟩
      · rwa [hsame] at hb
      · rwa [hnote] at hb
    obtain ⟨t, ht, hkey⟩ := h.keys i w b hb'
    exact ⟨t, ht.trans hnow, hkey⟩
  · intro i hi
    simp only [World.step] at hi ⊢
    rcases preInterim_marks cal now s.marks row i with hsame | ⟨rfl, -⟩
    · exact hsame.trans (h.unmarked i hi)
    · exact absurd rfl (hi row hrow)

theorem wellFormed_step {cal : Calendar} {s : World} (h : WellFormed cal s) {m : Move}
    (hm : Allowed s m) : WellFormed cal (s.step cal m) := by
  obtain ⟨hnow, hm⟩ := hm
  have hstamped : ∀ r ∈ s.table.rows, Stamped m.now r := fun r hr => (h.stamped r hr).mono hnow
  have hkeys : ∀ i w, ∀ b ∈ (s.marks i).base w, ∃ t ≤ m.now, b.key = cal.key w t := by
    intro i w b hb
    obtain ⟨t, ht, hkey⟩ := h.keys i w b hb
    exact ⟨t, ht.trans hnow, hkey⟩
  cases m with
  | rows now t => exact wellFormed_rows h hnow hm
  | read now => exact wellFormed_read h hnow
  | preInterim now row => exact wellFormed_preInterim h hnow hm.1 hm.2
  | resetDaily now =>
    refine ⟨hstamped, baseOk_reset now _ fun d => ?_, baseOk_mono hnow h.period, h.snapshots, hkeys,
      h.unmarked⟩
    cases d <;> rfl
  | newPeriod now reason =>
    refine ⟨hstamped, baseOk_reset now _ fun d => ?_, baseOk_reset now _ fun d => ?_, h.snapshots,
      hkeys, h.unmarked⟩ <;>
    · cases d <;> rfl

theorem wellFormed_run {cal : Calendar} {s : World} (h : WellFormed cal s) {moves : List Move}
    (hm : Run.Along Allowed (World.step cal) s moves) : WellFormed cal (runMoves cal s moves) :=
  Run.run_invariant (I := WellFormed cal) (fun _ _ hs hok => wellFormed_step hs hok) h hm

theorem norm_whole {s : Stamp} {τ : ℤ} (h : norm s = some τ) : floorSecond τ = τ := by
  obtain ⟨u, -, rfl⟩ := norm_eq_some.mp h
  exact floorSecond_floorSecond u

theorem overlaps_of_after {τ : ℤ} (hτ : floorSecond τ = τ) {r : Radacct}
    (h : r.acctStartTime.after τ = true) : overlaps τ r = true := by
  refine overlaps_of_notBefore hτ ?_
  cases hs : r.acctStartTime with
  | null => simp [hs, Stamp.after] at h
  | blank => simp [hs, Stamp.after] at h
  | instant t => simpa [Stamp.notBefore] using (show τ < t by simpa [hs, Stamp.after] using h).le

theorem overlaps_anti {ws τ : ℤ} (h : ws ≤ τ) {r : Radacct} (ho : overlaps τ r = true) :
    overlaps ws r = true := by
  obtain ⟨u, hu, hle⟩ := overlaps_iff.mp ho
  exact overlaps_iff.mpr ⟨u, hu, h.trans hle⟩

theorem since_le_overlapping {rows : List Radacct} {ws τ : ℤ} {base : Direction → ℕ}
    {d : Direction} (hτ : floorSecond τ = τ) (hws : ws ≤ τ)
    (hbase : bytesWhere rows (fun r => !overlaps τ r) d ≤ base d) :
    since rows τ base d ≤ bytesWhere rows (overlaps ws) d := by
  have hpost : bytesWhere rows (fun r => r.acctStartTime.after τ) d ≤
      bytesWhere rows (overlaps ws) d := by
    simp only [bytesWhere_eq]
    refine List.sum_le_sum fun r _ => ?_
    by_cases ha : r.acctStartTime.after τ = true
    · simp [ha, overlaps_anti hws (overlaps_of_after hτ ha)]
    · simp [ha]
  have hsum : bytesWhere rows (fun r => r.acctStartTime.after τ) d +
      bytesWhere rows (fun r => !r.acctStartTime.after τ) d ≤
      bytesWhere rows (overlaps ws) d + bytesWhere rows (fun r => !overlaps τ r) d := by
    simp only [bytesWhere_eq, ← List.sum_map_add]
    refine List.sum_le_sum fun r _ => ?_
    by_cases ho : overlaps τ r = true
    · simp only [overlaps_anti hws ho, if_true]
      cases r.acctStartTime.after τ <;> simp
    · have hafter : r.acctStartTime.after τ = false :=
        Bool.eq_false_iff.mpr fun ha => ho (overlaps_of_after hτ ha)
      simp [hafter, ho]
  simp only [since]
  omega

theorem mem_of_resetOf {cal : Calendar} {now τ : ℤ} {s : QuotaState} {w : Window}
    (h : resetOf cal now s w = some τ) :
    norm (match w with | .daily => s.dailyResetAt | .monthly => s.periodStart) = some τ ∧
      cal.start w now ≤ τ := by
  cases w <;> simpa [resetOf, Option.filter_eq_some_iff] using h

theorem usage_le_overlapping {cal : Calendar} {s : World} (h : WellFormed cal s) (now : ℤ)
    (w : Window) (d : Direction) :
    (s.readUsage cal now).window w d ≤ bytesWhere s.userRows (overlaps (cal.start w now)) d := by
  simp only [World.readUsage, usage, Bool.true_and]
  cases hr : resetOf cal now s.state w with
  | some τ =>
    obtain ⟨hτ, hws⟩ := mem_of_resetOf hr
    cases w with
    | daily =>
      simp only [World.state] at hr
      simp only [hr]
      exact since_le_overlapping (norm_whole hτ) hws ((h.daily τ hτ).2 d)
    | monthly =>
      simp only [World.state] at hr hτ
      simp only [hr, hτ]
      exact since_le_overlapping (norm_whole hτ) hws ((h.period τ hτ).2 d)
  | none =>
    have hreads : readsStraddles cal now s.state = true := by
      cases w <;> simp [readsStraddles, hr]
    simp only [World.state] at hr hreads
    simp only [hr, hreads, if_true]
    rw [calendar_usage_eq, bytesWhere_eq]
    exact List.sum_le_sum fun r _ => rowUsage_le cal now _ w r d

theorem later_userRows {a : Account} {t t' : RadacctTable} (h : Later t.rows t'.rows) :
    Later (usernameRows t a.tenantId a.username) (usernameRows t' a.tenantId a.username) :=
  later_filter h fun _ _ hr => user_later a hr

theorem bytesWhere_later {rows rows' : List Radacct} (h : Later rows rows') {p : Radacct → Bool}
    (hp : ∀ r r', RowLater r r' → p r' = p r) (d : Direction) :
    bytesWhere rows p d ≤ bytesWhere rows' p d := by
  simp only [bytesWhere_eq]
  refine later_sum h fun r _ r' _ hr => ?_
  rw [hp r r' hr]
  split_ifs
  · exact hr.octets d
  · exact le_rfl

theorem since_later {rows rows' : List Radacct} (h : Later rows rows') (τ : ℤ)
    (base : Direction → ℕ) (d : Direction) : since rows τ base d ≤ since rows' τ base d := by
  refine Nat.add_le_add (bytesWhere_later h (fun r r' hr => ?_) d)
    (Nat.sub_le_sub_right (bytesWhere_later h (fun r r' hr => ?_) d) _)
  · rw [hr.start]
  · rw [hr.start]

theorem later_step {cal : Calendar} {s : World} {m : Move} (hm : Allowed s m) :
    Later s.table.rows (s.step cal m).table.rows := by
  cases m with
  | rows now t => exact later_of_evolves hm.2
  | _ => exact refl _

theorem later_run {cal : Calendar} {s : World} {moves : List Move}
    (hm : Run.Along Allowed (World.step cal) s moves) :
    Later s.table.rows (runMoves cal s moves).table.rows := by
  induction moves generalizing s with
  | nil => exact refl _
  | cons m moves ih => exact IsTrans.trans _ _ _ (later_step hm.1) (ih hm.2)

theorem clock_le_run {cal : Calendar} {s : World} {moves : List Move}
    (hm : Run.Along Allowed (World.step cal) s moves) :
    s.clock ≤ (runMoves cal s moves).clock := by
  refine Run.run_monotone (I := fun _ => True) (m := World.clock) (fun _ _ _ _ => trivial)
    (fun s m _ hok => ?_) trivial hm
  have := hok.1
  cases m <;> exact this

theorem account_run {cal : Calendar} {s : World} {moves : List Move}
    (hm : ∀ m ∈ moves, m.isReset = false) : (runMoves cal s moves).account = s.account := by
  induction moves generalizing s with
  | nil => rfl
  | cons m moves ih =>
    have hstep : (s.step cal m).account = s.account := by
      have := hm m List.mem_cons_self
      cases m <;> simp_all [World.step, Move.isReset]
    exact (ih fun m' h => hm m' (List.mem_cons_of_mem _ h)).trans hstep

theorem start_between {cal : Calendar} {w : Window} {now₁ now now₂ : ℤ} (h₁ : now₁ ≤ now)
    (h₂ : now ≤ now₂) (hsame : cal.start w now₁ = cal.start w now₂) :
    cal.start w now = cal.start w now₁ :=
  le_antisymm (hsame ▸ cal.start_mono w _ _ h₂) (cal.start_mono w _ _ h₁)

theorem baseline_of_key {mark : Mark} {w : Window} {key : String} {b : Baseline}
    (hb : mark.base w = some b) (hk : b.key = key) (start upd ws : ℤ) (r : Radacct) :
    baseline mark w key start upd ws r = b := by
  simp [baseline, hb, hk]

theorem baseline_key (mark : Mark) (w : Window) (key : String) (start upd ws : ℤ) (r : Radacct) :
    (baseline mark w key start upd ws r).key = key := by
  simp only [baseline]
  split
  · split_ifs with h
    · exact h
    · rfl
  · rfl

theorem base_kept_step {cal : Calendar} {s : World} {m : Move} {i : ℕ} {w : Window} {b : Baseline}
    (hb : (s.marks i).base w = some b) (hkey : b.key = cal.key w m.now) :
    ((s.step cal m).marks i).base w = some b := by
  cases m with
  | rows now t => exact hb
  | resetDaily now => exact hb
  | newPeriod now reason => exact hb
  | read now =>
    simp only [World.step]
    rcases read_marks cal s now i with hsame | ⟨r, -, -, hread⟩
    · rw [hsame, hb]
    · rw [hread, readMark_base]
      split
      · exact congrArg some (baseline_of_key hb hkey _ _ _ r)
      · exact hb
  | preInterim now row =>
    simp only [World.step]
    rcases preInterim_marks cal now s.marks row i with hsame | ⟨rfl, _, _, -, -, -, -, hnote⟩
    · rw [hsame, hb]
    · rw [hnote]
      exact hb

theorem base_kept_run {cal : Calendar} {s : World} {moves : List Move} {i : ℕ} {w : Window}
    {b : Baseline} {now₁ now₂ : ℤ} (hm : Run.Along Allowed (World.step cal) s moves)
    (hb : (s.marks i).base w = some b) (hkey : b.key = cal.key w now₁) (h₁ : now₁ ≤ s.clock)
    (h₂ : (runMoves cal s moves).clock ≤ now₂) (hsame : cal.start w now₁ = cal.start w now₂) :
    ((runMoves cal s moves).marks i).base w = some b := by
  induction moves generalizing s with
  | nil => exact hb
  | cons m moves ih =>
    have hclock : (s.step cal m).clock = m.now := by cases m <;> rfl
    have hle : m.now ≤ now₂ := hclock ▸ (clock_le_run hm.2).trans h₂
    have hge : now₁ ≤ m.now := h₁.trans hm.1.1
    have hk : b.key = cal.key w m.now := by
      rw [hkey, cal.key_eq_iff]
      exact (start_between hge hle hsame).symm
    exact ih hm.2 (base_kept_step hb hk) (hclock ▸ hge) h₂

theorem crossing_later {ws start upd : ℤ} {r r' : Radacct} (h : RowLater r r')
    (hc : crossing ws r = some (start, upd)) : ∃ upd', crossing ws r' = some (start, upd') := by
  obtain ⟨hs, hu, hlt, hgt⟩ := crossing_eq_some.mp hc
  obtain ⟨u', hu', hle⟩ := h.seen upd hu
  exact ⟨u', crossing_eq_some.mpr ⟨h.start ▸ hs, hu', hlt, hgt.trans_le hle⟩⟩

theorem base_after_read {cal : Calendar} {s : World} {now : ℤ} {w : Window}
    (hreads : readsStraddles cal now s.state = true) {r : Radacct} (hr : r ∈ s.userRows)
    {start upd : ℤ} (hc : crossing (cal.start w now) r = some (start, upd)) :
    (((s.step cal (.read now)).marks r.radacctid).base w) =
      some (baseline (s.marks r.radacctid) w (cal.key w now) start upd (cal.start w now) r) := by
  have hmem : r ∈ straddleRows cal now s.table s.account := mem_straddleRows hr (Or.inr ⟨w, _, hc⟩)
  simp only [World.step, World.readUsage, usage, Bool.true_and]
  simp only [World.state] at hreads
  simp only [hreads, if_true]
  rw [saveMarks_of_mem cal now s.table s.marks s.account hmem, readMark_base, hc]

theorem rowUsage_later {cal : Calendar} {s s' : World} {now₁ now₂ : ℤ} {w : Window} {r r' : Radacct}
    (hsame : cal.start w now₁ = cal.start w now₂) (hr : RowLater r r')
    (hbase : ∀ start upd, crossing (cal.start w now₁) r = some (start, upd) →
      (s'.marks r.radacctid).base w =
        some (baseline (s.marks r.radacctid) w (cal.key w now₁) start upd (cal.start w now₁) r))
    (d : Direction) :
    rowUsage cal now₁ (s.marks r.radacctid) w r d ≤
      rowUsage cal now₂ (s'.marks r'.radacctid) w r' d := by
  have hkey : cal.key w now₁ = cal.key w now₂ := (cal.key_eq_iff w now₁ now₂).mpr hsame
  cases hc : crossing (cal.start w now₁) r with
  | none =>
    refine Nat.add_le_add ?_ (by simp [straddle, hc])
    rw [hr.start, hsame]
    split_ifs
    · exact hr.octets d
    · exact le_rfl
  | some p =>
    obtain ⟨start, upd⟩ := p
    have hb := hbase start upd hc
    obtain ⟨upd', hc'⟩ := crossing_later hr hc
    have hno := not_notBefore_of_crossing (cal.start_whole w now₁) hc
    have hno' : r'.acctStartTime.notBefore (cal.start w now₂) = false := by
      rw [hr.start, ← hsame]
      exact hno
    rw [hsame] at hc'
    have hfix := baseline_of_key hb (baseline_key _ _ _ _ _ _ _)
    simp only [rowUsage, hno, hno', Bool.false_eq_true, if_false, Nat.zero_add, straddle, hc, hc',
      hr.id, ← hkey, hfix]
    exact Nat.sub_le_sub_right (hr.octets d) _

theorem usage_mono {cal : Calendar} {s : World} {now₁ now₂ : ℤ} {mid : List Move}
    (hmid : Run.Along Allowed (World.step cal) (s.step cal (.read now₁)) mid)
    (hno : ∀ m ∈ mid, m.isReset = false)
    (hclock : (runMoves cal (s.step cal (.read now₁)) mid).clock ≤ now₂) {w : Window}
    (hsame : cal.start w now₁ = cal.start w now₂) (d : Direction) :
    (s.readUsage cal now₁).window w d ≤
      ((runMoves cal (s.step cal (.read now₁)) mid).readUsage cal now₂).window w d := by
  have hacc : (runMoves cal (s.step cal (.read now₁)) mid).account = s.account := account_run hno
  have hlater : Later s.userRows (runMoves cal (s.step cal (.read now₁)) mid).userRows := by
    rw [World.userRows, World.userRows, hacc]
    exact later_userRows (later_run hmid)
  have hreset : resetOf cal now₂ s.state w = resetOf cal now₁ s.state w := by
    cases w <;> simp [resetOf, hsame]
  have hkept : ∀ r ∈ s.userRows, readsStraddles cal now₁ s.state = true → ∀ start upd,
      crossing (cal.start w now₁) r = some (start, upd) →
        ((runMoves cal (s.step cal (.read now₁)) mid).marks r.radacctid).base w = some
          (baseline (s.marks r.radacctid) w (cal.key w now₁) start upd (cal.start w now₁) r) :=
    fun r hr hreads start upd hc => base_kept_run hmid (base_after_read hreads hr hc)
      (baseline_key _ _ _ _ _ _ _) le_rfl hclock hsame
  generalize runMoves cal (s.step cal (.read now₁)) mid = s' at hacc hlater hkept
  simp only [World.userRows, hacc] at hlater
  simp only [World.readUsage, usage, Bool.true_and, hacc]
  simp only [World.state] at hreset hkept
  rw [hreset]
  cases hr : resetOf cal now₁ (s.account.state.getD {}) w with
  | some τ =>
    cases w with
    | daily => exact since_later hlater _ _ d
    | monthly =>
      obtain ⟨hτ, -⟩ := mem_of_resetOf hr
      simp only at hτ
      simp only [hτ]
      exact since_later hlater _ _ d
  | none =>
    have hreads : ∀ now, resetOf cal now (s.account.state.getD {}) w = none →
        readsStraddles cal now (s.account.state.getD {}) = true := by
      intro now hn
      cases w <;> simp [readsStraddles, hn]
    simp only [hreads now₁ hr, hreads now₂ (hreset.trans hr), if_true]
    rw [calendar_usage_eq, ← hacc, calendar_usage_eq, hacc]
    exact later_sum hlater fun r hrow r' _ hrel => rowUsage_later hsame hrel
      (fun start upd hc => hkept r hrow (hreads now₁ hr) start upd hc) d

end RadiusModule.QuotaWindows
