import RadiusModule.Library.Table

/-!
# Journals with reversals

A journal is a table whose rows are never rewritten: a row is taken back by a
later row that names it. A row is live when it takes nothing back and nothing
takes it back, and what the journal adds up to is what its live rows add up to.
-/

namespace RadiusModule.Library.Journal

variable {α : Type*} {key : α → ℕ} (reverses : α → Option ℕ)

def reversed (t : Table α key) (k : ℕ) : Bool := t.rows.any fun r => reverses r = some k

def live (t : Table α key) (q : α → Bool) : List α :=
  t.select fun r => q r && (reverses r).isNone && !reversed reverses t (key r)

def root (t : Table α key) (r : α) : α := ((reverses r).bind t.get?).getD r

/-- A row that takes another back undoes its value, that one takes nothing back, and no two rows
take back the same. -/
structure Sound (value : α → ℤ) (t : Table α key) : Prop where
  known : ∀ r ∈ t.rows, ∀ k ∈ reverses r, ∃ o ∈ t.rows, key o = k ∧ reverses o = none ∧
    value r = -value o
  once : ∀ r ∈ t.rows, ∀ r' ∈ t.rows, ∀ k ∈ reverses r, k ∈ reverses r' → r = r'

variable {reverses} {value : α → ℤ} {t : Table α key} {mk : ℕ → α} {hmk : ∀ n, key (mk n) = n}

theorem reversed_iff {k : ℕ} :
    reversed reverses t k = true ↔ ∃ r ∈ t.rows, reverses r = some k := by
  simp [reversed]

theorem reversed_insert (k : ℕ) : reversed reverses (t.insert mk hmk) k =
    (reversed reverses t k || reverses (mk t.next) = some k) := by
  simp [reversed]

theorem Sound.not_reversed_next (h : Sound reverses value t) :
    reversed reverses t t.next = false := by
  refine List.any_eq_false.mpr fun r hr hrev => ?_
  obtain ⟨o, ho, hkey, -⟩ := h.known r hr t.next (of_decide_eq_true hrev)
  exact (t.below o ho).ne hkey

theorem Sound.empty : Sound reverses value (.empty : Table α key) :=
  ⟨fun _ hr => (List.not_mem_nil hr).elim, fun _ hr => (List.not_mem_nil hr).elim⟩

theorem Sound.post (h : Sound reverses value t) (hnone : reverses (mk t.next) = none) :
    Sound reverses value (t.insert mk hmk) := by
  refine ⟨fun r hr k hk => ?_, fun r hr r' hr' k hk hk' => ?_⟩
  · rcases List.mem_append.mp hr with hr | hr
    · obtain ⟨o, ho, hrest⟩ := h.known r hr k hk
      exact ⟨o, List.mem_append_left _ ho, hrest⟩
    · rw [List.mem_singleton.mp hr, hnone] at hk
      cases hk
  · rcases List.mem_append.mp hr with hr | hr
    · rcases List.mem_append.mp hr' with hr' | hr'
      · exact h.once r hr r' hr' k hk hk'
      · rw [List.mem_singleton.mp hr', hnone] at hk'
        cases hk'
    · rw [List.mem_singleton.mp hr, hnone] at hk
      cases hk

theorem Sound.reverse (h : Sound reverses value t) {o : α} (ho : o ∈ t.rows)
    (hroot : reverses o = none) (hlive : reversed reverses t (key o) = false)
    (hrev : reverses (mk t.next) = some (key o)) (hvalue : value (mk t.next) = -value o) :
    Sound reverses value (t.insert mk hmk) := by
  have hfresh : ∀ r ∈ t.rows, key o ∉ reverses r := fun r hr hk =>
    Bool.eq_false_iff.mp hlive (reversed_iff.mpr ⟨r, hr, hk⟩)
  refine ⟨fun r hr k hk => ?_, fun r hr r' hr' k hk hk' => ?_⟩
  · rcases List.mem_append.mp hr with hr | hr
    · obtain ⟨o', ho', hrest⟩ := h.known r hr k hk
      exact ⟨o', List.mem_append_left _ ho', hrest⟩
    · rw [List.mem_singleton.mp hr] at hk ⊢
      rw [hrev] at hk
      exact ⟨o, List.mem_append_left _ ho, Option.some.inj hk, hroot, hvalue⟩
  · rcases List.mem_append.mp hr with hr | hr
    · rcases List.mem_append.mp hr' with hr' | hr'
      · exact h.once r hr r' hr' k hk hk'
      · rw [List.mem_singleton.mp hr', hrev] at hk'
        obtain rfl := Option.some.inj hk'
        exact absurd hk (hfresh r hr)
    · rcases List.mem_append.mp hr' with hr' | hr'
      · rw [List.mem_singleton.mp hr, hrev] at hk
        obtain rfl := Option.some.inj hk
        exact absurd hk' (hfresh r' hr')
      · rw [List.mem_singleton.mp hr, List.mem_singleton.mp hr']

section live
variable {q q' : α → Bool}

theorem mem_live {r : α} : r ∈ live reverses t q ↔ r ∈ t.rows ∧ q r = true ∧ reverses r = none ∧
    reversed reverses t (key r) = false := by
  simp [live, Table.mem_select, and_assoc]

theorem live_post (h : Sound reverses value t) (hnone : reverses (mk t.next) = none) :
    live reverses (t.insert mk hmk) q =
      live reverses t q ++ if q (mk t.next) then [mk t.next] else [] := by
  have hsame : ∀ k, reversed reverses (t.insert mk hmk) k = reversed reverses t k := fun k => by
    rw [reversed_insert, hnone]
    simp
  simp only [live, Table.select_insert, hsame, hnone, hmk, h.not_reversed_next]
  simp

theorem live_reverse {k : ℕ} (hrev : reverses (mk t.next) = some k) :
    live reverses (t.insert mk hmk) q = (live reverses t q).filter fun r => key r ≠ k := by
  rw [live, Table.select_insert, hrev, Option.isNone_some, Bool.and_false, Bool.false_and,
    if_neg Bool.false_ne_true, List.append_nil]
  simp only [live, Table.select, reversed_insert, hrev, List.filter_filter]
  refine List.filter_congr fun r _ => ?_
  by_cases hk : key r = k
  · simp [hk]
  · simp [hk, Ne.symm hk]

theorem sum_live_reverse {o : α} (ho : o ∈ t.rows) (hnone : reverses o = none)
    (hlive : reversed reverses t (key o) = false) (hrev : reverses (mk t.next) = some (key o))
    (g : α → ℤ) : ((live reverses (t.insert mk hmk) q).map g).sum =
      ((live reverses t q).map g).sum - if q o then g o else 0 := by
  have hpart : ∀ (p : α → Bool) (l : List α), (l.map g).sum =
      ((l.filter p).map g).sum + ((l.filter fun r => !p r).map g).sum := by
    intro p l
    induction l with
    | nil => rfl
    | cons r l ih =>
      rw [List.map_cons, List.sum_cons, ih, List.filter_cons, List.filter_cons]
      cases p r <;> simp <;> abel
  have hself : (live reverses t q).filter (fun r => key r = key o) = if q o then [o] else [] := by
    rw [live, Table.select, List.filter_filter]
    have hcomm : (t.rows.filter fun r => decide (key r = key o) &&
        (q r && (reverses r).isNone && !reversed reverses t (key r))) =
        (t.rows.filter fun r => key r = key o).filter fun r =>
          q r && (reverses r).isNone && !reversed reverses t (key r) := by
      rw [List.filter_filter]
      exact List.filter_congr fun r _ => Bool.and_comm _ _
    rw [hcomm, t.filter_key_eq ho, List.filter_cons]
    simp [hnone, hlive]
  have hsum := hpart (fun r => key r = key o) (live reverses t q)
  rw [hself] at hsum
  rw [live_reverse hrev, hsum]
  simp only [ne_eq, decide_not]
  split_ifs <;> simp

end live

theorem root_of_none {r : α} (h : reverses r = none) : root reverses t r = r := by
  rw [root, h]
  rfl

theorem root_of_some {r o : α} (ho : o ∈ t.rows) (h : reverses r = some (key o)) :
    root reverses t r = o := by
  rw [root, h, Option.bind_some, Table.get?_eq_some.mpr ⟨ho, rfl⟩]
  rfl

def mate (reverses : α → Option ℕ) (t : Table α key) (r : α) : α :=
  match reverses r with
  | some k => (t.get? k).getD r
  | none => (t.rows.find? fun r' => reverses r' = some (key r)).getD r

theorem mate_of_some {r o : α} (ho : o ∈ t.rows) (h : reverses r = some (key o)) :
    mate reverses t r = o := by
  rw [mate, h]
  dsimp only
  rw [Table.get?_eq_some.mpr ⟨ho, rfl⟩]
  rfl

theorem Sound.mate_of_none (h : Sound reverses value t) {r o : α} (hnone : reverses o = none)
    (hr : r ∈ t.rows) (hrev : reverses r = some (key o)) : mate reverses t o = r := by
  rw [mate, hnone]
  dsimp only
  cases hfind : t.rows.find? fun r' => reverses r' = some (key o) with
  | none => exact absurd hrev (by simpa using List.find?_eq_none.mp hfind r hr)
  | some r' =>
    have hrev' := List.find?_some hfind
    exact h.once r' (List.mem_of_find?_eq_some hfind) r hr (key o) (of_decide_eq_true hrev') hrev

theorem Sound.pair (h : Sound reverses value t) {r : α} (hr : r ∈ t.rows)
    (hdead : ¬(reverses r = none ∧ reversed reverses t (key r) = false)) :
    ∃ o ∈ t.rows, ∃ r' ∈ t.rows, reverses o = none ∧ reverses r' = some (key o) ∧
      value r' = -value o ∧ (r = o ∨ r = r') := by
  cases hrev : reverses r with
  | some k =>
    obtain ⟨o, ho, rfl, hnone, hvalue⟩ := h.known r hr k hrev
    exact ⟨o, ho, r, hr, hnone, hrev, hvalue, .inr rfl⟩
  | none =>
    have hreversed : reversed reverses t (key r) = true := by simpa [hrev] using hdead
    obtain ⟨r', hr', hrev'⟩ := reversed_iff.mp hreversed
    obtain ⟨o, ho, hkey, -, hvalue⟩ := h.known r' hr' (key r) hrev'
    obtain rfl := t.eq_of_key_eq ho hr hkey
    exact ⟨o, ho, r', hr', hrev, hrev', hvalue, .inl rfl⟩

theorem Sound.sum_root (h : Sound reverses value t) (q : α → Bool) (w : α → ℤ) :
    ((t.select fun r => q (root reverses t r)).map fun r => w (root reverses t r) * value r).sum =
      ((live reverses t q).map fun o => w o * value o).sum := by
  classical
  have hnodup : t.rows.Nodup := t.sorted.imp fun hab hsame => hab.ne (congrArg key hsame)
  rw [Table.select, live, Table.select, ← List.sum_toFinset _ (hnodup.filter _),
    ← List.sum_toFinset _ (hnodup.filter _), ← Finset.sum_filter_add_sum_filter_not _
      (fun r => reverses r = none ∧ reversed reverses t (key r) = false)]
  have hpairs : ∑ r ∈ (t.rows.filter fun r => q (root reverses t r)).toFinset with
      ¬(reverses r = none ∧ reversed reverses t (key r) = false),
      w (root reverses t r) * value r = 0 := by
    refine Finset.sum_involution (fun r _ => mate reverses t r) ?_ ?_ ?_ ?_
    all_goals
      intro r hr
      simp only [Finset.mem_filter, List.mem_toFinset, List.mem_filter] at hr
      obtain ⟨⟨hr, hq⟩, hdead⟩ := hr
      obtain ⟨o, ho, r', hr', hnone, hrev, hvalue, hcase⟩ := h.pair hr hdead
      have hroot := root_of_none (t := t) hnone
      have hroot' := root_of_some ho hrev
      have hmate := mate_of_some ho hrev
      have hmate' := h.mate_of_none hnone hr' hrev
    · rcases hcase with rfl | rfl
      · rw [hmate', hroot, hroot', hvalue]
        ring
      · rw [hmate, hroot, hroot', hvalue]
        ring
    · rcases hcase with rfl | rfl
      · intro _ hsame
        rw [← hmate', hsame, hnone] at hrev
        cases hrev
      · intro _ hsame
        rw [← hmate, hsame, hrev] at hnone
        cases hnone
    · simp only [Finset.mem_filter, List.mem_toFinset, List.mem_filter]
      rcases hcase with rfl | rfl
      · rw [hmate', hroot']
        exact ⟨⟨hr', hroot ▸ hq⟩, fun hlive => by rw [hrev] at hlive; cases hlive.1⟩
      · rw [hmate, hroot]
        refine ⟨⟨ho, hroot' ▸ hq⟩, fun hlive => ?_⟩
        exact Bool.eq_false_iff.mp hlive.2 (reversed_iff.mpr ⟨r, hr, hrev⟩)
    · rcases hcase with rfl | rfl
      · rw [hmate', hmate]
      · rw [hmate, hmate']
  rw [hpairs, add_zero]
  refine Finset.sum_congr ?_ fun r hr => ?_
  · ext r
    simp only [Finset.mem_filter, List.mem_toFinset, List.mem_filter, Bool.and_eq_true,
      Option.isNone_iff_eq_none, Bool.not_eq_true']
    constructor
    · rintro ⟨⟨hr, hq⟩, hnone, hlive⟩
      exact ⟨hr, ⟨root_of_none (t := t) hnone ▸ hq, hnone⟩, hlive⟩
    · rintro ⟨hr, ⟨hq, hnone⟩, hlive⟩
      exact ⟨⟨hr, (root_of_none (t := t) hnone).symm ▸ hq⟩, hnone, hlive⟩
  · rw [root_of_none (mem_live.mp (List.mem_toFinset.mp hr)).2.2.1]

end RadiusModule.Library.Journal
