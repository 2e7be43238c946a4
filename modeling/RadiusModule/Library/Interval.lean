import Mathlib.Data.Int.Interval
import Mathlib.Data.Finset.Card
import Mathlib.Tactic

/-!
# Length of a union of half-open integer intervals

A list of pairs `(s, e)` stands for the intervals `[s, e)`. The sweep walks a
list sorted by left end, keeping one open block `[s, e)` and the length of the
blocks already closed. It returns the number of integer points covered, so
overlapping intervals are counted once.
-/

namespace RadiusModule.Library.Interval

abbrev Ivl := ℤ × ℤ

noncomputable def points (iv : Ivl) : Finset ℤ := Finset.Ico iv.1 iv.2

noncomputable def covered : List Ivl → Finset ℤ
  | [] => ∅
  | iv :: ivs => points iv ∪ covered ivs

@[simp] theorem mem_points {iv : Ivl} {x : ℤ} : x ∈ points iv ↔ iv.1 ≤ x ∧ x < iv.2 := by
  simp [points]

@[simp] theorem mem_covered {ivs : List Ivl} {x : ℤ} :
    x ∈ covered ivs ↔ ∃ iv ∈ ivs, iv.1 ≤ x ∧ x < iv.2 := by
  induction ivs with
  | nil => simp [covered]
  | cons iv ivs ih => simp [covered, ih]

theorem covered_eq_of_mem_iff {as bs : List Ivl}
    (h : ∀ x, (∃ iv ∈ as, iv.1 ≤ x ∧ x < iv.2) ↔ ∃ iv ∈ bs, iv.1 ≤ x ∧ x < iv.2) :
    covered as = covered bs := by
  ext x
  simpa using h x

theorem covered_perm {as bs : List Ivl} (h : as.Perm bs) : covered as = covered bs :=
  covered_eq_of_mem_iff fun x => by simp [h.mem_iff]

theorem covered_filter_nonempty (ivs : List Ivl) :
    covered (ivs.filter fun iv => iv.1 < iv.2) = covered ivs := by
  refine covered_eq_of_mem_iff fun x => ?_
  constructor
  · rintro ⟨iv, hiv, hx⟩
    exact ⟨iv, (List.mem_filter.mp hiv).1, hx⟩
  · rintro ⟨iv, hiv, hx⟩
    exact ⟨iv, by simp [hiv]; omega, hx⟩

theorem card_covered_of_pairwise {ivs : List Ivl}
    (h : ivs.Pairwise fun a b => a.2 ≤ b.1 ∨ b.2 ≤ a.1) :
    (covered ivs).card = (ivs.map fun iv => (iv.2 - iv.1).toNat).sum := by
  induction ivs with
  | nil => rfl
  | cons iv ivs ih =>
    obtain ⟨hiv, hivs⟩ := List.pairwise_cons.mp h
    have hdisj : Disjoint (points iv) (covered ivs) := by
      rw [Finset.disjoint_left]
      intro x hx hy
      obtain ⟨jv, hj, hjx⟩ := mem_covered.mp hy
      have hapart := hiv jv hj
      rw [mem_points] at hx
      omega
    rw [covered, Finset.card_union_of_disjoint hdisj, ih hivs, points, Int.card_Ico,
      List.map_cons, List.sum_cons]

/-- The open block is `[s, e)`, `total` is the length of the blocks closed so far. -/
def sweep : ℤ → ℤ → ℤ → List Ivl → ℤ
  | s, e, total, [] => total + (e - s)
  | s, e, total, iv :: ivs =>
    if iv.1 > e then sweep iv.1 iv.2 (total + (e - s)) ivs
    else if iv.2 > e then sweep s iv.2 total ivs
    else sweep s e total ivs

theorem sweep_eq_card (ivs : List Ivl) : ∀ (s e total : ℤ), s ≤ e →
    (∀ iv ∈ ivs, s ≤ iv.1 ∧ iv.1 ≤ iv.2) → ivs.Pairwise (fun a b => a.1 ≤ b.1) →
    sweep s e total ivs = total + (Finset.Ico s e ∪ covered ivs).card := by
  induction ivs with
  | nil =>
    intro s e total hse _ _
    simp only [sweep, covered, Finset.union_empty, Int.card_Ico]
    omega
  | cons iv ivs ih =>
    intro s e total hse hle hsort
    obtain ⟨hs, hiv⟩ := hle iv List.mem_cons_self
    have hrest : ∀ jv ∈ ivs, iv.1 ≤ jv.1 ∧ jv.1 ≤ jv.2 := fun jv hj =>
      ⟨(List.pairwise_cons.mp hsort).1 jv hj, (hle jv (List.mem_cons_of_mem _ hj)).2⟩
    have hrest' : ∀ jv ∈ ivs, s ≤ jv.1 ∧ jv.1 ≤ jv.2 := fun jv hj =>
      hle jv (List.mem_cons_of_mem _ hj)
    have hsort' := (List.pairwise_cons.mp hsort).2
    simp only [sweep]
    split_ifs with hgap hext
    · rw [ih iv.1 iv.2 _ hiv hrest hsort']
      have hdisj : Disjoint (Finset.Ico s e) (points iv ∪ covered ivs) := by
        rw [Finset.disjoint_left]
        intro x hx hy
        simp only [Finset.mem_Ico] at hx
        rcases Finset.mem_union.mp hy with hy | hy
        · have := mem_points.mp hy
          omega
        · obtain ⟨jv, hj, hjx⟩ := mem_covered.mp hy
          have := hrest jv hj
          omega
      rw [covered, Finset.card_union_of_disjoint hdisj, points, Int.card_Ico]
      push_cast
      omega
    · rw [ih s iv.2 _ (by omega) hrest' hsort']
      congr 3
      ext x
      simp only [covered, Finset.mem_union, Finset.mem_Ico, mem_points]
      constructor
      · rintro (hx | hx)
        · by_cases hxe : x < e
          · exact Or.inl ⟨hx.1, hxe⟩
          · exact Or.inr (Or.inl ⟨by omega, hx.2⟩)
        · exact Or.inr (Or.inr hx)
      · rintro (hx | hx | hx)
        · exact Or.inl ⟨hx.1, by omega⟩
        · exact Or.inl ⟨by omega, hx.2⟩
        · exact Or.inr hx
    · rw [ih s e _ hse hrest' hsort']
      congr 3
      ext x
      simp only [covered, Finset.mem_union, Finset.mem_Ico, mem_points]
      constructor
      · rintro (hx | hx)
        · exact Or.inl hx
        · exact Or.inr (Or.inr hx)
      · rintro (hx | hx | hx)
        · exact Or.inl hx
        · exact Or.inl ⟨by omega, by omega⟩
        · exact Or.inr hx

theorem sweep_sorted_eq_card {iv : Ivl} {ivs : List Ivl}
    (hne : ∀ jv ∈ iv :: ivs, jv.1 < jv.2)
    (hsort : (iv :: ivs).Pairwise (fun a b => a.1 ≤ b.1)) :
    sweep iv.1 iv.2 0 ivs = (covered (iv :: ivs)).card := by
  have hiv := hne iv List.mem_cons_self
  have hfirst := (List.pairwise_cons.mp hsort).1
  rw [sweep_eq_card ivs iv.1 iv.2 0 hiv.le
    (fun jv hj => ⟨hfirst jv hj, (hne jv (List.mem_cons_of_mem _ hj)).le⟩)
    (List.pairwise_cons.mp hsort).2]
  simp [covered, points]

end RadiusModule.Library.Interval
