import RadiusModule.Library.Naming
import RadiusModule.Services.Migration.Pivot

/-!
# Names of series

The batches of an import are told apart by the normalized text of their names.
A series goes by the name its records carry, unless that name belongs to
another budget: then the year and number are added, and the longer name is not
checked any more. A card goes to the batch of the first series it is linked to.
-/

namespace RadiusModule.Migration
open Library PyText

namespace SeriesSource

variable (script : Script) (src : SeriesSource)

def series (rows : List Record) : Option (List (Record × Budget)) :=
  (rows.filter fun row => src.cid row ≠ "").mapM fun row =>
    (src.budget script row).map fun budget => (row, budget)

def naming : Naming (Record × Budget) String Budget where
  raw x := src.rawName x.1
  apart x := src.apartName x.1
  tag x := x.2
  size := String.length
  size_lt x := by
    simp only [apartName, String.length_append]
    have hopen : " (".length = 2 := rfl
    omega

/-- The name that the records of a series carry belongs to its budget: to that of the first series
which carries the name, or which is given it because its own belongs to another budget. -/
def OwnsName (xs : List (Record × Budget)) (x : Record × Budget) : Prop :=
  src.naming.owner xs (src.rawName x.1) = some x.2

instance (xs : List (Record × Budget)) (x : Record × Budget) : Decidable (src.OwnsName xs x) :=
  inferInstanceAs (Decidable (_ = _))

inductive NamedAlike (xs : List (Record × Budget)) (x y : Record × Budget) : Prop
  | own (hx : src.OwnsName xs x) (hy : src.OwnsName xs y)
      (h : normKey script (src.rawName x.1) = normKey script (src.rawName y.1))
  | ownApart (hx : src.OwnsName xs x) (hy : ¬ src.OwnsName xs y)
      (h : normKey script (src.rawName x.1) = normKey script (src.apartName y.1))
  | apartOwn (hx : ¬ src.OwnsName xs x) (hy : src.OwnsName xs y)
      (h : normKey script (src.apartName x.1) = normKey script (src.rawName y.1))
  | apart (hx : ¬ src.OwnsName xs x) (hy : ¬ src.OwnsName xs y)
      (h : normKey script (src.apartName x.1) = normKey script (src.apartName y.1))

def seriesName (xs : List (Record × Budget)) (x : Record × Budget) : String :=
  src.naming.settled xs x

variable {script src} {xs : List (Record × Budget)} {x y : Record × Budget}

theorem seriesName_of_owns (h : src.OwnsName xs x) : src.seriesName xs x = src.rawName x.1 :=
  if_pos h

theorem seriesName_of_not_owns (h : ¬ src.OwnsName xs x) :
    src.seriesName xs x = src.apartName x.1 :=
  if_neg h

theorem namedAlike_iff : NamedAlike script src xs x y ↔
    normKey script (src.seriesName xs x) = normKey script (src.seriesName xs y) := by
  by_cases hx : src.OwnsName xs x <;> by_cases hy : src.OwnsName xs y
  · rw [seriesName_of_owns hx, seriesName_of_owns hy]
    refine ⟨?_, .own hx hy⟩
    rintro (⟨-, -, h⟩ | ⟨-, hn, -⟩ | ⟨hn, -, -⟩ | ⟨hn, -, -⟩)
    exacts [h, absurd hy hn, absurd hx hn, absurd hx hn]
  · rw [seriesName_of_owns hx, seriesName_of_not_owns hy]
    refine ⟨?_, .ownApart hx hy⟩
    rintro (⟨-, hn, -⟩ | ⟨-, -, h⟩ | ⟨hn, -, -⟩ | ⟨hn, -, -⟩)
    exacts [absurd hn hy, h, absurd hx hn, absurd hx hn]
  · rw [seriesName_of_not_owns hx, seriesName_of_owns hy]
    refine ⟨?_, .apartOwn hx hy⟩
    rintro (⟨hn, -, -⟩ | ⟨hn, -, -⟩ | ⟨-, -, h⟩ | ⟨-, hn, -⟩)
    exacts [absurd hn hx, absurd hn hx, h, absurd hy hn]
  · rw [seriesName_of_not_owns hx, seriesName_of_not_owns hy]
    refine ⟨?_, .apart hx hy⟩
    rintro (⟨hn, -, -⟩ | ⟨hn, -, -⟩ | ⟨-, hn, -⟩ | ⟨-, -, h⟩)
    exacts [absurd hn hx, absurd hn hx, absurd hn hy, h]

end SeriesSource

section
variable {script : Script} {src : SeriesSource}

def SeriesSource.addNamed (src : SeriesSource) (ix : SeriesIndex) (x : Record × Budget) :
    SeriesIndex :=
  let name := src.naming.pick ix.seenBudget x
  ⟨ix.batches ++ [src.batch x.1 name x.2], ix.nameById.put (src.cid x.1) name,
    src.naming.take ix.seenBudget x⟩

theorem addSeries_of_budget {row : Record} {budget : Budget} (ix : SeriesIndex)
    (hcid : src.cid row ≠ "") (h : src.budget script row = some budget) :
    src.addSeries script row ix = some (src.addNamed ix (row, budget)) := by
  rw [SeriesSource.addSeries, if_neg hcid, h]
  rfl

theorem series_cons_skip {row : Record} (hcid : src.cid row = "") (rows : List Record) :
    src.series script (row :: rows) = src.series script rows := by
  rw [SeriesSource.series, List.filter_cons_of_neg (by simp [hcid])]
  rfl

theorem series_cons {row : Record} (hcid : src.cid row ≠ "") (rows : List Record) :
    src.series script (row :: rows) = (src.budget script row).bind fun budget =>
      (src.series script rows).map fun xs => (row, budget) :: xs := by
  rw [SeriesSource.series, List.filter_cons_of_pos (by simp [hcid]), List.mapM_cons]
  cases src.budget script row with
  | none => rfl
  | some budget =>
    change ((src.series script rows).bind fun xs => some ((row, budget) :: xs)) = _
    cases src.series script rows <;> rfl

theorem foldlM_addSeries (rows : List Record) (ix : SeriesIndex) :
    rows.foldlM (fun ix row => src.addSeries script row ix) ix =
      (src.series script rows).map fun xs => xs.foldl src.addNamed ix := by
  induction rows generalizing ix with
  | nil => rfl
  | cons row rows ih =>
    rw [List.foldlM_cons]
    by_cases hcid : src.cid row = ""
    · rw [SeriesSource.addSeries, if_pos hcid, series_cons_skip hcid, ← ih ix]
      rfl
    · rw [series_cons hcid]
      cases hbudget : src.budget script row with
      | none =>
        rw [SeriesSource.addSeries, if_neg hcid, hbudget]
        rfl
      | some budget =>
        rw [addSeries_of_budget ix hcid hbudget]
        change rows.foldlM _ (src.addNamed ix (row, budget)) = _
        rw [ih]
        cases src.series script rows <;> rfl

theorem foldl_addNamed (xs : List (Record × Budget)) (ix : SeriesIndex) :
    xs.foldl src.addNamed ix =
      let names := src.naming.assign ix.seenBudget xs
      ⟨ix.batches ++ List.zipWith (fun x name => src.batch x.1 name x.2) xs names,
        (List.zipWith (fun x name => (src.cid x.1, name)) xs names).foldl
          (fun d kv => d.put kv.1 kv.2) ix.nameById,
        xs.foldl src.naming.take ix.seenBudget⟩ := by
  induction xs generalizing ix with
  | nil => simp [Naming.assign]
  | cons x xs ih =>
    rw [List.foldl_cons, ih]
    simp [SeriesSource.addNamed, Naming.assign]

variable {dataset : SourceDataset} {cuName : String} {xs : List (Record × Budget)}

/-- The series of a source, when no reader raises. -/
def SeriesOf (script : Script) (dataset : SourceDataset) (cuName : String) (src : SeriesSource)
    (xs : List (Record × Budget)) : Prop :=
  ∃ cu, seriesTable script dataset cuName = some cu ∧ seriesSource script dataset cu = some src ∧
    src.series script cu.rows = some xs

def SeriesSource.batches (src : SeriesSource) (xs : List (Record × Budget)) : List SeriesBatch :=
  xs.map fun x => src.batch x.1 (src.seriesName xs x) x.2

def SeriesSource.nameById (src : SeriesSource) (xs : List (Record × Budget)) :
    Dict String String :=
  Dict.ofPairs (xs.map fun x => (src.cid x.1, src.seriesName xs x))

theorem foldl_addNamed_empty (xs : List (Record × Budget)) :
    ((xs.foldl src.addNamed ⟨[], [], []⟩).batches, (xs.foldl src.addNamed ⟨[], [], []⟩).nameById) =
      (src.batches xs, src.nameById xs) := by
  have hempty : ∀ n, Dict.get? ([] : Dict String Budget) n = src.naming.owner [] n := by
    intro n
    rw [Naming.owner_eq]
    rfl
  have hnames := src.naming.assign_eq hempty xs
  rw [foldl_addNamed]
  dsimp only
  rw [hnames, List.zipWith_map_right, List.zipWith_map_right, List.zipWith_self, List.zipWith_self]
  rfl

theorem advCardBatchIndex_eq (h : SeriesOf script dataset cuName src xs) :
    advCardBatchIndex script dataset cuName = some (src.batches xs, src.nameById xs) := by
  obtain ⟨cu, htable, hsource, hseries⟩ := h
  rw [advCardBatchIndex, htable]
  dsimp only
  rw [hsource]
  change ((cu.rows.foldlM (fun ix row => src.addSeries script row ix) ⟨[], [], []⟩).bind
    fun ix => some (ix.batches, ix.nameById)) = _
  rw [foldlM_addSeries, hseries, ← foldl_addNamed_empty]
  rfl

theorem seriesOf_of_index {index : List SeriesBatch × Dict String String}
    (h : advCardBatchIndex script dataset cuName = some index) :
    index = ([], []) ∨ ∃ src xs, SeriesOf script dataset cuName src xs := by
  rw [advCardBatchIndex] at h
  cases htable : seriesTable script dataset cuName with
  | none =>
    rw [htable] at h
    exact .inl (Option.some_inj.mp h).symm
  | some cu =>
    rw [htable] at h
    dsimp only at h
    obtain ⟨src, hsource, h⟩ := Option.bind_eq_some_iff.mp h
    obtain ⟨ix, hfold, -⟩ := Option.bind_eq_some_iff.mp h
    rw [foldlM_addSeries] at hfold
    obtain ⟨xs, hseries, -⟩ := Option.map_eq_some_iff.mp hfold
    exact .inr ⟨src, xs, cu, htable, hsource, hseries⟩

theorem SeriesBatch.key_candidate (b : SeriesBatch) :
    b.candidate.key script .batches = normKey script b.name := by
  rw [Candidate.key]
  rfl

end

section
variable {script : Script} {acc : Dict String Bucket} {user : String}

theorem get?_pivotRow_ofUser {cols : PivotColumns} {row : Record} (h : cols.ofUser row user) :
    (pivotRow script cols acc row).get? user =
      some (pivotBucket script cols row ((acc.get? user).getD [("username", user)])) := by
  rw [pivotRow_ofUser h, Dict.get?_put, if_pos rfl]

theorem get?_pivotRow_of_not {cols : PivotColumns} {row : Record} (h : ¬ cols.ofUser row user) :
    (pivotRow script cols acc row).get? user = acc.get? user := by
  unfold pivotRow
  dsimp only
  split_ifs with hskip
  · rfl
  · simp only [Bool.or_eq_true, decide_eq_true_eq, Bool.not_eq_true', not_or,
      Bool.not_eq_false] at hskip
    rw [Dict.get?_put, if_neg]
    rintro rfl
    exact h ⟨rfl, hskip⟩

def Bucket.Unlinked (b : Bucket) : Prop := b.get? "_id_card" = none ∧ b.get? "batch" = none

theorem unlinked_pivotBucket {cols : PivotColumns} {row : Record} {b : Bucket} (h : b.Unlinked) :
    (pivotBucket script cols row b).Unlinked := by
  have hput : ∀ key, "status" ≠ key → b.get? key = none →
      Dict.get? (if cols.rowBlocked row then b.put "status" "disabled" else b) key = none := by
    intro key hne hnone
    split_ifs
    · rw [Dict.get?_put, if_neg hne, hnone]
    · exact hnone
  constructor
  · rw [pivotBucket, get?_addAttribute _ _ _ (by decide)]
    exact hput _ (by decide) h.1
  · rw [pivotBucket, get?_addAttribute _ _ _ (by decide)]
    exact hput _ (by decide) h.2

theorem unlinked_pivotRow {cols : PivotColumns} (row : Record)
    (h : ∀ b, acc.get? user = some b → b.Unlinked) :
    ∀ b, (pivotRow script cols acc row).get? user = some b → b.Unlinked := by
  intro b hget
  by_cases hrow : cols.ofUser row user
  · rw [get?_pivotRow_ofUser hrow] at hget
    obtain rfl := Option.some_inj.mp hget
    refine unlinked_pivotBucket ?_
    cases hold : acc.get? user with
    | none => exact ⟨rfl, rfl⟩
    | some old => exact h old hold
  · rw [get?_pivotRow_of_not hrow] at hget
    exact h b hget

theorem isSome_pivotRows {cols : PivotColumns} (rows : List Record) :
    ((rows.foldl (pivotRow script cols) acc).get? user).isSome = true ↔
      (acc.get? user).isSome = true ∨ ∃ row ∈ rows, cols.ofUser row user := by
  induction rows generalizing acc with
  | nil => simp
  | cons row rows ih =>
    rw [List.foldl_cons, ih, List.exists_mem_cons_iff]
    by_cases hrow : cols.ofUser row user
    · rw [get?_pivotRow_ofUser hrow]
      simp [hrow]
    · rw [get?_pivotRow_of_not hrow]
      simp [hrow]

def linksIn (cols : GroupColumns) (rows : List Record) (user : String) : List String :=
  ((rows.filter fun row => row.text cols.user = user).map fun row => row.cell cols.idCard).filter
    fun cid => cid ≠ ""

theorem get?_groupRow {cols : GroupColumns} (hne : user ≠ "") (row : Record) :
    (groupRow cols acc row).get? user =
      (acc.get? user).map fun b =>
        if row.text cols.user = user then groupBucket cols row b else b := by
  unfold groupRow
  dsimp only
  by_cases hrow : row.text cols.user = user
  · rw [hrow]
    cases hget : acc.get? user with
    | none => exact hget
    | some b =>
      dsimp only
      rw [if_neg hne, Dict.get?_put, if_pos rfl, Option.map_some, if_pos rfl]
  · simp only [if_neg hrow, Option.map_id']
    split
    · rfl
    · split_ifs
      · rfl
      · rw [Dict.get?_put, if_neg hrow]

theorem get?_keepFirst_self (b : Bucket) (name val : String) :
    (b.keepFirst name val).get? name = (b.get? name).or (if val ≠ "" then some val else none) := by
  unfold Bucket.keepFirst
  cases hget : b.get? name with
  | some v => simp [hget]
  | none =>
    by_cases hval : val = ""
    · simp [hval, hget]
    · simp [hval, Dict.get?_put]

theorem groupBucket_idCard {cols : GroupColumns} (row : Record) (b : Bucket) :
    (groupBucket cols row b).get? "_id_card" = (b.get? "_id_card").or
      (if row.cell cols.idCard ≠ "" then some (row.cell cols.idCard) else none) := by
  rw [groupBucket, get?_keepFirst_self, get?_keepFirst _ (by decide)]

theorem get?_groupRows {cols : GroupColumns} (hne : user ≠ "") (rows : List Record) :
    ∀ b, (rows.foldl (groupRow cols) acc).get? user = some b → ∃ old, acc.get? user = some old ∧
      b.get? "batch" = old.get? "batch" ∧
      b.get? "_id_card" = (old.get? "_id_card").or (linksIn cols rows user).head? := by
  induction rows generalizing acc with
  | nil =>
    intro b hget
    exact ⟨b, hget, rfl, by simp [linksIn]⟩
  | cons row rows ih =>
    intro b hget
    obtain ⟨mid, hmid, hbatch, hcard⟩ := ih b hget
    rw [get?_groupRow hne] at hmid
    obtain ⟨old, hold, rfl⟩ := Option.map_eq_some_iff.mp hmid
    refine ⟨old, hold, ?_, ?_⟩
    · rw [hbatch]
      split_ifs
      · rw [get?_groupBucket _ (by decide) (by decide)]
      · rfl
    · rw [hcard]
      by_cases hrow : row.text cols.user = user
      · rw [if_pos hrow, groupBucket_idCard, Option.or_assoc]
        by_cases hcell : row.cell cols.idCard = ""
        · simp [linksIn, hrow, hcell]
        · simp [linksIn, hrow, hcell]
      · rw [if_neg hrow]
        simp [linksIn, hrow]

theorem isSome_groupRow {cols : GroupColumns} (row : Record) :
    ((groupRow cols acc row).get? user).isSome = (acc.get? user).isSome := by
  unfold groupRow
  dsimp only
  split
  · rfl
  · rename_i b hget
    split_ifs
    · rfl
    · rw [Dict.get?_put]
      split_ifs with hrow
      · rw [← hrow, hget]
        rfl
      · rfl

theorem isSome_groupRows {cols : GroupColumns} (rows : List Record) :
    ((rows.foldl (groupRow cols) acc).get? user).isSome = (acc.get? user).isSome := by
  induction rows generalizing acc with
  | nil => rfl
  | cons row rows ih => rw [List.foldl_cons, ih, isSome_groupRow]

variable {dataset : SourceDataset} {m : SectionMatch} {radcheck : SourceTable}

def cardLinks (script : Script) (dataset : SourceDataset) (m : SectionMatch) (user : String) :
    List String :=
  match groupTable script dataset m with
  | none => []
  | some ug => linksIn (groupColumns script ug (isCardsMatch m)) ug.rows user

def CardUser (script : Script) (dataset : SourceDataset) (m : SectionMatch) (user : String) : Prop :=
  ∃ radcheck, dataset.table m.sourceTable = some radcheck ∧
    (pivotColumns script radcheck m (isCardsMatch m)).attr ≠ "" ∧
    (pivotColumns script radcheck m (isCardsMatch m)).val ≠ "" ∧
    ∃ row ∈ radcheck.rows, (pivotColumns script radcheck m (isCardsMatch m)).ofUser row user

theorem ne_empty_of_mem_cardLinks {cid : String} (h : cid ∈ cardLinks script dataset m user) :
    cid ≠ "" := by
  unfold cardLinks at h
  split at h
  · cases h
  · exact of_decide_eq_true (List.mem_filter.mp h).2

theorem isSome_groupedBuckets :
    ((groupedBuckets script dataset m radcheck).get? user).isSome = true ↔
      ∃ row ∈ radcheck.rows, (pivotColumns script radcheck m (isCardsMatch m)).ofUser row user := by
  have hpivot : ((radcheck.rows.foldl (pivotRow script
      (pivotColumns script radcheck m (isCardsMatch m))) []).get? user).isSome = true ↔
      ∃ row ∈ radcheck.rows, (pivotColumns script radcheck m (isCardsMatch m)).ofUser row user := by
    rw [isSome_pivotRows]
    simp only [Dict.get?, Option.isSome_none, Bool.false_eq_true, false_or]
  unfold groupedBuckets
  dsimp only
  split
  · exact hpivot
  · rw [isSome_groupRows]
    exact hpivot

theorem get?_groupedBuckets (hne : user ≠ "") {b : Bucket}
    (hget : (groupedBuckets script dataset m radcheck).get? user = some b) :
    b.get? "batch" = none ∧ b.get? "_id_card" = (cardLinks script dataset m user).head? := by
  have hpivot : ∀ b, Dict.get? (radcheck.rows.foldl
      (pivotRow script (pivotColumns script radcheck m (isCardsMatch m))) []) user = some b →
      b.Unlinked :=
    Run.run_always
      (I := fun acc : Dict String Bucket => ∀ b, acc.get? user = some b → Bucket.Unlinked b)
      (fun _ row h => unlinked_pivotRow row h) (by simp [Dict.get?])
  unfold groupedBuckets at hget
  dsimp only at hget
  unfold cardLinks
  split at hget
  · obtain ⟨hcard, hbatch⟩ := hpivot b hget
    exact ⟨hbatch, by simp [*]⟩
  · obtain ⟨old, hold, hbatch, hcard⟩ := get?_groupRows hne _ b hget
    obtain ⟨hnone, hunlinked⟩ := hpivot old hold
    rw [hbatch, hcard, hnone, hunlinked]
    exact ⟨rfl, by simp [*]⟩

theorem mem_groupMembers_of_link {cid : String} (h : cid ∈ cardLinks script dataset m user)
    (hne : user ≠ "") : user ∈ groupMembers script dataset m := by
  rw [cardLinks] at h
  rw [groupMembers]
  cases hgroup : groupTable script dataset m with
  | none => simp [hgroup] at h
  | some ug =>
    simp only [hgroup] at h
    obtain ⟨hmap, -⟩ := List.mem_filter.mp h
    obtain ⟨row, hrow, -⟩ := List.mem_map.mp hmap
    obtain ⟨hmem, huser⟩ := List.mem_filter.mp hrow
    rw [decide_eq_true_eq] at huser
    rw [List.mem_filter, List.mem_map]
    exact ⟨⟨row, hmem, huser⟩, decide_eq_true hne⟩

def batchName (nameById : Dict String String) (links : List String) : Option String :=
  links.head?.bind nameById.get?

theorem linkBatch_batch {nameById : Dict String String} {b : Bucket} {links : List String}
    (hlinks : ∀ cid ∈ links, cid ≠ "") (hcard : b.get? "_id_card" = links.head?)
    (hbatch : b.get? "batch" = none) :
    (linkBatch nameById b).get? "batch" = batchName nameById links := by
  unfold linkBatch batchName
  rw [hcard]
  cases links with
  | nil => exact hbatch
  | cons cid rest =>
    rw [List.head?_cons, Option.bind_some, Option.bind_some,
      if_neg (hlinks cid List.mem_cons_self)]
    cases nameById.get? cid with
    | none => exact hbatch
    | some name => rw [Dict.get?_put, if_pos rfl]

theorem linkBatch_username {nameById : Dict String String} (b : Bucket) :
    (linkBatch nameById b).get? "username" = b.get? "username" := by
  unfold linkBatch
  split
  · rw [Dict.get?_put, if_neg (by decide)]
  · rfl

variable {index : List SeriesBatch × Dict String String} {cs : List Candidate}

theorem buildFreeradiusPivot_cards (hm : isCardsMatch m = true)
    (hindex : advCardBatchIndex script dataset (m.column "_cardbatch_table") = some index)
    (htable : dataset.table m.sourceTable = some radcheck)
    (hattr : (pivotColumns script radcheck m (isCardsMatch m)).attr ≠ "")
    (hval : (pivotColumns script radcheck m (isCardsMatch m)).val ≠ "") :
    buildFreeradiusPivot script dataset m =
      some (((groupedBuckets script dataset m radcheck).filter fun kv =>
        (groupMembers script dataset m).isEmpty ||
          (groupMembers script dataset m).contains kv.1).map fun kv =>
        (linkBatch index.2 kv.2).candidate) := by
  rw [buildFreeradiusPivot, htable]
  dsimp only
  rw [if_neg (by simp [hattr, hval]), if_pos hm, hindex]
  rfl

theorem exists_card (hm : isCardsMatch m = true)
    (hindex : advCardBatchIndex script dataset (m.column "_cardbatch_table") = some index)
    (huser : CardUser script dataset m user) {cid : String}
    (hcid : cid ∈ cardLinks script dataset m user) :
    ∃ cs, buildFreeradiusPivot script dataset m = some cs ∧
      ∃ c ∈ cs, c.text "username" = user := by
  obtain ⟨radcheck, htable, hattr, hval, row, hrow, hof⟩ := huser
  have hne : user ≠ "" := hof.2.1
  refine ⟨_, buildFreeradiusPivot_cards hm hindex htable hattr hval, ?_⟩
  obtain ⟨b, hget⟩ := Option.isSome_iff_exists.mp
    (isSome_groupedBuckets.mpr ⟨row, hrow, hof⟩)
  have hmember := mem_groupMembers_of_link hcid hne
  refine ⟨_, List.mem_map.mpr ⟨(user, b), ?_, rfl⟩, ?_⟩
  · rw [List.mem_filter]
    exact ⟨Dict.mem_of_get? hget, by simp [hmember]⟩
  · apply Bucket.text_candidate
    rw [linkBatch_username]
    exact groupedBuckets_sound.named user b hget

theorem card_of_mem (hm : isCardsMatch m = true)
    (hindex : advCardBatchIndex script dataset (m.column "_cardbatch_table") = some index)
    (hcs : buildFreeradiusPivot script dataset m = some cs) {c : Candidate} (hc : c ∈ cs) :
    CardUser script dataset m (c.text "username") ∧
      c.fields.lookup "batch" =
        (batchName index.2 (cardLinks script dataset m (c.text "username"))).map Json.str := by
  cases htable : dataset.table m.sourceTable with
  | none =>
    rw [buildFreeradiusPivot, htable] at hcs
    obtain rfl := Option.some_inj.mp hcs
    cases hc
  | some radcheck =>
    by_cases hcols : (pivotColumns script radcheck m (isCardsMatch m)).attr = "" ∨
        (pivotColumns script radcheck m (isCardsMatch m)).val = ""
    · rw [buildFreeradiusPivot, htable] at hcs
      dsimp only at hcs
      rw [if_pos (by simpa using hcols)] at hcs
      obtain rfl := Option.some_inj.mp hcs
      cases hc
    · obtain ⟨hattr, hval⟩ := not_or.mp hcols
      rw [buildFreeradiusPivot_cards hm hindex htable hattr hval] at hcs
      obtain rfl := Option.some_inj.mp hcs
      obtain ⟨⟨user, b⟩, hmem, rfl⟩ := List.mem_map.mp hc
      have hget := Dict.get?_of_mem groupedBuckets_sound.nodup (List.mem_filter.mp hmem).1
      have hname := groupedBuckets_sound.named user b hget
      have huser : (linkBatch index.2 b).candidate.text "username" = user := by
        apply Bucket.text_candidate
        rw [linkBatch_username, hname]
      have hsome : ((groupedBuckets script dataset m radcheck).get? user).isSome = true := by
        rw [hget]
        rfl
      obtain ⟨row, hrow, hof⟩ := isSome_groupedBuckets.mp hsome
      obtain ⟨hbatch, hcard⟩ := get?_groupedBuckets hof.2.1 hget
      rw [huser]
      refine ⟨⟨radcheck, htable, hattr, hval, row, hrow, hof⟩, ?_⟩
      rw [lookup_candidate, linkBatch_batch (fun cid h => ne_empty_of_mem_cardLinks h) hcard hbatch]

end

structure CardImport where
  batches : SectionMatch
  cards : SectionMatch
  isCards : isCardsMatch cards = true
  series : cards.column "_cardbatch_table" = batches.sourceTable

section
variable (script : Script) (dataset : SourceDataset) (imp : CardImport)

def DistinctIds : Prop :=
  ∀ cu, seriesTable script dataset imp.batches.sourceTable = some cu →
    ((cu.rows.map fun row => row.cell (seriesColumns script cu.columns).id).filter
      fun cid => cid ≠ "").Nodup

def AttachedTo (c : Candidate) (b : SeriesBatch) : Prop :=
  ∃ name, c.fields.lookup "batch" = some (.str name) ∧
    normKey script name = b.candidate.key script .batches

/-- Batches of other budgets have other keys, and a card goes to the batch of each series that it
is linked to. -/
structure SeriesKept : Prop where
  apart : ∀ index, advCardBatchIndex script dataset imp.batches.sourceTable = some index →
    ∀ b ∈ index.1, ∀ b' ∈ index.1, b.budget ≠ b'.budget →
      b.candidate.key script .batches ≠ b'.candidate.key script .batches
  attached : ∀ index, advCardBatchIndex script dataset imp.batches.sourceTable = some index →
    ∀ cs, buildFreeradiusPivot script dataset imp.cards = some cs → ∀ c ∈ cs, ∀ b ∈ index.1,
      b.cuId ∈ cardLinks script dataset imp.cards (c.text "username") → AttachedTo script c b

/-- No two series of other budgets go by names that look alike, and the first series that a card
is linked to goes by the name of each other one. -/
structure SeriesApart : Prop where
  names : ∀ src xs, SeriesOf script dataset imp.batches.sourceTable src xs →
    ∀ x ∈ xs, ∀ y ∈ xs, x.2 ≠ y.2 → ¬ src.NamedAlike script xs x y
  links : ∀ src xs, SeriesOf script dataset imp.batches.sourceTable src xs →
    ∀ user, CardUser script dataset imp.cards user →
      ∀ y ∈ xs, src.cid y.1 ∈ cardLinks script dataset imp.cards user →
        ∃ x ∈ xs, (cardLinks script dataset imp.cards user).head? = some (src.cid x.1) ∧
          src.NamedAlike script xs x y

variable {script dataset imp} {src : SeriesSource} {xs : List (Record × Budget)}

theorem ids_of_series {rows : List Record} (h : src.series script rows = some xs) :
    (xs.map fun x => src.cid x.1) = (rows.map src.cid).filter fun cid => cid ≠ "" := by
  induction rows generalizing xs with
  | nil =>
    obtain rfl := Option.some_inj.mp h
    rfl
  | cons row rows ih =>
    rw [List.map_cons]
    by_cases hcid : src.cid row = ""
    · rw [series_cons_skip hcid] at h
      rw [List.filter_cons_of_neg (by simp [hcid]), ih h]
    · rw [series_cons hcid] at h
      obtain ⟨budget, -, h⟩ := Option.bind_eq_some_iff.mp h
      obtain ⟨rest, hrest, rfl⟩ := Option.map_eq_some_iff.mp h
      rw [List.filter_cons_of_pos (by simp [hcid]), ← ih hrest]
      rfl

theorem DistinctIds.nodup (hids : DistinctIds script dataset imp)
    (h : SeriesOf script dataset imp.batches.sourceTable src xs) :
    (xs.map fun x => src.cid x.1).Nodup := by
  obtain ⟨cu, htable, hsource, hseries⟩ := h
  have hcolumns : src.columns = seriesColumns script cu.columns := by
    obtain ⟨profileSeconds, -, h⟩ := Option.bind_eq_some_iff.mp hsource
    obtain ⟨groupSeconds, -, h⟩ := Option.bind_eq_some_iff.mp h
    obtain rfl := Option.some_inj.mp h
    rfl
  rw [ids_of_series hseries]
  have hnodup := hids cu htable
  rw [← hcolumns] at hnodup
  exact hnodup

theorem mem_batches {b : SeriesBatch} :
    b ∈ src.batches xs ↔ ∃ x ∈ xs, src.batch x.1 (src.seriesName xs x) x.2 = b :=
  List.mem_map

theorem names_apart_iff : (∀ b ∈ src.batches xs, ∀ b' ∈ src.batches xs, b.budget ≠ b'.budget →
      b.candidate.key script .batches ≠ b'.candidate.key script .batches) ↔
    ∀ x ∈ xs, ∀ y ∈ xs, x.2 ≠ y.2 → ¬ src.NamedAlike script xs x y := by
  simp only [SeriesSource.batches, List.forall_mem_map, SeriesBatch.key_candidate,
    SeriesSource.namedAlike_iff]
  rfl

theorem exists_of_get?_nameById {cid name : String} (h : (src.nameById xs).get? cid = some name) :
    ∃ x ∈ xs, src.cid x.1 = cid ∧ src.seriesName xs x = name := by
  rw [SeriesSource.nameById, Dict.get?_ofPairs] at h
  obtain ⟨kv, hlast, rfl⟩ := Option.map_eq_some_iff.mp h
  obtain ⟨hmem, hkey⟩ := List.mem_filter.mp (List.mem_of_getLast? hlast)
  obtain ⟨x, hx, rfl⟩ := List.mem_map.mp hmem
  exact ⟨x, hx, of_decide_eq_true hkey, rfl⟩

theorem get?_nameById (hids : (xs.map fun x => src.cid x.1).Nodup) {x : Record × Budget}
    (hx : x ∈ xs) : (src.nameById xs).get? (src.cid x.1) = some (src.seriesName xs x) := by
  cases hget : (src.nameById xs).get? (src.cid x.1) with
  | some name =>
    obtain ⟨y, hy, hcid, rfl⟩ := exists_of_get?_nameById hget
    rw [List.inj_on_of_nodup_map hids hy hx hcid]
  | none =>
    rw [SeriesSource.nameById, Dict.get?_ofPairs, Option.map_eq_none_iff,
      List.getLast?_eq_none_iff, List.filter_eq_nil_iff, List.forall_mem_map] at hget
    exact absurd (decide_eq_true rfl) (hget x hx)

theorem attachedTo_iff (hids : (xs.map fun x => src.cid x.1).Nodup) {c : Candidate}
    {links : List String}
    (hc : c.fields.lookup "batch" = (batchName (src.nameById xs) links).map Json.str)
    {y : Record × Budget} :
    AttachedTo script c (src.batch y.1 (src.seriesName xs y) y.2) ↔
      ∃ x ∈ xs, links.head? = some (src.cid x.1) ∧ src.NamedAlike script xs x y := by
  rw [AttachedTo, hc]
  simp only [SeriesBatch.key_candidate, SeriesSource.namedAlike_iff, batchName]
  constructor
  · rintro ⟨name, hname, hkey⟩
    obtain ⟨name', hbind, hstr⟩ := Option.map_eq_some_iff.mp hname
    obtain rfl := Json.str.inj hstr
    obtain ⟨cid, hhead, hget⟩ := Option.bind_eq_some_iff.mp hbind
    obtain ⟨x, hx, rfl, rfl⟩ := exists_of_get?_nameById hget
    exact ⟨x, hx, hhead, hkey⟩
  · rintro ⟨x, hx, hhead, hkey⟩
    refine ⟨src.seriesName xs x, ?_, hkey⟩
    rw [hhead, Option.bind_some, get?_nameById hids hx]
    rfl

/-- Series of other budgets are kept apart, and cards with their series, exactly when the names
that series go by do not look alike and the links of a card agree. -/
theorem series_kept_iff (hids : DistinctIds script dataset imp) :
    SeriesKept script dataset imp ↔ SeriesApart script dataset imp := by
  constructor
  · intro h
    refine ⟨fun src xs hsrc => ?_, fun src xs hsrc user huser y hy hlink => ?_⟩
    · exact names_apart_iff.mp (h.apart _ (advCardBatchIndex_eq hsrc))
    · have hindex := advCardBatchIndex_eq hsrc
      rw [← imp.series] at hindex
      obtain ⟨cs, hcs, c, hc, rfl⟩ := exists_card imp.isCards hindex huser hlink
      obtain ⟨-, hbatch⟩ := card_of_mem imp.isCards hindex hcs hc
      refine (attachedTo_iff (hids.nodup hsrc) hbatch).mp ?_
      exact h.attached _ (advCardBatchIndex_eq hsrc) cs hcs c hc _
        (mem_batches.mpr ⟨y, hy, rfl⟩) hlink
  · intro h
    refine ⟨fun index hindex => ?_, fun index hindex cs hcs c hc b hb hlink => ?_⟩
    · obtain rfl | ⟨src, xs, hsrc⟩ := seriesOf_of_index hindex
      · nofun
      · rw [advCardBatchIndex_eq hsrc] at hindex
        obtain rfl := Option.some_inj.mp hindex
        exact names_apart_iff.mpr (h.names src xs hsrc)
    · obtain rfl | ⟨src, xs, hsrc⟩ := seriesOf_of_index hindex
      · cases hb
      · rw [advCardBatchIndex_eq hsrc] at hindex
        obtain rfl := Option.some_inj.mp hindex
        obtain ⟨y, hy, rfl⟩ := mem_batches.mp hb
        have hcards := advCardBatchIndex_eq hsrc
        rw [← imp.series] at hcards
        obtain ⟨huser, hbatch⟩ := card_of_mem imp.isCards hcards hcs hc
        exact (attachedTo_iff (hids.nodup hsrc) hbatch).mpr
          (h.links src xs hsrc _ huser y hy hlink)

end

def seriesDump (name name' : String) : SourceDataset where
  tables :=
    [⟨"card_users", ["id", "year", "num_ser", "date_end_card", "val_date"],
        [[("id", "3383"), ("year", "2024"), ("num_ser", "10"), ("date_end_card", "10"),
            ("val_date", "2")],
          [("id", "3439"), ("year", "2024"), ("num_ser", "11"), ("date_end_card", "8"),
            ("val_date", "2")]]⟩,
      ⟨"rep_cards", ["year", "num_ser", "name_ser"],
        [[("year", "2024"), ("num_ser", "10"), ("name_ser", name)],
          [("year", "2024"), ("num_ser", "11"), ("name_ser", name')]]⟩]

def seriesImport : CardImport where
  batches := ⟨"card_users", [], "freeradius_batches"⟩
  cards := ⟨"radcheck", [("_cardbatch_table", "card_users")], "freeradius_cards"⟩
  isCards := by decide
  series := by decide

def budgetKeys (script : Script) (dataset : SourceDataset) (cuName : String) :
    Option (List (Budget × String)) :=
  (advCardBatchIndex script dataset cuName).map fun index =>
    index.1.map fun b => (b.budget, b.candidate.key script .batches)

theorem apart_of_budgetKeys {script : Script} {dataset : SourceDataset} {cuName : String}
    {keys : List (Budget × String)} (h : budgetKeys script dataset cuName = some keys)
    (hkeys : ∀ k ∈ keys, ∀ k' ∈ keys, k.1 ≠ k'.1 → k.2 ≠ k'.2)
    {index : List SeriesBatch × Dict String String}
    (hindex : advCardBatchIndex script dataset cuName = some index) :
    ∀ b ∈ index.1, ∀ b' ∈ index.1, b.budget ≠ b'.budget →
      b.candidate.key script .batches ≠ b'.candidate.key script .batches := by
  rw [budgetKeys, hindex] at h
  obtain rfl := Option.some_inj.mp h
  intro b hb b' hb'
  exact hkeys _ (List.mem_map_of_mem hb) _ (List.mem_map_of_mem hb')

example : (budgetKeys latin (seriesDump "Top Net" "Night") "card_users").isSome := by decide +kernel

theorem series_apart_same_name :
    SeriesApart latin (seriesDump "Top Net" "Top Net") seriesImport := by
  have hkeys : budgetKeys latin (seriesDump "Top Net" "Top Net") "card_users" =
      some [((10, "hours"), "top net"), ((8, "hours"), "top net 2024 11")] := by decide +kernel
  have hids : DistinctIds latin (seriesDump "Top Net" "Top Net") seriesImport := by
    intro cu hcu
    obtain rfl := Option.some_inj.mp hcu
    decide
  refine (series_kept_iff hids).mp ⟨fun index hindex => ?_, fun index _ cs hcs c hc => ?_⟩
  · exact apart_of_budgetKeys hkeys (by decide) hindex
  · obtain rfl := Option.some_inj.mp hcs
    cases hc

/-- Names that differ in case only make one batch of series of ten hours and of eight. -/
theorem series_merged_other_case :
    ¬ SeriesKept latin (seriesDump "Top Net" "top net") seriesImport := by
  intro h
  have hkeys : budgetKeys latin (seriesDump "Top Net" "top net") "card_users" =
      some [((10, "hours"), "top net"), ((8, "hours"), "top net")] := by decide +kernel
  obtain ⟨index, hindex, hmap⟩ := Option.map_eq_some_iff.mp hkeys
  obtain ⟨b, rest, hb, hkey, hrest⟩ := List.map_eq_cons_iff.mp hmap
  obtain ⟨b', rest', hb', hkey', -⟩ := List.map_eq_cons_iff.mp hrest
  rw [Prod.mk.injEq] at hkey hkey'
  refine h.apart index hindex b (by simp [hb]) b' (by simp [hb, hb']) ?_ (hkey.2.trans hkey'.2.symm)
  rw [hkey.1, hkey'.1]
  decide

end RadiusModule.Migration
