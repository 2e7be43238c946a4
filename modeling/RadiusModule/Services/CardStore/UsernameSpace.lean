import RadiusModule.Library.NumberText
import RadiusModule.Services.CardStore.LoginNames

/-!
# The names that a pattern leaves free

`pick_unique_usernames` with the set of taken names that it extends. The
names of a pattern are its affixes around every text of as many digits, so
they are counted by the numbers below a power of ten.
-/

namespace RadiusModule.CardStore.UsernameSpace
open Library

structure FairDraws extends Draws where
  length_digits : ∀ i n, (digits i n).length = n
  sample_subperm : ∀ l n, n ≤ l.length → (sample l n).Subperm l
  length_sample : ∀ l n, n ≤ l.length → (sample l n).length = n

def Pattern (pre suf : String) (n : ℕ) : Set String :=
  {name | ∃ digits : String, digits.length = n ∧ (∀ c ∈ digits.toList, c.isDigit = true) ∧
    name = pre ++ digits ++ suf}

@[simp] theorem length_places (n i : ℕ) : (places n i).length = n := by
  induction n generalizing i with
  | zero => rfl
  | succ n ih => simp [places, ih]

theorem digitChar_injective {a b : ℕ} (ha : a < 10) (hb : b < 10)
    (h : Nat.digitChar a = Nat.digitChar b) : a = b := by
  have hall : ∀ a < 10, ∀ b < 10, Nat.digitChar a = Nat.digitChar b → a = b := by decide
  exact hall a ha b hb h

theorem places_injective {n i j : ℕ} (hi : i < 10 ^ n) (hj : j < 10 ^ n)
    (h : places n i = places n j) : i = j := by
  induction n generalizing i j with
  | zero => omega
  | succ n ih =>
    rw [pow_succ] at hi hj
    obtain ⟨hinit, hlast⟩ := List.append_inj' h rfl
    have htens : i / 10 = j / 10 := ih (by omega) (by omega) hinit
    have hones : i % 10 = j % 10 :=
      digitChar_injective (by omega) (by omega) (List.singleton_injective hlast)
    omega

theorem exists_digitChar {c : Char} (h : c.isDigit = true) : ∃ d < 10, Nat.digitChar d = c := by
  obtain ⟨n, hn, rfl⟩ := PyText.isDigit_cases h
  have hall : ∀ n ∈ List.range' 48 10, Nat.digitChar (n - 48) = Char.ofNat n := by decide
  have hbounds := List.mem_range'_1.mp hn
  exact ⟨n - 48, by omega, hall n hn⟩

theorem exists_places {digits : List Char} (h : ∀ c ∈ digits, c.isDigit = true) :
    ∃ i < 10 ^ digits.length, places digits.length i = digits := by
  induction digits using List.reverseRecOn with
  | nil => exact ⟨0, by simp, rfl⟩
  | append_singleton digits c ih =>
    obtain ⟨i, hi, hplaces⟩ := ih fun d hd => h d (List.mem_append_left _ hd)
    obtain ⟨d, hd, rfl⟩ := exists_digitChar (h c (by simp))
    refine ⟨10 * i + d, ?_, ?_⟩
    · rw [List.length_append, List.length_singleton, pow_succ]
      omega
    · rw [List.length_append, List.length_singleton, places]
      have htens : (10 * i + d) / 10 = i := by omega
      have hones : (10 * i + d) % 10 = d := by omega
      rw [htens, hones, hplaces]

section

variable {pre suf : String} {n : ℕ} {taken : Finset String}

theorem mem_patternNames {name : String} :
    name ∈ patternNames pre suf n ↔ name ∈ Pattern pre suf n := by
  constructor
  · intro h
    obtain ⟨i, -, rfl⟩ := List.mem_map.mp h
    exact ⟨String.ofList (places n i), by simp, by simpa using isDigit_places, rfl⟩
  · rintro ⟨digits, rfl, hdigits, rfl⟩
    obtain ⟨i, hi, hplaces⟩ := exists_places hdigits
    rw [String.length_toList] at hi hplaces
    exact List.mem_map.mpr ⟨i, List.mem_range.mpr hi, by rw [hplaces, String.ofList_toList]⟩

theorem nodup_patternNames : (patternNames pre suf n).Nodup := by
  refine List.Nodup.map_on (fun i hi j hj h => ?_) List.nodup_range
  have htext : pre.toList ++ places n i ++ suf.toList = pre.toList ++ places n j ++ suf.toList := by
    simpa using congrArg String.toList h
  exact places_injective (List.mem_range.mp hi) (List.mem_range.mp hj)
    (List.append_cancel_left (List.append_cancel_right htext))

theorem inPattern_iff {name : String} :
    inPattern pre suf n name = true ↔ name ∈ Pattern pre suf n := by
  simp only [inPattern, Bool.and_eq_true, decide_eq_true_eq, List.isPrefixOf_iff_prefix,
    List.isSuffixOf_iff_suffix, List.all_eq_true]
  constructor
  · rintro ⟨⟨⟨hlength, hpre⟩, hsuf⟩, hdigits⟩
    rw [← String.length_toList] at hlength
    have hhead := List.prefix_iff_eq_take.mp hpre
    have htail := List.suffix_iff_eq_drop.mp hsuf
    rw [hlength, String.length_toList, Nat.add_sub_cancel] at htail
    rw [String.length_toList] at hhead
    refine ⟨String.ofList ((name.toList.drop pre.length).take n), ?_, by simpa using hdigits, ?_⟩
    · rw [String.length_ofList, List.length_take, List.length_drop, hlength]
      omega
    · refine String.toList_injective ?_
      rw [String.toList_append, String.toList_append, String.toList_ofList, hhead, htail,
        List.append_assoc]
      conv_lhs => rw [← List.take_append_drop pre.length name.toList]
      conv_lhs => rw [← List.take_append_drop n (name.toList.drop pre.length), List.drop_drop]
  · rintro ⟨digits, rfl, hdigits, rfl⟩
    simp only [String.length_append, String.toList_append]
    refine ⟨⟨⟨trivial, ?_⟩, ?_⟩, ?_⟩
    · rw [List.append_assoc]
      exact List.prefix_append _ _
    · exact List.suffix_append _ _
    · rw [List.append_assoc, ← String.length_toList (s := pre), List.drop_left,
        ← String.length_toList, List.take_left]
      exact hdigits

theorem freeNames_toFinset :
    ((patternNames pre suf n).filter fun name => name ∉ taken : List String).toFinset =
      (patternNames pre suf n).toFinset \ taken := by
  ext name
  simp

theorem coe_patternNames : ((patternNames pre suf n).toFinset : Set String) = Pattern pre suf n := by
  ext name
  simp [mem_patternNames]

noncomputable def free (pre suf : String) (n : ℕ) (taken : Finset String) : ℕ :=
  (Pattern pre suf n \ taken).ncard

theorem free_eq_card : free pre suf n taken = ((patternNames pre suf n).toFinset \ taken).card := by
  rw [free, ← coe_patternNames, ← Finset.coe_sdiff, Set.ncard_coe_finset]

theorem length_freeNames :
    ((patternNames pre suf n).filter fun name => name ∉ taken).length = free pre suf n taken := by
  rw [free_eq_card, ← freeNames_toFinset,
    List.toFinset_card_of_nodup (nodup_patternNames.filter _)]

theorem available_eq : available pre suf n taken = free pre suf n taken := by
  have hall : (patternNames pre suf n).toFinset.card = 10 ^ n := by
    rw [List.toFinset_card_of_nodup nodup_patternNames, patternNames, List.length_map,
      List.length_range]
  have hused : taken.filter (fun name => inPattern pre suf n name) =
      taken ∩ (patternNames pre suf n).toFinset := by
    ext name
    simp [inPattern_iff, mem_patternNames]
  have hsplit := Finset.card_sdiff_add_card_inter (patternNames pre suf n).toFinset taken
  rw [available, hused, Finset.inter_comm, free_eq_card]
  rw [hall] at hsplit
  have hcast : (10 : ℤ) ^ n = ((10 ^ n : ℕ) : ℤ) := by push_cast; rfl
  rw [hcast, ← hsplit]
  push_cast
  ring

/-- What a call returns: as many names as asked for, of the pattern, all new, and the taken names
with just these. -/
structure Exact (count : ℤ) (pre suf : String) (n : ℕ) (taken : Finset String)
    (names : List String) (after : Finset String) : Prop where
  length : names.length = count.toNat
  nodup : names.Nodup
  pattern : ∀ name ∈ names, name ∈ Pattern pre suf n
  fresh : ∀ name ∈ names, name ∉ taken
  taken : after = taken ∪ names.toFinset

theorem sampleNames_spec (d : FairDraws) {count : ℤ} (h : count ≤ free pre suf n taken) :
    ∃ names after, sampleNames d.toDraws count pre suf n taken = (.ok names, after) ∧
      Exact count pre suf n taken names after := by
  rw [← length_freeNames] at h
  have hfit : count.toNat ≤ ((patternNames pre suf n).filter fun name => name ∉ taken).length := by
    omega
  obtain ⟨part, hperm, hsub⟩ := d.sample_subperm _ _ hfit
  have hfree : ∀ {name : String}, name ∈ d.sample ((patternNames pre suf n).filter
      fun name => name ∉ taken) count.toNat → name ∈ Pattern pre suf n ∧ name ∉ taken := by
    intro name hname
    obtain ⟨hpattern, hfresh⟩ := List.mem_filter.mp (hsub.subset (hperm.mem_iff.mpr hname))
    exact ⟨mem_patternNames.mp hpattern, by simpa using hfresh⟩
  refine ⟨_, _, if_neg (not_lt.mpr h), d.length_sample _ _ hfit,
    hperm.nodup_iff.mp (hsub.nodup (nodup_patternNames.filter _)), fun name hname => ?_,
    fun name hname => ?_, rfl⟩
  · exact (hfree hname).1
  · exact (hfree hname).2

theorem exact_drawn (d : FairDraws) {count : ℤ} {drawn : List String} (hnodup : drawn.Nodup)
    (hnew : ∀ x ∈ drawn, x ∉ taken ∧ ∃ i, x = pre ++ d.digits i n ++ suf)
    (hlength : drawn.length = count.toNat) :
    Exact count pre suf n taken drawn (taken ∪ drawn.toFinset) := by
  refine ⟨hlength, hnodup, fun name hname => ?_, fun name hname => (hnew name hname).1, rfl⟩
  obtain ⟨-, i, rfl⟩ := hnew name hname
  exact ⟨d.digits i n, d.length_digits i n, d.digits_only i n, rfl⟩

end

section

variable (lower : String → String) (d : FairDraws) (count : ℤ) (prefixText suffixText : String)
  (usernameLength : ℤ) (taken : Finset String)

theorem pick_cases {pre suf : String} {n : ℕ} (hpre : lower prefixText = pre)
    (hsuf : lower suffixText = suf) (hn : randLen pre suf usernameLength = n) :
    (∃ names after, pickUniqueUsernames d.toDraws count lower prefixText suffixText usernameLength taken =
        (.ok names, after) ∧ count ≤ free pre suf n taken ∧
      Exact count pre suf n taken names after) ∨
    (∃ e after, pickUniqueUsernames d.toDraws count lower prefixText suffixText usernameLength taken =
        (.error (.usernameSpaceExhausted e), after) ∧
      (free pre suf n taken < count ∨
        ¬(10 ^ n ≤ denseEnumerationMax ∧ free pre suf n taken < count * 2))) := by
  unfold pickUniqueUsernames
  simp only [hpre, hsuf, hn, available_eq]
  split_ifs with hnone hspace hdense hshort
  · refine .inl ⟨[], taken, rfl, by omega, ?_⟩
    exact ⟨(Int.toNat_of_nonpos hnone).symm, by simp, by simp, by simp, by simp⟩
  · exact .inr ⟨_, _, rfl, .inl hspace⟩
  · obtain ⟨names, after, heq, hexact⟩ := sampleNames_spec d (not_lt.mp hspace)
    exact .inl ⟨names, after, heq, not_lt.mp hspace, hexact⟩
  · exact .inr ⟨_, _, rfl, .inr hdense⟩
  · obtain ⟨drawn, heq, hnodup, hnew, hlength⟩ := drawNames_spec
      (fun i => pre ++ d.digits i n ++ suf) count.toNat (count * 60 + 1000).toNat taken []
    rw [heq, List.nil_append] at hshort ⊢
    rw [List.nil_append] at hlength
    have hmost := hlength (Nat.zero_le _)
    have hall : count ≤ drawn.length := not_lt.mp hshort
    exact .inl ⟨drawn, _, rfl, not_lt.mp hspace, exact_drawn d hnodup hnew (by omega)⟩

end

/-- A call returns as many new names of the pattern as asked for and marks just these as taken, or
raises that the names do not suffice; the test of the capacity and the dense branch raise exactly
when they do not. -/
theorem usernames_exact (lower : String → String) (d : FairDraws) (count : ℤ)
    (prefixText suffixText : String) (usernameLength : ℤ) (taken : Finset String) :
    let pre := lower prefixText
    let suf := lower suffixText
    let n := (max 1 (usernameLength - pre.length - suf.length)).toNat
    let result := pickUniqueUsernames d.toDraws count lower prefixText suffixText usernameLength taken
    (∀ names, result.1 = .ok names → Exact count pre suf n taken names result.2) ∧
    (∀ e, result.1 = .error e → ∃ x, e = .usernameSpaceExhausted x) ∧
    (available pre suf n taken < count ↔ free pre suf n taken < count) ∧
    (free pre suf n taken < count → ∃ e, result.1 = .error e) ∧
    (10 ^ n ≤ denseEnumerationMax → available pre suf n taken < count * 2 →
      ((∃ e, result.1 = .error e) ↔ free pre suf n taken < count)) := by
  intro pre suf n result
  have hleft : available pre suf n taken = free pre suf n taken := available_eq
  rw [hleft]
  rcases pick_cases lower d count prefixText suffixText usernameLength taken rfl rfl rfl with
    ⟨names, after, heq, henough, hexact⟩ | ⟨e, after, heq, hwhy⟩
  · have hresult : result = (.ok names, after) := heq
    rw [hresult]
    refine ⟨?_, ?_, Iff.rfl, fun hless => absurd hless (not_lt.mpr henough), fun _ _ => ?_⟩
    · rintro _ ⟨⟩
      exact hexact
    · rintro _ ⟨⟩
    · refine ⟨fun hraised => ?_, fun hless => absurd hless (not_lt.mpr henough)⟩
      obtain ⟨e, he⟩ := hraised
      cases he
  · have hresult : result = (.error (.usernameSpaceExhausted e), after) := heq
    rw [hresult]
    refine ⟨?_, ?_, Iff.rfl, fun _ => ⟨_, rfl⟩, fun hdense hless => ⟨fun _ => ?_, fun _ => ⟨_, rfl⟩⟩⟩
    · rintro _ ⟨⟩
    · rintro _ ⟨⟩
      exact ⟨e, rfl⟩
    · exact hwhy.resolve_right (not_not.mpr ⟨hdense, hless⟩)

def lowerDotted (text : String) : String :=
  String.ofList (text.toList.flatMap fun c => if c = 'İ' then ['i', '\u0307'] else [c.toLower])

def zeros : FairDraws where
  digits _ n := String.ofList (List.replicate n '0')
  sample l n := l.take n
  password _ := ""
  digits_only _ n c hc := by
    rw [String.toList_ofList] at hc
    rw [List.eq_of_mem_replicate hc]
    rfl
  sample_subset l n := List.take_subset n l
  length_digits _ n := by simp
  sample_subperm l n _ := (List.take_sublist n l).subperm
  length_sample l n h := by simpa using h

/-- The small letters of the affixes are counted, not the letters as given. -/
theorem dotted_prefix_shortens :
    ¬∀ names, (pickUniqueUsernames zeros.toDraws 1 lowerDotted "İ" "" 8 ∅).1 = .ok names →
      Exact 1 (lowerDotted "İ") (lowerDotted "") (max 1 ((8 : ℤ) - "İ".length - "".length)).toNat ∅ names
        (pickUniqueUsernames zeros.toDraws 1 lowerDotted "İ" "" 8 ∅).2 := by
  intro h
  have hpick : (pickUniqueUsernames zeros.toDraws 1 lowerDotted "İ" "" 8 ∅).1 =
      .ok ["i\u0307000000"] := by decide
  obtain ⟨digits, hlength, -, hname⟩ := (h _ hpick).pattern _ (List.mem_singleton.mpr rfl)
  have hsize := congrArg String.length hname
  rw [String.length_append, String.length_append, hlength] at hsize
  revert hsize
  decide

end RadiusModule.CardStore.UsernameSpace
