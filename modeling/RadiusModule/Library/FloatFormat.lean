import RadiusModule.Library.FloatText
import RadiusModule.Library.IsoText

/-!
# Numbers with two decimal places

`f"{x:.2f}"` rounds the exact value to hundredths, ties to even. Written and
read back, an amount is rounded to the same hundredths again; the whole part of
a number can be read back as it is.
-/

namespace RadiusModule.Library

namespace Binary64

theorem abs_roundHalfEven_sub_le (q : ℚ) : |(roundHalfEven q : ℚ) - q| ≤ 1 / 2 := by
  have hfloor := Int.floor_le q
  have hlt := Int.lt_floor_add_one q
  simp only [roundHalfEven]
  split_ifs with hdown hup
  · rw [abs_le]
    constructor <;> linarith
  · push_cast
    rw [abs_le]
    constructor <;> linarith
  · rw [abs_le]
    constructor <;> linarith
  · push_cast
    rw [abs_le]
    constructor <;> linarith

theorem roundHalfEven_eq {n : ℤ} {q : ℚ} (h : |q - n| < 1 / 2) : roundHalfEven q = n := by
  obtain ⟨hlow, hhigh⟩ := abs_lt.mp h
  have hround := abs_le.mp (abs_roundHalfEven_sub_le q)
  have hup : (roundHalfEven q : ℚ) < n + 1 := by linarith [hround.2]
  have hdown : (n : ℚ) < roundHalfEven q + 1 := by linarith [hround.1]
  have hup' : roundHalfEven q < n + 1 := by exact_mod_cast hup
  have hdown' : n < roundHalfEven q + 1 := by exact_mod_cast hdown
  omega

theorem abs_nearest_sub_le (q : ℚ) : |nearest q - q| ≤ 2 ^ gridBit q / 2 := by
  have hpos := two_zpow_pos (gridBit q)
  have hround := abs_roundHalfEven_sub_le (q / 2 ^ gridBit q)
  have hscaled : nearest q - q =
      (roundHalfEven (q / 2 ^ gridBit q) - q / 2 ^ gridBit q) * 2 ^ gridBit q := by
    rw [nearest, sub_mul, div_mul_cancel₀ _ hpos.ne']
  rw [hscaled, abs_mul, abs_of_pos hpos]
  calc _ ≤ 1 / 2 * 2 ^ gridBit q := mul_le_mul_of_nonneg_right hround hpos.le
    _ = 2 ^ gridBit q / 2 := by ring

theorem exists_binade {q : ℚ} (h : 1 ≤ q) :
    ∃ k : ℕ, (2 : ℚ) ^ (k : ℤ) ≤ q ∧ q < 2 ^ ((k : ℤ) + 1) := by
  have hq : 0 < q := zero_lt_one.trans_le h
  have hlog : 0 ≤ Int.log 2 q :=
    (Int.zpow_le_iff_le_log one_lt_two hq).mp (by rwa [zpow_zero])
  obtain ⟨k, hk⟩ := Int.eq_ofNat_of_zero_le hlog
  refine ⟨k, (Int.zpow_le_iff_le_log one_lt_two hq).mpr hk.ge,
    (Int.lt_zpow_iff_log_lt one_lt_two hq).mpr ?_⟩
  rw [hk]
  exact Int.lt_succ _

theorem nearest_floor {q : ℚ} (hq : 0 ≤ q) (h : nearest q = q) :
    nearest (⌊q⌋ : ℚ) = (⌊q⌋ : ℚ) := by
  by_cases hsmall : q < 2 ^ 53
  · obtain ⟨n, hn⟩ := Int.eq_ofNat_of_zero_le (Int.floor_nonneg.mpr hq)
    have hlt : n < 2 ^ 53 := by
      have hle : (n : ℚ) ≤ q := by
        have hfloor := Int.floor_le q
        rw [hn] at hfloor
        exact_mod_cast hfloor
      exact_mod_cast hle.trans_lt hsmall
    rw [hn]
    exact_mod_cast nearest_natCast hlt
  · have hlarge : (2 : ℚ) ^ 53 ≤ q := not_lt.mp hsmall
    obtain ⟨k, hlow, hhigh⟩ := exists_binade
      ((one_le_pow₀ (one_le_two (α := ℚ))).trans hlarge)
    have hk : 52 ≤ k := by
      have hlt : (2 : ℚ) ^ (53 : ℤ) < 2 ^ ((k : ℤ) + 1) := by
        exact_mod_cast hlarge.trans_lt hhigh
      have hexp := (zpow_lt_zpow_iff_right₀ (one_lt_two (α := ℚ))).mp hlt
      omega
    have hint : ∃ n : ℤ, q = n := by
      refine ⟨roundHalfEven (q / 2 ^ gridBit q) * 2 ^ (k - 52), ?_⟩
      conv_lhs => rw [← h, nearest]
      rw [gridBit_eq (by omega) hlow hhigh]
      push_cast
      rw [← zpow_natCast, Nat.cast_sub hk]
      rfl
    obtain ⟨n, rfl⟩ := hint
    rw [Int.floor_intCast, h]

def cents (q : ℚ) : ℤ := roundHalfEven (100 * q)

theorem cents_nonneg {q : ℚ} (hq : 0 ≤ q) : 0 ≤ cents q := le_roundHalfEven (by simpa using hq)

theorem cents_pos_iff {q : ℚ} : 0 < cents q ↔ 1 / 200 < q := by
  rw [cents, roundHalfEven_pos_iff]
  constructor
  · intro h
    linarith
  · intro h
    linarith

theorem cents_div_le {q : ℚ} (hsmall : q < 2 ^ 46) : (cents q : ℚ) / 100 ≤ 2 ^ 46 := by
  have hbound : cents q ≤ 100 * 2 ^ 46 := by
    refine roundHalfEven_le ?_
    push_cast
    linarith
  rw [div_le_iff₀ (by norm_num)]
  exact_mod_cast hbound.trans_eq (mul_comm _ _)

theorem nearest_cents {q : ℚ} (hlarge : 2 ^ 46 ≤ q) (h : nearest q = q) :
    nearest ((cents q : ℚ) / 100) = q := by
  have hround := abs_le.mp (abs_roundHalfEven_sub_le (100 * q))
  rw [cents]
  set r : ℤ := roundHalfEven (100 * q) with hr
  -- The hundredths are finer than the last bit, so the division gives `q` again.
  obtain ⟨k, hlow, hhigh⟩ := exists_binade
    ((one_le_pow₀ (one_le_two (α := ℚ))).trans hlarge)
  have hk : 46 ≤ k := by
    have hlt : (2 : ℚ) ^ (46 : ℤ) < 2 ^ ((k : ℤ) + 1) := by
      exact_mod_cast hlarge.trans_lt hhigh
    have hexp := (zpow_lt_zpow_iff_right₀ (one_lt_two (α := ℚ))).mp hlt
    omega
  have hgrid : gridBit q = k - 52 := gridBit_eq (by omega) hlow hhigh
  have hunit : (1 : ℚ) / 64 ≤ 2 ^ ((k : ℤ) - 52) := by
    have hpow : (2 : ℚ) ^ (-6 : ℤ) ≤ 2 ^ ((k : ℤ) - 52) :=
      zpow_le_zpow_right₀ one_le_two (by omega)
    have hsixth : (2 : ℚ) ^ (-6 : ℤ) = 1 / 64 := by norm_num
    rwa [hsixth] at hpow
  set u : ℚ := 2 ^ ((k : ℤ) - 52) with hu
  have hupos : 0 < u := two_zpow_pos _
  set n : ℤ := roundHalfEven (q / 2 ^ gridBit q) with hn
  have hqn : q = n * u := by
    conv_lhs => rw [← h, nearest, ← hn, hgrid, ← hu]
  have hdist : |(r : ℚ) / 100 - q| ≤ 1 / 200 := by
    rw [abs_le]
    constructor <;> linarith
  have hlow' : (2 : ℚ) ^ (k : ℤ) ≤ (r : ℚ) / 100 := by
    have hbound : 100 * 2 ^ k ≤ r := by
      refine le_roundHalfEven ?_
      push_cast
      rw [zpow_natCast] at hlow
      linarith
    rw [le_div_iff₀ (by norm_num), zpow_natCast]
    exact_mod_cast (mul_comm _ _).trans_le hbound
  have hhigh' : (r : ℚ) / 100 < 2 ^ ((k : ℤ) + 1) := by
    have htop : (2 : ℚ) ^ ((k : ℤ) + 1) = ((2 ^ 53 : ℤ) : ℚ) * u := by
      rw [hu, Int.cast_pow, Int.cast_ofNat, ← zpow_natCast, ← zpow_add₀ two_ne_zero]
      congr 1
      push_cast
      ring
    have hstep : n + 1 ≤ 2 ^ 53 := by
      have hlt : (n : ℚ) * u < ((2 ^ 53 : ℤ) : ℚ) * u := by
        rw [← hqn, ← htop]
        exact hhigh
      exact_mod_cast lt_of_mul_lt_mul_right hlt hupos.le
    have hgap : q + u ≤ 2 ^ ((k : ℤ) + 1) := by
      rw [htop]
      calc q + u = ((n + 1 : ℤ) : ℚ) * u := by rw [hqn]; push_cast; ring
        _ ≤ _ := mul_le_mul_of_nonneg_right (by exact_mod_cast hstep) hupos.le
    linarith [(abs_le.mp hdist).2]
  have hint : roundHalfEven ((r : ℚ) / 100 / u) = n := by
    refine roundHalfEven_eq ?_
    have hsplit : (r : ℚ) / 100 / u - n = ((r : ℚ) / 100 - q) / u := by
      rw [hqn, sub_div, mul_div_cancel_right₀ _ hupos.ne']
    rw [hsplit, abs_div, abs_of_pos hupos, div_lt_iff₀ hupos]
    linarith
  rw [nearest, gridBit_eq (by omega) hlow' hhigh', ← hu, hint, ← hqn]

theorem cents_nearest {q : ℚ} (hq : 0 ≤ q) (h : nearest q = q) :
    cents (nearest ((cents q : ℚ) / 100)) = cents q := by
  by_cases hlarge : 2 ^ 46 ≤ q
  · rw [nearest_cents hlarge h]
  have hle := cents_div_le (not_le.mp hlarge)
  have hnonneg := cents_nonneg hq
  generalize cents q = r at hle hnonneg ⊢
  rw [cents]
  -- The error of the division is less than half a hundredth.
  refine roundHalfEven_eq ?_
  rcases hle.lt_or_eq with hlt | heq
  · have hbit : gridBit ((r : ℚ) / 100) ≤ -7 := by
      rw [gridBit, lastBit, abs_of_nonneg (div_nonneg (by exact_mod_cast hnonneg) (by norm_num))]
      rcases hnonneg.lt_or_eq with hpos | hzero
      · have hr' : (0 : ℚ) < (r : ℚ) / 100 := div_pos (by exact_mod_cast hpos) (by norm_num)
        have hlog := (Int.lt_zpow_iff_log_lt (b := 2) one_lt_two hr').mp
          (hlt.trans_eq (zpow_natCast (2 : ℚ) 46).symm)
        omega
      · rw [← hzero]
        norm_num
    have herror := abs_nearest_sub_le ((r : ℚ) / 100)
    have hpow : (2 : ℚ) ^ gridBit ((r : ℚ) / 100) ≤ 2 ^ (-7 : ℤ) :=
      zpow_le_zpow_right₀ one_le_two hbit
    have heighth : (2 : ℚ) ^ (-7 : ℤ) = 1 / 128 := by norm_num
    rw [heighth] at hpow
    obtain ⟨hlow, hhigh⟩ := abs_le.mp herror
    rw [abs_lt]
    constructor <;> linarith
  · have hself : nearest (2 ^ (46 : ℤ)) = 2 ^ (46 : ℤ) :=
      le_antisymm (nearest_le_of_pow (by norm_num) le_rfl) (le_nearest_of_pow (by norm_num) le_rfl)
    have hexact : nearest ((r : ℚ) / 100) = (r : ℚ) / 100 := by
      rw [heq]
      exact_mod_cast hself
    rw [hexact, mul_div_cancel₀ _ (by norm_num)]
    norm_num

theorem nearest_cents_lt {q : ℚ} (h : nearest q = q) (hlt : q < 2 ^ 1024) :
    nearest ((cents q : ℚ) / 100) < 2 ^ 1024 := by
  by_cases hlarge : 2 ^ 46 ≤ q
  · rw [nearest_cents hlarge h]
    exact hlt
  · have hpow : (2 : ℚ) ^ (46 : ℤ) = 2 ^ 46 := zpow_natCast 2 46
    have hle := cents_div_le (not_le.mp hlarge)
    rw [← hpow] at hle
    have hnear := nearest_le_of_pow (by norm_num) hle
    rw [hpow] at hnear
    exact hnear.trans_lt (pow_lt_pow_right₀ one_lt_two (by norm_num))

theorem nearest_eq_self {q : ℚ} {n e : ℤ} (hq : q = n * 2 ^ e) (he : gridBit q ≤ e) :
    nearest q = q := by
  have hdiv : q / 2 ^ gridBit q = ((n * 2 ^ (e - gridBit q).toNat : ℤ) : ℚ) := by
    push_cast
    rw [← zpow_natCast, Int.toNat_of_nonneg (by omega), zpow_sub₀ two_ne_zero, ← mul_div_assoc,
      ← hq]
  rw [nearest, hdiv, roundHalfEven_intCast, ← hdiv, div_mul_cancel₀ _ (two_zpow_pos _).ne']

theorem nearest_nearest {q : ℚ} (hq : 0 ≤ q) : nearest (nearest q) = nearest q := by
  have hzero : nearest 0 = 0 := le_antisymm (nearest_nonpos le_rfl) (nearest_nonneg le_rfl)
  rcases hq.lt_or_eq with hpos | rfl
  swap
  · rw [hzero, hzero]
  have hnonneg := nearest_nonneg hq
  rcases hnonneg.lt_or_eq with hne | hne
  swap
  · rw [← hne, hzero]
  have hself : nearest q = (roundHalfEven (q / 2 ^ gridBit q) : ℚ) * 2 ^ gridBit q := rfl
  by_cases he : gridBit (nearest q) ≤ gridBit q
  · exact nearest_eq_self hself he
  -- The rounding has reached the next power of two.
  have hbits : roundHalfEven (q / 2 ^ gridBit q) ≤ 2 ^ 53 := by
    refine roundHalfEven_le ?_
    rw [Int.cast_pow, Int.cast_ofNat, div_le_iff₀ (two_zpow_pos _), ← zpow_natCast,
      ← zpow_add₀ two_ne_zero]
    have hlog : q < 2 ^ (Int.log 2 q + 1) := Int.lt_zpow_succ_log_self one_lt_two q
    refine hlog.le.trans (zpow_le_zpow_right₀ one_le_two ?_)
    have hbit : lastBit q ≤ gridBit q := le_max_left _ _
    rw [lastBit, abs_of_pos hpos] at hbit
    push_cast
    omega
  have hlow : (2 : ℚ) ^ (gridBit q + 53) ≤ nearest q := by
    refine (Int.zpow_le_iff_le_log one_lt_two hne).mpr ?_
    have hgrid : -1074 ≤ gridBit q := le_max_right _ _
    have hbit : gridBit (nearest q) = lastBit (nearest q) := by
      rw [gridBit] at he ⊢
      omega
    rw [hbit, lastBit, abs_of_nonneg hnonneg] at he
    omega
  have hhigh : nearest q ≤ 2 ^ (gridBit q + 53) := by
    rw [hself, add_comm, zpow_add₀ two_ne_zero]
    refine mul_le_mul_of_nonneg_right ?_ (two_zpow_pos _).le
    exact_mod_cast hbits
  have hgrid : -1074 ≤ gridBit q + 53 := by
    have hlast : -1074 ≤ gridBit q := le_max_right _ _
    omega
  rw [le_antisymm hhigh hlow]
  exact le_antisymm (nearest_le_of_pow hgrid le_rfl) (le_nearest_of_pow hgrid le_rfl)

end Binary64

namespace FloatText
open PyText Binary64

def centChars (n : ℕ) : List Char := Nat.toDigits 10 (n / 100) ++ '.' :: IsoText.pad 2 (n % 100)

theorem centChars_char {n : ℕ} {c : Char} (hc : c ∈ centChars n) : c.isDigit = true ∨ c = '.' := by
  obtain hc | hc := List.mem_append.mp hc
  · exact .inl (Nat.isDigit_of_mem_toDigits (by decide) (by decide) hc)
  · obtain rfl | hc := List.mem_cons.mp hc
    · exact .inr rfl
    · exact .inl (IsoText.isDigit_of_mem_pad hc)

theorem digitsThen_point {cs : List Char} (h : ∀ c ∈ cs, c.isDigit = true) (n k : ℕ)
    (rest : List Char) : digitsThen n k (cs ++ '.' :: rest) =
      (Nat.ofDigitChars 10 cs n, k + cs.length, '.' :: rest) := by
  induction cs generalizing n k with
  | nil =>
    rw [List.nil_append, digitsThen]
    · rfl
    · rintro c cs h -
      cases h
  | cons c cs ih =>
    have hc := h c List.mem_cons_self
    rw [List.cons_append, digitsThen]
    · rw [digit?_of_isDigit hc]
      simp only [ih fun d hd => h d (List.mem_cons_of_mem c hd), Nat.ofDigitChars_cons,
        List.length_cons, Prod.mk.injEq, and_true, true_and]
      omega
    · rintro d ds rfl -
      exact absurd hc (by decide)

theorem ofDigitChars_pad (n : ℕ) :
    Nat.ofDigitChars 10 (IsoText.pad 2 (n % 100)) (n / 100) = n := by
  have hdigit : ∀ d < 10, (Nat.digitChar d).toNat - '0'.toNat = d := by decide
  have hpad : IsoText.pad 2 (n % 100) =
      [Nat.digitChar (n % 100 / 10 % 10), Nat.digitChar (n % 100 % 10)] := rfl
  rw [hpad, Nat.ofDigitChars_cons, Nat.ofDigitChars_cons, Nat.ofDigitChars_nil,
    hdigit _ (Nat.mod_lt _ (by norm_num)), hdigit _ (Nat.mod_lt _ (by norm_num))]
  omega

theorem float?_centChars (n : ℕ) :
    float? (String.ofList (centChars n)) = some (rounded false ((n : ℚ) / 100)) := by
  have hplain : ∀ c ∈ centChars n, isSpace c = false ∧ c.toLower = c := by
    intro c hc
    obtain hdigit | rfl := centChars_char hc
    · exact ⟨isSpace_of_isDigit hdigit, toLower_of_isDigit hdigit⟩
    · decide
  have hlower : (stripChars (String.ofList (centChars n)).toList).map Char.toLower =
      centChars n := by
    rw [String.toList_ofList, stripChars_of_noSpace fun c hc => (hplain c hc).1]
    exact (List.map_congr_left fun c hc => (hplain c hc).2).trans (List.map_id _)
  have hwhole : ∀ c ∈ Nat.toDigits 10 (n / 100), c.isDigit = true := fun c hc =>
    Nat.isDigit_of_mem_toDigits (by decide) (by decide) hc
  have hpad : ∀ c ∈ IsoText.pad 2 (n % 100), c.isDigit = true := fun c hc =>
    IsoText.isDigit_of_mem_pad hc
  have hdecimal : decimal? false (centChars n) = some (rounded false ((n : ℚ) / 100)) := by
    have hhead : (centChars n).head? ≠ some '_' := fun h => by
      obtain hdigit | hpoint := centChars_char (List.mem_of_head? h)
      · exact absurd hdigit (by decide)
      · exact absurd hpoint (by decide)
    have hhead' : (IsoText.pad 2 (n % 100)).head? ≠ some '_' := fun h =>
      absurd (hpad '_' (List.mem_of_head? h)) (by decide)
    have hrun : digitRun 0 (centChars n) =
        (n / 100, (Nat.toDigits 10 (n / 100)).length, '.' :: IsoText.pad 2 (n % 100)) := by
      rw [digitRun, if_neg hhead, centChars, digitsThen_point hwhole,
        Nat.ofDigitChars_ten_toDigits, Nat.zero_add]
    have hrun' : digitRun (n / 100) (IsoText.pad 2 (n % 100)) = (n, 2, []) := by
      rw [digitRun, if_neg hhead', digitsThen_digits hpad, ofDigitChars_pad, IsoText.length_pad]
    have hvalue : (n : ℚ) * 10 ^ ((0 : ℤ) - ((2 : ℕ) : ℤ)) = (n : ℚ) / 100 := by
      norm_num
      ring
    simp only [decimal?, hrun, hrun', exponent?, Option.map_some, hvalue]
    rw [if_neg (by omega)]
  have hword : ∀ word : String, (∃ c ∈ word.toList, c.isDigit = false ∧ c ≠ '.') →
      String.ofList (centChars n) ≠ word := by
    rintro word ⟨c, hc, hdigit, hpoint⟩ rfl
    rw [String.toList_ofList] at hc
    obtain hc | hc := centChars_char hc
    · rw [hdigit] at hc
      cases hc
    · exact hpoint hc
  have hunsigned : unsigned? false (centChars n) = some (rounded false ((n : ℚ) / 100)) := by
    rw [unsigned?, if_neg, if_neg, hdecimal]
    · exact hword "nan" ⟨'n', by decide, by decide⟩
    · exact not_or.mpr ⟨hword "inf" ⟨'i', by decide, by decide⟩,
        hword "infinity" ⟨'i', by decide, by decide⟩⟩
  rw [float?, hlower]
  split
  · next cs hcs =>
    obtain hc | hc := centChars_char (n := n) (c := '+') (hcs ▸ List.mem_cons_self)
    · exact absurd hc (by decide)
    · exact absurd hc (by decide)
  · next cs hcs =>
    obtain hc | hc := centChars_char (n := n) (c := '-') (hcs ▸ List.mem_cons_self)
    · exact absurd hc (by decide)
    · exact absurd hc (by decide)
  · exact hunsigned

theorem nearest_of_float? {s : String} {r : ℚ} (h : float? s = some (.finite r)) (hr : 0 < r) :
    nearest r = r ∧ r < 2 ^ 1024 := by
  obtain ⟨negative, q, hq, hround⟩ := rounded_of_float? h
  rw [rounded] at hround
  split_ifs at hround with hlimit hneg
  · obtain rfl := PyFloat.finite.inj hround
    exact absurd (nearest_nonneg hq) (not_le.mpr (neg_pos.mp hr))
  · obtain rfl := PyFloat.finite.inj hround
    exact ⟨nearest_nearest hq, not_le.mp hlimit⟩

end FloatText
end RadiusModule.Library
