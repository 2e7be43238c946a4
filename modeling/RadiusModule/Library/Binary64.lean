import Mathlib.Data.Int.Log
import Mathlib.Data.Rat.Floor
import Mathlib.Tactic

/-!
# Rounding to 53 bits

`roundHalfEven` is the nearest integer, with ties to the even one. `fl` rounds
a rational to the nearest number with a 53-bit significand, ties to even, as
binary64 arithmetic does between its underflow and overflow limits. `nearest`
has the underflow too.
-/

namespace RadiusModule.Library.Binary64

def roundHalfEven (q : ℚ) : ℤ :=
  let n := ⌊q⌋
  if q - n < 1 / 2 then n
  else if 1 / 2 < q - n then n + 1
  else if n % 2 = 0 then n else n + 1

theorem floor_le_roundHalfEven (q : ℚ) : ⌊q⌋ ≤ roundHalfEven q := by
  simp only [roundHalfEven]
  split_ifs <;> omega

theorem roundHalfEven_le_ceil (q : ℚ) : roundHalfEven q ≤ ⌈q⌉ := by
  have hup : ¬q - ⌊q⌋ < 1 / 2 → ⌊q⌋ + 1 ≤ ⌈q⌉ := fun h =>
    Int.add_one_le_iff.mpr (Int.lt_ceil.mpr (by linarith))
  simp only [roundHalfEven]
  split_ifs with h
  · exact Int.floor_le_ceil q
  · exact hup h
  · exact Int.floor_le_ceil q
  · exact hup h

theorem le_roundHalfEven {n : ℤ} {q : ℚ} (h : (n : ℚ) ≤ q) : n ≤ roundHalfEven q :=
  (Int.le_floor.mpr h).trans (floor_le_roundHalfEven q)

theorem roundHalfEven_le {n : ℤ} {q : ℚ} (h : q ≤ n) : roundHalfEven q ≤ n :=
  (roundHalfEven_le_ceil q).trans (Int.ceil_le.mpr h)

theorem roundHalfEven_le_of_lt {n : ℤ} {q : ℚ} (h : q < n + 1 / 2) : roundHalfEven q ≤ n := by
  have hfloor : ⌊q⌋ < n + 1 := Int.floor_lt.mpr (by push_cast; linarith)
  rcases (Int.lt_add_one_iff.mp hfloor).lt_or_eq with hlt | heq
  · exact (roundHalfEven_le_ceil q).trans ((Int.ceil_le_floor_add_one q).trans hlt)
  · have hlow : q - ⌊q⌋ < 1 / 2 := by
      rw [heq]
      linarith
    rw [roundHalfEven, if_pos hlow, heq]

@[simp] theorem roundHalfEven_intCast (n : ℤ) : roundHalfEven n = n :=
  le_antisymm (roundHalfEven_le le_rfl) (le_roundHalfEven le_rfl)

def lastBit (q : ℚ) : ℤ := Int.log 2 |q| - 52

def fl (q : ℚ) : ℚ := roundHalfEven (q / 2 ^ lastBit q) * 2 ^ lastBit q

theorem two_zpow_pos (e : ℤ) : (0 : ℚ) < 2 ^ e := zpow_pos (by norm_num) e

theorem fl_nonneg {q : ℚ} (h : 0 ≤ q) : 0 ≤ fl q := by
  have hr : (0 : ℤ) ≤ roundHalfEven (q / 2 ^ lastBit q) :=
    le_roundHalfEven (by simpa using div_nonneg h (two_zpow_pos _).le)
  exact mul_nonneg (by exact_mod_cast hr) (two_zpow_pos _).le

theorem fl_eq_self {q : ℚ} {n : ℤ} (h : q / 2 ^ lastBit q = n) : fl q = q := by
  rw [fl, h, roundHalfEven_intCast, ← h, div_mul_cancel₀ _ (two_zpow_pos _).ne']

theorem two_zpow_le_of_pos {q : ℚ} (h : 0 < q) : (2 : ℚ) ^ (lastBit q + 52) ≤ q := by
  have := Int.zpow_log_le_self (b := 2) one_lt_two h
  simpa [lastBit, abs_of_pos h] using this

theorem fl_of_dyadic {m : ℕ} (hm : m < 2 ^ 53) (k : ℤ) : fl (m * 2 ^ k) = m * 2 ^ k := by
  rcases Nat.eq_zero_or_pos m with rfl | hpos
  · exact fl_eq_self (n := 0) (by simp)
  have hq : (0 : ℚ) < m * 2 ^ k := mul_pos (by exact_mod_cast hpos) (two_zpow_pos k)
  have hlow := two_zpow_le_of_pos hq
  have hlt : (m : ℚ) * 2 ^ k < 2 ^ (53 + k) := by
    rw [zpow_add₀ two_ne_zero]
    exact mul_lt_mul_of_pos_right (by exact_mod_cast hm) (two_zpow_pos k)
  have he : lastBit (m * 2 ^ k) ≤ k := by
    have := (zpow_lt_zpow_iff_right₀ (one_lt_two (α := ℚ))).mp (hlow.trans_lt hlt)
    omega
  obtain ⟨j, hj⟩ := Int.eq_ofNat_of_zero_le (sub_nonneg.mpr he)
  refine fl_eq_self (n := m * 2 ^ j) ?_
  rw [mul_div_assoc, ← zpow_sub₀ two_ne_zero, hj]
  push_cast
  rfl

theorem fl_natCast {n : ℕ} (h : n < 2 ^ 53) : fl n = n := by
  simpa using fl_of_dyadic h 0

theorem natCast_le_fl {n : ℕ} {q : ℚ} (hn : n ≤ 2 ^ 53) (h : (n : ℚ) ≤ q) : (n : ℚ) ≤ fl q := by
  rcases Nat.eq_zero_or_pos n with rfl | hpos
  · simpa using fl_nonneg (q := q) (by simpa using h)
  have hq : 0 < q := lt_of_lt_of_le (by exact_mod_cast hpos) h
  have hlow := two_zpow_le_of_pos hq
  rcases le_or_gt (lastBit q) 0 with he | he
  · -- below one unit in the last place every integer is a multiple of it
    obtain ⟨j, hj⟩ := Int.eq_ofNat_of_zero_le (neg_nonneg.mpr he)
    have hdiv : ((n * 2 ^ j : ℕ) : ℚ) ≤ q / 2 ^ lastBit q := by
      rw [le_div_iff₀ (two_zpow_pos _)]
      have hcancel : ((n * 2 ^ j : ℕ) : ℚ) * 2 ^ lastBit q = n := by
        push_cast
        rw [← zpow_natCast, mul_assoc, ← zpow_add₀ two_ne_zero]
        simp [← hj]
      rw [hcancel]
      exact h
    have hround := le_roundHalfEven (n := ((n * 2 ^ j : ℕ) : ℤ)) (by exact_mod_cast hdiv)
    have hmul : ((n * 2 ^ j : ℕ) : ℚ) * 2 ^ lastBit q ≤ fl q :=
      mul_le_mul_of_nonneg_right (by exact_mod_cast hround) (two_zpow_pos _).le
    refine le_trans (le_of_eq ?_) hmul
    push_cast
    rw [← zpow_natCast, mul_assoc, ← zpow_add₀ two_ne_zero]
    simp [← hj]
  · -- above it the rounded number is at least its leading power of two
    have hdiv : ((2 ^ 52 : ℤ) : ℚ) ≤ q / 2 ^ lastBit q := by
      rw [le_div_iff₀ (two_zpow_pos _)]
      rw [zpow_add₀ two_ne_zero, mul_comm] at hlow
      exact_mod_cast hlow
    have hround : (2 ^ 52 : ℤ) ≤ roundHalfEven (q / 2 ^ lastBit q) := le_roundHalfEven hdiv
    have hmul : ((2 ^ 52 : ℤ) : ℚ) * 2 ^ lastBit q ≤ fl q :=
      mul_le_mul_of_nonneg_right (by exact_mod_cast hround) (two_zpow_pos _).le
    have htwo : (2 : ℚ) ^ (1 : ℤ) ≤ 2 ^ lastBit q :=
      zpow_le_zpow_right₀ one_le_two (by omega)
    have hn' : (n : ℚ) ≤ 2 ^ 52 * 2 := by exact_mod_cast hn
    push_cast at hmul
    rw [zpow_one] at htwo
    exact hn'.trans ((mul_le_mul_of_nonneg_left htwo (by positivity)).trans hmul)

theorem fl_nonpos {q : ℚ} (h : q ≤ 0) : fl q ≤ 0 := by
  have hdiv : q / 2 ^ lastBit q ≤ ((0 : ℤ) : ℚ) := by
    rw [Int.cast_zero]
    exact div_nonpos_of_nonpos_of_nonneg h (two_zpow_pos _).le
  exact mul_nonpos_of_nonpos_of_nonneg (by exact_mod_cast roundHalfEven_le hdiv)
    (two_zpow_pos _).le

theorem roundHalfEven_mono {q r : ℚ} (h : q ≤ r) : roundHalfEven q ≤ roundHalfEven r := by
  rcases (Int.floor_mono h).lt_or_eq with hlt | heq
  · have hup : roundHalfEven q ≤ ⌊q⌋ + 1 := by
      simp only [roundHalfEven]
      split_ifs <;> omega
    exact hup.trans ((Int.add_one_le_iff.mpr hlt).trans (floor_le_roundHalfEven r))
  · simp only [roundHalfEven, heq]
    split_ifs <;> first | omega | (exfalso; linarith)

theorem fl_mono {q r : ℚ} (hq : 0 ≤ q) (h : q ≤ r) : fl q ≤ fl r := by
  rcases hq.eq_or_lt with rfl | hq
  · have hzero : fl 0 = 0 := fl_eq_self (n := 0) (by simp)
    rw [hzero]
    exact fl_nonneg h
  have hr : 0 < r := hq.trans_le h
  have hlog : lastBit q ≤ lastBit r := by
    have hmono := Int.log_mono_right (b := 2) (abs_pos.mpr hq.ne')
      (by rwa [abs_of_pos hq, abs_of_pos hr] : |q| ≤ |r|)
    simp only [lastBit]
    omega
  rcases hlog.eq_or_lt with heq | hlt
  · rw [fl, fl, heq]
    refine mul_le_mul_of_nonneg_right ?_ (two_zpow_pos _).le
    exact_mod_cast roundHalfEven_mono (div_le_div_of_nonneg_right h (two_zpow_pos _).le)
  · -- a power of two lies between them
    have hlow : fl q ≤ 2 ^ (lastBit q + 53) := by
      have hup : q / 2 ^ lastBit q ≤ ((2 ^ 53 : ℤ) : ℚ) := by
        rw [div_le_iff₀ (two_zpow_pos _)]
        have hnext := Int.lt_zpow_succ_log_self (b := 2) one_lt_two q
        have hexp : lastBit q + 53 = Int.log 2 q + 1 := by
          rw [lastBit, abs_of_pos hq]
          omega
        have hpow : ((2 ^ 53 : ℤ) : ℚ) * 2 ^ lastBit q = 2 ^ (lastBit q + 53) := by
          rw [add_comm, zpow_add₀ two_ne_zero]
          norm_num
        rw [hpow, hexp]
        exact_mod_cast hnext.le
      have hround := roundHalfEven_le hup
      calc fl q ≤ ((2 ^ 53 : ℤ) : ℚ) * 2 ^ lastBit q :=
            mul_le_mul_of_nonneg_right (by exact_mod_cast hround) (two_zpow_pos _).le
        _ = 2 ^ (lastBit q + 53) := by
            rw [add_comm, zpow_add₀ two_ne_zero]
            norm_num
    have hhigh : 2 ^ (lastBit r + 52) ≤ fl r := by
      have hdown : ((2 ^ 52 : ℤ) : ℚ) ≤ r / 2 ^ lastBit r := by
        rw [le_div_iff₀ (two_zpow_pos _)]
        have hpow := two_zpow_le_of_pos hr
        rw [zpow_add₀ two_ne_zero, mul_comm] at hpow
        exact_mod_cast hpow
      have hround := le_roundHalfEven hdown
      calc (2 : ℚ) ^ (lastBit r + 52) = ((2 ^ 52 : ℤ) : ℚ) * 2 ^ lastBit r := by
            rw [add_comm, zpow_add₀ two_ne_zero]
            norm_num
        _ ≤ fl r := mul_le_mul_of_nonneg_right (by exact_mod_cast hround) (two_zpow_pos _).le
    exact hlow.trans ((zpow_le_zpow_right₀ one_le_two (by omega)).trans hhigh)

theorem fl_lt_two_pow_iff (k : ℕ) {q : ℚ} (hq : 0 ≤ q) :
    fl q < 2 ^ (k + 54) ↔ q < 2 ^ (k + 54) - 2 ^ k := by
  have hunit : (0 : ℚ) < 2 ^ (k + 1) := by positivity
  have hbit : ∀ {r : ℚ}, 0 < r → (2 : ℚ) ^ (k + 53) ≤ r → r < 2 ^ (k + 54) →
      (2 : ℚ) ^ lastBit r = 2 ^ (k + 1) := by
    intro r hpos hlow hhigh
    have hlog : Int.log 2 r = ((k + 53 : ℕ) : ℤ) := by
      refine le_antisymm (Int.lt_add_one_iff.mp ?_) ?_
      · refine (Int.lt_zpow_iff_log_lt one_lt_two hpos).mp ?_
        exact_mod_cast hhigh
      · refine (Int.zpow_le_iff_le_log one_lt_two hpos).mp ?_
        exact_mod_cast hlow
    have hexp : lastBit r = ((k + 1 : ℕ) : ℤ) := by
      rw [lastBit, abs_of_pos hpos, hlog]
      omega
    rw [hexp, zpow_natCast]
  constructor
  · intro h
    by_contra hge
    have hlimit : fl ((2 : ℚ) ^ (k + 54) - 2 ^ k) = 2 ^ (k + 54) := by
      have hhalf : ((2 : ℚ) ^ (k + 54) - 2 ^ k) / 2 ^ (k + 1) = ((2 ^ 53 - 1 : ℤ) : ℚ) + 1 / 2 := by
        rw [div_eq_iff hunit.ne', pow_succ, pow_add]
        push_cast
        ring
      have hround : roundHalfEven (((2 ^ 53 - 1 : ℤ) : ℚ) + 1 / 2) = 2 ^ 53 := by
        have hfloor : ⌊((2 ^ 53 - 1 : ℤ) : ℚ) + 1 / 2⌋ = 2 ^ 53 - 1 := by
          rw [Int.floor_intCast_add]
          norm_num
        simp only [roundHalfEven, hfloor, add_sub_cancel_left]
        norm_num
      have hsize : (2 : ℚ) ^ k ≤ 2 ^ (k + 53) := pow_le_pow_right₀ one_le_two (by omega)
      have hdouble : (2 : ℚ) ^ (k + 54) = 2 ^ (k + 53) + 2 ^ (k + 53) := by
        rw [pow_succ]
        ring
      have hpos : (0 : ℚ) < 2 ^ k := by positivity
      have hpos' : (0 : ℚ) < 2 ^ (k + 53) := by positivity
      rw [fl, hbit (by linarith) (by linarith) (by linarith), hhalf, hround, pow_succ, pow_add]
      push_cast
      ring
    exact absurd (hlimit ▸ fl_mono (sub_nonneg.mpr (pow_le_pow_right₀ one_le_two (by omega)))
      (not_lt.mp hge)) (not_le.mpr h)
  · intro h
    rcases lt_or_ge q (2 ^ (k + 53)) with hsmall | hlarge
    · have hpower : fl ((2 : ℚ) ^ (k + 53)) = 2 ^ (k + 53) := by
        have hone := fl_of_dyadic (m := 1) (by norm_num) ((k + 53 : ℕ) : ℤ)
        rwa [zpow_natCast, Nat.cast_one, one_mul] at hone
      calc fl q ≤ fl (2 ^ (k + 53)) := fl_mono hq hsmall.le
        _ = 2 ^ (k + 53) := hpower
        _ < 2 ^ (k + 54) := pow_lt_pow_right₀ one_lt_two (by omega)
    · have hpos : 0 < q := lt_of_lt_of_le (by positivity) hlarge
      have hscaled : q / 2 ^ (k + 1) < ((2 ^ 53 - 1 : ℤ) : ℚ) + 1 / 2 := by
        rw [div_lt_iff₀ hunit]
        refine h.trans_eq ?_
        rw [pow_succ, pow_add]
        push_cast
        ring
      have hround : roundHalfEven (q / 2 ^ (k + 1)) ≤ 2 ^ 53 - 1 := roundHalfEven_le_of_lt hscaled
      have hlt : 2 ^ lastBit q = (2 : ℚ) ^ (k + 1) :=
        hbit hpos hlarge (h.trans (sub_lt_self _ (by positivity)))
      rw [fl, hlt]
      calc (roundHalfEven (q / 2 ^ (k + 1)) : ℚ) * 2 ^ (k + 1)
          ≤ ((2 ^ 53 - 1 : ℤ) : ℚ) * 2 ^ (k + 1) :=
            mul_le_mul_of_nonneg_right (by exact_mod_cast hround) hunit.le
        _ = 2 ^ (k + 54) - 2 ^ (k + 1) := by
            rw [pow_succ, pow_add]
            push_cast
            ring
        _ < 2 ^ (k + 54) := sub_lt_self _ hunit

def gridBit (q : ℚ) : ℤ := max (lastBit q) (-1074)

def nearest (q : ℚ) : ℚ := roundHalfEven (q / 2 ^ gridBit q) * 2 ^ gridBit q

theorem lt_roundHalfEven {n : ℤ} {q : ℚ} (h : (n : ℚ) + 1 / 2 < q) : n < roundHalfEven q := by
  have hfloor : n ≤ ⌊q⌋ := Int.le_floor.mpr (by linarith)
  rcases hfloor.lt_or_eq with hlt | heq
  · exact hlt.trans_le (floor_le_roundHalfEven q)
  · have hup : 1 / 2 < q - ⌊q⌋ := by
      rw [← heq]
      linarith
    rw [roundHalfEven, if_neg (not_lt.mpr hup.le), if_pos hup]
    omega

theorem roundHalfEven_pos_iff {q : ℚ} : 0 < roundHalfEven q ↔ 1 / 2 < q := by
  refine ⟨fun h => ?_, fun h => lt_roundHalfEven (by simpa using h)⟩
  by_contra hq
  have hle : roundHalfEven q ≤ roundHalfEven (1 / 2) := roundHalfEven_mono (not_lt.mp hq)
  have hhalf : roundHalfEven (1 / 2) = 0 := by
    have hfloor : ⌊(1 / 2 : ℚ)⌋ = 0 := by norm_num
    norm_num [roundHalfEven, hfloor]
  omega

theorem nearest_eq_fl {q : ℚ} (h : -1074 ≤ lastBit q) : nearest q = fl q := by
  rw [nearest, gridBit, max_eq_left h, fl]

theorem two_zpow_le_div {q : ℚ} (hq : 0 < q) (h : -1074 < gridBit q) :
    ((2 ^ 52 : ℤ) : ℚ) ≤ q / 2 ^ gridBit q := by
  have hbit : gridBit q = lastBit q := by
    rw [gridBit] at h ⊢
    omega
  rw [hbit, le_div_iff₀ (two_zpow_pos _)]
  have hlow := two_zpow_le_of_pos hq
  rw [zpow_add₀ two_ne_zero, mul_comm] at hlow
  exact_mod_cast hlow

theorem nearest_nonpos {q : ℚ} (h : q ≤ 0) : nearest q ≤ 0 := by
  have hdiv : q / 2 ^ gridBit q ≤ ((0 : ℤ) : ℚ) := by
    rw [Int.cast_zero]
    exact div_nonpos_of_nonpos_of_nonneg h (two_zpow_pos _).le
  exact mul_nonpos_of_nonpos_of_nonneg (by exact_mod_cast roundHalfEven_le hdiv)
    (two_zpow_pos _).le

theorem nearest_nonneg {q : ℚ} (h : 0 ≤ q) : 0 ≤ nearest q := by
  have hr : (0 : ℤ) ≤ roundHalfEven (q / 2 ^ gridBit q) :=
    le_roundHalfEven (by simpa using div_nonneg h (two_zpow_pos _).le)
  exact mul_nonneg (by exact_mod_cast hr) (two_zpow_pos _).le

theorem nearest_pos_iff {q : ℚ} : 0 < nearest q ↔ 2 ^ (-1075 : ℤ) < q := by
  have hhalf : (2 : ℚ) ^ (-1075 : ℤ) = 1 / 2 * 2 ^ (-1074 : ℤ) := by
    rw [show (-1075 : ℤ) = -1074 - 1 by norm_num, zpow_sub_one₀ two_ne_zero]
    ring
  have hround : 0 < nearest q ↔ 1 / 2 < q / 2 ^ gridBit q := by
    rw [nearest, mul_pos_iff_of_pos_right (two_zpow_pos _), Int.cast_pos, roundHalfEven_pos_iff]
  rcases le_or_gt q 0 with hq | hq
  · exact iff_of_false (not_lt.mpr (nearest_nonpos hq)) (not_lt.mpr (hq.trans (two_zpow_pos _).le))
  rw [hround]
  rcases (le_max_right (lastBit q) (-1074)).eq_or_lt with heq | hlt
  · rw [gridBit, ← heq, lt_div_iff₀ (two_zpow_pos _), hhalf]
  · have hlarge := two_zpow_le_div hq hlt
    refine iff_of_true (lt_of_lt_of_le (by norm_num) hlarge) ?_
    have hpow : (2 : ℚ) ^ (-1074 : ℤ) ≤ 2 ^ gridBit q :=
      zpow_le_zpow_right₀ one_le_two (le_max_right _ _)
    rw [le_div_iff₀ (two_zpow_pos _)] at hlarge
    rw [hhalf]
    push_cast at hlarge
    have hpos := two_zpow_pos (-1074)
    linarith

theorem le_nearest_of_pow {k : ℤ} (hk : -1074 ≤ k) {q : ℚ} (h : 2 ^ k ≤ q) : 2 ^ k ≤ nearest q := by
  have hq : 0 < q := (two_zpow_pos k).trans_le h
  rcases le_or_gt (gridBit q) k with hle | hlt
  · obtain ⟨j, hj⟩ := Int.eq_ofNat_of_zero_le (sub_nonneg.mpr hle)
    have hpow : ((2 ^ j : ℤ) : ℚ) * 2 ^ gridBit q = 2 ^ k := by
      push_cast
      rw [← zpow_natCast, ← zpow_add₀ two_ne_zero, ← hj, sub_add_cancel]
    have hround : (2 ^ j : ℤ) ≤ roundHalfEven (q / 2 ^ gridBit q) := by
      refine le_roundHalfEven ?_
      rw [le_div_iff₀ (two_zpow_pos _), hpow]
      exact h
    rw [← hpow, nearest]
    exact mul_le_mul_of_nonneg_right (by exact_mod_cast hround) (two_zpow_pos _).le
  · have hround := le_roundHalfEven (two_zpow_le_div hq (hk.trans_lt hlt))
    have hone : (1 : ℚ) ≤ roundHalfEven (q / 2 ^ gridBit q) := by
      exact_mod_cast (show (1 : ℤ) ≤ 2 ^ 52 by norm_num).trans hround
    calc (2 : ℚ) ^ k ≤ 2 ^ gridBit q := zpow_le_zpow_right₀ one_le_two hlt.le
      _ ≤ nearest q := le_mul_of_one_le_left (two_zpow_pos _).le hone

theorem nearest_le_of_pow {k : ℤ} (hk : -1074 ≤ k) {q : ℚ} (h : q ≤ 2 ^ k) : nearest q ≤ 2 ^ k := by
  rcases le_or_gt q 0 with hq | hq
  · exact (nearest_nonpos hq).trans (two_zpow_pos k).le
  have hbit : gridBit q ≤ k := by
    have hlow := two_zpow_le_of_pos hq
    have hexp := (zpow_le_zpow_iff_right₀ (one_lt_two (α := ℚ))).mp (hlow.trans h)
    rw [gridBit]
    omega
  obtain ⟨j, hj⟩ := Int.eq_ofNat_of_zero_le (sub_nonneg.mpr hbit)
  have hpow : ((2 ^ j : ℤ) : ℚ) * 2 ^ gridBit q = 2 ^ k := by
    push_cast
    rw [← zpow_natCast, ← zpow_add₀ two_ne_zero, ← hj, sub_add_cancel]
  have hround : roundHalfEven (q / 2 ^ gridBit q) ≤ (2 ^ j : ℤ) := by
    refine roundHalfEven_le ?_
    rw [div_le_iff₀ (two_zpow_pos _), hpow]
    exact h
  rw [← hpow, nearest]
  exact mul_le_mul_of_nonneg_right (by exact_mod_cast hround) (two_zpow_pos _).le

theorem nearest_eq_fl_of_le {q : ℚ} (h : 2 ^ (-1022 : ℤ) ≤ q) : nearest q = fl q := by
  have hq : 0 < q := (two_zpow_pos _).trans_le h
  refine nearest_eq_fl ?_
  have hlog := (Int.zpow_le_iff_le_log (b := 2) one_lt_two hq).mp h
  rw [lastBit, abs_of_pos hq]
  omega

theorem nearest_natCast {n : ℕ} (h : n < 2 ^ 53) : nearest n = n := by
  rcases Nat.eq_zero_or_pos n with rfl | hpos
  · simp [nearest, roundHalfEven]
  · have hone : (2 : ℚ) ^ (-1022 : ℤ) ≤ n :=
      (zpow_le_one_of_nonpos₀ one_le_two (by norm_num)).trans (by exact_mod_cast hpos)
    rw [nearest_eq_fl_of_le hone, fl_natCast h]

theorem nearest_lt_iff {q : ℚ} (hq : 0 ≤ q) : nearest q < 2 ^ 1024 ↔ q < 2 ^ 1024 - 2 ^ 970 := by
  rcases le_or_gt (2 ^ (-1022 : ℤ)) q with hle | hlt
  · rw [nearest_eq_fl_of_le hle]
    exact fl_lt_two_pow_iff 970 hq
  · have hone : (2 : ℚ) ^ (-1022 : ℤ) ≤ 1 := zpow_le_one_of_nonpos₀ one_le_two (by norm_num)
    have hlimit : (1 : ℚ) ≤ 2 ^ 1024 - 2 ^ 970 := by
      have hsmall : (1 : ℚ) ≤ 2 ^ 970 := one_le_pow₀ one_le_two
      have hdouble : (2 : ℚ) * 2 ^ 970 ≤ 2 ^ 1024 := by
        rw [← pow_succ']
        exact pow_le_pow_right₀ one_le_two (by omega)
      refine le_sub_iff_add_le.mpr (le_trans ?_ hdouble)
      rw [two_mul]
      exact add_le_add_left hsmall _
    refine iff_of_true ?_ (hlt.trans_le (hone.trans hlimit))
    exact (nearest_le_of_pow (by norm_num) hlt.le).trans_lt 
      (hone.trans_lt (one_lt_pow₀ one_lt_two (by omega)))

theorem gridBit_eq {k : ℤ} (hk : -1022 ≤ k) {q : ℚ} (hlow : 2 ^ k ≤ q) (hhigh : q < 2 ^ (k + 1)) :
    gridBit q = k - 52 := by
  have hq : 0 < q := (two_zpow_pos k).trans_le hlow
  have hge := (Int.zpow_le_iff_le_log (b := 2) one_lt_two hq).mp hlow
  have hlt := (Int.lt_zpow_iff_log_lt (b := 2) one_lt_two hq).mp hhigh
  rw [gridBit, lastBit, abs_of_pos hq]
  omega

theorem lt_nearest_of_pow {k : ℤ} (hk : -1022 ≤ k) {q : ℚ} (h : 2 ^ k + 2 ^ (k - 53) < q) :
    2 ^ k < nearest q := by
  rcases le_or_gt (2 ^ (k + 1)) q with hle | hlt
  · refine lt_of_lt_of_le ?_ (le_nearest_of_pow (by omega) hle)
    exact zpow_lt_zpow_right₀ one_lt_two (by omega)
  have hlow : 2 ^ k ≤ q := (lt_of_le_of_lt (le_add_of_nonneg_right (two_zpow_pos _).le) h).le
  have hone : (2 : ℚ) ^ k = ((2 ^ 52 : ℤ) : ℚ) * 2 ^ (k - 52) := by
    rw [Int.cast_pow, Int.cast_ofNat, ← zpow_natCast, ← zpow_add₀ two_ne_zero]
    congr 1
    omega
  have hhalf : (2 : ℚ) ^ (k - 53) = 1 / 2 * 2 ^ (k - 52) := by
    rw [show k - 53 = k - 52 - 1 by ring, zpow_sub_one₀ two_ne_zero]
    ring
  have hround : (2 ^ 52 : ℤ) < roundHalfEven (q / 2 ^ (k - 52)) := by
    refine lt_roundHalfEven ?_
    rw [lt_div_iff₀ (two_zpow_pos _), add_mul, ← hone, ← hhalf]
    exact h
  rw [nearest, gridBit_eq hk hlow hlt, hone]
  exact mul_lt_mul_of_pos_right (by exact_mod_cast hround) (two_zpow_pos _)

theorem nearest_le_of_lt_pow {k : ℤ} (hk : -1022 ≤ k) {q : ℚ} (h : q < 2 ^ k + 2 ^ (k - 53)) :
    nearest q ≤ 2 ^ k := by
  rcases le_or_gt q (2 ^ k) with hle | hgt
  · exact nearest_le_of_pow (by omega) hle
  have hone : (2 : ℚ) ^ k = ((2 ^ 52 : ℤ) : ℚ) * 2 ^ (k - 52) := by
    rw [Int.cast_pow, Int.cast_ofNat, ← zpow_natCast, ← zpow_add₀ two_ne_zero]
    congr 1
    omega
  have hhalf : (2 : ℚ) ^ (k - 53) = 1 / 2 * 2 ^ (k - 52) := by
    rw [show k - 53 = k - 52 - 1 by ring, zpow_sub_one₀ two_ne_zero]
    ring
  have hnext : q < 2 ^ (k + 1) := by
    have hsmall : (2 : ℚ) ^ (k - 53) ≤ 2 ^ k := zpow_le_zpow_right₀ one_le_two (by omega)
    rw [zpow_add_one₀ two_ne_zero]
    linarith
  have hround : roundHalfEven (q / 2 ^ (k - 52)) ≤ 2 ^ 52 := by
    refine roundHalfEven_le_of_lt ?_
    rw [div_lt_iff₀ (two_zpow_pos _), add_mul, ← hone, ← hhalf]
    exact h
  rw [nearest, gridBit_eq hk hgt.le hnext, hone]
  exact mul_le_mul_of_nonneg_right (by exact_mod_cast hround) (two_zpow_pos _).le

theorem natCast_add_le_nearest {k : ℕ} (hk : k ≤ 52) {n : ℕ} (hlow : 2 ^ k ≤ n)
    (hhigh : n < 2 ^ (k + 1)) {q : ℚ} (h : (n : ℚ) < nearest q) :
    (n : ℚ) + 2 ^ ((k : ℤ) - 52) ≤ nearest q := by
  have hpow : (2 : ℚ) ^ (k : ℤ) ≤ n := by
    rw [zpow_natCast]
    exact_mod_cast hlow
  rcases le_or_gt (2 ^ ((k : ℤ) + 1)) q with hle | hlt
  · have hbit : (2 : ℚ) ^ ((k : ℤ) - 52) ≤ 1 :=
      zpow_le_one_of_nonpos₀ one_le_two (by omega)
    have hnext : (n : ℚ) + 1 ≤ 2 ^ ((k : ℤ) + 1) := by exact_mod_cast hhigh
    have hnear := le_nearest_of_pow (by omega) hle
    linarith
  · have hq : 2 ^ (k : ℤ) ≤ q := by
      by_contra hsmall
      have hnear := nearest_le_of_pow (k := k) (by omega) (not_le.mp hsmall).le
      linarith
    have hn : (n : ℚ) = ((n * 2 ^ (52 - k) : ℕ) : ℤ) * 2 ^ ((k : ℤ) - 52) := by
      push_cast
      rw [mul_assoc, ← zpow_natCast, ← zpow_add₀ two_ne_zero, Nat.cast_sub hk]
      simp
    rw [nearest, gridBit_eq (by omega) hq hlt] at h ⊢
    rw [hn] at h ⊢
    have hlt := lt_of_mul_lt_mul_right h (two_zpow_pos _).le
    have hle : ((n * 2 ^ (52 - k) : ℕ) : ℤ) + 1 ≤ roundHalfEven (q / 2 ^ ((k : ℤ) - 52)) := by
      exact_mod_cast hlt
    calc _ = (((n * 2 ^ (52 - k) : ℕ) : ℤ) + 1 : ℚ) * 2 ^ ((k : ℤ) - 52) := by ring
      _ ≤ _ := mul_le_mul_of_nonneg_right (by exact_mod_cast hle) (two_zpow_pos _).le

end RadiusModule.Library.Binary64
