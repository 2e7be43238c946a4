import RadiusModule.Library.FloatText

/-!
# Arithmetic on floats

Products and sums are rounded once, to an infinity from the overflow limit on.
`int(round(x))` raises for an infinity and for no number.
-/

namespace RadiusModule.Library
namespace PyFloat
open Binary64

def ofRat (q : ℚ) : PyFloat := FloatText.rounded (q < 0) |q|

/-- `x * f`, or `x / d` for `f = 1 / d`, with a factor that is positive. -/
def scale (x : PyFloat) (f : ℚ) : PyFloat :=
  match x with
  | .finite q => ofRat (q * f)
  | .infinite negative => .infinite negative
  | .nan => .nan

def add : PyFloat → PyFloat → PyFloat
  | .finite q, .finite r => ofRat (q + r)
  | .finite _, y => y
  | .infinite negative, .finite _ => .infinite negative
  | .infinite negative, .infinite negative' =>
    if negative = negative' then .infinite negative else .nan
  | .infinite _, .nan => .nan
  | .nan, _ => .nan

/-- `int(round(x))` -/
def round : PyFloat → Option ℤ
  | .finite q => some (roundHalfEven q)
  | _ => none

/-- `r <= x` -/
def atLeast (r : ℚ) : PyFloat → Bool
  | .finite q => r ≤ q
  | .infinite negative => !negative
  | .nan => false

def Positive : PyFloat → Prop
  | .finite q => 0 < q
  | .infinite negative => negative = false
  | .nan => False

instance : DecidablePred Positive
  | .finite q => inferInstanceAs (Decidable (0 < q))
  | .infinite negative => inferInstanceAs (Decidable (negative = false))
  | .nan => inferInstanceAs (Decidable False)

def Rounded (x : PyFloat) : Prop :=
  ∀ q, x = .finite q → |q| < 2 ^ 1024 ∧ (0 < q → ∃ r, nearest r = q)

theorem ofRat_of_pos {q : ℚ} (hq : 0 < q) : ofRat q =
    if q < 2 ^ 1024 - 2 ^ 970 then .finite (nearest q) else .infinite false := by
  rw [ofRat, abs_of_pos hq, decide_eq_false (not_lt.mpr hq.le), FloatText.rounded]
  by_cases h : q < 2 ^ 1024 - 2 ^ 970
  · rw [if_pos h, if_neg (not_le.mpr ((nearest_lt_iff hq.le).mpr h)), if_neg Bool.false_ne_true]
  · rw [if_neg h, if_pos (not_lt.mp (mt (nearest_lt_iff hq.le).mp h))]

theorem eq_nearest_of_ofRat {q r : ℚ} (hq : 0 < q) (h : ofRat q = .finite r) : r = nearest q := by
  rw [ofRat_of_pos hq] at h
  split_ifs at h
  exact (PyFloat.finite.inj h).symm

theorem nonpos_of_ofRat {q r : ℚ} (hq : q ≤ 0) (h : ofRat q = .finite r) : r ≤ 0 := by
  rw [ofRat, FloatText.rounded] at h
  split_ifs at h with hlimit hneg
  · obtain rfl := PyFloat.finite.inj h
    exact neg_nonpos.mpr (nearest_nonneg (abs_nonneg q))
  · obtain rfl : q = 0 := le_antisymm hq (by simpa using hneg)
    obtain rfl := PyFloat.finite.inj h
    exact nearest_nonpos (by simp)

theorem lt_of_rounded {negative : Bool} {q r : ℚ} (hq : 0 ≤ q)
    (h : FloatText.rounded negative q = .finite r) : |r| < 2 ^ 1024 := by
  rw [FloatText.rounded] at h
  split_ifs at h with hlimit hneg
  · obtain rfl := PyFloat.finite.inj h
    rw [abs_neg, abs_of_nonneg (nearest_nonneg hq)]
    exact not_le.mp hlimit
  · obtain rfl := PyFloat.finite.inj h
    rw [abs_of_nonneg (nearest_nonneg hq)]
    exact not_le.mp hlimit

theorem lt_of_float? {s : String} {r : ℚ} (h : FloatText.float? s = some (.finite r)) :
    |r| < 2 ^ 1024 := by
  obtain ⟨negative, q, hq, hround⟩ := FloatText.rounded_of_float? h
  exact lt_of_rounded hq hround

theorem lt_of_ofRat {q r : ℚ} (h : ofRat q = .finite r) : |r| < 2 ^ 1024 :=
  lt_of_rounded (abs_nonneg q) h

theorem ofRat_mul_finite {q f : ℚ} (hq : |q| < 2 ^ 1024) (hpos : 0 < f) (hf : f ≤ 1 / 2) :
    ∃ r, ofRat (q * f) = .finite r := by
  have hlimit : (2 : ℚ) ^ 1023 ≤ 2 ^ 1024 - 2 ^ 970 := by
    rw [le_sub_iff_add_le, show (2 : ℚ) ^ 1024 = 2 ^ 1023 + 2 ^ 1023 by rw [pow_succ, mul_two]]
    exact add_le_add_right (pow_le_pow_right₀ one_le_two (by omega)) _
  have hsmall : |q * f| < 2 ^ 1023 := by
    rw [abs_mul, abs_of_pos hpos]
    calc |q| * f ≤ |q| * (1 / 2) := mul_le_mul_of_nonneg_left hf (abs_nonneg q)
      _ < 2 ^ 1024 * (1 / 2) := mul_lt_mul_of_pos_right hq one_half_pos
      _ = 2 ^ 1023 := by rw [pow_succ, mul_assoc, mul_one_div_cancel two_ne_zero, mul_one]
  have hnear := (nearest_lt_iff (abs_nonneg _)).mpr (hsmall.trans_le hlimit)
  rw [ofRat, FloatText.rounded, if_neg (not_le.mpr hnear)]
  exact ⟨_, rfl⟩

theorem rounded_ofRat (q : ℚ) : Rounded (ofRat q) := by
  intro r hr
  refine ⟨lt_of_ofRat hr, fun hpos => ⟨|q|, ?_⟩⟩
  rw [ofRat, FloatText.rounded] at hr
  split_ifs at hr with hlimit hneg
  · obtain rfl := PyFloat.finite.inj hr
    exact absurd (nearest_nonneg (abs_nonneg q)) (not_le.mpr (neg_pos.mp hpos))
  · exact PyFloat.finite.inj hr

theorem rounded_scale (x : PyFloat) (f : ℚ) : Rounded (x.scale f) := by
  cases x with
  | finite q => exact rounded_ofRat _
  | infinite negative => nofun
  | nan => nofun

theorem rounded_add (x y : PyFloat) : Rounded (x.add y) := by
  cases x <;> cases y <;> try exact rounded_ofRat _
  all_goals
    intro q hq
    simp only [add] at hq
    try split at hq
    all_goals cases hq

theorem ofRat_eq_infinite_iff {q : ℚ} : ofRat q = .infinite false ↔ 2 ^ 1024 - 2 ^ 970 ≤ q := by
  rcases lt_or_ge 0 q with hpos | hneg
  · rw [ofRat_of_pos hpos]
    split_ifs with hlimit
    · exact iff_of_false (by simp) (not_le.mpr hlimit)
    · exact iff_of_true rfl (not_lt.mp hlimit)
  · have hlimit : (0 : ℚ) < 2 ^ 1024 - 2 ^ 970 :=
      sub_pos.mpr (pow_lt_pow_right₀ one_lt_two (by omega))
    refine iff_of_false ?_ (not_le.mpr (hneg.trans_lt hlimit))
    rw [ofRat, FloatText.rounded]
    rcases hneg.lt_or_eq with hlt | rfl
    · split_ifs <;> simp [hlt]
    · have hzero := nearest_natCast (n := 0) (by norm_num)
      rw [Nat.cast_zero] at hzero
      rw [abs_zero, hzero, if_neg (not_le.mpr (by positivity))]
      simp

theorem round_pos_iff {x : PyFloat} : (∃ v, x.round = some v ∧ 0 < v) ↔
    ∃ q, x = .finite q ∧ 1 / 2 < q := by
  cases x with
  | finite q => simp [round, roundHalfEven_pos_iff]
  | infinite negative => simp [round]
  | nan => simp [round]

end PyFloat
end RadiusModule.Library
