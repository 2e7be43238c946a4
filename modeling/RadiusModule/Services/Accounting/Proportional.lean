import RadiusModule.Services.Accounting.Pricing

/-!
# Time for money and money for time

What an amount buys in whole minutes, rounded down, and what minutes cost in
cents, half a cent up. Prices and amounts are the decimals that the floats
print.
-/

namespace RadiusModule.Accounting
open Library Binary64

/-- The float `q / 100`; `none` is an `OverflowError`. -/
def centsFloat (q : ℤ) : Option ℚ :=
  if 2 ^ 1024 ≤ fl (q / 100) then none else some (fl (q / 100))

def centsLimit : ℤ := 100 * (2 ^ 1024 - 2 ^ 970)

theorem centsFloat_eq_some_iff {q : ℤ} (h : 0 ≤ q) :
    centsFloat q = some (fl (q / 100)) ↔ q < centsLimit := by
  have hq : (0 : ℚ) ≤ q / 100 := div_nonneg (by exact_mod_cast h) (by norm_num)
  have hfinite := fl_lt_two_pow_iff 970 hq
  rw [show 970 + 54 = 1024 from rfl] at hfinite
  have hcents : (q : ℚ) / 100 < 2 ^ 1024 - 2 ^ 970 ↔ q < centsLimit := by
    rw [div_lt_iff₀ (by norm_num), centsLimit, ← Int.cast_lt (R := ℚ), mul_comm]
    simp only [Int.cast_mul, Int.cast_sub, Int.cast_pow, Int.cast_ofNat]
  rw [hcents] at hfinite
  rw [← hfinite, centsFloat]
  split_ifs with hlarge
  · simpa using hlarge
  · simpa using hlarge

def proportionalAmount (minutes : ℤ) (planPrice : ℚ) (baseMinutes : ℤ) : Option ℚ :=
  centsFloat (calculateProportionalAmount minutes planPrice baseMinutes)

def Cents (value : ℚ) : Prop := ∃ n : ℤ, value = n / 100

theorem exact_cents (n : ℤ) : exact (n / 100) = n / 100 := by
  have hscaled : (n : ℚ) / 100 * 1000000 = ((n * 10000 : ℤ) : ℚ) := by
    push_cast
    ring
  rw [exact, hscaled, roundHalfEven_intCast]
  push_cast
  ring

theorem exact_eq_zero_iff {price : ℚ} (h : 0 < price) : exact price = 0 ↔ price ≤ 1 / 2000000 := by
  have hround : exact price = 0 ↔ roundHalfEven (price * 1000000) = 0 := by
    rw [exact, div_eq_zero_iff]
    norm_num
  rw [hround]
  constructor
  · intro hzero
    by_contra hlarge
    have hfloor : (0 : ℤ) ≤ ⌊price * 1000000⌋ := Int.floor_nonneg.mpr (by positivity)
    have hle : ⌊price * 1000000⌋ ≤ 0 := hzero ▸ floor_le_roundHalfEven _
    have hnone : ⌊price * 1000000⌋ = 0 := le_antisymm hle hfloor
    simp only [roundHalfEven, hnone, Int.cast_zero, sub_zero] at hzero
    rw [if_neg (by linarith), if_pos (by linarith)] at hzero
    exact absurd hzero (by decide)
  · intro hsmall
    have hfloor : ⌊price * 1000000⌋ = 0 := by
      rw [Int.floor_eq_zero_iff, Set.mem_Ico]
      constructor <;> linarith
    simp only [roundHalfEven, hfloor, Int.cast_zero, sub_zero]
    rw [if_neg (by linarith : ¬(1 / 2 : ℚ) < price * 1000000)]
    simp

theorem half_up_eq (u : ℤ) {base : ℤ} (h : 0 < base) :
    (if base ≤ 2 * (u % base) then u / base + 1 else u / base) = ⌊(u : ℚ) / base + 1 / 2⌋ := by
  have hbase : (0 : ℚ) < base := by exact_mod_cast h
  have hmod := Int.emod_add_mul_ediv u base
  have hlow := Int.emod_nonneg u h.ne'
  have hhigh := Int.emod_lt_of_pos u h
  have hsplit : (u : ℚ) / base = ((u / base : ℤ) : ℚ) + ((u % base : ℤ) : ℚ) / base := by
    have hcast : ((u % base : ℤ) : ℚ) + base * ((u / base : ℤ) : ℚ) = u := by exact_mod_cast hmod
    rw [← hcast, add_div, mul_div_cancel_left₀ _ hbase.ne', add_comm]
  rw [hsplit, eq_comm, Int.floor_eq_iff]
  have hlow' : (0 : ℚ) ≤ ((u % base : ℤ) : ℚ) / base := div_nonneg (by exact_mod_cast hlow) hbase.le
  have hhigh' : ((u % base : ℤ) : ℚ) / base < 1 := (div_lt_one hbase).mpr (by exact_mod_cast hhigh)
  split_ifs with hup
  · have hhalf : (1 / 2 : ℚ) ≤ ((u % base : ℤ) : ℚ) / base := by
      rw [le_div_iff₀ hbase]
      have : (base : ℚ) ≤ 2 * ((u % base : ℤ) : ℚ) := by exact_mod_cast hup
      linarith
    push_cast
    constructor <;> linarith
  · have hhalf : ((u % base : ℤ) : ℚ) / base < 1 / 2 := by
      rw [div_lt_iff₀ hbase]
      have : 2 * ((u % base : ℤ) : ℚ) < base := by exact_mod_cast not_le.mp hup
      linarith
    constructor <;> linarith

theorem sum_half_up_le (xs : List ℚ) :
    (xs.map fun x => ⌊x + 1 / 2⌋).sum ≤ ⌊xs.sum + 1 / 2⌋ + xs.length := by
  have hparts : (((xs.map fun x => ⌊x + 1 / 2⌋).sum : ℤ) : ℚ) ≤ xs.sum + xs.length / 2 := by
    induction xs with
    | nil => simp
    | cons x xs ih =>
      simp only [List.map_cons, List.sum_cons, List.length_cons]
      push_cast at ih ⊢
      have := Int.floor_le (x + 1 / 2)
      linarith
  have hwhole := Int.lt_floor_add_one (xs.sum + 1 / 2)
  have hlt : (((xs.map fun x => ⌊x + 1 / 2⌋).sum : ℤ) : ℚ) <
      ⌊xs.sum + 1 / 2⌋ + (xs.length + 1) / 2 := by linarith
  have hlt' : 2 * (xs.map fun x => ⌊x + 1 / 2⌋).sum < 2 * ⌊xs.sum + 1 / 2⌋ + (xs.length + 1) := by
    have hscaled : 2 * (((xs.map fun x => ⌊x + 1 / 2⌋).sum : ℤ) : ℚ) <
        2 * ⌊xs.sum + 1 / 2⌋ + (xs.length + 1) := by linarith
    exact_mod_cast hscaled
  rcases Nat.eq_zero_or_pos xs.length with hnil | hpos
  · rw [List.eq_nil_of_length_eq_zero hnil]
    norm_num
  · omega

section Buying

variable {price amount : ℚ} {base : ℤ}

theorem minutes_ok_iff (hprice : 0 < price) (hamount : 0 < amount) (hbase : 0 < base) :
    (∃ m, calculateProportionalMinutes amount price base .floor = .ok m) ↔ 1 / 2000000 < price := by
  rw [← not_le, ← exact_eq_zero_iff hprice, calculateProportionalMinutes,
    if_neg (by push Not; exact ⟨hamount, hprice, hbase⟩)]
  split_ifs with hzero <;> simp [hzero]

theorem minutes_eq (hprice : 0 < price) (hamount : 0 < amount) (hbase : 0 < base)
    (hcents : Cents price) (hpaid : Cents amount) :
    calculateProportionalMinutes amount price base .floor = .ok ⌊base * amount / price⌋ := by
  obtain ⟨n, rfl⟩ := hcents
  obtain ⟨k, rfl⟩ := hpaid
  rw [calculateProportionalMinutes, if_neg (by push Not; exact ⟨hamount, hprice, hbase⟩)]
  simp only [exact_cents]
  rw [if_neg hprice.ne']

theorem isGreatest_minutes (hprice : 0 < price) :
    IsGreatest {m : ℤ | m * price ≤ amount * base} ⌊base * amount / price⌋ := by
  constructor
  · have hfloor := Int.floor_le (base * amount / price)
    rw [le_div_iff₀ hprice] at hfloor
    exact hfloor.trans_eq (mul_comm _ _)
  · intro m hm
    rw [Int.le_floor, le_div_iff₀ hprice]
    have hpaid : (m : ℚ) * price ≤ amount * base := hm
    exact hpaid.trans_eq (mul_comm _ _)

end Buying

structure Bought (price : ℚ) (base : ℤ) (a b : ℚ) (first second both : ℤ) : Prop where
  first_most : IsGreatest {m : ℤ | m * price ≤ a * base} first
  second_most : IsGreatest {m : ℤ | m * price ≤ b * base} second
  more : a ≤ b → first ≤ second
  split_le : first + second ≤ both
  le_split : both ≤ first + second + 1

theorem bought {price a b : ℚ} {base : ℤ} (hprice : 0 < price) (hbase : 0 < base) :
    Bought price base a b ⌊base * a / price⌋ ⌊base * b / price⌋ ⌊base * (a + b) / price⌋ := by
  have hsum : (base : ℚ) * (a + b) / price = base * a / price + base * b / price := by ring
  refine ⟨isGreatest_minutes hprice, isGreatest_minutes hprice, fun hab => ?_, ?_, ?_⟩
  · have hbase' : (0 : ℚ) ≤ base := by exact_mod_cast hbase.le
    exact Int.floor_mono (div_le_div_of_nonneg_right
      (mul_le_mul_of_nonneg_left hab hbase') hprice.le)
  · rw [hsum]
    exact Int.le_floor_add _ _
  · have := Int.le_floor_add_floor (base * a / price) (base * b / price)
    rw [hsum]
    omega

/-- `calculate_proportional_minutes` of two amounts and of both together. -/
def TimeForMoney (price : ℚ) (base : ℤ) (a b : ℚ) : Prop :=
  ∃ first second both,
    calculateProportionalMinutes a price base .floor = .ok first ∧
    calculateProportionalMinutes b price base .floor = .ok second ∧
    calculateProportionalMinutes (a + b) price base .floor = .ok both ∧
    (Cents price → Cents a → Cents b → Bought price base a b first second both)

theorem Cents.add {a b : ℚ} (ha : Cents a) (hb : Cents b) : Cents (a + b) := by
  obtain ⟨n, rfl⟩ := ha
  obtain ⟨k, rfl⟩ := hb
  exact ⟨n + k, by push_cast; ring⟩

theorem timeForMoney_iff {price a b : ℚ} {base : ℤ} (hprice : 0 < price) (hbase : 0 < base)
    (ha : 0 < a) (hb : 0 < b) : TimeForMoney price base a b ↔ 1 / 2000000 < price := by
  constructor
  · rintro ⟨first, _, _, hfirst, _⟩
    exact (minutes_ok_iff hprice ha hbase).mp ⟨first, hfirst⟩
  · intro hlarge
    have hboth := add_pos ha hb
    by_cases hcents : Cents price ∧ Cents a ∧ Cents b
    · obtain ⟨hp, hca, hcb⟩ := hcents
      exact ⟨_, _, _, minutes_eq hprice ha hbase hp hca, minutes_eq hprice hb hbase hp hcb,
        minutes_eq hprice hboth hbase hp (hca.add hcb), fun _ _ _ => bought hprice hbase⟩
    · obtain ⟨first, hfirst⟩ := (minutes_ok_iff hprice ha hbase).mpr hlarge
      obtain ⟨second, hsecond⟩ := (minutes_ok_iff hprice hb hbase).mpr hlarge
      obtain ⟨both, hsum⟩ := (minutes_ok_iff hprice hboth hbase).mpr hlarge
      exact ⟨first, second, both, hfirst, hsecond, hsum,
        fun hp hca hcb => absurd ⟨hp, hca, hcb⟩ hcents⟩

def NearestCents (amount : ℚ) (cents : ℤ) : Prop :=
  amount * 100 - 1 / 2 < cents ∧ (cents : ℚ) ≤ amount * 100 + 1 / 2

section Charging

variable {price : ℚ} {base : ℤ}

theorem amount_eq (hprice : 0 < price) (hbase : 0 < base) {minutes : ℤ} (hminutes : 0 ≤ minutes) :
    calculateProportionalAmount minutes price base =
      ⌊((roundMoney price * minutes : ℤ) : ℚ) / base + 1 / 2⌋ := by
  rw [← half_up_eq _ hbase, calculateProportionalAmount]
  rcases hminutes.eq_or_lt with rfl | hpos
  · rw [if_pos (Or.inl le_rfl)]
    simp [hbase]
  · rw [if_neg (by push Not; exact ⟨hpos, hprice, hbase⟩)]

theorem amount_mono (hprice : 0 < price) (hbase : 0 < base) {m n : ℤ} (hm : 0 ≤ m) (h : m ≤ n) :
    calculateProportionalAmount m price base ≤ calculateProportionalAmount n price base := by
  rw [amount_eq hprice hbase hm, amount_eq hprice hbase (hm.trans h)]
  have hunits : roundMoney price * m ≤ roundMoney price * n :=
    mul_le_mul_of_nonneg_left h (roundMoney_nonneg hprice.le)
  have hbase' : (0 : ℚ) ≤ base := by exact_mod_cast hbase.le
  refine Int.floor_mono (add_le_add (div_le_div_of_nonneg_right ?_ hbase') le_rfl)
  exact_mod_cast hunits

theorem sum_amounts_le (hprice : 0 < price) (hbase : 0 < base) {ms : List ℤ}
    (hms : ∀ m ∈ ms, 0 < m) :
    (ms.map fun m => calculateProportionalAmount m price base).sum ≤
      calculateProportionalAmount ms.sum price base + ms.length := by
  have hsum : 0 ≤ ms.sum := List.sum_nonneg fun m hm => (hms m hm).le
  have hparts : ms.map (fun m => calculateProportionalAmount m price base) =
      (ms.map fun m => ((roundMoney price * m : ℤ) : ℚ) / base).map fun x => ⌊x + 1 / 2⌋ := by
    rw [List.map_map]
    exact List.map_congr_left fun m hm => amount_eq hprice hbase (hms m hm).le
  have hunits : (ms.map fun m => ((roundMoney price * m : ℤ) : ℚ) / base).sum =
      ((roundMoney price * ms.sum : ℤ) : ℚ) / base := by
    clear hparts hsum hms
    induction ms with
    | nil => simp
    | cons m ms ih =>
      rw [List.map_cons, List.sum_cons, ih, List.sum_cons, ← add_div]
      push_cast
      ring
  have hle := sum_half_up_le (ms.map fun m => ((roundMoney price * m : ℤ) : ℚ) / base)
  rwa [hunits, List.length_map, ← amount_eq hprice hbase hsum, ← hparts] at hle

theorem nearest_amount (hprice : 0 < price) (hbase : 0 < base) (hcents : Cents price) {m : ℤ}
    (hm : 0 ≤ m) :
    NearestCents (price * m / base) (calculateProportionalAmount m price base) := by
  rw [amount_eq hprice hbase hm]
  obtain ⟨n, rfl⟩ := hcents
  have hunits : ((roundMoney ((n : ℚ) / 100) * m : ℤ) : ℚ) / base = n / 100 * m / base * 100 := by
    rw [roundMoney_cents]
    push_cast
    ring
  rw [hunits]
  have hlow := Int.floor_le ((n : ℚ) / 100 * m / base * 100 + 1 / 2)
  have hhigh := Int.lt_floor_add_one ((n : ℚ) / 100 * m / base * 100 + 1 / 2)
  constructor <;> linarith

theorem amount_finite_iff (hprice : 0 < price) (hbase : 0 < base) {m : ℤ} (hm : 0 ≤ m) :
    (proportionalAmount m price base).isSome ↔
      2 * (roundMoney price * m) < (2 * centsLimit - 1) * base := by
  have hbase' : (0 : ℚ) < base := by exact_mod_cast hbase
  have hlimit : calculateProportionalAmount m price base < centsLimit ↔
      2 * (roundMoney price * m) < (2 * centsLimit - 1) * base := by
    rw [amount_eq hprice hbase hm, Int.floor_lt, ← lt_sub_iff_add_lt, div_lt_iff₀ hbase',
      ← Int.cast_lt (R := ℚ)]
    push_cast
    constructor <;> intro h <;> linarith
  rw [← hlimit, ← centsFloat_eq_some_iff (calculateProportionalAmount_nonneg m price base),
    proportionalAmount, centsFloat]
  split_ifs <;> simp

end Charging

structure Charged (price : ℚ) (base : ℤ) (ms : List ℤ) : Prop where
  nearest : ∀ m ∈ ms.sum :: ms,
    NearestCents (price * m / base) (calculateProportionalAmount m price base)
  returned : ∀ m ∈ ms.sum :: ms,
    proportionalAmount m price base = some (fl (calculateProportionalAmount m price base / 100))
  more : ∀ m ∈ ms.sum :: ms, ∀ n ∈ ms.sum :: ms, m ≤ n →
    calculateProportionalAmount m price base ≤ calculateProportionalAmount n price base
  parts : (ms.map fun m => calculateProportionalAmount m price base).sum ≤
    calculateProportionalAmount ms.sum price base + ms.length

/-- `calculate_proportional_amount` of several spans of minutes and of the whole of them. -/
def MoneyForTime (price : ℚ) (base : ℤ) (ms : List ℤ) : Prop :=
  (∀ m ∈ ms.sum :: ms, (proportionalAmount m price base).isSome) ∧
    (Cents price → Charged price base ms)

theorem moneyForTime_iff {price : ℚ} {base : ℤ} {ms : List ℤ} (hprice : 0 < price)
    (hbase : 0 < base) (hms : ∀ m ∈ ms, 0 < m) :
    MoneyForTime price base ms ↔
      2 * (roundMoney price * ms.sum) < (2 * centsLimit - 1) * base := by
  have hsum : 0 ≤ ms.sum := List.sum_nonneg fun m hm => (hms m hm).le
  have hnonneg : ∀ m ∈ ms.sum :: ms, 0 ≤ m := by
    simpa [hsum] using fun m hm => (hms m hm).le
  constructor
  · intro h
    exact (amount_finite_iff hprice hbase hsum).mp (h.1 _ (List.mem_cons_self ..))
  · intro hlimit
    have hfinite : ∀ m ∈ ms.sum :: ms, (proportionalAmount m price base).isSome := by
      intro m hm
      refine (amount_finite_iff hprice hbase (hnonneg m hm)).mpr (lt_of_le_of_lt ?_ hlimit)
      have hle : m ≤ ms.sum := by
        rcases List.mem_cons.mp hm with rfl | hm
        · exact le_rfl
        · exact List.single_le_sum (fun m hm => (hms m hm).le) m hm
      have := mul_le_mul_of_nonneg_left hle (roundMoney_nonneg hprice.le)
      omega
    refine ⟨hfinite, fun hcents => ⟨fun m hm => nearest_amount hprice hbase hcents (hnonneg m hm),
      fun m hm => ?_, fun m hm n _ h => amount_mono hprice hbase (hnonneg m hm) h,
      sum_amounts_le hprice hbase hms⟩⟩
    have hsome := hfinite m hm
    rw [proportionalAmount, centsFloat] at hsome ⊢
    split_ifs at hsome ⊢
    · simp at hsome
    · rfl

/-- Time and money agree, and nothing is raised, for a price of more than half a millionth and
minutes that do not cost more than a float holds. -/
theorem time_and_money_iff {price a b : ℚ} {base : ℤ} {ms : List ℤ} (hprice : 0 < price)
    (hbase : 0 < base) (ha : 0 < a) (hb : 0 < b) (hms : ∀ m ∈ ms, 0 < m) :
    TimeForMoney price base a b ∧ MoneyForTime price base ms ↔
      1 / 2000000 < price ∧ 2 * (roundMoney price * ms.sum) < (2 * centsLimit - 1) * base :=
  and_congr (timeForMoney_iff hprice hbase ha hb) (moneyForTime_iff hprice hbase hms)

theorem time_and_money_five_a_day :
    TimeForMoney 5 1440 7 3 ∧ MoneyForTime 5 1440 [180, 60] := by
  have hcents : roundMoney 5 = 500 := by decide +kernel
  refine (time_and_money_iff (by norm_num) (by norm_num) (by norm_num) (by norm_num)
    (by decide)).mpr ⟨by norm_num, ?_⟩
  rw [hcents]
  decide +kernel

/-- A ten-millionth passes the check for a positive price and divides by zero. -/
theorem smallest_price_raises : ¬TimeForMoney (1 / 10000000) 1440 1 1 := by
  rintro ⟨first, second, both, hfirst, -⟩
  have hzero : exact (1 / 10000000) = 0 := (exact_eq_zero_iff (by norm_num)).mpr (by norm_num)
  rw [calculateProportionalMinutes, if_neg (by norm_num), if_pos hzero] at hfirst
  cases hfirst

end RadiusModule.Accounting
