import RadiusModule.Library.Binary64
import RadiusModule.Library.NumberText

/-!
# Numbers read from a text

`float(s)`: white space around a sign and a decimal number, an infinity or not
a number. A number from `2 ^ 1024` on reads as an infinity.
-/

namespace RadiusModule.Library

inductive PyFloat
  | finite (q : ℚ)
  | infinite (negative : Bool)
  | nan
deriving DecidableEq

namespace FloatText
open PyText Binary64

def digitsThen (n k : ℕ) : List Char → ℕ × ℕ × List Char
  | '_' :: c :: cs =>
    match digit? c with
    | some d => digitsThen (10 * n + d) (k + 1) cs
    | none => (n, k, '_' :: c :: cs)
  | c :: cs =>
    match digit? c with
    | some d => digitsThen (10 * n + d) (k + 1) cs
    | none => (n, k, c :: cs)
  | [] => (n, k, [])

def digitRun (n : ℕ) (cs : List Char) : ℕ × ℕ × List Char :=
  if cs.head? = some '_' then (n, 0, cs) else digitsThen n 0 cs

def exponent? : List Char → Option ℤ
  | [] => some 0
  | 'e' :: '+' :: cs => (natChars? cs).map fun n => (n : ℤ)
  | 'e' :: '-' :: cs => (natChars? cs).map fun n => -(n : ℤ)
  | 'e' :: cs => (natChars? cs).map fun n => (n : ℤ)
  | _ => none

def rounded (negative : Bool) (q : ℚ) : PyFloat :=
  let q := nearest q
  if 2 ^ 1024 ≤ q then .infinite negative else .finite (if negative then -q else q)

def decimal? (negative : Bool) (cs : List Char) : Option PyFloat :=
  let (whole, k, rest) := digitRun 0 cs
  let (n, places, rest) := match rest with
    | '.' :: rest => digitRun whole rest
    | rest => (whole, 0, rest)
  if k + places = 0 then none
  else (exponent? rest).map fun e => rounded negative (n * (10 : ℚ) ^ (e - (places : ℤ)))

def unsigned? (negative : Bool) (cs : List Char) : Option PyFloat :=
  let word := String.ofList cs
  if word = "inf" ∨ word = "infinity" then some (.infinite negative)
  else if word = "nan" then some .nan
  else decimal? negative cs

def float? (s : String) : Option PyFloat :=
  match (stripChars s.toList).map Char.toLower with
  | '+' :: cs => unsigned? false cs
  | '-' :: cs => unsigned? true cs
  | cs => unsigned? false cs

end FloatText

/-- `int(x)` is an `OverflowError` for an infinity and a `ValueError` for no number. -/
inductive IntError
  | overflow
  | value

/-- `int(float(s))` -/
def intOfFloat (s : String) : Except IntError ℤ :=
  match FloatText.float? s with
  | none => .error .value
  | some .nan => .error .value
  | some (.infinite _) => .error .overflow
  | some (.finite q) => .ok (if q < 0 then ⌈q⌉ else ⌊q⌋)

namespace FloatText
open PyText Binary64

theorem digitsThen_digits {cs : List Char} (h : ∀ c ∈ cs, c.isDigit = true) (n k : ℕ) :
    digitsThen n k cs = (Nat.ofDigitChars 10 cs n, k + cs.length, []) := by
  induction cs generalizing n k with
  | nil => rfl
  | cons c cs ih =>
    have hc := h c List.mem_cons_self
    have hstep : digitsThen n k (c :: cs) = digitsThen (10 * n + (c.toNat - '0'.toNat)) (k + 1) cs := by
      rw [digitsThen]
      · rw [digit?_of_isDigit hc]
      · rintro d ds rfl -
        exact absurd hc (by decide)
    rw [hstep, ih fun d hd => h d (List.mem_cons_of_mem c hd), Nat.ofDigitChars_cons,
      List.length_cons]
    simp only [Prod.mk.injEq, true_and, and_true]
    omega

theorem decimal?_digits {cs : List Char} (hne : cs ≠ []) (hdigits : ∀ c ∈ cs, c.isDigit = true) :
    decimal? false cs = some (rounded false (Nat.ofDigitChars 10 cs 0 : ℕ)) := by
  have hrun : digitRun 0 cs = (Nat.ofDigitChars 10 cs 0, cs.length, []) := by
    rw [digitRun, if_neg, digitsThen_digits hdigits, Nat.zero_add]
    intro hhead
    exact absurd (hdigits '_' (List.mem_of_head? hhead)) (by decide)
  have hlength : cs.length ≠ 0 := fun h => hne (List.length_eq_zero_iff.mp h)
  simp [decimal?, hrun, hlength, exponent?]

theorem unsigned?_digits {cs : List Char} (hne : cs ≠ []) (hdigits : ∀ c ∈ cs, c.isDigit = true) :
    unsigned? false cs = some (rounded false (Nat.ofDigitChars 10 cs 0 : ℕ)) := by
  have hword : ∀ word : String, (∃ c ∈ word.toList, c.isDigit = false) → String.ofList cs ≠ word := by
    rintro word ⟨c, hc, hdigit⟩ rfl
    rw [String.toList_ofList] at hc
    exact absurd (hdigits c hc) (by rw [hdigit]; decide)
  rw [unsigned?, if_neg, if_neg, decimal?_digits hne hdigits]
  · exact hword "nan" ⟨'n', by decide, by decide⟩
  · exact not_or.mpr ⟨hword "inf" ⟨'i', by decide, by decide⟩,
      hword "infinity" ⟨'i', by decide, by decide⟩⟩

theorem float?_toDigits (n : ℕ) : float? (toString n) = some (rounded false n) := by
  have hchars : stripChars (toString n).toList = Nat.toDigits 10 n :=
    (stripChars_toString n).trans (toList_toString_nat n)
  have hdigits : ∀ c ∈ Nat.toDigits 10 n, c.isDigit = true := fun c hc =>
    Nat.isDigit_of_mem_toDigits (by decide) (by decide) hc
  have hlower : (Nat.toDigits 10 n).map Char.toLower = Nat.toDigits 10 n :=
    (List.map_congr_left fun c hc => toLower_of_isDigit (hdigits c hc)).trans (List.map_id _)
  have hvalue := unsigned?_digits Nat.toDigits_ne_nil hdigits
  rw [Nat.ofDigitChars_ten_toDigits] at hvalue
  rw [float?, hchars, hlower]
  split
  · next cs hcs => exact absurd (hdigits '+' (hcs ▸ List.mem_cons_self)) (by decide)
  · next cs hcs => exact absurd (hdigits '-' (hcs ▸ List.mem_cons_self)) (by decide)
  · exact hvalue

theorem float?_toString {n : ℕ} (h : n < 2 ^ 53) : float? (toString n) = some (.finite n) := by
  have hsmall : ¬(2 : ℚ) ^ 1024 ≤ n := by
    have hlt : (n : ℚ) < 2 ^ 53 := by exact_mod_cast h
    exact not_le.mpr (hlt.trans_le (pow_le_pow_right₀ (by norm_num) (by norm_num)))
  rw [float?_toDigits, rounded, nearest_natCast h, if_neg hsmall]
  rfl

theorem rounded_of_float? {s : String} {r : ℚ} (h : float? s = some (.finite r)) :
    ∃ negative q, 0 ≤ q ∧ rounded negative q = .finite r := by
  have hdecimal : ∀ negative cs, unsigned? negative cs = some (.finite r) →
      ∃ negative q, 0 ≤ q ∧ rounded negative q = .finite r := by
    intro negative cs h
    rw [unsigned?] at h
    split_ifs at h
    · cases h
    · cases h
    · simp only [decimal?] at h
      split_ifs at h
      obtain ⟨e, -, hr⟩ := Option.map_eq_some_iff.mp h
      exact ⟨negative, _, by positivity, hr⟩
  rw [float?] at h
  split at h
  · exact hdecimal _ _ h
  · exact hdecimal _ _ h
  · exact hdecimal _ _ h

end FloatText

theorem intOfFloat_toString {n : ℕ} (h : n < 2 ^ 53) :
    intOfFloat (toString n) = .ok n := by
  rw [intOfFloat, FloatText.float?_toString h]
  simp

end RadiusModule.Library
