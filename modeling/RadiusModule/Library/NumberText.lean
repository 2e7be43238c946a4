import RadiusModule.Library.PyText

/-!
# Numbers as text

The decimal text of an integer is read back by `int`, and holds none of the
characters that separate numbers.
-/

namespace RadiusModule.Library.PyText

theorem isDigit_cases {c : Char} (h : c.isDigit = true) :
    ∃ n ∈ List.range' 48 10, c = Char.ofNat n := by
  have hbounds : 48 ≤ c.toNat ∧ c.toNat ≤ 57 := by
    simp only [Char.isDigit, Bool.and_eq_true, decide_eq_true_eq, UInt32.le_iff_toNat_le] at h
    exact h
  exact ⟨c.toNat, List.mem_range'_1.mpr ⟨hbounds.1, by omega⟩, (Char.ofNat_toNat c).symm⟩

theorem digit?_of_isDigit {c : Char} (h : c.isDigit = true) :
    digit? c = some (c.toNat - '0'.toNat) := by
  have hdigits : ∀ n ∈ List.range' 48 10,
      digit? (Char.ofNat n) = some ((Char.ofNat n).toNat - '0'.toNat) := by decide
  obtain ⟨n, hn, rfl⟩ := isDigit_cases h
  exact hdigits n hn

theorem isSpace_of_isDigit {c : Char} (h : c.isDigit = true) : isSpace c = false := by
  have hdigits : ∀ n ∈ List.range' 48 10, isSpace (Char.ofNat n) = false := by decide
  obtain ⟨n, hn, rfl⟩ := isDigit_cases h
  exact hdigits n hn

theorem digitsFrom_digits {cs : List Char} (h : ∀ c ∈ cs, c.isDigit = true) (n : ℕ) :
    digitsFrom n cs = some (Nat.ofDigitChars 10 cs n) := by
  induction cs generalizing n with
  | nil => rfl
  | cons c cs ih =>
    have hc := h c List.mem_cons_self
    have hstep : digitsFrom n (c :: cs) =
        (digit? c).bind fun d => digitsFrom (10 * n + d) cs := by
      rw [digitsFrom]
      rintro d ds rfl -
      exact absurd hc (by decide)
    rw [hstep, digit?_of_isDigit hc, Option.bind_some, ih fun d hd => h d (List.mem_cons_of_mem c hd),
      Nat.ofDigitChars_cons]

theorem natChars?_digits {cs : List Char} (hne : cs ≠ []) (h : ∀ c ∈ cs, c.isDigit = true) :
    natChars? cs = some (Nat.ofDigitChars 10 cs 0) := by
  cases cs with
  | nil => exact absurd rfl hne
  | cons c cs =>
    rw [natChars?, digit?_of_isDigit (h c List.mem_cons_self), Option.bind_some,
      digitsFrom_digits fun d hd => h d (List.mem_cons_of_mem c hd), Nat.ofDigitChars_cons,
      Nat.mul_zero, Nat.zero_add]

theorem toList_toString_nat (n : ℕ) : (toString n).toList = Nat.toDigits 10 n :=
  Nat.toList_repr

theorem toList_toString_neg (n : ℕ) :
    (toString (Int.negSucc n)).toList = '-' :: Nat.toDigits 10 (n + 1) := by
  have htext : toString (Int.negSucc n) = "-" ++ (n + 1).repr := rfl
  rw [htext, String.toList_append, Nat.toList_repr]
  rfl

theorem mem_toString {z : ℤ} {c : Char} (h : c ∈ (toString z).toList) :
    c.isDigit = true ∨ c = '-' := by
  cases z with
  | ofNat n =>
    rw [show toString (Int.ofNat n) = toString n from rfl, toList_toString_nat] at h
    exact .inl (Nat.isDigit_of_mem_toDigits (by decide) (by decide) h)
  | negSucc n =>
    rw [toList_toString_neg] at h
    rcases List.mem_cons.mp h with rfl | h
    · exact .inr rfl
    · exact .inl (Nat.isDigit_of_mem_toDigits (by decide) (by decide) h)

theorem not_mem_toString {z : ℤ} {c : Char} (hdigit : c.isDigit = false) (hc : c ≠ '-') :
    c ∉ (toString z).toList := fun h => by
  rcases mem_toString h with h | h
  · rw [hdigit] at h
    cases h
  · exact hc h

theorem stripChars_toString (z : ℤ) : stripChars (toString z).toList = (toString z).toList := by
  refine stripChars_of_noSpace fun c hc => ?_
  rcases mem_toString hc with h | rfl
  · exact isSpace_of_isDigit h
  · decide

theorem int?_toString (z : ℤ) : int? (toString z) = some z := by
  have hdigits : ∀ n : ℕ, natChars? (Nat.toDigits 10 n) = some n := fun n => by
    rw [natChars?_digits Nat.toDigits_ne_nil fun c hc =>
      Nat.isDigit_of_mem_toDigits (by decide) (by decide) hc, Nat.ofDigitChars_ten_toDigits]
  rw [int?, stripChars_toString]
  cases z with
  | ofNat n =>
    rw [show toString (Int.ofNat n) = toString n from rfl, toList_toString_nat]
    have hhead : ∀ c ∈ Nat.toDigits 10 n, c.isDigit = true := fun c hc =>
      Nat.isDigit_of_mem_toDigits (by decide) (by decide) hc
    split
    · rename_i cs heq
      rw [heq] at hhead
      exact absurd (hhead '+' List.mem_cons_self) (by decide)
    · rename_i cs heq
      rw [heq] at hhead
      exact absurd (hhead '-' List.mem_cons_self) (by decide)
    · rw [hdigits]
      rfl
  | negSucc n =>
    rw [toList_toString_neg]
    simp only [hdigits]
    rfl

end RadiusModule.Library.PyText
