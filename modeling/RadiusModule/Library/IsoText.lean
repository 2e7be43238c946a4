import Mathlib.Data.List.Lex
import Mathlib.Data.String.Basic
import RadiusModule.Library.DateText

/-!
# The order of the texts of dates

`isoformat` writes the fields of a date with fixed widths, and a fraction only
where there is one. Followed by a `Z`, its texts are ordered as the dates are,
but for a whole second, which comes after its fractions.
-/

namespace RadiusModule.Library.IsoText

def pad : ℕ → ℕ → List Char
  | 0, _ => []
  | w + 1, n => pad w (n / 10) ++ [Nat.digitChar (n % 10)]

theorem length_pad (w n : ℕ) : (pad w n).length = w := by
  induction w generalizing n with
  | zero => rfl
  | succ w ih => rw [pad, List.length_append, ih, List.length_singleton]

theorem append_lt_append {l l' : List Char} (hlen : l.length = l'.length) (h : l < l')
    (r r' : List Char) : l ++ r < l' ++ r' := by
  induction l generalizing l' with
  | nil =>
    cases l' with
    | nil => exact absurd h (lt_irrefl _)
    | cons c l' => cases hlen
  | cons a l ih =>
    cases l' with
    | nil => cases hlen
    | cons b l' =>
      rw [List.cons_append, List.cons_append, List.cons_lt_cons_iff]
      rcases List.cons_lt_cons_iff.mp h with hab | ⟨rfl, hl⟩
      · exact Or.inl hab
      · exact Or.inr ⟨rfl, ih (Nat.succ.inj hlen) hl⟩

theorem not_append_lt (l r : List Char) : ¬ l ++ r < l := by
  induction l with
  | nil => exact List.not_lt_nil _
  | cons c l ih =>
    rw [List.cons_append, List.cons_lt_cons_iff]
    rintro (h | ⟨-, h⟩)
    · exact lt_irrefl c h
    · exact ih h

theorem digitChar_lt : ∀ b < 10, ∀ a < b, Nat.digitChar a < Nat.digitChar b := by decide

theorem pad_lt {w n m : ℕ} (h : n < m) (hm : m < 10 ^ w) : pad w n < pad w m := by
  induction w generalizing n m with
  | zero => omega
  | succ w ih =>
    rw [pad, pad]
    obtain hlt | heq := (Nat.div_le_div_right (c := 10) h.le).lt_or_eq
    · exact append_lt_append (by rw [length_pad, length_pad]) (ih hlt (by omega)) _ _
    · rw [heq]
      refine List.append_left_lt (List.cons_lt_cons_iff.mpr (Or.inl ?_))
      exact digitChar_lt _ (Nat.mod_lt _ (by norm_num)) _ (by omega)

theorem pad_append_lt {w n m : ℕ} {r r' : List Char} (hm : m < 10 ^ w)
    (h : n < m ∨ n = m ∧ r < r') : pad w n ++ r < pad w m ++ r' := by
  obtain hlt | ⟨rfl, hr⟩ := h
  · exact append_lt_append (by rw [length_pad, length_pad]) (pad_lt hlt hm) r r'
  · exact List.append_left_lt hr

theorem mark_lt {c : Char} {r r' : List Char} (h : r < r') : c :: r < c :: r' :=
  List.cons_lt_cons_iff.mpr (Or.inr ⟨rfl, h⟩)

def daysBeforeYear (y : ℕ) : ℕ := 365 * (y - 1) + (y - 1) / 4 - (y - 1) / 100 + (y - 1) / 400

def yearOf (day : ℕ) : ℕ :=
  let r := day % 146097
  let century := min (r / 36524) 3
  let s := r - 36524 * century
  400 * (day / 146097) + 100 * century + 4 * (s / 1461) + min (s % 1461 / 365) 3 + 1

theorem daysBeforeYear_mono : Monotone daysBeforeYear :=
  monotone_nat_of_le_succ fun y => by
    simp only [daysBeforeYear]
    omega

theorem daysBeforeYear_parts (q century cycle place : ℕ) (hcentury : century ≤ 3)
    (hcycle : cycle ≤ 24) (hplace : place ≤ 3) :
    daysBeforeYear (400 * q + 100 * century + 4 * cycle + place + 1) =
      146097 * q + 36524 * century + 1461 * cycle + 365 * place := by
  simp only [daysBeforeYear, Nat.add_sub_cancel]
  have hfour : (400 * q + 100 * century + 4 * cycle + place) / 4 = 100 * q + 25 * century + cycle := by
    omega
  have hhundred : (400 * q + 100 * century + 4 * cycle + place) / 100 = 4 * q + century := by omega
  have hfourHundred : (400 * q + 100 * century + 4 * cycle + place) / 400 = q := by omega
  rw [hfour, hhundred, hfourHundred]
  omega

theorem daysBeforeYear_yearOf (day : ℕ) :
    daysBeforeYear (yearOf day) ≤ day ∧ day < daysBeforeYear (yearOf day + 1) := by
  set q := day / 146097 with hq
  set century := min (day % 146097 / 36524) 3 with hcentury
  set s := day % 146097 - 36524 * century with hs
  set cycle := s / 1461 with hcycle
  set place := min (s % 1461 / 365) 3 with hplace
  have hyear : yearOf day = 400 * q + 100 * century + 4 * cycle + place + 1 := rfl
  have hday : day = 146097 * q + 36524 * century + 1461 * cycle + s % 1461 := by omega
  have hcycle' : cycle ≤ 24 := by omega
  constructor
  · rw [hyear, daysBeforeYear_parts q century cycle place (by omega) hcycle' (by omega)]
    omega
  -- The next year is the next place, the next cycle, the next century or the next four of them.
  · by_cases hlast : place < 3
    · have hnext : yearOf day + 1 = 400 * q + 100 * century + 4 * cycle + (place + 1) + 1 := by omega
      rw [hnext, daysBeforeYear_parts q century cycle (place + 1) (by omega) hcycle' hlast]
      omega
    · by_cases hlastCycle : cycle < 24
      · have hnext : yearOf day + 1 = 400 * q + 100 * century + 4 * (cycle + 1) + 0 + 1 := by omega
        rw [hnext, daysBeforeYear_parts q century (cycle + 1) 0 (by omega) hlastCycle (by omega)]
        omega
      · by_cases hlastCentury : century < 3
        · have hnext : yearOf day + 1 = 400 * q + 100 * (century + 1) + 4 * 0 + 0 + 1 := by omega
          rw [hnext, daysBeforeYear_parts q (century + 1) 0 0 hlastCentury (by omega) (by omega)]
          omega
        · have hnext : yearOf day + 1 = 400 * (q + 1) + 100 * 0 + 4 * 0 + 0 + 1 := by omega
          rw [hnext, daysBeforeYear_parts (q + 1) 0 0 0 (by omega) (by omega) (by omega)]
          omega

theorem yearOf_mono {day day' : ℕ} (h : day ≤ day') : yearOf day ≤ yearOf day' := by
  by_contra hlt
  have hmono := daysBeforeYear_mono (Nat.succ_le_of_lt (not_le.mp hlt))
  have hday := daysBeforeYear_yearOf day
  have hday' := daysBeforeYear_yearOf day'
  rw [Nat.succ_eq_add_one] at hmono
  omega

theorem yearOf_lt {day : ℕ} (h : day < 3652059) : yearOf day < 10 ^ 4 := by
  simp only [yearOf]
  omega

def isLeap (y : ℕ) : Bool := y % 4 = 0 && (y % 100 ≠ 0 || y % 400 = 0)

def dayOfYear (day : ℕ) : ℕ := day - daysBeforeYear (yearOf day)

theorem dayOfYear_lt (day : ℕ) : dayOfYear day < 366 := by
  have hday := daysBeforeYear_yearOf day
  have hstep : daysBeforeYear (yearOf day + 1) ≤ daysBeforeYear (yearOf day) + 366 := by
    simp only [daysBeforeYear]
    omega
  rw [dayOfYear]
  omega

def monthStarts (leap : Bool) : List ℕ :=
  [0, 31].append ([59, 90, 120, 151, 181, 212, 243, 273, 304, 334].map
    (· + if leap then 1 else 0))

def monthOf (leap : Bool) (d : ℕ) : ℕ := ((monthStarts leap).filter (· ≤ d)).length

def dayOf (leap : Bool) (d : ℕ) : ℕ := d - (monthStarts leap).getD (monthOf leap d - 1) 0 + 1

theorem monthOf_mono (leap : Bool) {d d' : ℕ} (h : d ≤ d') : monthOf leap d ≤ monthOf leap d' := by
  refine List.Sublist.length_le (List.monotone_filter_right _ fun start hstart => ?_)
  have hle : start ≤ d := of_decide_eq_true hstart
  exact decide_eq_true (hle.trans h)

theorem monthOf_lt (leap : Bool) (d : ℕ) : monthOf leap d < 10 ^ 2 := by
  have hlength : (monthStarts leap).length = 12 := by cases leap <;> rfl
  have hfilter := List.length_filter_le (fun start => decide (start ≤ d)) (monthStarts leap)
  rw [monthOf]
  omega

theorem monthStart_le : ∀ leap, ∀ d < 366,
    (monthStarts leap).getD (monthOf leap d - 1) 0 ≤ d ∧ dayOf leap d < 10 ^ 2 := by
  decide +kernel

def dateText (day : ℕ) : List Char :=
  pad 4 (yearOf day) ++ '-' :: (pad 2 (monthOf (isLeap (yearOf day)) (dayOfYear day)) ++
    '-' :: pad 2 (dayOf (isLeap (yearOf day)) (dayOfYear day)))

def timeText (s : ℕ) : List Char :=
  pad 2 (s / 3600) ++ ':' :: (pad 2 (s / 60 % 60) ++ ':' :: pad 2 (s % 60))

def secondText (s : ℕ) : List Char := dateText (s / 86400) ++ 'T' :: timeText (s % 86400)

theorem dateText_lt {day day' : ℕ} (h : day < day') (hlast : day' < 3652059) :
    dateText day < dateText day' := by
  refine pad_append_lt (yearOf_lt hlast) ?_
  obtain hyear | hyear := (yearOf_mono h.le).lt_or_eq
  · exact Or.inl hyear
  · have hstart := (daysBeforeYear_yearOf day).1
    have hd : dayOfYear day < dayOfYear day' := by
      rw [dayOfYear, dayOfYear, ← hyear]
      omega
    refine Or.inr ⟨hyear, mark_lt (pad_append_lt (monthOf_lt _ _) ?_)⟩
    rw [← hyear]
    obtain hmonth | hmonth := (monthOf_mono (isLeap (yearOf day)) hd.le).lt_or_eq
    · exact Or.inl hmonth
    · have hle := monthStart_le (isLeap (yearOf day)) _ (dayOfYear_lt day)
      have hle' := monthStart_le (isLeap (yearOf day)) _ (dayOfYear_lt day')
      refine Or.inr ⟨hmonth, mark_lt (pad_lt ?_ hle'.2)⟩
      rw [dayOf, dayOf, ← hmonth]
      omega

theorem timeText_lt {s s' : ℕ} (h : s < s') (hlast : s' < 86400) : timeText s < timeText s' := by
  refine pad_append_lt (by omega) ?_
  obtain hhour | hhour := (Nat.div_le_div_right (c := 3600) h.le).lt_or_eq
  · exact Or.inl hhour
  · refine Or.inr ⟨hhour, mark_lt (pad_append_lt (by omega) ?_)⟩
    by_cases hminute : s / 60 % 60 < s' / 60 % 60
    · exact Or.inl hminute
    · exact Or.inr ⟨by omega, mark_lt (pad_lt (by omega) (by omega))⟩

theorem length_dateText (day : ℕ) : (dateText day).length = 10 := by
  simp [dateText, length_pad]

theorem length_secondText (s : ℕ) : (secondText s).length = 19 := by
  simp [secondText, timeText, length_dateText, length_pad]

def markedText (mark : Char) (s : ℕ) : List Char :=
  dateText (s / 86400) ++ mark :: timeText (s % 86400)

theorem length_markedText (mark : Char) (s : ℕ) : (markedText mark s).length = 19 := by
  simp [markedText, timeText, length_dateText, length_pad]

theorem markedText_lt {mark : Char} {s s' : ℕ} (h : s < s') (hlast : s' / 86400 < 3652059) :
    markedText mark s < markedText mark s' := by
  obtain hday | hday := (Nat.div_le_div_right (c := 86400) h.le).lt_or_eq
  · exact append_lt_append (by rw [length_dateText, length_dateText]) (dateText_lt hday hlast) _ _
  · rw [markedText, markedText, hday]
    exact List.append_left_lt (mark_lt (timeText_lt (by omega) (by omega)))

theorem secondText_lt {s s' : ℕ} (h : s < s') (hlast : s' / 86400 < 3652059) :
    secondText s < secondText s' :=
  markedText_lt h hlast

def micros (t : DateTime) : ℕ := (t.1 + 62135596800000000).toNat

def fractionText (n : ℕ) : List Char := if n = 0 then [] else '.' :: pad 6 n

def isoformat (t : DateTime) : String :=
  String.ofList (secondText (micros t / 1000000) ++ fractionText (micros t % 1000000))

/-- The place of the text of a date, with a `Z` after it, in the order of such texts. -/
def textRank (t : ℤ) : ℤ := if t % 1000000 = 0 then t + 1000000 else t

theorem micros_eq (t : DateTime) : (micros t : ℤ) = t.1 + 62135596800000000 := by
  have ht := t.2
  rw [micros]
  omega

theorem fractionText_lt {n m : ℕ} (hm : m < 1000000) (hn : n ≠ 0) (h : n < m ∨ m = 0) :
    fractionText n ++ ['Z'] < fractionText m ++ ['Z'] := by
  rw [fractionText, if_neg hn, fractionText]
  split_ifs with hzero
  · exact List.cons_lt_cons_iff.mpr (Or.inl (by decide))
  · have hlt : n < m := h.resolve_right hzero
    exact mark_lt (pad_append_lt hm (Or.inl hlt))

theorem stamp_lt_of_textRank_lt {t u : DateTime} (h : textRank t.1 < textRank u.1) :
    isoformat t ++ "Z" < isoformat u ++ "Z" := by
  have htext : ∀ v : DateTime, (isoformat v ++ "Z").toList = secondText (micros v / 1000000) ++
      (fractionText (micros v % 1000000) ++ ['Z']) := by
    intro v
    rw [String.toList_append, isoformat, String.toList_ofList, List.append_assoc]
    rfl
  rw [String.lt_iff_toList_lt, htext, htext]
  have hu := u.2
  have hmt := micros_eq t
  have hmu := micros_eq u
  have hlen : (secondText (micros t / 1000000)).length =
      (secondText (micros u / 1000000)).length := by
    rw [length_secondText, length_secondText]
  have hcases : micros t / 1000000 < micros u / 1000000 ∨
      micros t / 1000000 = micros u / 1000000 ∧ micros t % 1000000 ≠ 0 ∧
        (micros t % 1000000 < micros u % 1000000 ∨ micros u % 1000000 = 0) := by
    simp only [textRank] at h
    split_ifs at h <;> omega
  obtain hsecond | ⟨hsecond, hn, hfraction⟩ := hcases
  · exact append_lt_append hlen (secondText_lt hsecond (by omega)) _ _
  · rw [hsecond]
    exact List.append_left_lt (fractionText_lt (Nat.mod_lt _ (by norm_num)) hn hfraction)

theorem textRank_injective {t u : ℤ} (h : textRank t = textRank u) : t = u := by
  simp only [textRank] at h
  split_ifs at h <;> omega

theorem stamp_le_iff {t u : DateTime} :
    isoformat t ++ "Z" ≤ isoformat u ++ "Z" ↔ textRank t.1 ≤ textRank u.1 := by
  constructor
  · intro h
    by_contra hlt
    exact absurd h (not_le.mpr (stamp_lt_of_textRank_lt (not_le.mp hlt)))
  · intro h
    obtain hlt | heq := h.lt_or_eq
    · exact (stamp_lt_of_textRank_lt hlt).le
    · rw [Subtype.ext (textRank_injective heq)]

theorem stamp_lt_iff {t u : DateTime} :
    isoformat t ++ "Z" < isoformat u ++ "Z" ↔ textRank t.1 < textRank u.1 := by
  rw [← not_le, stamp_le_iff, not_le]

def datetime (t : DateTime) : String := String.ofList (markedText ' ' (micros t / 1000000))

theorem isDigit_of_mem_pad {w n : ℕ} {c : Char} (h : c ∈ pad w n) : c.isDigit = true := by
  induction w generalizing n with
  | zero => cases h
  | succ w ih =>
    rw [pad, List.mem_append, List.mem_singleton] at h
    obtain h | rfl := h
    · exact ih h
    · have hdigit : ∀ m < 10, (Nat.digitChar m).isDigit = true := by decide
      exact hdigit _ (Nat.mod_lt _ (by norm_num))

def isFieldChar (c : Char) : Bool := c.isDigit || c = '-' || c = ':' || c = '.'

theorem isFieldChar_dateText {day : ℕ} : ∀ c ∈ dateText day, isFieldChar c = true := by
  intro c h
  simp only [dateText, List.mem_append, List.mem_cons] at h
  obtain h | rfl | h | rfl | h := h
  · simp [isFieldChar, isDigit_of_mem_pad h]
  · rfl
  · simp [isFieldChar, isDigit_of_mem_pad h]
  · rfl
  · simp [isFieldChar, isDigit_of_mem_pad h]

theorem isFieldChar_timeText {s : ℕ} : ∀ c ∈ timeText s, isFieldChar c = true := by
  intro c h
  simp only [timeText, List.mem_append, List.mem_cons] at h
  obtain h | rfl | h | rfl | h := h
  · simp [isFieldChar, isDigit_of_mem_pad h]
  · rfl
  · simp [isFieldChar, isDigit_of_mem_pad h]
  · rfl
  · simp [isFieldChar, isDigit_of_mem_pad h]

theorem isFieldChar_fractionText {n : ℕ} : ∀ c ∈ fractionText n, isFieldChar c = true := by
  intro c h
  rw [fractionText] at h
  split_ifs at h
  · cases h
  · obtain rfl | h := List.mem_cons.mp h
    · rfl
    · simp [isFieldChar, isDigit_of_mem_pad h]

theorem lt_of_spaced_lt {t u : DateTime} {fraction : List Char}
    (h : String.ofList (markedText ' ' (micros t / 1000000) ++ fraction) < datetime u) :
    t.1 < u.1 := by
  have hmt := micros_eq t
  have hmu := micros_eq u
  have ht := t.2
  have hu := u.2
  rw [String.lt_iff_toList_lt, datetime, String.toList_ofList, String.toList_ofList] at h
  by_contra hle
  obtain hlt | heq : micros u / 1000000 < micros t / 1000000 ∨
      micros u / 1000000 = micros t / 1000000 := by omega
  · have hmarked : markedText ' ' (micros u / 1000000) < markedText ' ' (micros t / 1000000) :=
      markedText_lt hlt (by omega)
    have hlength : (markedText ' ' (micros u / 1000000)).length =
        (markedText ' ' (micros t / 1000000)).length := by
      rw [length_markedText, length_markedText]
    have hgreater := append_lt_append hlength hmarked [] fraction
    rw [List.append_nil] at hgreater
    exact lt_asymm h hgreater
  · rw [heq] at h
    exact not_append_lt _ _ h

end RadiusModule.Library.IsoText
