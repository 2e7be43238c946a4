import RadiusModule.Library.NumberText
import RadiusModule.Library.Binary64

/-!
# Dates and their texts

A date and time is a number of microseconds since the epoch within the years
one to 9999. Texts are written by `isoformat` and read by `fromisoformat` and
`strptime`; of these a development may use only that a written text is read
back and which characters it is made of.
-/

namespace RadiusModule.Library

abbrev DateTime := { t : ℤ // -62135596800000000 ≤ t ∧ t ≤ 253402300799999999 }

namespace DateTime

def ofMicros? (t : ℤ) : Option DateTime :=
  if h : -62135596800000000 ≤ t ∧ t ≤ 253402300799999999 then some ⟨t, h⟩ else none

/-- `t + timedelta(seconds=n)`; `none` where it overflows. -/
def addSeconds? (t : DateTime) (n : ℤ) : Option DateTime := ofMicros? (t.1 + n * 1000000)

/-- `(t - u).total_seconds()`. -/
def secondsSince (t u : DateTime) : ℚ := Binary64.fl (((t.1 - u.1 : ℤ) : ℚ) / 1000000)

theorem ofMicros?_val {t : ℤ} {d : DateTime} (h : ofMicros? t = some d) : d.1 = t := by
  rw [ofMicros?] at h
  split_ifs at h
  rw [← Option.some_inj.mp h]

theorem addSeconds?_val {t d : DateTime} {n : ℤ} (h : t.addSeconds? n = some d) :
    d.1 = t.1 + n * 1000000 := ofMicros?_val h

end DateTime

/-- What a text says: the clock on the wall, and its offset from UTC in microseconds where
there is one. -/
structure Moment where
  wall : DateTime
  offset : Option ℤ
deriving DecidableEq

structure DateTexts where
  isoformat : DateTime → String
  fromisoformat : String → Option Moment
  /-- What the first of the formats that fits reads. -/
  strptime : String → Option DateTime
  fromisoformat_isoformat : ∀ t, fromisoformat (isoformat t) = some ⟨t, none⟩
  /-- Date and time are separated by `T`. -/
  mark_mem : ∀ t, 'T' ∈ (isoformat t).toList
  chars : ∀ t, ∀ c ∈ (isoformat t).toList,
    c.isDigit = true ∨ c = '-' ∨ c = ':' ∨ c = '.' ∨ c = 'T'

namespace DateTexts

section
open PyText

variable (texts : DateTexts)

theorem not_mem_isoformat {c : Char} (hdigit : c.isDigit = false)
    (hc : c ≠ '-' ∧ c ≠ ':' ∧ c ≠ '.' ∧ c ≠ 'T') (t : DateTime) :
    c ∉ (texts.isoformat t).toList := by
  intro hmem
  rcases texts.chars t c hmem with h | h | h | h | h
  · rw [hdigit] at h
    cases h
  · exact hc.1 h
  · exact hc.2.1 h
  · exact hc.2.2.1 h
  · exact hc.2.2.2 h

theorem strip_isoformat (t : DateTime) : strip (texts.isoformat t) = texts.isoformat t := by
  have hspace : ∀ c ∈ (texts.isoformat t).toList, isSpace c = false := by
    intro c hc
    rcases texts.chars t c hc with h | h | h | h | h
    · exact isSpace_of_isDigit h
    all_goals
      subst h
      decide
  rw [strip, stripChars_of_noSpace hspace, String.ofList_toList]

theorem isoformat_ne_empty (t : DateTime) : texts.isoformat t ≠ "" := fun h => by
  have hmark := texts.mark_mem t
  rw [h] at hmark
  exact absurd hmark (by decide)

end

def tally (t : ℤ) : List Char :=
  'T' :: (if 0 ≤ t then ':' else '-') :: List.replicate t.natAbs '0'

def ofTally : List Char → Option ℤ
  | 'T' :: ':' :: zeros => some zeros.length
  | 'T' :: '-' :: zeros => some (-zeros.length)
  | _ => none

theorem ofTally_tally (t : ℤ) : ofTally (tally t) = some t := by
  by_cases h : 0 ≤ t
  · rw [tally, if_pos h, ofTally, List.length_replicate]
    exact congrArg some (Int.natAbs_of_nonneg h)
  · rw [tally, if_neg h, ofTally, List.length_replicate]
    exact congrArg some (by omega)

theorem mem_tally {t : ℤ} {c : Char} (h : c ∈ tally t) : c = 'T' ∨ c = ':' ∨ c = '-' ∨ c = '0' := by
  rcases List.mem_cons.mp h with rfl | h
  · exact .inl rfl
  rcases List.mem_cons.mp h with rfl | h
  · split_ifs
    · exact .inr (.inl rfl)
    · exact .inr (.inr (.inl rfl))
  · exact .inr (.inr (.inr (List.eq_of_mem_replicate h)))

/-- Calendar texts of some dates: each has its own, with a mark between date and time and a
digit at its start. -/
structure Calendar where
  entries : List (DateTime × String)
  dates : (entries.map Prod.fst).Nodup
  texts : (entries.map Prod.snd).Nodup
  mark : ∀ e ∈ entries, 'T' ∈ e.2.toList
  digit : ∀ e ∈ entries, e.2.toList.head? ≠ some 'T'
  chars : ∀ e ∈ entries, ∀ c ∈ e.2.toList,
    c.isDigit = true ∨ c = '-' ∨ c = ':' ∨ c = '.' ∨ c = 'T'

namespace Calendar

theorem chars_of_all {entries : List (DateTime × String)}
    (h : (entries.all fun e => e.2.toList.all fun c =>
      c.isDigit || c == '-' || c == ':' || c == '.' || c == 'T') = true) :
    ∀ e ∈ entries, ∀ c ∈ e.2.toList,
      c.isDigit = true ∨ c = '-' ∨ c = ':' ∨ c = '.' ∨ c = 'T' := by
  intro e he c hc
  have hchar := List.all_eq_true.mp (List.all_eq_true.mp h e he) c hc
  simpa only [Bool.or_eq_true, beq_iff_eq, or_assoc] using hchar

variable (cal : Calendar)

def write (t : DateTime) : String :=
  match cal.entries.find? fun e => e.1 = t with
  | some e => e.2
  | none => String.ofList (tally t.1)

def read (s : String) : Option Moment :=
  match cal.entries.find? fun e => e.2 = s with
  | some e => some ⟨e.1, none⟩
  | none => ((ofTally s.toList).bind DateTime.ofMicros?).map fun t => ⟨t, none⟩

theorem write_cases (t : DateTime) : (∃ e ∈ cal.entries, e.1 = t ∧ cal.write t = e.2) ∨
    cal.write t = String.ofList (tally t.1) := by
  rw [write]
  cases hfind : cal.entries.find? fun e => e.1 = t with
  | none => exact .inr rfl
  | some e =>
    have hdate := List.find?_some hfind
    exact .inl ⟨e, List.mem_of_find?_eq_some hfind, by simpa using hdate, rfl⟩

theorem read_write (t : DateTime) : cal.read (cal.write t) = some ⟨t, none⟩ := by
  rcases cal.write_cases t with ⟨e, he, rfl, hwrite⟩ | hwrite
  · rw [hwrite, read]
    cases hfind : cal.entries.find? fun e' => e'.2 = e.2 with
    | none => exact absurd (List.find?_eq_none.mp hfind e he) (by simp)
    | some e' =>
      have htext : e'.2 = e.2 := by simpa using List.find?_some hfind
      have hsame := List.inj_on_of_nodup_map cal.texts (List.mem_of_find?_eq_some hfind) he htext
      rw [hsame]
  · have hnone : cal.entries.find? (fun e => e.2 = String.ofList (tally t.1)) = none := by
      rw [List.find?_eq_none]
      intro e he htext
      refine cal.digit e he ?_
      rw [of_decide_eq_true htext, String.toList_ofList]
      rfl
    have hmicros : DateTime.ofMicros? t.1 = some t := dif_pos t.2
    rw [hwrite, read, hnone]
    dsimp only
    rw [String.toList_ofList, ofTally_tally, Option.bind_some, hmicros]
    rfl

def dateTexts : DateTexts where
  isoformat := cal.write
  fromisoformat := cal.read
  strptime := fun _ => none
  fromisoformat_isoformat := cal.read_write
  mark_mem := by
    intro t
    rcases cal.write_cases t with ⟨e, he, -, hwrite⟩ | hwrite
    · rw [hwrite]
      exact cal.mark e he
    · rw [hwrite, String.toList_ofList]
      exact List.mem_cons_self
  chars := by
    intro t c hc
    rcases cal.write_cases t with ⟨e, he, -, hwrite⟩ | hwrite
    · rw [hwrite] at hc
      exact cal.chars e he c hc
    · rw [hwrite, String.toList_ofList] at hc
      rcases mem_tally hc with rfl | rfl | rfl | rfl
      · exact .inr (.inr (.inr (.inr rfl)))
      · exact .inr (.inr (.inl rfl))
      · exact .inr (.inl rfl)
      · exact .inl rfl

end Calendar

end DateTexts

end RadiusModule.Library
