import RadiusModule.Core.ScheduleCodec

/-!
# Imported connection schedules

The source has a bit for each day of the week and at most one pair of clocks.
Both are read from their texts, and a schedule with one window is written, or
the empty text, which restricts nothing.
-/

namespace RadiusModule.Migration.ConnectionSchedule
open Library PyText AccessSchedule

def dayCodes : List String := ["sat", "sun", "mon", "tue", "wed", "thu", "fri"]

def defaultAllowedDays : List String := ["sat", "sun", "mon", "tue", "wed", "thu"]

def alike (letter c : Char) : Bool :=
  c.toLower == letter || (letter == 's' && c == 'ſ') || (letter == 'i' && (c == 'İ' || c == 'ı'))

def isLetter (c : Char) : Bool := c.isAlpha || ['ſ', 'İ', 'ı', '\u212A'].contains c

/-- `\s*[:=]?\s*` -/
def skipMark (cs : List Char) : List Char :=
  match cs.dropWhile isSpace with
  | ':' :: cs => cs.dropWhile isSpace
  | '=' :: cs => cs.dropWhile isSpace
  | cs => cs

/-- `[a-z]*\s*[:=]?\s*([01])?`, with the rest of the text. -/
def dayBit (cs : List Char) : Option Bool × List Char :=
  match skipMark (cs.dropWhile isLetter) with
  | '0' :: cs => (some false, cs)
  | '1' :: cs => (some true, cs)
  | cs => (none, cs)

/-- `(sat|sun|mon|tue|wed|thu|fri)[a-z]*\s*[:=]?\s*([01])?` at the start of a text. -/
def dayMatch? : List Char → Option ((String × Option Bool) × List Char)
  | a :: b :: c :: cs =>
    if dayCodes.any fun d => (d.toList.zipWith alike [a, b, c]).all id then
      some ((lower (String.ofList [a, b, c]), (dayBit cs).1), (dayBit cs).2)
    else none
  | _ => none

theorem length_dropWhile_le (p : Char → Bool) (cs : List Char) :
    (cs.dropWhile p).length ≤ cs.length := (List.dropWhile_sublist p).length_le

theorem length_skipMark_le (cs : List Char) : (skipMark cs).length ≤ cs.length := by
  have hspace := length_dropWhile_le isSpace cs
  have hmark : ∀ c ds, cs.dropWhile isSpace = c :: ds →
      (ds.dropWhile isSpace).length ≤ cs.length := by
    intro c ds heq
    have hrest := length_dropWhile_le isSpace ds
    rw [heq, List.length_cons] at hspace
    omega
  unfold skipMark
  split
  · exact hmark _ _ ‹_›
  · exact hmark _ _ ‹_›
  · exact hspace

theorem length_dayBit_le (cs : List Char) : (dayBit cs).2.length ≤ cs.length := by
  have hskip : (skipMark (cs.dropWhile isLetter)).length ≤ cs.length :=
    (length_skipMark_le _).trans (length_dropWhile_le isLetter cs)
  have hbit : ∀ c ds, skipMark (cs.dropWhile isLetter) = c :: ds → ds.length ≤ cs.length := by
    intro c ds heq
    rw [heq, List.length_cons] at hskip
    omega
  unfold dayBit
  split
  · exact hbit _ _ ‹_›
  · exact hbit _ _ ‹_›
  · exact hskip

theorem length_dayMatch? {cs rest : List Char} {found : String × Option Bool}
    (h : dayMatch? cs = some (found, rest)) : rest.length < cs.length := by
  unfold dayMatch? at h
  split at h
  · rename_i a b c es
    split_ifs at h
    obtain ⟨-, rfl⟩ := Prod.mk.inj (Option.some.inj h)
    have hle := length_dayBit_le es
    simp only [List.length_cons]
    omega
  · cases h

/-- `re.finditer`: the days that are named, with their bits. -/
def dayMatches (cs : List Char) : List (String × Option Bool) :=
  match _h : dayMatch? cs with
  | some (found, rest) => found :: dayMatches rest
  | none =>
    match cs with
    | [] => []
    | _ :: cs => dayMatches cs
termination_by cs.length
decreasing_by
  · exact length_dayMatch? ‹_›
  · simp

/-- `_parse_arr_days`: a day without a bit is allowed. -/
def parseArrDays (raw : String) : Option (List String) :=
  let found := dayMatches (strip raw).toList
  if found.isEmpty then none
  else
    let seen := (found.filter fun m => m.2 ≠ some false).map Prod.fst
    some (dayCodes.filter fun d => seen.contains d)

/-- `\s*([AaPp][Mm])?$`: whether the hours are of the afternoon, where the text says so. -/
def halfOfDay? (cs : List Char) : Option (Option Bool) :=
  match cs.dropWhile isSpace with
  | [] => some none
  | [a, m] =>
    if m = 'm' ∨ m = 'M' then
      if a = 'a' ∨ a = 'A' then some (some false)
      else if a = 'p' ∨ a = 'P' then some (some true)
      else none
    else none
  | _ => none

def minutesAndHalf? : List Char → Option (ℕ × Option Bool)
  | m₁ :: m₂ :: cs =>
    (digit? m₁).bind fun m₁ => (digit? m₂).bind fun m₂ =>
      let rest := match cs with
        | ':' :: s₁ :: s₂ :: rest => if (digit? s₁).isSome && (digit? s₂).isSome then rest else cs
        | cs => cs
      (halfOfDay? rest).map fun half => (10 * m₁ + m₂, half)
  | _ => none

/-- `^(\d{1,2}):(\d{2})(?::\d{2})?\s*([AaPp][Mm])?$` -/
def clockParts? : List Char → Option (ℕ × ℕ × Option Bool)
  | h :: ':' :: cs => (digit? h).bind fun h => (minutesAndHalf? cs).map fun p => (h, p)
  | h₁ :: h₂ :: ':' :: cs =>
    (digit? h₁).bind fun h₁ => (digit? h₂).bind fun h₂ =>
      (minutesAndHalf? cs).map fun p => (10 * h₁ + h₂, p)
  | _ => none

def fullHour (h : ℕ) : Option Bool → ℕ
  | some false => if h = 12 then 0 else h
  | some true => if h = 12 then h else h + 12
  | none => h

def clock? (raw : String) : Option ClockTime :=
  (clockParts? (strip raw).toList).bind fun (h, m, half) =>
    if hb : fullHour h half < 24 ∧ m < 60 then some ⟨fullHour h half, m, hb.1, hb.2⟩ else none

def parseClock (raw : String) : String := fmtTime (clock? raw)

def flagWord (byTimeRaw : String) : String := lower (strip byTimeRaw)

def onWords : List String := ["1", "on", "yes", "true", "enabled", "y"]

def silent (byTimeRaw : String) : Bool := ["", "none"].contains (flagWord byTimeRaw)

def windowOn (byTimeRaw f t : String) : Bool :=
  if silent byTimeRaw then f ≠ "" && t ≠ "" else onWords.contains (flagWord byTimeRaw)

section
variable (loads : String → Option Json) (dumps : Json → String)

def buildConnectionSchedule (daysRaw byTimeRaw fromRaw toRaw : String) : String :=
  let allowed := match parseArrDays daysRaw with
    | none | some [] => defaultAllowedDays
    | some allowed => allowed
  let f := parseClock fromRaw
  let t := parseClock toRaw
  let (f, t) := if windowOn byTimeRaw f t then (f, t) else ("", "")
  if days.all allowed.contains && !(f ≠ "" && t ≠ "") then ""
  else
    match serialize loads dumps (scheduleJson [⟨allowed, f, t⟩]) with
    | .ok text => text
    | .error _ => ""

end

structure AdvDays where
  entries : List (String × Bool)
  week : (entries.map fun e => lower e.1).Perm days

namespace AdvDays

def entryText (e : String × Bool) : String := e.1 ++ if e.2 then "1" else "0"

/-- `Sat1,Sun1,…,Fri0` -/
def text (w : AdvDays) : String := ",".intercalate (w.entries.map entryText)

def bit (w : AdvDays) (code : String) : Bool := w.entries.any fun e => e.2 && lower e.1 == code

def allowed (w : AdvDays) : List String := dayCodes.filter w.bit

end AdvDays

theorem toLower_eq_of_mem {name code : String} (h : lower name = code) {c : Char}
    (hc : c ∈ name.toList) : c.toLower ∈ code.toList := by
  rw [← h, lower, String.toList_ofList]
  exact List.mem_map_of_mem hc

def dayLetters : List Char := dayCodes.flatMap String.toList

theorem isSpace_of_dayLetter {c : Char} (h : c.toLower ∈ dayLetters) : isSpace c = false := by
  have hall : ∀ l ∈ dayLetters, isSpace l = false := by decide
  rw [← isSpace_toLower]
  exact hall _ h

theorem alike_toLower (c : Char) : alike c.toLower c = true := by simp [alike]

theorem dayBit_bit (bit : Bool) (rest : List Char) :
    dayBit ((if bit then '1' else '0') :: rest) = (some bit, rest) := by
  have hletter : ∀ b : Bool, isLetter (if b then '1' else '0') = false := by decide
  have hspace : ∀ b : Bool, isSpace (if b then '1' else '0') = false := by decide
  rw [dayBit, List.dropWhile_cons_of_neg (by simp [hletter]), skipMark,
    List.dropWhile_cons_of_neg (by simp [hspace])]
  cases bit with
  | false => rfl
  | true => rfl

theorem dayMatch?_entry {e : String × Bool} (h : lower e.1 ∈ days) (rest : List Char) :
    dayMatch? ((AdvDays.entryText e).toList ++ rest) = some ((lower e.1, some e.2), rest) := by
  obtain ⟨name, bit⟩ := e
  have hlength : ∀ d ∈ days, d.toList.length = 3 := by decide
  have hname : name.toList.length = 3 := by
    have hthree := hlength _ h
    rwa [lower, String.toList_ofList, List.length_map] at hthree
  obtain ⟨a, b, c, hchars⟩ := List.length_eq_three.mp hname
  have hcode : (lower name).toList = [a.toLower, b.toLower, c.toLower] := by
    rw [lower, String.toList_ofList, hchars]
    rfl
  have hletters : name = String.ofList [a, b, c] := by rw [← hchars, String.ofList_toList]
  have hfound : (dayCodes.any fun d => (d.toList.zipWith alike [a, b, c]).all id) = true := by
    refine List.any_eq_true.mpr ⟨lower name, h, ?_⟩
    rw [hcode]
    simp [alike_toLower]
  have htext : (AdvDays.entryText (name, bit)).toList ++ rest =
      a :: b :: c :: (if bit then '1' else '0') :: rest := by
    rw [AdvDays.entryText, String.toList_append, hchars]
    cases bit with
    | false => simp
    | true => simp
  rw [htext, dayMatch?, if_pos hfound, dayBit_bit, ← hletters]

theorem dayMatch?_comma (rest : List Char) : dayMatch? (',' :: rest) = none := by
  match rest with
  | [] => rfl
  | [_] => rfl
  | b :: c :: cs =>
    have hnone : (dayCodes.any fun d => (d.toList.zipWith alike [',', b, c]).all id) = false := by
      simp [dayCodes, alike, show Char.toLower ',' = ',' from rfl]
    rw [dayMatch?, hnone]
    rfl

theorem dayMatches_of_some {cs rest : List Char} {found : String × Option Bool}
    (h : dayMatch? cs = some (found, rest)) : dayMatches cs = found :: dayMatches rest := by
  rw [dayMatches]
  split
  · rename_i found' rest' heq
    rw [h] at heq
    obtain ⟨rfl, rfl⟩ := Prod.mk.inj (Option.some.inj heq)
    rfl
  · rename_i heq
    rw [h] at heq
    cases heq

theorem dayMatches_nil : dayMatches [] = [] := by
  rw [dayMatches]
  rfl

theorem dayMatches_comma (rest : List Char) : dayMatches (',' :: rest) = dayMatches rest := by
  rw [dayMatches]
  split
  · rename_i heq
    rw [dayMatch?_comma] at heq
    cases heq
  · rfl

theorem dayMatches_entries (es : List (String × Bool)) (h : ∀ e ∈ es, lower e.1 ∈ days) :
    dayMatches (",".intercalate (es.map AdvDays.entryText)).toList =
      es.map fun e => (lower e.1, some e.2) := by
  induction es with
  | nil => exact dayMatches_nil
  | cons e es ih =>
    have hhead := h e List.mem_cons_self
    have htail := ih fun e' he' => h e' (List.mem_cons_of_mem _ he')
    have hmatch := fun rest => dayMatches_of_some (dayMatch?_entry hhead rest)
    cases es with
    | nil =>
      have hone := hmatch []
      rw [List.append_nil] at hone
      simpa [String.intercalate_singleton, dayMatches_nil] using hone
    | cons e' es =>
      rw [List.map_cons, List.map_cons, String.intercalate_cons_cons, String.toList_append,
        String.toList_append, List.append_assoc, hmatch]
      rw [List.map_cons] at htail
      simpa [dayMatches_comma] using htail

namespace AdvDays

theorem lower_mem_days (w : AdvDays) {e : String × Bool} (h : e ∈ w.entries) :
    lower e.1 ∈ days := w.week.mem_iff.mp (List.mem_map_of_mem h)

theorem entries_ne_nil (w : AdvDays) : w.entries ≠ [] := fun h => by
  have hlength := w.week.length_eq
  rw [h] at hlength
  cases hlength

theorem entryText_noSpace {e : String × Bool} (h : lower e.1 ∈ days) :
    ∀ c ∈ (entryText e).toList, isSpace c = false := by
  intro c hc
  have hbits : ∀ b : Bool, ∀ c ∈ (if b then "1" else "0").toList, isSpace c = false := by
    decide
  rw [entryText, String.toList_append] at hc
  rcases List.mem_append.mp hc with hname | hbit
  · have hcode := toLower_eq_of_mem rfl hname
    exact isSpace_of_dayLetter (List.mem_flatMap.mpr ⟨_, h, hcode⟩)
  · exact hbits e.2 c hbit

theorem text_noSpace (es : List (String × Bool)) (h : ∀ e ∈ es, lower e.1 ∈ days) :
    ∀ c ∈ (",".intercalate (es.map entryText)).toList, isSpace c = false := by
  induction es with
  | nil => simp
  | cons e es ih =>
    have hhead := entryText_noSpace (h e List.mem_cons_self)
    have htail := ih fun e' he' => h e' (List.mem_cons_of_mem _ he')
    cases es with
    | nil => simpa [String.intercalate_singleton] using hhead
    | cons e' es =>
      rw [List.map_cons, List.map_cons, String.intercalate_cons_cons, String.toList_append,
        String.toList_append]
      intro c hc
      rcases List.mem_append.mp hc with hc | hc
      · rcases List.mem_append.mp hc with hc | hc
        · exact hhead c hc
        · obtain rfl : c = ',' := by simpa using hc
          rfl
      · exact htail c hc

theorem strip_text (w : AdvDays) : strip w.text = w.text := by
  have hspace := text_noSpace w.entries fun e he => w.lower_mem_days he
  rw [strip, text, stripChars_of_noSpace hspace, String.ofList_toList]

theorem parseArrDays_text (w : AdvDays) : parseArrDays w.text = some w.allowed := by
  have hfound := dayMatches_entries w.entries fun e he => w.lower_mem_days he
  have hne : (w.entries.map fun e => (lower e.1, some e.2)).isEmpty = false := by
    simpa using w.entries_ne_nil
  have htext : w.text = ",".intercalate (w.entries.map entryText) := rfl
  rw [parseArrDays, strip_text, htext, hfound]
  simp only [hne]
  refine congrArg some (List.filter_congr fun d _ => ?_)
  rw [Bool.eq_iff_iff, List.contains_iff_mem, bit, List.any_eq_true]
  constructor
  · intro hd
    obtain ⟨m, hm, rfl⟩ := List.mem_map.mp hd
    obtain ⟨hm, hbit⟩ := List.mem_filter.mp hm
    obtain ⟨e, he, rfl⟩ := List.mem_map.mp hm
    exact ⟨e, he, by simpa using hbit⟩
  · rintro ⟨e, he, hbit⟩
    obtain ⟨htrue, hcode⟩ := Bool.and_eq_true_iff.mp hbit
    refine List.mem_map.mpr ⟨(lower e.1, some e.2), List.mem_filter.mpr ⟨?_, ?_⟩, by simpa using hcode⟩
    · exact List.mem_map_of_mem he
    · simp [htrue]

theorem mem_allowed (w : AdvDays) {code : String} :
    code ∈ w.allowed ↔ code ∈ days ∧ w.bit code = true := List.mem_filter

end AdvDays

theorem fmtTime_eq_empty_iff {t : Option ClockTime} : fmtTime t = "" ↔ t = none := by
  constructor
  · intro h
    have hread := parseTime_fmtTime t
    rw [h] at hread
    exact (Except.ok.inj hread).symm
  · rintro rfl
    rfl

/-- The time of day is not before the first clock and before the second, which is of the next day
where it is no later than the first. -/
def Within (f t : ClockTime) (time : ℤ) : Prop :=
  if t.micros ≤ f.micros then f.micros ≤ time ∨ time < t.micros
  else f.micros ≤ time ∧ time < t.micros

def hoursOpen (f t : Option ClockTime) (m : ℤ) : Bool :=
  if f = none ∧ t = none then true
  else
    let f := (f.map ClockTime.micros).getD 0
    let e := (t.map ClockTime.micros).getD lastMicro
    if f < e then decide (f ≤ m) && decide (m < e) else decide (f ≤ m) || decide (m < e)

theorem windowAllows_fmt {codes : List String} (h : codes ≠ []) (f t : Option ClockTime)
    (code : String) (m : ℤ) : windowAllows ⟨codes, fmtTime f, fmtTime t⟩ code m =
      .ok (codes.contains code && hoursOpen f t m) := by
  have hne : codes.isEmpty = false := by simpa using h
  cases hc : codes.contains code with
  | false => simp only [windowAllows, hne, hc, Bool.not_false, Bool.and_self, if_true,
      Bool.false_and]
  | true =>
    simp only [windowAllows, hne, hc, parseTime_fmtTime, bind, Except.bind, pure, Except.pure,
      Bool.not_true, Bool.and_false, Bool.false_eq_true, if_false, Bool.true_and]
    cases f with
    | none =>
      cases t with
      | none => rfl
      | some t => simp only [hoursOpen, reduceCtorEq, and_false, if_false]
    | some f => simp only [hoursOpen, reduceCtorEq, false_and, if_false]

theorem windowsAllow_one {codes : List String} (h : codes ≠ []) (f t : Option ClockTime)
    (when : ℤ) : windowsAllow [⟨codes, fmtTime f, fmtTime t⟩] when =
      .ok (codes.contains (weekdayCode when) && hoursOpen f t (minuteOfDay when)) := by
  simp only [windowsAllow, List.isEmpty_cons, Bool.false_eq_true, if_false, anyAllows,
    windowAllows_fmt h, bind, Except.bind, pure, Except.pure]
  cases codes.contains (weekdayCode when) && hoursOpen f t (minuteOfDay when) with
  | true => rfl
  | false => rfl

theorem micros_nonneg (t : ClockTime) : 0 ≤ t.micros := by
  simp only [ClockTime.micros, second]
  omega

theorem minuteOfDay_nonneg (when : ℤ) : 0 ≤ minuteOfDay when := by
  simp only [minuteOfDay, dayLength, second]
  omega

theorem minuteOfDay_lt_lastMicro (when : ℤ) : minuteOfDay when < lastMicro := by
  simp only [minuteOfDay, lastMicro, dayLength, second]
  omega

theorem micros_le_minuteOfDay {t : ClockTime} {when : ℤ} :
    t.micros ≤ minuteOfDay when ↔ t.micros ≤ when % dayLength := by
  simp only [ClockTime.micros, minuteOfDay, dayLength, second]
  omega

theorem minuteOfDay_lt_micros {t : ClockTime} {when : ℤ} :
    minuteOfDay when < t.micros ↔ when % dayLength < t.micros := by
  rw [← not_le, ← not_le, micros_le_minuteOfDay]

theorem hoursOpen_both (f t : ClockTime) (when : ℤ) :
    hoursOpen (some f) (some t) (minuteOfDay when) = true ↔ Within f t (when % dayLength) := by
  simp only [hoursOpen, reduceCtorEq, and_false, if_false, Option.map_some, Option.getD_some,
    Within]
  by_cases hwrap : t.micros ≤ f.micros
  · rw [if_neg (not_lt.mpr hwrap), if_pos hwrap, Bool.or_eq_true, decide_eq_true_iff,
      decide_eq_true_iff, micros_le_minuteOfDay, minuteOfDay_lt_micros]
  · rw [if_pos (not_le.mp hwrap), if_neg hwrap, Bool.and_eq_true, decide_eq_true_iff,
      decide_eq_true_iff, micros_le_minuteOfDay, minuteOfDay_lt_micros]

theorem hoursOpen_from (f : ClockTime) (when : ℤ) :
    hoursOpen (some f) none (minuteOfDay when) = true ↔ f.micros ≤ when % dayLength := by
  have hlast : f.micros < lastMicro := by
    have hhour := f.hour_lt
    have hminute := f.minute_lt
    simp only [ClockTime.micros, lastMicro, dayLength, second]
    omega
  have hminute := minuteOfDay_lt_lastMicro when
  simp only [hoursOpen, reduceCtorEq, false_and, if_false, Option.map_some, Option.getD_some,
    Option.map_none, Option.getD_none]
  rw [if_pos hlast, decide_eq_true hminute, Bool.and_true, decide_eq_true_iff,
    micros_le_minuteOfDay]

theorem hoursOpen_to (t : ClockTime) (when : ℤ) :
    hoursOpen none (some t) (minuteOfDay when) = true ↔
      t.micros = 0 ∨ when % dayLength < t.micros := by
  have hzero := minuteOfDay_nonneg when
  have hmicros := micros_nonneg t
  simp only [hoursOpen, reduceCtorEq, and_false, if_false, Option.map_some, Option.getD_some,
    Option.map_none, Option.getD_none]
  by_cases hpos : 0 < t.micros
  · rw [if_pos hpos, decide_eq_true hzero, Bool.true_and, decide_eq_true_iff,
      minuteOfDay_lt_micros]
    exact ⟨.inr, fun h => h.resolve_left hpos.ne'⟩
  · rw [if_neg hpos, decide_eq_true hzero, Bool.true_or]
    exact iff_of_true rfl (.inl (by omega))

theorem exists_instant {code : String} (hcode : code ∈ days) {time : ℤ} (hzero : 0 ≤ time)
    (hlt : time < dayLength) : ∃ when, weekdayCode when = code ∧ when % dayLength = time := by
  have hall : ∀ code ∈ days, ∃ n ∈ List.range 7,
      ["mon", "tue", "wed", "thu", "fri", "sat", "sun"].getD n "" = code := by decide
  obtain ⟨n, hn, rfl⟩ := hall code hcode
  have hseven : n < 7 := List.mem_range.mp hn
  refine ⟨(n + 4) * dayLength + time, ?_, ?_⟩
  · have hday : weekday ((n + 4) * dayLength + time) = n := by
      simp only [weekday, dayLength, second] at hlt ⊢
      omega
    rw [weekdayCode, hday]
  · simp only [dayLength, second] at hlt ⊢
    omega

structure AdvSchedule where
  week : AdvDays
  byTime : String
  fromText : String
  toText : String

namespace AdvSchedule

section
variable (s : AdvSchedule)

def SwitchedOn : Prop := silent s.byTime = true ∨ flagWord s.byTime ∈ onWords

def Allows (when : ℤ) : Prop :=
  s.week.bit (weekdayCode when) = true ∧
    (s.SwitchedOn → ∀ f t, clock? s.fromText = some f → clock? s.toText = some t →
      Within f t (when % dayLength))

def LoneClock : Option ClockTime → Option ClockTime → Prop
  | some c, none => c.micros ≠ 0
  | none, some c => c.micros ≠ 0
  | _, _ => False

/-- Some day is allowed, and where it is not each, a flag that is on comes with both clocks or
with none. -/
def Importable : Prop :=
  (∃ code, s.week.bit code = true) ∧
    ((∀ code ∈ days, s.week.bit code = true) ∨ silent s.byTime = true ∨
      flagWord s.byTime ∉ onWords ∨ ¬LoneClock (clock? s.fromText) (clock? s.toText))

def openDays : List String := if s.week.allowed = [] then defaultAllowedDays else s.week.allowed

def hours : Option ClockTime × Option ClockTime :=
  if windowOn s.byTime (parseClock s.fromText) (parseClock s.toText) then
    (clock? s.fromText, clock? s.toText)
  else (none, none)

def Unrestricted : Prop :=
  (∀ d ∈ days, d ∈ s.openDays) ∧ ¬(s.hours.1 ≠ none ∧ s.hours.2 ≠ none)

instance : Decidable s.Unrestricted := inferInstanceAs (Decidable (_ ∧ _))

def imported (number : String → Json) : String :=
  buildConnectionSchedule (JsonText.loads number) JsonText.dumps s.week.text s.byTime s.fromText
    s.toText

def Agrees (number : String → Json) : Prop :=
  ∀ when, ∃ b, isAllowed (JsonText.loads number) (s.imported number) when = .ok b ∧
    (b = true ↔ s.Allows when)

end

variable {s : AdvSchedule}

theorem openDays_ne_nil : s.openDays ≠ [] := by
  unfold openDays
  split_ifs with h
  · decide
  · exact h

theorem openDays_inOrder : ∃ codes, s.openDays = inOrder codes := by
  unfold openDays
  split_ifs with h
  · exact ⟨defaultAllowedDays, by decide⟩
  · refine ⟨s.week.allowed, List.filter_congr fun d hd => ?_⟩
    rw [Bool.eq_iff_iff, List.contains_iff_mem, AdvDays.mem_allowed]
    exact ⟨fun hbit => ⟨hd, hbit⟩, fun hd => hd.2⟩

theorem parsed_openDays : (match parseArrDays s.week.text with
    | none | some [] => defaultAllowedDays
    | some allowed => allowed) = s.openDays := by
  rw [AdvDays.parseArrDays_text, openDays]
  cases s.week.allowed with
  | nil => rfl
  | cons d ds => rfl

theorem gated_hours :
    (if windowOn s.byTime (parseClock s.fromText) (parseClock s.toText) then
      (parseClock s.fromText, parseClock s.toText) else ("", "")) =
    (fmtTime s.hours.1, fmtTime s.hours.2) := by
  by_cases hon : windowOn s.byTime (parseClock s.fromText) (parseClock s.toText) = true
  · rw [hours, if_pos hon, if_pos hon]
    simp only [parseClock]
  · rw [hours, if_neg hon, if_neg hon]
    rfl

theorem unrestricted_iff : s.Unrestricted ↔ (days.all s.openDays.contains &&
    !(fmtTime s.hours.1 ≠ "" && fmtTime s.hours.2 ≠ "")) = true := by
  rw [Bool.and_eq_true, List.all_eq_true]
  refine and_congr (forall₂_congr fun d _ => List.contains_iff_mem.symm) ?_
  simp [fmtTime_eq_empty_iff, imp_iff_not_or]

theorem imported_spec (number : String → Json) :
    s.imported number = "" ∧ s.Unrestricted ∨
    ¬s.Unrestricted ∧ parse (JsonText.loads number) (s.imported number) =
      .ok [⟨s.openDays, fmtTime s.hours.1, fmtTime s.hours.2⟩] := by
  have hnormal : ∀ w ∈ [(⟨s.openDays, fmtTime s.hours.1, fmtTime s.hours.2⟩ : Window)],
      w.Normal := by
    intro w hw
    obtain rfl := List.mem_singleton.mp hw
    obtain ⟨codes, hcodes⟩ := openDays_inOrder (s := s)
    exact ⟨codes, s.hours.1, s.hours.2, by rw [hcodes]⟩
  obtain ⟨text, hserialize, hparse⟩ := serialize_spec number hnormal
  simp only [imported, buildConnectionSchedule, parsed_openDays, gated_hours, hserialize]
  by_cases hfree : s.Unrestricted
  · rw [if_pos (unrestricted_iff.mp hfree)]
    exact .inl ⟨rfl, hfree⟩
  · rw [if_neg fun h => hfree (unrestricted_iff.mpr h)]
    exact .inr ⟨hfree, hparse⟩

theorem isAllowed_imported (number : String → Json) (when : ℤ) :
    isAllowed (JsonText.loads number) (s.imported number) when =
      .ok (decide s.Unrestricted ||
        (s.openDays.contains (weekdayCode when) &&
          hoursOpen s.hours.1 s.hours.2 (minuteOfDay when))) := by
  rcases imported_spec (s := s) number with ⟨hempty, hfree⟩ | ⟨hfree, hparse⟩
  · rw [hempty, decide_eq_true hfree]
    rfl
  · rw [decide_eq_false hfree, isAllowed, hparse]
    exact windowsAllow_one openDays_ne_nil _ _ when

theorem agrees_iff {number : String → Json} : s.Agrees number ↔ ∀ when,
    (s.Unrestricted ∨ weekdayCode when ∈ s.openDays ∧
      hoursOpen s.hours.1 s.hours.2 (minuteOfDay when) = true) ↔ s.Allows when := by
  refine forall_congr' fun when => ?_
  rw [isAllowed_imported]
  constructor
  · rintro ⟨b, hb, hiff⟩
    obtain rfl := Except.ok.inj hb
    rw [← hiff, Bool.or_eq_true, Bool.and_eq_true, decide_eq_true_iff, List.contains_iff_mem]
  · intro hiff
    refine ⟨_, rfl, ?_⟩
    rw [← hiff, Bool.or_eq_true, Bool.and_eq_true, decide_eq_true_iff, List.contains_iff_mem]

theorem windowOn_silent (h : silent s.byTime = true) :
    windowOn s.byTime (parseClock s.fromText) (parseClock s.toText) = true ↔
      clock? s.fromText ≠ none ∧ clock? s.toText ≠ none := by
  rw [windowOn, if_pos h]
  simp [parseClock, fmtTime_eq_empty_iff]

theorem windowOn_flag (h : ¬silent s.byTime = true) (f t : String) :
    windowOn s.byTime f t = true ↔ flagWord s.byTime ∈ onWords := by
  rw [windowOn, if_neg h]
  exact List.contains_iff_mem

theorem hours_of_switchedOn (hon : s.SwitchedOn) {f t : ClockTime}
    (hf : clock? s.fromText = some f) (ht : clock? s.toText = some t) :
    s.hours = (some f, some t) := by
  have hwindow : windowOn s.byTime (parseClock s.fromText) (parseClock s.toText) = true := by
    by_cases hsilent : silent s.byTime = true
    · exact (windowOn_silent hsilent).mpr ⟨by simp [hf], by simp [ht]⟩
    · exact (windowOn_flag hsilent _ _).mpr (hon.resolve_left hsilent)
  rw [hours, if_pos hwindow, hf, ht]

theorem hours_of_ne_none (h : s.hours ≠ (none, none)) :
    s.hours = (clock? s.fromText, clock? s.toText) ∧
      windowOn s.byTime (parseClock s.fromText) (parseClock s.toText) = true := by
  unfold hours at h ⊢
  split_ifs at h ⊢ with hon
  · exact ⟨rfl, hon⟩
  · exact absurd rfl h

theorem bit_mem_days {code : String} (h : s.week.bit code = true) : code ∈ days := by
  obtain ⟨e, he, hbit⟩ := List.any_eq_true.mp h
  have hcode : lower e.1 = code := eq_of_beq (Bool.and_eq_true_iff.mp hbit).2
  rw [← hcode]
  exact s.week.lower_mem_days he

theorem mem_openDays (hsome : ∃ code, s.week.bit code = true) {code : String} :
    code ∈ s.openDays ↔ s.week.bit code = true := by
  obtain ⟨day, hday⟩ := hsome
  have hne : s.week.allowed ≠ [] :=
    List.ne_nil_of_mem (s.week.mem_allowed.mpr ⟨bit_mem_days hday, hday⟩)
  rw [openDays, if_neg hne, AdvDays.mem_allowed]
  exact ⟨fun h => h.2, fun h => ⟨bit_mem_days h, h⟩⟩

theorem unrestricted_of_all (hall : ∀ code ∈ days, s.week.bit code = true)
    (hboth : ¬(s.hours.1 ≠ none ∧ s.hours.2 ≠ none)) : s.Unrestricted :=
  ⟨fun d hd => (mem_openDays ⟨d, hall d hd⟩).mpr (hall d hd), hboth⟩

theorem exists_hoursOpen (f t : Option ClockTime) : ∃ time, 0 ≤ time ∧ time < dayLength ∧
    ∀ when, when % dayLength = time → hoursOpen f t (minuteOfDay when) = true := by
  have hday : (0 : ℤ) < dayLength := by decide
  have hlt : ∀ c : ClockTime, c.micros < dayLength := by
    intro c
    have hhour := c.hour_lt
    have hminute := c.minute_lt
    simp only [ClockTime.micros, dayLength, second]
    omega
  cases f with
  | none =>
    refine ⟨0, le_rfl, hday, fun when htime => ?_⟩
    cases t with
    | none => rfl
    | some t =>
      rw [hoursOpen_to, htime]
      rcases (micros_nonneg t).eq_or_lt with hzero | hpos
      · exact .inl hzero.symm
      · exact .inr hpos
  | some f =>
    refine ⟨f.micros, micros_nonneg f, hlt f, fun when htime => ?_⟩
    cases t with
    | none =>
      rw [hoursOpen_from, htime]
    | some t =>
      rw [hoursOpen_both, htime, Within]
      split_ifs with hwrap
      · exact .inl le_rfl
      · exact ⟨le_rfl, not_le.mp hwrap⟩

theorem exists_not_hoursOpen {f t : Option ClockTime} (h : LoneClock f t) :
    ∃ time, 0 ≤ time ∧ time < dayLength ∧
      ∀ when, when % dayLength = time → hoursOpen f t (minuteOfDay when) ≠ true := by
  cases f with
  | none =>
    cases t with
    | none => exact h.elim
    | some t =>
      refine ⟨lastMicro, by decide, by decide, fun when htime hopen => ?_⟩
      have hhour := t.hour_lt
      have hminute := t.minute_lt
      rw [hoursOpen_to, htime] at hopen
      have hlast := hopen.resolve_left h
      simp only [ClockTime.micros, lastMicro, dayLength, second] at hlast
      omega
  | some f =>
    cases t with
    | none =>
      refine ⟨0, le_rfl, by decide, fun when htime hopen => ?_⟩
      rw [hoursOpen_from, htime] at hopen
      exact h (le_antisymm hopen (micros_nonneg f))
    | some t => exact h.elim

theorem agrees_of_importable (number : String → Json) (h : s.Importable) : s.Agrees number := by
  obtain ⟨hsome, hclocks⟩ := h
  rw [agrees_iff]
  intro when
  have hboth : s.SwitchedOn → ∀ f t, clock? s.fromText = some f → clock? s.toText = some t →
      s.hours = (some f, some t) := fun hon f t hf ht => hours_of_switchedOn hon hf ht
  by_cases hfree : s.Unrestricted
  · refine iff_of_true (.inl hfree) ⟨?_, fun hon f t hf ht => ?_⟩
    · exact (mem_openDays hsome).mp (hfree.1 _ (weekdayCode_mem_days when))
    · exact (hfree.2 (by simp [hboth hon f t hf ht])).elim
  · rw [or_iff_right hfree, mem_openDays hsome, Allows]
    refine and_congr_right fun _ => ?_
    by_cases hnone : s.hours = (none, none)
    · refine iff_of_true (by rw [hnone]; rfl) fun hon f t hf ht => ?_
      rw [hboth hon f t hf ht] at hnone
      cases hnone
    · obtain ⟨hhours, hwindow⟩ := hours_of_ne_none hnone
      have hloud : clock? s.fromText = none ∨ clock? s.toText = none →
          ¬LoneClock (clock? s.fromText) (clock? s.toText) := by
        intro hmissing
        have hsilent : ¬silent s.byTime = true := fun hsilent => by
          have hset := (windowOn_silent hsilent).mp hwindow
          exact hmissing.elim hset.1 hset.2
        have hword := (windowOn_flag hsilent _ _).mp hwindow
        rcases hclocks with hall | hclocks | hclocks | hclocks
        · refine absurd (unrestricted_of_all hall ?_) hfree
          rw [hhours]
          dsimp only
          exact fun hset => hmissing.elim hset.1 hset.2
        · exact absurd hclocks hsilent
        · exact absurd hword hclocks
        · exact hclocks
      have hon : s.SwitchedOn :=
        or_iff_not_imp_left.mpr fun hsilent => (windowOn_flag hsilent _ _).mp hwindow
      rw [hhours] at hnone ⊢
      cases hf : clock? s.fromText with
      | none =>
        cases ht : clock? s.toText with
        | none => exact absurd (by rw [hf, ht]) hnone
        | some t =>
          have hmidnight : t.micros = 0 := by simpa [hf, ht, LoneClock] using hloud (.inl hf)
          exact iff_of_true ((hoursOpen_to t when).mpr (.inl hmidnight)) (by simp)
      | some f =>
        cases ht : clock? s.toText with
        | none =>
          have hmidnight : f.micros = 0 := by simpa [hf, ht, LoneClock] using hloud (.inr ht)
          refine iff_of_true ((hoursOpen_from f when).mpr ?_) (by simp)
          rw [hmidnight]
          exact Int.emod_nonneg _ (by decide)
        | some t =>
          rw [hoursOpen_both]
          refine ⟨fun hin _ f' t' hf' ht' => ?_, fun hin => hin hon f t rfl rfl⟩
          obtain rfl := Option.some_inj.mp hf'
          obtain rfl := Option.some_inj.mp ht'
          exact hin

theorem importable_of_agrees {number : String → Json} (h : s.Agrees number) : s.Importable := by
  rw [agrees_iff] at h
  have hsome : ∃ code, s.week.bit code = true := by
    by_contra hnone
    have hdays : s.openDays = defaultAllowedDays := by
      refine if_pos (List.eq_nil_iff_forall_not_mem.mpr fun code hcode => hnone ⟨code, ?_⟩)
      exact (s.week.mem_allowed.mp hcode).2
    obtain ⟨time, hzero, hlt, hopen⟩ := exists_hoursOpen s.hours.1 s.hours.2
    have hsat : "sat" ∈ days := by decide
    obtain ⟨when, hday, htime⟩ := exists_instant hsat hzero hlt
    have hallowed := (h when).mp (.inr ⟨by rw [hday, hdays]; decide, hopen when htime⟩)
    exact hnone ⟨_, hallowed.1⟩
  refine ⟨hsome, ?_⟩
  by_contra hclocks
  simp only [not_or, not_not] at hclocks
  obtain ⟨hall, hsilent, hon, hlone⟩ := hclocks
  obtain ⟨code, hbit⟩ := hsome
  have hwindow : windowOn s.byTime (parseClock s.fromText) (parseClock s.toText) = true :=
    (windowOn_flag hsilent _ _).mpr hon
  have hhours : s.hours = (clock? s.fromText, clock? s.toText) := by
    rw [hours, if_pos hwindow]
  obtain ⟨time, hzero, hlt, hclosed⟩ := exists_not_hoursOpen hlone
  obtain ⟨when, hday, htime⟩ := exists_instant (bit_mem_days hbit) hzero hlt
  have hallows : s.Allows when := by
    refine ⟨by rw [hday]; exact hbit, fun _ f t hf ht => ?_⟩
    rw [hf, ht] at hlone
    exact hlone.elim
  rcases (h when).mpr hallows with hfree | ⟨-, hopen⟩
  · exact hall fun d hd => (mem_openDays ⟨code, hbit⟩).mp (hfree.1 d hd)
  · rw [hhours] at hopen
    dsimp only at hopen
    exact hclosed when htime hopen

/-- The schedule that is imported is the source's exactly where the source allows some day, and
the flag of a window that is not for each day comes with both clocks or with none. -/
theorem imported_agrees_iff (number : String → Json) (s : AdvSchedule) :
    s.Agrees number ↔ s.Importable :=
  ⟨importable_of_agrees, agrees_of_importable number⟩

def blockedWeek : AdvDays where
  entries := ["Sat", "Sun", "Mon", "Tue", "Wed", "Thu", "Fri"].map fun name => (name, false)
  week := by decide

/-- A user who may never connect is let in on each day but Friday. -/
theorem blocked_week_opens :
    let s : AdvSchedule := ⟨blockedWeek, "", "", ""⟩
    let number : String → Json := fun text => .number text false
    s.week.text = "Sat0,Sun0,Mon0,Tue0,Wed0,Thu0,Fri0" ∧
      isAllowed (JsonText.loads number) (s.imported number) 0 = .ok true ∧
      s.week.bit (weekdayCode 0) = false ∧ ¬s.Agrees number := by
  have hbit : ∀ e ∈ blockedWeek.entries, e.2 = false := by decide
  have hnone : ∀ code, blockedWeek.bit code = false := by
    intro code
    refine List.any_eq_false.mpr fun e he => ?_
    simp [hbit e he]
  refine ⟨by decide, ?_, hnone _, fun h => ?_⟩
  · have hdays : openDays ⟨blockedWeek, "", "", ""⟩ = defaultAllowedDays :=
      if_pos (List.filter_eq_nil_iff.mpr fun code _ => by simp [hnone])
    have hhours : hours ⟨blockedWeek, "", "", ""⟩ = (none, none) := rfl
    have hthursday : defaultAllowedDays.contains (weekdayCode 0) = true := by decide
    rw [isAllowed_imported, hdays, hhours, hthursday, hoursOpen, if_pos ⟨rfl, rfl⟩, Bool.true_and,
      Bool.or_true]
  · obtain ⟨⟨code, hcode⟩, -⟩ := importable_of_agrees h
    exact absurd hcode (by simp [hnone])

end AdvSchedule

end RadiusModule.Migration.ConnectionSchedule
