import RadiusModule.Core.AccessSchedule
import RadiusModule.Library.JsonText
import RadiusModule.Library.Lines

/-!
# Schedules as a codec

`parse` of any JSON value, `serialize`, and the working days that are derived
from a schedule. What `parse` returns is normal: it is parsed to itself, and so
is its text.
-/

namespace RadiusModule.AccessSchedule
open Library PyText

def Window.json (w : Window) : Json :=
  .obj [("days", .arr (w.days.map .str)), ("from", .str w.fromTime), ("to", .str w.toTime)]

def scheduleJson (ws : List Window) : Json := .obj [("windows", .arr (ws.map Window.json))]

section
variable (loads : String → Option Json)

/-- `parse` -/
def parseRaw : Json → Except ScheduleError (List Window)
  | .null => .ok []
  | .str raw => parse loads raw
  | .obj fields => parseValue (.obj fields)
  | _ => .error .unsupportedType

def serialize (dumps : Json → String) (schedule : Json) : Except ScheduleError String := do
  let norm ← parseRaw loads schedule
  return if norm.isEmpty then "" else dumps (scheduleJson norm)

/-- `is_allowed` -/
def isAllowedRaw (schedule : Json) (when : ℤ) : Except ScheduleError Bool := do
  windowsAllow (← parseRaw loads schedule) when

def workingDays (schedule : Json) : Except ScheduleError (List String) := do
  let windows ← parseRaw loads schedule
  if windows.any fun w => w.days.isEmpty then return []
  return days.filter fun d => windows.any fun w => w.days.contains d

def deriveWorkingDays (schedule : Json) : Except ScheduleError String := do
  return ",".intercalate (← workingDays loads schedule)

end

def Window.Normal (w : Window) : Prop :=
  ∃ codes tFrom tTo, w = ⟨inOrder codes, fmtTime tFrom, fmtTime tTo⟩

theorem normalizeDays_inOrder {raw : Json} {ds : List String} (h : normalizeDays raw = .ok ds) :
    ∃ codes, ds = inOrder codes := by
  have hknown : ∀ items : List String,
      (do knownDays (dayItems items); return inOrder (dayItems items)) = Except.ok ds →
        ∃ codes, ds = inOrder codes := by
    intro items h
    obtain ⟨-, -, h⟩ := bind_eq_ok.mp h
    exact ⟨dayItems items, (Except.ok.inj h).symm⟩
  cases raw with
  | null => exact ⟨[], (Except.ok.inj h).symm⟩
  | str s => exact hknown _ h
  | arr items => exact hknown _ h
  | _ => cases h

theorem parseWindow_normal {i : ℕ} {v : Json} {w : Window} (h : parseWindow i v = .ok w) :
    w.Normal := by
  cases v with
  | obj fields =>
    obtain ⟨ds, hds, h⟩ := bind_eq_ok.mp h
    obtain ⟨tFrom, -, h⟩ := bind_eq_ok.mp h
    obtain ⟨tTo, -, h⟩ := bind_eq_ok.mp h
    obtain ⟨codes, rfl⟩ := normalizeDays_inOrder hds
    exact ⟨codes, tFrom, tTo, (Except.ok.inj h).symm⟩
  | _ => cases h

theorem dayItems_inOrder (codes : List String) : dayItems (inOrder codes) = inOrder codes := by
  have hday : ∀ d ∈ days, strip d ≠ "" ∧ lower (strip d) = d := by decide
  have hmem : ∀ d ∈ inOrder codes, d ∈ days := fun d hd => (List.mem_filter.mp hd).1
  rw [dayItems, List.filter_eq_self.mpr fun d hd => decide_eq_true (hday d (hmem d hd)).1]
  exact (List.map_congr_left fun d hd => (hday d (hmem d hd)).2).trans (List.map_id _)

theorem knownDays_inOrder (codes : List String) : knownDays (inOrder codes) = .ok () := by
  have hall : ∀ ds : List String, (∀ d ∈ ds, d ∈ days) → knownDays ds = .ok () := by
    intro ds
    induction ds with
    | nil => exact fun _ => rfl
    | cons d ds ih =>
      intro hds
      rw [knownDays, if_pos (hds d List.mem_cons_self)]
      exact ih fun d' hd' => hds d' (List.mem_cons_of_mem d hd')
  exact hall _ fun d hd => (List.mem_filter.mp hd).1

theorem inOrder_inOrder (codes : List String) : inOrder (inOrder codes) = inOrder codes := by
  refine List.filter_congr fun d hd => ?_
  simp [inOrder, hd]

theorem parseTimeValue_fmtTime (t : Option ClockTime) :
    parseTimeValue (.str (fmtTime t)) = .ok t := by
  by_cases hempty : fmtTime t = ""
  · have hparsed := parseTime_fmtTime t
    rw [hempty] at hparsed
    rw [parseTimeValue, hempty]
    exact hparsed
  · rw [parseTimeValue, Json.truthy, decide_eq_true hempty]
    exact parseTime_fmtTime t

theorem parseWindow_json {w : Window} (h : w.Normal) (i : ℕ) : parseWindow i w.json = .ok w := by
  obtain ⟨codes, tFrom, tTo, rfl⟩ := h
  have hdays : normalizeDays (.arr ((inOrder codes).map .str)) = .ok (inOrder codes) := by
    have htexts : ((inOrder codes).map Json.str).map Json.text = inOrder codes := by
      rw [List.map_map]
      exact List.map_id _
    simp only [normalizeDays, htexts, dayItems_inOrder, knownDays_inOrder, inOrder_inOrder]
    rfl
  simp only [Window.json, parseWindow, Json.get, List.lookup_cons, beq_self_eq_true,
    show ("from" == "days") = false from rfl, show ("to" == "days") = false from rfl,
    show ("to" == "from") = false from rfl, Option.getD_some, hdays, parseTimeValue_fmtTime]
  rfl

theorem parseWindows_normal {i : ℕ} {vs : List Json} {ws : List Window}
    (h : parseWindows i vs = .ok ws) : ∀ w ∈ ws, w.Normal := by
  induction vs generalizing i ws with
  | nil =>
    obtain rfl := Except.ok.inj h
    exact fun _ hw => (List.not_mem_nil hw).elim
  | cons v vs ih =>
    obtain ⟨w, hw, h⟩ := bind_eq_ok.mp h
    obtain ⟨rest, hrest, h⟩ := bind_eq_ok.mp h
    obtain rfl := Except.ok.inj h
    exact List.forall_mem_cons.mpr ⟨parseWindow_normal hw, ih hrest⟩

theorem parseWindows_json {ws : List Window} (h : ∀ w ∈ ws, w.Normal) (i : ℕ) :
    parseWindows i (ws.map Window.json) = .ok ws := by
  induction ws generalizing i with
  | nil => rfl
  | cons w ws ih =>
    obtain ⟨hw, hws⟩ := List.forall_mem_cons.mp h
    rw [List.map_cons, parseWindows, parseWindow_json hw, ih hws]
    rfl

section
variable {loads : String → Option Json} {raw : Json} {ws : List Window}

theorem parseValue_normal {data : Json} (h : parseValue data = .ok ws) : ∀ w ∈ ws, w.Normal := by
  have hnil : ∀ {ws : List Window}, (.ok [] : Except ScheduleError (List Window)) = .ok ws →
      ∀ w ∈ ws, w.Normal := by
    intro ws h
    obtain rfl := Except.ok.inj h
    exact fun _ hw => (List.not_mem_nil hw).elim
  cases data with
  | obj fields =>
    simp only [parseValue] at h
    cases hwindows : Json.get fields "windows" with
    | null => exact hnil (by simpa only [hwindows] using h)
    | arr vs => exact parseWindows_normal (by simpa only [hwindows] using h)
    | _ => simp [hwindows] at h
  | _ => exact hnil h

theorem parseRaw_normal (h : parseRaw loads raw = .ok ws) : ∀ w ∈ ws, w.Normal := by
  cases raw with
  | null =>
    obtain rfl := Except.ok.inj h
    exact fun _ hw => (List.not_mem_nil hw).elim
  | str s =>
    simp only [parseRaw, parse] at h
    split_ifs at h with hempty
    · obtain rfl := Except.ok.inj h
      exact fun _ hw => (List.not_mem_nil hw).elim
    · cases hload : loads s with
      | none => simp [hload] at h
      | some data => exact parseValue_normal (by simpa only [hload] using h)
  | obj fields =>
    simp only [parseRaw] at h
    exact parseValue_normal h
  | _ => cases h

theorem parseRaw_scheduleJson (h : ∀ w ∈ ws, w.Normal) :
    parseRaw loads (scheduleJson ws) = .ok ws := by
  have hwindows : Json.get [("windows", Json.arr (ws.map Window.json))] "windows" =
    .arr (ws.map Window.json) := rfl
  simp only [scheduleJson, parseRaw, parseValue, hwindows]
  exact parseWindows_json h 0

theorem exists_weekday {when : ℤ} (hallowed : windowsAllow ws when = .ok true)
    (hall : (ws.any fun w => w.days.isEmpty) = false) (hne : ws ≠ []) :
    ∃ w ∈ ws, weekdayCode when ∈ w.days := by
  have hany : ∀ ws : List Window, anyAllows (weekdayCode when) (minuteOfDay when) ws = .ok true →
      ∃ w ∈ ws, windowAllows w (weekdayCode when) (minuteOfDay when) = .ok true := by
    intro ws
    induction ws with
    | nil => exact fun h => by cases h
    | cons w ws ih =>
      intro h
      obtain ⟨b, hb, h⟩ := bind_eq_ok.mp h
      cases b with
      | true => exact ⟨w, List.mem_cons_self, hb⟩
      | false =>
        obtain ⟨w', hw', hallows⟩ := ih h
        exact ⟨w', List.mem_cons_of_mem w hw', hallows⟩
  rw [windowsAllow, if_neg (by simpa using hne)] at hallowed
  obtain ⟨w, hw, hallows⟩ := hany ws hallowed
  refine ⟨w, hw, ?_⟩
  have hdays : w.days.isEmpty = false := by
    simpa using List.any_eq_false.mp hall w hw
  by_contra hnot
  rw [windowAllows, hdays, if_pos (by simpa using hnot)] at hallows
  cases hallows

end

theorem bind_eq_error {ε α β : Type} {x : Except ε α} {f : α → Except ε β} {e : ε} :
    x >>= f = .error e ↔ x = .error e ∨ ∃ a, x = .ok a ∧ f a = .error e := by
  cases x with
  | error e => simp [bind, Except.bind]
  | ok a => simp [bind, Except.bind]

/-- The value stands for a time and is neither a text nor false. -/
def unstrippable : Json → Bool
  | .str _ => false
  | v => v.truthy

theorem parseTime_ne_notText (s : String) : parseTime s ≠ .error .notText := by
  unfold parseTime
  dsimp only
  split
  · exact fun h => by cases h
  · split
    · exact fun h => by cases h
    · split
      · exact fun h => by cases h
      · exact fun h => by cases h

theorem parseTimeValue_notText_iff {v : Json} :
    parseTimeValue v = .error .notText ↔ unstrippable v = true := by
  cases v with
  | str s =>
    refine iff_of_false ?_ Bool.false_ne_true
    unfold parseTimeValue
    split
    · exact parseTime_ne_notText s
    · exact fun h => by cases h
  | _ =>
    unfold parseTimeValue unstrippable
    split
    · exact iff_of_true rfl ‹_›
    · exact iff_of_false (fun h => by cases h) ‹_›

theorem normalizeDays_ne_notText (raw : Json) : normalizeDays raw ≠ .error .notText := by
  have hknown : ∀ items : List String, knownDays items ≠ .error .notText := by
    intro items
    induction items with
    | nil => exact fun h => by cases h
    | cons d ds ih =>
      rw [knownDays]
      split
      · exact ih
      · exact fun h => by cases h
  have hitems : ∀ items : List String,
      (do knownDays (dayItems items); return inOrder (dayItems items)) ≠ Except.error .notText := by
    intro items h
    rcases bind_eq_error.mp h with h | ⟨-, -, h⟩
    · exact hknown _ h
    · cases h
  cases raw with
  | str s => exact hitems _
  | arr items => exact hitems _
  | _ => exact fun h => by cases h

def breaksWindow : Json → Prop
  | .obj w =>
    (∃ ds, normalizeDays (Json.get w "days") = .ok ds) ∧
      (unstrippable (Json.get w "from") = true ∨
        (∃ t, parseTimeValue (Json.get w "from") = .ok t) ∧ unstrippable (Json.get w "to") = true)
  | _ => False

def breaksWindows : List Json → Prop
  | [] => False
  | v :: vs => breaksWindow v ∨ (∃ w, parseWindow 0 v = .ok w) ∧ breaksWindows vs

theorem parseWindow_notText_iff {i : ℕ} {v : Json} :
    parseWindow i v = .error .notText ↔ breaksWindow v := by
  cases v with
  | obj fields =>
    rw [parseWindow, bind_eq_error, or_iff_right (normalizeDays_ne_notText _)]
    constructor
    · rintro ⟨ds, hds, h⟩
      refine ⟨⟨ds, hds⟩, ?_⟩
      rcases bind_eq_error.mp h with h | ⟨t, ht, h⟩
      · exact .inl (parseTimeValue_notText_iff.mp h)
      · refine .inr ⟨⟨t, ht⟩, parseTimeValue_notText_iff.mp ?_⟩
        exact (bind_eq_error.mp h).resolve_right fun ⟨_, _, h⟩ => by cases h
    · rintro ⟨⟨ds, hds⟩, h⟩
      refine ⟨ds, hds, bind_eq_error.mpr ?_⟩
      rcases h with h | ⟨⟨t, ht⟩, h⟩
      · exact .inl (parseTimeValue_notText_iff.mpr h)
      · exact .inr ⟨t, ht, bind_eq_error.mpr (.inl (parseTimeValue_notText_iff.mpr h))⟩
  | _ => exact iff_of_false (fun h => by cases h) id

theorem parseWindow_ok_iff {i : ℕ} {v : Json} {w : Window} :
    parseWindow i v = .ok w ↔ parseWindow 0 v = .ok w := by
  cases v with
  | obj fields => exact Iff.rfl
  | _ => exact iff_of_false (fun h => by cases h) fun h => by cases h

theorem parseWindows_notText_iff {i : ℕ} {vs : List Json} :
    parseWindows i vs = .error .notText ↔ breaksWindows vs := by
  induction vs generalizing i with
  | nil => exact iff_of_false (fun h => by cases h) id
  | cons v vs ih =>
    rw [parseWindows, bind_eq_error, breaksWindows, parseWindow_notText_iff]
    refine or_congr_right ⟨?_, ?_⟩
    · rintro ⟨w, hw, h⟩
      refine ⟨⟨w, parseWindow_ok_iff.mp hw⟩, ?_⟩
      exact ih.mp ((bind_eq_error.mp h).resolve_right fun ⟨_, _, h⟩ => by cases h)
    · rintro ⟨⟨w, hw⟩, h⟩
      exact ⟨w, parseWindow_ok_iff.mpr hw, bind_eq_error.mpr (.inl (ih.mpr h))⟩

def rawData (loads : String → Option Json) : Json → Option Json
  | .str raw => if raw = "" then none else loads raw
  | raw => some raw

def Breaks (loads : String → Option Json) (raw : Json) : Prop :=
  ∃ fields vs, rawData loads raw = some (.obj fields) ∧
    Json.get fields "windows" = .arr vs ∧ breaksWindows vs

section
variable {loads : String → Option Json} {raw : Json}

theorem parseValue_notText_iff {data : Json} : parseValue data = .error .notText ↔
    ∃ fields vs, data = .obj fields ∧ Json.get fields "windows" = .arr vs ∧ breaksWindows vs := by
  cases data with
  | obj fields =>
    rw [parseValue]
    cases hwindows : Json.get fields "windows" with
    | arr vs =>
      simp only [parseWindows_notText_iff]
      constructor
      · exact fun h => ⟨fields, vs, rfl, hwindows, h⟩
      · rintro ⟨_, vs', ⟨⟩, hvs', h⟩
        rw [hwindows] at hvs'
        cases hvs'
        exact h
    | _ =>
      refine iff_of_false (fun h => by cases h) ?_
      rintro ⟨_, _, ⟨⟩, hvs', -⟩
      rw [hwindows] at hvs'
      cases hvs'
  | _ =>
    refine iff_of_false (fun h => by cases h) ?_
    rintro ⟨_, _, ⟨⟩, -⟩

theorem parseRaw_notText_iff : parseRaw loads raw = .error .notText ↔ Breaks loads raw := by
  cases raw with
  | str s =>
    rw [parseRaw, parse, Breaks, rawData]
    split_ifs with hempty
    · refine iff_of_false (fun h => by cases h) ?_
      rintro ⟨_, _, ⟨⟩, -⟩
    · cases hload : loads s with
      | none =>
        refine iff_of_false (fun h => by cases h) ?_
        rintro ⟨_, _, ⟨⟩, -⟩
      | some data => simp only [parseValue_notText_iff, Option.some.injEq]
  | obj fields =>
    rw [parseRaw, parseValue_notText_iff, Breaks]
    simp only [rawData, Option.some.injEq]
  | _ =>
    refine iff_of_false (fun h => by cases h) ?_
    rintro ⟨_, _, ⟨⟩, -⟩

end

/-- What a text or a JSON value is promised: the error of schedules, or a schedule that is read
alike as it is and as its text. -/
def Normalises (loads : String → Option Json) (dumps : Json → String) (raw : Json) : Prop :=
  (∃ e, e ≠ .notText ∧ parseRaw loads raw = .error e) ∨
  ∃ ws text, parseRaw loads raw = .ok ws ∧ parseRaw loads (scheduleJson ws) = .ok ws ∧
    serialize loads dumps (scheduleJson ws) = .ok text ∧ parseRaw loads (.str text) = .ok ws ∧
    ∀ when, isAllowedRaw loads raw when = isAllowedRaw loads (scheduleJson ws) when ∧
      isAllowedRaw loads (.str text) when = isAllowedRaw loads (scheduleJson ws) when ∧
      (isAllowedRaw loads (scheduleJson ws) when = .ok true →
        ∃ csv, deriveWorkingDays loads (scheduleJson ws) = .ok csv ∧
          (csv = "" ∨ weekdayCode when ∈ split csv ','))

section
variable {ws : List Window}

theorem plain_scheduleJson (ws : List Window) : JsonText.plain (scheduleJson ws) = true := by
  have hdays : ∀ ds : List String, JsonText.plainItems (ds.map .str) = true := by
    intro ds
    induction ds with
    | nil => rfl
    | cons d ds ih => simp [JsonText.plainItems, JsonText.plain, ih]
  have hwindow : ∀ w : Window, JsonText.plain w.json = true := by
    intro w
    simp [Window.json, JsonText.plain, JsonText.plainFields, hdays]
  have hwindows : JsonText.plainItems (ws.map Window.json) = true := by
    induction ws with
    | nil => rfl
    | cons w ws ih => simp [JsonText.plainItems, hwindow, ih]
  simp [scheduleJson, JsonText.plain, JsonText.plainFields, hwindows]

theorem serialize_spec (number : String → Json) (h : ∀ w ∈ ws, w.Normal) :
    ∃ text, serialize (JsonText.loads number) JsonText.dumps (scheduleJson ws) = .ok text ∧
      parseRaw (JsonText.loads number) (.str text) = .ok ws := by
  refine ⟨_, by rw [serialize, parseRaw_scheduleJson h]; rfl, ?_⟩
  cases ws with
  | nil => rfl
  | cons w ws =>
    have hne : JsonText.dumps (scheduleJson (w :: ws)) ≠ "" := fun hempty => by
      have hchars := congrArg String.toList hempty
      rw [JsonText.dumps, String.toList_ofList, scheduleJson, JsonText.writeChars] at hchars
      cases hchars
    have hself : parseRaw (JsonText.loads number) (scheduleJson (w :: ws)) = .ok (w :: ws) :=
      parseRaw_scheduleJson h
    simp only [List.isEmpty_cons, Bool.false_eq_true, if_false, parseRaw, parse, if_neg hne,
      JsonText.loads_dumps number (plain_scheduleJson (w :: ws))]
    exact hself

theorem split_intercalate {ds : List String} (hdays : ds.Sublist days) (hne : ds ≠ []) :
    split (",".intercalate ds) ',' = ds := by
  have hcomma : ∀ d ∈ days, ',' ∉ d.toList := by decide
  have hwords : ∀ w ∈ ds.map String.toList, ',' ∉ w := by
    intro w hw
    obtain ⟨d, hd, rfl⟩ := List.mem_map.mp hw
    exact hcomma d (hdays.subset hd)
  rw [split, String.toList_intercalate, show ",".toList = [','] from rfl,
    splitChars_intercalate (by simpa using hne) hwords, List.map_map]
  simp

theorem deriveWorkingDays_spec {loads : String → Option Json} (h : ∀ w ∈ ws, w.Normal) {when : ℤ}
    (hallowed : windowsAllow ws when = .ok true) :
    ∃ csv, deriveWorkingDays loads (scheduleJson ws) = .ok csv ∧
      (csv = "" ∨ weekdayCode when ∈ split csv ',') := by
  have hparse : parseRaw loads (scheduleJson ws) = .ok ws := parseRaw_scheduleJson h
  by_cases hall : (ws.any fun w => w.days.isEmpty) = true
  · refine ⟨"", ?_, .inl rfl⟩
    simp only [deriveWorkingDays, workingDays, hparse, bind, Except.bind, if_pos hall]
    rfl
  · set ds := days.filter fun d => ws.any fun w => w.days.contains d with hds
    refine ⟨",".intercalate ds, ?_, ?_⟩
    · simp only [deriveWorkingDays, workingDays, hparse, bind, Except.bind, if_neg hall]
      rfl
    · by_cases hnone : ds = []
      · exact .inl (by rw [hnone]; rfl)
      · refine .inr ?_
        rw [split_intercalate List.filter_sublist hnone]
        have hws : ws ≠ [] := by
          rintro rfl
          exact hnone (by simp [hds])
        obtain ⟨w, hw, hday⟩ := exists_weekday hallowed (Bool.eq_false_iff.mpr hall) hws
        refine List.mem_filter.mpr ⟨weekdayCode_mem_days when, ?_⟩
        exact List.any_eq_true.mpr ⟨w, hw, by simpa using hday⟩

end

/-- The codec keeps its promise exactly where no window has, behind what can be read, a time that
is neither a text nor false. -/
theorem normalises_iff (number : String → Json) (raw : Json) :
    Normalises (JsonText.loads number) JsonText.dumps raw ↔
      ¬Breaks (JsonText.loads number) raw := by
  rw [← parseRaw_notText_iff]
  cases hparse : parseRaw (JsonText.loads number) raw with
  | error e =>
    constructor
    · rintro (⟨e', hne, herror⟩ | ⟨ws, text, hok, -⟩)
      · rw [hparse] at herror
        cases herror
        exact fun h => hne (Except.error.inj h)
      · rw [hparse] at hok
        cases hok
    · exact fun h => .inl ⟨e, fun he => h (by rw [he]), hparse⟩
  | ok ws =>
    refine iff_of_true (.inr ?_) (fun h => by cases h)
    have hnormal := parseRaw_normal hparse
    have hself : parseRaw (JsonText.loads number) (scheduleJson ws) = .ok ws :=
      parseRaw_scheduleJson hnormal
    obtain ⟨text, htext, hread⟩ := serialize_spec number hnormal
    refine ⟨ws, text, hparse, hself, htext, hread, fun when => ⟨?_, ?_, fun hallowed => ?_⟩⟩
    · rw [isAllowedRaw, isAllowedRaw, hparse, hself]
    · rw [isAllowedRaw, isAllowedRaw, hread, hself]
    · rw [isAllowedRaw, hself] at hallowed
      exact deriveWorkingDays_spec hnormal hallowed

/-- A window from the number five on raises what is no error of schedules. -/
theorem number_as_time_breaks :
    let raw : Json := .obj [("windows", .arr [.obj [("from", .number "5" false)]])]
    parseRaw (JsonText.loads fun text => .number text false) raw = .error .notText ∧
      ¬Normalises (JsonText.loads fun text => .number text false) JsonText.dumps raw := by
  refine ⟨rfl, ?_⟩
  rintro (⟨e, hne, herror⟩ | ⟨ws, text, hok, -⟩)
  · cases herror
    exact hne rfl
  · cases hok

end RadiusModule.AccessSchedule
