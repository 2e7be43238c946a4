import RadiusModule.Core.Radacct
import RadiusModule.Library.Json
import RadiusModule.Library.PyText

/-!
# Access schedules

A schedule is a list of windows, each with the days it is for and the hours it
opens and closes. `parse` normalizes JSON text into windows, and `isAllowed`
asks whether some window is open at a local time. A local time is the number of
microseconds that its wall clock shows since 1970-01-01T00:00.
-/

namespace RadiusModule.AccessSchedule
open Library PyText

def days : List String := ["sat", "sun", "mon", "tue", "wed", "thu", "fri"]

def dayLength : ℤ := 86400 * second

def weekday (when : ℤ) : ℕ := ((when / dayLength + 3) % 7).toNat

def weekdayCode (when : ℤ) : String :=
  ["mon", "tue", "wed", "thu", "fri", "sat", "sun"].getD (weekday when) ""

theorem weekdayCode_mem_days (when : ℤ) : weekdayCode when ∈ days := by
  have hall : ∀ n < 7, ["mon", "tue", "wed", "thu", "fri", "sat", "sun"].getD n "" ∈ days := by
    decide
  refine hall _ ?_
  simp only [weekday]
  omega

def minuteOfDay (when : ℤ) : ℤ := when % dayLength / (60 * second) * (60 * second)

inductive ScheduleError
  | json
  | unsupportedType
  | windowsNotList
  | windowNotDict (i : ℕ)
  | daysNotList
  | unknownDay (d : String)
  | badTime (s : String)
  | timeOutOfRange (s : String)
  | notText
deriving DecidableEq, Repr

structure ClockTime where
  hour : ℕ
  minute : ℕ
  hour_lt : hour < 24
  minute_lt : minute < 60
deriving DecidableEq, Repr

def ClockTime.micros (t : ClockTime) : ℤ := (t.hour * 60 + t.minute) * (60 * second)

def lastMicro : ℤ := dayLength - 1

/-- `\d{1,2}:\d{2}` -/
def hourMinute? : List Char → Option (ℕ × ℕ)
  | [h, ':', m₁, m₂] =>
    (digit? h).bind fun h => (digit? m₁).bind fun m₁ => (digit? m₂).map fun m₂ =>
      (h, 10 * m₁ + m₂)
  | [h₁, h₂, ':', m₁, m₂] =>
    (digit? h₁).bind fun h₁ => (digit? h₂).bind fun h₂ => (digit? m₁).bind fun m₁ =>
      (digit? m₂).map fun m₂ => (10 * h₁ + h₂, 10 * m₁ + m₂)
  | _ => none

def parseTime (raw : String) : Except ScheduleError (Option ClockTime) :=
  let s := strip raw
  if s = "" then .ok none
  else match hourMinute? s.toList with
    | none => .error (.badTime s)
    | some (h, m) =>
      if hb : h < 24 ∧ m < 60 then .ok (some ⟨h, m, hb.1, hb.2⟩) else .error (.timeOutOfRange s)

/-- `_parse_time` of a JSON value: what is false reads as empty, and only a text can be
stripped. -/
def parseTimeValue (v : Json) : Except ScheduleError (Option ClockTime) :=
  if v.truthy then
    match v with
    | .str s => parseTime s
    | _ => .error .notText
  else .ok none

def digitChar (n : ℕ) : Char := Char.ofNat (48 + n)

def fmtTime : Option ClockTime → String
  | none => ""
  | some t =>
    String.ofList [digitChar (t.hour / 10), digitChar (t.hour % 10), ':',
      digitChar (t.minute / 10), digitChar (t.minute % 10)]

def knownDays : List String → Except ScheduleError Unit
  | [] => .ok ()
  | d :: ds => if d ∈ days then knownDays ds else .error (.unknownDay d)

def inOrder (codes : List String) : List String := days.filter fun d => codes.contains d

/-- `[d.strip().lower() for d in csv.split(",") if d.strip()]` -/
def dayItems (items : List String) : List String :=
  (items.filter fun d => strip d ≠ "").map fun d => lower (strip d)

def normalizeDays (raw : Json) : Except ScheduleError (List String) :=
  let known (items : List String) := do
    knownDays (dayItems items)
    return inOrder (dayItems items)
  match raw with
  | .null => .ok []
  | .str s => known (split s ',')
  | .arr items => known (items.map Json.text)
  | _ => .error .daysNotList

structure Window where
  days : List String
  fromTime : String
  toTime : String
deriving DecidableEq, Repr

def parseWindow (i : ℕ) : Json → Except ScheduleError Window
  | .obj w => do
    let days ← normalizeDays (Json.get w "days")
    let tFrom ← parseTimeValue (Json.get w "from")
    let tTo ← parseTimeValue (Json.get w "to")
    return ⟨days, fmtTime tFrom, fmtTime tTo⟩
  | _ => .error (.windowNotDict i)

def parseWindows : ℕ → List Json → Except ScheduleError (List Window)
  | _, [] => .ok []
  | i, w :: ws => do
    let head ← parseWindow i w
    let rest ← parseWindows (i + 1) ws
    return head :: rest

def parseValue : Json → Except ScheduleError (List Window)
  | .obj data =>
    match Json.get data "windows" with
    | .null => .ok []
    | .arr ws => parseWindows 0 ws
    | _ => .error .windowsNotList
  | _ => .ok []

/-- `parse` of a text; `loads` is `json.loads`, and `none` its decoding error. -/
def parse (loads : String → Option Json) (raw : String) : Except ScheduleError (List Window) :=
  if raw = "" then .ok []
  else match loads raw with
    | none => .error .json
    | some data => parseValue data

def windowAllows (w : Window) (code : String) (t : ℤ) : Except ScheduleError Bool :=
  if !w.days.isEmpty && !w.days.contains code then .ok false
  else do
    let tFrom ← parseTime w.fromTime
    let tTo ← parseTime w.toTime
    match tFrom, tTo with
    | none, none => return true
    | _, _ =>
      let f := (tFrom.map ClockTime.micros).getD 0
      let e := (tTo.map ClockTime.micros).getD lastMicro
      return if f < e then decide (f ≤ t) && decide (t < e) else decide (f ≤ t) || decide (t < e)

/-- `any(…)`: the first window that is open answers, and an error before it is raised. -/
def anyAllows (code : String) (t : ℤ) : List Window → Except ScheduleError Bool
  | [] => .ok false
  | w :: ws => do
    if ← windowAllows w code t then return true
    anyAllows code t ws

def windowsAllow (windows : List Window) (when : ℤ) : Except ScheduleError Bool :=
  if windows.isEmpty then .ok true
  else anyAllows (weekdayCode when) (minuteOfDay when) windows

def isAllowed (loads : String → Option Json) (raw : String) (when : ℤ) :
    Except ScheduleError Bool := do
  windowsAllow (← parse loads raw) when

def normalizeWindow (w : Window) : Except ScheduleError Window := do
  let days ← normalizeDays (.arr (w.days.map .str))
  let tFrom ← parseTime w.fromTime
  let tTo ← parseTime w.toTime
  return ⟨days, fmtTime tFrom, fmtTime tTo⟩

def isAllowedWindow (w : Window) (when : ℤ) : Except ScheduleError Bool := do
  windowsAllow [← normalizeWindow w] when

theorem digit?_digitChar {n : ℕ} (h : n < 10) : digit? (digitChar n) = some n := by
  have hall : ∀ n < 10, digit? (digitChar n) = some n := by decide
  exact hall n h

theorem isSpace_digitChar {n : ℕ} (h : n < 10) : isSpace (digitChar n) = false := by
  have hall : ∀ n < 10, isSpace (digitChar n) = false := by decide
  exact hall n h

theorem parseTime_fmtTime (t : Option ClockTime) : parseTime (fmtTime t) = .ok t := by
  cases t with
  | none => rfl
  | some t =>
    obtain ⟨h, m, hh, hm⟩ := t
    have h₁ : h / 10 < 10 := by omega
    have h₂ : h % 10 < 10 := by omega
    have h₃ : m / 10 < 10 := by omega
    have h₄ : m % 10 < 10 := by omega
    have hstrip : strip (fmtTime (some ⟨h, m, hh, hm⟩)) = fmtTime (some ⟨h, m, hh, hm⟩) := by
      simp [strip, fmtTime, stripChars, isSpace_digitChar, h₁, h₄]
    have hne : fmtTime (some ⟨h, m, hh, hm⟩) ≠ "" := fun he => by
      simpa [fmtTime] using congrArg String.toList he
    have hvalue : hourMinute? (fmtTime (some ⟨h, m, hh, hm⟩)).toList = some (h, m) := by
      simp only [fmtTime, String.toList_ofList, hourMinute?, digit?_digitChar h₁,
        digit?_digitChar h₂, digit?_digitChar h₃, digit?_digitChar h₄, Option.bind_some,
        Option.map_some]
      rw [Nat.div_add_mod, Nat.div_add_mod]
    simp only [parseTime, hstrip, if_neg hne, hvalue]
    rw [dif_pos ⟨hh, hm⟩]

def Window.Readable (w : Window) : Prop :=
  (∃ t, parseTime w.fromTime = .ok t) ∧ ∃ t, parseTime w.toTime = .ok t

theorem windowAllows_of_readable {w : Window} (h : w.Readable) (code : String) (t : ℤ) :
    ∃ b, windowAllows w code t = .ok b := by
  obtain ⟨⟨tFrom, hFrom⟩, tTo, hTo⟩ := h
  simp only [windowAllows, hFrom, hTo]
  split_ifs
  · exact ⟨false, rfl⟩
  · cases tFrom <;> cases tTo <;> exact ⟨_, rfl⟩

theorem windowsAllow_of_readable {ws : List Window} (h : ∀ w ∈ ws, w.Readable) (when : ℤ) :
    ∃ b, windowsAllow ws when = .ok b := by
  have hany : ∀ (code : String) (t : ℤ), ∃ b, anyAllows code t ws = .ok b := by
    intro code t
    induction ws with
    | nil => exact ⟨false, rfl⟩
    | cons w ws ih =>
      obtain ⟨b, hb⟩ := windowAllows_of_readable (h w List.mem_cons_self) code t
      obtain ⟨b', hb'⟩ := ih fun v hv => h v (List.mem_cons_of_mem _ hv)
      cases b with
      | true => exact ⟨true, by rw [anyAllows, hb]; rfl⟩
      | false => exact ⟨b', by rw [anyAllows, hb]; exact hb'⟩
  simp only [windowsAllow]
  split_ifs
  · exact ⟨true, rfl⟩
  · exact hany _ _

theorem bind_eq_ok {ε α β : Type} {x : Except ε α} {f : α → Except ε β} {b : β} :
    x >>= f = .ok b ↔ ∃ a, x = .ok a ∧ f a = .ok b := by
  cases x with
  | error e => simp [bind, Except.bind]
  | ok a => simp [bind, Except.bind]

theorem parseWindow_readable {i : ℕ} {v : Json} {w : Window} (h : parseWindow i v = .ok w) :
    w.Readable := by
  cases v with
  | obj fields =>
    obtain ⟨ds, -, h⟩ := bind_eq_ok.mp h
    obtain ⟨tFrom, -, h⟩ := bind_eq_ok.mp h
    obtain ⟨tTo, -, h⟩ := bind_eq_ok.mp h
    obtain rfl := Except.ok.inj h
    exact ⟨⟨tFrom, parseTime_fmtTime tFrom⟩, tTo, parseTime_fmtTime tTo⟩
  | _ => cases h

theorem parseWindows_readable {i : ℕ} {vs : List Json} {ws : List Window}
    (h : parseWindows i vs = .ok ws) : ∀ w ∈ ws, w.Readable := by
  induction vs generalizing i ws with
  | nil =>
    obtain rfl := Except.ok.inj h
    simp
  | cons v vs ih =>
    obtain ⟨w, hw, h⟩ := bind_eq_ok.mp h
    obtain ⟨rest, hrest, h⟩ := bind_eq_ok.mp h
    obtain rfl := Except.ok.inj h
    intro w' hw'
    rcases List.mem_cons.mp hw' with rfl | hw'
    · exact parseWindow_readable hw
    · exact ih hrest w' hw'

theorem parse_readable {loads : String → Option Json} {raw : String} {ws : List Window}
    (h : parse loads raw = .ok ws) : ∀ w ∈ ws, w.Readable := by
  have hnil : ∀ {ws : List Window}, (.ok [] : Except ScheduleError (List Window)) = .ok ws →
      ∀ w ∈ ws, w.Readable := by
    intro ws h
    obtain rfl := Except.ok.inj h
    simp
  unfold parse at h
  split_ifs at h
  · exact hnil h
  · cases hload : loads raw with
    | none => simp [hload] at h
    | some data =>
      simp only [hload] at h
      cases data with
      | obj fields =>
        simp only [parseValue] at h
        cases hw : Json.get fields "windows" with
        | null => exact hnil (by simpa [hw] using h)
        | arr vs => exact parseWindows_readable (by simpa [hw] using h)
        | _ => simp [hw] at h
      | _ => exact hnil h

theorem isAllowedWindow_eq (f t : String) (when : ℤ) :
    isAllowedWindow ⟨[], f, t⟩ when = windowsAllow [⟨[], f, t⟩] when := by
  have hdays : normalizeDays (.arr []) = .ok [] := rfl
  simp only [isAllowedWindow, normalizeWindow, windowsAllow, anyAllows, windowAllows,
    List.map_nil, hdays]
  cases hf : parseTime f with
  | error e => rfl
  | ok tFrom =>
    cases ht : parseTime t with
    | error e => rfl
    | ok tTo =>
      simp only [bind, Except.bind, pure, Except.pure, List.isEmpty_cons, List.isEmpty_nil,
        parseTime_fmtTime]

theorem windowsAllow_days {codes : List String} (h : codes ≠ []) (when : ℤ) :
    windowsAllow [⟨codes, "", ""⟩] when = .ok (codes.contains (weekdayCode when)) := by
  have hblank : parseTime "" = .ok none := rfl
  have hne : codes.isEmpty = false := by simpa using h
  by_cases hc : weekdayCode when ∈ codes <;>
    simp [windowsAllow, anyAllows, windowAllows, hblank, hne, hc, bind, Except.bind, pure,
      Except.pure]

end RadiusModule.AccessSchedule
