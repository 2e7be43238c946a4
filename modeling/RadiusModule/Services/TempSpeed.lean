import RadiusModule.Core.Types
import RadiusModule.Library.DateText
import RadiusModule.Library.Dict
import RadiusModule.Library.FloatText
import RadiusModule.Library.Json

/-!
# Temporary speeds

A temporary speed overwrites the speed columns of a subscriber. What they held
before goes to the metadata when the window opens, and comes back from there
when it ends or is cancelled. One row is followed; an operation reads the
clock once.
-/

namespace RadiusModule.TempSpeed
open Library PyText

abbrev Meta := Dict String Json

def kFrom := "temporary_speed_from"
def kTo := "temporary_speed_to"
def kDuration := "temporary_speed_duration_minutes"
def kRestoreRate := "temporary_speed_restore_rate"
def kPrevBwctrl := "temporary_speed_prev_bwctrl"
def kPrevDown := "temporary_speed_prev_down_kbps"
def kPrevUp := "temporary_speed_prev_up_kbps"
def kPrevCustom := "temporary_speed_prev_custom"
def kActive := "temporary_speed_active"

def tempMetaKeys : List String :=
  [kFrom, kTo, kDuration, kRestoreRate, kPrevBwctrl, kPrevDown, kPrevUp, kPrevCustom, kActive]

def minKbps : ℤ := 64
def maxKbps : ℤ := 1000000
def minMinutes : ℤ := 1
def maxMinutes : ℤ := 24 * 60

/-- The columns of a subscriber that hold a speed. The metadata is what its text reads as, and an
empty one reads as an object without fields. -/
structure Row where
  temporarySpeed : Bool := false
  customSpeed : Bool := false
  bandwidthControlEnabled : ℤ := 0
  downloadSpeedKbps : ℤ := 0
  uploadSpeedKbps : ℤ := 0
  metadata : Option Json := some (.obj [])

def ofInt (n : ℤ) : Json := .number (toString n) (n = 0)

def ofBool (b : Bool) : Json := ofInt (if b then 1 else 0)

def parseMeta : Option Json → Meta
  | some (.obj fields) => fields
  | _ => []

/-- `str(v or "")` -/
def textOr (v : Option Json) : String :=
  match v with
  | some v => if v.truthy then v.text else ""
  | none => ""

def advanced (m : Meta) : Meta :=
  match m.get? "advanced" with
  | some (.obj fields) => fields
  | _ => []

/-- A value under `advanced` comes before the one at the top. -/
def metaValue (m : Meta) (key : String) : String :=
  strip (if ((advanced m).get? key).any Json.truthy then textOr ((advanced m).get? key)
    else textOr (m.get? key))

def intOrZero (v : Option Json) : Except IntError ℤ :=
  match intOfFloat (strip (textOr v)) with
  | .ok n => .ok n
  | .error .value => .ok 0
  | .error .overflow => .error .overflow

def wholeSecond (t : DateTime) : DateTime :=
  ⟨t.1 / 1000000 * 1000000, by have := t.2; omega⟩

def rateStr (upKbps downKbps : ℤ) : String := toString upKbps ++ "k/" ++ toString downKbps ++ "k"

def planRate : Option AccessPlan → String
  | none => ""
  | some plan =>
    if plan.burstRaw ≠ "" then plan.burstRaw
    else if plan.speedUpKbps ≠ 0 ∨ plan.speedDownKbps ≠ 0 then
      rateStr plan.speedUpKbps plan.speedDownKbps
    else ""

inductive TempError
  | noSpeed
  | speedTooLow
  | speedTooHigh
  | duration
  | overflow

structure Request where
  downKbps : ℤ
  upKbps : ℤ
  durationMinutes : ℤ
  resetWindow : Bool := true
  now : DateTime
  plan : Option AccessPlan := none

def Request.check (req : Request) : Option TempError :=
  if req.downKbps ≤ 0 ∧ req.upKbps ≤ 0 then some .noSpeed
  else if req.downKbps ≠ 0 ∧ req.downKbps < minKbps ∨ req.upKbps ≠ 0 ∧ req.upKbps < minKbps then
    some .speedTooLow
  else if maxKbps < req.downKbps ∨ maxKbps < req.upKbps then some .speedTooHigh
  else if req.durationMinutes < minMinutes ∨ maxMinutes < req.durationMinutes then some .duration
  else none

def snapshot (row : Row) (plan : Option AccessPlan) (m : Meta) : Meta :=
  let restoreRate :=
    if row.customSpeed ∧ (row.downloadSpeedKbps ≠ 0 ∨ row.uploadSpeedKbps ≠ 0) then
      rateStr row.uploadSpeedKbps row.downloadSpeedKbps
    else planRate plan
  ((((m.put kPrevBwctrl (ofBool (row.bandwidthControlEnabled ≠ 0))).put kPrevDown
    (ofInt row.downloadSpeedKbps)).put kPrevUp (ofInt row.uploadSpeedKbps)).put kPrevCustom
    (ofBool row.customSpeed)).put kRestoreRate (.str restoreRate)

def alreadyTemp (m : Meta) : Bool := metaValue m kRestoreRate ≠ "" || metaValue m kFrom ≠ ""

/-- `ends_at` and the rate; no end stands for a `KeyError` after the write. -/
structure Applied where
  endsAt : Option Json
  rate : String

section

variable (texts : DateTexts)

def isoSeconds (t : DateTime) : String := texts.isoformat (wholeSecond t)

def parseDt (raw : String) : Option DateTime :=
  let value := strip raw
  if value = "" then none
  else
    let value := if value.toList.getLast? = some 'Z' then String.ofList value.toList.dropLast
      else value
    match texts.fromisoformat value with
    | some moment => some moment.wall
    | none => texts.strptime (String.ofList (value.toList.take 19))

def endsAt (m : Meta) : Except IntError (Option DateTime) :=
  match intOrZero (some (.str (metaValue m kDuration))) with
  | .error e => .error e
  | .ok duration =>
    match parseDt texts (metaValue m kTo), parseDt texts (metaValue m kFrom) with
    | some ends, _ => .ok (some ends)
    | none, none => .ok none
    | none, some started =>
      if 0 < duration then
        match started.addSeconds? (60 * duration) with
        | some ends => .ok (some ends)
        | none => .error .overflow
      else .ok none

def window (req : Request) (m : Meta) : Option Meta :=
  if req.resetWindow ∨ !(parseDt texts (metaValue m kTo)).any (req.now.1 < ·.1) then
    (req.now.addSeconds? (60 * req.durationMinutes)).map fun ends =>
      ((m.put kFrom (.str (isoSeconds texts req.now))).put kTo (.str (isoSeconds texts ends))).put
        kDuration (ofInt req.durationMinutes)
  else
    some ((m.putNew kFrom (.str (isoSeconds texts req.now))).putNew kDuration
      (ofInt req.durationMinutes))

def applyTempSpeed (row : Row) (req : Request) : Except TempError (Row × Applied) :=
  match req.check with
  | some e => .error e
  | none =>
    let m := parseMeta row.metadata
    let m := if alreadyTemp m then m else snapshot row req.plan m
    match window texts req m with
    | none => .error .overflow
    | some m =>
      let m := m.put kActive (ofInt 1)
      .ok ({ row with
          temporarySpeed := true
          bandwidthControlEnabled := 1
          downloadSpeedKbps := req.downKbps
          uploadSpeedKbps := req.upKbps
          metadata := some (.obj m) },
        ⟨m.get? kTo, rateStr req.upKbps req.downKbps⟩)

end

def isOther (key : String) : Bool := key ∉ tempMetaKeys

def isOtherAdvanced (key : String) : Bool :=
  isOther key && key ≠ "temporary_download_speed_kbps" && key ≠ "temporary_upload_speed_kbps"

def popTemp (m : Meta) : Meta :=
  let m := m.keep isOther
  match m.get? "advanced" with
  | some (.obj fields) => m.put "advanced" (.obj (Dict.keep fields isOtherAdvanced))
  | _ => m

/-- What `_revert_one` writes to the three speed columns. -/
def restoredSpeeds (row : Row) (m : Meta) : Except IntError (ℤ × ℤ × ℤ) :=
  if metaValue m kRestoreRate ≠ "" ∨ (m.get? kPrevCustom).isSome then do
    let prevCustom ← intOrZero (m.get? kPrevCustom)
    if prevCustom ≠ 0 then
      let bwctrl ← intOrZero (m.get? kPrevBwctrl)
      let down ← intOrZero (m.get? kPrevDown)
      let up ← intOrZero (m.get? kPrevUp)
      pure (if bwctrl ≠ 0 then bwctrl else 1, down, up)
    else pure (0, 0, 0)
  else if row.customSpeed then pure (1, row.downloadSpeedKbps, row.uploadSpeedKbps)
  else pure (0, 0, 0)

def revertOne (row : Row) : Except IntError Row := do
  let m := parseMeta row.metadata
  let (bwctrl, down, up) ← restoredSpeeds row m
  pure { row with
    temporarySpeed := false
    bandwidthControlEnabled := bwctrl
    downloadSpeedKbps := down
    uploadSpeedKbps := up
    metadata := some (.obj (popTemp m)) }

def expireDue (texts : DateTexts) (row : Row) (now : DateTime) : Except IntError Row :=
  if !row.temporarySpeed then .ok row
  else match endsAt texts (parseMeta row.metadata) with
    | .error e => .error e
    | .ok ends =>
      if ends.any (now.1 < ·.1) then .ok row
      else match revertOne row with
        | .ok reverted => .ok reverted
        | .error _ => .ok row

def hasWindow (row : Row) : Bool :=
  row.temporarySpeed || metaValue (parseMeta row.metadata) kFrom ≠ "" ||
    metaValue (parseMeta row.metadata) kRestoreRate ≠ ""

def cancelTempSpeed (row : Row) : Except IntError Row :=
  if hasWindow row then revertOne row else .ok row

def step (texts : DateTexts) (row : Row) (req : Request) : Row :=
  match applyTempSpeed texts row req with
  | .ok (row', _) => row'
  | .error _ => row

end RadiusModule.TempSpeed
