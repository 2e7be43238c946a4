import RadiusModule.Library.IsoText
import RadiusModule.Library.Run
import RadiusModule.Services.AccountingEvents
import RadiusModule.Services.CardReconcile.AccountingReconcile

/-!
# Closing orphan sessions

Rows of `radacct` that no Stop closed are closed by sweeps: one for rows that
nothing was heard of for some time, and one that an administrator forces. A
sweep reads its candidates once and closes them one after another. In between
packets come in and other sweeps run. Time columns are kept as their texts.
-/

namespace RadiusModule.SessionReconciler
open Library CardReconcile AccountingEvents

structure AcctRow where
  radacctid : ℕ
  tenantId : ℤ
  acctSessionId : String
  username : String
  nasIpAddress : String
  acctStartTime : Option String
  acctUpdateTime : Option String
  acctStopTime : Option String
  acctSessionTime : Option ℤ
  acctTerminateCause : String

abbrev AcctTable := Table AcctRow AcctRow.radacctid

namespace AcctRow

variable (r : AcctRow)

def key : SessionKey := ⟨r.tenantId, r.acctSessionId, r.nasIpAddress⟩

/-- `acctstoptime IS NULL` -/
def running : Bool := r.acctStopTime.isNone

/-- `acctstoptime IS NULL OR acctstoptime = ''` -/
def isOpen : Bool := r.acctStopTime.all fun s => s = ""

/-- `COALESCE(acctupdatetime, acctstarttime)` -/
def lastSeen : Option String := r.acctUpdateTime.or r.acctStartTime

def sessionTime : ℤ := r.acctSessionTime.getD 0

def close (stop : String) (secs : ℤ) (cause : String) : AcctRow :=
  { r with acctStopTime := some stop, acctSessionTime := some secs, acctTerminateCause := cause }

@[simp] theorem close_id (stop : String) (secs : ℤ) (cause : String) :
    (r.close stop secs cause).radacctid = r.radacctid := rfl

end AcctRow

/-- `now_iso` -/
def isoNow (now : DateTime) : String := IsoText.isoformat now ++ "Z"

section
variable (texts : DateTexts)

/-- `_session_seconds`; a time that leaves the years raises. -/
def sessionSeconds (start stop : Option String) : Except DateError (Option ℤ) := do
  let s ← parseDtUtc texts start
  let e ← parseDtUtc texts stop
  return match s, e with
    | some s, some e => some (max 0 ⌊e.secondsSince s⌋)
    | _, _ => none

def given (s : Option String) : Option String := s.filter fun s => s ≠ ""

/-- `stop_iso or upd or start or now_iso()` -/
def stopTime (stopIso : Option String) (now : DateTime) (r : AcctRow) : String :=
  ((given stopIso).or ((given r.acctUpdateTime).or (given r.acctStartTime))).getD (isoNow now)

def closingSeconds (r : AcctRow) (stop : String) : Except DateError ℤ :=
  (sessionSeconds texts r.acctStartTime (some stop)).map fun computed =>
    match computed with
    | some computed => max r.sessionTime computed
    | none => r.sessionTime

/-- `close_session_row`; `none` where it raises. -/
def closeSessionRow (t : AcctTable) (now : DateTime) (r : AcctRow) (cause : String)
    (stopIso : Option String) : Option AcctTable :=
  match closingSeconds texts r (stopTime stopIso now r) with
  | .error _ => none
  | .ok secs => some (t.update (fun c => c.radacctid = r.radacctid && c.running)
      (fun c => c.close (stopTime stopIso now r) secs cause) fun c => c.close_id _ secs cause)

end

def ofKey (k : SessionKey) (r : AcctRow) : Bool := r.key = k

def openOfKey (k : SessionKey) (r : AcctRow) : Bool := ofKey k r && r.running

/-- `_insert_missing_start` -/
def missingStartRow (e : AccountingEvents.Event) (now : DateTime) (closed : Bool) (radacctid : ℕ) :
    AcctRow where
  radacctid := radacctid
  tenantId := e.tenantId
  acctSessionId := e.acctSessionId
  username := e.username
  nasIpAddress := e.nasIpAddress
  acctStartTime := some (isoNow ((now.addSeconds? (-max 0 e.sessionTime)).getD now))
  acctUpdateTime := some (isoNow now)
  acctStopTime := if closed then some (isoNow now) else none
  acctSessionTime := some e.sessionTime
  acctTerminateCause := if !closed then ""
    else if e.terminateCause = "" then "User-Request" else e.terminateCause

@[simp] theorem missingStartRow_id (e : AccountingEvents.Event) (now : DateTime) (closed : Bool)
    (n : ℕ) : (missingStartRow e now closed n).radacctid = n := rfl

def overwriteOpen (t : AcctTable) (e : AccountingEvents.Event) (now : DateTime) (closed : Bool)
    (f : AcctRow → AcctRow) (hf : ∀ r, (f r).radacctid = r.radacctid) : AcctTable :=
  let t' := t.update (openOfKey e.key) f hf
  if t.count (ofKey e.key) = 0 then
    t'.insert (missingStartRow e now closed) fun n => missingStartRow_id e now closed n
  else t'

def interim (t : AcctTable) (now : DateTime) (e : AccountingEvents.Event) : AcctTable :=
  overwriteOpen t e now false
    (fun r => { r with
      acctUpdateTime := some (isoNow now)
      acctSessionTime := some e.sessionTime }) fun _ => rfl

def stop (t : AcctTable) (now : DateTime) (e : AccountingEvents.Event) : AcctTable :=
  overwriteOpen t e now true
    (fun r => { r with
      acctStopTime := some (isoNow now)
      acctUpdateTime := some (isoNow now)
      acctSessionTime := some e.sessionTime
      acctTerminateCause :=
        if r.acctTerminateCause ≠ "" then r.acctTerminateCause
        else if e.terminateCause ≠ "" then e.terminateCause else "User-Request" }) fun _ => rfl

/-- `reconcile_stale_interim` with a threshold in seconds, or `force_close`. -/
inductive SweepKind
  | stale (threshold : ℕ)
  | force

/-- `datetime('now', '-N seconds')` -/
def cutoff (now : DateTime) (threshold : ℕ) : Option DateTime := now.addSeconds? (-threshold)

def isStale (now : DateTime) (tenantId : Option ℤ) (threshold : ℕ) (r : AcctRow) : Bool :=
  tenantId.all (fun tenantId => r.tenantId = tenantId) && r.running &&
    match r.lastSeen with
    | none => true
    | some seen => (cutoff now threshold).any fun c => acctNorm seen < IsoText.datetime c

def isForced (tenantId : ℤ) (username sessionId : String) (r : AcctRow) : Bool :=
  r.tenantId = tenantId && r.username = username && r.isOpen &&
    (PyText.strip sessionId = "" || r.acctSessionId = PyText.strip sessionId)

/-- A sweep that is under way: its candidates, those that are still to be closed, and those on which
`close_session_row` raised. -/
structure Sweep where
  kind : SweepKind
  cause : String
  asked : DateTime
  selected : List AcctRow
  pending : List AcctRow
  raised : List AcctRow

def Sweep.stopIso (sweep : Sweep) (now : DateTime) : Option String :=
  match sweep.kind with
  | .stale _ => none
  | .force => some (isoNow now)

def Sweep.stopFor (sweep : Sweep) (now : DateTime) (r : AcctRow) : String :=
  stopTime (sweep.stopIso now) now r

structure Clock where
  time : ℕ → DateTime
  mono : ∀ i j, i ≤ j → (time i).1 ≤ (time j).1

structure State where
  tick : ℕ
  rows : AcctTable
  sweeps : ℕ → Option Sweep

inductive Event
  | interim (e : AccountingEvents.Event)
  | stop (e : AccountingEvents.Event)
  | askStale (i : ℕ) (tenantId : Option ℤ) (threshold : ℕ) (cause : String)
  | askForce (i : ℕ) (tenantId : ℤ) (username sessionId cause : String)
  | close (i : ℕ)
  | finish (i : ℕ)

def begun (kind : SweepKind) (cause : String) (asked : DateTime) (selected : List AcctRow) : Sweep :=
  ⟨kind, cause, asked, selected, selected, []⟩

namespace State

def now (clock : Clock) (s : State) : DateTime := clock.time s.tick

def begin (s : State) (i : ℕ) (sweep : Sweep) : State :=
  { s with sweeps := if (s.sweeps i).isNone then Function.update s.sweeps i (some sweep)
    else s.sweeps }

def closeNext (texts : DateTexts) (clock : Clock) (s : State) (i : ℕ) (sweep : Sweep) (r : AcctRow)
    (rest : List AcctRow) : State :=
  match closeSessionRow texts s.rows (s.now clock) r sweep.cause (sweep.stopIso (s.now clock)) with
  | some rows => { s with
      rows := rows
      sweeps := Function.update s.sweeps i (some { sweep with pending := rest }) }
  | none => { s with
      sweeps := Function.update s.sweeps i
        (some { sweep with pending := rest, raised := sweep.raised ++ [r] }) }

def act (texts : DateTexts) (clock : Clock) (s : State) : Event → State
  | .interim e => { s with rows := SessionReconciler.interim s.rows (s.now clock) e }
  | .stop e => { s with rows := SessionReconciler.stop s.rows (s.now clock) e }
  | .askStale i tenantId threshold cause =>
    s.begin i (begun (.stale threshold) cause (s.now clock)
      (s.rows.select (isStale (s.now clock) tenantId threshold)))
  | .askForce i tenantId username sessionId cause =>
    s.begin i (begun .force cause (s.now clock)
      (s.rows.select (isForced tenantId username sessionId)))
  | .close i =>
    match s.sweeps i with
    | some sweep =>
      match sweep.pending with
      | r :: rest => s.closeNext texts clock i sweep r rest
      | [] => s
    | none => s
  | .finish i =>
    match s.sweeps i with
    | some sweep =>
      if sweep.pending = [] then { s with sweeps := Function.update s.sweeps i none } else s
    | none => s

def step (texts : DateTexts) (clock : Clock) (s : State) (e : Event) : State :=
  { s.act texts clock e with tick := s.tick + 1 }

def idle (rows : AcctTable) : State := ⟨0, rows, fun _ => none⟩

end State

end RadiusModule.SessionReconciler
