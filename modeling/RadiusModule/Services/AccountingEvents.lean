import RadiusModule.Core.Radacct
import RadiusModule.Library.PyText

/-!
# Accounting event ingestion

A payload is normalized to an event, and the event is applied to `radacct`:
Start opens a row, Interim-Update overwrites the open rows of its session,
Stop closes them, Accounting-On/Off closes the rows of a NAS, and the sweep
closes the rows that fell silent.
-/

namespace RadiusModule.AccountingEvents
open Library PyText

inductive StatusType
  | start
  | interimUpdate
  | stop
  | accountingOn
  | accountingOff
deriving DecidableEq, Repr

namespace StatusType

def text : StatusType → String
  | start => "Start"
  | interimUpdate => "Interim-Update"
  | stop => "Stop"
  | accountingOn => "Accounting-On"
  | accountingOff => "Accounting-Off"

def supported : List StatusType := [start, interimUpdate, stop, accountingOn, accountingOff]

def ofText? (s : String) : Option StatusType := supported.find? fun st => st.text = s

def ofSession : StatusType → Bool
  | start | interimUpdate | stop => true
  | accountingOn | accountingOff => false

end StatusType

inductive Value
  | null
  | int (n : ℤ)
  | str (s : String)
deriving DecidableEq, Repr

namespace Value

def truthy : Value → Bool
  | null => false
  | int n => n ≠ 0
  | str s => s ≠ ""

def text : Value → String
  | null => "None"
  | int n => toString n
  | str s => s

end Value

abbrev Payload := List (String × Value)

namespace Payload

def get (p : Payload) (name : String) : Value := (p.lookup name).getD .null

/-- `payload.get(a) or payload.get(b) or … or ""`. -/
def first (p : Payload) : List String → Value
  | [] => .str ""
  | name :: names => if (p.get name).truthy then p.get name else first p names

def text (p : Payload) (names : List String) : String := (p.first names).text

end Payload

/-- `_int`: the default 0 stands for an absent or unreadable number. -/
def int : Value → ℤ
  | .null => 0
  | .int n => n
  | .str s => (int? s).getD 0

/-- `Acct-*-Octets + Acct-*-Gigawords * 2^32`. -/
def octets (octetNames gigawordNames : List String) (p : Payload) : ℕ :=
  let octets := int (p.first octetNames)
  let giga := int (p.first gigawordNames)
  (max 0 octets + max 0 giga * 4294967296).toNat

structure Event where
  tenantId : ℤ
  username : String
  acctSessionId : String
  acctUniqueSessionId : String
  nasIpAddress : String
  callingStationId : String
  framedIpAddress : String
  inputOctets : ℕ
  outputOctets : ℕ
  sessionTime : ℤ
  terminateCause : String
  statusType : StatusType
  session_ne : statusType.ofSession = true → acctSessionId ≠ ""
  nas_ne : nasIpAddress ≠ ""

def Event.key (e : Event) : SessionKey := ⟨e.tenantId, e.acctSessionId, e.nasIpAddress⟩

def Event.counters (e : Event) : Counters := (e.inputOctets, e.outputOctets, e.sessionTime)

def normalize (tenantId : ℤ) (payload : Payload) : Except String Event :=
  match StatusType.ofText?
      (strip (payload.text ["status_type", "Acct-Status-Type", "acct_status_type"])) with
  | none => .error "unsupported or missing accounting status_type"
  | some status =>
    let username := strip (payload.text ["username", "User-Name"])
    let sessionId := strip (payload.text ["acct_session_id", "Acct-Session-Id"])
    let nasIp := strip (payload.text ["nas_ip_address", "NAS-IP-Address"])
    if hs : status.ofSession = true ∧ sessionId = "" then .error "acct_session_id is required"
    else if hn : nasIp = "" then .error "nas_ip_address is required"
    else
      let unique := payload.first ["acct_unique_session_id", "Acct-Unique-Session-Id"]
      .ok {
        tenantId := tenantId
        username := username
        acctSessionId := sessionId
        acctUniqueSessionId := strip
          (if unique.truthy then unique.text else nasIp ++ "-" ++ sessionId ++ "-" ++ username)
        nasIpAddress := nasIp
        callingStationId := payload.text ["calling_station_id", "Calling-Station-Id"]
        framedIpAddress := payload.text ["framed_ip_address", "Framed-IP-Address"]
        inputOctets := octets ["input_octets", "Acct-Input-Octets"]
          ["input_gigawords", "Acct-Input-Gigawords"] payload
        outputOctets := octets ["output_octets", "Acct-Output-Octets"]
          ["output_gigawords", "Acct-Output-Gigawords"] payload
        sessionTime := int (payload.first ["session_time", "Acct-Session-Time"])
        terminateCause := strip (payload.text ["terminate_cause", "Acct-Terminate-Cause"])
        statusType := status
        session_ne := fun h he => hs ⟨h, he⟩
        nas_ne := hn }

inductive Reply
  | idempotent (session : Radacct)
  | started (session : Option Radacct) (insertedWithoutStart : Bool)
  | updated (session : Option Radacct)
  | alreadyStopped (session : Radacct)
  | stopped (session : Option Radacct) (insertedWithoutStart : Bool)
  | nasReset (closed preserved : ℕ)
deriving DecidableEq, Repr

def ofKey (k : SessionKey) (r : Radacct) : Bool := r.key = k

def openOfKey (k : SessionKey) (r : Radacct) : Bool := ofKey k r && r.running

def openSession (t : RadacctTable) (k : SessionKey) : Option Radacct := t.last? (openOfKey k)

def lastSessionRow (t : RadacctTable) (k : SessionKey) : Option Radacct := t.last? (ofKey k)

def sessionDetail (t : RadacctTable) (tenantId : ℤ) (sessionId : String) : Option Radacct :=
  t.last? fun r => r.tenantId = tenantId && r.acctSessionId = sessionId

def Event.row (e : Event) (radacctid : ℕ) (started updated : ℤ) : Radacct where
  radacctid := radacctid
  tenantId := e.tenantId
  acctSessionId := e.acctSessionId
  acctUniqueId := e.acctUniqueSessionId
  username := e.username
  nasIpAddress := e.nasIpAddress
  acctStartTime := .instant started
  acctUpdateTime := .instant updated
  callingStationId := e.callingStationId
  framedIpAddress := e.framedIpAddress
  acctInputOctets := e.inputOctets
  acctOutputOctets := e.outputOctets
  acctSessionTime := e.sessionTime

@[simp] theorem Event.row_id (e : Event) (n : ℕ) (started updated : ℤ) :
    (e.row n started updated).radacctid = n := rfl

@[simp] theorem Event.row_key (e : Event) (n : ℕ) (started updated : ℤ) :
    (e.row n started updated).key = e.key := rfl

def start (t : RadacctTable) (now : ℤ) (e : Event) : RadacctTable × Reply :=
  match openSession t e.key with
  | some existing => (t, .idempotent existing)
  | none =>
    (t.insert (fun n => e.row n now now) fun n => e.row_id n now now,
      .started (some (e.row t.next now now)) false)

/-- A row whose Start never came: it began `sessionTime` seconds ago. -/
def missingStartRow (e : Event) (now : ℤ) (closed : Bool) (radacctid : ℕ) : Radacct :=
  let begun := afterSeconds now (-max 0 e.sessionTime)
  let row := e.row radacctid (if begun < firstInstant then now else begun) now
  if closed then
    { row with
      acctStopTime := .instant now
      acctTerminateCause := if e.terminateCause = "" then "User-Request" else e.terminateCause }
  else row

@[simp] theorem missingStartRow_id (e : Event) (now : ℤ) (closed : Bool) (n : ℕ) :
    (missingStartRow e now closed n).radacctid = n := by
  cases closed <;> rfl

@[simp] theorem missingStartRow_key (e : Event) (now : ℤ) (closed : Bool) (n : ℕ) :
    (missingStartRow e now closed n).key = e.key := by
  cases closed <;> rfl

def insertMissingStart (t : RadacctTable) (now : ℤ) (e : Event) (closed : Bool) :
    RadacctTable × Reply :=
  let row := missingStartRow e now closed t.next
  (t.insert (missingStartRow e now closed) (missingStartRow_id e now closed),
    if closed then .stopped (some row) true else .started (some row) true)

/-- The open rows of the session are rewritten. With none open, a session that has a row is
over, and one that has no row gets it now. -/
def overwriteOpen (t : RadacctTable) (now : ℤ) (e : Event) (closed : Bool) (f : Radacct → Radacct)
    (hf : ∀ r, (f r).radacctid = r.radacctid) (reply : RadacctTable → Reply) :
    RadacctTable × Reply :=
  let t' := t.update (openOfKey e.key) f hf
  if t.count (openOfKey e.key) = 0 then
    match lastSessionRow t' e.key with
    | some prior => (t', .alreadyStopped prior)
    | none => insertMissingStart t' now e closed
  else (t', reply t')

def interimRow (e : Event) (now : ℤ) (r : Radacct) : Radacct :=
  { r with
    acctUpdateTime := .instant now
    acctInputOctets := e.inputOctets
    acctOutputOctets := e.outputOctets
    acctSessionTime := e.sessionTime
    framedIpAddress := if e.framedIpAddress = "" then r.framedIpAddress else e.framedIpAddress }

@[simp] theorem interimRow_id (e : Event) (now : ℤ) (r : Radacct) :
    (interimRow e now r).radacctid = r.radacctid := rfl

@[simp] theorem interimRow_key (e : Event) (now : ℤ) (r : Radacct) :
    (interimRow e now r).key = r.key := rfl

def interim (t : RadacctTable) (now : ℤ) (e : Event) : RadacctTable × Reply :=
  overwriteOpen t now e false (interimRow e now) (interimRow_id e now) fun t' =>
    .updated (openSession t' e.key)

def stopRow (e : Event) (now : ℤ) (r : Radacct) : Radacct :=
  { r with
    acctStopTime := .instant now
    acctUpdateTime := .instant now
    acctInputOctets := e.inputOctets
    acctOutputOctets := e.outputOctets
    acctSessionTime := e.sessionTime
    acctTerminateCause :=
      if r.acctTerminateCause ≠ "" then r.acctTerminateCause
      else if e.terminateCause ≠ "" then e.terminateCause else "User-Request" }

@[simp] theorem stopRow_id (e : Event) (now : ℤ) (r : Radacct) :
    (stopRow e now r).radacctid = r.radacctid := rfl

@[simp] theorem stopRow_key (e : Event) (now : ℤ) (r : Radacct) :
    (stopRow e now r).key = r.key := rfl

def stop (t : RadacctTable) (now : ℤ) (e : Event) : RadacctTable × Reply :=
  overwriteOpen t now e true (stopRow e now) (stopRow_id e now) fun t' =>
    .stopped (sessionDetail t' e.tenantId e.acctSessionId) false

theorem stop_cases (t : RadacctTable) (now : ℤ) (e : Event) :
    (stop t now e).1 = t.update (openOfKey e.key) (stopRow e now) (stopRow_id e now) ∨
      (stop t now e).1 =
        (t.update (openOfKey e.key) (stopRow e now) (stopRow_id e now)).insert
          (missingStartRow e now true) (missingStartRow_id e now true) := by
  simp only [stop, overwriteOpen]
  split_ifs with hcount
  · cases lastSessionRow (t.update (openOfKey e.key) (stopRow e now) (stopRow_id e now)) e.key with
    | some prior => exact Or.inl rfl
    | none => exact Or.inr rfl
  · exact Or.inl rfl

def openOfNas (e : Event) (r : Radacct) : Bool :=
  r.tenantId = e.tenantId && r.nasIpAddress = e.nasIpAddress && r.running

def resetRow (e : Event) (now : ℤ) (r : Radacct) : Radacct :=
  { r with acctStopTime := .instant now, acctTerminateCause := e.statusType.text }

@[simp] theorem resetRow_id (e : Event) (now : ℤ) (r : Radacct) :
    (resetRow e now r).radacctid = r.radacctid := rfl

@[simp] theorem resetRow_key (e : Event) (now : ℤ) (r : Radacct) :
    (resetRow e now r).key = r.key := rfl

/-- `debounce` is the value of `HOBERADIUS_ACCT_ONOFF_DEBOUNCE_SEC`. -/
def accountingOnOff (debounce : ℤ) (t : RadacctTable) (now : ℤ) (e : Event) :
    RadacctTable × Reply :=
  if max 0 debounce ≤ 0 then
    (t.update (openOfNas e) (resetRow e now) (resetRow_id e now),
      .nasReset (t.count (openOfNas e)) 0)
  else
    let cutoff := afterSeconds now (-max 0 debounce)
    let stale := fun r => openOfNas e r && r.lastSeen.before cutoff
    (t.update stale (resetRow e now) (resetRow_id e now),
      .nasReset (t.count stale) (t.count fun r => openOfNas e r && r.lastSeen.notBefore cutoff))

def ingestEvent (debounce : ℤ) (t : RadacctTable) (now : ℤ) (e : Event) : RadacctTable × Reply :=
  match e.statusType with
  | .start => start t now e
  | .interimUpdate => interim t now e
  | .stop => stop t now e
  | .accountingOn | .accountingOff => accountingOnOff debounce t now e

def ingest (debounce : ℤ) (t : RadacctTable) (tenantId now : ℤ) (payload : Payload) :
    Except String (RadacctTable × Reply) :=
  (normalize tenantId payload).map (ingestEvent debounce t now)

def staleRow (now : ℤ) (r : Radacct) : Radacct :=
  { r with
    acctStopTime := r.lastSeen.coalesce (.instant now)
    acctTerminateCause := "Stale-Session-Timeout" }

@[simp] theorem staleRow_id (now : ℤ) (r : Radacct) :
    (staleRow now r).radacctid = r.radacctid := rfl

@[simp] theorem staleRow_key (now : ℤ) (r : Radacct) : (staleRow now r).key = r.key := rfl

def markStale (t : RadacctTable) (tenantId now olderThanSeconds : ℤ) : RadacctTable × ℕ :=
  let cutoff := afterSeconds now
    (-max 60 (if olderThanSeconds = 0 then 3600 else olderThanSeconds))
  let stale := fun r : Radacct =>
    r.tenantId = tenantId && r.running && r.lastSeen.before cutoff
  (t.update stale (staleRow now) (staleRow_id now), t.count stale)

end RadiusModule.AccountingEvents
