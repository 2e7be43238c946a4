import RadiusModule.Library.Table

/-!
# The accounting table

An instant is a number of microseconds since the epoch. A time column of `radacct`
holds NULL, an empty text or an instant; an empty text sorts before every
instant and a comparison with NULL selects nothing. A row is addressed by the
tenant, the session id and the NAS address of the packets that report on it.
-/

namespace RadiusModule
open Library

def second : ℤ := 1000000

/-- 0001-01-01T00:00:00, the first instant a `datetime` holds. -/
def firstInstant : ℤ := -62135596800 * second

def afterSeconds (t secs : ℤ) : ℤ := t + secs * second

def floorSecond (t : ℤ) : ℤ := t / second * second

theorem floorSecond_le (t : ℤ) : floorSecond t ≤ t := by
  simp only [floorSecond, second]
  omega

theorem floorSecond_mono {s t : ℤ} (h : s ≤ t) : floorSecond s ≤ floorSecond t := by
  simp only [floorSecond, second]
  omega

@[simp] theorem floorSecond_floorSecond (t : ℤ) :
    floorSecond (floorSecond t) = floorSecond t := by
  simp only [floorSecond, second]
  omega

inductive Stamp
  | null
  | blank
  | instant (t : ℤ)
deriving DecidableEq, Repr

namespace Stamp

def isNull : Stamp → Bool
  | null => true
  | _ => false

/-- `column IS NULL OR column = ''`. -/
def isOpen : Stamp → Bool
  | instant _ => false
  | _ => true

def time? : Stamp → Option ℤ
  | instant t => some t
  | _ => none

def coalesce : Stamp → Stamp → Stamp
  | null, s => s
  | s, _ => s

def before (s : Stamp) (t : ℤ) : Bool :=
  match s with
  | null => false
  | blank => true
  | instant u => u < t

def notBefore (s : Stamp) (t : ℤ) : Bool :=
  match s with
  | instant u => t ≤ u
  | _ => false

def after (s : Stamp) (t : ℤ) : Bool :=
  match s with
  | instant u => t < u
  | _ => false

@[simp] theorem isNull_instant (t : ℤ) : (instant t).isNull = false := rfl
@[simp] theorem isNull_null : null.isNull = true := rfl

theorem isNull_coalesce (s u : Stamp) : (s.coalesce u).isNull = (s.isNull && u.isNull) := by
  cases s <;> rfl

end Stamp

structure Radacct where
  radacctid : ℕ
  tenantId : ℤ
  acctSessionId : String := ""
  acctUniqueId : String := ""
  username : String := ""
  nasIpAddress : String := ""
  acctStartTime : Stamp := .null
  acctUpdateTime : Stamp := .null
  acctStopTime : Stamp := .null
  acctSessionTime : ℤ := 0
  acctInputOctets : ℕ := 0
  acctOutputOctets : ℕ := 0
  callingStationId : String := ""
  calledStationId : String := ""
  framedIpAddress : String := ""
  acctTerminateCause : String := ""
deriving DecidableEq, Repr

structure SessionKey where
  tenantId : ℤ
  acctSessionId : String
  nasIpAddress : String
deriving DecidableEq, Repr

abbrev Counters := ℕ × ℕ × ℤ

namespace Radacct

def key (r : Radacct) : SessionKey := ⟨r.tenantId, r.acctSessionId, r.nasIpAddress⟩

def counters (r : Radacct) : Counters := (r.acctInputOctets, r.acctOutputOctets, r.acctSessionTime)

def running (r : Radacct) : Bool := r.acctStopTime.isNull

def lastSeen (r : Radacct) : Stamp := r.acctUpdateTime.coalesce r.acctStartTime

end Radacct

abbrev RadacctTable := Table Radacct Radacct.radacctid

end RadiusModule
