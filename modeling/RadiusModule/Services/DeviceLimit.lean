import RadiusModule.Core.Types
import RadiusModule.Library.PyText
import Mathlib.Data.List.Sort

/-!
# Device limit

A device slot is claimed just before the Access-Accept. The claim counts the
live sessions of other devices and the claims of other devices whose session
has not shown up in `radacct` yet. All times of one call are read at one
instant `now`, and the window is `live_sessions.window_minutes()`.
-/

namespace RadiusModule.DeviceLimit
open Library PyText

/-- The largest `datetime`, the sort key of a session without any time. -/
def lastInstant : ℤ := 253402300799999999

def lastSeen? (r : Radacct) : Option ℤ := r.acctUpdateTime.time? <|> r.acctStartTime.time?

def stale (cutoff : ℤ) (r : Radacct) : Bool :=
  match lastSeen? r with
  | some last => last < cutoff
  | none => false

def sortStart (r : Radacct) : ℤ :=
  ((r.acctStartTime.time? <|> lastSeen? r).getD lastInstant)

def ofUser (tenantId : ℤ) (username : String) (r : Radacct) : Bool :=
  r.tenantId = tenantId && r.username = username

def liveCutoff (window now : ℤ) : ℤ := afterSeconds now (-(window * 60))

def liveSession (window now tenantId : ℤ) (username : String) (r : Radacct) : Bool :=
  ofUser tenantId username r && r.acctStopTime.isOpen && !stale (liveCutoff window now) r

/-- With `macAware` the sessions of the requesting address are left out. -/
def activeOtherDevices (t : RadacctTable) (window now tenantId : ℤ)
    (username callingStationId : String) (macAware : Bool) : List Radacct :=
  let live := t.select (liveSession window now tenantId username)
  let reqMac := lower (strip callingStationId)
  let others :=
    if macAware && reqMac ≠ "" then
      live.filter fun r => lower (strip r.callingStationId) ≠ reqMac
    else live
  others.insertionSort fun a b => sortStart a ≤ sortStart b

def claimTtlSeconds : ℤ := 60

def toleranceSeconds : ℤ := 10

def macNorm (raw : String) : String := alnum (lower raw)

def deviceKey (callingStationId : String) : String :=
  let mac := macNorm callingStationId
  if mac = "" then "" else String.ofList ('m' :: 'a' :: 'c' :: ':' :: mac.toList)

def keyMac (deviceKey : String) : String :=
  match deviceKey.toList with
  | 'm' :: 'a' :: 'c' :: ':' :: cs => String.ofList cs
  | _ => ""

/-- `INSERT … ON CONFLICT(tenant_id, username, device_key) DO UPDATE`. -/
def upsertClaim (claims : List Claim) (c : Claim) : List Claim :=
  if claims.any c.same then claims.map fun d => if c.same d then c else d
  else claims ++ [c]

def materializedStep (out : String → Option ℤ) (r : Radacct) : String → Option ℤ :=
  let mac := macNorm r.callingStationId
  match r.acctStartTime.time? with
  | some st =>
    if mac ≠ "" ∧ (∀ u ∈ out mac, u < st) then Function.update out mac (some st) else out
  | none => out

/-- The latest start of each device's sessions that began at `since` or later. -/
def materializedMacs (t : RadacctTable) (tenantId : ℤ) (username : String) (since : ℤ) :
    String → Option ℤ :=
  (t.select fun r => ofUser tenantId username r && r.acctStartTime.notBefore since).foldl
    materializedStep fun _ => none

def pendingClaim (liveMacs : List String) (started : String → Option ℤ) (c : Claim) : Bool :=
  let mac := keyMac c.deviceKey
  if mac ≠ "" && liveMacs.contains mac then false
  else match (if mac = "" then none else started mac) with
    | some st => st < afterSeconds c.claimedAt (-toleranceSeconds)
    | none => true

def expired (now : ℤ) (c : Claim) : Bool := c.claimedAt < afterSeconds now (-claimTtlSeconds)

def pendingClaims (claims : List Claim) (t : RadacctTable) (window now tenantId : ℤ)
    (username callingStationId : String) (macAware : Bool) : List Claim :=
  let live := activeOtherDevices t window now tenantId username callingStationId macAware
  let others := (claims.filter fun c => c.tenantId = tenantId && c.username = username &&
    c.deviceKey ≠ deviceKey callingStationId).insertionSort fun a b => a.claimedAt ≤ b.claimedAt
  let started := materializedMacs t tenantId username
    (afterSeconds now (-(claimTtlSeconds + toleranceSeconds)))
  others.filter (pendingClaim (live.map fun r => macNorm r.callingStationId) started)

structure SlotRequest where
  callingStationId : String
  simulate : Bool := false

def claimSlot (claims : List Claim) (t : RadacctTable) (window now tenantId : ℤ)
    (username : String) (req : SlotRequest) (limit : ℤ) (macAware replace : Bool) :
    Bool × List Claim :=
  if limit ≤ 0 then (true, claims)
  else
    let key := deviceKey req.callingStationId
    let kept := claims.filter fun c => !expired now c
    let live := activeOtherDevices t window now tenantId username req.callingStationId macAware
    let pending :=
      pendingClaims kept t window now tenantId username req.callingStationId macAware
    let used : ℤ := live.length + pending.length
    if limit ≤ used && !replace then (false, kept)
    else
      let dropped := if limit ≤ used then pending.take (used - limit + 1).toNat else []
      let freed := kept.filter fun c => !dropped.any c.same
      if key = "" || req.simulate then (true, freed)
      else (true, upsertClaim freed ⟨tenantId, username, key, now⟩)

@[simp] theorem keyMac_deviceKey (mac : String) : keyMac (deviceKey mac) = macNorm mac := by
  by_cases h : macNorm mac = ""
  · simp [deviceKey, keyMac, h]
  · simp [deviceKey, keyMac, h]

theorem deviceKey_ne_empty {mac : String} (h : macNorm mac ≠ "") : deviceKey mac ≠ "" := by
  intro he
  have := congrArg keyMac he
  rw [keyMac_deviceKey] at this
  exact h this

theorem macNorm_eq_of_lower_strip_eq {mac mac' : String}
    (h : lower (strip mac) = lower (strip mac')) : macNorm mac = macNorm mac' := by
  rw [macNorm, macNorm, ← alnum_lower_strip mac, h, alnum_lower_strip]

theorem mem_activeOtherDevices {t : RadacctTable} {window now tenantId : ℤ}
    {username mac : String} {macAware : Bool} {r : Radacct} (hr : r ∈ t.rows)
    (hlive : liveSession window now tenantId username r = true)
    (hne : macNorm r.callingStationId ≠ macNorm mac) :
    r ∈ activeOtherDevices t window now tenantId username mac macAware := by
  have hsel : r ∈ t.select (liveSession window now tenantId username) :=
    Table.mem_select.mpr ⟨hr, hlive⟩
  simp only [activeOtherDevices, List.mem_insertionSort]
  split_ifs
  · refine List.mem_filter.mpr ⟨hsel, ?_⟩
    exact decide_eq_true fun h => hne (macNorm_eq_of_lower_strip_eq h)
  · exact hsel

theorem materializedStep_some {out : String → Option ℤ} {r : Radacct} {mac : String} {st : ℤ}
    (h : materializedStep out r mac = some st) : out mac = some st ∨
      macNorm r.callingStationId = mac ∧ r.acctStartTime = .instant st := by
  unfold materializedStep at h
  cases hs : r.acctStartTime with
  | null => exact Or.inl (by simpa [hs, Stamp.time?] using h)
  | blank => exact Or.inl (by simpa [hs, Stamp.time?] using h)
  | instant u =>
    simp only [hs, Stamp.time?] at h
    split_ifs at h
    · by_cases hm : mac = macNorm r.callingStationId
      · rw [hm, Function.update_self] at h
        exact Or.inr ⟨hm.symm, congrArg Stamp.instant (Option.some.inj h)⟩
      · rw [Function.update_of_ne hm] at h
        exact Or.inl h
    · exact Or.inl h

theorem mem_of_materializedMacs {t : RadacctTable} {tenantId since st : ℤ}
    {username mac : String} (h : materializedMacs t tenantId username since mac = some st) :
    ∃ r ∈ t.rows, ofUser tenantId username r = true ∧ macNorm r.callingStationId = mac ∧
      r.acctStartTime = .instant st := by
  have hfold : ∀ (rows : List Radacct) (out : String → Option ℤ),
      rows.foldl materializedStep out mac = some st → out mac = some st ∨
        ∃ r ∈ rows, macNorm r.callingStationId = mac ∧ r.acctStartTime = .instant st := by
    intro rows
    induction rows with
    | nil => exact fun out h => Or.inl h
    | cons r rows ih =>
      intro out h
      rcases ih _ h with hstep | ⟨q, hq, hqs⟩
      · rcases materializedStep_some hstep with hout | hr
        · exact Or.inl hout
        · exact Or.inr ⟨r, List.mem_cons_self, hr⟩
      · exact Or.inr ⟨q, List.mem_cons_of_mem _ hq, hqs⟩
  rcases hfold _ _ h with h | ⟨r, hr, hmac, hst⟩
  · cases h
  · obtain ⟨hmem, hp⟩ := Table.mem_select.mp hr
    exact ⟨r, hmem, (Bool.and_eq_true_iff.mp hp).1, hmac, hst⟩

end RadiusModule.DeviceLimit
