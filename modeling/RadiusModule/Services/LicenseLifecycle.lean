import Mathlib.Data.Rat.Floor
import RadiusModule.Library.Json
import RadiusModule.Library.PyText

/-!
# The life of the license

Every page of the panel asks whether the license still opens it. The answer is
a cascade over the snapshots that the provider's answers were kept in: a status
that closes, an embedded license, grants alone, an expiry with its grace, and
the age of the last answer. Instants are counted in microseconds.
-/

namespace RadiusModule.LicenseLifecycle
open Library PyText

inductive LifecycleState
  | neverActivated
  | active
  | expired
  | syncOutageInGrace
  | syncOutageBeyondGrace
deriving DecidableEq, Repr

def LifecycleState.blocksPanel : LifecycleState → Bool
  | neverActivated | expired | syncOutageBeyondGrace => true
  | active | syncOutageInGrace => false

structure LifecycleDecision where
  state : LifecycleState
  reason : String := ""
  lastStatus : String := ""
  expiresAt : Option String := none
  graceUntil : Option String := none
  fetchedAt : Option String := none
  staleDays : ℚ := 0
  graceRemainingDays : ℚ := 0

inductive IsoInstant
  | naive (t : ℤ)
  | aware (t : ℤ)
deriving DecidableEq, Repr

def IsoInstant.utc : IsoInstant → ℤ
  | naive t => t
  | aware t => t

/-- A row of the snapshots. The store stamps it with its own clock; `fetched` is the instant
of the stamp. -/
structure Snapshot where
  normalizedStatus : String
  payload : Json
  fetchedAt : String := ""
  fetched : Option ℤ := none
  staleAfterSeconds : ℤ := 86400

/-- What the store answers: the last license snapshot, the last successful one, and the last
successful capacity contract. -/
structure Store where
  latest : Option Snapshot := none
  success : Option Snapshot := none
  capacity : Option Snapshot := none

/-- `can't compare offset-naive and offset-aware datetimes` -/
inductive Raised
  | typeError
deriving DecidableEq, Repr

def blockingStatuses : List String :=
  ["inactive", "expired", "blocked", "suspended", "revoked", "denied", "disabled", "not_found",
    "invalid_request", "fingerprint_denied"]

def activeStatuses : List String := ["active", "valid", "ok", "healthy", "grace"]

/-- `a or b` -/
def either (a b : Json) : Json := if a.truthy then a else b

/-- `str(v) if v else None` -/
def shown (v : Json) : Option String := if v.truthy then some v.text else none

/-- `str(v or "").strip().lower()` -/
def normal (v : Json) : String := lower (strip (either v (.str "")).text)

def fieldsOf : Json → List (String × Json)
  | .obj fields => fields
  | _ => []

def isDict : Json → Bool
  | .obj _ => true
  | _ => false

def embeddedKeys : List String := ["expires_at", "grace_until", "mode", "active", "status"]

/-- `_extract_license_payload`, as what it gives under a key -/
def extractLicensePayload (snapshot : Snapshot) (key : String) : Json :=
  let payload := fieldsOf snapshot.payload
  let license := fieldsOf (Json.get (fieldsOf (Json.get payload "contract")) "license")
  if (payload.lookup key).isNone ∧ key ∈ embeddedKeys then Json.get license key
  else Json.get payload key

def capacityLicense (payload : List (String × Json)) : Option (List (String × Json)) :=
  match Json.get payload "license" with
  | .obj license => some license
  | _ =>
    match Json.get (fieldsOf (Json.get payload "contract")) "license" with
    | .obj license => some license
    | _ => none

def isTrue : Json → Bool
  | .bool b => b
  | _ => false

def activatedFromLicenseBlock (license : List (String × Json)) : Bool :=
  isTrue (Json.get license "activated") || isTrue (Json.get license "active") ||
    ["status", "state"].any fun key => activeStatuses.contains (normal (Json.get license key))

def fullDict (v : Json) : Bool := isDict v && v.truthy

def grantKeys : List String := ["services", "limits", "features"]

def hasGrants (payload : List (String × Json)) : Bool :=
  grantKeys.any (fun key => fullDict (Json.get payload key)) ||
    grantKeys.any fun key => fullDict (Json.get (fieldsOf (Json.get payload "contract")) key)

section
variable (fromisoformat : String → Option IsoInstant) (syncGraceDays : ℚ)

def parseIso (v : Json) : Option IsoInstant :=
  if v.truthy then fromisoformat (String.ofList (v.text.toList.filter (· ≠ 'Z'))) else none

/-- `now > t` -/
def isPast (now : ℤ) : IsoInstant → Except Raised Bool
  | .naive t => .ok (t < now)
  | .aware _ => .error .typeError

def isOver (now : ℤ) (expires grace : Option IsoInstant) : Except Raised Bool :=
  match expires with
  | none => .ok false
  | some e => do
    if ← isPast now e then
      match grace with
      | none => return true
      | some g => isPast now g
    else return false

def microsPerDay : ℚ := 86400000000

def Snapshot.staleAfter (s : Snapshot) : ℤ :=
  if s.staleAfterSeconds = 0 then 86400 else s.staleAfterSeconds

def evaluateCapacity (s : Snapshot) (now : ℤ) : Except Raised LifecycleDecision :=
  let payload := fieldsOf s.payload
  let never : LifecycleDecision :=
    { state := .neverActivated, reason := "no_successful_license_snapshot" }
  let granted : LifecycleDecision :=
    if hasGrants payload then
      { state := .active, reason := "active_via_capacity_grants"
        lastStatus := (either (Json.get payload "status") (.str "active")).text
        fetchedAt := shown (.str s.fetchedAt) }
    else never
  match capacityLicense payload with
  | none => .ok granted
  | some license =>
    let status := normal (either (Json.get license "status") (Json.get license "state"))
    let decision (state : LifecycleState) (reason lastStatus : String) : LifecycleDecision :=
      { state, reason, lastStatus
        expiresAt := shown (Json.get license "expires_at")
        graceUntil := shown (Json.get license "grace_until")
        fetchedAt := shown (.str s.fetchedAt) }
    if status ∈ blockingStatuses then .ok (decision .expired ("status_" ++ status) status)
    else if activatedFromLicenseBlock license then do
      if ← isOver now (parseIso fromisoformat (Json.get license "expires_at"))
          (parseIso fromisoformat (Json.get license "grace_until")) then
        return decision .expired "expires_at_passed"
          (either (Json.get license "status") (.str "expired")).text
      else
        return decision .active "active_via_capacity_license_block"
          (either (either (Json.get license "status") (Json.get license "state"))
            (.str "active")).text
    else .ok granted

/-- The part of `evaluate` on a successful license snapshot. -/
def evaluateLicense (s : Snapshot) (now : ℤ) : Except Raised LifecycleDecision :=
  let payload := extractLicensePayload s
  let status := normal (either (payload "status") (.str s.normalizedStatus))
  let decision (state : LifecycleState) (reason lastStatus : String) : LifecycleDecision :=
    { state, reason, lastStatus
      expiresAt := shown (payload "expires_at")
      graceUntil := shown (payload "grace_until")
      fetchedAt := shown (.str s.fetchedAt) }
  let orActive := if status = "" then "active" else status
  if status ∈ blockingStatuses then .ok (decision .expired ("status_" ++ status) status)
  else do
    if ← isOver now (parseIso fromisoformat (payload "expires_at"))
        (parseIso fromisoformat (payload "grace_until")) then
      return decision .expired "expires_at_passed" (if status = "" then "expired" else status)
    else
      match s.fetched with
      | none => return decision .active "active" orActive
      | some fetched =>
        let staleDays : ℚ := max 0 ((now - fetched : ℤ) / microsPerDay)
        if s.staleAfter * 1000000 < now - fetched then
          if syncGraceDays < staleDays then
            return { decision .syncOutageBeyondGrace "sync_grace_exhausted" orActive with
              staleDays }
          else
            return { decision .syncOutageInGrace "sync_stale_within_grace" orActive with
              staleDays, graceRemainingDays := max 0 (syncGraceDays - staleDays) }
        else return decision .active "active" orActive

def evaluate (store : Store) (now : ℤ) : Except Raised LifecycleDecision :=
  match store.latest.bind fun s =>
    if normal (.str s.normalizedStatus) ∈ blockingStatuses then some s else none with
  | some s =>
    let status := normal (.str s.normalizedStatus)
    .ok { state := .expired, reason := "status_" ++ status, lastStatus := status
          expiresAt := shown (extractLicensePayload s "expires_at")
          graceUntil := shown (extractLicensePayload s "grace_until")
          fetchedAt := shown (.str s.fetchedAt) }
  | none =>
    match store.success, store.capacity with
    | some s, _ => evaluateLicense fromisoformat syncGraceDays s now
    | none, some s => evaluateCapacity fromisoformat s now
    | none, none =>
      .ok { state := .neverActivated, reason := "no_successful_license_snapshot" }

end

/-- What a store says once and for all: it closes the panel, it opens it, or it leaves the matter
to the expiry, the grace and the age of a snapshot. -/
inductive Verdict
  | closed
  | opened
  | dated (expires grace : Option IsoInstant) (synced : Option (ℤ × ℤ))
deriving DecidableEq

section
variable (fromisoformat : String → Option IsoInstant) (syncGraceDays : ℚ)

def closesAt (now : ℤ) : Verdict → Except Raised Bool
  | .closed => .ok true
  | .opened => .ok false
  | .dated expires grace synced => (isOver now expires grace).map fun past =>
    past || synced.any fun (fetched, staleAfter) =>
      staleAfter * 1000000 < now - fetched &&
        decide (syncGraceDays < max 0 ((now - fetched : ℤ) / microsPerDay))

def capacityVerdict (s : Snapshot) : Verdict :=
  let payload := fieldsOf s.payload
  let granted := if hasGrants payload then Verdict.opened else .closed
  match capacityLicense payload with
  | none => granted
  | some license =>
    if normal (either (Json.get license "status") (Json.get license "state")) ∈
        blockingStatuses then .closed
    else if activatedFromLicenseBlock license then
      .dated (parseIso fromisoformat (Json.get license "expires_at"))
        (parseIso fromisoformat (Json.get license "grace_until")) none
    else granted

def licenseVerdict (s : Snapshot) : Verdict :=
  if normal (either (extractLicensePayload s "status") (.str s.normalizedStatus)) ∈
      blockingStatuses then .closed
  else .dated (parseIso fromisoformat (extractLicensePayload s "expires_at"))
    (parseIso fromisoformat (extractLicensePayload s "grace_until"))
    (s.fetched.map fun fetched => (fetched, s.staleAfter))

def verdict (store : Store) : Verdict :=
  match store.latest.bind fun s =>
    if normal (.str s.normalizedStatus) ∈ blockingStatuses then some s else none with
  | some _ => .closed
  | none =>
    match store.success, store.capacity with
    | some s, _ => licenseVerdict fromisoformat s
    | none, some s => capacityVerdict fromisoformat s
    | none, none => .closed

def Blocks (store : Store) (now : ℤ) : Prop :=
  ∃ d, evaluate fromisoformat syncGraceDays store now = .ok d ∧ d.state.blocksPanel = true

def relied (store : Store) : Option Snapshot := store.success.or store.capacity

def terms (store : Store) : Option IsoInstant × Option IsoInstant :=
  match store.success, store.capacity with
  | some s, _ => (parseIso fromisoformat (extractLicensePayload s "expires_at"),
      parseIso fromisoformat (extractLicensePayload s "grace_until"))
  | none, some s =>
    match capacityLicense (fieldsOf s.payload) with
    | some license => (parseIso fromisoformat (Json.get license "expires_at"),
        parseIso fromisoformat (Json.get license "grace_until"))
    | none => (none, none)
  | none, none => (none, none)

def Lapsed (expires grace : Option IsoInstant) (now : ℤ) : Prop :=
  ∃ e, expires = some e ∧ e.utc < now ∧ ∀ g, grace = some g → g.utc < now

def TooOld (s : Snapshot) (now : ℤ) : Prop :=
  ∃ fetched, s.fetched = some fetched ∧ s.staleAfter * 1000000 < now - fetched ∧
    syncGraceDays * microsPerDay < ((now - fetched : ℤ) : ℚ)

structure DecisionKept (store : Store) : Prop where
  total : ∀ now, ∃ d, evaluate fromisoformat syncGraceDays store now = .ok d
  monotone : ∀ now later, now ≤ later → Blocks fromisoformat syncGraceDays store now →
    Blocks fromisoformat syncGraceDays store later
  lapsed : ∀ now, Lapsed (terms fromisoformat store).1 (terms fromisoformat store).2 now →
    Blocks fromisoformat syncGraceDays store now
  outdated : ∀ now, ∀ s ∈ relied store, TooOld syncGraceDays s now →
    Blocks fromisoformat syncGraceDays store now

def Comparable (expires grace : Option IsoInstant) : Prop :=
  (∀ t, expires ≠ some (.aware t)) ∧ (expires ≠ none → ∀ t, grace ≠ some (.aware t))

def EndsBefore (s : Snapshot) (expires grace : Option IsoInstant) : Prop :=
  ∀ fetched, s.fetched = some fetched → ∃ e, expires = some e ∧
    max e.utc (grace.elim e.utc IsoInstant.utc) ≤
      fetched + max (s.staleAfter * 1000000) ⌊syncGraceDays * microsPerDay⌋

def Sound (store : Store) : Prop :=
  match verdict fromisoformat store with
  | .closed => True
  | .opened => (terms fromisoformat store).1 = none ∧ ∀ s ∈ relied store, s.fetched = none
  | .dated expires grace _ => Comparable expires grace ∧
    (store.success = none → ∀ s ∈ relied store, EndsBefore syncGraceDays s expires grace)

end

section
variable {fromisoformat : String → Option IsoInstant} {syncGraceDays : ℚ}

theorem evaluateCapacity_closes (s : Snapshot) (now : ℤ) :
    (evaluateCapacity fromisoformat s now).map (·.state.blocksPanel) =
      closesAt syncGraceDays now (capacityVerdict fromisoformat s) := by
  rw [evaluateCapacity, capacityVerdict]
  dsimp only
  cases capacityLicense (fieldsOf s.payload) with
  | none => cases hasGrants (fieldsOf s.payload) <;> rfl
  | some license =>
    dsimp only
    by_cases hblocking : normal (either (Json.get license "status") (Json.get license "state")) ∈
        blockingStatuses
    · rw [if_pos hblocking, if_pos hblocking]
      rfl
    · rw [if_neg hblocking, if_neg hblocking]
      cases activatedFromLicenseBlock license with
      | false => cases hasGrants (fieldsOf s.payload) <;> rfl
      | true =>
        rw [if_pos rfl, if_pos rfl, closesAt]
        cases isOver now (parseIso fromisoformat (Json.get license "expires_at"))
            (parseIso fromisoformat (Json.get license "grace_until")) with
        | error e => rfl
        | ok past => cases past <;> rfl

theorem evaluateLicense_closes (s : Snapshot) (now : ℤ) :
    (evaluateLicense fromisoformat syncGraceDays s now).map (·.state.blocksPanel) =
      closesAt syncGraceDays now (licenseVerdict fromisoformat s) := by
  rw [evaluateLicense, licenseVerdict]
  dsimp only
  by_cases hblocking : normal (either (extractLicensePayload s "status")
      (.str s.normalizedStatus)) ∈ blockingStatuses
  · rw [if_pos hblocking, if_pos hblocking]
    rfl
  · rw [if_neg hblocking, if_neg hblocking, closesAt]
    cases isOver now (parseIso fromisoformat (extractLicensePayload s "expires_at"))
        (parseIso fromisoformat (extractLicensePayload s "grace_until")) with
    | error e => rfl
    | ok past =>
      cases past with
      | true => rfl
      | false =>
        cases s.fetched with
        | none => rfl
        | some fetched =>
          by_cases hstale : s.staleAfter * 1000000 < now - fetched
          · by_cases hgrace : syncGraceDays < max 0 ((now - fetched : ℤ) / microsPerDay)
            · simp only [bind, Except.bind, Except.map, Option.map_some, Option.any_some,
                Bool.false_eq_true, if_false, Bool.false_or, if_pos hstale, if_pos hgrace,
                decide_eq_true hstale, decide_eq_true hgrace]
              rfl
            · simp only [bind, Except.bind, Except.map, Option.map_some, Option.any_some,
                Bool.false_eq_true, if_false, Bool.false_or, if_pos hstale, if_neg hgrace,
                decide_eq_true hstale, decide_eq_false hgrace]
              rfl
          · simp only [bind, Except.bind, Except.map, Option.map_some, Option.any_some,
              Bool.false_eq_true, if_false, Bool.false_or, if_neg hstale,
              decide_eq_false hstale]
            rfl

theorem evaluate_closes (store : Store) (now : ℤ) :
    (evaluate fromisoformat syncGraceDays store now).map (·.state.blocksPanel) =
      closesAt syncGraceDays now (verdict fromisoformat store) := by
  rw [evaluate, verdict]
  cases store.latest.bind _ with
  | some s => rfl
  | none =>
    cases hsuccess : store.success with
    | some s => exact evaluateLicense_closes s now
    | none =>
      cases hcapacity : store.capacity with
      | some s => exact evaluateCapacity_closes s now
      | none => rfl

theorem total_iff (store : Store) (now : ℤ) :
    (∃ d, evaluate fromisoformat syncGraceDays store now = .ok d) ↔
      ∃ b, closesAt syncGraceDays now (verdict fromisoformat store) = .ok b := by
  rw [← evaluate_closes]
  cases evaluate fromisoformat syncGraceDays store now with
  | error e => simp [Except.map]
  | ok d => simp [Except.map]

theorem blocks_iff (store : Store) (now : ℤ) :
    Blocks fromisoformat syncGraceDays store now ↔
      closesAt syncGraceDays now (verdict fromisoformat store) = .ok true := by
  rw [← evaluate_closes, Blocks]
  cases evaluate fromisoformat syncGraceDays store now with
  | error e => simp [Except.map]
  | ok d => simp [Except.map]

theorem isOver_of_comparable {expires grace : Option IsoInstant}
    (hcomparable : Comparable expires grace) (now : ℤ) :
    ∃ b, isOver now expires grace = .ok b ∧ (b = true ↔ Lapsed expires grace now) := by
  obtain ⟨hexpires, hgrace⟩ := hcomparable
  rcases expires with - | (e | e)
  · exact ⟨false, rfl, by simp [Lapsed]⟩
  · rcases grace with - | (g | g)
    · refine ⟨decide (e < now), ?_, by simp [Lapsed, IsoInstant.utc]⟩
      by_cases h : e < now <;> simp [isOver, isPast, h, bind, Except.bind, pure, Except.pure]
    · refine ⟨decide (e < now) && decide (g < now), ?_, by simp [Lapsed, IsoInstant.utc]⟩
      by_cases h : e < now <;> simp [isOver, isPast, h, bind, Except.bind, pure, Except.pure]
    · exact absurd rfl (hgrace (by simp) g)
  · exact absurd rfl (hexpires e)

theorem comparable_iff {expires grace : Option IsoInstant} :
    (∀ now, ∃ b, isOver now expires grace = .ok b) ↔ Comparable expires grace := by
  constructor
  · intro htotal
    refine ⟨?_, ?_⟩
    · rintro t rfl
      obtain ⟨b, hb⟩ := htotal 0
      simp [isOver, isPast, bind, Except.bind] at hb
    · rintro hexpires g rfl
      rcases expires with - | (e | e)
      · exact hexpires rfl
      · obtain ⟨b, hb⟩ := htotal (e + 1)
        simp [isOver, isPast, bind, Except.bind] at hb
      · obtain ⟨b, hb⟩ := htotal 0
        simp [isOver, isPast, bind, Except.bind] at hb
  · intro hcomparable now
    obtain ⟨b, hb, -⟩ := isOver_of_comparable hcomparable now
    exact ⟨b, hb⟩

theorem Lapsed.mono {expires grace : Option IsoInstant} {now later : ℤ}
    (h : Lapsed expires grace now) (hle : now ≤ later) : Lapsed expires grace later := by
  obtain ⟨e, rfl, he, hg⟩ := h
  exact ⟨e, rfl, he.trans_le hle, fun g hgrace => (hg g hgrace).trans_le hle⟩

theorem exists_lapsed {expires : Option IsoInstant} {e : IsoInstant} (he : expires = some e)
    (grace : Option IsoInstant) : ∃ now, Lapsed expires grace now := by
  cases grace with
  | none => exact ⟨e.utc + 1, e, he, by omega, by simp⟩
  | some g =>
    refine ⟨max e.utc g.utc + 1, e, he, by omega, ?_⟩
    rintro g' hg'
    cases hg'
    omega

theorem tooOld_iff {s : Snapshot} {fetched now : ℤ} (hfetched : s.fetched = some fetched) :
    TooOld syncGraceDays s now ↔
      fetched + max (s.staleAfter * 1000000) ⌊syncGraceDays * microsPerDay⌋ < now := by
  have hfloor : syncGraceDays * microsPerDay < ((now - fetched : ℤ) : ℚ) ↔
      ⌊syncGraceDays * microsPerDay⌋ < now - fetched := Int.floor_lt.symm
  constructor
  · rintro ⟨fetched', hfetched', hstale, hgrace⟩
    obtain rfl : fetched = fetched' := by simpa [hfetched] using hfetched'
    have := hfloor.mp hgrace
    omega
  · intro h
    exact ⟨fetched, hfetched, by omega, hfloor.mpr (by omega)⟩

/-- The snapshot has passed both limits, as `evaluate` compares them. -/
def outdated (syncGraceDays : ℚ) (now : ℤ) (synced : ℤ × ℤ) : Bool :=
  decide (synced.2 * 1000000 < now - synced.1) &&
    decide (syncGraceDays < max 0 ((now - synced.1 : ℤ) / microsPerDay))

theorem closesAt_dated (syncGraceDays : ℚ) {expires grace : Option IsoInstant}
    (hcomparable : Comparable expires grace) (synced : Option (ℤ × ℤ)) (now : ℤ) :
    ∃ b, closesAt syncGraceDays now (.dated expires grace synced) = .ok b ∧
      (b = true ↔ Lapsed expires grace now ∨
        ∃ sync ∈ synced, outdated syncGraceDays now sync = true) := by
  obtain ⟨past, hover, hlapsed⟩ := isOver_of_comparable hcomparable now
  refine ⟨past || synced.any (outdated syncGraceDays now), ?_, ?_⟩
  · rw [closesAt, hover]
    rfl
  · cases synced with
    | none => simpa using hlapsed
    | some sync => simp [hlapsed]

theorem outdated_mono {synced : ℤ × ℤ} {now later : ℤ}
    (h : outdated syncGraceDays now synced = true) (hle : now ≤ later) :
    outdated syncGraceDays later synced = true := by
  simp only [outdated, Bool.and_eq_true, decide_eq_true_eq] at h ⊢
  refine ⟨by omega, h.2.trans_le (max_le_max le_rfl ?_)⟩
  have hcast : ((now - synced.1 : ℤ) : ℚ) ≤ ((later - synced.1 : ℤ) : ℚ) := by
    exact_mod_cast (by omega : now - synced.1 ≤ later - synced.1)
  exact div_le_div_of_nonneg_right hcast (by norm_num [microsPerDay])

theorem TooOld.outdated {s : Snapshot} {now : ℤ} (h : TooOld syncGraceDays s now) :
    ∃ sync ∈ s.fetched.map (fun fetched => (fetched, s.staleAfter)),
      outdated syncGraceDays now sync = true := by
  obtain ⟨fetched, hfetched, hstale, hgrace⟩ := h
  refine ⟨(fetched, s.staleAfter), by simp [hfetched], ?_⟩
  simp only [LicenseLifecycle.outdated, Bool.and_eq_true, decide_eq_true_eq]
  refine ⟨hstale, lt_max_of_lt_right ?_⟩
  rwa [lt_div_iff₀ (by norm_num [microsPerDay])]

theorem verdict_dated {store : Store} {expires grace : Option IsoInstant}
    {synced : Option (ℤ × ℤ)} (h : verdict fromisoformat store = .dated expires grace synced) :
    terms fromisoformat store = (expires, grace) ∧
      ((∃ s, store.success = some s ∧
          synced = s.fetched.map fun fetched => (fetched, s.staleAfter)) ∨
        (store.success = none ∧ synced = none)) := by
  rw [verdict] at h
  rw [terms]
  split at h
  · exact absurd h (by simp)
  · cases hsuccess : store.success with
    | some s =>
      rw [hsuccess] at h
      dsimp only [licenseVerdict] at h
      split_ifs at h
      simp only [Verdict.dated.injEq] at h
      obtain ⟨rfl, rfl, rfl⟩ := h
      exact ⟨rfl, .inl ⟨s, rfl, rfl⟩⟩
    | none =>
      rw [hsuccess] at h
      cases hcapacity : store.capacity with
      | none =>
        rw [hcapacity] at h
        exact absurd h (by simp)
      | some s =>
        rw [hcapacity] at h
        dsimp only [capacityVerdict] at h ⊢
        cases hlicense : capacityLicense (fieldsOf s.payload) with
        | none =>
          rw [hlicense] at h
          dsimp only at h
          split_ifs at h
        | some license =>
          rw [hlicense] at h
          dsimp only at h ⊢
          split_ifs at h
          simp only [Verdict.dated.injEq] at h
          obtain ⟨rfl, rfl, rfl⟩ := h
          exact ⟨rfl, .inr ⟨rfl, rfl⟩⟩

theorem exists_tooOld (syncGraceDays : ℚ) {s : Snapshot} {fetched : ℤ}
    (hfetched : s.fetched = some fetched) : ∃ now, TooOld syncGraceDays s now :=
  ⟨_, (tooOld_iff hfetched).mpr (lt_add_one _)⟩

theorem lapsed_of_endsBefore {s : Snapshot} {expires grace : Option IsoInstant} {now : ℤ}
    (hends : EndsBefore syncGraceDays s expires grace) (hold : TooOld syncGraceDays s now) :
    Lapsed expires grace now := by
  obtain ⟨fetched, hfetched, -⟩ := id hold
  obtain ⟨e, rfl, hle⟩ := hends fetched hfetched
  have hnow := (tooOld_iff hfetched).mp hold
  refine ⟨e, rfl, by omega, ?_⟩
  rintro g rfl
  simp only [Option.elim_some] at hle
  omega

theorem endsBefore_of_lapsed {s : Snapshot} {expires grace : Option IsoInstant}
    (h : ∀ now, TooOld syncGraceDays s now → Lapsed expires grace now) :
    EndsBefore syncGraceDays s expires grace := by
  intro fetched hfetched
  obtain ⟨e, rfl, he, hg⟩ := h _ ((tooOld_iff hfetched).mpr (lt_add_one _))
  refine ⟨e, rfl, ?_⟩
  cases grace with
  | none => simp only [Option.elim_none]; omega
  | some g =>
    have := hg g rfl
    simp only [Option.elim_some]
    omega

theorem kept_of_closed {store : Store} (hverdict : verdict fromisoformat store = .closed) :
    DecisionKept fromisoformat syncGraceDays store := by
  have hblocks (now : ℤ) : Blocks fromisoformat syncGraceDays store now := by
    rw [blocks_iff, hverdict]
    rfl
  refine ⟨fun now => ?_, fun _ later _ _ => hblocks later, fun now _ => hblocks now,
    fun now _ _ _ => hblocks now⟩
  obtain ⟨d, hd, -⟩ := hblocks now
  exact ⟨d, hd⟩

theorem kept_iff_of_opened {store : Store} (hverdict : verdict fromisoformat store = .opened) :
    DecisionKept fromisoformat syncGraceDays store ↔
      (terms fromisoformat store).1 = none ∧ ∀ s ∈ relied store, s.fetched = none := by
  have hopen (now : ℤ) : ¬ Blocks fromisoformat syncGraceDays store now := by
    rw [blocks_iff, hverdict]
    simp [closesAt]
  constructor
  · intro hkept
    constructor
    · by_contra hexpires
      obtain ⟨e, he⟩ := Option.ne_none_iff_exists'.mp hexpires
      obtain ⟨now, hnow⟩ := exists_lapsed he (terms fromisoformat store).2
      exact hopen now (hkept.lapsed now hnow)
    · intro s hs
      by_contra hfetched
      obtain ⟨fetched, hf⟩ := Option.ne_none_iff_exists'.mp hfetched
      obtain ⟨now, hnow⟩ := exists_tooOld syncGraceDays hf
      exact hopen now (hkept.outdated now s hs hnow)
  · rintro ⟨hexpires, hfetched⟩
    refine ⟨fun now => ?_, fun now _ _ h => absurd h (hopen now), ?_, ?_⟩
    · rw [total_iff, hverdict]
      exact ⟨false, rfl⟩
    · rintro now ⟨e, he, -⟩
      simp [hexpires] at he
    · rintro now s hs ⟨fetched, hf, -⟩
      simp [hfetched s hs] at hf

theorem kept_iff_of_dated {store : Store} {expires grace : Option IsoInstant}
    {synced : Option (ℤ × ℤ)}
    (hverdict : verdict fromisoformat store = .dated expires grace synced) :
    DecisionKept fromisoformat syncGraceDays store ↔ Comparable expires grace ∧
      (store.success = none → ∀ s ∈ relied store, EndsBefore syncGraceDays s expires grace) := by
  obtain ⟨hterms, hsynced⟩ := verdict_dated hverdict
  have hblocks (hcomparable : Comparable expires grace) (now : ℤ) :
      Blocks fromisoformat syncGraceDays store now ↔ Lapsed expires grace now ∨
        ∃ sync ∈ synced, outdated syncGraceDays now sync = true := by
    obtain ⟨b, hb, hiff⟩ := closesAt_dated syncGraceDays hcomparable synced now
    rw [blocks_iff, hverdict, hb, ← hiff]
    simp
  constructor
  · intro hkept
    have hcomparable : Comparable expires grace := by
      refine comparable_iff.mp fun now => ?_
      obtain ⟨b, hb⟩ := (total_iff store now).mp (hkept.total now)
      rw [hverdict, closesAt] at hb
      cases hover : isOver now expires grace with
      | error e => simp [hover, Except.map] at hb
      | ok past => exact ⟨past, rfl⟩
    refine ⟨hcomparable, fun hsuccess s hs => endsBefore_of_lapsed fun now hold => ?_⟩
    obtain ⟨-, rfl⟩ : store.success = none ∧ synced = none := by
      rcases hsynced with ⟨s', hs', -⟩ | h
      · simp [hs'] at hsuccess
      · exact h
    simpa using (hblocks hcomparable now).mp (hkept.outdated now s hs hold)
  · rintro ⟨hcomparable, hends⟩
    refine ⟨fun now => ?_, fun now later hle h => ?_, fun now h => ?_, fun now s hs hold => ?_⟩
    · obtain ⟨b, hb, -⟩ :=
        closesAt_dated syncGraceDays hcomparable synced now
      rw [total_iff, hverdict]
      exact ⟨b, hb⟩
    · rw [hblocks hcomparable] at h ⊢
      refine h.imp (·.mono hle) ?_
      rintro ⟨sync, hsync, hold⟩
      exact ⟨sync, hsync, outdated_mono hold hle⟩
    · rw [hterms] at h
      exact (hblocks hcomparable now).mpr (.inl h)
    · rw [hblocks hcomparable]
      rcases hsynced with ⟨s', hs', rfl⟩ | ⟨hsuccess, -⟩
      · obtain rfl : s' = s := by simpa [relied, hs'] using hs
        exact .inr hold.outdated
      · exact .inl (lapsed_of_endsBefore (hends hsuccess s hs) hold)

/-- The decision keeps what it promises exactly for the stores whose times are all naive, whose
license block is one that the cascade reads, and whose capacity contract ends before its
snapshot is too old. -/
theorem decisionKept_iff (fromisoformat : String → Option IsoInstant) (syncGraceDays : ℚ)
    (store : Store) : DecisionKept fromisoformat syncGraceDays store ↔
      Sound fromisoformat syncGraceDays store := by
  rw [Sound]
  cases hverdict : verdict fromisoformat store with
  | closed => exact ⟨fun _ => trivial, fun _ => kept_of_closed hverdict⟩
  | opened => exact kept_iff_of_opened hverdict
  | dated expires grace synced => exact kept_iff_of_dated hverdict

end

def offsetReader (text : String) : Option IsoInstant :=
  if text = "2030-01-01T00:00:00+03:00" then some (.aware 1893445200000000) else none

def staleContract : Store where
  capacity := some
    { normalizedStatus := "ok", fetched := some 0
      payload := .obj [("services", .obj [("hotspot", .bool true)])] }

def offsetLicense : Store where
  success := some
    { normalizedStatus := "active"
      payload := .obj [("status", .str "active"),
        ("expires_at", .str "2030-01-01T00:00:00+03:00")] }

theorem staleContract_verdict : verdict offsetReader staleContract = .opened := by decide

theorem offsetLicense_verdict :
    verdict offsetReader offsetLicense = .dated (some (.aware 1893445200000000)) none none := by
  decide

/-- A contract is believed for ever, and an offset makes every page fail. -/
theorem stale_contract_and_offset :
    ¬ DecisionKept offsetReader 7 staleContract ∧ ¬ DecisionKept offsetReader 7 offsetLicense := by
  constructor
  · intro hkept
    have hfetched := ((kept_iff_of_opened staleContract_verdict).mp hkept).2 _ rfl
    exact absurd hfetched (by simp)
  · intro hkept
    have hcomparable := ((kept_iff_of_dated offsetLicense_verdict).mp hkept).1
    exact hcomparable.1 _ rfl

end RadiusModule.LicenseLifecycle
