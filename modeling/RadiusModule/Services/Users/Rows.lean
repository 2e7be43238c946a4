import RadiusModule.Services.QuotaPeriod
import RadiusModule.Services.Users.Terms

/-!
# The row of a subscriber

A subscriber is a value for each of its fields, so that the functions which go
through the fields (what an edit changed, the version of a row, the columns of
a write) are written over all of them at once.
-/

namespace RadiusModule.Users
open Library PyText

inductive Kind
  | text
  | optText
  | int
  | optInt
  | flag
  | real
  | instant

abbrev Kind.Value : Kind → Type
  | .text => String
  | .optText => Option String
  | .int => ℤ
  | .optInt => Option ℤ
  | .flag => Bool
  | .real => ℚ
  | .instant => Option ℤ

instance : ∀ k : Kind, DecidableEq k.Value
  | .text => inferInstanceAs (DecidableEq String)
  | .optText => inferInstanceAs (DecidableEq (Option String))
  | .int => inferInstanceAs (DecidableEq ℤ)
  | .optInt => inferInstanceAs (DecidableEq (Option ℤ))
  | .flag => inferInstanceAs (DecidableEq Bool)
  | .real => inferInstanceAs (DecidableEq ℚ)
  | .instant => inferInstanceAs (DecidableEq (Option ℤ))

inductive Field
  | id | username | password | tenantId | userType | serviceType | planId | photoUrl
  | loginWithoutPassword | pppoeUsername | pppoePassword | pppoeIp | fullName | fatherName
  | mobile | email | address | city | district | state | zip | coordinates | nationalId
  | accountType | balance | customPrice | autoRenewal | status | managerId | group | pool
  | firstLoginAt | expireAt | lastLoginAt | lastSeenAt | macLock | staticIp | vlanId
  | overrideConcurrent | bandwidthControlEnabled | downloadSpeedKbps | uploadSpeedKbps
  | customSpeed | temporarySpeed | callerId | primaryDnsPpp | secondaryDnsPpp
  | deviceConnectionFile | nationality | country | paymentMethod | paymentReference
  | totalConnectionTimeMin | dailyConnectionTimeMin | downloadQuotaMb | uploadQuotaMb
  | combinedQuotaMb | connectionTimeLimitEnabled | quotaLimitEnabled | equalShareDownload
  | equalShareUpload | workingDays | connectionSchedule | deviceCount | deviceLimitMode
  | allowedMacs | metadata | usedSeconds | usedBytesIn | usedBytesOut | onlineCount
  | beneficiaryRef | cardBatchId | remark | createdBy | updatedBy | deletedAt | deletedBy
  | deleteReason | createdAt | updatedAt | transport
deriving DecidableEq

namespace Field

abbrev kind : Field → Kind
  | id | planId | managerId | vlanId | overrideConcurrent | cardBatchId => .optInt
  | tenantId | downloadSpeedKbps | uploadSpeedKbps | totalConnectionTimeMin
  | dailyConnectionTimeMin | downloadQuotaMb | uploadQuotaMb | combinedQuotaMb | deviceCount
  | usedSeconds | usedBytesIn | usedBytesOut | onlineCount | createdBy | updatedBy => .int
  | balance | customPrice => .real
  | loginWithoutPassword | autoRenewal | bandwidthControlEnabled | customSpeed | temporarySpeed
  | connectionTimeLimitEnabled | quotaLimitEnabled | equalShareDownload | equalShareUpload => .flag
  | firstLoginAt | expireAt | lastLoginAt | lastSeenAt | deletedAt | createdAt | updatedAt =>
    .instant
  | macLock | staticIp => .optText
  | _ => .text

def all : List Field := (List.range 82).map ofNat

theorem mem_all (f : Field) : f ∈ all :=
  List.mem_map.mpr ⟨f.ctorIdx, List.mem_range.mpr (by cases f <;> decide), ofNat_ctorIdx f⟩

def notEditable : List Field := [id, tenantId, username, createdAt, updatedAt]

def versionSkip : List Field :=
  [id, tenantId, username, createdAt, updatedAt, createdBy, updatedBy, firstLoginAt, lastLoginAt,
    lastSeenAt, usedSeconds, usedBytesIn, usedBytesOut, onlineCount]

/-- The fields that `_COLS` leaves out, and the name, which is the key of the row. -/
def uncolumned : List Field := [id, tenantId, username, createdAt, updatedAt, transport]

end Field

def Subscriber := (f : Field) → f.kind.Value

namespace Subscriber
variable (s : Subscriber)

def id : Option ℤ := s .id
def password : String := s .password
def userType : String := s .userType
def planId : Option ℤ := s .planId
def balance : ℚ := s .balance
def status : String := s .status
def expireAt : Option ℤ := s .expireAt
def cardBatchId : Option ℤ := s .cardBatchId
def deletedAt : Option ℤ := s .deletedAt

def set (f : Field) (v : f.kind.Value) : Subscriber :=
  fun g => if h : g = f then h ▸ v else s g

@[simp] theorem set_same (f : Field) (v : f.kind.Value) : s.set f v f = v := by
  simp [set]

theorem set_of_ne {f g : Field} (h : g ≠ f) (v : f.kind.Value) : s.set f v g = s g :=
  dif_neg h

/-- `_override_snapshot` -/
def quotaOverride : QuotaPeriod.Override where
  combined := s .combinedQuotaMb
  download := s .downloadQuotaMb
  upload := s .uploadQuotaMb
  enabled := s .quotaLimitEnabled

/-- The value of a field that is left out. -/
def default : (f : Field) → f.kind.Value
  | .tenantId => (1 : ℤ)
  | .userType => "subscriber"
  | .serviceType => "Hotspot"
  | .photoUrl => "/user.default.jpg"
  | .accountType => "Personal"
  | .autoRenewal => true
  | .status => "enabled"
  | .vlanId | .overrideConcurrent => some (0 : ℤ)
  | .deviceCount => (1 : ℤ)
  | .metadata => "\x7b\x7d"
  | .transport => "chr_mikrotik"
  | f =>
    match f.kind with
    | .text => ""
    | .optText => none
    | .int => (0 : ℤ)
    | .optInt => none
    | .flag => false
    | .real => (0 : ℚ)
    | .instant => none

def new (username password : String) : Subscriber :=
  (Subscriber.set default .username username).set .password password

def withQuota (o : QuotaPeriod.Override) : Subscriber :=
  (((s.set .combinedQuotaMb o.combined).set .downloadQuotaMb o.download).set
    .uploadQuotaMb o.upload).set .quotaLimitEnabled o.enabled

end Subscriber

def textOr (value orElse : String) : String := if value = "" then orElse else value

/-- What a column gives back after a write: the balance in whole cents, the default for an empty
text, and at least one device. -/
def stored : (f : Field) → f.kind.Value → f.kind.Value
  | .balance, v => (Accounting.roundMoney v : ℚ) / 100
  | .deviceCount, v => if v = (0 : ℤ) then (1 : ℤ) else v
  | .serviceType, v => textOr v "Hotspot"
  | .photoUrl, v => textOr v "/user.default.jpg"
  | .accountType, v => textOr v "Personal"
  | .metadata, v => textOr v "\x7b\x7d"
  | _, v => v

theorem stored_stored (f : Field) (v : f.kind.Value) : stored f (stored f v) = stored f v := by
  have htext : ∀ value orElse, textOr (textOr value orElse) orElse = textOr value orElse := by
    intro value orElse
    simp only [textOr]
    split_ifs <;> simp_all
  cases f
  case balance => exact congrArg (fun c : ℤ => (c : ℚ) / 100) (Accounting.roundMoney_cents _)
  case deviceCount =>
    simp only [stored]
    split_ifs <;> simp_all
  case serviceType | photoUrl | accountType | metadata => exact htext _ _
  all_goals rfl

/-- A row of `subscribers`, as it is read: written again it stays as it is. -/
structure Row where
  value : Subscriber
  kept : ∀ f, stored f (value f) = value f

def columns (only : Field → Bool) (f : Field) : Bool := f ∉ Field.uncolumned && only f

def Subscriber.merge (row s : Subscriber) (only : Field → Bool) : Subscriber :=
  fun f => if columns only f then stored f (s f) else row f

/-- The update of `upsert_subscriber`; without a column there is no statement. -/
def Subscriber.overwrite (row s : Subscriber) (only : Field → Bool) (now : ℤ) : Subscriber :=
  if Field.all.any (columns only) then (row.merge s only).set .updatedAt (some now) else row

def Subscriber.inserted (s : Subscriber) (newId now : ℤ) : Subscriber
  | .id => some newId
  | .createdAt => some now
  | .updatedAt => none
  | .transport => "chr_mikrotik"
  | f => stored f (s f)

theorem stored_set {s : Subscriber} {g : Field} {v : g.kind.Value} (hv : stored g v = v)
    (hs : ∀ f, stored f (s f) = s f) (f : Field) : stored f (s.set g v f) = s.set g v f := by
  by_cases h : f = g
  · subst h
    rw [Subscriber.set_same, hv]
  · rw [Subscriber.set_of_ne _ h, hs]

namespace Row

def overwrite (row : Row) (s : Subscriber) (only : Field → Bool) (now : ℤ) : Row where
  value := row.value.overwrite s only now
  kept := by
    unfold Subscriber.overwrite
    split_ifs with hany
    · refine stored_set rfl fun f => ?_
      unfold Subscriber.merge
      split_ifs
      · exact stored_stored f _
      · exact row.kept f
    · exact row.kept

def insert (s : Subscriber) (newId now : ℤ) : Row where
  value := s.inserted newId now
  kept f := by
    cases f
    case id | createdAt | updatedAt | transport => rfl
    all_goals exact stored_stored _ _

def withQuota (row : Row) (o : QuotaPeriod.Override) : Row where
  value := row.value.withQuota o
  kept := stored_set rfl (stored_set rfl (stored_set rfl (stored_set rfl row.kept)))

end Row
end RadiusModule.Users
