import RadiusModule.Library.FloatText
import RadiusModule.Library.Table

/-!
# The target of an import

The tables that an import writes, of one tenant where a table has tenants. A
row that is deleted keeps its place. No write fails.
-/

namespace RadiusModule.Migration
open Library

structure Role where
  id : ℕ
  name : String
  deleted : Bool := false
  displayName : String := ""
  permissions : List String := []
deriving DecidableEq

structure Admin where
  id : ℕ
  username : String
  deleted : Bool := false
  password : String := ""
  fullName : String := ""
  email : String := ""
  mobile : String := ""
  roleId : Option ℤ := none
  authzEpoch : ℕ := 0
deriving DecidableEq

structure Distributor where
  id : ℕ
  name : String
  adminId : Option ℤ := none
  displayName : String := ""
  email : String := ""
  phone : String := ""
  balance : PyFloat := .finite 0
  creditLimit : PyFloat := .finite 0
  createdBy : String := ""
deriving DecidableEq

structure Plan where
  id : ℕ
  name : String
  deleted : Bool := false
  priority : ℤ := 5
  price : PyFloat := .finite 0
  speedDownKbps : ℤ := 0
  speedUpKbps : ℤ := 0
  quotaTotalMb : ℤ := 0
  validityDays : ℤ := 0
deriving DecidableEq

structure Batch where
  id : ℕ
  packageName : String := ""
  batchCode : String := ""
  planId : ℤ
  count : ℤ := 0
  deleted : Bool := false
  pricePerCard : PyFloat := .finite 0
  managerId : ℤ := 0
  createdBy : String := ""
  countFromFirstConnect : Bool := true
  countBySeconds : Bool := false
  timeValue : ℤ := 0
  timeUnit : String := "days"
deriving DecidableEq

inductive TextColumn
  | fullName
  | fatherName
  | mobile
  | email
  | staticIp
  | address
  | callerId
  | macLock
  | allowedMacs
  | connectionSchedule
  | workingDays
  | remark
deriving DecidableEq

structure Account where
  id : ℕ
  username : String
  deleted : Bool := false
  password : String := ""
  planId : Option ℤ := none
  managerId : Option ℤ := none
  status : String := "enabled"
  balance : PyFloat := .finite 0
  expireAt : Option ℤ := none
  usedSeconds : ℤ := 0
  texts : TextColumn → String := fun _ => ""
  metadata : String := "\x7b\x7d"

structure ImportedCard where
  id : ℕ
  username : String
  password : String
  planId : ℤ
  batchId : ℤ
  expireAt : Option ℤ := none
  deleted : Bool := false
deriving DecidableEq

structure Target where
  roles : Numbered Role Role.id
  admins : Numbered Admin Admin.id
  distributors : Numbered Distributor Distributor.id
  plans : Numbered Plan Plan.id
  batches : Numbered Batch Batch.id
  subscribers : Numbered Account Account.id
  cards : Numbered ImportedCard ImportedCard.id

namespace Target

def roleByName (db : Target) (name : String) : Option Role :=
  db.roles.rows.find? fun r => r.name = name && !r.deleted

/-- `get_by_username` -/
def adminByUsername (db : Target) (username : String) : Option Admin :=
  db.admins.rows.find? fun a => a.username = username && !a.deleted

def distributorByName (db : Target) (name : String) : Option Distributor :=
  db.distributors.rows.find? fun d => d.name = name

def plan (db : Target) (id : ℤ) : Option Plan :=
  db.plans.rows.find? fun p => p.id = id && !p.deleted

def subscriber (db : Target) (username : String) : Option Account :=
  db.subscribers.rows.find? fun s => s.username = username && !s.deleted

def leastPrivilegedRoleId (db : Target) : Option ℤ := (db.roleByName "viewer").map fun r => r.id

def createRole (db : Target) (name displayName : String) (permissions : List String) : Target :=
  { db with roles := db.roles.insert (⟨·, name, false, displayName, permissions⟩) (fun _ => rfl) }

/-- `update_role`, which makes the admins of the role read their rights again. -/
def updateRole (db : Target) (id : ℕ) (permissions : List String) : Target :=
  { db with
    roles := db.roles.update (·.id = id) ({ · with permissions := permissions }) (fun _ => rfl)
    admins := db.admins.update (·.roleId = some (id : ℤ))
      (fun a => { a with authzEpoch := a.authzEpoch + 1 }) (fun _ => rfl) }

def createAdmin (db : Target) (username password fullName email mobile : String)
    (roleId : Option ℤ) : Target :=
  let role := roleId.or db.leastPrivilegedRoleId
  { db with
    admins := db.admins.insert
      (⟨·, username, false, password, fullName, email, mobile, role, 0⟩) (fun _ => rfl) }

structure AdminChanges where
  fullName : Option String := none
  email : Option String := none
  mobile : Option String := none
  roleId : Option ℤ := none

def AdminChanges.apply (ch : AdminChanges) (a : Admin) : Admin :=
  { a with
    fullName := ch.fullName.getD a.fullName
    email := ch.email.getD a.email
    mobile := ch.mobile.getD a.mobile
    roleId := ch.roleId.or a.roleId
    authzEpoch := if ch.roleId.isSome then a.authzEpoch + 1 else a.authzEpoch }

def updateAdmin (db : Target) (id : ℕ) (ch : AdminChanges) : Target :=
  { db with admins := db.admins.update (·.id = id) ch.apply (fun _ => rfl) }

def insertDistributor (db : Target) (d : Distributor) : Target :=
  { db with distributors := db.distributors.insert ({ d with id := · }) (fun _ => rfl) }

def updateDistributor (db : Target) (id : ℕ) (displayName email phone : String) : Target :=
  { db with
    distributors := db.distributors.update (·.id = id)
      ({ · with displayName := displayName, email := email, phone := phone }) (fun _ => rfl) }

def insertPlan (db : Target) (p : Plan) : Target :=
  { db with plans := db.plans.insert ({ p with id := · }) (fun _ => rfl) }

/-- `upsert_plan` of a plan that was read, with its changes. -/
def updatePlan (db : Target) (id : ℕ) (f : Plan → Plan) (hf : ∀ p, (f p).id = p.id) : Target :=
  { db with plans := db.plans.update (·.id = id) f hf }

def createBatch (db : Target) (b : Batch) : Target :=
  { db with batches := db.batches.insert ({ b with id := · }) (fun _ => rfl) }

def updateBatch (db : Target) (id : ℤ) (f : Batch → Batch) (hf : ∀ b, (f b).id = b.id) : Target :=
  { db with batches := db.batches.update (·.id = id) f hf }

/-- `upsert_subscriber`: the row of the name, archived or not, is rewritten. -/
def upsertSubscriber (db : Target) (s : Account) : Target :=
  match db.subscribers.rows.find? fun r => r.username = s.username with
  | some existing =>
    { db with
      subscribers := db.subscribers.update (·.id = existing.id)
        (fun r => { s with id := r.id, username := r.username }) (fun _ => rfl) }
  | none =>
    { db with subscribers := db.subscribers.insert ({ s with id := · }) (fun _ => rfl) }

def insertCard (db : Target) (c : ImportedCard) : Target :=
  { db with cards := db.cards.insert ({ c with id := · }) (fun _ => rfl) }

def updateCard (db : Target) (id : ℤ) (f : ImportedCard → ImportedCard)
    (hf : ∀ c, (f c).id = c.id) : Target :=
  { db with cards := db.cards.update (·.id = id) f hf }

def countCards (db : Target) (batchIds : List ℤ) : Target :=
  let cards (b : Batch) := db.cards.rows.countP fun c => c.batchId = (b.id : ℤ) && !c.deleted
  { db with
    batches := db.batches.update
      (fun b => batchIds.contains (b.id : ℤ) && 0 < cards b)
      (fun b => { b with count := cards b }) (fun _ => rfl) }

end Target
end RadiusModule.Migration
