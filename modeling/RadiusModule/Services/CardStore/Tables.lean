import RadiusModule.Core.Connection
import RadiusModule.Core.Types
import RadiusModule.Library.Table

/-!
# Batches, cards and accounts

The tables that the ways of making cards write, with their unique indexes: the
code of a batch, the name of a card and the name of an account, each within a
tenant. The foreign key of a card is a field of the store.
-/

namespace RadiusModule.CardStore
open Library

structure Metadata where
  idempotencyKey : Option String := none
  idempotencyFp : Option String := none
deriving DecidableEq

structure Batch where
  id : ℕ
  tenantId : ℤ
  batchCode : String
  count : ℕ
  generated : ℕ := 0
  deleted : Bool := false
  metadata : Metadata := {}
deriving DecidableEq

structure Card where
  id : ℕ
  tenantId : ℤ
  batchId : ℕ
  username : String
  password : String
deriving DecidableEq

structure Account where
  id : ℕ
  tenantId : ℤ
  username : String
  password : String
  userType : UserType
  cardBatchId : Option ℕ
deriving DecidableEq

structure SyncJob where
  tenantId : ℤ
  entityId : Option ℕ
  entityKey : String
deriving DecidableEq

abbrev Batches := Indexed Batch Batch.id fun b => (b.tenantId, b.batchCode)
abbrev Cards := Indexed Card Card.id fun c => (c.tenantId, c.username)
abbrev Accounts := Indexed Account Account.id fun a => (a.tenantId, a.username)

structure Store where
  batches : Batches
  cards : Cards
  accounts : Accounts
  syncJobs : List SyncJob
  radcheck : List String
  placed : ∀ c ∈ cards.rows, c.batchId < batches.next

inductive Error
  | integrity
  | database
  | idempotencyKeyReused
  | usernameSpaceExhausted
  | validation
deriving DecidableEq

inductive Statement
  | select
  | insertBatch (tenantId : ℤ) (batchCode : String) (count : ℕ) (metadata : Metadata)
  | setCount (tenantId : ℤ) (batchId count : ℕ)
  | insertCard (tenantId : ℤ) (batchId : ℕ) (username password : String)
  | addGenerated (tenantId : ℤ) (batchId n : ℕ)
  | countCard (tenantId : ℤ) (batchId : ℕ)
  | insertAccount (tenantId : ℤ) (batchId : ℕ) (username password : String)
  | enqueue (jobs : List SyncJob)

namespace Store

def empty : Store := ⟨.empty, .empty, .empty, [], [], by simp [Indexed.empty]⟩

def insertBatch (s : Store) (tenantId : ℤ) (batchCode : String) (count : ℕ)
    (metadata : Metadata) : Except Error Store :=
  match h : s.batches.insert? (fun id => { id, tenantId, batchCode, count, metadata })
      fun _ => rfl with
  | none => .error .integrity
  | some batches => .ok { s with
      batches
      placed := fun c hc => by
        rw [(Indexed.insert?_eq_some.mp h).2]
        exact (s.placed c hc).trans (Nat.lt_succ_self _) }

def updateBatch (s : Store) (tenantId : ℤ) (batchId : ℕ) (f : Batch → Batch)
    (hid : ∀ b, (f b).id = b.id)
    (hcode : ∀ b, ((f b).tenantId, (f b).batchCode) = (b.tenantId, b.batchCode)) : Store :=
  { s with
    batches := s.batches.update (fun b => b.tenantId = tenantId && b.id = batchId) f hid hcode
    placed := s.placed }

def insertCard (s : Store) (tenantId : ℤ) (batchId : ℕ) (username password : String) :
    Except Error Store :=
  if hbatch : batchId < s.batches.next then
    match h : s.cards.insert? (fun id => { id, tenantId, batchId, username, password })
        fun _ => rfl with
    | none => .error .integrity
    | some cards => .ok { s with
        cards
        placed := fun c hc => by
          rw [(Indexed.insert?_eq_some.mp h).2] at hc
          rcases List.mem_append.mp hc with hc | hc
          · exact s.placed c hc
          · rw [List.mem_singleton.mp hc]
            exact hbatch }
  else .error .integrity

def insertAccount (s : Store) (tenantId : ℤ) (batchId : ℕ) (username password : String) :
    Except Error Store :=
  match s.accounts.insert? (fun id =>
      { id, tenantId, username, password, userType := .card, cardBatchId := some batchId })
      fun _ => rfl with
  | none => .error .integrity
  | some accounts => .ok { s with accounts }

def apply (s : Store) : Statement → Except Error Store
  | .select => .ok s
  | .insertBatch tenantId batchCode count metadata =>
    s.insertBatch tenantId batchCode count metadata
  | .setCount tenantId batchId count =>
    .ok (s.updateBatch tenantId batchId (fun b => { b with count }) (fun _ => rfl) fun _ => rfl)
  | .insertCard tenantId batchId username password =>
    s.insertCard tenantId batchId username password
  | .addGenerated tenantId batchId n =>
    .ok (s.updateBatch tenantId batchId (fun b => { b with generated := b.generated + n })
      (fun _ => rfl) fun _ => rfl)
  | .countCard tenantId batchId =>
    .ok (s.updateBatch tenantId batchId
      (fun b => { b with count := b.count + 1, generated := b.generated + 1 })
      (fun _ => rfl) fun _ => rfl)
  | .insertAccount tenantId batchId username password =>
    s.insertAccount tenantId batchId username password
  | .enqueue jobs => .ok { s with syncJobs := s.syncJobs ++ jobs }

end Store

/-- What may go wrong besides: a statement, the BEGIN or the COMMIT raises. -/
structure Faults where
  statement : Statement → Store → Option Error := fun _ _ => none
  atBegin : Store → Option Error := fun _ => none
  atCommit : Store → Option Error := fun _ => none

def Faults.sqlite (faults : Faults) : Connection.Sqlite Store Statement Error where
  write w s :=
    match faults.statement w s with
    | some e => .error e
    | none => s.apply w
  beginRaises := faults.atBegin
  commitRaises := faults.atCommit

theorem Faults.write_ok {faults : Faults} {w : Statement} {s t : Store}
    (h : faults.sqlite.write w s = .ok t) : s.apply w = .ok t := by
  simp only [Faults.sqlite] at h
  cases hfault : faults.statement w s with
  | some e =>
    rw [hfault] at h
    cases h
  | none =>
    rw [hfault] at h
    exact h

section
variable {s t : Store} {tenantId : ℤ} {batchId : ℕ} {username password : String}

theorem insertBatch_ok {batchCode : String} {count : ℕ} {metadata : Metadata}
    (h : s.insertBatch tenantId batchCode count metadata = .ok t) :
    t.batches.toTable = s.batches.toTable.insert
        (fun id => { id, tenantId, batchCode, count, metadata }) (fun _ => rfl) ∧
      t.cards = s.cards ∧ t.accounts = s.accounts ∧ t.radcheck = s.radcheck := by
  unfold Store.insertBatch at h
  split at h
  · cases h
  · rename_i batches hinsert
    cases h
    exact ⟨(Indexed.insert?_eq_some.mp hinsert).2, rfl, rfl, rfl⟩

theorem insertCard_ok (h : s.insertCard tenantId batchId username password = .ok t) :
    t.cards.toTable = s.cards.toTable.insert
        (fun id => { id, tenantId, batchId, username, password }) (fun _ => rfl) ∧
      t.batches = s.batches ∧ t.accounts = s.accounts ∧ t.radcheck = s.radcheck := by
  unfold Store.insertCard at h
  split_ifs at h
  split at h
  · cases h
  · rename_i cards hinsert
    cases h
    exact ⟨(Indexed.insert?_eq_some.mp hinsert).2, rfl, rfl, rfl⟩

theorem insertAccount_ok (h : s.insertAccount tenantId batchId username password = .ok t) :
    t.accounts.toTable = s.accounts.toTable.insert
        (fun id => ⟨id, tenantId, username, password, .card, some batchId⟩) (fun _ => rfl) ∧
      t.batches = s.batches ∧ t.cards = s.cards ∧ t.radcheck = s.radcheck := by
  unfold Store.insertAccount at h
  split at h
  · cases h
  · rename_i accounts hinsert
    cases h
    exact ⟨(Indexed.insert?_eq_some.mp hinsert).2, rfl, rfl, rfl⟩

end
end RadiusModule.CardStore
