import RadiusModule.Core.Types

/-!
# The database

The tables the services below share. A card and a subscriber are found by
tenant and name, a batch and a plan by tenant and number.
-/

namespace RadiusModule

theorem planKeys_nil : ([] : List AccessPlan).Pairwise fun p q => p.id ≠ q.id := .nil

structure Db where
  subscribers : List Subscriber := []
  cards : List Card := []
  batches : List CardBatch := []
  plans : List AccessPlan := []
  radacct : RadacctTable := Library.Table.empty
  claims : List Claim := []
  allowPolicies : List AllowPolicy := []
  allowDevices : List AllowDevice := []
  cloneBindings : List CloneBinding := []
  cloneEvents : List CloneEvent := []
  deviceFingerprints : ℤ → String → Option Fingerprint := fun _ _ => none
  settings : ℤ → String → Option String := fun _ _ => none
  bandwidthProfiles : List BandwidthProfile := []
  planKeys : plans.Pairwise fun p q => p.id ≠ q.id := by first | exact planKeys_nil | decide

namespace Db

/-- `get_setting(tenant_id, key, default)` -/
def setting (db : Db) (tenantId : ℤ) (key default : String) : String :=
  (db.settings tenantId key).getD default

def subscriber (db : Db) (tenantId : ℤ) (username : String) (includeDeleted : Bool) :
    Option Subscriber :=
  db.subscribers.find? fun s => s.tenantId = tenantId && s.username = username &&
    (includeDeleted || s.deletedAt.isNull)

def card (db : Db) (tenantId : ℤ) (username : String) : Option Card :=
  db.cards.find? fun c => c.tenantId = tenantId && c.username = username

def batch (db : Db) (tenantId : ℤ) (id : ℕ) : Option CardBatch :=
  db.batches.find? fun b => b.tenantId = tenantId && b.id = id

def plan (db : Db) (tenantId : ℤ) (id : ℕ) (includeDeleted : Bool) : Option AccessPlan :=
  db.plans.find? fun p =>
    p.tenantId = tenantId && p.id = id && (includeDeleted || p.deletedAt.isNull)

theorem plan_live (db : Db) (tenantId : ℤ) (id : ℕ) :
    db.plan tenantId id false =
      (db.plan tenantId id true).filter fun p => p.deletedAt.isNull := by
  have hkeys := db.planKeys
  simp only [plan, Bool.true_or, Bool.and_true, Bool.false_or]
  revert hkeys
  induction db.plans with
  | nil => exact fun _ => rfl
  | cons p ps ih =>
    intro hkeys
    obtain ⟨hp, hps⟩ := List.pairwise_cons.mp hkeys
    by_cases hfound : p.tenantId = tenantId ∧ p.id = id
    · have hnone : ps.find? (fun q => q.tenantId = tenantId && q.id = id && q.deletedAt.isNull) =
          none := by
        refine List.find?_eq_none.mpr fun q hq => ?_
        have := hp q hq
        simp [← hfound.2, this.symm]
      cases hlive : p.deletedAt.isNull <;> simp [Option.filter, hfound.1, hfound.2, hlive, hnone]
    · have hskip : (decide (p.tenantId = tenantId) && decide (p.id = id)) = false := by
        simpa using hfound
      simpa [hskip] using ih hps

/-- `UPDATE cards`, which leaves the columns a card is found by. -/
def updateCards (db : Db) (p : Card → Bool) (f : Card → Card) : Db :=
  { db with cards := db.cards.map fun c => if p c then f c else c }

def updateSubscribers (db : Db) (p : Subscriber → Bool) (f : Subscriber → Subscriber) : Db :=
  { db with subscribers := db.subscribers.map fun s => if p s then f s else s }

variable (db : Db) (tenantId : ℤ)

@[simp] theorem card_updateSubscribers (p : Subscriber → Bool) (f : Subscriber → Subscriber)
    (username : String) :
    (db.updateSubscribers p f).card tenantId username = db.card tenantId username := rfl

@[simp] theorem batch_updateSubscribers (p : Subscriber → Bool) (f : Subscriber → Subscriber)
    (id : ℕ) : (db.updateSubscribers p f).batch tenantId id = db.batch tenantId id := rfl

@[simp] theorem plan_updateSubscribers (p : Subscriber → Bool) (f : Subscriber → Subscriber)
    (id : ℕ) (deleted : Bool) :
    (db.updateSubscribers p f).plan tenantId id deleted = db.plan tenantId id deleted := rfl

@[simp] theorem batch_updateCards (p : Card → Bool) (f : Card → Card) (id : ℕ) :
    (db.updateCards p f).batch tenantId id = db.batch tenantId id := rfl

@[simp] theorem plan_updateCards (p : Card → Bool) (f : Card → Card) (id : ℕ) (deleted : Bool) :
    (db.updateCards p f).plan tenantId id deleted = db.plan tenantId id deleted := rfl

theorem card_updateCards {p : Card → Bool} {f : Card → Card}
    (hf : ∀ c, (f c).tenantId = c.tenantId ∧ (f c).username = c.username) (username : String) :
    (db.updateCards p f).card tenantId username =
      (db.card tenantId username).map fun c => if p c then f c else c := by
  simp only [card, updateCards, List.find?_map]
  congr 2
  funext c
  simp only [Function.comp]
  split_ifs
  · rw [(hf c).1, (hf c).2]
  · rfl

theorem card_found {db : Db} {tenantId : ℤ} {username : String} {c : Card}
    (h : db.card tenantId username = some c) : c.tenantId = tenantId ∧ c.username = username := by
  simpa using List.find?_some h

theorem card_updateCards_of {db : Db} {tenantId : ℤ} {username : String} {c : Card}
    (h : db.card tenantId username = some c) {p : Card → Bool} {f : Card → Card}
    (hf : ∀ c, (f c).tenantId = c.tenantId ∧ (f c).username = c.username) :
    (db.updateCards p f).card tenantId username = some (if p c then f c else c) := by
  rw [card_updateCards db tenantId hf, h, Option.map_some]

end Db
end RadiusModule
