import Mathlib.Logic.Relation
import RadiusModule.Library.Dict
import RadiusModule.Library.Json
import RadiusModule.Library.PyText

/-!
# Manager grants

What a manager may do comes from the permissions of his role, from grants of
his own and of his role, which are merged, from their expiry, and from the
managers above him.
-/

namespace RadiusModule.ManagerGrants
open Library PyText

structure ActionSpec where
  rbacPerm : List String := []
  flag : Option String := none
  entityEdit : Option String := none
  entityOp : String := "edit"
  default : Bool := true
deriving DecidableEq

def actionRegistry : List (String × ActionSpec) :=
  [ ("subscriber.create",
      { rbacPerm := ["users.create"], flag := some "can_create_subscriber" }),
    ("subscriber.delete", { rbacPerm := ["users.delete"] }),
    ("subscriber.status",
      { rbacPerm := ["users.change_status"], flag := some "can_activate_subscriber" }),
    ("subscriber.extend", { rbacPerm := ["users.extend"] }),
    ("subscriber.renew", { rbacPerm := ["users.change_plan"] }),
    ("subscriber.quota", { rbacPerm := ["users.quota"] }),
    ("subscriber.balance_add", { rbacPerm := ["users.balance_add"] }),
    ("subscriber.payment", { rbacPerm := ["users.payments"] }),
    ("subscriber.loan", { rbacPerm := ["users.loans"], flag := some "can_give_loan" }),
    ("subscriber.free_days", { flag := some "can_give_free_days" }),
    ("subscriber.trial_days", { flag := some "can_give_trial_days" }),
    ("subscriber.send_credentials", { rbacPerm := ["users.send_message"] }),
    ("comms.sms", { rbacPerm := ["users.send_message"], default := false }),
    ("comms.whatsapp", { rbacPerm := ["settings.edit"], default := false }),
    ("comms.templates", { rbacPerm := ["users.send_message"], default := false }),
    ("mikrotik.access", {}),
    ("session.edit", { rbacPerm := ["online.lock_ip", "users.temp_speed"], default := false }),
    ("session.lock_mac", { rbacPerm := ["online.lock_mac"], default := false }),
    ("session.lock_ip", { rbacPerm := ["online.lock_ip"], default := false }),
    ("session.disconnect", { rbacPerm := ["online.disconnect"], default := false }),
    ("session.force_close", { rbacPerm := ["online.disconnect"], default := false }),
    ("session.reconcile", { rbacPerm := ["online.disconnect"], default := false }),
    ("session.temp_speed", { rbacPerm := ["users.temp_speed"], default := false }),
    ("cards.generate", { rbacPerm := ["cards.generate"], flag := some "can_create_batch" }),
    ("cards.import", { rbacPerm := ["cards.import"], flag := some "can_import_batches" }),
    ("cards.revoke", { rbacPerm := ["cards.revoke"] }),
    ("cards.batch_ops", { rbacPerm := ["cards.batch_ops"] }),
    ("cards.recharge", { rbacPerm := ["cards.recharge"] }),
    ("cards.print", { rbacPerm := ["cards.print"] }),
    ("batch.edit", { rbacPerm := ["cards.edit_batch"], entityEdit := some "batch" }),
    ("offer.edit", { entityEdit := some "offer" }),
    ("offer.create", { entityEdit := some "offer", entityOp := "create" }),
    ("plan.create", { rbacPerm := ["plans.create"] }),
    ("plan.edit", { rbacPerm := ["plans.edit"] }),
    ("plan.delete", { rbacPerm := ["plans.delete"] }),
    ("distributor.manage", { flag := some "can_manage_distributors" }),
    ("data.export", { rbacPerm := ["users.export"], default := false }),
    ("store.deposit_approve", { rbacPerm := ["store.review"], default := false }),
    ("store.withdraw_approve", { rbacPerm := ["store.review"], default := false }),
    ("storeuser.create", { rbacPerm := ["store.user_add"], default := false }),
    ("storeuser.edit",
      { rbacPerm := ["store.user_recharge", "store.user_purchase"], default := false }),
    ("storeuser.password", { rbacPerm := ["store.user_edit"], default := false }),
    ("storeuser.delete", { rbacPerm := ["store.user_delete"], default := false }),
    ("bulk.ops", { default := false }) ]

def allPermissions : List String :=
  ["dashboard.view", "users.view", "users.create", "users.edit", "users.delete",
    "users.disconnect", "users.change_status", "users.extend", "users.change_plan", "users.quota",
    "users.balance_add", "users.payments", "users.loans", "users.send_message",
    "users.temp_speed", "users.export", "online.view", "online.disconnect", "online.lock_mac",
    "online.lock_ip", "cards.view", "cards.generate", "cards.revoke", "cards.edit_batch",
    "cards.batch_ops", "cards.import", "cards.verify", "cards.restore", "cards.recharge",
    "cards.print", "plans.view", "plans.create", "plans.edit", "plans.delete", "nas.view",
    "nas.create", "nas.edit", "nas.delete", "sessions.view", "sessions.disconnect", "admins.view",
    "admins.create", "admins.edit", "admins.delete", "admins.deposit_balance", "admins.policy",
    "admin_pricing.view", "admin_pricing.edit", "admin_pricing.reset", "reports.view",
    "reports.finance", "store.view", "store.package_add", "store.user_add", "store.user_edit",
    "store.user_recharge", "store.user_purchase", "store.user_delete", "store.review",
    "scope.act_non_owned", "scope.view_all_subscribers", "scope.view_all_managers",
    "scope.view_all_cards", "scope.view_all_reports", "scope.view_passwords", "routers.view",
    "routers.manage", "routers.reboot", "routers.change_wifi", "routers.change_pppoe",
    "routers.update_firmware", "routers.factory_reset", "routers.view_sensitive_data",
    "settings.view", "settings.edit", "audit.view", "api.use"]

/-- The keys of `DEFAULT_PERMISSIONS`, which `SCOPE_FLAG_REGISTRY` adds nothing to. -/
def defaultPermissions : List String :=
  ["can_create_batch", "can_create_subscriber", "can_activate_subscriber", "can_give_free_days",
    "can_give_trial_days", "can_give_loan", "can_manage_distributors", "can_view_all_subscribers",
    "can_view_all_card_batches", "can_import_batches", "can_see_wholesale", "can_see_password",
    "can_create_sub_managers", "can_see_balance", "can_see_profit"]

structure Role where
  name : String
  permissions : List String
  granularGrants : Json

/-- A row of `admins`; a deleted admin keeps his parent and his role. -/
structure Admin where
  deleted : Bool := false
  roleId : ℕ := 0
  parentAdminId : ℕ := 0

structure Policy where
  actionGrants : List (String × Json) := []
  flags : List (String × Json) := []
  grantsExpireAt : Json := .null

structure Clock where
  today : ℤ
  now : ℤ
  date : String → Option ℤ
  datetime : String → Option ℤ

/-- What is read on a request: the rows, the live roles, the owners, and the admin of the session
with the permissions it holds. -/
structure World where
  admins : ℕ → Option Admin
  roles : ℕ → Option Role
  policies : ℕ → Option Policy
  isOwnerLike : ℕ → Bool
  session : Option (ℕ × List String)
  clock : Clock

def dict : Json → List (String × Json)
  | .obj fields => fields
  | _ => []

/-- `{**a, **b}` -/
def overlaid (a b : Dict String Json) : Dict String Json := b.foldl (fun d kv => d.put kv.1 kv.2) a

/-- `_grants_are_expired`: a text that is no date never expires. -/
def grantsAreExpired (clock : Clock) (raw : Json) : Bool :=
  let s := strip (if raw.truthy then raw.text else "")
  if s = "" then false
  else if s.length = 10 then (clock.date s).any fun d => d < clock.today
  else (clock.datetime s).any fun t => t < clock.now

def rbacActionKeys : List String :=
  (actionRegistry.filter fun a => a.2.flag = none && a.2.entityEdit = none && a.2.rbacPerm = []).map
    Prod.fst

structure Grants where
  flags : Dict String Json := []
  actionGrants : Dict String Json := []

def superRoleGrants : Grants where
  flags := defaultPermissions.map fun k => (k, .bool true)
  actionGrants := actionRegistry.foldl
    (fun ag a => match a.2.entityEdit with
      | some ent => ag.put ent (.obj (overlaid (dict ((ag.get? ent).getD .null))
          [(a.2.entityOp, .bool true)]))
      | none => ag)
    [("_actions", .obj (rbacActionKeys.map fun k => (k, .bool true)))]

/-- `_role_grants_for_admin`; `none` where there is nothing to inherit. -/
def roleGrants (w : World) (admin : ℕ) : Option Grants := do
  let row ← w.admins admin
  if row.roleId = 0 then none
  else
    let role ← w.roles row.roleId
    if role.name = "super_admin" then some superRoleGrants
    else
      let blob ← match role.granularGrants with
        | .obj fields => some fields
        | other => if other.truthy then none else some []
      let scope (flag key : String) := (flag, Json.bool (role.permissions.contains key))
      some {
        flags := overlaid (dict (Json.get blob "flags"))
          [scope "can_view_all_subscribers" "scope.view_all_subscribers",
            scope "can_view_all_card_batches" "scope.view_all_cards"]
        actionGrants := dict (Json.get blob "action_grants") }

def mergeGrants (base own : Grants) : Grants where
  flags := overlaid base.flags own.flags
  actionGrants := (base.actionGrants ++ own.actionGrants).foldl
    (fun ag kv => match kv.2 with
      | .obj fields => ag.put kv.1 (.obj (overlaid (dict ((ag.get? kv.1).getD .null)) fields))
      | v => ag.put kv.1 v) []

def grantsExpired (w : World) (admin : ℕ) : Bool :=
  (w.policies admin).any fun p => grantsAreExpired w.clock p.grantsExpireAt

def grantsRow (w : World) (admin : ℕ) : Grants :=
  if admin = 0 then {}
  else
    let own : Grants := match w.policies admin with
      | some p => if grantsAreExpired w.clock p.grantsExpireAt then {}
        else { flags := p.flags, actionGrants := p.actionGrants }
      | none => {}
    match roleGrants w admin with
    | some base => mergeGrants base own
    | none => own

def adminPermissions (w : World) (row : Admin) : List String :=
  if row.roleId = 0 then []
  else match w.roles row.roleId with
    | none => []
    | some role => if role.name = "super_admin" then allPermissions else role.permissions

/-- `_admin_rbac_perms`: the admin of the session keeps the permissions he logged in with. -/
def adminRbacPerms (w : World) (admin : ℕ) : List String :=
  if admin = 0 then []
  else match w.session.filter fun s => s.1 = admin with
    | some s => s.2
    | none => ((w.admins admin).filter fun row => !row.deleted).elim [] (adminPermissions w)

def rbacAny (rbac perms : List String) : Bool := rbac.any fun p => perms.contains p

/-- `_action_overrides(admin).get(action)` -/
def actionOverride (w : World) (admin : ℕ) (action : String) : Option Bool :=
  match ((grantsRow w admin).actionGrants.get? "_actions") with
  | some (.obj flat) => (Dict.get? flat action).map Json.truthy
  | _ => none

def actionAllowed (w : World) (admin : ℕ) (entity op : String) : Bool :=
  match ((grantsRow w admin).actionGrants.get? entity) with
  | some (.obj ent) => ((Dict.get? ent op).map Json.truthy).getD false
  | _ => false

def parentAdminId (w : World) (admin : ℕ) : Option ℕ :=
  if admin = 0 then none
  else (w.admins admin).bind fun row =>
    if row.parentAdminId = 0 then none else some row.parentAdminId

/-- `_parent_allows`, with the levels that are left before `_depth > 5`. -/
def parentAllows (w : World) (action : String) (rbac : List String) : ℕ → ℕ → Bool
  | 0, _ => true
  | left + 1, admin =>
    match parentAdminId w admin with
    | none => true
    | some pid =>
      if pid = admin then true
      else if w.isOwnerLike pid then true
      else if actionOverride w pid action = some false then false
      else if !rbacAny rbac (adminRbacPerms w pid) then false
      else parentAllows w action rbac left pid

def actionPermitted (w : World) (admin : ℕ) (action : String) : Bool :=
  match actionRegistry.lookup action with
  | none => true
  | some spec =>
    if spec.rbacPerm ≠ [] then
      if grantsExpired w admin then false
      else if actionOverride w admin action = some false then false
      else if rbacAny spec.rbacPerm (adminRbacPerms w admin) then
        parentAllows w action spec.rbacPerm 6 admin
      else spec.entityEdit.any fun ent => actionAllowed w admin ent spec.entityOp
    else match spec.flag, spec.entityEdit with
      | some flag, _ => (((grantsRow w admin).flags.get? flag).map Json.truthy).getD false
      | none, some ent => actionAllowed w admin ent spec.entityOp
      | none, none => (actionOverride w admin action).getD spec.default

def Above (w : World) (p m : ℕ) : Prop :=
  Relation.TransGen (fun a b => parentAdminId w a = some b) m p

def Acyclic (w : World) : Prop := ∀ a, ¬ Above w a a

theorem acyclic_of_lt {w : World} (h : ∀ a p, parentAdminId w a = some p → p < a) : Acyclic w := by
  have hlt : ∀ a p, Above w p a → p < a := by
    intro a p habove
    induction habove with
    | single hp => exact h _ _ hp
    | tail _ hp ih => exact (h _ _ hp).trans ih
  exact fun a ha => (hlt a a ha).false

/-- The managers above one, the nearest first, at most `n` of them and none from an owner on. -/
def sight (w : World) : ℕ → ℕ → List ℕ
  | 0, _ => []
  | n + 1, a =>
    match parentAdminId w a with
    | none => []
    | some p => if w.isOwnerLike p then [] else p :: sight w n p

section
variable (w : World) (action : String) (spec : ActionSpec)

def off (m : ℕ) : Bool := actionOverride w m action = some false

def granted (m : ℕ) : Bool := rbacAny spec.rbacPerm (adminRbacPerms w m)

def entityGranted (m : ℕ) : Bool :=
  spec.entityEdit.any fun ent => actionAllowed w m ent spec.entityOp

def Passes (q : ℕ) : Prop := off w action q = false ∧ granted w spec q = true

/-- A manager who acts by his permission is stopped by the parents in sight, one who acts by a
grant on the entity is not. -/
def Admitted (m : ℕ) : Prop :=
  grantsExpired w m = false ∧ off w action m = false ∧
    (granted w spec m = true → ∀ q ∈ sight w 6 m, Passes w action spec q) ∧
    (granted w spec m = false → entityGranted w spec m = true)

def Asked (m q : ℕ) : Prop := granted w spec m = true ∧ q ∈ sight w 6 m

/-- Each manager above one who acts, no owner, has no expired grants; unless he is asked, the
action is not switched off for him and he holds it by permission or by a grant on the entity; and
where he holds it by permission, so do the parents in his own sight. -/
def HeldAbove (m : ℕ) : Prop :=
  Admitted w action spec m → ∀ p, Above w p m → w.isOwnerLike p = false →
    grantsExpired w p = false ∧
    (Asked w spec m p ∨ off w action p = false ∧
      (granted w spec p = true ∨ entityGranted w spec p = true)) ∧
    (granted w spec p = true → ∀ q ∈ sight w 6 p, Asked w spec m q ∨ Passes w action spec q)

variable {w action spec}

theorem parentAllows_iff (hacyclic : Acyclic w) (n m : ℕ) :
    parentAllows w action spec.rbacPerm n m = true ↔ ∀ q ∈ sight w n m, Passes w action spec q := by
  induction n generalizing m with
  | zero => simp [parentAllows, sight]
  | succ n ih =>
    rw [parentAllows, sight]
    cases hp : parentAdminId w m with
    | none => simp
    | some p =>
      have hne : p ≠ m := by
        rintro rfl
        exact hacyclic p (.single hp)
      simp only [if_neg hne]
      by_cases howner : w.isOwnerLike p = true
      · simp [howner]
      · simp only [if_neg howner, List.forall_mem_cons, ← ih p]
        simp only [Passes, off, granted]
        by_cases hoff : actionOverride w p action = some false
        · simp [hoff]
        · cases hg : rbacAny spec.rbacPerm (adminRbacPerms w p) <;> simp [hoff]

theorem actionPermitted_iff (hacyclic : Acyclic w)
    (hspec : actionRegistry.lookup action = some spec) (hrbac : spec.rbacPerm ≠ []) (m : ℕ) :
    actionPermitted w m action = true ↔ Admitted w action spec m := by
  have hwalk : parentAllows w action spec.rbacPerm 6 m = true ↔
      ∀ q ∈ sight w 6 m, Passes w action spec q := parentAllows_iff hacyclic 6 m
  simp only [actionPermitted, hspec, if_pos hrbac, Admitted, off, granted, entityGranted]
  cases hexpired : grantsExpired w m
  · by_cases hoff : actionOverride w m action = some false
    · simp [hoff]
    · cases hg : rbacAny spec.rbacPerm (adminRbacPerms w m) <;> simp [hoff, hwalk]
  · simp

/-- A manager never exceeds those above him exactly when the ones that are not asked hold the
action as well. -/
theorem within_parents_iff (hacyclic : Acyclic w)
    (hspec : actionRegistry.lookup action = some spec) (hrbac : spec.rbacPerm ≠ []) (m : ℕ) :
    (actionPermitted w m action = true → ∀ p, Above w p m → w.isOwnerLike p = false →
      actionPermitted w p action = true) ↔ HeldAbove w action spec m := by
  simp only [actionPermitted_iff hacyclic hspec hrbac, HeldAbove]
  refine forall_congr' fun hm => forall_congr' fun p => forall_congr' fun _ =>
    forall_congr' fun _ => ?_
  have hasked : ∀ q, Asked w spec m q → Passes w action spec q := fun q hq => hm.2.2.1 hq.1 q hq.2
  constructor
  · rintro ⟨hexpired, hoff, hsight, hentity⟩
    refine ⟨hexpired, .inr ⟨hoff, ?_⟩, fun hg q hq => .inr (hsight hg q hq)⟩
    cases hg : granted w spec p
    · exact .inr (hentity hg)
    · exact .inl rfl
  · rintro ⟨hexpired, hheld, hsight⟩
    have hsight' : granted w spec p = true → ∀ q ∈ sight w 6 p, Passes w action spec q :=
      fun hg q hq => (hsight hg q hq).elim (hasked q) id
    rcases hheld with hp | ⟨hoff, hg⟩
    · obtain ⟨hoff, hg⟩ := hasked p hp
      exact ⟨hexpired, hoff, hsight', fun hng => absurd hg (by simp [hng])⟩
    · exact ⟨hexpired, hoff, hsight', fun hng => hg.resolve_left (by simp [hng])⟩

end

def family (grantsExpireAt : String) : World where
  admins
    | 1 => some {}
    | 2 => some { roleId := 5 }
    | 3 => some { roleId := 5, parentAdminId := 2 }
    | _ => none
  roles n := if n = 5 then some ⟨"operator", ["users.extend"], .obj []⟩ else none
  policies n := if n = 2 then some { grantsExpireAt := .str grantsExpireAt } else none
  isOwnerLike n := n = 1
  session := none
  clock := ⟨20, 20, fun s => if s = "2026-01-10" then some 10 else none, fun _ => none⟩

theorem acyclic_family (grantsExpireAt : String) : Acyclic (family grantsExpireAt) := by
  refine acyclic_of_lt fun a p h => ?_
  match a with
  | 0 | 1 | 2 => simp [parentAdminId, family] at h
  | 3 =>
    obtain rfl : 2 = p := by simpa [parentAdminId, family] using h
    decide
  | n + 4 => simp [parentAdminId, family] at h

theorem within_parents_family :
    (actionPermitted (family "") 3 "subscriber.extend" = true → ∀ p, Above (family "") p 3 →
      (family "").isOwnerLike p = false → actionPermitted (family "") p "subscriber.extend" = true) ↔
    HeldAbove (family "") "subscriber.extend" ⟨["users.extend"], none, none, "edit", true⟩ 3 :=
  within_parents_iff (acyclic_family "") (by decide) (by decide) 3

/-- The grants of the manager have expired, and his sub-manager still acts. -/
theorem suspended_parent_exceeded :
    ¬ ∀ (w : World) (action : String) (spec : ActionSpec) (m p : ℕ), Acyclic w →
      actionRegistry.lookup action = some spec → spec.rbacPerm ≠ [] →
      actionPermitted w m action = true → Above w p m → w.isOwnerLike p = false →
      actionPermitted w p action = true := by
  intro h
  have hp := h (family "2026-01-10") "subscriber.extend" ⟨["users.extend"], none, none, "edit", true⟩
    3 2 (acyclic_family _) (by decide) (by decide) (by decide) (.single rfl) rfl
  exact absurd hp (by decide)

end RadiusModule.ManagerGrants
