import RadiusModule.Library.Dict
import RadiusModule.Services.ManagerGrants

/-!
# The page of a manager's overrides

Each action and each flag of a manager is shown as inherited, allowed or denied,
and is saved so. The page is read from the flags and the action grants of his
policy, and written back into them.
-/

namespace RadiusModule.ManagerGrants
open Library PyText

/-- `_actions` of the action grants, a flag of the permissions, or an operation on an entity. -/
inductive Place
  | flag (flag : String)
  | action (key : String)
  | entity (entity op : String)
deriving DecidableEq

structure TriRow where
  key : String
  store : Place
  rbac : List String
  visibility : Bool := false
deriving DecidableEq

def scopeFlagRegistry : List String :=
  ["can_view_all_subscribers", "can_view_all_card_batches", "can_see_wholesale",
    "can_see_password", "can_see_balance", "can_see_profit", "can_create_sub_managers"]

def storeOf (key : String) (spec : ActionSpec) : Place :=
  if spec.rbacPerm ≠ [] then .action key
  else match spec.flag, spec.entityEdit with
    | some flag, _ => .flag flag
    | none, some ent => .entity ent spec.entityOp
    | none, none => .action key

/-- Every action has a flag, an endpoint or a page of its own, so that none is left out. -/
def triRows : List TriRow :=
  (actionRegistry.map fun a => { key := a.1, store := storeOf a.1 a.2, rbac := a.2.rbacPerm }) ++
    scopeFlagRegistry.map fun flag =>
      { key := flag, store := .flag flag, rbac := [], visibility := true }

def triInputName (key : String) : String := "tri_" ++ key

def editableFlagKeys : List String :=
  scopeFlagRegistry ++ actionRegistry.filterMap fun a =>
    if a.2.rbacPerm = [] then a.2.flag else none

def entry (actionGrants : Dict String Json) (ent : String) : Dict String Json :=
  dict ((actionGrants.get? ent).getD .null)

def Grants.placed (g : Grants) : Place → Option Json
  | .flag flag => g.flags.get? flag
  | .action key => (entry g.actionGrants "_actions").get? key
  | .entity ent op => (entry g.actionGrants ent).get? op

def override : Json → Option Bool
  | .null => none
  | v => some v.truthy

def triGet (g : Grants) (store : Place) : Option Bool := (g.placed store).bind override

def triStateOf : Option Bool → String
  | none => "inherit"
  | some true => "allow"
  | some false => "deny"

/-- The value of a state; `none` where the text is no state. -/
def triValueOf (state : String) : Option (Option Bool) :=
  let s := lower (strip state)
  if s = "inherit" then some none
  else if s = "allow" then some (some true)
  else if s = "deny" then some (some false)
  else none

def ownGrants (w : World) (admin : ℕ) : Grants :=
  if admin = 0 then {}
  else match w.policies admin with
    | some p => { flags := p.flags, actionGrants := p.actionGrants }
    | none => {}

def blobActionChecked (blob : Grants) (key : String) (spec : ActionSpec) : Bool :=
  match spec.flag, spec.entityEdit with
  | some flag, _ => (blob.flags.get? flag).any Json.truthy
  | none, some ent => ((entry blob.actionGrants ent).get? spec.entityOp).any Json.truthy
  | none, none => (triGet blob (.action key)).getD spec.default

def roleBaselineAction (w : World) (admin : ℕ) (key : String) : Bool :=
  let spec := (actionRegistry.lookup key).getD {}
  match roleGrants w admin with
  | some rg => blobActionChecked rg key spec
  | none => spec.default

def triEffective (w : World) (admin : ℕ) (row : TriRow) : Bool :=
  match row.visibility, row.store with
  | true, .flag flag => ((grantsRow w admin).flags.get? flag).any Json.truthy
  | _, _ => actionPermitted w admin row.key

abbrev Form := String → Option String

def checked (form : Form) (name : String) : Bool :=
  (form name).any (["1", "on", "true", "yes"].contains ·)

structure Actor where
  id : ℕ
  isOwner : Bool

section
variable (w : World) (admin : ℕ) (form : Form)

/-- What the form sets of a row, by its three states or by a box of an older form; `none` where
the row is left alone. -/
def submitted (row : TriRow) : Option (Option Bool) :=
  match form (triInputName row.key) with
  | some state => triValueOf state
  | none =>
    if row.rbac ≠ [] then none
    else match row.store with
      | .flag flag =>
        if flag ∈ editableFlagKeys then
          let desired := checked form flag
          let roleVal := (triGet ((roleGrants w admin).getD {}) row.store).getD false
          some (if desired = roleVal then none else some desired)
        else none
      | .entity _ _ => none
      | .action _ =>
        let desired := checked form ("action_" ++ row.key)
        some (if desired = roleBaselineAction w admin row.key then none else some desired)

def refused (actor : Actor) (row : TriRow) (val : Option Bool) : Bool :=
  val = some true && !actor.isOwner && actor.id ≠ 0 &&
    triGet (ownGrants w admin) row.store ≠ some true && !triEffective w actor.id row

end

structure Draft where
  flags : Dict String Json
  acts : Dict String Json
  actionGrants : Dict String Json

def putEntry (actionGrants : Dict String Json) (ent : String) (fields : Dict String Json) :
    Dict String Json :=
  if fields.isEmpty then actionGrants.keep fun k => k ≠ ent
  else actionGrants.put ent (.obj fields)

def dropBatchEdit (actionGrants : Dict String Json) : Dict String Json :=
  match actionGrants.get? "batch" with
  | some (.obj ent) => putEntry actionGrants "batch" (Dict.keep ent fun k => k ≠ "edit")
  | _ => actionGrants

def Draft.write (d : Draft) (row : TriRow) (val : Option Bool) : Draft :=
  match row.store with
  | .flag flag => { d with flags := d.flags.assign flag (val.map .bool) }
  | .action key =>
    { d with
      acts := d.acts.assign key (val.map .bool)
      actionGrants := if row.key = "batch.edit" then dropBatchEdit d.actionGrants
        else d.actionGrants }
  | .entity ent op =>
    { d with
      actionGrants := putEntry d.actionGrants ent
        ((entry d.actionGrants ent).assign op (val.map .bool)) }

def Draft.start (own : Grants) : Draft where
  flags := (own.flags.keep (editableFlagKeys.contains ·)).mapValues fun v => .bool v.truthy
  acts := entry own.actionGrants "_actions"
  actionGrants := own.actionGrants

def Draft.save (d : Draft) : Grants where
  flags := d.flags
  actionGrants := putEntry d.actionGrants "_actions" d.acts

def saveManagerOverrides (w : World) (admin : ℕ) (form : Form) (actor : Actor) : Grants :=
  (triRows.foldl
    (fun d row => match submitted w admin form row with
      | none => d
      | some val => if refused w admin actor row val then d else d.write row val)
    (Draft.start (ownGrants w admin))).save

def Place.flag? : Place → Option String
  | .flag key => some key
  | _ => none

def Place.action? : Place → Option String
  | .action key => some key
  | _ => none

def keysOf (key? : Place → Option String) : List String :=
  triRows.filterMap fun row => key? row.store

def Grants.boxed (g : Grants) (place : String → Place) (keys : List String)
    (stored : Dict String Json) : Dict String Json :=
  stored.assignAll (keys.map fun k => (k, (triGet g (place k)).map .bool))

/-- The rows of the page as they are shown and the action grants that it has no row for, but no
flag without a row and no old grant on batches. -/
def Grants.kept (g : Grants) : Grants where
  flags := g.boxed .flag (keysOf Place.flag?) []
  actionGrants :=
    putEntry
      (putEntry (dropBatchEdit g.actionGrants) "offer"
        (g.boxed (.entity "offer") ["edit", "create"] (entry g.actionGrants "offer")))
      "_actions" (g.boxed .action (keysOf Place.action?) (entry g.actionGrants "_actions"))

structure Grants.Plain (g : Grants) : Prop where
  flags : ∀ flag v, g.flags.get? flag = some v →
    flag ∈ keysOf Place.flag? ∧ ∃ b, v = .bool b
  actions : ∀ v, g.actionGrants.get? "_actions" = some v → ∃ fields, v = .obj fields ∧
    ∀ key ∈ keysOf Place.action?, ∀ u, Dict.get? fields key = some u → ∃ b, u = .bool b
  offer : ∀ v, g.actionGrants.get? "offer" = some v → ∃ fields, v = .obj fields ∧
    ∀ op ∈ ["edit", "create"], ∀ u, Dict.get? fields op = some u → ∃ b, u = .bool b
  batch : (entry g.actionGrants "batch").get? "edit" = none

structure Grants.Loaded (g : Grants) : Prop where
  flags : (g.flags.map Prod.fst).Nodup
  outer : (g.actionGrants.map Prod.fst).Nodup
  inner : ∀ ent, ((entry g.actionGrants ent).map Prod.fst).Nodup

def Displays (form : Form) (g : Grants) : Prop :=
  ∀ row ∈ triRows, form (triInputName row.key) = some (triStateOf (triGet g row.store))

def isTrue : Json → Bool
  | .bool b => b
  | _ => false

end RadiusModule.ManagerGrants
