import Mathlib.Data.Int.Notation
import Mathlib.Logic.Function.Basic
import RadiusModule.Library.Coalesce

/-!
# Jobs on a router

A job is a snapshot of a subscriber, a plan or a pool, or a change to one, and is carried out on the
menus of a router. An upsert sets what its snapshot says and leaves the other attributes of the item
as they are, so of two upserts the first can leave a trace. The password, the `disabled` mark and the
ranges are set by every upsert: on these a job is settled by the last one of its kind.
-/

namespace RadiusModule.RouterSync
open Library

structure SubscriberPayload where
  username : String
  password : String
  status : String
  macLock : String := ""
  staticIp : String := ""
  email : String := ""
  remark : String := ""
  profileName : String := ""

structure PlanPayload where
  name : String
  speedUpKbps : ℤ := 0
  speedDownKbps : ℤ := 0
  sessionTimeoutSec : ℤ := 0
  idleTimeoutSec : ℤ := 0
  concurrentSessions : ℤ := 1
  addressPool : String := ""

inductive Body
  | subscriberUpsert (p : SubscriberPayload)
  | subscriberDelete (username : String)
  | resetPassword (username password : String)
  | disconnect (username : String)
  | planUpsert (p : PlanPayload)
  | planDelete (name : String)
  | poolUpsert (name ranges : String)

inductive Kind
  | subscriberUpsert | subscriberDelete | resetPassword | disconnect
  | planUpsert | planDelete
  | poolUpsert
deriving DecidableEq

def Body.kind : Body → Kind
  | .subscriberUpsert _ => .subscriberUpsert
  | .subscriberDelete _ => .subscriberDelete
  | .resetPassword _ _ => .resetPassword
  | .disconnect _ => .disconnect
  | .planUpsert _ => .planUpsert
  | .planDelete _ => .planDelete
  | .poolUpsert _ _ => .poolUpsert

def Body.key : Body → String
  | .subscriberUpsert p => p.username
  | .subscriberDelete username | .resetPassword username _ | .disconnect username => username
  | .planUpsert p => p.name
  | .planDelete name | .poolUpsert name _ => name

inductive Menu
  | user | profile | pool
deriving DecidableEq

abbrev Item := String → Option String

abbrev Menus := Menu × String → Option Item

structure Router where
  menus : Menus
  active : List String

/-- `add` on a new item and `set` on one that is there. -/
def assign (attrs : List (String × String)) (item : Option Item) : Option Item :=
  some fun field => (attrs.lookup field).or ((item.getD fun _ => none) field)

def given (field value : String) : List (String × String) :=
  if value = "" then [] else [(field, value)]

def subscriberAttrs (p : SubscriberPayload) : List (String × String) :=
  [("name", p.username), ("password", p.password),
    ("disabled", if p.status = "disabled" then "yes" else "no")] ++
  given "profile" p.profileName ++ given "mac-address" p.macLock ++ given "address" p.staticIp ++
  given "email" p.email ++ given "comment" (String.ofList (p.remark.toList.take 200))

def planAttrs (p : PlanPayload) : List (String × String) :=
  [("name", p.name)] ++
  (if p.speedUpKbps ≠ 0 ∨ p.speedDownKbps ≠ 0 then
    [("rate-limit", toString p.speedUpKbps ++ "k/" ++ toString p.speedDownKbps ++ "k")] else []) ++
  (if p.sessionTimeoutSec ≠ 0 then [("session-timeout", toString p.sessionTimeoutSec ++ "s")]
    else []) ++
  (if p.idleTimeoutSec ≠ 0 then [("idle-timeout", toString p.idleTimeoutSec ++ "s")] else []) ++
  (if p.concurrentSessions ≠ 0 then [("shared-users", toString p.concurrentSessions)] else []) ++
  given "address-pool" p.addressPool

def Body.effect : Body → Option Item → Option Item
  | .subscriberUpsert p, item => assign (subscriberAttrs p) item
  | .subscriberDelete _, _ => none
  | .resetPassword _ password, item => item.bind fun i => assign [("password", password)] (some i)
  | .disconnect _, item => item
  | .planUpsert p, item => assign (planAttrs p) item
  | .planDelete _, _ => none
  | .poolUpsert name ranges, item => assign [("name", name), ("ranges", ranges)] item

def Kind.family : Kind → Menu
  | .subscriberUpsert | .subscriberDelete | .resetPassword | .disconnect => .user
  | .planUpsert | .planDelete => .profile
  | .poolUpsert => .pool

def Body.place (b : Body) : Menu × String := (b.kind.family, b.key)

def Body.sessions : Body → List String → List String
  | .disconnect username, active => active.erase username
  | _, active => active

/-- `_execute_on_router` -/
def execute (r : Router) (b : Body) : Router where
  menus := Function.update r.menus b.place (b.effect (r.menus b.place))
  active := b.sessions r.active

def settled : Menu → List String
  | .user => ["password", "disabled"]
  | .profile => []
  | .pool => ["ranges"]

def restrict (menu : Menu) (item : Item) : Item :=
  fun field => if field ∈ settled menu then item field else none

def core (menus : Menus) : Menus := fun place => (menus place).map (restrict place.1)

def act (c : Menus) (b : Body) : Menus :=
  Function.update c b.place ((b.effect (c b.place)).map (restrict b.place.1))

theorem restrict_restrict (menu : Menu) (item : Item) :
    restrict menu (restrict menu item) = restrict menu item := by
  funext field
  by_cases hfield : field ∈ settled menu
  · rw [restrict, if_pos hfield]
  · rw [restrict, restrict, if_neg hfield, if_neg hfield]

theorem restrict_assign {menu : Menu} (attrs : List (String × String)) (item : Option Item) :
    (assign attrs (item.map (restrict menu))).map (restrict menu) =
      (assign attrs item).map (restrict menu) := by
  simp only [assign, Option.map_some, Option.some.injEq]
  funext field
  by_cases hfield : field ∈ settled menu
  · simp only [restrict, if_pos hfield]
    cases item <;> simp [restrict, hfield]
  · simp only [restrict, if_neg hfield]

theorem effect_restrict (b : Body) (item : Option Item) :
    (b.effect (item.map (restrict b.place.1))).map (restrict b.place.1) =
      (b.effect item).map (restrict b.place.1) := by
  cases b with
  | subscriberUpsert p => exact restrict_assign _ _
  | subscriberDelete => rfl
  | resetPassword username password =>
    cases item with
    | none => rfl
    | some i => exact restrict_assign _ (some i)
  | disconnect =>
    simp only [Body.effect, Option.map_map]
    exact congrArg (fun f => item.map f) (funext fun i => restrict_restrict _ i)
  | planUpsert p => exact restrict_assign _ _
  | planDelete => rfl
  | poolUpsert name ranges => exact restrict_assign _ _

theorem core_execute (r : Router) (b : Body) : core (execute r b).menus = act (core r.menus) b := by
  funext place
  by_cases hplace : place = b.place
  · subst hplace
    simp only [core, act, execute, Function.update_self]
    exact (effect_restrict b _).symm
  · simp only [core, act, execute, Function.update_of_ne hplace]

theorem swaps_of_place_ne {a b : Body} (h : a.place ≠ b.place) : Coalesce.Swaps act a b := by
  intro c
  simp only [act, Function.update_of_ne h, Function.update_of_ne (Ne.symm h)]
  exact Function.update_comm h _ _ _

theorem assign_assign {menu : Menu} {attrs : List (String × String)}
    (hattrs : ∀ field ∈ settled menu, (attrs.lookup field).isSome) (item item' : Option Item) :
    (assign attrs item).map (restrict menu) = (assign attrs item').map (restrict menu) := by
  simp only [assign, Option.map_some, Option.some.injEq]
  funext field
  by_cases hfield : field ∈ settled menu
  · obtain ⟨value, hvalue⟩ := Option.isSome_iff_exists.mp (hattrs field hfield)
    simp only [restrict, if_pos hfield, hvalue, Option.some_or]
  · simp only [restrict, if_neg hfield]

theorem absorbs_of_kind_eq {a b : Body} (hkind : a.kind = b.kind) (hkey : a.key = b.key) :
    Coalesce.Absorbs act b a := by
  have hplace : a.place = b.place := by rw [Body.place, Body.place, hkind, hkey]
  intro c
  simp only [act, hplace, Function.update_self, Function.update_idem]
  refine congrArg (Function.update c b.place) ?_
  rw [effect_restrict]
  generalize c b.place = item
  cases a <;> cases b <;> cases hkind
  case subscriberUpsert.subscriberUpsert p q =>
    refine assign_assign (fun field hfield => ?_) _ _
    rcases List.mem_cons.mp hfield with rfl | hfield
    · rfl
    · cases List.mem_singleton.mp hfield
      rfl
  case resetPassword.resetPassword username password username' password' =>
    cases item with
    | none => rfl
    | some i =>
      simp only [Body.effect, Option.bind_some, assign, Option.getD_some, Option.map_some,
        Option.some.injEq]
      funext field
      by_cases hfield : field = "password" <;> simp [restrict, hfield]
  case planUpsert.planUpsert p q => exact assign_assign (fun _ h => absurd h List.not_mem_nil) _ _
  case poolUpsert.poolUpsert name ranges name' ranges' =>
    refine assign_assign (fun field hfield => ?_) _ _
    cases List.mem_singleton.mp hfield
    rfl
  all_goals rfl

end RadiusModule.RouterSync
