import Mathlib.Data.List.Sort
import RadiusModule.Core.Database

/-!
# Bandwidth schedules

A schedule gives a speed to a subscriber, a group, a card batch or a plan for
some hours of the day. The rules of a target are tried by priority, and of one
priority the newest first.
-/

namespace RadiusModule.Bandwidth

inductive TargetType
  | plan
  | subscriber
  | cardBatch
  | subscriberGroup
deriving DecidableEq, Repr

/-- A row of `bandwidth_schedules`; the times are minutes of the local day. -/
structure BandwidthSchedule where
  id : ℕ
  tenantId : ℤ := 1
  targetType : TargetType
  planId : Option ℕ := none
  subscriberUsername : String := ""
  cardBatchId : Option ℕ := none
  subscriberGroupId : Option ℕ := none
  startsAt : ℕ
  endsAt : ℕ
  daysCsv : String := ""
  speedDownKbps : ℤ := 0
  speedUpKbps : ℤ := 0
  priority : ℤ := 100
  enabled : Bool := true
deriving DecidableEq, Repr

structure SubscriberGroup where
  id : ℕ
  tenantId : ℤ := 1
  name : String
  deletedAt : Stamp := .null
deriving DecidableEq, Repr

def inTimeWindow (current start stop : ℕ) : Bool :=
  if start = stop then true
  else if start < stop then start ≤ current && current < stop
  else start ≤ current || current < stop

/-- `ORDER BY priority ASC, id DESC` -/
def sooner (a b : BandwidthSchedule) : Prop :=
  a.priority < b.priority ∨ a.priority = b.priority ∧ b.id ≤ a.id

instance : DecidableRel sooner := fun a b =>
  inferInstanceAs (Decidable (a.priority < b.priority ∨ a.priority = b.priority ∧ b.id ≤ a.id))

section
variable (schedules : List BandwidthSchedule) (tenantId : ℤ) (minute : ℕ)

def activeRuleForTarget (targetType : TargetType) (target : BandwidthSchedule → Bool) :
    Option BandwidthSchedule :=
  ((schedules.filter fun r => r.tenantId = tenantId && r.targetType = targetType && r.enabled &&
    target r).insertionSort sooner).find? fun r => inTimeWindow minute r.startsAt r.endsAt

variable (db : Db) (groups : List SubscriberGroup)

def isMember (username : String) (group : SubscriberGroup) : Bool :=
  group.tenantId = tenantId && group.deletedAt.isNull && db.subscribers.any fun s =>
    s.tenantId = tenantId && s.username = username && s.deletedAt.isNull &&
      (s.subscriberGroupId = some group.id || s.group = group.name)

def resolveEffectiveBandwidthSchedule (username : String) (cardBatchId planId : Option ℕ) :
    Option BandwidthSchedule :=
  let active := activeRuleForTarget schedules tenantId minute
  (if username = "" then none
    else active .subscriber (fun r => r.subscriberUsername = username) <|>
      active .subscriberGroup fun r =>
        groups.any fun g => r.subscriberGroupId = some g.id && isMember tenantId db username g) <|>
  cardBatchId.bind (fun id => active .cardBatch fun r => r.cardBatchId = some id) <|>
  planId.bind fun id => active .plan fun r => r.planId = some id

end

end RadiusModule.Bandwidth
