import RadiusModule.Library.IsoText
import RadiusModule.Services.MacAddress

/-!
# Blocks on access

Rows that refuse a request, by whom or what it comes from and for how long, and
the blocks that repeated failures of one device or router bring about. One
tenant is followed. A column that holds `isoformat() + "Z"` is kept as the date,
and compared by that text where SQL does so; an operation reads the clock once.
-/

namespace RadiusModule.AccessControl
open Library PyText MacAddress

inductive BlockType
  | subscriber
  | group
  | plan
  | cardBatch
  | allSubscribers
  | allHotspot
  | allCards
  | allPppoe
  | ip
  | mac
deriving DecidableEq

inductive DurationMode
  | permanent
  | dailyWindow
  | untilExpiry
deriving DecidableEq

structure Block where
  id : ℕ
  blockType : BlockType
  target : String := ""
  durationMode : DurationMode := .permanent
  windowStart : String := ""
  windowEnd : String := ""
  expiresAt : Option DateTime := none
  active : Bool := true

structure Blocks where
  rows : List Block
  increasing : rows.Pairwise (·.id < ·.id)

structure Failure where
  ip : String
  mac : String
  createdAt : DateTime

structure Db where
  blocks : Blocks
  failures : List Failure

structure Settings where
  autoblockEnabled : String := "0"
  autoblockThreshold : String := "5"
  autoblockWindowSec : String := "300"
  autoblockDurationMin : String := "60"
  autoblockTarget : String := "mac"

def truthyTexts : List String := ["1", "true", "t", "on", "yes", "True"]

def settingInt (text : String) (default : ℤ) : ℤ := (int? text).getD default

namespace Settings

variable (s : Settings)

def enabled : Bool := truthyTexts.contains (lower (strip s.autoblockEnabled))

def threshold : ℤ := max 1 (settingInt s.autoblockThreshold 5)

def windowSec : ℤ := max 1 (settingInt s.autoblockWindowSec 300)

def durationMin : ℤ := max 1 (settingInt s.autoblockDurationMin 60)

def targetKind : String :=
  lower (strip (if s.autoblockTarget = "" then "ip" else s.autoblockTarget))

end Settings

structure AuthContext where
  ofCard : Bool := false
  username : String := ""
  group : String := ""
  planId : Option ℤ := none
  cardBatchId : Option ℤ := none
  serviceType : String := ""
  nasIp : String := ""
  mac : String := ""

def hmToMinutes (hm : String) : Option ℤ :=
  match split (strip hm) ':' with
  | [h, m] =>
    match int? h, int? m with
    | some h, some m => if 0 ≤ h ∧ h ≤ 23 ∧ 0 ≤ m ∧ m ≤ 59 then some (h * 60 + m) else none
    | _, _ => none
  | _ => none

def inDailyWindow (start stop : String) (cur : ℤ) : Bool :=
  match hmToMinutes start, hmToMinutes stop with
  | some s, some e =>
    if s = e then true
    else if s < e then s ≤ cur && cur < e
    else s ≤ cur || cur < e
  | _, _ => true

def blockMatches (block : Block) (ctx : AuthContext) : Bool :=
  match block.blockType with
  | .subscriber => ctx.username ≠ "" && block.target = ctx.username
  | .group => ctx.group ≠ "" && block.target = ctx.group
  | .plan => ctx.planId.any fun id => block.target = toString id
  | .cardBatch => ctx.cardBatchId.any fun id => block.target = toString id
  | .allSubscribers => !ctx.ofCard
  | .allCards => ctx.ofCard
  | .allHotspot => lower ctx.serviceType = "hotspot"
  | .allPppoe => lower ctx.serviceType = "pppoe"
  | .ip => ctx.nasIp ≠ "" && block.target = ctx.nasIp
  | .mac => ctx.mac ≠ "" && normalizeMac block.target = normalizeMac ctx.mac

/-- `list_blocks` of the active rows: the newest first. -/
def listBlocks (blocks : Blocks) (limit : ℕ) : List Block :=
  (blocks.rows.filter Block.active).reverse.take limit

section

-- The minute of the day on the clock of the tenant's time zone.
variable (localMinute : DateTime → ℤ)

def isBlockInEffect (block : Block) (now : DateTime) : Bool :=
  if !block.active then false
  else match block.durationMode with
    | .permanent => true
    | .untilExpiry => block.expiresAt.all (now.1 < ·.1)
    | .dailyWindow => inDailyWindow block.windowStart block.windowEnd (localMinute now)

def findActiveBlock (blocks : Blocks) (ctx : AuthContext) (now : DateTime) : Option Block :=
  (listBlocks blocks 1000).find? fun block =>
    blockMatches block ctx && isBlockInEffect localMinute block now

end

def stamp (t : DateTime) : String := IsoText.isoformat t ++ "Z"

namespace Blocks

def empty : Blocks := ⟨[], List.Pairwise.nil⟩

variable (blocks : Blocks)

def lastId : ℕ := (blocks.rows.getLast?.map Block.id).getD 0

theorem id_le_lastId {b : Block} (hb : b ∈ blocks.rows) : b.id ≤ blocks.lastId := by
  obtain ⟨rows, hrows⟩ := blocks
  rcases List.eq_nil_or_concat' rows with rfl | ⟨front, last, rfl⟩
  · cases hb
  · have hlast : (Blocks.mk (front ++ [last]) hrows).lastId = last.id := by simp [lastId]
    rw [hlast]
    obtain hfront | hlast := List.mem_append.mp hb
    · exact (List.pairwise_append.mp hrows).2.2 b hfront last (List.mem_singleton_self last) |>.le
    · rw [List.mem_singleton.mp hlast]

def create (block : Block) : Blocks :=
  ⟨blocks.rows ++ [{ block with id := blocks.lastId + 1 }], by
    refine List.pairwise_append.mpr ⟨blocks.increasing, List.pairwise_singleton _ _, ?_⟩
    intro b hb new hnew
    rw [List.mem_singleton.mp hnew]
    exact Nat.lt_succ_of_le (blocks.id_le_lastId hb)⟩

def deactivate (p : Block → Bool) : Blocks :=
  ⟨blocks.rows.map fun b => if p b then { b with active := false } else b, by
    refine List.pairwise_map.mpr (blocks.increasing.imp fun {a b} h => ?_)
    split_ifs <;> exact h⟩

end Blocks

def clearBlock (blocks : Blocks) (id : ℕ) : Blocks :=
  blocks.deactivate fun b => b.id = id && b.active

def deactivateExpired (blocks : Blocks) (now : DateTime) : Blocks :=
  blocks.deactivate fun b => b.active && b.durationMode = .untilExpiry &&
    b.expiresAt.any fun expires => stamp expires ≤ stamp now

def hasActiveBlock (blocks : Blocks) (blockType : BlockType) (target : String) : Bool :=
  blocks.rows.any fun b => b.active && b.blockType = blockType && b.target = target

def countRecentFailures (failures : List Failure) (blockType : BlockType) (value : String)
    (since : DateTime) : ℕ :=
  failures.countP fun f => stamp since ≤ stamp f.createdAt &&
    (blockType ≠ .ip || f.ip = value) && (blockType ≠ .mac || f.mac = value)

def purgeOldFailures (failures : List Failure) (before : DateTime) : List Failure :=
  failures.filter fun f => !(stamp f.createdAt < stamp before)

def untilBlock (blockType : BlockType) (target : String) (expires : DateTime) : Block :=
  { id := 0, blockType, target, durationMode := .untilExpiry, expiresAt := some expires }

/-- The block that `register_failed_attempt` makes for one address, and its id. -/
def autoblock (s : Settings) (since expires : DateTime) (acc : Db × Option ℕ)
    (want : BlockType × String) : Db × Option ℕ :=
  if (countRecentFailures acc.1.failures want.1 want.2 since : ℤ) < s.threshold then acc
  else if hasActiveBlock acc.1.blocks want.1 want.2 then acc
  else ({ acc.1 with blocks := acc.1.blocks.create (untilBlock want.1 want.2 expires) },
    some (acc.1.blocks.lastId + 1))

def wants (s : Settings) (ip mac : String) : List (BlockType × String) :=
  (if (s.targetKind = "ip" ∨ s.targetKind = "both") ∧ ip ≠ "" then [(.ip, ip)] else []) ++
    if (s.targetKind = "mac" ∨ s.targetKind = "both") ∧ mac ≠ "" then [(.mac, mac)] else []

def pruned (s : Settings) (failures : List Failure) (now : DateTime) : List Failure :=
  match now.addSeconds? (-(s.windowSec * 2)) with
  | some cutoff => purgeOldFailures failures cutoff
  | none => failures

def registerFailedAttempt (s : Settings) (db : Db) (ip mac : String) (now : DateTime) :
    Db × Option ℕ :=
  let ip := strip ip
  let mac := normalizeMac mac
  let failures := db.failures ++ [⟨ip, mac, now⟩]
  if !s.enabled then ({ db with failures }, none)
  else
    let failures := pruned s failures now
    match now.addSeconds? (-s.windowSec), now.addSeconds? (60 * s.durationMin) with
    | some since, some expires =>
      (wants s ip mac).foldl (autoblock s since expires) ({ db with failures }, none)
    | _, _ => ({ db with failures }, none)

inductive Op
  | attempt (ip mac : String) (now : DateTime)
  | clear (id : ℕ)
  | sweep (now : DateTime)

def Op.failure? : Op → Option Failure
  | .attempt ip mac now => some ⟨strip ip, normalizeMac mac, now⟩
  | .clear _ => none
  | .sweep _ => none

def step (s : Settings) (db : Db) : Op → Db
  | .attempt ip mac now => (registerFailedAttempt s db ip mac now).1
  | .clear id => { db with blocks := clearBlock db.blocks id }
  | .sweep now => { db with blocks := deactivateExpired db.blocks now }

def run (s : Settings) (db : Db) (ops : List Op) : Db := ops.foldl (step s) db

end RadiusModule.AccessControl
