import RadiusModule.Library.Run
import RadiusModule.Services.WgData.Peers

/-!
# The monthly quota of the data tunnel

The interface counts what a peer has transferred since it was installed, and
`sync_quota` stores that count as the figure of the month. The enforcer takes
peers over their limit from the interface, and brings them back in a new month.
-/

namespace RadiusModule.WgData.Quota
open Library

/-- A row of `wireguard_peer` as the quota uses it, the peer's counter on the interface, and what
has happened to the peer: months are numbered, and `''` is none. -/
structure Tunnel where
  status : PeerStatus
  transferLimitBytes : Option ℕ
  quotaBytesUsed : ℕ
  quotaPeriod : Option ℕ
  counter : Option ℕ
  /-- Bytes on the counter that are from before this month. -/
  before : ℕ
  /-- Bytes of this month. -/
  transferred : ℕ
  /-- The counter at its last sync. -/
  seen : ℕ
  /-- Bytes reported since the first sync of this month. -/
  reported : Option ℕ
  /-- The figure after the last sync of this month. -/
  last : Option ℕ
  /-- Whether a count that this month has stored is gone from the interface. -/
  lost : Bool
  blockedIn : Option ℕ
  reopenedIn : Option ℕ

namespace Tunnel
variable (t : Tunnel) (month : ℕ)

/-- `_wg_add_peer`, which leaves a peer that is there as it is. -/
def install : Tunnel := { t with counter := some (t.counter.getD 0) }

/-- `_wg_remove_peer` -/
def uninstall : Tunnel :=
  { t with
    counter := none, before := 0, seen := 0
    lost := t.lost || t.last.any (0 < ·) }

def transfer (n : ℕ) : Tunnel :=
  match t.counter with
  | none => t
  | some c => { t with counter := some (c + n), transferred := t.transferred + n }

def restart : Tunnel := if t.counter.isSome then t.uninstall.install else t

/-- The update of a row by `sync_quota`, and what the interface has reported with it. -/
def sync : Tunnel :=
  match t.counter with
  | none => { t with reported := some (t.reported.getD 0), last := some t.quotaBytesUsed }
  | some c =>
    { t with
      quotaBytesUsed := c, quotaPeriod := some month, seen := c
      reported := some (t.reported.elim 0 (· + (c - t.seen)))
      last := some c }

def suspendPeer : Tunnel :=
  if t.status = .active then { t.uninstall with status := .suspended } else t

def activatePeer : Tunnel :=
  if t.status = .suspended then { t.install with status := .active } else t

def removePeer : Tunnel := { t.uninstall with status := .revoked }

def nextMonth : Tunnel :=
  { t with
    before := t.counter.getD 0, transferred := 0, reported := none, last := none, lost := false }

def isOld : Bool := t.status = .quotaExceeded && t.quotaPeriod ≠ some month

def isOver : Bool :=
  t.status = .active && t.transferLimitBytes.any fun limit =>
    0 < limit && limit ≤ t.quotaBytesUsed

def reopen : Tunnel :=
  if t.isOld month then
    { t.install with
      status := .active, quotaBytesUsed := 0, quotaPeriod := some month
      reopenedIn := some month }
  else t

def block : Tunnel :=
  if t.isOver then { t.uninstall with status := .quotaExceeded, blockedIn := some month } else t

end Tunnel

inductive ServiceStatus
  | active
  | quotaExceeded
  | other
  deriving DecidableEq

/-- The row of `wireguard_data_service` as the quota uses it. -/
structure ServiceRow where
  status : ServiceStatus
  transferLimitBytes : Option ℕ
  quotaBytesUsed : ℕ
  quotaPeriod : Option ℕ

/-- A row of `service_allocation_mirror` with whether it has run out, and its accounts in number:
those that are active or suspended. -/
structure Allocation where
  active : Bool
  expired : Bool
  openAccounts : ℕ

structure World where
  month : ℕ
  tunnels : List Tunnel
  service : ServiceRow
  allocations : List Allocation

structure Results where
  allocationsExpired : ℕ
  vpnAccountsExpired : ℕ
  peersQuotaExceeded : ℕ
  serviceQuotaExceeded : ℕ
  peersReactivated : ℕ
  serviceReactivated : ℕ

namespace ServiceRow
variable (s : ServiceRow) (month : ℕ)

def isOld : Bool := s.status = .quotaExceeded && s.quotaPeriod ≠ some month

def isOver : Bool :=
  s.status = .active && s.transferLimitBytes.any fun limit =>
    0 < limit && limit ≤ s.quotaBytesUsed

def reopen : ServiceRow :=
  if s.isOld month then
    { s with status := .active, quotaBytesUsed := 0, quotaPeriod := some month }
  else s

def block : ServiceRow :=
  if s.isOver then { s with status := .quotaExceeded } else s

end ServiceRow

def Allocation.isDue (a : Allocation) : Bool := a.active && a.expired

def Allocation.expire (a : Allocation) : Allocation :=
  if a.isDue then { a with active := false, openAccounts := 0 } else a

def Allocation.changes (a : Allocation) : ℕ := a.openAccounts - a.expire.openAccounts

namespace World
variable (w : World)

def reopen : World :=
  { w with
    tunnels := w.tunnels.map (·.reopen w.month), service := w.service.reopen w.month }

def enforce (dryRun : Bool) : World × Results :=
  let due := w.allocations.filter Allocation.isDue
  let reopened := if dryRun then w else w.reopen
  let exceeded := reopened.tunnels.filter Tunnel.isOver
  ( if dryRun then w
    else
      { reopened with
        tunnels := reopened.tunnels.map (·.block w.month)
        service := reopened.service.block
        allocations := w.allocations.map Allocation.expire },
    { allocationsExpired := due.length
      vpnAccountsExpired :=
        (due.map fun a => if dryRun then a.openAccounts else a.changes).sum
      peersQuotaExceeded := exceeded.length
      serviceQuotaExceeded := reopened.service.isOver.toNat
      peersReactivated := (w.tunnels.filter (·.isOld w.month)).length
      serviceReactivated := (w.service.isOld w.month).toNat } )

end World

/-- Traffic, what is done to a peer, a new counter, a sync, a run of the enforcer, a new month. -/
inductive Event
  | addPeer (transferLimitBytes : Option ℕ)
  | traffic (i n : ℕ)
  | restart (i : ℕ)
  | suspendPeer (i : ℕ)
  | activatePeer (i : ℕ)
  | removePeer (i : ℕ)
  | syncQuota
  | enforce
  | nextMonth

def Tunnel.fresh (transferLimitBytes : Option ℕ) : Tunnel where
  status := .active
  transferLimitBytes := transferLimitBytes
  quotaBytesUsed := 0
  quotaPeriod := none
  counter := some 0
  before := 0
  transferred := 0
  seen := 0
  reported := none
  last := none
  lost := false
  blockedIn := none
  reopenedIn := none

namespace World

def modify (w : World) (i : ℕ) (f : Tunnel → Tunnel) : World :=
  match w.tunnels[i]? with
  | none => w
  | some t => { w with tunnels := w.tunnels.set i (f t) }

/-- `sync_quota`; a peer that is revoked is left out, and one that the interface does not report
adds nothing. -/
def syncQuota (w : World) : World :=
  { w with
    tunnels := w.tunnels.map fun t => if t.status = .revoked then t else t.sync w.month
    service := { w.service with
      quotaBytesUsed :=
        ((w.tunnels.filter fun t => t.status ≠ .revoked).map fun t => t.counter.getD 0).sum
      quotaPeriod := some w.month } }

def step (w : World) : Event → World
  | .addPeer limit => { w with tunnels := w.tunnels ++ [.fresh limit] }
  | .traffic i n => w.modify i (·.transfer n)
  | .restart i => w.modify i (·.restart)
  | .suspendPeer i => w.modify i (·.suspendPeer)
  | .activatePeer i => w.modify i (·.activatePeer)
  | .removePeer i => w.modify i (·.removePeer)
  | .syncQuota => w.syncQuota
  | .enforce => (w.enforce false).1
  | .nextMonth => { w with month := w.month + 1, tunnels := w.tunnels.map (·.nextMonth) }

end World

def World.Empty (w : World) : Prop := w.tunnels = []

/-- The figure after a sync: bytes of this month, no less than before, and all that was reported. -/
structure Counted (t t' : Tunnel) : Prop where
  bounded : t'.quotaBytesUsed ≤ t'.transferred
  monotone : ∀ f ∈ t.last, f ≤ t'.quotaBytesUsed
  included : ∀ r ∈ t'.reported, r ≤ t'.quotaBytesUsed

/-- A run of the enforcer brings back who was blocked in an earlier month, and blocks nobody it
has brought back this month before his limit is reached. -/
structure Enforced (month : ℕ) (t : Tunnel) : Prop where
  reopened : t.status = .quotaExceeded → ∀ b ∈ t.blockedIn, b < month →
    ((t.reopen month).block month).status = .active
  deserved : t.reopenedIn = some month → t.status = .active →
    ((t.reopen month).block month).status = .quotaExceeded →
      ∀ limit ∈ t.transferLimitBytes, limit ≤ t.transferred

def Kept (w : World) : Event → Prop
  | .syncQuota => ∀ t ∈ w.tunnels, t.status ≠ .revoked → Counted t (t.sync w.month)
  | .enforce => (∀ t ∈ w.tunnels, Enforced w.month t) ∧ (w.enforce true).2 = (w.enforce false).2
  | _ => True

/-- At a sync: nothing on the counter is from before the month, and none of what the month has
stored is gone from it; and who has no counter has a figure of this month, or none. -/
def Tunnel.Clear (t : Tunnel) (month : ℕ) : Prop :=
  if t.counter.isSome then t.before = 0 ∧ t.lost = false
  else t.quotaPeriod = some month ∨ t.quotaBytesUsed = 0

def Clear (w : World) : Event → Prop
  | .syncQuota => ∀ t ∈ w.tunnels, t.status ≠ .revoked → t.Clear w.month
  | _ => True

structure Tunnel.Sound (t : Tunnel) (month : ℕ) : Prop where
  counted : ∀ c ∈ t.counter, c ≤ t.before + t.transferred
  figure : t.quotaPeriod = some month → t.quotaBytesUsed ≤ t.transferred
  period : ∀ q ∈ t.quotaPeriod, q ≤ month
  unsynced : t.last = none →
    t.reported = none ∧ (t.quotaPeriod = some month → t.quotaBytesUsed = 0)
  synced : ∀ f ∈ t.last, t.quotaBytesUsed = f ∧ (t.quotaPeriod = some month ∨ f = 0) ∧
    ∀ r ∈ t.reported, r ≤ f
  held : t.lost = false → ∀ f ∈ t.last, t.seen = f ∧ f ≤ t.counter.getD 0
  unseen : t.counter = none → t.seen = 0
  blocked : t.status = .quotaExceeded →
    t.counter = none ∧ ∃ b, t.blockedIn = some b ∧ b ≤ month ∧ ∀ q ∈ t.quotaPeriod, q ≤ b
  reopened : t.reopenedIn = some month → t.quotaPeriod = some month
  reopenedLe : ∀ r ∈ t.reopenedIn, r ≤ month

namespace Tunnel.Sound
variable {t : Tunnel} {month : ℕ}

theorem fresh (limit : Option ℕ) (month : ℕ) : (Tunnel.fresh limit).Sound month := by
  constructor <;> simp [Tunnel.fresh]

theorem withStatus (h : t.Sound month) {status : PeerStatus} (hstatus : status ≠ .quotaExceeded) :
    Tunnel.Sound { t with status } month :=
  { h with blocked := fun hblocked => absurd hblocked hstatus }

theorem uninstall (h : t.Sound month) : t.uninstall.Sound month where
  counted c hc := by cases hc
  figure := h.figure
  period := h.period
  unsynced := h.unsynced
  synced := h.synced
  held hlost f hf := by
    simp only [Tunnel.uninstall, Bool.or_eq_false_iff] at hlost hf ⊢
    have hzero : f = 0 := by
      rw [Option.mem_def.mp hf] at hlost
      simpa using hlost.2
    rw [hzero]
    exact ⟨rfl, le_rfl⟩
  unseen _ := rfl
  blocked hblocked := ⟨rfl, (h.blocked hblocked).2⟩
  reopened := h.reopened
  reopenedLe := h.reopenedLe

theorem install (h : t.Sound month) (hstatus : t.status ≠ .quotaExceeded) :
    t.install.Sound month where
  counted c hc := by
    obtain rfl := Option.mem_some_iff.mp hc
    cases hcounter : t.counter with
    | none => exact Nat.zero_le _
    | some c => exact h.counted c hcounter
  figure := h.figure
  period := h.period
  unsynced := h.unsynced
  synced := h.synced
  held := h.held
  unseen hnone := by cases hnone
  blocked hblocked := absurd hblocked hstatus
  reopened := h.reopened
  reopenedLe := h.reopenedLe

theorem transfer (h : t.Sound month) (n : ℕ) : (t.transfer n).Sound month := by
  rw [Tunnel.transfer]
  cases hcounter : t.counter with
  | none => exact h
  | some c =>
    refine { h with counted := ?_, figure := ?_, held := ?_, unseen := ?_, blocked := ?_ }
    · rintro c' hc'
      obtain rfl := Option.mem_some_iff.mp hc'
      have hle := h.counted c hcounter
      change c + n ≤ t.before + (t.transferred + n)
      omega
    · exact fun hperiod => (h.figure hperiod).trans (Nat.le_add_right _ _)
    · intro hlost f hf
      obtain ⟨hseen, hle⟩ := h.held hlost f hf
      rw [hcounter, Option.getD_some] at hle
      exact ⟨hseen, hle.trans (Nat.le_add_right _ _)⟩
    · exact fun hnone => (nomatch hnone)
    · intro hblocked
      have hnone := (h.blocked hblocked).1
      rw [hcounter] at hnone
      cases hnone

theorem restart (h : t.Sound month) : t.restart.Sound month := by
  rw [Tunnel.restart]
  split_ifs with hcounter
  · refine h.uninstall.install fun hblocked => ?_
    rw [(h.blocked hblocked).1] at hcounter
    cases hcounter
  · exact h

theorem suspendPeer (h : t.Sound month) : t.suspendPeer.Sound month := by
  rw [Tunnel.suspendPeer]
  split_ifs
  · exact h.uninstall.withStatus (by decide)
  · exact h

theorem activatePeer (h : t.Sound month) : t.activatePeer.Sound month := by
  rw [Tunnel.activatePeer]
  split_ifs with hstatus
  · exact (h.install (by rw [hstatus]; decide)).withStatus (by decide)
  · exact h

theorem removePeer (h : t.Sound month) : t.removePeer.Sound month :=
  h.uninstall.withStatus (by decide)

theorem nextMonth (h : t.Sound month) : t.nextMonth.Sound (month + 1) := by
  have hperiod : t.quotaPeriod ≠ some (month + 1) := fun heq =>
    absurd (h.period _ heq) (Nat.not_succ_le_self month)
  exact
    { counted := by
        intro c hc
        have hcounter : t.counter = some c := hc
        change c ≤ t.counter.getD 0 + 0
        rw [hcounter, Option.getD_some]
        exact le_rfl
      figure := fun heq => absurd heq hperiod
      period := fun q hq => (h.period q hq).trans (Nat.le_succ month)
      unsynced := fun _ => ⟨rfl, fun heq => absurd heq hperiod⟩
      synced := fun f hf => (nomatch hf)
      held := fun _ f hf => (nomatch hf)
      unseen := h.unseen
      blocked := by
        intro hblocked
        obtain ⟨hnone, b, hb, hle, hq⟩ := h.blocked hblocked
        exact ⟨hnone, b, hb, hle.trans (Nat.le_succ month), hq⟩
      reopened := fun heq => absurd (h.reopenedLe _ heq) (Nat.not_succ_le_self month)
      reopenedLe := fun r hr => (h.reopenedLe r hr).trans (Nat.le_succ month) }

theorem reopen (h : t.Sound month) : (t.reopen month).Sound month := by
  rw [Tunnel.reopen]
  split_ifs with hold
  · rw [Tunnel.isOld, Bool.and_eq_true, decide_eq_true_iff, decide_eq_true_iff] at hold
    obtain ⟨hblocked, hperiod⟩ := hold
    obtain ⟨hnone, -⟩ := h.blocked hblocked
    have hzero : ∀ f ∈ t.last, f = 0 := fun f hf =>
      (h.synced f hf).2.1.resolve_left hperiod
    exact
      { counted := fun c hc => by
          obtain rfl := Option.mem_some_iff.mp hc
          rw [hnone]
          exact Nat.zero_le _
        figure := fun _ => Nat.zero_le _
        period := fun q hq => (Option.mem_some_iff.mp hq).ge
        unsynced := fun hlast => ⟨(h.unsynced hlast).1, fun _ => rfl⟩
        synced := fun f hf => ⟨(hzero f hf).symm, .inl rfl, (h.synced f hf).2.2⟩
        held := fun _ f hf => by
          rw [hzero f hf]
          exact ⟨h.unseen hnone, Nat.zero_le _⟩
        unseen := fun hcounter => (nomatch hcounter)
        blocked := fun hstatus => (nomatch hstatus)
        reopened := fun _ => rfl
        reopenedLe := fun r hr => (Option.mem_some_iff.mp hr).ge }
  · exact h

theorem block (h : t.Sound month) : (t.block month).Sound month := by
  rw [Tunnel.block]
  split_ifs
  · exact { h.uninstall with
      blocked := fun _ => ⟨rfl, month, rfl, le_rfl, h.period⟩ }
  · exact h

theorem sync (h : t.Sound month) (hclear : t.Clear month) :
    Counted t (t.sync month) ∧ (t.sync month).Sound month := by
  have hreported : ∀ r ∈ t.reported, ∃ f ∈ t.last, r ≤ f := by
    intro r hr
    cases hlast : t.last with
    | none =>
      rw [(h.unsynced hlast).1] at hr
      cases hr
    | some f => exact ⟨f, rfl, (h.synced f hlast).2.2 r hr⟩
  cases hcounter : t.counter with
  | none =>
    have hsync : t.sync month =
        { t with reported := some (t.reported.getD 0), last := some t.quotaBytesUsed } := by
      rw [Tunnel.sync, hcounter]
    rw [hsync]
    rw [Tunnel.Clear, hcounter, if_neg (by decide)] at hclear
    have hkept : ∀ f ∈ t.last, f = t.quotaBytesUsed := fun f hf => (h.synced f hf).1.symm
    have hincluded : t.reported.getD 0 ≤ t.quotaBytesUsed := by
      cases hr : t.reported with
      | none => exact Nat.zero_le _
      | some r =>
        obtain ⟨f, hf, hle⟩ := hreported r hr
        exact hle.trans (hkept f hf).le
    have hbounded : t.quotaBytesUsed ≤ t.transferred := by
      obtain hperiod | hzero := hclear
      · exact h.figure hperiod
      · rw [hzero]
        exact Nat.zero_le _
    refine ⟨⟨hbounded, fun f hf => (hkept f hf).le, fun r hr => ?_⟩, ?_⟩
    · obtain rfl := Option.mem_some_iff.mp hr
      exact hincluded
    · refine { h with unsynced := ?_, synced := ?_, held := ?_ }
      · exact fun hlast => (nomatch hlast)
      · intro f hf
        obtain rfl := Option.mem_some_iff.mp hf
        refine ⟨rfl, hclear, fun r hr => ?_⟩
        obtain rfl := Option.mem_some_iff.mp hr
        exact hincluded
      · intro hlost f hf
        obtain rfl := Option.mem_some_iff.mp hf
        have hzero : t.quotaBytesUsed = 0 := by
          cases hlast : t.last with
          | none => exact hclear.elim (h.unsynced hlast).2 id
          | some f =>
            have hle := (h.held hlost f hlast).2
            rw [hcounter, Option.getD_none, Nat.le_zero] at hle
            rw [← hkept f hlast, hle]
        change t.seen = t.quotaBytesUsed ∧ t.quotaBytesUsed ≤ t.counter.getD 0
        rw [hzero]
        exact ⟨h.unseen hcounter, Nat.zero_le _⟩
  | some c =>
    have hsync : t.sync month =
        { t with
          quotaBytesUsed := c, quotaPeriod := some month, seen := c
          reported := some (t.reported.elim 0 (· + (c - t.seen)))
          last := some c } := by
      rw [Tunnel.sync, hcounter]
    rw [hsync]
    rw [Tunnel.Clear, hcounter, if_pos (by rfl)] at hclear
    obtain ⟨hbefore, hlost⟩ := hclear
    have hheld : ∀ f ∈ t.last, t.seen = f ∧ f ≤ c := fun f hf => by
      have hle := h.held hlost f hf
      rwa [hcounter, Option.getD_some] at hle
    have hincluded : t.reported.elim 0 (· + (c - t.seen)) ≤ c := by
      cases hr : t.reported with
      | none => exact Nat.zero_le _
      | some r =>
        obtain ⟨f, hf, hle⟩ := hreported r hr
        obtain ⟨hseen, hle'⟩ := hheld f hf
        change r + (c - t.seen) ≤ c
        omega
    have hbounded : c ≤ t.transferred := by
      have hle := h.counted c hcounter
      omega
    refine ⟨⟨hbounded, fun f hf => (hheld f hf).2, fun r hr => ?_⟩, ?_⟩
    · obtain rfl := Option.mem_some_iff.mp hr
      exact hincluded
    · refine { h with
        figure := fun _ => hbounded
        period := fun q hq => (Option.mem_some_iff.mp hq).ge
        unsynced := fun hlast => (nomatch hlast)
        synced := ?_
        held := ?_
        unseen := ?_
        blocked := ?_
        reopened := fun _ => rfl }
      · intro f hf
        obtain rfl := Option.mem_some_iff.mp hf
        refine ⟨rfl, .inl rfl, fun r hr => ?_⟩
        obtain rfl := Option.mem_some_iff.mp hr
        exact hincluded
      · intro _ f hf
        obtain rfl := Option.mem_some_iff.mp hf
        refine ⟨rfl, ?_⟩
        change c ≤ t.counter.getD 0
        rw [hcounter, Option.getD_some]
      · intro hnone
        change t.counter = none at hnone
        rw [hcounter] at hnone
        cases hnone
      · intro hblocked
        have hnone := (h.blocked hblocked).1
        rw [hcounter] at hnone
        cases hnone

theorem enforced (h : t.Sound month) : Enforced month t := by
  constructor
  · intro hstatus b hb hlt
    obtain ⟨-, b', hb', -, hq⟩ := h.blocked hstatus
    obtain rfl : b = b' := Option.some_inj.mp ((Option.mem_def.mp hb).symm.trans hb')
    have hold : t.isOld month = true := by
      rw [Tunnel.isOld, hstatus, Bool.and_eq_true]
      refine ⟨rfl, decide_eq_true fun hperiod => ?_⟩
      exact absurd (hq month hperiod) (not_le.mpr hlt)
    have hover : (t.reopen month).isOver = false := by
      rw [Tunnel.reopen, if_pos hold, Tunnel.isOver, Tunnel.install]
      cases t.transferLimitBytes with
      | none => rfl
      | some limit =>
        simp only [Option.any_some, Nat.le_zero]
        simpa using fun hpos : 0 < limit => hpos.ne'
    rw [Tunnel.block, hover, if_neg Bool.false_ne_true, Tunnel.reopen, if_pos hold]
  · intro hreopened hactive hblocked limit hlimit
    have hold : t.isOld month = false := by
      rw [Tunnel.isOld, hactive]
      rfl
    rw [Tunnel.reopen, hold, if_neg Bool.false_ne_true, Tunnel.block] at hblocked
    split_ifs at hblocked with hover
    · rw [Tunnel.isOver, Option.mem_def.mp hlimit] at hover
      simp only [Option.any_some, Bool.and_eq_true, decide_eq_true_iff] at hover
      exact hover.2.2.trans (h.figure (h.reopened hreopened))
    · rw [hactive] at hblocked
      cases hblocked

end Tunnel.Sound

theorem Tunnel.isOver_reopen (t : Tunnel) (month : ℕ) : (t.reopen month).isOver = t.isOver := by
  rw [Tunnel.reopen]
  split_ifs with hold
  · rw [Tunnel.isOld, Bool.and_eq_true, decide_eq_true_iff] at hold
    have hover : t.isOver = false := by
      rw [Tunnel.isOver, hold.1]
      rfl
    rw [hover, Tunnel.isOver, Tunnel.install]
    cases t.transferLimitBytes with
    | none => rfl
    | some limit => simpa using fun hpos : 0 < limit => hpos.ne'
  · rfl

theorem ServiceRow.isOver_reopen (s : ServiceRow) (month : ℕ) :
    (s.reopen month).isOver = s.isOver := by
  rw [ServiceRow.reopen]
  split_ifs with hold
  · rw [ServiceRow.isOld, Bool.and_eq_true, decide_eq_true_iff] at hold
    have hover : s.isOver = false := by
      rw [ServiceRow.isOver, hold.1]
      rfl
    rw [hover, ServiceRow.isOver]
    cases s.transferLimitBytes with
    | none => rfl
    | some limit => simpa using fun hpos : 0 < limit => hpos.ne'
  · rfl

theorem Allocation.changes_of_due {a : Allocation} (hdue : a.isDue) :
    a.changes = a.openAccounts := by
  rw [Allocation.changes, Allocation.expire, if_pos hdue]
  exact Nat.sub_zero _

theorem World.enforce_results (w : World) : (w.enforce true).2 = (w.enforce false).2 := by
  have hexceeded : ((w.tunnels.map (·.reopen w.month)).filter Tunnel.isOver).length =
      (w.tunnels.filter Tunnel.isOver).length := by
    rw [List.filter_map, List.length_map]
    congr 2
    funext t
    exact t.isOver_reopen w.month
  have hchanges : ((w.allocations.filter Allocation.isDue).map Allocation.changes).sum =
      ((w.allocations.filter Allocation.isDue).map Allocation.openAccounts).sum := by
    congr 1
    exact List.map_congr_left fun a ha => Allocation.changes_of_due (List.mem_filter.mp ha).2
  simp only [World.enforce, if_true, if_false, Bool.false_eq_true, World.reopen]
  rw [hexceeded, ServiceRow.isOver_reopen]
  exact congrArg (fun n => Results.mk _ n _ _ _ _) hchanges.symm

def World.Sound (w : World) : Prop := ∀ t ∈ w.tunnels, t.Sound w.month

theorem World.sound_of_empty {w : World} (hempty : w.Empty) : w.Sound := fun t ht => by
  rw [show w.tunnels = [] from hempty] at ht
  cases ht

theorem World.Sound.modify {w : World} (h : w.Sound) (i : ℕ) {f : Tunnel → Tunnel}
    (hf : ∀ t : Tunnel, t.Sound w.month → (f t).Sound w.month) : (w.modify i f).Sound := by
  rw [World.modify]
  cases hget : w.tunnels[i]? with
  | none => exact h
  | some t =>
    intro u hu
    obtain hold | rfl := List.mem_or_eq_of_mem_set hu
    · exact h u hold
    · exact hf t (h t (List.mem_of_getElem? hget))

theorem World.Sound.step {w : World} (h : w.Sound) (e : Event) (hclear : Clear w e) :
    (w.step e).Sound := by
  cases e with
  | addPeer limit =>
    intro t ht
    obtain hold | hnew := List.mem_append.mp ht
    · exact h t hold
    · obtain rfl := List.mem_singleton.mp hnew
      exact .fresh limit w.month
  | traffic i n => exact h.modify i fun t ht => ht.transfer n
  | restart i => exact h.modify i fun t ht => ht.restart
  | suspendPeer i => exact h.modify i fun t ht => ht.suspendPeer
  | activatePeer i => exact h.modify i fun t ht => ht.activatePeer
  | removePeer i => exact h.modify i fun t ht => ht.removePeer
  | syncQuota =>
    intro u hu
    obtain ⟨t, ht, rfl⟩ := List.mem_map.mp hu
    change (if t.status = .revoked then t else t.sync w.month).Sound w.month
    split_ifs with hrevoked
    · exact h t ht
    · exact ((h t ht).sync (hclear t ht hrevoked)).2
  | enforce =>
    intro u hu
    obtain ⟨v, hv, rfl⟩ := List.mem_map.mp hu
    obtain ⟨t, ht, rfl⟩ := List.mem_map.mp hv
    exact (h t ht).reopen.block
  | nextMonth =>
    intro u hu
    obtain ⟨t, ht, rfl⟩ := List.mem_map.mp hu
    exact (h t ht).nextMonth

theorem World.Sound.kept {w : World} (h : w.Sound) (e : Event) (hclear : Clear w e) :
    Kept w e := by
  cases e with
  | syncQuota => exact fun t ht hrevoked => ((h t ht).sync (hclear t ht hrevoked)).1
  | enforce => exact ⟨fun t ht => (h t ht).enforced, w.enforce_results⟩
  | addPeer | traffic | restart | suspendPeer | activatePeer | removePeer | nextMonth => trivial

/-- A history whose syncs find counters that run with the month counts the bytes of the month. -/
theorem quotaLaw_of_clear {w : World} (hempty : w.Empty) {es : List Event}
    (hclear : Run.Along Clear World.step w es) : Run.Along Kept World.step w es :=
  hclear.of_invariant (fun _ e hsound => hsound.step e) (fun _ e hsound => hsound.kept e)
    (World.sound_of_empty hempty)

def newService : World where
  month := 0
  tunnels := []
  service :=
    { status := .active, transferLimitBytes := none, quotaBytesUsed := 0, quotaPeriod := none }
  allocations := []

instance (t : Tunnel) (month : ℕ) : Decidable (t.Clear month) :=
  inferInstanceAs (Decidable (if t.counter.isSome then t.before = 0 ∧ t.lost = false
    else t.quotaPeriod = some month ∨ t.quotaBytesUsed = 0))

instance (w : World) : (e : Event) → Decidable (Clear w e)
  | .syncQuota =>
    inferInstanceAs (Decidable (∀ t ∈ w.tunnels, t.status ≠ .revoked → t.Clear w.month))
  | .addPeer _ | .traffic _ _ | .restart _ | .suspendPeer _ | .activatePeer _ | .removePeer _
  | .enforce | .nextMonth => .isTrue trivial

theorem blockedAndReopened_law :
    Run.Along Kept World.step newService
      [.addPeer (some 100), .traffic 0 60, .syncQuota, .traffic 0 50, .syncQuota, .enforce,
        .nextMonth, .enforce, .traffic 0 30, .syncQuota] :=
  quotaLaw_of_clear (show newService.Empty from rfl) (by decide)

/-- The first sync of a month stores what a peer has transferred in the month before. -/
theorem lastMonth_is_counted :
    ¬ ∀ w : World, w.Empty → ∀ es, Run.Along Kept World.step w es := fun hlaw => by
  obtain ⟨-, -, -, hkept, -⟩ :=
    hlaw newService rfl [.addPeer none, .traffic 0 100, .nextMonth, .syncQuota]
  have hcounted := hkept _ (List.mem_singleton.mpr rfl) (by decide)
  exact absurd hcounted.bounded (by decide)

end RadiusModule.WgData.Quota
