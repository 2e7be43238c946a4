import RadiusModule.Library.Run
import RadiusModule.Library.Seats
import RadiusModule.Services.AccountingEvents
import RadiusModule.Services.DeviceLimit

/-!
# Device seats over a run

Claims of one limited user interleave with the Start and Stop events that
reach `radacct`. A device holds a seat while it waits for the session of an
admission or has a live session. Every step of the system is a step of the
abstract seats, so the limit holds at every moment.
-/

namespace RadiusModule.DeviceLimit
open Library PyText AccountingEvents

structure LimitedUser where
  tenantId : ℤ
  username : String
  limit : ℕ
  window : ℤ

structure Floor where
  claims : List Claim
  table : RadacctTable
  admitted : List (String × ℤ)
  clock : ℤ

inductive Op
  | claim (now : ℤ) (mac : String)
  | start (now : ℤ) (e : Event)
  | stop (now : ℤ) (e : Event)

def Op.time : Op → ℤ
  | claim now _ | start now _ | stop now _ => now

section
variable (u : LimitedUser)

def claimAt (s : Floor) (now : ℤ) (mac : String) : Bool × List Claim :=
  claimSlot s.claims s.table u.window now u.tenantId u.username ⟨mac, false⟩ u.limit true false

def Floor.step (s : Floor) : Op → Floor
  | .claim now mac =>
    { s with
      claims := (claimAt u s now mac).2
      admitted :=
        if (claimAt u s now mac).1 then (macNorm mac, now) :: s.admitted else s.admitted
      clock := now }
  | .start now e => { s with table := (start s.table now e).1, clock := now }
  | .stop now e => { s with table := (stop s.table now e).1, clock := now }

abbrev Floor.run (s : Floor) (ops : List Op) : Floor := Run.run (Floor.step u) s ops

def sessionOf (d : String) (r : Radacct) : Bool :=
  ofUser u.tenantId u.username r && macNorm r.callingStationId = d

def hasStarted (s : Floor) (p : String × ℤ) : Bool :=
  s.table.rows.any fun r => sessionOf u p.1 r && r.acctStartTime.notBefore p.2

def waits (s : Floor) (now : ℤ) (p : String × ℤ) : Bool :=
  !(p.2 < afterSeconds now (-claimTtlSeconds)) && !hasStarted u s p

def waiting (s : Floor) (now : ℤ) : List String := (s.admitted.filter (waits u s now)).map Prod.fst

def online (s : Floor) (now : ℤ) : List String :=
  (s.table.select (liveSession u.window now u.tenantId u.username)).map fun r =>
    macNorm r.callingStationId

def occupied (s : Floor) (now : ℤ) : Finset String := (waiting u s now ++ online u s now).toFinset

structure Fresh (s : Floor) : Prop where
  claims : ∀ c ∈ s.claims, ¬(c.tenantId = u.tenantId ∧ c.username = u.username)
  table : ∀ r ∈ s.table.rows, ofUser u.tenantId u.username r = true → r.acctStopTime.isOpen = false
  admitted : s.admitted = []

def Apart (s : Floor) : Prop :=
  ∀ p ∈ s.admitted, ∀ r ∈ s.table.rows, sessionOf u p.1 r = true →
    r.acctStartTime.notBefore (afterSeconds p.2 (-toleranceSeconds)) = true →
      r.acctStartTime.notBefore p.2 = true

def Plain (s : Floor) (op : Op) : Prop :=
  s.clock ≤ op.time ∧
    match op with
    | .claim _ mac => mac ≠ ""
    | .start _ e | .stop _ e => e.tenantId = u.tenantId ∧ e.username = u.username

/-- The address of a request has a letter or a digit, and a session is opened by a device
that holds a seat. -/
def Allowed (s : Floor) (op : Op) : Prop :=
  Plain u s op ∧ Apart u (s.step u op) ∧
    match op with
    | .claim _ mac => macNorm mac ≠ ""
    | .start now e =>
      openSession s.table e.key = none → macNorm e.callingStationId ∈ occupied u s now
    | .stop _ _ => True

structure Tracked (s : Floor) : Prop where
  claim : ∀ p ∈ s.admitted, afterSeconds s.clock (-claimTtlSeconds) ≤ p.2 →
    ∃ c ∈ s.claims, c.tenantId = u.tenantId ∧ c.username = u.username ∧
      keyMac c.deviceKey = p.1 ∧ p.2 ≤ c.claimedAt ∧ (p.1, c.claimedAt) ∈ s.admitted
  past : ∀ p ∈ s.admitted, p.2 ≤ s.clock
  named : ∀ p ∈ s.admitted, p.1 ≠ ""
  apart : Apart u s

end

variable {u : LimitedUser}

theorem afterSeconds_mono {s t : ℤ} (h : s ≤ t) (n : ℤ) : afterSeconds s n ≤ afterSeconds t n := by
  simp only [afterSeconds]
  omega

theorem mem_occupied {s : Floor} {now : ℤ} {d : String} :
    d ∈ occupied u s now ↔ (∃ p ∈ s.admitted, waits u s now p = true ∧ p.1 = d) ∨
      ∃ r ∈ s.table.rows, liveSession u.window now u.tenantId u.username r = true ∧
        macNorm r.callingStationId = d := by
  simp [occupied, waiting, online, Table.mem_select, and_assoc]

theorem waits_anti {s : Floor} {now now' : ℤ} (h : now ≤ now') {p : String × ℤ}
    (hw : waits u s now' p = true) : waits u s now p = true := by
  have := afterSeconds_mono h (-claimTtlSeconds)
  simp only [waits, Bool.and_eq_true, Bool.not_eq_true', decide_eq_false_iff_not] at hw ⊢
  exact ⟨by omega, hw.2⟩

theorem liveSession_anti {window now now' tenantId : ℤ} {username : String} (h : now ≤ now')
    {r : Radacct} (hl : liveSession window now' tenantId username r = true) :
    liveSession window now tenantId username r = true := by
  have := afterSeconds_mono h (-(window * 60))
  simp only [liveSession, Bool.and_eq_true, Bool.not_eq_true'] at hl ⊢
  refine ⟨hl.1, ?_⟩
  have hs := hl.2
  unfold stale liveCutoff at hs ⊢
  cases hlast : lastSeen? r with
  | none => rfl
  | some last =>
    simp only [hlast, decide_eq_false_iff_not] at hs ⊢
    omega

theorem occupied_anti (s : Floor) {now now' : ℤ} (h : now ≤ now') :
    occupied u s now' ⊆ occupied u s now := by
  intro d hd
  rcases mem_occupied.mp hd with ⟨p, hp, hw, hpd⟩ | ⟨r, hr, hl, hrd⟩
  · exact mem_occupied.mpr (Or.inl ⟨p, hp, waits_anti h hw, hpd⟩)
  · exact mem_occupied.mpr (Or.inr ⟨r, hr, liveSession_anti h hl, hrd⟩)

theorem notBefore_anti {s : Stamp} {t t' : ℤ} (h : t ≤ t') (hs : s.notBefore t' = true) :
    s.notBefore t = true := by
  cases s with
  | instant v =>
    simp only [Stamp.notBefore, decide_eq_true_eq] at hs ⊢
    omega
  | null => exact hs
  | blank => exact hs

theorem mem_upsertClaim_self (claims : List Claim) (c : Claim) : c ∈ upsertClaim claims c := by
  simp only [upsertClaim]
  split_ifs with h
  · obtain ⟨d, hd, hcd⟩ := List.any_eq_true.mp h
    exact List.mem_map.mpr ⟨d, hd, if_pos hcd⟩
  · exact List.mem_append_right _ (List.mem_singleton_self c)

theorem mem_upsertClaim_of_mem {claims : List Claim} {c d : Claim} (hd : d ∈ claims)
    (hne : c.same d = false) : d ∈ upsertClaim claims c := by
  simp only [upsertClaim]
  split_ifs
  · exact List.mem_map.mpr ⟨d, hd, by simp [hne]⟩
  · exact List.mem_append_left _ hd

theorem same_eq_false {c d : Claim} (h : keyMac c.deviceKey ≠ keyMac d.deviceKey) :
    c.same d = false := by
  have : c.deviceKey ≠ d.deviceKey := fun he => h (congrArg keyMac he)
  simp [Claim.same, this]

/-- The sessions and claims of others that `claimAt` counts. -/
def counted (u : LimitedUser) (s : Floor) (now : ℤ) (mac : String) : List String :=
  (activeOtherDevices s.table u.window now u.tenantId u.username mac true).map
      (fun r => macNorm r.callingStationId) ++
    (pendingClaims (s.claims.filter fun c => !expired now c) s.table u.window now u.tenantId
      u.username mac true).map fun c => keyMac c.deviceKey

theorem claimAt_eq (s : Floor) (now : ℤ) {mac : String} (hlimit : 0 < u.limit)
    (hmac : macNorm mac ≠ "") :
    claimAt u s now mac =
      if u.limit ≤ (counted u s now mac).length then
        (false, s.claims.filter fun c => !expired now c)
      else (true, upsertClaim (s.claims.filter fun c => !expired now c)
        ⟨u.tenantId, u.username, deviceKey mac, now⟩) := by
  have hkey : deviceKey mac ≠ "" := deviceKey_ne_empty hmac
  have hpos : ¬(u.limit : ℤ) ≤ 0 := by omega
  have hlength : ∀ a b : ℕ, (u.limit : ℤ) ≤ a + b ↔ u.limit ≤ a + b := fun a b => by omega
  simp only [claimAt, claimSlot, counted, List.length_append, List.length_map, if_neg hpos,
    hlength, Bool.not_false, Bool.and_true, decide_eq_true_eq, Bool.or_false, hkey,
    decide_false, Bool.false_eq_true, if_false]
  split_ifs with hfull
  · rfl
  · simp

theorem occupied_counted {s : Floor} {now : ℤ} {mac d : String} (hclock : s.clock ≤ now)
    (ht : Tracked u s) (hd : d ∈ occupied u s now) (hne : d ≠ macNorm mac) :
    d ∈ counted u s now mac := by
  by_cases hlive : d ∈ (activeOtherDevices s.table u.window now u.tenantId u.username mac
      true).map fun r => macNorm r.callingStationId
  · exact List.mem_append_left _ hlive
  rcases mem_occupied.mp hd with ⟨p, hp, hw, rfl⟩ | ⟨r, hr, hl, rfl⟩
  · simp only [waits, Bool.and_eq_true, Bool.not_eq_true', decide_eq_false_iff_not,
      not_lt] at hw
    have hyoung := (afterSeconds_mono hclock (-claimTtlSeconds)).trans hw.1
    obtain ⟨c, hc, htenant, huser, hkey, hle, hcp⟩ := ht.claim p hp hyoung
    refine List.mem_append_right _ (List.mem_map.mpr ⟨c, ?_, hkey⟩)
    have hfilter : c ∈ s.claims.filter fun c => !expired now c := by
      refine List.mem_filter.mpr ⟨hc, ?_⟩
      simp only [expired, Bool.not_eq_true', decide_eq_false_iff_not]
      omega
    have hother : c.deviceKey ≠ deviceKey mac := fun h =>
      hne (by rw [← hkey, h, keyMac_deviceKey])
    refine List.mem_filter.mpr ⟨List.mem_insertionSort _ |>.mpr (List.mem_filter.mpr
      ⟨hfilter, by simp [htenant, huser, hother]⟩), ?_⟩
    -- no session of the device is stamped late enough to stand for this claim
    have hnone : ∀ st, materializedMacs s.table u.tenantId u.username
        (afterSeconds now (-(claimTtlSeconds + toleranceSeconds))) p.1 = some st →
        st < afterSeconds c.claimedAt (-toleranceSeconds) := by
      intro st hst
      obtain ⟨r, hr, hru, hrmac, hrst⟩ := mem_of_materializedMacs hst
      have hsession : sessionOf u p.1 r = true := by simp [sessionOf, hru, hrmac]
      by_contra hge
      have hlate := ht.apart _ hcp r hr hsession (by simp [hrst, Stamp.notBefore]; omega)
      have hstarted : hasStarted u s p = true :=
        List.any_eq_true.mpr ⟨r, hr, by simp [hsession, notBefore_anti hle hlate]⟩
      simp [hstarted] at hw
    have hnamed := ht.named p hp
    simp only [pendingClaim, hkey, if_neg hnamed]
    split_ifs with hin
    · simp only [List.contains_eq_mem, Bool.and_eq_true, decide_eq_true_eq] at hin
      exact absurd hin.2 hlive
    · cases hst : materializedMacs s.table u.tenantId u.username
        (afterSeconds now (-(claimTtlSeconds + toleranceSeconds))) p.1 with
      | none => rfl
      | some st => exact decide_eq_true (hnone st hst)
  · exact absurd (List.mem_map.mpr ⟨r, mem_activeOtherDevices hr hl hne, rfl⟩) hlive

theorem occupied_subset_claim (u : LimitedUser) (s : Floor) (now : ℤ) (mac : String) :
    occupied u (s.step u (.claim now mac)) now ⊆
      if (claimAt u s now mac).1 then insert (macNorm mac) (occupied u s now)
      else occupied u s now := by
  intro d hd
  rcases mem_occupied.mp hd with ⟨p, hp, hw, rfl⟩ | hlive
  · have hold : p ∈ s.admitted → p.1 ∈ occupied u s now := fun hp =>
      mem_occupied.mpr (Or.inl ⟨p, hp, hw, rfl⟩)
    simp only [Floor.step] at hp
    split_ifs at hp ⊢
    · rcases List.mem_cons.mp hp with rfl | hp
      · exact Finset.mem_insert_self _ _
      · exact Finset.mem_insert_of_mem (hold hp)
    · exact hold hp
  · have hold : d ∈ occupied u s now := mem_occupied.mpr (Or.inr hlive)
    split_ifs
    · exact Finset.mem_insert_of_mem hold
    · exact hold

/-- New rows either continue old ones with the same device and start or begin a session of a
device that had a seat. -/
structure Continues (u : LimitedUser) (s : Floor) (now : ℤ) (t : RadacctTable) : Prop where
  kept : ∀ r ∈ s.table.rows, ∃ r' ∈ t.rows, ofUser u.tenantId u.username r' =
    ofUser u.tenantId u.username r ∧ r'.callingStationId = r.callingStationId ∧
      r'.acctStartTime = r.acctStartTime
  live : ∀ r' ∈ t.rows, liveSession u.window now u.tenantId u.username r' = true →
    macNorm r'.callingStationId ∈ occupied u s now

theorem occupied_of_continues {s : Floor} {now : ℤ} {t : RadacctTable}
    (h : Continues u s now t) :
    occupied u { s with table := t, clock := now } now ⊆ occupied u s now := by
  intro d hd
  rcases mem_occupied.mp hd with ⟨p, hp, hw, rfl⟩ | ⟨r, hr, hl, rfl⟩
  · refine mem_occupied.mpr (Or.inl ⟨p, hp, ?_, rfl⟩)
    simp only [waits, Bool.and_eq_true, Bool.not_eq_true'] at hw ⊢
    refine ⟨hw.1, Bool.eq_false_iff.mpr fun hstarted => ?_⟩
    obtain ⟨r, hr, hrs⟩ := List.any_eq_true.mp hstarted
    obtain ⟨r', hr', huser, hmac, hstart⟩ := h.kept r hr
    refine Bool.eq_false_iff.mp hw.2 (List.any_eq_true.mpr ⟨r', hr', ?_⟩)
    simpa only [sessionOf, huser, hmac, hstart] using hrs
  · exact h.live r hr hl

theorem continues_self {s : Floor} {now : ℤ} : Continues u s now s.table :=
  ⟨fun r hr => ⟨r, hr, rfl, rfl, rfl⟩, fun r hr hl => mem_occupied.mpr (Or.inr ⟨r, hr, hl, rfl⟩)⟩

theorem Continues.insert {s : Floor} {now : ℤ} {t : RadacctTable} (ht : Continues u s now t)
    (mk : ℕ → Radacct) (hmk : ∀ n, (mk n).radacctid = n)
    (h : liveSession u.window now u.tenantId u.username (mk t.next) = true →
      macNorm (mk t.next).callingStationId ∈ occupied u s now) :
    Continues u s now (t.insert mk hmk) := by
  constructor
  · intro r hr
    obtain ⟨r', hr', hsame⟩ := ht.kept r hr
    exact ⟨r', List.mem_append_left _ hr', hsame⟩
  · intro r hr hl
    rcases List.mem_append.mp hr with hr | hr
    · exact ht.live r hr hl
    · obtain rfl := List.mem_singleton.mp hr
      exact h hl

theorem continues_close {s : Floor} {now stopped : ℤ} {e : Event} {p : Radacct → Bool} :
    Continues u s now (s.table.update p (stopRow e stopped) (stopRow_id e stopped)) := by
  constructor
  · intro r hr
    refine ⟨_, List.mem_map.mpr ⟨r, hr, rfl⟩, ?_⟩
    split_ifs <;> exact ⟨rfl, rfl, rfl⟩
  · intro r' hr' hl
    obtain ⟨r, hr, rfl⟩ := List.mem_map.mp hr'
    split_ifs at hl ⊢
    · simp [liveSession, stopRow, Stamp.isOpen] at hl
    · exact continues_self.live r hr hl

theorem continues_start {s : Floor} {now : ℤ} {e : Event}
    (h : openSession s.table e.key = none → macNorm e.callingStationId ∈ occupied u s now) :
    Continues u s now (start s.table now e).1 := by
  unfold start
  cases hopen : openSession s.table e.key with
  | some r => exact continues_self
  | none =>
    have hmac : (e.row s.table.next now now).callingStationId = e.callingStationId := rfl
    refine continues_self.insert (fun n => e.row n now now) (fun n => e.row_id n now now)
      fun _ => ?_
    rw [hmac]
    exact h hopen

theorem continues_stop {s : Floor} {now : ℤ} {e : Event} :
    Continues u s now (stop s.table now e).1 := by
  rcases stop_cases s.table now e with h | h
  · rw [h]
    exact continues_close
  · rw [h]
    refine continues_close.insert _ _ fun hl => ?_
    simp [liveSession, missingStartRow, Stamp.isOpen] at hl

theorem step_claim (s : Floor) (now : ℤ) {mac : String} (hlimit : 0 < u.limit)
    (hmac : macNorm mac ≠ "") :
    s.step u (.claim now mac) =
      if u.limit ≤ (counted u s now mac).length then
        { s with claims := s.claims.filter fun c => !expired now c, clock := now }
      else
        { s with
          claims := upsertClaim (s.claims.filter fun c => !expired now c)
            ⟨u.tenantId, u.username, deviceKey mac, now⟩
          admitted := (macNorm mac, now) :: s.admitted
          clock := now } := by
  simp only [Floor.step, claimAt_eq s now hlimit hmac]
  split_ifs <;> simp_all

theorem tracked_step {s : Floor} {op : Op} (hlimit : 0 < u.limit) (ht : Tracked u s)
    (hop : Allowed u s op) : Tracked u (s.step u op) := by
  obtain ⟨⟨hclock, hplain⟩, hapart, hmore⟩ := hop
  have hyoung : ∀ p : String × ℤ, afterSeconds op.time (-claimTtlSeconds) ≤ p.2 →
      afterSeconds s.clock (-claimTtlSeconds) ≤ p.2 := fun p hp =>
    (afterSeconds_mono hclock _).trans hp
  cases op with
  | start now e =>
    exact ⟨fun p hp hy => ht.claim p hp (hyoung p hy), fun p hp => (ht.past p hp).trans hclock,
      ht.named, hapart⟩
  | stop now e =>
    exact ⟨fun p hp hy => ht.claim p hp (hyoung p hy), fun p hp => (ht.past p hp).trans hclock,
      ht.named, hapart⟩
  | claim now mac =>
    have hkept : ∀ p ∈ s.admitted, afterSeconds now (-claimTtlSeconds) ≤ p.2 →
        ∃ c ∈ s.claims.filter fun c => !expired now c, c.tenantId = u.tenantId ∧
          c.username = u.username ∧ keyMac c.deviceKey = p.1 ∧ p.2 ≤ c.claimedAt ∧
            (p.1, c.claimedAt) ∈ s.admitted := by
      intro p hp hy
      obtain ⟨c, hc, hrest⟩ := ht.claim p hp (hyoung p hy)
      refine ⟨c, List.mem_filter.mpr ⟨hc, ?_⟩, hrest⟩
      have hle := hrest.2.2.2.1
      simp only [expired, Bool.not_eq_true', decide_eq_false_iff_not]
      omega
    have heq := step_claim s now hlimit hmore
    split_ifs at heq with hfull <;> rw [heq] at hapart ⊢
    · exact ⟨hkept, fun p hp => (ht.past p hp).trans hclock, ht.named, hapart⟩
    · refine ⟨fun p hp hy => ?_, fun p hp => ?_, fun p hp => ?_, hapart⟩ <;>
        simp only [List.mem_cons] at hp ⊢
      · by_cases hdev : p.1 = macNorm mac
        · refine ⟨_, mem_upsertClaim_self _ _, rfl, rfl, ?_, ?_, Or.inl (by rw [hdev])⟩
          · rw [hdev, keyMac_deviceKey]
          · rcases hp with rfl | hp
            · exact le_rfl
            · exact (ht.past p hp).trans hclock
        · have hp : p ∈ s.admitted := hp.resolve_left fun h => hdev (by rw [h])
          obtain ⟨c, hc, htenant, huser, hkey, hle, hcp⟩ := hkept p hp hy
          refine ⟨c, mem_upsertClaim_of_mem hc (same_eq_false ?_), htenant, huser, hkey, hle,
            Or.inr hcp⟩
          rw [hkey, keyMac_deviceKey]
          exact fun h => hdev h.symm
      · rcases hp with rfl | hp
        · exact le_rfl
        · exact (ht.past p hp).trans hclock
      · rcases hp with rfl | hp
        · exact hmore
        · exact ht.named p hp

theorem steps_step {s : Floor} {op : Op} (hlimit : 0 < u.limit) (ht : Tracked u s)
    (hop : Allowed u s op) :
    Seats.Steps u.limit (occupied u s s.clock) (occupied u (s.step u op) (s.step u op).clock) := by
  have hclock : s.clock ≤ op.time := hop.1.1
  have hwait : Seats.Step u.limit (occupied u s s.clock) (occupied u s op.time) :=
    .leave (occupied_anti s hclock)
  refine (Relation.ReflTransGen.single hwait).tail ?_
  cases op with
  | start now e => exact .leave (occupied_of_continues (continues_start hop.2.2))
  | stop now e => exact .leave (occupied_of_continues continues_stop)
  | claim now mac =>
    have hsub := occupied_subset_claim u s now mac
    have heq := claimAt_eq s now hlimit hop.2.2
    split_ifs at heq with hfull
    · rw [heq] at hsub
      exact .leave hsub
    · rw [heq] at hsub
      exact .of_cover (fun d hd hne => occupied_counted hclock ht hd hne) (not_le.mp hfull) hsub

theorem steps_run {s : Floor} {ops : List Op} (hlimit : 0 < u.limit) (ht : Tracked u s)
    (hops : Run.Along (Allowed u) (Floor.step u) s ops) :
    Seats.Steps u.limit (occupied u s s.clock)
      (occupied u (s.run u ops) (s.run u ops).clock) := by
  induction ops generalizing s with
  | nil => exact .refl
  | cons op ops ih =>
    exact (steps_step hlimit ht hops.1).trans (ih (tracked_step hlimit ht hops.1) hops.2)

theorem tracked_of_fresh {s : Floor} (h : Fresh u s) : Tracked u s := by
  constructor <;> simp [h.admitted, Apart]

theorem occupied_of_fresh {s : Floor} (h : Fresh u s) (now : ℤ) : occupied u s now = ∅ := by
  refine Finset.eq_empty_of_forall_notMem fun d hd => ?_
  rcases mem_occupied.mp hd with ⟨p, hp, -⟩ | ⟨r, hr, hl, -⟩
  · simp [h.admitted] at hp
  · simp only [liveSession, Bool.and_eq_true] at hl
    simp [h.table r hr hl.1.1] at hl

/-- At every moment of a run no more devices hold a seat than the limit allows. -/
theorem occupied_card_le (u : LimitedUser) (hlimit : 0 < u.limit) (s : Floor) (hs : Fresh u s)
    (ops : List Op) (hops : Run.Along (Allowed u) (Floor.step u) s ops) (pre post : List Op)
    (hpre : ops = pre ++ post) (now : ℤ) (hnow : (s.run u pre).clock ≤ now) :
    (occupied u (s.run u pre) now).card ≤ u.limit := by
  subst hpre
  have hrun := steps_run hlimit (tracked_of_fresh hs) (Run.along_append.mp hops).1
  have hcard := hrun.card_le (by simp [occupied_of_fresh hs])
  exact (Finset.card_le_card (occupied_anti _ hnow)).trans hcard

instance (s : Floor) (op : Op) : Decidable (Plain u s op) :=
  match op with
  | .claim _ _ | .start _ _ | .stop _ _ => inferInstanceAs (Decidable (_ ∧ _))

instance (s : Floor) : Decidable (Apart u s) := inferInstanceAs (Decidable (∀ _ ∈ _, _))

instance (s : Floor) (op : Op) : Decidable (Allowed u s op) :=
  match op with
  | .claim _ _ | .start _ _ | .stop _ _ => inferInstanceAs (Decidable (_ ∧ _ ∧ _))

def sampleUser : LimitedUser := ⟨1, "u1", 1, 15⟩

def sampleFloor : Floor := ⟨[], .empty, [], 0⟩

theorem sampleFloor_fresh : Fresh sampleUser sampleFloor := by
  constructor <;> simp [sampleFloor]

def samplePacket (status : StatusType) (mac : String) : Event where
  tenantId := 1
  username := "u1"
  acctSessionId := String.ofList ('s' :: mac.toList)
  acctUniqueSessionId := mac
  nasIpAddress := "10.0.0.1"
  callingStationId := mac
  framedIpAddress := ""
  inputOctets := 0
  outputOctets := 0
  sessionTime := 0
  terminateCause := ""
  statusType := status
  session_ne := fun _ h => by simpa using congrArg String.toList h
  nas_ne := by decide

def claims (secs : ℤ) (mac : String) : Op := .claim (secs * second) mac
def starts (secs : ℤ) (mac : String) : Op := .start (secs * second) (samplePacket .start mac)
def stops (secs : ℤ) (mac : String) : Op := .stop (secs * second) (samplePacket .stop mac)

theorem occupied_card_le_handover :
    (occupied sampleUser (sampleFloor.run sampleUser [claims 0 "AA-01", starts 1 "AA:01",
      claims 2 "AA:02", stops 20 "AA:01", claims 21 "AA:02"]) (30 * second)).card ≤ 1 :=
  occupied_card_le sampleUser (by decide) sampleFloor sampleFloor_fresh
    [claims 0 "AA-01", starts 1 "AA:01", claims 2 "AA:02", stops 20 "AA:01", claims 21 "AA:02",
      starts 31 "AA:02"] (by decide) _ [starts 31 "AA:02"] rfl _ (by decide)

def SeatsExceeded (ops : List Op) : Prop :=
  Run.Along (Plain sampleUser) (Floor.step sampleUser) sampleFloor ops ∧
    sampleUser.limit < (occupied sampleUser (sampleFloor.run sampleUser ops)
      (sampleFloor.run sampleUser ops).clock).card

instance (ops : List Op) : Decidable (SeatsExceeded ops) := inferInstanceAs (Decidable (_ ∧ _))

/-- A device that comes back within ten seconds of its last session, one that starts its
session after the claim ran out, and a request whose address has no letter or digit. -/
theorem seats_exceeded :
    SeatsExceeded [claims 0 "AA:01", starts 0 "AA:01", stops 3 "AA:01", claims 5 "AA:01",
        claims 6 "AA:02"] ∧
      SeatsExceeded [claims 0 "AA:01", claims 61 "AA:02", starts 62 "AA:02", starts 63 "AA:01"] ∧
      SeatsExceeded [claims 0 "::", claims 1 "AA:01"] := by
  decide

end RadiusModule.DeviceLimit
