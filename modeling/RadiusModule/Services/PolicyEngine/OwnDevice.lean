import RadiusModule.Services.PolicyEngine.Gates

/-!
# A device that comes back

The sessions of the requesting device are told by its address as the request
spells it, the claims by its letters and digits, and the limit is compared
with sessions, not with devices. The gates let a device in that is there
already exactly when these differences leave room.
-/

namespace RadiusModule.PolicyEngine
open Library PyText DeviceLimit

section
variable (env : Env) (db : Db) (sub : Subscriber) (plan : Option AccessPlan) (req : AuthRequest)

def Admits : Prop :=
  ∀ mode ∈ ["reject", "replace"],
    sessionsAtLimit env db { sub with deviceLimitMode := mode } plan req = none ∧
      (claimDeviceSlot env db { sub with deviceLimitMode := mode } plan req).1 = none

instance : Decidable (Admits env db sub plan req) :=
  inferInstanceAs (Decidable (∀ mode ∈ ["reject", "replace"], _ ∧ _))

def liveSessions : List Radacct :=
  db.radacct.select (liveSession env.window env.now sub.tenantId sub.username)

def waitingClaims : List Claim :=
  pendingClaims (db.claims.filter fun c => !expired env.now c) db.radacct env.window env.now
    sub.tenantId sub.username req.callingStationId (effectiveLimit db sub plan).2

def ownSession (r : Radacct) : Bool := macNorm r.callingStationId = macNorm req.callingStationId

def Present : Prop :=
  (∃ r ∈ liveSessions env db sub, ownSession req r = true) ∨
    ∃ c ∈ db.claims, c.tenantId = sub.tenantId ∧ c.username = sub.username ∧
      c.deviceKey = deviceKey req.callingStationId ∧ expired env.now c = false

instance : Decidable (Present env db sub req) := inferInstanceAs (Decidable (_ ∨ _))

def otherDevices : Finset String :=
  (((liveSessions env db sub).map fun r => macNorm r.callingStationId) ++
    (waitingClaims env db sub plan req).map fun c => keyMac c.deviceKey).toFinset.erase
    (macNorm req.callingStationId)

/-- The session is told as that of the device: sessions are, by their spelling, where the limit
is one on devices. -/
def spelledAlike (r : Radacct) : Bool :=
  (effectiveLimit db sub plan).2 && lower (strip req.callingStationId) ≠ "" &&
    lower (strip r.callingStationId) = lower (strip req.callingStationId)

def ownCounted : ℕ :=
  (liveSessions env db sub).countP fun r => ownSession req r && !spelledAlike db sub plan req r

def repeated : ℕ :=
  (liveSessions env db sub).countP (fun r => !ownSession req r) +
    (waitingClaims env db sub plan req).length - (otherDevices env db sub plan req).card

end

section
variable {env : Env} {db : Db} {sub : Subscriber} {plan : Option AccessPlan} {req : AuthRequest}

theorem own_of_spelledAlike {r : Radacct} (h : spelledAlike db sub plan req r = true) :
    ownSession req r = true := by
  simp only [spelledAlike, Bool.and_eq_true, decide_eq_true_eq] at h
  exact decide_eq_true (macNorm_eq_of_lower_strip_eq h.2)

theorem length_activeOtherDevices :
    (activeOtherDevices db.radacct env.window env.now sub.tenantId sub.username
      req.callingStationId (effectiveLimit db sub plan).2).length =
      (liveSessions env db sub).countP (fun r => !ownSession req r) +
        ownCounted env db sub plan req := by
  have hactive : (activeOtherDevices db.radacct env.window env.now sub.tenantId sub.username
      req.callingStationId (effectiveLimit db sub plan).2).length =
        (liveSessions env db sub).countP fun r => !spelledAlike db sub plan req r := by
    rw [activeOtherDevices, List.length_insertionSort]
    by_cases hmac : ((effectiveLimit db sub plan).2 &&
        lower (strip req.callingStationId) ≠ "") = true
    · simp only [hmac, if_true, ← List.countP_eq_length_filter, spelledAlike, Bool.true_and]
      exact List.countP_congr fun r _ => by simp
    · rw [if_neg hmac]
      simp only [spelledAlike, Bool.not_eq_true _ ▸ hmac, Bool.false_and, Bool.not_false,
        List.countP_true]
      rfl
  rw [hactive, ownCounted]
  induction liveSessions env db sub with
  | nil => rfl
  | cons r rest ih =>
    rw [List.countP_cons, List.countP_cons, List.countP_cons, ih]
    cases halike : spelledAlike db sub plan req r with
    | true => simp [own_of_spelledAlike halike]
    | false => cases ownSession req r <;> simp <;> omega

theorem card_otherDevices_le : (otherDevices env db sub plan req).card ≤
    (liveSessions env db sub).countP (fun r => !ownSession req r) +
      (waitingClaims env db sub plan req).length := by
  set others := (((liveSessions env db sub).filter fun r => !ownSession req r).map fun r =>
    macNorm r.callingStationId) ++
      (waitingClaims env db sub plan req).map fun c => keyMac c.deviceKey with hothers
  have hsub : otherDevices env db sub plan req ⊆ others.toFinset := by
    intro mac hmac
    obtain ⟨hne, hmac⟩ := Finset.mem_erase.mp hmac
    rw [List.mem_toFinset, hothers, List.mem_append]
    rcases List.mem_append.mp (List.mem_toFinset.mp hmac) with hlive | hclaim
    · obtain ⟨r, hr, rfl⟩ := List.mem_map.mp hlive
      refine .inl (List.mem_map.mpr ⟨r, List.mem_filter.mpr ⟨hr, ?_⟩, rfl⟩)
      simpa [ownSession] using hne
    · exact .inr hclaim
  calc (otherDevices env db sub plan req).card
      ≤ others.toFinset.card := Finset.card_le_card hsub
    _ ≤ others.length := others.toFinset_card_le
    _ = _ := by
      rw [hothers, List.length_append, List.length_map, List.length_map,
        List.countP_eq_length_filter]

theorem claimSlot_fst {claims : List Claim} {t : RadacctTable} {window now tenantId limit : ℤ}
    {username : String} {slot : SlotRequest} {macAware replace : Bool} (hlimit : 0 < limit) :
    (claimSlot claims t window now tenantId username slot limit macAware replace).1 = true ↔
      replace = true ∨ (((activeOtherDevices t window now tenantId username slot.callingStationId
        macAware).length + (pendingClaims (claims.filter fun c => !expired now c) t window now
          tenantId username slot.callingStationId macAware).length : ℕ) : ℤ) < limit := by
  unfold claimSlot
  rw [if_neg (not_le.mpr hlimit)]
  dsimp only
  push_cast
  split_ifs with hfull hkey
  · simp only [Bool.and_eq_true, decide_eq_true_eq, Bool.not_eq_true'] at hfull
    simp [hfull.1, hfull.2]
  all_goals
    simp only [Bool.and_eq_true, decide_eq_true_eq, Bool.not_eq_true', not_and,
      Bool.not_eq_false] at hfull
    simp only [true_iff]
    by_contra hnot
    exact (not_or.mp hnot).1 (hfull (not_lt.mp (not_or.mp hnot).2))

theorem claimDeviceSlot_none_iff (mode : String) (hlimit : 0 < (effectiveLimit db sub plan).1) :
    (claimDeviceSlot env db { sub with deviceLimitMode := mode } plan req).1 = none ↔
      effectiveMode db sub.tenantId { sub with deviceLimitMode := mode } = .replace ∨
        (((activeOtherDevices db.radacct env.window env.now sub.tenantId sub.username
          req.callingStationId (effectiveLimit db sub plan).2).length +
            (waitingClaims env db sub plan req).length : ℕ) : ℤ) <
              (effectiveLimit db sub plan).1 := by
  have hsame : effectiveLimit db { sub with deviceLimitMode := mode } plan =
    effectiveLimit db sub plan := rfl
  have hgranted : (claimSlot db.claims db.radacct env.window env.now sub.tenantId sub.username
      ⟨req.callingStationId, req.simulate⟩ (effectiveLimit db sub plan).1
      (effectiveLimit db sub plan).2
      (effectiveMode db sub.tenantId { sub with deviceLimitMode := mode } = .replace)).1 = true ↔
        _ := claimSlot_fst hlimit
  rw [decide_eq_true_iff] at hgranted
  rw [waitingClaims, ← hgranted, claimDeviceSlot, hsame]
  simp only [if_neg (not_le.mpr hlimit)]
  split_ifs with h
  · exact iff_of_true rfl h
  · exact iff_of_false (fun hnone => by cases hnone) h

theorem sessionsAtLimit_none_iff (mode : String) (hlimit : 0 < (effectiveLimit db sub plan).1) :
    sessionsAtLimit env db { sub with deviceLimitMode := mode } plan req = none ↔
      ((activeOtherDevices db.radacct env.window env.now sub.tenantId sub.username
        req.callingStationId (effectiveLimit db sub plan).2).length : ℤ) <
          (effectiveLimit db sub plan).1 := by
  have hsame : effectiveLimit db { sub with deviceLimitMode := mode } plan =
    effectiveLimit db sub plan := rfl
  rw [sessionsAtLimit, hsame]
  simp only [if_neg (not_le.mpr hlimit)]
  split_ifs with hroom
  · exact iff_of_true rfl hroom
  · exact iff_of_false (fun hnone => by cases hnone) hroom

theorem effectiveMode_reject :
    effectiveMode db sub.tenantId { sub with deviceLimitMode := "reject" } = .reject := by
  have hmode : normMode "reject" = some .reject := by decide
  rw [effectiveMode, hmode, Option.getD_some]

theorem admits_iff_counted (hlimit : 0 < (effectiveLimit db sub plan).1) :
    Admits env db sub plan req ↔
      (((activeOtherDevices db.radacct env.window env.now sub.tenantId sub.username
        req.callingStationId (effectiveLimit db sub plan).2).length +
          (waitingClaims env db sub plan req).length : ℕ) : ℤ) <
            (effectiveLimit db sub plan).1 := by
  constructor
  · intro h
    rcases (claimDeviceSlot_none_iff "reject" hlimit).mp (h "reject" List.mem_cons_self).2 with hmode | hroom
    · rw [effectiveMode_reject] at hmode
      cases hmode
    · exact hroom
  · intro hroom mode _
    refine ⟨(sessionsAtLimit_none_iff mode hlimit).mpr ?_,
      (claimDeviceSlot_none_iff mode hlimit).mpr (.inr hroom)⟩
    exact (Int.ofNat_le.mpr (Nat.le_add_right _ _)).trans_lt hroom

/-- With a limit both modes let the device in exactly when its own counted sessions and what the
others hold beyond one seat fit in the room that the limit leaves. -/
theorem admits_iff (hlimit : 0 < (effectiveLimit db sub plan).1) :
    Admits env db sub plan req ↔
      (ownCounted env db sub plan req + repeated env db sub plan req : ℤ) <
        (effectiveLimit db sub plan).1 - (otherDevices env db sub plan req).card := by
  have hcard : (otherDevices env db sub plan req).card ≤ _ := card_otherDevices_le
  rw [admits_iff_counted hlimit, length_activeOtherDevices, repeated, lt_sub_iff_add_lt]
  push_cast [Nat.cast_sub hcard]
  refine iff_of_eq (congrArg (· < _) ?_)
  ring

/-- A device that is there already, with fewer other devices than the limit, is let in exactly
under that condition. -/
theorem own_device_admitted_iff :
    (Present env db sub req →
      ((otherDevices env db sub plan req).card : ℤ) < (effectiveLimit db sub plan).1 →
        Admits env db sub plan req) ↔
    (Present env db sub req →
      ((otherDevices env db sub plan req).card : ℤ) < (effectiveLimit db sub plan).1 →
        (ownCounted env db sub plan req + repeated env db sub plan req : ℤ) <
          (effectiveLimit db sub plan).1 - (otherDevices env db sub plan req).card) := by
  refine forall_congr' fun _ => forall_congr' fun hfew => admits_iff ?_
  exact (Int.natCast_nonneg _).trans_lt hfew

end

/-- Two devices may be online; the device is one of two that are, and its address comes back with
dashes. -/
theorem own_device_refused :
    let session : ℕ → String → Radacct := fun radacctid mac =>
      { radacctid, tenantId := 1, username := "nour", callingStationId := mac,
        acctStartTime := .instant 0 }
    let db : Db :=
      { radacct := ⟨[session 1 "AA:BB:CC:00:00:01", session 2 "AA:BB:CC:00:00:02"], 3,
          by decide, by decide⟩ }
    let sub : Subscriber := { username := "nour", password := "", deviceCount := 2 }
    let req : AuthRequest := { username := "nour", callingStationId := "aa-bb-cc-00-00-01" }
    Present (calmEnv 0) db sub req ∧ (effectiveLimit db sub none).1 = 2 ∧
      (otherDevices (calmEnv 0) db sub none req).card = 1 ∧
        ¬Admits (calmEnv 0) db sub none req := by
  intro session db sub req
  decide +kernel

end RadiusModule.PolicyEngine
