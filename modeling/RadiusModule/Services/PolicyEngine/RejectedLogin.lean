import RadiusModule.Services.PolicyEngine.Authorize

/-!
# What a rejected login leaves behind

Every entitlement has one writer among the steps of `authorize`: the renewal,
the allow list, the clone check, the device limit and the slot. So a decided
login keeps them all exactly when no writer that it reaches writes.
-/

namespace RadiusModule.PolicyEngine
open Library PyText CardBatchFlags DeviceLimit

structure Entitlements where
  cards : List (ℕ × Stamp × Bool × String)
  subscribers : List (ℤ × String × Stamp × String)
  openRows : List Radacct
  allowDevices : List AllowDevice
  cloneBinding : ℤ → String → String → Option CloneBinding
  claims : List Claim

def entitlements (db : Db) : Entitlements where
  cards := db.cards.map fun c => (c.id, c.expireAt, c.used, c.lockedMac)
  subscribers := db.subscribers.map fun s => (s.tenantId, s.username, s.expireAt, s.macLock)
  openRows := openRows db.radacct
  allowDevices := db.allowDevices
  cloneBinding := AntiMacClone.getBinding db.cloneBindings
  claims := db.claims

section
variable (env : Env) (db : Db) (sub : Subscriber) (plan : Option AccessPlan) (req : AuthRequest)

def BindsDevice : Prop :=
  AllowMode.Binds db req.tenantId sub.username sub.planId sub.cardBatchId req.callingStationId

def RebindsMac : Prop :=
  ∃ v ∈ cloneVerdict env db sub req, AntiMacClone.Rebinds db.cloneBindings req.tenantId
    sub.username (liveDevice env db req).1 (liveDevice env db req).2 v.reason

def ClosesOldest : Prop :=
  ∃ active ∈ sessionsAtLimit env db sub plan req,
    effectiveMode db sub.tenantId sub = .replace ∧ ∃ oldest ∈ active.head?,
      ∃ r ∈ db.radacct.rows,
        forceCloses sub.tenantId sub.username (strip oldest.acctSessionId) r = true

def ClaimLapsed : Prop := ∃ c ∈ db.claims, expired env.now c = true

def PassesReading (source : Source) : Prop :=
  (readingGates env req sub plan source).findSome? (· db) = none

def WritesNothing (source : Source) : Prop :=
  renewal db env.now sub source = none ∧
  (PassesReading env db sub plan req source →
    ¬BindsDevice db sub req ∧ ((checkAllowMode db sub req).1 = none →
      ¬RebindsMac env db sub req ∧ ((checkAntiMacClone env db sub req).1 = none →
        ¬ClosesOldest env db sub plan req ∧ ((checkConcurrent env db sub plan req).1 = none →
          checkProviderActiveCap env db sub req = none → ¬ClaimLapsed env db))))

end

section
variable {env : Env} {db : Db} {sub : Subscriber} {plan : Option AccessPlan} {req : AuthRequest}

theorem checkAllowMode_db (db : Db) (sub : Subscriber) (req : AuthRequest) :
    ∃ ds, (checkAllowMode db sub req).2 = { db with allowDevices := ds } := by
  simp only [checkAllowMode, AllowMode.evaluate]
  cases AllowMode.judge db req.tenantId sub.username sub.planId sub.cardBatchId
      req.callingStationId with
  | none => exact ⟨_, rfl⟩
  | some v =>
    dsimp only
    split_ifs
    · exact ⟨_, rfl⟩
    · exact ⟨_, rfl⟩

theorem checkAntiMacClone_db (env : Env) (db : Db) (sub : Subscriber) (req : AuthRequest) :
    ∃ bs es,
      (checkAntiMacClone env db sub req).2 = { db with cloneBindings := bs, cloneEvents := es } := by
  unfold checkAntiMacClone
  cases cloneVerdict env db sub req with
  | none => exact ⟨_, _, rfl⟩
  | some v => exact ⟨_, _, rfl⟩

theorem checkConcurrent_db (env : Env) (db : Db) (sub : Subscriber) (plan : Option AccessPlan)
    (req : AuthRequest) :
    ∃ t, (checkConcurrent env db sub plan req).2 = { db with radacct := t } := by
  unfold checkConcurrent
  cases sessionsAtLimit env db sub plan req with
  | none => exact ⟨_, rfl⟩
  | some active =>
    dsimp only
    split_ifs
    · exact ⟨_, rfl⟩
    · exact ⟨_, rfl⟩

theorem claimDeviceSlot_db (env : Env) (db : Db) (sub : Subscriber) (plan : Option AccessPlan)
    (req : AuthRequest) :
    ∃ cs, (claimDeviceSlot env db sub plan req).2 = { db with claims := cs } := by
  simp only [claimDeviceSlot]
  split_ifs <;> exact ⟨_, rfl⟩

theorem allowGate_fst : (allowGate req sub db).1 = none ↔
    (checkAllowMode db sub req).1 = none := by
  rw [allowGate, outcome, Option.map_eq_none_iff]

theorem allowGate_snd : (allowGate req sub db).2 = (checkAllowMode db sub req).2 := rfl

theorem cloneGate_fst : (cloneGate env req sub db).1 = none ↔
    (checkAntiMacClone env db sub req).1 = none := by
  rw [cloneGate, outcome, Option.map_eq_none_iff]

theorem cloneGate_snd :
    (cloneGate env req sub db).2 = (checkAntiMacClone env db sub req).2 := by
  rw [cloneGate, outcome]

theorem concurrentGate_fst : (concurrentGate env req sub plan db).1 = none ↔
    (checkConcurrent env db sub plan req).1 = none := by
  rw [concurrentGate, outcome, Option.map_eq_none_iff]

theorem concurrentGate_snd :
    (concurrentGate env req sub plan db).2 = (checkConcurrent env db sub plan req).2 := rfl

theorem slotGate_fst : (slotGate env req sub plan db).1 = none ↔
    (claimDeviceSlot env db sub plan req).1 = none := by
  rw [slotGate, outcome, Option.map_eq_none_iff]

theorem slotGate_snd :
    (slotGate env req sub plan db).2 = (claimDeviceSlot env db sub plan req).2 := rfl

theorem capGate_fst : (capGate env req sub db).1 = none ↔
    checkProviderActiveCap env db sub req = none := by
  rw [capGate, Gate.read, Option.map_eq_none_iff]

section
variable {ω : Type*} (obs : Db → ω)

theorem allowGate_keeps (h : ∀ db ds, obs { db with allowDevices := ds } = obs db) (db : Db) :
    obs (allowGate req sub db).2 = obs db := by
  obtain ⟨ds, hds⟩ := checkAllowMode_db db sub req
  rw [allowGate_snd, hds, h]

theorem cloneGate_keeps (env : Env) (req : AuthRequest) (sub : Subscriber)
    (h : ∀ db bs es, obs { db with cloneBindings := bs, cloneEvents := es } = obs db) (db : Db) :
    obs (cloneGate env req sub db).2 = obs db := by
  obtain ⟨bs, es, hbs⟩ := checkAntiMacClone_db env db sub req
  rw [cloneGate_snd, hbs, h]

theorem concurrentGate_keeps (h : ∀ db t, obs { db with radacct := t } = obs db) (db : Db) :
    obs (concurrentGate env req sub plan db).2 = obs db := by
  obtain ⟨t, ht⟩ := checkConcurrent_db env db sub plan req
  rw [concurrentGate_snd, ht, h]

theorem slotGate_keeps (h : ∀ db cs, obs { db with claims := cs } = obs db) (db : Db) :
    obs (slotGate env req sub plan db).2 = obs db := by
  obtain ⟨cs, hcs⟩ := claimDeviceSlot_db env db sub plan req
  rw [slotGate_snd, hcs, h]

end

theorem claimDeviceSlot_refused (h : (claimDeviceSlot env db sub plan req).1 ≠ none) :
    (claimDeviceSlot env db sub plan req).2.claims =
      db.claims.filter fun c => !expired env.now c := by
  simp only [claimDeviceSlot, claimSlot] at h ⊢
  split_ifs at h ⊢ <;> simp_all

theorem run_slotGate (hd : (Gate.run [slotGate env req sub plan] db).1 ≠ none) :
    entitlements (Gate.run [slotGate env req sub plan] db).2 = entitlements db ↔
      ¬ClaimLapsed env db := by
  have hg : (claimDeviceSlot env db sub plan req).1 ≠ none := by
    intro hnone
    refine hd ?_
    rw [Gate.run_cons, slotGate_fst.mpr hnone]
    rfl
  have hrun : (Gate.run [slotGate env req sub plan] db).2 =
      (claimDeviceSlot env db sub plan req).2 := by
    rw [Gate.run_cons]
    split_ifs <;> rfl
  obtain ⟨cs, hcs⟩ := claimDeviceSlot_db env db sub plan req
  have hkept : entitlements { db with claims := cs } = entitlements db ↔ cs = db.claims :=
    ⟨congrArg Entitlements.claims, fun h => by rw [h]⟩
  have hclaims : cs = db.claims.filter fun c => !expired env.now c := by
    rw [← claimDeviceSlot_refused hg, hcs]
  rw [hrun, hcs, hkept, hclaims, List.filter_eq_self, ClaimLapsed]
  simp

theorem run_capGate
    (hd : (Gate.run [capGate env req sub, slotGate env req sub plan] db).1 ≠ none) :
    entitlements (Gate.run [capGate env req sub, slotGate env req sub plan] db).2 =
      entitlements db ↔ (checkProviderActiveCap env db sub req = none → ¬ClaimLapsed env db) := by
  have hsnd : (capGate env req sub db).2 = db := rfl
  have hstep : _ ↔ ¬False ∧ (_ → ¬ClaimLapsed env db) :=
    Gate.run_cons_kept_iff entitlements hd (fun _ => rfl) False.elim fun _ hrest => by
      rw [hsnd] at hrest ⊢
      exact run_slotGate hrest
  simpa only [not_false_eq_true, true_and, capGate_fst] using hstep

theorem checkConcurrent_quiet (h : ¬ClosesOldest env db sub plan req) :
    (checkConcurrent env db sub plan req).2 = db := by
  unfold checkConcurrent
  cases hs : sessionsAtLimit env db sub plan req with
  | none => rfl
  | some active =>
    by_cases hmode : effectiveMode db sub.tenantId sub = .replace
    · have hsame : replaceOldest db.radacct env.now sub.tenantId sub.username active =
          db.radacct := by
        cases active with
        | nil => rfl
        | cons oldest rest =>
          refine forceClose_eq_self (fun r hr => Bool.eq_false_iff.mpr fun hc => h ?_) _ _
          exact ⟨_, hs, hmode, oldest, rfl, r, hr, hc⟩
      simp only [if_pos hmode, hsame]
    · simp only [if_neg hmode]

theorem checkConcurrent_loud (h : ClosesOldest env db sub plan req) :
    openRows (checkConcurrent env db sub plan req).2.radacct ≠ openRows db.radacct := by
  obtain ⟨active, hactive, hmode, oldest, holdest, r, hr, hc⟩ := h
  obtain ⟨rest, rfl⟩ : ∃ rest, active = oldest :: rest := by
    cases active with
    | nil => cases holdest
    | cons o rest => exact ⟨rest, by rw [Option.some.inj holdest]⟩
  simp only [checkConcurrent, Option.mem_def.mp hactive, if_pos hmode, replaceOldest, ne_eq,
    openRows_forceClose, not_forall]
  exact ⟨r, hr, by simp [hc]⟩

theorem run_concurrentGate
    (hd : (Gate.run [concurrentGate env req sub plan, capGate env req sub,
      slotGate env req sub plan] db).1 ≠ none) :
    entitlements (Gate.run [concurrentGate env req sub plan, capGate env req sub,
      slotGate env req sub plan] db).2 = entitlements db ↔
      ¬ClosesOldest env db sub plan req ∧ ((checkConcurrent env db sub plan req).1 = none →
        checkProviderActiveCap env db sub req = none → ¬ClaimLapsed env db) := by
  rw [← concurrentGate_fst]
  refine Gate.run_cons_kept_iff entitlements hd (fun hq => ?_) (fun hw hsame => ?_)
    fun hq hrest => ?_
  · rw [concurrentGate_snd, checkConcurrent_quiet hq]
  · refine checkConcurrent_loud hw ?_
    have hrows : openRows (Gate.run [concurrentGate env req sub plan, capGate env req sub,
        slotGate env req sub plan] db).2.radacct = _ :=
      Gate.run_cons_keeps (fun db : Db => openRows db.radacct) (List.forall_mem_cons.mpr
        ⟨fun _ => rfl, List.forall_mem_singleton.mpr
          (slotGate_keeps (fun db => openRows db.radacct) fun _ _ => rfl)⟩)
    rw [concurrentGate_snd] at hrows
    exact hrows.symm.trans (congrArg Entitlements.openRows hsame)
  · rw [concurrentGate_snd, checkConcurrent_quiet hq] at hrest ⊢
    exact run_capGate hrest

theorem entitlements_clone (db : Db) (bs : List CloneBinding) (es : List CloneEvent) :
    entitlements { db with cloneBindings := bs, cloneEvents := es } = entitlements db ↔
      AntiMacClone.getBinding bs = AntiMacClone.getBinding db.cloneBindings :=
  ⟨congrArg Entitlements.cloneBinding, fun h => by simp only [entitlements, h]⟩

theorem entitlements_checkAntiMacClone :
    entitlements (checkAntiMacClone env db sub req).2 = entitlements db ↔
      ¬RebindsMac env db sub req := by
  unfold checkAntiMacClone RebindsMac
  cases cloneVerdict env db sub req with
  | none => simp
  | some v =>
    simp only [AntiMacClone.applyDecision, entitlements_clone, AntiMacClone.getBinding_rebind_iff,
      Option.mem_some_iff, exists_eq_left']

def seatGates (env : Env) (req : AuthRequest) (sub : Subscriber) (plan : Option AccessPlan) :
    List (Gate Db Outcome) :=
  [concurrentGate env req sub plan, capGate env req sub, slotGate env req sub plan]

theorem seatGates_keep {ω : Type*} (env : Env) (req : AuthRequest) (sub : Subscriber)
    (plan : Option AccessPlan) (obs : Db → ω)
    (hconcurrent : ∀ db t, obs { db with radacct := t } = obs db)
    (hclaim : ∀ db cs, obs { db with claims := cs } = obs db) :
    ∀ g ∈ seatGates env req sub plan, ∀ db, obs (g db).2 = obs db :=
  List.forall_mem_cons.mpr ⟨concurrentGate_keeps obs hconcurrent,
    List.forall_mem_cons.mpr ⟨fun _ => rfl,
      List.forall_mem_singleton.mpr (slotGate_keeps obs hclaim)⟩⟩

theorem seatGates_congr {db' : Db} (hsettings : db.settings = db'.settings)
    (hradacct : db.radacct = db'.radacct) (hclaims : db.claims = db'.claims) :
    (¬ClosesOldest env db sub plan req ∧ ((checkConcurrent env db sub plan req).1 = none →
      checkProviderActiveCap env db sub req = none → ¬ClaimLapsed env db)) ↔
    (¬ClosesOldest env db' sub plan req ∧ ((checkConcurrent env db' sub plan req).1 = none →
      checkProviderActiveCap env db' sub req = none → ¬ClaimLapsed env db')) := by
  have hmode := effectiveMode_congr hsettings sub.tenantId sub
  have hlimit : sessionsAtLimit env db sub plan req = sessionsAtLimit env db' sub plan req := by
    simp only [sessionsAtLimit, effectiveLimit_congr hsettings, hradacct]
  have hcap : checkProviderActiveCap env db sub req = checkProviderActiveCap env db' sub req := by
    simp only [checkProviderActiveCap, hradacct]
  have hconcurrent : (checkConcurrent env db sub plan req).1 =
      (checkConcurrent env db' sub plan req).1 := by
    simp only [checkConcurrent, hlimit, hmode]
    cases sessionsAtLimit env db' sub plan req with
    | none => rfl
    | some active =>
      dsimp only
      split_ifs <;> rfl
  simp only [ClosesOldest, ClaimLapsed, hlimit, hmode, hcap, hconcurrent, hradacct, hclaims]

theorem run_cloneGate
    (hd : (Gate.run (cloneGate env req sub :: seatGates env req sub plan) db).1 ≠ none) :
    entitlements (Gate.run (cloneGate env req sub :: seatGates env req sub plan) db).2 =
      entitlements db ↔
      ¬RebindsMac env db sub req ∧ ((checkAntiMacClone env db sub req).1 = none →
        ¬ClosesOldest env db sub plan req ∧ ((checkConcurrent env db sub plan req).1 = none →
          checkProviderActiveCap env db sub req = none → ¬ClaimLapsed env db)) := by
  rw [← cloneGate_fst]
  refine Gate.run_cons_kept_iff entitlements hd (fun hq => ?_) (fun hw hsame => ?_)
    fun hq hrest => ?_
  · rw [cloneGate_snd, entitlements_checkAntiMacClone]
    exact hq
  · refine entitlements_checkAntiMacClone.not.mpr (not_not.mpr hw) ?_
    have hbindings := Gate.run_cons_keeps (fun db : Db => AntiMacClone.getBinding db.cloneBindings)
      (g := cloneGate env req sub) (s := db) (seatGates_keep env req sub plan
        (fun db => AntiMacClone.getBinding db.cloneBindings)
        (fun _ _ => rfl) fun _ _ => rfl)
    obtain ⟨bs, es, hdb⟩ := checkAntiMacClone_db env db sub req
    rw [cloneGate_snd, hdb] at hbindings
    rw [hdb, entitlements_clone]
    exact hbindings.symm.trans (congrArg Entitlements.cloneBinding hsame)
  · obtain ⟨bs, es, hdb⟩ := checkAntiMacClone_db env db sub req
    rw [cloneGate_snd, hdb] at hrest ⊢
    exact (run_concurrentGate hrest).trans (seatGates_congr rfl rfl rfl)

theorem checkAllowMode_quiet (h : ¬BindsDevice db sub req) : (checkAllowMode db sub req).2 = db := by
  simp only [checkAllowMode, AllowMode.evaluate]
  cases hj : AllowMode.judge db req.tenantId sub.username sub.planId sub.cardBatchId
      req.callingStationId with
  | none => rfl
  | some v => exact if_neg fun hbind => h ⟨v, hj, hbind⟩

theorem checkAllowMode_loud (h : BindsDevice db sub req) :
    (checkAllowMode db sub req).2.allowDevices ≠ db.allowDevices := by
  obtain ⟨v, hj, hbind⟩ := h
  simp only [checkAllowMode, AllowMode.evaluate, Option.mem_def.mp hj, if_pos hbind,
    AllowMode.addDevice]
  simp

theorem run_writingGates (hd : (Gate.run (writingGates env req sub plan) db).1 ≠ none) :
    entitlements (Gate.run (writingGates env req sub plan) db).2 = entitlements db ↔
      ¬BindsDevice db sub req ∧ ((checkAllowMode db sub req).1 = none →
        ¬RebindsMac env db sub req ∧ ((checkAntiMacClone env db sub req).1 = none →
          ¬ClosesOldest env db sub plan req ∧ ((checkConcurrent env db sub plan req).1 = none →
            checkProviderActiveCap env db sub req = none → ¬ClaimLapsed env db))) := by
  rw [← allowGate_fst]
  refine Gate.run_cons_kept_iff entitlements hd (fun hq => ?_) (fun hw hsame => ?_)
    fun hq hrest => ?_
  · rw [allowGate_snd, checkAllowMode_quiet hq]
  · refine checkAllowMode_loud hw ?_
    have hdevices := Gate.run_cons_keeps Db.allowDevices (g := allowGate req sub) (s := db)
      (List.forall_mem_cons.mpr ⟨cloneGate_keeps Db.allowDevices env req sub fun _ _ _ => rfl,
        seatGates_keep env req sub plan Db.allowDevices (fun _ _ => rfl) fun _ _ => rfl⟩)
    rw [allowGate_snd] at hdevices
    exact hdevices.symm.trans (congrArg Entitlements.allowDevices hsame)
  · rw [allowGate_snd, checkAllowMode_quiet hq] at hrest ⊢
    exact run_cloneGate hrest

theorem run_gates (env : Env) (db : Db) (sub : Subscriber) (plan : Option AccessPlan)
    (req : AuthRequest) (source : Source)
    (hd : (Gate.run (gates env req sub plan source) db).1 ≠ none) :
    entitlements (Gate.run (gates env req sub plan source) db).2 = entitlements db ↔
      (PassesReading env db sub plan req source →
        ¬BindsDevice db sub req ∧ ((checkAllowMode db sub req).1 = none →
          ¬RebindsMac env db sub req ∧ ((checkAntiMacClone env db sub req).1 = none →
            ¬ClosesOldest env db sub plan req ∧ ((checkConcurrent env db sub plan req).1 = none →
              checkProviderActiveCap env db sub req = none → ¬ClaimLapsed env db)))) := by
  rw [gates, Gate.run_append, Gate.run_read] at hd ⊢
  unfold PassesReading
  cases hread : (readingGates env req sub plan source).findSome? (· db) with
  | some d => simp
  | none =>
    simp only [hread, Option.isSome_none, Bool.false_eq_true, if_false, forall_const] at hd ⊢
    exact run_writingGates hd

theorem renewal_changes {source : Source} {card : Card} {e : ℤ}
    (h : renewal db env.now sub source = some (card, e)) :
    card ∈ db.cards ∧ ofCardId sub.tenantId card.id card = true ∧ card.expireAt ≠ .instant e := by
  unfold renewal at h
  split_ifs at h
  obtain ⟨⟨c, batch⟩, hcb, h⟩ := Option.bind_eq_some_iff.mp h
  simp only [cardAndBatch] at hcb
  obtain ⟨c', hcard, hbatch⟩ := Option.bind_eq_some_iff.mp hcb
  obtain ⟨b, -, hb⟩ := Option.map_eq_some_iff.mp hbatch
  obtain ⟨rfl, rfl⟩ := Prod.mk.inj hb
  simp only at h
  split_ifs at h with hdue
  obtain ⟨rfl, rfl⟩ := Prod.mk.inj (Option.some.inj h)
  simp only [Bool.and_eq_true, Bool.not_eq_true', decide_eq_true_eq] at hdue
  obtain ⟨⟨-, hended⟩, hdays⟩ := hdue
  refine ⟨List.mem_of_find?_eq_some hcard, ?_, fun he => ?_⟩
  · simp [ofCardId, (Db.card_found hcard).1]
  · rw [he] at hended
    simp only [Stamp.time?, Option.any_some, decide_eq_false_iff_not, not_lt, afterSeconds,
      second] at hended
    omega

theorem gates_keep_cards (env : Env) (req : AuthRequest) (sub : Subscriber)
    (plan : Option AccessPlan) (source : Source) :
    ∀ g ∈ gates env req sub plan source, ∀ db, (g db).2.cards = db.cards := by
  intro g hg
  rcases List.mem_append.mp hg with hg | hg
  · obtain ⟨f, -, rfl⟩ := List.mem_map.mp hg
    exact fun _ => rfl
  · have hwriting : ∀ g ∈ writingGates env req sub plan, ∀ db, (g db).2.cards = db.cards :=
      List.forall_mem_cons.mpr ⟨allowGate_keeps Db.cards fun _ _ => rfl,
        List.forall_mem_cons.mpr ⟨cloneGate_keeps Db.cards env req sub fun _ _ _ => rfl,
          seatGates_keep env req sub plan Db.cards (fun _ _ => rfl) fun _ _ => rfl⟩⟩
    exact hwriting g hg

theorem maybeAutoRenew_loud {source : Source} (h : renewal db env.now sub source ≠ none)
    (after : Db) (hcards : after.cards = (maybeAutoRenew db env.now sub source).1.cards) :
    entitlements after ≠ entitlements db := by
  intro hsame
  obtain ⟨⟨card, e⟩, hrenew⟩ := Option.ne_none_iff_exists'.mp h
  obtain ⟨hmem, hid, hne⟩ := renewal_changes hrenew
  have hcols := congrArg Entitlements.cards hsame
  simp only [entitlements, hcards, maybeAutoRenew, hrenew, Db.updateSubscribers, Db.updateCards,
    List.map_map] at hcols
  have hcard := List.map_inj_left.mp hcols card hmem
  simp only [Function.comp, hid, if_true, Card.withExpiry, Prod.mk.injEq] at hcard
  exact hne hcard.2.1.symm

/-- A rejected login keeps every entitlement exactly when no step before the one that rejects
writes. -/
theorem rejected_keeps_entitlements_iff (env : Env) (db : Db) (req : AuthRequest)
    {d : AuthDecision} (hd : (authorize env db req).1 = .ok d) (hrej : d.ok = false) :
    entitlements (authorize env db req).2 = entitlements db ↔
      (req.username ≠ "" → ∀ login ∈ findLogin db req,
        WritesNothing env db login.2.1 (planOf db login.1 login.2.1) login.1 login.2.2) := by
  unfold authorize at hd ⊢
  by_cases hname : req.username = ""
  · simp [hname]
  · simp only [if_neg hname] at hd ⊢
    cases hlogin : findLogin db req with
    | none => simp
    | some login =>
      obtain ⟨req', sub, source⟩ := login
      simp only [hlogin] at hd
      simp only [Option.mem_some_iff, forall_eq', ne_eq, hname, not_false_eq_true, forall_const]
      generalize planOf db req' sub = plan at hd ⊢
      by_cases hrenew : renewal db env.now sub source = none
      · have hsame : maybeAutoRenew db env.now sub source = (db, sub) := by
          rw [maybeAutoRenew, hrenew]
        simp only [hsame] at hd ⊢
        have hgates := run_gates env db sub plan req' source
        rcases hrun : Gate.run (gates env req' sub plan source) db with ⟨decision, after⟩
        rw [hrun] at hd hgates
        cases decision with
        | none =>
          cases hd
          cases hrej
        | some o => simpa only [WritesNothing, hrenew, true_and] using hgates (by simp)
      · refine iff_of_false ?_ fun h => hrenew h.1
        refine maybeAutoRenew_loud hrenew _ ?_
        rcases hpair : maybeAutoRenew db env.now sub source with ⟨renewed, sub'⟩
        simp only [hpair] at hd ⊢
        have hcards := Gate.run_keeps Db.cards
          (gates_keep_cards env req' sub' plan source) renewed
        rcases hrun : Gate.run (gates env req' sub' plan source) renewed with ⟨decision, after⟩
        rw [hrun] at hcards
        simp only [hrun] at hd ⊢
        cases decision with
        | none =>
          cases hd
          cases hrej
        | some o => exact hcards

end

/-- A wrong password for a card whose validity has ended renews the card first. -/
theorem wrong_password_renews_card :
    ¬∀ (env : Env) (db : Db) (req : AuthRequest) (d : AuthDecision),
      (authorize env db req).1 = .ok d → d.ok = false →
        entitlements (authorize env db req).2 = entitlements db := by
  intro h
  let card : Card := {
    id := 1, batchId := 1, username := "ab12", password := "right"
    firstUsedAt := .instant 0, expireAt := .instant 86400000000, used := true }
  let batch : CardBatch := {
    id := 1, autoRenewAfterFirstUse := true, validityAfterFirstLoginDays := 1 }
  let db : Db := { cards := [card], batches := [batch] }
  have hsame := congrArg Entitlements.cards
    (h (calmEnv 172800000000) db { username := "ab12", password := "wrong" }
      (reject "password_wrong") rfl rfl)
  revert hsame
  decide

theorem wrong_password_keeps_account :
    let db : Db := { subscribers := [{ username := "nour", password := "right" }] }
    let req : AuthRequest := { username := "nour", password := "wrong" }
    (authorize (calmEnv 0) db req).1 = .ok (reject "password_wrong") ∧
      entitlements (authorize (calmEnv 0) db req).2 = entitlements db := by
  intro db req
  have hd : (authorize (calmEnv 0) db req).1 = .ok (reject "password_wrong") := rfl
  refine ⟨hd, (rejected_keeps_entitlements_iff (calmEnv 0) db req hd rfl).mpr fun _ login hl => ?_⟩
  have hlogin : findLogin db req = some (req, { username := "nour", password := "right" },
    .subscriber) := rfl
  obtain rfl := Option.some.inj (hlogin.symm.trans hl)
  refine ⟨rfl, fun hpass => ?_⟩
  have hgate : (readingGates (calmEnv 0) req { username := "nour", password := "right" } none
    .subscriber).findSome? (· db) = some (.ok (reject "password_wrong")) := rfl
  cases hgate.symm.trans hpass

end RadiusModule.PolicyEngine
