import RadiusModule.Library.Run
import RadiusModule.Library.Tasks
import RadiusModule.Services.AllowMode

/-!
# Logins that meet in allow mode

The steps of `evaluate` under one policy, taken by any number of calls at
once: a call looks for the device, counts the devices of the account, and
binds the device in a transaction of its own. What a call has read may be out
of date when it binds.
-/

namespace RadiusModule.AllowMode
open Library Tasks MacAddress

inductive Phase
  | idle
  | counting (username mac : String)
  | binding (username mac : String)
  | finished (username mac : String) (verdict : Verdict)
deriving DecidableEq, Repr

inductive Action
  | look (username mac : String)
  | count
  | bind
deriving DecidableEq, Repr

/-- `add_device`, which gives back the row when there is one. -/
def bindDevice (db : Db) (policyId : ℕ) (username mac : String) : Db :=
  if db.allowDevices.contains ⟨policyId, username, normalizeMac mac⟩ then db
  else addDevice db policyId username (normalizeMac mac)

def boundTo (policyId : ℕ) (db : Db) (username : String) : ℕ :=
  db.allowDevices.countP fun d => d.policyId = policyId && d.username = username

section
variable (policy : AllowPolicy)

def act : Action → Db → Phase → Db × Phase
  | .look username mac, db, .idle =>
    let mac := normalizeMac mac
    (db,
      if policy.mode = .openMode then .finished username mac { reason := .openMode }
      else if mac = "" then .finished username mac { reason := .noMac }
      else if (findDeviceMatch db policy.id username (normalizeMac mac)).isSome then
        .finished username mac { reason := .deviceAllowed }
      else if policy.mode = .tofu then .counting username mac
      else .finished username mac
        { deny := true, reason := .unknownDevice, message := msgUnknownDevice })
  | .count, db, .counting username mac =>
    (db,
      if 0 < policy.maxDevices ∧ policy.maxDevices ≤ countDevices db policy.id username then
        .finished username mac { deny := true, reason := .atCapacity, message := msgAtCapacity }
      else .binding username mac)
  | .bind, db, .binding username mac =>
    (bindDevice db policy.id username mac, .finished username mac { reason := .tofuBind })
  | _, db, p => (db, p)

abbrev Logins := World ℕ Db Phase

def step : Logins → ℕ × Action → Logins := World.step (act policy)

def start (db : Db) : Logins := ⟨db, fun _ => .idle⟩

def Room (w : Logins) (e : ℕ × Action) : Prop :=
  match e.2, w.task e.1 with
  | .bind, .binding username mac =>
    ⟨policy.id, username, normalizeMac mac⟩ ∉ w.shared.allowDevices →
      (boundTo policy.id w.shared username : ℤ) < policy.maxDevices
  | _, _ => True

/-- What `add_device` and the unique index keep of the table. -/
structure Registered (db : Db) : Prop where
  normal : ∀ d ∈ db.allowDevices, normalizeMac d.mac = d.mac
  unique : db.allowDevices.Nodup

def HasDevice (db : Db) (username mac : String) : Prop :=
  ∃ d ∈ db.allowDevices, d.policyId = policy.id ∧ d.mac = mac ∧
    (d.username = username ∨ d.username = "")

/-- No account has more devices than the policy allows, or than it began with; a call that was
admitted has its device bound; and no device is bound twice. -/
structure Capped (before : Db) (w : Logins) : Prop where
  count : ∀ username, (boundTo policy.id w.shared username : ℤ) ≤
    max policy.maxDevices (boundTo policy.id before username)
  admitted : ∀ i username mac verdict, w.task i = .finished username mac verdict →
    verdict.deny = false → mac ≠ "" → HasDevice policy w.shared username mac
  once : (w.shared.allowDevices.map fun d => (d.policyId, d.username, normalizeMac d.mac)).Nodup

structure Bound (before : Db) (db : Db) : Prop extends Registered db where
  grown : ∀ username, boundTo policy.id before username ≤ boundTo policy.id db username

def Knows (before db : Db) : Phase → Prop
  | .idle => True
  | .counting _ mac => normalizeMac mac = mac
  | .binding username mac => normalizeMac mac = mac ∧
    (boundTo policy.id before username : ℤ) < policy.maxDevices
  | .finished username mac verdict => verdict.deny = false → mac ≠ "" →
    HasDevice policy db username mac

abbrev Inv (before : Db) (w : Logins) : Prop :=
  w.Inv (Bound policy before) (Knows policy before) fun _ _ => True

end

section
variable {policy : AllowPolicy} {before db : Db} {username mac : String}

theorem findDeviceMatch_isSome (h : (findDeviceMatch db policy.id username mac).isSome = true) :
    HasDevice policy db username mac := by
  obtain ⟨d, hd⟩ := Option.isSome_iff_exists.mp h
  have hmatch := List.find?_some hd
  simp only [Bool.and_eq_true, Bool.or_eq_true, decide_eq_true_eq] at hmatch
  exact ⟨d, List.mem_of_find?_eq_some hd, hmatch.1.1, hmatch.1.2, hmatch.2⟩

theorem boundTo_le_countDevices (db : Db) (id : ℕ) (username : String) :
    boundTo id db username ≤ countDevices db id username := by
  refine List.countP_mono_left fun d _ h => ?_
  simp only [Bool.and_eq_true, Bool.or_eq_true, decide_eq_true_eq] at h ⊢
  exact ⟨h.1, .inr h.2⟩

theorem HasDevice.mono {db' : Db} (h : HasDevice policy db username mac)
    (hgrow : ∀ d ∈ db.allowDevices, d ∈ db'.allowDevices) : HasDevice policy db' username mac := by
  obtain ⟨d, hd, hrest⟩ := h
  exact ⟨d, hgrow d hd, hrest⟩

theorem Knows.mono {db' : Db} {p : Phase} (h : Knows policy before db p)
    (hgrow : ∀ d ∈ db.allowDevices, d ∈ db'.allowDevices) : Knows policy before db' p := by
  cases p with
  | idle => trivial
  | counting username mac => exact h
  | binding username mac => exact h
  | finished username mac verdict => exact fun hadmit hmac => (h hadmit hmac).mono hgrow

theorem bindDevice_cases (db : Db) (id : ℕ) (username mac : String) :
    (⟨id, username, normalizeMac mac⟩ ∈ db.allowDevices ∧ bindDevice db id username mac = db) ∨
      (⟨id, username, normalizeMac mac⟩ ∉ db.allowDevices ∧
        (bindDevice db id username mac).allowDevices =
          db.allowDevices ++ [⟨id, username, normalizeMac mac⟩]) := by
  unfold bindDevice
  by_cases h : ⟨id, username, normalizeMac mac⟩ ∈ db.allowDevices
  · exact .inl ⟨h, if_pos (List.contains_iff_mem.mpr h)⟩
  · refine .inr ⟨h, ?_⟩
    rw [if_neg (fun hmem => h (List.contains_iff_mem.mp hmem))]
    rfl

theorem mem_bindDevice_of_mem (id : ℕ) (username mac : String) {d : AllowDevice}
    (hd : d ∈ db.allowDevices) : d ∈ (bindDevice db id username mac).allowDevices := by
  rcases bindDevice_cases db id username mac with ⟨-, hsame⟩ | ⟨-, hnew⟩
  · rw [hsame]
    exact hd
  · rw [hnew]
    exact List.mem_append_left _ hd

theorem mem_bindDevice (db : Db) (id : ℕ) (username mac : String) :
    ⟨id, username, normalizeMac mac⟩ ∈ (bindDevice db id username mac).allowDevices := by
  rcases bindDevice_cases db id username mac with ⟨hmem, hsame⟩ | ⟨-, hnew⟩
  · rw [hsame]
    exact hmem
  · rw [hnew]
    exact List.mem_append_right _ (List.mem_singleton.mpr rfl)

theorem boundTo_bindDevice (u : String)
    (hnew : ⟨policy.id, username, normalizeMac mac⟩ ∉ db.allowDevices) :
    boundTo policy.id (bindDevice db policy.id username mac) u =
      boundTo policy.id db u + if username = u then 1 else 0 := by
  rcases bindDevice_cases db policy.id username mac with ⟨hmem, -⟩ | ⟨-, hrows⟩
  · exact absurd hmem hnew
  · rw [boundTo, hrows, List.countP_append, List.countP_singleton]
    simp [boundTo]

theorem Registered.bindDevice (h : Registered db) (id : ℕ) (username mac : String) :
    Registered (bindDevice db id username mac) := by
  rcases bindDevice_cases db id username mac with ⟨-, hsame⟩ | ⟨hfresh, hnew⟩
  · rw [hsame]
    exact h
  · refine ⟨fun d hd => ?_, ?_⟩
    · rw [hnew] at hd
      rcases List.mem_append.mp hd with hd | hd
      · exact h.normal d hd
      · rw [List.mem_singleton.mp hd]
        exact normalizeMac_normalizeMac mac
    · rw [hnew]
      exact h.unique.append (List.nodup_singleton _) (List.disjoint_singleton.mpr hfresh)

theorem Registered.once (h : Registered db) :
    (db.allowDevices.map fun d => (d.policyId, d.username, normalizeMac d.mac)).Nodup := by
  refine (List.nodup_map_iff_inj_on h.unique).mpr fun d hd d' hd' hsame => ?_
  simp only [Prod.mk.injEq] at hsame
  obtain ⟨hpolicy, hname, hmac⟩ := hsame
  rw [h.normal d hd, h.normal d' hd'] at hmac
  obtain ⟨id, name, address⟩ := d
  obtain ⟨id', name', address'⟩ := d'
  dsimp only at hpolicy hname hmac
  rw [hpolicy, hname, hmac]

end

inductive Moves (policy : AllowPolicy) (db : Db) (p : Phase) : Db → Phase → Prop
  | stays : Moves policy db p db p
  | denied (username mac : String) (verdict : Verdict) (h : verdict.deny = true) :
    Moves policy db p db (.finished username mac verdict)
  | admitted (username mac : String) (verdict : Verdict)
    (h : mac ≠ "" → HasDevice policy db username mac) :
    Moves policy db p db (.finished username mac verdict)
  | looked (username mac : String) (h : normalizeMac mac = mac) :
    Moves policy db p db (.counting username mac)
  | counted (username mac : String) (hp : p = .counting username mac)
    (h : (boundTo policy.id db username : ℤ) < policy.maxDevices) :
    Moves policy db p db (.binding username mac)
  | bound (username mac : String) (hp : p = .binding username mac) :
    Moves policy db p (bindDevice db policy.id username mac)
      (.finished username mac { reason := .tofuBind })

section
variable {policy : AllowPolicy} {before : Db}

theorem moves_act (hmode : policy.mode = .tofu) (hmax : 0 < policy.maxDevices) (a : Action)
    (db : Db) (p : Phase) : Moves policy db p (act policy a db p).1 (act policy a db p).2 := by
  cases a with
  | look username mac =>
    cases p with
    | idle =>
      simp only [act, hmode, reduceCtorEq, if_false, if_true, normalizeMac_normalizeMac]
      split_ifs with hempty hmatch
      · exact .admitted _ _ _ fun hmac => absurd hempty hmac
      · exact .admitted _ _ _ fun _ => findDeviceMatch_isSome hmatch
      · exact .looked _ _ (normalizeMac_normalizeMac mac)
    | _ => exact .stays
  | count =>
    cases p with
    | counting username mac =>
      simp only [act, hmax, true_and]
      split_ifs with hfull
      · exact .denied _ _ _ rfl
      · have hcount := boundTo_le_countDevices db policy.id username
        exact .counted _ _ rfl (by omega)
    | _ => exact .stays
  | bind =>
    cases p with
    | binding username mac => exact .bound _ _ rfl
    | _ => exact .stays

theorem inv_start {db : Db} (h : Registered db) : Inv policy db (start db) :=
  ⟨⟨h, fun _ => le_rfl⟩, fun _ => trivial, fun _ _ _ => trivial⟩

theorem Inv.next (hmode : policy.mode = .tofu) (hmax : 0 < policy.maxDevices) {w : Logins}
    (h : Inv policy before w) (e : ℕ × Action) : Inv policy before (step policy w e) := by
  have hmoves := moves_act hmode hmax e.2 w.shared (w.task e.1)
  have hshared := h.shared
  have hown := h.task e.1
  refine World.Inv.step h (fun _ _ _ => trivial) e ?_ fun q hq _ => ⟨?_, trivial⟩
  · generalize act policy e.2 w.shared (w.task e.1) = out at hmoves ⊢
    obtain ⟨db', p'⟩ := out
    dsimp only at hmoves ⊢
    cases hmoves with
    | stays => exact ⟨hshared, hown⟩
    | denied username mac verdict hdeny =>
      exact ⟨hshared, fun hadmit => by rw [hdeny] at hadmit; cases hadmit⟩
    | admitted username mac verdict hhas => exact ⟨hshared, fun _ => hhas⟩
    | looked username mac hmac => exact ⟨hshared, hmac⟩
    | counted username mac hp hroom =>
      rw [hp] at hown
      have hgrown := hshared.grown username
      exact ⟨hshared, hown, by omega⟩
    | bound username mac hp =>
      rw [hp] at hown
      refine ⟨⟨hshared.toRegistered.bindDevice _ _ _, fun u => ?_⟩, fun _ _ => ?_⟩
      · refine (hshared.grown u).trans ?_
        rcases bindDevice_cases w.shared policy.id username mac with ⟨-, hsame⟩ | ⟨hnew, -⟩
        · rw [hsame]
        · rw [boundTo_bindDevice u hnew]
          exact Nat.le_add_right _ _
      · refine ⟨_, mem_bindDevice w.shared policy.id username mac, rfl, ?_, .inl rfl⟩
        exact hown.1
  · refine hq.mono fun d hd => ?_
    generalize act policy e.2 w.shared (w.task e.1) = out at hmoves ⊢
    obtain ⟨db', p'⟩ := out
    dsimp only at hmoves ⊢
    cases hmoves with
    | bound username mac hp => exact mem_bindDevice_of_mem _ _ _ hd
    | _ => exact hd

theorem Inv.always (hmode : policy.mode = .tofu) (hmax : 0 < policy.maxDevices) {w : Logins}
    (h : Inv policy before w) (es : List (ℕ × Action)) :
    Inv policy before (Run.run (step policy) w es) :=
  Run.run_always (fun _ e hw => hw.next hmode hmax e) h

theorem boundTo_step (w : Logins) (e : ℕ × Action) :
    (∀ u, boundTo policy.id (step policy w e).shared u = boundTo policy.id w.shared u) ∧
        Room policy w e ∨
      ∃ username mac, e.2 = .bind ∧ w.task e.1 = .binding username mac ∧
        ⟨policy.id, username, normalizeMac mac⟩ ∉ w.shared.allowDevices ∧
        ∀ u, boundTo policy.id (step policy w e).shared u =
          boundTo policy.id w.shared u + if username = u then 1 else 0 := by
  change (∀ u, boundTo policy.id (act policy e.2 w.shared (w.task e.1)).1 u = _) ∧ _ ∨
    ∃ username mac, _ ∧ _ ∧ _ ∧ ∀ u,
      boundTo policy.id (act policy e.2 w.shared (w.task e.1)).1 u = _
  unfold Room
  generalize w.task e.1 = p
  cases haction : e.2 with
  | look username mac => cases p <;> exact .inl ⟨fun _ => rfl, trivial⟩
  | count => cases p <;> exact .inl ⟨fun _ => rfl, trivial⟩
  | bind =>
    cases p with
    | binding username mac =>
      rcases bindDevice_cases w.shared policy.id username mac with ⟨hmem, hsame⟩ | ⟨hnew, -⟩
      · exact .inl ⟨fun u => congrArg (boundTo policy.id · u) hsame, fun hnot => absurd hmem hnot⟩
      · exact .inr ⟨username, mac, rfl, rfl, hnew, fun u => boundTo_bindDevice u hnew⟩
    | _ => exact .inl ⟨fun _ => rfl, trivial⟩

def WithinCap (policy : AllowPolicy) (before : Db) (w : Logins) : Prop :=
  ∀ username, (boundTo policy.id w.shared username : ℤ) ≤
    max policy.maxDevices (boundTo policy.id before username)

theorem Inv.withinCap_step_iff {w : Logins} (h : Inv policy before w)
    (hcap : WithinCap policy before w) (e : ℕ × Action) :
    WithinCap policy before (step policy w e) ↔ Room policy w e := by
  rcases boundTo_step w e with ⟨hsame, hroom⟩ | ⟨username, mac, hbind, htask, hnew, hcount⟩
  · refine iff_of_true (fun u => ?_) hroom
    rw [hsame u]
    exact hcap u
  · have hknows := h.task e.1
    rw [htask] at hknows
    have hroom : Room policy w e ↔
        (boundTo policy.id w.shared username : ℤ) < policy.maxDevices := by
      simp only [Room, hbind, htask]
      exact ⟨fun himp => himp hnew, fun hlt _ => hlt⟩
    rw [hroom]
    constructor
    · intro hwithin
      have hown := hwithin username
      rw [hcount username, if_pos rfl] at hown
      have hbefore := hknows.2
      push_cast at hown
      omega
    · intro hlt u
      have hu := hcap u
      rw [hcount u]
      split_ifs with hsame
      · subst hsame
        push_cast
        omega
      · simpa using hu

/-- The cap, the admitted devices and the single bindings hold in every state of a run exactly when
every new device finds room as it is bound. -/
theorem capped_iff (hmode : policy.mode = .tofu) (hmax : 0 < policy.maxDevices) {db : Db}
    (hdb : Registered db) (es : List (ℕ × Action)) :
    (∀ pre post, es = pre ++ post → Capped policy db (Run.run (step policy) (start db) pre)) ↔
      Run.Along (Room policy) (step policy) (start db) es := by
  have hinv : Inv policy db (start db) := inv_start hdb
  have hcapped (w : Logins) (h : Inv policy db w) : Capped policy db w ↔ WithinCap policy db w :=
    ⟨Capped.count, fun hcount => ⟨hcount, fun i username mac verdict htask hadmit hmac => by
      have hknows := h.task i
      rw [htask] at hknows
      exact hknows hadmit hmac, h.shared.once⟩⟩
  have hruns (w : Logins) (h : Inv policy db w) (hcap : WithinCap policy db w)
      (es : List (ℕ × Action)) :
      (∀ pre post, es = pre ++ post → WithinCap policy db (Run.run (step policy) w pre)) ↔
        Run.Along (Room policy) (step policy) w es := by
    induction es generalizing w with
    | nil =>
      refine iff_of_true (fun pre post hsplit => ?_) trivial
      rw [(List.append_eq_nil_iff.mp hsplit.symm).1]
      exact hcap
    | cons e es ih =>
      have hstep := h.withinCap_step_iff hcap e
      constructor
      · intro hall
        have hfirst := hall [e] es rfl
        refine ⟨hstep.mp hfirst, (ih _ (h.next hmode hmax e) hfirst).mp fun pre post hsplit => ?_⟩
        exact hall (e :: pre) post (by rw [hsplit, List.cons_append])
      · rintro ⟨hroom, hrest⟩ pre post hsplit
        cases pre with
        | nil => exact hcap
        | cons e' pre =>
          rw [List.cons_append] at hsplit
          obtain ⟨rfl, htail⟩ := List.cons.inj hsplit
          exact (ih _ (h.next hmode hmax e) (hstep.mpr hroom)).mpr hrest pre post htail
  rw [← hruns _ hinv (fun _ => le_max_right _ _) es]
  exact forall₂_congr fun pre post => imp_congr_right fun _ =>
    hcapped _ (hinv.always hmode hmax pre)

theorem undisturbed_eq_evaluate {db : Db} {tenantId : ℤ} {planId cardBatchId : Option ℕ}
    (hpolicy : resolvePolicy db tenantId cardBatchId planId = some policy) (username mac : String) :
    ∃ verdict, evaluate db tenantId username planId cardBatchId mac =
        (some verdict, (Run.run (step policy) (start db)
          [(0, .look username mac), (0, .count), (0, .bind)]).shared) ∧
      (Run.run (step policy) (start db) [(0, .look username mac), (0, .count), (0, .bind)]).task 0 =
        .finished username (normalizeMac mac) verdict := by
  simp only [evaluate, judge, hpolicy, Option.map_some, Run.run, List.foldl_cons, List.foldl_nil,
    step, World.step, start, act, Function.update_self, normalizeMac_normalizeMac]
  by_cases hopen : policy.mode = .openMode
  · simp [hopen]
  by_cases hempty : normalizeMac mac = ""
  · simp [hopen, hempty]
  by_cases hmatch : (findDeviceMatch db policy.id username (normalizeMac mac)).isSome = true
  · simp [hopen, hempty, hmatch]
  by_cases htofu : policy.mode = .tofu
  · by_cases hfull : 0 < policy.maxDevices ∧
        policy.maxDevices ≤ countDevices db policy.id username
    · simp [hempty, hmatch, htofu, hfull]
    · have hfresh : ⟨policy.id, username, normalizeMac mac⟩ ∉ db.allowDevices := fun hmem =>
        hmatch (List.find?_isSome.mpr ⟨_, hmem, by simp⟩)
      simp [hempty, hmatch, htofu, hfull, bindDevice, hfresh, normalizeMac_normalizeMac]
  · simp [hopen, hempty, hmatch, htofu]

end

def oneDevice : AllowPolicy :=
  { id := 1
    scopeType := .plan
    scopeId := 1
    mode := .tofu
    maxDevices := 1 }

theorem capped_one_after_another : Capped oneDevice {} (Run.run (step oneDevice) (start {})
    [(0, .look "x" "aa-01"), (0, .count), (0, .bind), (1, .look "x" "aa-02"), (1, .count)]) :=
  (@capped_iff oneDevice rfl (by decide) {} ⟨by decide, List.nodup_nil⟩ _).mpr
    (by refine ⟨trivial, trivial, fun _ => ?_, trivial, trivial, trivial⟩; decide) _ []
    (List.append_nil _).symm

/-- Both calls count before either binds. -/
theorem two_devices_bound : ¬∀ pre post,
    [(0, Action.look "x" "aa-01"), (1, .look "x" "aa-02"), (0, .count), (1, .count), (0, .bind),
      (1, .bind)] = pre ++ post → Capped oneDevice {} (Run.run (step oneDevice) (start {}) pre) :=
  fun h => absurd ((h _ [] (List.append_nil _).symm).count "x") (by decide)

end RadiusModule.AllowMode
