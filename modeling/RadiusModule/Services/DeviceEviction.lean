import RadiusModule.Library.Dict
import RadiusModule.Services.PolicyReconciler

/-!
# Eviction above the device limit

After a save the live sessions in its scope are counted against the limit of their
user. Those above it are reported, the ones heard of last first to go. Admission
counts devices where the limit is one of devices, and what started first stays.
-/

namespace RadiusModule.PolicyReconciler
open Library PyText DeviceLimit

def maxSessionsPerRun : ℕ := 500

/-- What a save touches: given names, the members of a group, the cards of a batch, the users
of a plan, or all of the tenant. -/
inductive Scope
  | usernames (names : List String)
  | group (members : List String)
  | batch (id : ℕ)
  | plan (id : ℕ)
  | tenant

/-- The names of a save or a group, the empty ones left out. -/
def namesOf (names : List String) : List String := (names.map strip).filter (· ≠ "")

def inScope (db : Db) (tenantId : ℤ) (scope : Scope) (r : Radacct) : Bool :=
  let ofBatch (id : ℕ) := db.cards.any fun c =>
    c.tenantId = tenantId && c.batchId = id && c.username = r.username
  let ofPlan (id : ℕ) :=
    (db.subscribers.any fun s =>
        s.tenantId = tenantId && s.planId = some id && s.username = r.username) ||
      db.cards.any fun c => c.tenantId = tenantId && c.planId = some id && c.username = r.username
  match scope with
  | .usernames names => namesOf names = [] || r.username ∈ namesOf names
  | .group members => r.username ∈ namesOf members
  | .batch id => ofBatch id
  | .plan id => ofPlan id
  | .tenant => true

def isLive (cutoff : ℤ) (r : Radacct) : Bool :=
  match lastSeen? r with
  | some last => cutoff ≤ last
  | none => false

def liveRows (db : Db) (window now tenantId : ℤ) (scope : Scope) : List Radacct :=
  let rows := db.radacct.select fun r =>
    r.tenantId = tenantId && r.acctStopTime.isOpen && inScope db tenantId scope r
  (rows.filter (isLive (liveCutoff window now))).take maxSessionsPerRun

/-- `by_user[username]` -/
def sessionsOf (rows : List Radacct) (username : String) : List Radacct :=
  rows.filter fun r => strip r.username = username

def usersOf (rows : List Radacct) : List String :=
  ((rows.map fun r => strip r.username).filter (· ≠ "")).eraseDups

def lastSign (r : Radacct) : ℤ := (lastSeen? r).getD firstInstant

def bySign (sess : List Radacct) : List Radacct :=
  sess.insertionSort fun a b => lastSign a ≤ lastSign b

def aboveLimit (limit : ℤ) (sess : List Radacct) : List Radacct :=
  if limit ≤ 0 ∨ (sess.length : ℤ) ≤ limit then [] else (bySign sess).drop limit.toNat

def limitOf (db : Db) (tenantId : ℤ) (username : String) : Option (ℤ × Bool) :=
  (resolve db tenantId username).map fun (sub, plan, _) => effectiveLimit db sub plan

def picked (db : Db) (tenantId : ℤ) (rows : List Radacct) (username : String) : List Radacct :=
  match limitOf db tenantId username with
  | none => []
  | some (limit, _) => aboveLimit limit (sessionsOf rows username)

/-- `_device_limit_violations`: for each session id the reason. -/
def deviceLimitViolations (db : Db) (tenantId : ℤ) (rows : List Radacct) : Dict String String :=
  Dict.ofPairs ((usersOf rows).flatMap fun username =>
    ((picked db tenantId rows username).filter (·.acctSessionId ≠ "")).map fun r =>
      (r.acctSessionId, "device_limit_exceeded"))

def reported (db : Db) (tenantId : ℤ) (rows : List Radacct) (r : Radacct) : Bool :=
  ((deviceLimitViolations db tenantId rows).get? r.acctSessionId).isSome

/-- The places that sessions occupy: a device each, where devices are counted and the session
has an address, in some way of spelling addresses alike. -/
def places (norm : String → String) (macAware : Bool) (sess : List Radacct) : ℕ :=
  let macs := sess.map fun r => norm r.callingStationId
  if macAware then (macs.filter (· ≠ "")).toFinset.card + macs.count "" else sess.length

/-- What eviction above a limit is to do with the sessions of a user: no more go than have to,
and in some order of age the last. -/
structure EvictsExcess (age : Radacct → ℤ) (norm : String → String) (macAware : Bool) (limit : ℤ)
    (gone kept : List Radacct) : Prop where
  enough : (places norm macAware kept : ℤ) ≤ limit
  needed : ∀ r ∈ gone, limit < places norm macAware (r :: kept)
  earliest : ∀ k ∈ kept, ∀ r ∈ gone, age k ≤ age r
  silent : (places norm macAware (gone ++ kept) : ℤ) ≤ limit → gone = []

/-- The sessions heard of longest ago, up to the limit, are the oldest; and where devices are
counted, they are of as many devices, and no other session is of one of these. -/
def CutAtDevices (age : Radacct → ℤ) (norm : String → String) (macAware : Bool) (limit : ℤ)
    (sess : List Radacct) : Prop :=
  let first := (bySign sess).take limit.toNat
  let rest := (bySign sess).drop limit.toNat
  (∀ k ∈ first, ∀ r ∈ rest, age k ≤ age r) ∧
    (macAware = true → (places norm true first : ℤ) = limit ∧
      ∀ r ∈ rest, norm r.callingStationId = "" ∨
        ∀ k ∈ first, norm k.callingStationId ≠ norm r.callingStationId)

section places
variable {norm : String → String} {macAware : Bool} {a b sess : List Radacct}

theorem places_perm (h : a.Perm b) : places norm macAware a = places norm macAware b := by
  have hmacs : (a.map fun r => norm r.callingStationId).Perm
      (b.map fun r => norm r.callingStationId) := h.map _
  cases macAware with
  | false => exact h.length_eq
  | true =>
    simp only [places, if_true]
    rw [List.toFinset_eq_of_perm _ _ (hmacs.filter _), hmacs.count_eq]

theorem places_cons (r : Radacct) (sess : List Radacct) :
    places norm macAware (r :: sess) = places norm macAware sess +
      if macAware = true ∧ norm r.callingStationId ≠ "" ∧
        ∃ k ∈ sess, norm k.callingStationId = norm r.callingStationId then 0 else 1 := by
  cases macAware with
  | false => simp [places]
  | true =>
    simp only [places, if_true, List.map_cons, true_and]
    by_cases hmac : norm r.callingStationId = ""
    · rw [hmac, List.count_cons_self, List.filter_cons_of_neg (by simp),
        if_neg (fun h => h.1 rfl), Nat.add_assoc]
    · rw [List.count_cons_of_ne hmac, List.filter_cons_of_pos (by simpa using hmac),
        List.toFinset_cons]
      by_cases hold : ∃ k ∈ sess, norm k.callingStationId = norm r.callingStationId
      · have hmem : norm r.callingStationId ∈
            ((sess.map fun r => norm r.callingStationId).filter (· ≠ "")).toFinset := by
          simpa [hmac] using hold
        rw [Finset.insert_eq_of_mem hmem, if_pos ⟨hmac, hold⟩, Nat.add_zero]
      · have hmem : norm r.callingStationId ∉
            ((sess.map fun r => norm r.callingStationId).filter (· ≠ "")).toFinset := by
          simpa [hmac] using hold
        rw [Finset.card_insert_of_notMem hmem, if_neg (fun h => hold h.2), Nat.add_right_comm]

theorem places_le_cons (r : Radacct) (sess : List Radacct) :
    places norm macAware sess ≤ places norm macAware (r :: sess) ∧
      places norm macAware (r :: sess) ≤ places norm macAware sess + 1 := by
  rw [places_cons]
  split_ifs <;> omega

theorem places_le_length (sess : List Radacct) : places norm macAware sess ≤ sess.length := by
  induction sess with
  | nil => cases macAware <;> exact Nat.le_refl 0
  | cons r sess ih =>
    rw [List.length_cons]
    exact (places_le_cons r sess).2.trans (Nat.add_le_add_right ih 1)

theorem places_le_append (a b : List Radacct) :
    places norm macAware b ≤ places norm macAware (a ++ b) := by
  induction a with
  | nil => exact le_rfl
  | cons r a ih => exact ih.trans (places_le_cons r (a ++ b)).1

end places

theorem filter_of_perm_append {l a b : List Radacct} {p : Radacct → Bool} (hnodup : l.Nodup)
    (hperm : (a ++ b).Perm l) (hp : ∀ r ∈ l, p r = true ↔ r ∈ b) :
    (l.filter p).Perm b ∧ (l.filter fun r => !p r).Perm a := by
  have hsplit := List.nodup_append.mp (hperm.nodup_iff.mpr hnodup)
  have ha : ∀ r ∈ a, p r = false := by
    intro r hr
    refine Bool.eq_false_iff.mpr fun h => ?_
    have hb := (hp r (hperm.mem_iff.mp (List.mem_append_left _ hr))).mp h
    exact hsplit.2.2 r hr r hb rfl
  have hb : ∀ r ∈ b, p r = true := fun r hr =>
    (hp r (hperm.mem_iff.mp (List.mem_append_right _ hr))).mpr hr
  have hapos : a.filter p = [] := List.filter_eq_nil_iff.mpr (by simpa using ha)
  have hbpos : b.filter p = b := List.filter_eq_self.mpr hb
  have haneg : (a.filter fun r => !p r) = a := List.filter_eq_self.mpr (by simpa using ha)
  have hbneg : (b.filter fun r => !p r) = [] := List.filter_eq_nil_iff.mpr (by simpa using hb)
  constructor
  · have hfilter := (hperm.filter p).symm
    rwa [List.filter_append, hapos, hbpos, List.nil_append] at hfilter
  · have hfilter := (hperm.filter fun r => !p r).symm
    rwa [List.filter_append, haneg, hbneg, List.append_nil] at hfilter

theorem isSome_ofPairs {pairs : List (String × String)} {key : String} :
    ((Dict.ofPairs pairs).get? key).isSome = true ↔ ∃ kv ∈ pairs, kv.1 = key := by
  rw [Dict.get?_ofPairs, Option.isSome_map, List.getLast?_isSome, ne_eq, List.filter_eq_nil_iff]
  simp

section scope
variable {db : Db} {tenantId : ℤ} {rows : List Radacct} {username : String} {limit : ℤ}
  {macAware : Bool}

theorem picked_of_limit (hlimit : limitOf db tenantId username = some (limit, macAware)) :
    picked db tenantId rows username = aboveLimit limit (sessionsOf rows username) := by
  rw [picked, hlimit]

theorem mem_of_mem_picked {r : Radacct} (h : r ∈ picked db tenantId rows username) :
    r ∈ sessionsOf rows username := by
  rw [picked] at h
  split at h
  · exact absurd h List.not_mem_nil
  · rw [aboveLimit] at h
    split_ifs at h
    · exact absurd h List.not_mem_nil
    · exact (List.mem_insertionSort _).mp (List.mem_of_mem_drop h)

theorem isSome_violations {sid : String} :
    ((deviceLimitViolations db tenantId rows).get? sid).isSome = true ↔
      sid ≠ "" ∧ ∃ user ∈ usersOf rows, ∃ r ∈ picked db tenantId rows user,
        r.acctSessionId = sid := by
  rw [deviceLimitViolations, isSome_ofPairs]
  constructor
  · rintro ⟨kv, hkv, hsid⟩
    obtain ⟨user, huser, hpair⟩ := List.mem_flatMap.mp hkv
    obtain ⟨r, hr, rfl⟩ := List.mem_map.mp hpair
    obtain ⟨hr, hid⟩ := List.mem_filter.mp hr
    exact ⟨hsid ▸ of_decide_eq_true hid, user, huser, r, hr, hsid⟩
  · rintro ⟨hid, user, huser, r, hr, rfl⟩
    exact ⟨_, List.mem_flatMap.mpr ⟨user, huser, List.mem_map.mpr
      ⟨r, List.mem_filter.mpr ⟨hr, decide_eq_true hid⟩, rfl⟩⟩, rfl⟩

theorem reported_iff (hids : (rows.map Radacct.acctSessionId).Nodup)
    (hnamed : ∀ r ∈ rows, r.acctSessionId ≠ "") (hname : username ≠ "") {r : Radacct}
    (hr : r ∈ sessionsOf rows username) :
    reported db tenantId rows r = true ↔ r ∈ picked db tenantId rows username := by
  obtain ⟨hrow, huser⟩ := List.mem_filter.mp hr
  have huser : strip r.username = username := of_decide_eq_true huser
  rw [reported, isSome_violations]
  constructor
  · rintro ⟨-, user, -, r', hpicked, hsid⟩
    obtain ⟨hrow', huser'⟩ := List.mem_filter.mp (mem_of_mem_picked hpicked)
    have hsame : r' = r := List.inj_on_of_nodup_map hids hrow' hrow hsid
    subst hsame
    rwa [← huser, of_decide_eq_true huser']
  · intro hpicked
    refine ⟨hnamed r hrow, username, ?_, r, hpicked, rfl⟩
    refine List.mem_eraseDups.mpr (List.mem_filter.mpr ⟨?_, decide_eq_true hname⟩)
    exact List.mem_map.mpr ⟨r, hrow, huser⟩

theorem bySign_perm (sess : List Radacct) : (bySign sess).Perm sess := List.perm_insertionSort _ _

theorem gone_kept (hids : (rows.map Radacct.acctSessionId).Nodup)
    (hnamed : ∀ r ∈ rows, r.acctSessionId ≠ "") (hname : username ≠ "")
    (hlimit : limitOf db tenantId username = some (limit, macAware)) (hpos : 0 < limit) :
    (((sessionsOf rows username).filter (reported db tenantId rows)).Perm
        ((bySign (sessionsOf rows username)).drop limit.toNat)) ∧
      ((sessionsOf rows username).filter fun r => !reported db tenantId rows r).Perm
        ((bySign (sessionsOf rows username)).take limit.toNat) := by
  have hnodup : (sessionsOf rows username).Nodup := (hids.of_map _).filter _
  refine filter_of_perm_append hnodup
    (by rw [List.take_append_drop]; exact bySign_perm _) fun r hr => ?_
  rw [reported_iff hids hnamed hname hr, picked_of_limit hlimit, aboveLimit]
  split_ifs with hfew
  · have hlen : (sessionsOf rows username).length ≤ limit.toNat := by omega
    rw [List.drop_of_length_le (by rwa [(bySign_perm _).length_eq])]
  · rfl

end scope

section cut
variable {age : Radacct → ℤ} {norm : String → String} {macAware : Bool} {limit : ℤ}
  {sess gone kept : List Radacct}

theorem EvictsExcess.of_perm {gone' kept' : List Radacct} (hgone : gone.Perm gone')
    (hkept : kept.Perm kept') (h : EvictsExcess age norm macAware limit gone kept) :
    EvictsExcess age norm macAware limit gone' kept' where
  enough := places_perm hkept ▸ h.enough
  needed r hr := places_perm (hkept.cons r) ▸ h.needed r (hgone.mem_iff.mpr hr)
  earliest k hk r hr := h.earliest k (hkept.mem_iff.mpr hk) r (hgone.mem_iff.mpr hr)
  silent hfew := by
    rw [← places_perm (hgone.append hkept)] at hfew
    rw [h.silent hfew] at hgone
    exact hgone.nil_eq.symm

theorem evictsExcess_nil (hfew : (kept.length : ℤ) ≤ limit) :
    EvictsExcess age norm macAware limit [] kept where
  enough := (Int.ofNat_le.mpr (places_le_length kept)).trans hfew
  needed _ hr := absurd hr List.not_mem_nil
  earliest _ _ _ hr := absurd hr List.not_mem_nil
  silent _ := rfl

theorem lt_places_cons_iff (r : Radacct) (hfull : (places norm macAware kept : ℤ) = limit) :
    limit < places norm macAware (r :: kept) ↔ (macAware = true → norm r.callingStationId = "" ∨
      ∀ k ∈ kept, norm k.callingStationId ≠ norm r.callingStationId) := by
  have hold : (macAware = true ∧ norm r.callingStationId ≠ "" ∧
      ∃ k ∈ kept, norm k.callingStationId = norm r.callingStationId) ↔
      ¬(macAware = true → norm r.callingStationId = "" ∨
        ∀ k ∈ kept, norm k.callingStationId ≠ norm r.callingStationId) := by
    push Not
    rfl
  rw [places_cons, ← hfull]
  by_cases hnew : macAware = true → norm r.callingStationId = "" ∨
      ∀ k ∈ kept, norm k.callingStationId ≠ norm r.callingStationId
  · rw [if_neg (fun h => hold.mp h hnew)]
    exact iff_of_true (by omega) hnew
  · rw [if_pos (hold.mpr hnew)]
    exact iff_of_false (by omega) hnew

theorem evictsExcess_full_iff (hrest : gone ≠ []) (hlen : (kept.length : ℤ) = limit) :
    EvictsExcess age norm macAware limit gone kept ↔
      (∀ k ∈ kept, ∀ r ∈ gone, age k ≤ age r) ∧
        (macAware = true → (places norm true kept : ℤ) = limit ∧
          ∀ r ∈ gone, norm r.callingStationId = "" ∨
            ∀ k ∈ kept, norm k.callingStationId ≠ norm r.callingStationId) := by
  obtain ⟨e, rest, hcons⟩ := List.exists_cons_of_ne_nil hrest
  have he : e ∈ gone := by rw [hcons]; exact List.mem_cons_self
  constructor
  · intro h
    have hfull : (places norm macAware kept : ℤ) = limit := by
      have hmore := h.needed e he
      have hone : places norm macAware (e :: kept) ≤ places norm macAware kept + 1 :=
        (places_le_cons e kept).2
      have henough := h.enough
      omega
    refine ⟨h.earliest, fun hmac => ?_⟩
    subst hmac
    exact ⟨hfull, fun r hr => (lt_places_cons_iff r hfull).mp (h.needed r hr) rfl⟩
  · rintro ⟨hstart, hdevices⟩
    have hfull : (places norm macAware kept : ℤ) = limit := by
      cases macAware with
      | false => exact hlen
      | true => exact (hdevices rfl).1
    have hneeded : ∀ r ∈ gone, limit < places norm macAware (r :: kept) := fun r hr =>
      (lt_places_cons_iff r hfull).mpr fun hmac => (hdevices hmac).2 r hr
    refine ⟨hfull.le, hneeded, hstart, fun hfew => ?_⟩
    have hmore := hneeded e he
    have hle : places norm macAware (e :: kept) ≤ places norm macAware (rest ++ e :: kept) :=
      places_le_append rest (e :: kept)
    rw [places_perm List.perm_middle, ← List.cons_append, ← hcons] at hle
    omega

theorem evictsExcess_iff (hpos : 0 < limit) (hgone : gone.Perm ((bySign sess).drop limit.toNat))
    (hkept : kept.Perm ((bySign sess).take limit.toNat)) :
    EvictsExcess age norm macAware limit gone kept ↔
      (sess.length : ℤ) ≤ limit ∨ CutAtDevices age norm macAware limit sess := by
  have hlength := (bySign_perm sess).length_eq
  have hswap : EvictsExcess age norm macAware limit gone kept ↔
      EvictsExcess age norm macAware limit ((bySign sess).drop limit.toNat)
        ((bySign sess).take limit.toNat) :=
    ⟨.of_perm hgone hkept, .of_perm hgone.symm hkept.symm⟩
  rw [hswap]
  by_cases hfew : (sess.length : ℤ) ≤ limit
  · have hnone : (bySign sess).drop limit.toNat = [] := List.drop_of_length_le (by omega)
    have hall : (bySign sess).take limit.toNat = bySign sess := List.take_of_length_le (by omega)
    rw [hnone, hall]
    exact iff_of_true (evictsExcess_nil (by omega)) (.inl hfew)
  · have hrest : (bySign sess).drop limit.toNat ≠ [] := by
      intro hnil
      have hle := List.drop_eq_nil_iff.mp hnil
      omega
    rw [evictsExcess_full_iff hrest (by rw [List.length_take]; omega)]
    exact (or_iff_right hfew).symm

end cut

/-- The sessions of a user that go after a save are the excess over the limit exactly when the
user has no more sessions than that, or the sort by signs of life cuts them at devices. -/
theorem evicts_excess_iff (norm : String → String) (db : Db) (window now tenantId : ℤ)
    (scope : Scope) (username : String) (limit : ℤ) (macAware : Bool) (hpos : 0 < limit)
    (hname : username ≠ "")
    (hlimit : limitOf db tenantId username = some (limit, macAware))
    (hids : ((liveRows db window now tenantId scope).map Radacct.acctSessionId).Nodup)
    (hnamed : ∀ r ∈ liveRows db window now tenantId scope, r.acctSessionId ≠ "") :
    EvictsExcess sortStart norm macAware limit
        ((sessionsOf (liveRows db window now tenantId scope) username).filter
          (reported db tenantId (liveRows db window now tenantId scope)))
        ((sessionsOf (liveRows db window now tenantId scope) username).filter fun r =>
          !reported db tenantId (liveRows db window now tenantId scope) r) ↔
      ((sessionsOf (liveRows db window now tenantId scope) username).length : ℤ) ≤ limit ∨
        CutAtDevices sortStart norm macAware limit
          (sessionsOf (liveRows db window now tenantId scope) username) := by
  obtain ⟨hgone, hkept⟩ := gone_kept hids hnamed hname hlimit hpos
  exact evictsExcess_iff hpos hgone hkept

end RadiusModule.PolicyReconciler
