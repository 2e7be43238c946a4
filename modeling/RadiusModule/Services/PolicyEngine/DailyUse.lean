import RadiusModule.Library.Dict
import RadiusModule.Services.PolicyEngine.ConnectionTime
import Mathlib.Data.Set.Card

/-!
# Time used in a day

One query reads the sessions of a list of users, and a dictionary gathers their
intervals by name. What a user has used is the number of seconds that at least
one of the sessions covers, and no more than have passed since the day began.
-/

namespace RadiusModule.PolicyEngine
open Library DeviceLimit

def dayPair (since : ℤ) (r : Radacct) : Option (String × (ℤ × ℤ)) :=
  (dayInterval since r).map fun iv => (r.username, iv)

def dailyUsedSecondsBulk (radacct : List Radacct) (tenantId : ℤ) (usernames : List String)
    (since now : ℤ) : Dict String ℤ :=
  let names := usernames.filter (· ≠ "")
  if names = [] then []
  else
    let rows := radacct.filter fun r => names.any fun u => ofDay tenantId u since r
    let byUser := Dict.group (rows.filterMap (dayPair since))
    byUser.mapValues fun ivs => min (unionSeconds ivs) (elapsedSince now since)

/-- `.get(user, 0)`, as the gate and the time column read it. -/
def usedToday (radacct : List Radacct) (tenantId : ℤ) (usernames : List String)
    (since now : ℤ) (username : String) : ℤ :=
  ((dailyUsedSecondsBulk radacct tenantId usernames since now).get? username).getD 0

def onlineToday (radacct : List Radacct) (tenantId : ℤ) (username : String) (since : ℤ) : Set ℤ :=
  {x | since / second ≤ x ∧ ∃ r ∈ radacct, ofDay tenantId username since r = true ∧
    ∃ t, r.acctStartTime = .instant t ∧
      t / second ≤ x ∧ x < t / second + r.acctSessionTime}

def dayIntervals (radacct : List Radacct) (tenantId : ℤ) (username : String) (since : ℤ) :
    List (ℤ × ℤ) :=
  (radacct.filter (ofDay tenantId username since)).filterMap (dayInterval since)

theorem dayInterval_lt {since : ℤ} {r : Radacct} {iv : ℤ × ℤ} (h : dayInterval since r = some iv) :
    iv.1 < iv.2 := by
  unfold dayInterval at h
  split at h
  · cases h
  · simp only [Option.ite_none_left_eq_some, Option.some_inj] at h
    obtain ⟨hcut, rfl⟩ := h
    simp only [max_lt_iff]
    omega

theorem dayInterval_covers {since x : ℤ} {r : Radacct} :
    (∃ iv, dayInterval since r = some iv ∧ iv.1 ≤ x ∧ x < iv.2) ↔
      since / second ≤ x ∧ ∃ t, r.acctStartTime = .instant t ∧
        t / second ≤ x ∧ x < t / second + r.acctSessionTime := by
  cases hs : r.acctStartTime with
  | null => simp [dayInterval, hs, Stamp.time?]
  | blank => simp [dayInterval, hs, Stamp.time?]
  | instant t =>
    simp only [dayInterval, hs, Stamp.time?, Option.ite_none_left_eq_some, Option.some_inj,
      Stamp.instant.injEq, exists_eq_left']
    constructor
    · rintro ⟨iv, ⟨-, rfl⟩, hx⟩
      simp only [max_le_iff] at hx
      omega
    · rintro ⟨hday, hfrom, hto⟩
      exact ⟨_, ⟨by omega, rfl⟩, max_le hfrom hday, hto⟩

theorem onlineToday_eq_covered (radacct : List Radacct) (tenantId : ℤ) (username : String)
    (since : ℤ) : onlineToday radacct tenantId username since =
      Interval.covered (dayIntervals radacct tenantId username since) := by
  ext x
  simp only [Finset.mem_coe, Interval.mem_covered, dayIntervals, List.mem_filterMap,
    List.mem_filter]
  constructor
  · rintro ⟨hday, r, hr, hof, ht⟩
    obtain ⟨iv, hiv, hx⟩ := dayInterval_covers.mpr ⟨hday, ht⟩
    exact ⟨iv, ⟨r, ⟨hr, hof⟩, hiv⟩, hx⟩
  · rintro ⟨iv, ⟨r, ⟨hr, hof⟩, hiv⟩, hx⟩
    obtain ⟨hday, ht⟩ := dayInterval_covers.mp ⟨iv, hiv, hx⟩
    exact ⟨hday, r, hr, hof, ht⟩

theorem group_dayPair (radacct : List Radacct) {tenantId since : ℤ} {names : List String}
    {username : String} (hu : username ∈ names) :
    (((radacct.filter fun r => names.any fun u => ofDay tenantId u since r).filterMap
      (dayPair since)).filter fun kv => kv.1 = username).map Prod.snd =
      dayIntervals radacct tenantId username since := by
  rw [dayIntervals, List.filter_filterMap, List.map_filterMap, List.filterMap_filter,
    List.filterMap_filter]
  congr 1
  funext r
  have hname : ∀ u, ofDay tenantId u since r = true → r.username = u := fun u h => by
    simp only [ofDay, ofUser, Bool.and_eq_true, decide_eq_true_eq] at h
    exact h.1.2
  by_cases hr : ofDay tenantId username since r = true
  · have hany : (names.any fun u => ofDay tenantId u since r) = true :=
      List.any_eq_true.mpr ⟨username, hu, hr⟩
    cases hiv : dayInterval since r <;> simp [hr, hany, dayPair, hiv, hname _ hr]
  · have hskip : (names.any fun u => ofDay tenantId u since r) = true → r.username ≠ username := by
      intro hany he
      obtain ⟨u, -, h⟩ := List.any_eq_true.mp hany
      exact hr (he ▸ (hname u h).symm ▸ h)
    rw [if_neg hr]
    split_ifs with hany
    · cases hiv : dayInterval since r <;> simp [dayPair, hiv, hskip hany]
    · rfl

theorem get?_dailyUsedSecondsBulk (radacct : List Radacct) (tenantId since now : ℤ)
    {usernames : List String} {username : String} (hu : username ∈ usernames)
    (hne : username ≠ "") :
    (dailyUsedSecondsBulk radacct tenantId usernames since now).get? username =
      let intervals := dayIntervals radacct tenantId username since
      if intervals = [] then none
      else some (min (unionSeconds intervals) (elapsedSince now since)) := by
  have hmem : username ∈ usernames.filter (· ≠ "") := List.mem_filter.mpr ⟨hu, by simpa using hne⟩
  rw [dailyUsedSecondsBulk, if_neg (List.ne_nil_of_mem hmem), Dict.get?_mapValues,
    Dict.get?_group]
  simp only [group_dayPair radacct hmem]
  split_ifs <;> rfl

theorem dayIntervals_eq_nil {radacct : List Radacct} {tenantId since : ℤ} {username : String} :
    dayIntervals radacct tenantId username since = [] ↔
      onlineToday radacct tenantId username since = ∅ := by
  rw [onlineToday_eq_covered]
  constructor
  · intro h
    simp [h, Interval.covered]
  · intro h
    refine List.eq_nil_iff_forall_not_mem.mpr fun iv hiv => ?_
    obtain ⟨r, -, hr⟩ := List.mem_filterMap.mp hiv
    have hx : iv.1 ∈ Interval.covered (dayIntervals radacct tenantId username since) :=
      Interval.mem_covered.mpr ⟨iv, hiv, le_rfl, dayInterval_lt hr⟩
    exact Set.notMem_empty _ (h ▸ Finset.mem_coe.mpr hx)

theorem finite_onlineToday (radacct : List Radacct) (tenantId : ℤ) (username : String)
    (since : ℤ) : (onlineToday radacct tenantId username since).Finite := by
  rw [onlineToday_eq_covered]
  exact Finset.finite_toSet _

theorem usedToday_eq (radacct : List Radacct) (tenantId since now : ℤ) {usernames : List String}
    {username : String} (hu : username ∈ usernames) (hne : username ≠ "") :
    usedToday radacct tenantId usernames since now username =
      min ((onlineToday radacct tenantId username since).ncard : ℤ) (elapsedSince now since) := by
  rw [usedToday, get?_dailyUsedSecondsBulk radacct tenantId since now hu hne]
  by_cases hnil : dayIntervals radacct tenantId username since = []
  · have helapsed : 0 ≤ elapsedSince now since := le_max_left _ _
    rw [if_pos hnil, dayIntervals_eq_nil.mp hnil, Set.ncard_empty]
    exact (min_eq_left helapsed).symm
  · rw [if_neg hnil, onlineToday_eq_covered, Set.ncard_coe_finset, ← unionSeconds_eq_card]
    rfl

theorem dailyUsedSeconds_eq_usedToday (t : RadacctTable) (tenantId : ℤ) {username : String}
    (since now : ℤ) (hne : username ≠ "") :
    dailyUsedSeconds t tenantId username since now =
      usedToday t.rows tenantId [username] since now username := by
  rw [usedToday_eq _ _ _ _ List.mem_cons_self hne, onlineToday_eq_covered,
    Set.ncard_coe_finset, ← unionSeconds_eq_card, dailyUsedSeconds, if_neg hne]
  rfl

theorem onlineToday_cons (r : Radacct) (radacct : List Radacct) (tenantId : ℤ)
    (username : String) (since : ℤ) : onlineToday (r :: radacct) tenantId username since =
      onlineToday [r] tenantId username since ∪
        onlineToday radacct tenantId username since := by
  ext x
  simp only [onlineToday, Set.mem_union, Set.mem_ofPred_eq, List.mem_cons, List.not_mem_nil,
    or_false, or_and_right, exists_or, exists_eq_left, and_or_left]

theorem onlineToday_mono {radacct rows : List Radacct} (h : radacct ⊆ rows) (tenantId : ℤ)
    (username : String) (since : ℤ) :
    onlineToday radacct tenantId username since ⊆
      onlineToday rows tenantId username since := by
  rintro x ⟨hday, r, hr, hrest⟩
  exact ⟨hday, r, h hr, hrest⟩

/-- The count is the measure of a union: the order of the rows does not matter, a session that
lies inside the others adds nothing, and no session lowers it. -/
theorem usedToday_union (radacct : List Radacct) (tenantId since now : ℤ)
    (usernames : List String) (username : String) (hu : username ∈ usernames)
    (hne : username ≠ "") :
    let used := fun rows => usedToday rows tenantId usernames since now username
    let online := fun rows => onlineToday rows tenantId username since
    used radacct = min ((online radacct).ncard : ℤ) (elapsedSince now since) ∧
      (∀ rows, rows.Perm radacct → used rows = used radacct) ∧
      (∀ r ∈ radacct, used (r :: radacct) = used radacct) ∧
      (∀ r, online [r] ⊆ online radacct → used (r :: radacct) = used radacct) ∧
      ∀ r, used radacct ≤ used (r :: radacct) := by
  intro used online
  have heq : ∀ rows, used rows = min ((online rows).ncard : ℤ) (elapsedSince now since) :=
    fun rows => usedToday_eq rows tenantId since now hu hne
  have hinside : ∀ r, online [r] ⊆ online radacct → used (r :: radacct) = used radacct := by
    intro r hr
    have hcons : online (r :: radacct) = online radacct := by
      rw [show online (r :: radacct) = online [r] ∪ online radacct from
        onlineToday_cons r radacct tenantId username since]
      exact Set.union_eq_self_of_subset_left hr
    rw [heq, heq, hcons]
  refine ⟨heq radacct, fun rows hperm => ?_, fun r hr => ?_, hinside, fun r => ?_⟩
  · have hsame : online rows = online radacct :=
      (onlineToday_mono hperm.subset ..).antisymm (onlineToday_mono hperm.symm.subset ..)
    rw [heq, heq, hsame]
  · exact hinside r (onlineToday_mono (by simpa using hr) ..)
  · have hle : (online radacct).ncard ≤ (online (r :: radacct)).ncard :=
      Set.ncard_le_ncard (onlineToday_mono (List.subset_cons_self r radacct) ..)
        (finite_onlineToday ..)
    rw [heq, heq]
    exact min_le_min_right _ (Int.ofNat_le.mpr hle)

theorem usedToday_union_two_devices :
    let r : Radacct :=
      { radacctid := 1, tenantId := 1, username := "u",
        acctStartTime := .instant (36000 * second), acctSessionTime := 7200 }
    usedToday [r, r] 1 ["u"] 0 (50000 * second) "u" =
      usedToday [r] 1 ["u"] 0 (50000 * second) "u" := by
  intro r
  exact (usedToday_union [r] 1 0 (50000 * second) ["u"] "u" (by decide) (by decide)).2.2.1 r
    List.mem_cons_self

end RadiusModule.PolicyEngine
