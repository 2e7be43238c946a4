import RadiusModule.Services.PolicyEngine.SessionTimeout

/-!
# The caps in the Access-Accept

The gate measures the set of seconds of the day that some session covers, the
timeout adds up session times. The Access-Accept keeps what the gate has left
when the two counts agree, or when the total cap is nearer than the daily cap
by either count.
-/

namespace RadiusModule.PolicyEngine
open Library AccessSchedule DeviceLimit

section
variable (t : RadacctTable) (d : Today) (sub : Subscriber)

noncomputable def onlineSeconds : Finset ℤ :=
  if sub.username = "" then ∅
  else Interval.covered ((t.select (ofDay sub.tenantId sub.username d.since)).filterMap
    (dayInterval d.since))

def begunSeconds : ℤ :=
  sumSeconds (t.select fun r =>
    ofUser sub.tenantId sub.username r && r.acctStartTime.notBefore d.since)

def passedSeconds : ℤ := elapsedSince d.now d.since

def CountsAgree (plan : Option AccessPlan) : Prop :=
  let (totalCapMin, dailyCapMin) := effectiveTimeCaps sub plan
  let total := totalCapMin * 60 - accountedSessionSeconds t sub.tenantId sub.username none
  let added := min (begunSeconds t d sub) (passedSeconds d)
  let measured := min ((onlineSeconds t d sub).card : ℤ) (passedSeconds d)
  dailyCapMin ≤ 0 ∨ added = measured ∨
    0 < totalCapMin ∧ total ≤ dailyCapMin * 60 - added ∧ total ≤ dailyCapMin * 60 - measured

def ExtraWithin (plan : Option AccessPlan) : Prop :=
  ∀ text ∈ extraTimeout sub, ∃ n ∈ PyText.int? text, n ≤ gateRemaining t d sub plan

end

theorem dailyUsedSeconds_eq (t : RadacctTable) (d : Today) (sub : Subscriber) :
    dailyUsedSeconds t sub.tenantId sub.username d.since d.now =
      min ((onlineSeconds t d sub).card : ℤ) (passedSeconds d) := by
  have hpos : 0 ≤ passedSeconds d := le_max_left _ _
  by_cases hname : sub.username = ""
  · simp [dailyUsedSeconds, onlineSeconds, hname, min_eq_left hpos]
  · simp only [dailyUsedSeconds, onlineSeconds, if_neg hname, unionSeconds_eq_card, passedSeconds]

theorem sumSeconds_eq_lengths {since : ℤ} {rows : List Radacct}
    (h : ∀ r ∈ rows, r.acctStartTime.notBefore since = true ∧ 0 ≤ r.acctSessionTime) :
    sumSeconds rows = (((rows.filterMap (dayInterval since)).map
      fun iv => (iv.2 - iv.1).toNat).sum : ℕ) := by
  induction rows with
  | nil => rfl
  | cons r rows ih =>
    have hrest := ih fun r' hr' => h r' (List.mem_cons_of_mem r hr')
    obtain ⟨hstart, htime⟩ := h r List.mem_cons_self
    rw [sumSeconds, List.map_cons, List.sum_cons]
    rw [sumSeconds] at hrest
    rw [hrest, List.filterMap_cons]
    cases hr : r.acctStartTime with
    | instant u =>
      rw [hr] at hstart
      have hle : since / second ≤ u / second :=
        Int.ediv_le_ediv (by decide) (of_decide_eq_true hstart)
      simp only [dayInterval, hr, Stamp.time?, max_eq_left hle]
      split_ifs with hnone
      · dsimp only
        omega
      · dsimp only
        rw [List.map_cons, List.sum_cons]
        push_cast
        omega
    | _ =>
      rw [hr] at hstart
      cases hstart

/-- Sessions that began in the day, one after another, count alike. -/
theorem countsAgree_of_apart {t : RadacctTable} {d : Today} {sub : Subscriber}
    (plan : Option AccessPlan) (hname : sub.username ≠ "")
    (hday : ∀ r ∈ t.rows, ofDay sub.tenantId sub.username d.since r = true →
      r.acctStartTime.notBefore d.since = true ∧ 0 ≤ r.acctSessionTime)
    (hapart : ((t.select (ofDay sub.tenantId sub.username d.since)).filterMap
      (dayInterval d.since)).Pairwise fun a b => a.2 ≤ b.1 ∨ b.2 ≤ a.1) :
    CountsAgree t d sub plan := by
  have hrows : (t.select fun r => ofUser sub.tenantId sub.username r &&
      r.acctStartTime.notBefore d.since) = t.select (ofDay sub.tenantId sub.username d.since) := by
    refine List.filter_congr fun r hr => ?_
    have hbegun := hday r hr
    rw [ofDay] at hbegun ⊢
    cases huser : ofUser sub.tenantId sub.username r with
    | false => rfl
    | true =>
      rw [huser, Bool.true_and] at hbegun
      rw [Bool.true_and, Bool.true_and]
      cases hstart : r.acctStartTime.notBefore d.since with
      | true => rfl
      | false =>
        refine (Bool.eq_false_iff.mpr fun hin => ?_).symm
        rw [hstart] at hbegun
        exact Bool.false_ne_true (hbegun hin).1
  have hsame : begunSeconds t d sub = ((onlineSeconds t d sub).card : ℤ) := by
    rw [begunSeconds, hrows, onlineSeconds, if_neg hname,
      Interval.card_covered_of_pairwise hapart]
    refine sumSeconds_eq_lengths fun r hr => ?_
    obtain ⟨hrow, hin⟩ := Table.mem_select.mp hr
    exact hday r hrow hin
  simp only [CountsAgree, hsame]
  exact .inr (.inl trivial)

theorem gateRemaining_pos {t : RadacctTable} {d : Today} {sub : Subscriber}
    {plan : Option AccessPlan} (hgate : checkConnectionTime t d sub plan = none)
    (hcap : 0 < (effectiveTimeCaps sub plan).1 ∨ 0 < (effectiveTimeCaps sub plan).2) :
    0 < gateRemaining t d sub plan := by
  simp only [checkConnectionTime, gateRemaining] at hgate ⊢
  split_ifs at hgate with htotal hdaily
  split_ifs <;> omega

theorem timeCapRemaining_eq_iff {t : RadacctTable} {d : Today} {sub : Subscriber}
    {plan : Option AccessPlan} (hgate : checkConnectionTime t d sub plan = none)
    (hcap : 0 < (effectiveTimeCaps sub plan).1 ∨ 0 < (effectiveTimeCaps sub plan).2) :
    timeCapRemainingSeconds t d sub plan = some (gateRemaining t d sub plan) ↔
      CountsAgree t d sub plan := by
  have hbegun : accountedSessionSeconds t sub.tenantId sub.username (some d.since) =
      begunSeconds t d sub := rfl
  have hpassed : elapsedSince d.now d.since = passedSeconds d := rfl
  simp only [checkConnectionTime, gateRemaining, timeCapRemainingSeconds, CountsAgree,
    dailyUsedSeconds_eq, hbegun, hpassed] at hgate ⊢
  split_ifs at hgate with htotal hdaily
  split_ifs <;> simp only [Option.some.injEq, false_iff] <;> omega

theorem cutBy_le (existing : Option ℤ) {r : ℤ} (h : 0 < r) :
    ∃ n, cutBy existing (some r) = some n ∧ 0 < n ∧ n ≤ r := by
  simp only [cutBy, if_neg (not_le.mpr h)]
  cases existing with
  | none => exact ⟨r, rfl, h, le_rfl⟩
  | some e =>
    refine ⟨_, rfl, ?_⟩
    split_ifs <;> omega

theorem cutBy_keeps_le {n r : ℤ} (hn : 0 < n) (h : n ≤ r) (remaining : Option ℤ) :
    ∃ m, cutBy (some n) remaining = some m ∧ m ≤ r := by
  cases remaining with
  | none => exact ⟨n, rfl, h⟩
  | some c =>
    simp only [cutBy, if_neg (not_le.mpr hn)]
    split_ifs
    · exact ⟨n, rfl, h⟩
    · exact ⟨_, rfl, (min_le_left _ _).trans h⟩

/-- When the gate lets the request through, the timeout path has the same remainder and the
Access-Accept a Session-Timeout within it, for just these inputs. -/
theorem accept_keeps_caps_iff (loads : String → Option Json) (db : Db) (d : Today)
    (sub : Subscriber) (plan : Option AccessPlan)
    (hgate : checkConnectionTime db.radacct d sub plan = none)
    (hcap : 0 < (effectiveTimeCaps sub plan).1 ∨ 0 < (effectiveTimeCaps sub plan).2) :
    (timeCapRemainingSeconds db.radacct d sub plan = some (gateRemaining db.radacct d sub plan) ∧
        0 < gateRemaining db.radacct d sub plan ∧
        ∃ v ∈ sessionTimeout loads db d sub plan, ∃ n ∈ v.seconds?,
          n ≤ gateRemaining db.radacct d sub plan) ↔
      CountsAgree db.radacct d sub plan ∧ ExtraWithin db.radacct d sub plan := by
  have hpos := gateRemaining_pos hgate hcap
  rw [← timeCapRemaining_eq_iff hgate hcap]
  refine and_congr_right fun hsame => ?_
  simp only [hpos, true_and, ExtraWithin, sessionTimeout]
  cases extraTimeout sub with
  | some text => simp [TimeoutValue.seconds?]
  | none =>
    obtain ⟨n, hcut, hn, hle⟩ := cutBy_le (planned db d sub plan) hpos
    obtain ⟨m, hm, hmle⟩ := cutBy_keeps_le hn hle (scheduleRemaining loads d sub plan)
    have hbuilt : builtTimeout loads db d sub plan = some m := by
      rw [builtTimeout, hsame, hcut, hm]
    simp [hbuilt, TimeoutValue.seconds?, hmle]

def sampleSub : Subscriber := { username := "u1", dailyConnectionTimeMin := 60 }

def sampleSession (id : ℕ) : Radacct :=
  { radacctid := id, tenantId := 1, username := "u1", acctStartTime := .instant (3600 * second)
    acctStopTime := .instant (5400 * second), acctSessionTime := 1800 }

def oneDevice : Db := { radacct := .insert .empty sampleSession fun _ => rfl }

def twoDevices : Db :=
  { radacct := oneDevice.radacct.insert sampleSession fun _ => rfl }

def sampleDay : Today := ⟨7200 * second, 7200 * second, 0, .null⟩

theorem accept_keeps_caps_one_device :
    ∃ v ∈ sessionTimeout (fun _ => none) oneDevice sampleDay sampleSub none, ∃ n ∈ v.seconds?,
      n ≤ gateRemaining oneDevice.radacct sampleDay sampleSub none := by
  have hgate : checkConnectionTime oneDevice.radacct sampleDay sampleSub none = none := by decide
  have hcap : 0 < (effectiveTimeCaps sampleSub none).2 := by decide
  have hextra : extraTimeout sampleSub = none := by decide
  refine ((accept_keeps_caps_iff _ _ _ _ _ hgate (Or.inr hcap)).mpr ⟨?_, ?_⟩).2.2
  · exact (timeCapRemaining_eq_iff hgate (Or.inr hcap)).mp (by decide)
  · simp [ExtraWithin, hextra]

/-- Two devices on line in the same half hour use up the hour of the timeout path, and no
Session-Timeout is sent; the gate has counted half an hour. -/
theorem second_device_drops_cap :
    checkConnectionTime twoDevices.radacct sampleDay sampleSub none = none ∧
      0 < (effectiveTimeCaps sampleSub none).2 ∧
      gateRemaining twoDevices.radacct sampleDay sampleSub none = 1800 ∧
      timeCapRemainingSeconds twoDevices.radacct sampleDay sampleSub none = some 0 ∧
      sessionTimeout (fun _ => none) twoDevices sampleDay sampleSub none = none := by
  decide

end RadiusModule.PolicyEngine
