import RadiusModule.Library.Interval
import RadiusModule.Services.DeviceLimit
import RadiusModule.Services.PolicyEngine.Schedule

/-!
# Connection time

The gate compares the total and the daily cap with what `radacct` holds of the
user. The total is a sum of session times. The gate counts the day as the
union of the sessions cut at its start, the timeout as the sum of the session
times of the sessions that began in it.
-/

namespace RadiusModule.PolicyEngine
open Library DeviceLimit

/-- What the time checks read beside `radacct`: the instant, the wall clock at it, local
midnight, and the last reset of the daily quota. -/
structure Today where
  now : ℤ
  localNow : ℤ
  midnight : ℤ
  dailyResetAt : Stamp := .null
deriving DecidableEq, Repr

def Today.since (d : Today) : ℤ :=
  match d.dailyResetAt with
  | .instant t => if d.midnight < floorSecond t then floorSecond t else d.midnight
  | _ => d.midnight

def elapsedSince (now since : ℤ) : ℤ := max 0 ((now - since) / second)

def sumSeconds (rows : List Radacct) : ℤ := (rows.map Radacct.acctSessionTime).sum

def accountedSessionSeconds (t : RadacctTable) (tenantId : ℤ) (username : String)
    (since : Option ℤ) : ℤ :=
  sumSeconds (t.select fun r => ofUser tenantId username r &&
    match since with
    | some s => r.acctStartTime.notBefore s
    | none => true)

def effectiveTimeCaps (sub : Subscriber) (plan : Option AccessPlan) : ℤ × ℤ :=
  if sub.connectionTimeLimitEnabled || sub.totalConnectionTimeMin ≠ 0 ||
      sub.dailyConnectionTimeMin ≠ 0 then
    (sub.totalConnectionTimeMin, sub.dailyConnectionTimeMin)
  else (0, (plan.map AccessPlan.maxDailyMinutes).getD 0)

def tupleLE (a b : ℤ × ℤ) : Prop := a.1 < b.1 ∨ a.1 = b.1 ∧ a.2 ≤ b.2

instance : DecidableRel tupleLE := fun _ _ => inferInstanceAs (Decidable (_ ∨ _))

def unionSeconds (intervals : List (ℤ × ℤ)) : ℤ :=
  match (intervals.filter fun iv => iv.1 < iv.2).insertionSort tupleLE with
  | [] => 0
  | iv :: ivs => Interval.sweep iv.1 iv.2 0 ivs

def dayInterval (since : ℤ) (r : Radacct) : Option (ℤ × ℤ) :=
  match r.acctStartTime.time? with
  | none => none
  | some t =>
    let start := t / second
    let stop := start + r.acctSessionTime
    if r.acctSessionTime ≤ 0 ∨ stop ≤ since / second then none
    else some (max start (since / second), stop)

def ofDay (tenantId : ℤ) (username : String) (since : ℤ) (r : Radacct) : Bool :=
  ofUser tenantId username r &&
    (r.acctStartTime.notBefore since || r.acctStopTime.isOpen || r.acctStopTime.after since)

def dailyUsedSeconds (t : RadacctTable) (tenantId : ℤ) (username : String) (since now : ℤ) : ℤ :=
  if username = "" then 0
  else min (unionSeconds ((t.select (ofDay tenantId username since)).filterMap (dayInterval since)))
    (elapsedSince now since)

def checkConnectionTime (t : RadacctTable) (d : Today) (sub : Subscriber)
    (plan : Option AccessPlan) : Option AuthDecision :=
  let (totalCapMin, dailyCapMin) := effectiveTimeCaps sub plan
  if 0 < totalCapMin ∧
      totalCapMin * 60 ≤ accountedSessionSeconds t sub.tenantId sub.username none then
    some (reject "time_total_exhausted")
  else if 0 < dailyCapMin ∧
      dailyCapMin * 60 ≤ dailyUsedSeconds t sub.tenantId sub.username d.since d.now then
    some (reject "time_daily_exhausted")
  else none

def timeCapRemainingSeconds (t : RadacctTable) (d : Today) (sub : Subscriber)
    (plan : Option AccessPlan) : Option ℤ :=
  let (totalCapMin, dailyCapMin) := effectiveTimeCaps sub plan
  let total := totalCapMin * 60 - accountedSessionSeconds t sub.tenantId sub.username none
  let daily := dailyCapMin * 60 -
    min (accountedSessionSeconds t sub.tenantId sub.username (some d.since))
      (elapsedSince d.now d.since)
  if 0 < totalCapMin then
    some (max 0 (if 0 < dailyCapMin then min total daily else total))
  else if 0 < dailyCapMin then some (max 0 daily)
  else none

def gateRemaining (t : RadacctTable) (d : Today) (sub : Subscriber) (plan : Option AccessPlan) : ℤ :=
  let (totalCapMin, dailyCapMin) := effectiveTimeCaps sub plan
  let total := totalCapMin * 60 - accountedSessionSeconds t sub.tenantId sub.username none
  let daily := dailyCapMin * 60 - dailyUsedSeconds t sub.tenantId sub.username d.since d.now
  if 0 < totalCapMin then if 0 < dailyCapMin then min total daily else total else daily

theorem tupleLE_total (a b : ℤ × ℤ) : tupleLE a b ∨ tupleLE b a := by
  simp only [tupleLE]
  omega

theorem tupleLE_trans {a b c : ℤ × ℤ} (hab : tupleLE a b) (hbc : tupleLE b c) : tupleLE a c := by
  simp only [tupleLE] at *
  omega

theorem unionSeconds_eq_card (intervals : List (ℤ × ℤ)) :
    unionSeconds intervals = (Interval.covered intervals).card := by
  have htotal : Std.Total tupleLE := ⟨tupleLE_total⟩
  have htrans : IsTrans (ℤ × ℤ) tupleLE := ⟨fun _ _ _ => tupleLE_trans⟩
  have hperm := List.perm_insertionSort tupleLE (intervals.filter fun iv => iv.1 < iv.2)
  have hsorted := List.pairwise_insertionSort tupleLE (intervals.filter fun iv => iv.1 < iv.2)
  rw [← Interval.covered_filter_nonempty, ← Interval.covered_perm hperm]
  simp only [unionSeconds]
  cases hs : (intervals.filter fun iv => iv.1 < iv.2).insertionSort tupleLE with
  | nil => simp [Interval.covered]
  | cons iv ivs =>
    rw [hs] at hperm hsorted
    refine Interval.sweep_sorted_eq_card (fun jv hj => ?_) (hsorted.imp fun h => ?_)
    · simpa using (List.mem_filter.mp (hperm.mem_iff.mp hj)).2
    · simp only [tupleLE] at h
      omega

end RadiusModule.PolicyEngine
