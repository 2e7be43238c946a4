import Mathlib.Data.List.Basic
import Mathlib.Data.List.Count
import Mathlib.Data.List.Forall2
import Mathlib.Data.List.Range
import RadiusModule.Integration.RouterSync
import RadiusModule.Library.Run
import RadiusModule.Library.Calls

/-!
# The queue of router jobs

Jobs wait in a table and are claimed, carried out and closed by workers. A job that still waits
gives way to a newer one of its kind for the same name, unless a job of its family was queued in
between. A row's id is its place in the table. An operator may take a waiting job out of the queue
or put a job of any status back into it.
-/

namespace RadiusModule.SyncQueue
open Library RouterSync

inductive Status
  | queued | syncing | retrying | done | failed
deriving DecidableEq

/-- What `enqueue` is asked for. No caller gives a `router_id`. -/
structure Job where
  tenant : ℕ
  entityId : Option ℕ
  body : Body

structure Row where
  job : Job
  status : Status
  attempts : ℕ
  nextAttempt : ℤ
  lastError : String
  completedAt : Option ℤ
  createdAt : ℤ

def Row.waiting (r : Row) : Bool := r.status = .queued || r.status = .retrying

def Row.isOpen (r : Row) : Bool := r.waiting || r.status = .syncing

def Job.row (job : Job) (now : ℤ) : Row := ⟨job, .queued, 0, now, "", none, now⟩

def maxId (p : Row → Bool) : List Row → Option ℕ
  | [] => none
  | r :: rows =>
    match maxId p rows with
    | some i => some (i + 1)
    | none => if p r then some 0 else none

def Job.absorbs (job : Job) (r : Row) : Bool :=
  r.job.tenant = job.tenant && r.job.body.kind = job.body.kind &&
    r.job.body.key = job.body.key && r.status = .queued

def Job.blocked (job : Job) (r : Row) : Bool :=
  r.job.tenant = job.tenant && r.job.body.kind.family = job.body.kind.family &&
    r.job.body.key = job.body.key && r.isOpen

def enqueue (rows : List Row) (job : Job) (now : ℤ) : List Row :=
  if job.body.key = "" then rows ++ [job.row now]
  else
    match maxId job.absorbs rows with
    | some prev =>
      if (rows.drop (prev + 1)).any job.blocked then rows ++ [job.row now]
      else rows.modify prev fun r => { r with job := job }
    | none => rows ++ [job.row now]

def enqueueMany (rows : List Row) (jobs : List Job) (now : ℤ) : List Row :=
  rows ++ jobs.map fun job => job.row now

def Row.markDone (r : Row) (now : ℤ) : Row :=
  { r with status := .done, completedAt := some now, attempts := r.attempts + 1, lastError := "" }

def delays : List ℤ := [15, 60, 300, 900, 3600]

def Row.markFailed (r : Row) (error : String) (now : ℤ) : Row :=
  let attempts := r.attempts + 1
  let error := String.ofList (error.toList.take 500)
  if 6 ≤ attempts then
    { r with status := .failed, attempts := attempts, lastError := error, nextAttempt := now }
  else
    { r with
      status := .retrying
      attempts := attempts
      lastError := error
      nextAttempt := now + delays.getD (min (attempts - 1) (delays.length - 1)) 0 * 1000000 }

def Row.retry (r : Row) (now : ℤ) : Row :=
  { r with status := .queued, nextAttempt := now, lastError := "" }

def Row.cancel (r : Row) : Row :=
  if r.waiting then { r with status := .failed, lastError := "canceled by admin" } else r

def markDoneMany (rows : List Row) (ids : List ℕ) (now : ℤ) : List Row :=
  rows.mapIdx fun i r => if i ∈ ids ∧ r.waiting then r.markDone now else r

def markStaleResolved (rows : List Row) (tenant : Option ℕ) (now : ℤ) : List Row :=
  rows.map fun r =>
    if (r.status = .failed ∨ r.status = .retrying) ∧ ∀ t ∈ tenant, r.job.tenant = t then
      { r with
        status := .done
        completedAt := some (r.completedAt.getD now)
        lastError := "" }
    else r

theorem maxId_eq_some {p : Row → Bool} {rows : List Row} {i : ℕ} (h : maxId p rows = some i) :
    ∃ before r between, rows = before ++ r :: between ∧ before.length = i ∧ p r = true := by
  induction rows generalizing i with
  | nil => exact absurd h (by simp [maxId])
  | cons r rows ih =>
    rw [maxId] at h
    cases hrest : maxId p rows with
    | some j =>
      rw [hrest] at h
      obtain ⟨before, r', between, hrows, hlength, hp⟩ := ih hrest
      refine ⟨r :: before, r', between, by rw [hrows, List.cons_append], ?_, hp⟩
      rw [List.length_cons, hlength]
      exact Option.some.inj h
    | none =>
      rw [hrest] at h
      dsimp only at h
      split_ifs at h with hp
      exact ⟨[], r, rows, rfl, Option.some.inj h, hp⟩

theorem enqueue_cases (rows : List Row) (job : Job) (now : ℤ) :
    enqueue rows job now = rows ++ [job.row now] ∨
    ∃ before prev between, rows = before ++ prev :: between ∧ job.absorbs prev = true ∧
      (∀ r ∈ between, job.blocked r = false) ∧
      enqueue rows job now = before ++ { prev with job := job } :: between := by
  unfold enqueue
  split_ifs with hkey
  · exact .inl rfl
  · cases hprev : maxId job.absorbs rows with
    | none => exact .inl rfl
    | some prev =>
      dsimp only
      split_ifs with hlater
      · exact .inl rfl
      · obtain ⟨before, r, between, hrows, hlength, habsorbs⟩ := maxId_eq_some hprev
        have hdrop : rows.drop (prev + 1) = between := by
          rw [hrows, ← hlength, ← List.singleton_append, ← List.append_assoc]
          exact List.drop_left' (by rw [List.length_append, List.length_singleton])
        rw [hdrop] at hlater
        refine .inr ⟨before, r, between, hrows, habsorbs, fun r hr => ?_, ?_⟩
        · exact Bool.eq_false_iff.mpr fun h => hlater (List.any_eq_true.mpr ⟨r, hr, h⟩)
        · rw [hrows, ← hlength, List.modify_eq_take_cons_drop (by simp)]
          simp

theorem absorbs_spec {job : Job} {r : Row} (h : job.absorbs r = true) :
    r.job.tenant = job.tenant ∧ r.job.body.kind = job.body.kind ∧
      r.job.body.key = job.body.key ∧ r.status = .queued := by
  simpa only [Job.absorbs, Bool.and_eq_true, decide_eq_true_eq, and_assoc] using h

/-- The table, the jobs in the hands of workers, and the routers of the tenants. A job goes to every
router of its tenant, so that one stands for all of them. -/
structure World where
  rows : List Row := []
  running : List (ℕ × Job) := []
  routers : ℕ → Router
  /-- How often each row was claimed so far. -/
  claims : ℕ → ℕ := fun _ => 0
  /-- The jobs that were asked for so far. -/
  asked : List Job := []

inductive Event
  | enqueue (job : Job) (now : ℤ)
  | enqueueMany (jobs : List Job) (now : ℤ)
  | claim (i : ℕ)
  /-- The router carries out a job in hand, whether its reply arrives or not and whatever the other
  routers do. -/
  | reach (i : ℕ)
  /-- The end of `_process`, with the error of the routers if there was one. -/
  | finish (i : ℕ) (error : Option String) (now : ℤ)
  | retry (i : ℕ) (now : ℤ)
  | cancel (i : ℕ)
  | markDoneMany (ids : List ℕ) (now : ℤ)
  | markStaleResolved (tenant : Option ℕ) (now : ℤ)

def World.claim (w : World) (i : ℕ) : World :=
  match w.rows[i]? with
  | some r =>
    if r.waiting then
      { w with
        rows := w.rows.set i { r with status := .syncing }
        running := (i, r.job) :: w.running
        claims := Function.update w.claims i (w.claims i + 1) }
    else w
  | none => w

def World.reach (w : World) (i : ℕ) : World :=
  match w.running.find? (·.1 = i) with
  | some (_, job) =>
    { w with
      routers := Function.update w.routers job.tenant
        (execute (w.routers job.tenant) job.body) }
  | none => w

def World.finish (w : World) (i : ℕ) (error : Option String) (now : ℤ) : World :=
  match w.running.find? (·.1 = i) with
  | some (_, job) =>
    let w' := { w with running := w.running.filter (·.1 ≠ i) }
    match error with
    | none =>
      { w' with
        rows := w.rows.modify i fun r => r.markDone now
        routers := Function.update w.routers job.tenant
          (execute (w.routers job.tenant) job.body) }
    | some error => { w' with rows := w.rows.modify i fun r => r.markFailed error now }
  | none => w

def step (w : World) : Event → World
  | .enqueue job now =>
    { w with rows := enqueue w.rows job now, asked := w.asked ++ [job] }
  | .enqueueMany jobs now =>
    { w with rows := enqueueMany w.rows jobs now, asked := w.asked ++ jobs }
  | .claim i => w.claim i
  | .reach i => w.reach i
  | .finish i error now => w.finish i error now
  | .retry i now => { w with rows := w.rows.modify i fun r => r.retry now }
  | .cancel i => { w with rows := w.rows.modify i Row.cancel }
  | .markDoneMany ids now => { w with rows := markDoneMany w.rows ids now }
  | .markStaleResolved tenant now => { w with rows := markStaleResolved w.rows tenant now }

structure Apart (r r' : Row) : Prop where
  held : r.status = .syncing → r' = r
  kept : r'.status = .syncing → r' = r
  waiting : r'.waiting = true → r.waiting = true ∧ r'.attempts = r.attempts
  opened : r'.isOpen = true → r.isOpen = true ∧ r'.job.tenant = r.job.tenant
  closed : r.isOpen = false → r'.isOpen = false ∧ r'.job = r.job

theorem Apart.refl (r : Row) : Apart r r :=
  ⟨fun _ => rfl, fun _ => rfl, fun h => ⟨h, rfl⟩, fun h => ⟨h, rfl⟩, fun h => ⟨h, rfl⟩⟩

theorem apart_of_closed {r r' : Row} (hr : r.status ≠ .syncing) (hr' : r'.isOpen = false)
    (hjob : r'.job = r.job) : Apart r r' := by
  obtain ⟨hwaiting, hsyncing⟩ := Bool.or_eq_false_iff.mp hr'
  refine ⟨fun h => absurd h hr, fun h => ?_, fun h => ?_, fun h => ?_, fun _ => ⟨hr', hjob⟩⟩
  · exact absurd h (of_decide_eq_false hsyncing)
  · exact absurd (hwaiting.symm.trans h) (by decide)
  · exact absurd (hr'.symm.trans h) (by decide)

theorem syncing_ne_of_waiting {r : Row} (h : r.waiting = true) : r.status ≠ .syncing := by
  intro hsync
  rw [Row.waiting, hsync] at h
  cases h

theorem isOpen_of_waiting {r : Row} (h : r.waiting = true) : r.isOpen = true := by
  rw [Row.isOpen, h, Bool.true_or]

theorem retry_apart {r : Row} (h : r.waiting = true) (now : ℤ) : Apart r (r.retry now) := by
  refine ⟨fun hsync => absurd hsync (syncing_ne_of_waiting h), fun hsync => ?_, fun _ => ⟨h, rfl⟩,
    fun _ => ⟨isOpen_of_waiting h, rfl⟩, fun hclosed => ?_⟩
  · cases hsync
  · rw [isOpen_of_waiting h] at hclosed
    cases hclosed

theorem cancel_apart (r : Row) : Apart r r.cancel := by
  unfold Row.cancel
  split_ifs with hwait
  · exact apart_of_closed (syncing_ne_of_waiting hwait) rfl rfl
  · exact .refl r

theorem forall₂_modify {R : Row → Row → Prop} (hrefl : ∀ r, R r r) {rows : List Row} {i : ℕ}
    {f : Row → Row} (h : ∀ r, rows[i]? = some r → R r (f r)) : rows.Forall₂ R (rows.modify i f) := by
  refine List.forall₂_iff_get.mpr ⟨by rw [List.length_modify], fun j hj hj' => ?_⟩
  simp only [List.get_eq_getElem, List.getElem_modify]
  split_ifs with hij
  · subst hij
    exact h _ (List.getElem?_eq_getElem hj)
  · exact hrefl _

structure Steady (r r' : Row) : Prop extends Apart r r' where
  next : r'.waiting = true → r'.nextAttempt = r.nextAttempt

theorem Steady.refl (r : Row) : Steady r r := ⟨.refl r, fun _ => rfl⟩

theorem enqueue_steady (rows : List Row) (job : Job) (now : ℤ) :
    ∃ rows' new, enqueue rows job now = rows' ++ new ∧ rows.Forall₂ Steady rows' ∧
      ∀ r ∈ new, r = job.row now := by
  rcases enqueue_cases rows job now with h | ⟨before, prev, between, hrows, habsorbs, -, h⟩
  · exact ⟨rows, [job.row now], h, List.forall₂_same.mpr fun r _ => .refl r,
      fun r hr => List.mem_singleton.mp hr⟩
  · refine ⟨_, [], h.trans (List.append_nil _).symm, ?_, by simp⟩
    rw [hrows]
    have hqueued := (absorbs_spec habsorbs).2.2.2
    have hprev : Apart prev { prev with job := job } := by
      refine ⟨fun h => ?_, fun h => ?_, fun h => ⟨h, rfl⟩, fun h => ⟨h, ?_⟩, fun h => ?_⟩
      · exact absurd (hqueued.symm.trans h) (by decide)
      · exact absurd (hqueued.symm.trans h) (by decide)
      · exact (absorbs_spec habsorbs).1.symm
      · rw [Row.isOpen, Row.waiting, hqueued] at h
        cases h
    exact List.rel_append (List.forall₂_same.mpr fun r _ => .refl r)
      (.cons ⟨hprev, fun _ => rfl⟩ (List.forall₂_same.mpr fun r _ => .refl r))

theorem markDoneMany_steady (rows : List Row) (ids : List ℕ) (now : ℤ) :
    rows.Forall₂ Steady (markDoneMany rows ids now) := by
  refine List.forall₂_iff_get.mpr ⟨List.length_mapIdx.symm, fun i h h' => ?_⟩
  simp only [markDoneMany, List.get_eq_getElem, List.getElem_mapIdx]
  split_ifs with hclose
  · exact ⟨apart_of_closed (syncing_ne_of_waiting hclose.2) rfl rfl, fun h => by cases h⟩
  · exact .refl _

theorem markStaleResolved_apart (rows : List Row) (tenant : Option ℕ) (now : ℤ) :
    rows.Forall₂ Apart (markStaleResolved rows tenant now) := by
  refine List.forall₂_map_right_iff.mpr (List.forall₂_same.mpr fun r _ => ?_)
  split_ifs with hstale
  · refine apart_of_closed (fun h => ?_) rfl rfl
    rw [h] at hstale
    rcases hstale.1 with h | h <;> cases h
  · exact .refl _

structure Row.Within (r : Row) (n : ℕ) : Prop where
  six : n ≤ 6
  waiting : r.waiting = true → n = r.attempts ∧ r.attempts ≤ 5
  syncing : r.status = .syncing → n = r.attempts + 1 ∧ r.attempts ≤ 5

structure Sound (w : World) : Prop where
  alone : (w.running.map Prod.fst).Nodup
  held : ∀ i job, (i, job) ∈ w.running →
    ∃ r, w.rows[i]? = some r ∧ r.status = .syncing ∧ r.job = job
  syncing : ∀ (i : ℕ) (r : Row), w.rows[i]? = some r → r.status = .syncing →
    i ∈ w.running.map Prod.fst
  within : ∀ (i : ℕ) (r : Row), w.rows[i]? = some r → r.Within (w.claims i)
  fresh : ∀ i, w.rows.length ≤ i → w.claims i = 0

theorem row_lookup {R : Row → Row → Prop} {old rows new : List Row} (hrows : old.Forall₂ R rows)
    {i : ℕ} {r : Row} (hr : (rows ++ new)[i]? = some r) :
    (∃ r', old[i]? = some r' ∧ R r' r) ∨ old.length ≤ i ∧ r ∈ new := by
  obtain ⟨hlength, hget⟩ := List.forall₂_iff_get.mp hrows
  by_cases hlt' : i < rows.length
  · rw [List.getElem?_append_left hlt', List.getElem?_eq_getElem hlt', Option.some.injEq] at hr
    have hlt : i < old.length := hlength ▸ hlt'
    have hrow : R old[i] rows[i] := hget i hlt hlt'
    exact .inl ⟨old[i], List.getElem?_eq_getElem hlt, hr ▸ hrow⟩
  · have hle := Nat.le_of_not_lt hlt'
    rw [List.getElem?_append_right hle] at hr
    exact .inr ⟨hlength ▸ hle, List.mem_of_getElem? hr⟩

theorem Sound.apart {w w' : World} (h : Sound w) {rows new : List Row}
    (hrows : w'.rows = rows ++ new) (hapart : w.rows.Forall₂ Apart rows)
    (hnew : ∀ r ∈ new, r.status = .queued ∧ r.attempts = 0)
    (hrunning : w'.running = w.running) (hclaims : w'.claims = w.claims) : Sound w' := by
  obtain ⟨hlength, hget⟩ := List.forall₂_iff_get.mp hapart
  refine ⟨hrunning ▸ h.alone, fun i job hi => ?_, fun i r hr hsync => ?_, fun i r hr => ?_,
    fun i hi => ?_⟩
  · obtain ⟨r, hr, hstatus, hjob⟩ := h.held i job (hrunning ▸ hi)
    obtain ⟨hlt, rfl⟩ := List.getElem?_eq_some_iff.mp hr
    have hlt' : i < rows.length := hlength ▸ hlt
    have hsame : rows[i] = w.rows[i] := (hget i hlt hlt').held hstatus
    refine ⟨w.rows[i], ?_, hstatus, hjob⟩
    rw [hrows, List.getElem?_append_left hlt', List.getElem?_eq_getElem hlt', hsame]
  · rcases row_lookup hapart (hrows ▸ hr) with ⟨old, hold, happ⟩ | ⟨-, hr⟩
    · exact hrunning ▸ h.syncing i old hold (happ.kept hsync ▸ hsync)
    · rw [(hnew r hr).1] at hsync
      cases hsync
  · rw [hclaims]
    rcases row_lookup hapart (hrows ▸ hr) with ⟨old, hold, happ⟩ | ⟨hle, hr⟩
    · have hwithin := h.within i old hold
      refine ⟨hwithin.six, fun hwait => ?_, fun hsync => ?_⟩
      · obtain ⟨hwait, hattempts⟩ := happ.waiting hwait
        exact hattempts ▸ hwithin.waiting hwait
      · exact (happ.kept hsync).symm ▸ hwithin.syncing ((happ.kept hsync) ▸ hsync)
    · -- a new row was never claimed
      obtain ⟨hstatus, hattempts⟩ := hnew r hr
      have hnone := h.fresh i hle
      refine ⟨hnone ▸ Nat.zero_le 6, fun _ => by omega, fun hsync => ?_⟩
      rw [hstatus] at hsync
      cases hsync
  · rw [hclaims]
    refine h.fresh i (hlength ▸ Nat.le_trans ?_ hi)
    rw [hrows, List.length_append]
    exact Nat.le_add_right _ _

theorem sound_claim {w : World} (h : Sound w) (i : ℕ) : Sound (w.claim i) := by
  unfold World.claim
  split
  · rename_i r hr
    split_ifs with hwait
    · have hlt := (List.getElem?_eq_some_iff.mp hr).1
      obtain ⟨hclaims, hfive⟩ := (h.within i r hr).waiting hwait
      have hfree : ∀ job, (i, job) ∉ w.running := fun job hi => by
        obtain ⟨r', hr', hstatus, -⟩ := h.held i job hi
        cases hr.symm.trans hr'
        rw [Row.waiting, hstatus] at hwait
        cases hwait
      refine ⟨?_, fun j job hj => ?_, fun j r' hr' hsync => ?_, fun j r' hr' => ?_, fun j hj => ?_⟩
      · refine List.nodup_cons.mpr ⟨fun hi => ?_, h.alone⟩
        obtain ⟨⟨j, job⟩, hj, hji⟩ := List.mem_map.mp hi
        exact hfree job ((show j = i from hji) ▸ hj)
      · rcases List.mem_cons.mp hj with hj | hj
        · cases hj
          exact ⟨{ r with status := .syncing }, List.getElem?_set_self hlt, rfl, rfl⟩
        · have hne : i ≠ j := fun he => hfree job (he ▸ hj)
          rw [List.getElem?_set_ne hne]
          exact h.held j job hj
      · by_cases hne : i = j
        · exact hne ▸ List.mem_cons_self
        · rw [List.getElem?_set_ne hne] at hr'
          exact List.mem_cons_of_mem _ (h.syncing j r' hr' hsync)
      · by_cases hne : i = j
        · subst hne
          rw [List.getElem?_set_self hlt, Option.some.injEq] at hr'
          subst hr'
          dsimp only
          rw [Function.update_self]
          exact ⟨by omega, nofun, fun _ => ⟨by rw [hclaims], hfive⟩⟩
        · rw [List.getElem?_set_ne hne] at hr'
          dsimp only
          rw [Function.update_of_ne (Ne.symm hne)]
          exact h.within j r' hr'
      · dsimp only at hj ⊢
        rw [List.length_set] at hj
        rw [Function.update_of_ne (by omega)]
        exact h.fresh j hj
    · exact h
  · exact h

theorem Sound.closed {w w' : World} (h : Sound w) {i : ℕ} {job : Job} {f : Row → Row}
    (hi : (i, job) ∈ w.running) (hrows : w'.rows = w.rows.modify i f)
    (hrunning : w'.running = w.running.filter (·.1 ≠ i)) (hclaims : w'.claims = w.claims)
    (hf : ∀ r : Row, r.status = .syncing → r.Within (w.claims i) →
      (f r).status ≠ .syncing ∧ (f r).Within (w.claims i)) : Sound w' := by
  obtain ⟨r, hr, hstatus, -⟩ := h.held i job hi
  have hself : (w.rows.modify i f)[i]? = some (f r) := by
    rw [List.getElem?_modify_eq, hr]
    rfl
  have hother : ∀ j, i ≠ j → (w.rows.modify i f)[j]? = w.rows[j]? :=
    fun j hne => List.getElem?_modify_ne f w.rows hne
  refine ⟨?_, fun j job' hj => ?_, fun j r' hr' hsync => ?_, fun j r' hr' => ?_, fun j hj => ?_⟩
  · rw [hrunning]
    exact h.alone.sublist (List.filter_sublist.map _)
  · rw [hrunning] at hj
    obtain ⟨hj, hne⟩ := List.mem_filter.mp hj
    rw [hrows, hother j fun he => of_decide_eq_true hne he.symm]
    exact h.held j job' hj
  · rw [hrows] at hr'
    by_cases hne : i = j
    · subst hne
      rw [hself, Option.some.injEq] at hr'
      exact absurd (hr' ▸ hsync) (hf r hstatus (h.within i r hr)).1
    · rw [hother j hne] at hr'
      obtain ⟨c, hc, rfl⟩ := List.mem_map.mp (h.syncing j r' hr' hsync)
      rw [hrunning]
      exact List.mem_map_of_mem (List.mem_filter.mpr ⟨hc, decide_eq_true (Ne.symm hne)⟩)
  · rw [hrows] at hr'
    rw [hclaims]
    by_cases hne : i = j
    · subst hne
      rw [hself, Option.some.injEq] at hr'
      exact hr' ▸ (hf r hstatus (h.within i r hr)).2
    · rw [hother j hne] at hr'
      exact h.within j r' hr'
  · rw [hrows, List.length_modify] at hj
    rw [hclaims]
    exact h.fresh j hj

theorem markFailed_within {r : Row} {n : ℕ} (hsync : r.status = .syncing) (h : r.Within n)
    (error : String) (now : ℤ) :
    (r.markFailed error now).status ≠ .syncing ∧ (r.markFailed error now).Within n := by
  obtain ⟨hn, hfive⟩ := h.syncing hsync
  unfold Row.markFailed
  dsimp only
  split_ifs with hsix
  · exact ⟨nofun, h.six, nofun, nofun⟩
  · exact ⟨nofun, h.six, fun _ => ⟨hn, Nat.le_of_lt_succ (Nat.lt_of_not_le hsix)⟩, nofun⟩

theorem sound_finish {w : World} (h : Sound w) (i : ℕ) (error : Option String) (now : ℤ) :
    Sound (w.finish i error now) := by
  unfold World.finish
  split
  · rename_i j job hfind
    have hi : j = i := by simpa using List.find?_some hfind
    subst hi
    have hmem := List.mem_of_find?_eq_some hfind
    cases error with
    | none =>
      exact h.closed hmem rfl rfl rfl fun r _ hwithin => ⟨nofun, hwithin.six, nofun, nofun⟩
    | some error =>
      exact h.closed hmem rfl rfl rfl fun r hsync hwithin => markFailed_within hsync hwithin error now
  · exact h

def Waits (w : World) : Event → Prop
  | .retry i _ => ∀ r, w.rows[i]? = some r → r.waiting = true
  | _ => True

theorem sound_reach {w : World} (h : Sound w) (i : ℕ) : Sound (w.reach i) := by
  unfold World.reach
  split
  · exact ⟨h.alone, h.held, h.syncing, h.within, h.fresh⟩
  · exact h

theorem sound_step {w : World} (h : Sound w) {e : Event} (he : Waits w e) : Sound (step w e) := by
  cases e with
  | enqueue job now =>
    obtain ⟨rows, new, hrows, hsteady, hnew⟩ := enqueue_steady w.rows job now
    refine h.apart hrows (hsteady.imp fun _ _ h => h.toApart) (fun r hr => ?_) rfl rfl
    rw [hnew r hr]
    exact ⟨rfl, rfl⟩
  | enqueueMany jobs now =>
    refine h.apart rfl (List.forall₂_same.mpr fun r _ => .refl r) (fun r hr => ?_) rfl rfl
    obtain ⟨job, -, rfl⟩ := List.mem_map.mp hr
    exact ⟨rfl, rfl⟩
  | claim i => exact sound_claim h i
  | reach i => exact sound_reach h i
  | finish i error now => exact sound_finish h i error now
  | retry i now =>
    exact h.apart (List.append_nil _).symm
      (forall₂_modify .refl fun r hr => retry_apart (he r hr) now) (by simp) rfl rfl
  | cancel i =>
    exact h.apart (List.append_nil _).symm (forall₂_modify .refl fun r _ => cancel_apart r) (by simp)
      rfl rfl
  | markDoneMany ids now =>
    exact h.apart (List.append_nil _).symm
      ((markDoneMany_steady _ ids now).imp fun _ _ h => h.toApart) (by simp) rfl rfl
  | markStaleResolved tenant now =>
    exact h.apart (List.append_nil _).symm (markStaleResolved_apart _ tenant now) (by simp) rfl rfl

theorem sound_empty (routers : ℕ → Router) : Sound { routers } where
  alone := List.nodup_nil
  held _ _ h := absurd h List.not_mem_nil
  syncing _ _ h := absurd h (by rw [List.getElem?_nil]; exact Option.some_ne_none _ ∘ Eq.symm)
  within _ _ h := absurd h (by rw [List.getElem?_nil]; exact Option.some_ne_none _ ∘ Eq.symm)
  fresh _ _ := rfl

theorem sound_run (routers : ℕ → Router) {events : List Event}
    (hwaits : Run.Along Waits step { routers } events) : Sound (Run.run step { routers } events) :=
  Run.run_invariant (I := Sound) (fun _ _ h he => sound_step h he) (sound_empty routers) hwaits

def Closed (i : ℕ) (job : Job) (n : ℕ) (w : World) : Prop :=
  w.claims i = n ∧ ∃ r, w.rows[i]? = some r ∧ r.isOpen = false ∧ r.job = job

theorem Closed.apart {i : ℕ} {job : Job} {n : ℕ} {w w' : World} (h : Closed i job n w)
    {rows new : List Row} (hrows : w'.rows = rows ++ new) (hapart : w.rows.Forall₂ Apart rows)
    (hclaims : w'.claims = w.claims) : Closed i job n w' := by
  obtain ⟨hlength, hget⟩ := List.forall₂_iff_get.mp hapart
  obtain ⟨hn, r, hr, hclosed, hjob⟩ := h
  obtain ⟨hlt, rfl⟩ := List.getElem?_eq_some_iff.mp hr
  have hlt' : i < rows.length := hlength ▸ hlt
  obtain ⟨hclosed', hjob'⟩ := (hget i hlt hlt').closed hclosed
  refine ⟨hclaims ▸ hn, rows[i], ?_, hclosed', hjob'.trans hjob⟩
  rw [hrows, List.getElem?_append_left hlt', List.getElem?_eq_getElem hlt']

theorem closed_step {i : ℕ} {job : Job} {n : ℕ} {w : World} (hsound : Sound w)
    (h : Closed i job n w) {e : Event} (he : Waits w e) : Closed i job n (step w e) := by
  cases e with
  | enqueue job' now =>
    obtain ⟨rows, new, hrows, hsteady, -⟩ := enqueue_steady w.rows job' now
    exact h.apart hrows (hsteady.imp fun _ _ h => h.toApart) rfl
  | enqueueMany jobs now =>
    exact h.apart rfl (List.forall₂_same.mpr fun r _ => .refl r) rfl
  | claim j =>
    obtain ⟨hn, r, hr, hclosed, hjob⟩ := h
    rw [step, World.claim]
    split
    · rename_i r' hr'
      split_ifs with hwait
      · have hne : j ≠ i := fun he => by
          cases (he ▸ hr').symm.trans hr
          rw [Row.isOpen, hwait] at hclosed
          cases hclosed
        refine ⟨?_, r, ?_, hclosed, hjob⟩
        · dsimp only
          rw [Function.update_of_ne (Ne.symm hne), hn]
        · dsimp only
          rw [List.getElem?_set_ne hne, hr]
      · exact ⟨hn, r, hr, hclosed, hjob⟩
    · exact ⟨hn, r, hr, hclosed, hjob⟩
  | reach j =>
    rw [step, World.reach]
    split <;> exact h
  | retry j now =>
    exact h.apart (List.append_nil _).symm
      (forall₂_modify .refl fun r hr => retry_apart (he r hr) now) rfl
  | cancel j =>
    exact h.apart (List.append_nil _).symm (forall₂_modify .refl fun r _ => cancel_apart r) rfl
  | finish j error now =>
    obtain ⟨hn, r, hr, hclosed, hjob⟩ := h
    rw [step, World.finish]
    split
    · rename_i k job' hfind
      have hk : k = j := by simpa using List.find?_some hfind
      subst hk
      obtain ⟨r', hr', hsync, -⟩ := hsound.held k job' (List.mem_of_find?_eq_some hfind)
      have hne : k ≠ i := fun he => by
        cases (he ▸ hr').symm.trans hr
        rw [Row.isOpen, hsync] at hclosed
        simp at hclosed
      cases error with
      | none => exact ⟨hn, r, (List.getElem?_modify_ne _ _ hne).trans hr, hclosed, hjob⟩
      | some error => exact ⟨hn, r, (List.getElem?_modify_ne _ _ hne).trans hr, hclosed, hjob⟩
    · exact ⟨hn, r, hr, hclosed, hjob⟩
  | markDoneMany ids now =>
    exact h.apart (List.append_nil _).symm
      ((markDoneMany_steady _ ids now).imp fun _ _ h => h.toApart) rfl
  | markStaleResolved tenant now =>
    exact h.apart (List.append_nil _).symm (markStaleResolved_apart _ tenant now) rfl

/-- However many workers there are and however their steps mix, no job is in two hands, the one that
holds it has what its row says, none is carried out more than six times, and a job that was closed
stays closed, as long as an operator puts back only jobs that wait. -/
theorem claims_exclusive (routers : ℕ → Router) (events more : List Event) (i : ℕ)
    (hwaits : Run.Along Waits step { routers } (events ++ more)) :
    let w := Run.run step { routers } events
    let w' := Run.run step w more
    w.claims i ≤ 6 ∧ (w.running.map Prod.fst).Nodup ∧
      (∀ job, (i, job) ∈ w.running →
        ∃ r, w.rows[i]? = some r ∧ r.status = .syncing ∧ r.job = job) ∧
      ∀ r, w.rows[i]? = some r → r.isOpen = false → Closed i r.job (w.claims i) w' := by
  intro w w'
  obtain ⟨hevents, hmore⟩ := Run.along_append.mp hwaits
  have hsound := sound_run routers hevents
  refine ⟨?_, hsound.alone, hsound.held i, fun r hr hclosed => ?_⟩
  · by_cases hlt : i < w.rows.length
    · exact (hsound.within i w.rows[i] (List.getElem?_eq_getElem hlt)).six
    · exact (hsound.fresh i (Nat.le_of_not_lt hlt)) ▸ Nat.zero_le 6
  · exact (Run.run_invariant (I := fun w => Sound w ∧ Closed i r.job _ w)
      (fun _ _ h he => ⟨sound_step h.1 he, closed_step h.1 h.2 he⟩)
      ⟨hsound, rfl, r, hr, hclosed, rfl⟩ hmore).2

def upsert (password : String) : Job :=
  ⟨1, none, .subscriberUpsert { username := "u", password, status := "enabled" }⟩

def retried : List Event :=
  [.enqueue (upsert "a") 0, .claim 0, .finish 0 (some "timeout") 1, .retry 0 2, .claim 0,
    .finish 0 none 3]

theorem claims_exclusive_retried :
    let w := Run.run step { routers := fun _ => ⟨fun _ => none, []⟩ } retried
    Closed 0 (upsert "a") 2 (Run.run step w [.claim 0]) :=
  (claims_exclusive (fun _ => ⟨fun _ => none, []⟩) retried [.claim 0] 0
    ⟨trivial, trivial, trivial, fun r hr => by cases hr; rfl, trivial, trivial, trivial,
      trivial⟩).2.2.2 _ rfl rfl

def Row.of (r : Row) (tenant : ℕ) : Bool := r.isOpen && r.job.tenant = tenant

def openJobs (tenant : ℕ) (rows : List Row) : List Body :=
  (rows.filter fun r => r.of tenant).map fun r => r.job.body

def askedJobs (tenant : ℕ) (asked : List Job) : List Body :=
  (asked.filter fun job => job.tenant = tenant).map Job.body

/-- The settled attributes that the open jobs would lead to are those of all jobs in the order in
which they were asked for. -/
def Settled (tenant : ℕ) (c : Menus) (w : World) : Prop :=
  (openJobs tenant w.rows).foldl act (core (w.routers tenant).menus) =
    (askedJobs tenant w.asked).foldl act c

def First (tenant : ℕ) (w : World) (i : ℕ) : Prop :=
  ∀ before r after, w.rows = before ++ r :: after → before.length = i → r.job.tenant = tenant →
    ∀ r' ∈ before, r'.of tenant = true → r'.job.body.place ≠ r.job.body.place

/-- No job overtakes an open one for the same item, none of the tenant's is given up, and an operator
puts back only jobs that wait. -/
def InOrder (tenant : ℕ) (w : World) : Event → Prop
  | .reach i => First tenant w i
  | .finish i none _ => First tenant w i
  | .finish i (some _) _ => ∀ r, w.rows[i]? = some r → r.job.tenant = tenant → r.attempts < 5
  | .retry i now => Waits w (.retry i now)
  | .cancel i => ∀ r, w.rows[i]? = some r → r.job.tenant ≠ tenant
  | .markDoneMany ids _ => ∀ i ∈ ids, ∀ r, w.rows[i]? = some r → r.job.tenant ≠ tenant
  | .markStaleResolved t _ => ∃ t' ∈ t, t' ≠ tenant
  | _ => True

variable {tenant : ℕ}

theorem InOrder.waits {w : World} {e : Event} (h : InOrder tenant w e) : Waits w e := by
  cases e with
  | retry i now => exact h
  | _ => trivial

theorem openJobs_append (rows rows' : List Row) :
    openJobs tenant (rows ++ rows') = openJobs tenant rows ++ openJobs tenant rows' := by
  rw [openJobs, List.filter_append, List.map_append]
  rfl

theorem openJobs_cons (r : Row) (rows : List Row) : openJobs tenant (r :: rows) =
    (if r.of tenant then [r.job.body] else []) ++ openJobs tenant rows := by
  rw [← List.singleton_append, openJobs_append]
  cases h : r.of tenant <;> simp [openJobs, h]

def Same (tenant : ℕ) (r r' : Row) : Prop :=
  r'.of tenant = r.of tenant ∧ (r.of tenant = true → r'.job.body = r.job.body)

theorem Same.refl (r : Row) : Same tenant r r := ⟨rfl, fun _ => rfl⟩

theorem Same.of_tenant_ne {r r' : Row} (h : r.job.tenant ≠ tenant) (h' : r'.job.tenant ≠ tenant) :
    Same tenant r r' := by
  have hr : r.of tenant = false := by simp [Row.of, h]
  have hr' : r'.of tenant = false := by simp [Row.of, h']
  exact ⟨hr'.trans hr.symm, fun hopen => absurd (hr.symm.trans hopen) (by decide)⟩

theorem openJobs_congr {rows rows' : List Row} (h : rows.Forall₂ (Same tenant) rows') :
    openJobs tenant rows' = openJobs tenant rows := by
  induction h with
  | nil => rfl
  | cons hsame _ ih =>
    rw [openJobs_cons, openJobs_cons, ih, hsame.1]
    split_ifs with hopen
    · rw [hsame.2 hopen]
    · rfl

theorem openJobs_set {rows : List Row} {i : ℕ} {r r' : Row} (hr : rows[i]? = some r)
    (hsame : Same tenant r r') : openJobs tenant (rows.set i r') = openJobs tenant rows := by
  obtain ⟨before, after, hrows, -, hset⟩ := Calls.exists_split hr
  rw [hset, hrows, openJobs_append, openJobs_append, openJobs_cons, openJobs_cons, hsame.1]
  split_ifs with hopen
  · rw [hsame.2 hopen]
  · rfl

theorem modify_eq_set {rows : List Row} {i : ℕ} {r : Row} (hr : rows[i]? = some r) (f : Row → Row) :
    rows.modify i f = rows.set i (f r) := by
  obtain ⟨hlt, rfl⟩ := List.getElem?_eq_some_iff.mp hr
  rw [List.modify_eq_take_cons_drop hlt, List.set_eq_take_append_cons_drop, if_pos hlt]

theorem openJobs_map_row (jobs : List Job) (now : ℤ) :
    openJobs tenant (jobs.map fun job => job.row now) = askedJobs tenant jobs := by
  rw [openJobs, List.filter_map, List.map_map]
  rfl

theorem askedJobs_append (jobs jobs' : List Job) :
    askedJobs tenant (jobs ++ jobs') = askedJobs tenant jobs ++ askedJobs tenant jobs' := by
  rw [askedJobs, List.filter_append, List.map_append]
  rfl

theorem Settled.append {c : Menus} {w : World} (h : Settled tenant c w) (jobs : List Job)
    (now : ℤ) :
    Settled tenant c
      { w with rows := w.rows ++ jobs.map fun job => job.row now, asked := w.asked ++ jobs } := by
  rw [Settled, openJobs_append, openJobs_map_row, askedJobs_append, List.foldl_append,
    List.foldl_append]
  exact congrArg (fun c => (askedJobs tenant jobs).foldl act c) h

theorem place_ne_of_blocked {job : Job} {r : Row} (h : job.blocked r = false)
    (hopen : r.of job.tenant = true) : r.job.body.place ≠ job.body.place := by
  intro hplace
  obtain ⟨hfamily, hkey⟩ := Prod.mk.inj hplace
  rw [Row.of, Bool.and_eq_true, decide_eq_true_eq] at hopen
  simp [Job.blocked, hopen.1, hopen.2, hfamily, hkey] at h

theorem mem_openJobs {rows : List Row} {b : Body} :
    b ∈ openJobs tenant rows ↔ ∃ r ∈ rows, r.of tenant = true ∧ r.job.body = b := by
  simp only [openJobs, List.mem_map, List.mem_filter, and_assoc]

theorem settled_enqueue {c : Menus} {w : World} (h : Settled tenant c w) (job : Job) (now : ℤ) :
    Settled tenant c (step w (.enqueue job now)) := by
  rcases enqueue_cases w.rows job now with hrows |
    ⟨before, prev, between, hold, habsorbs, hbetween, hrows⟩
  · rw [step, hrows]
    exact h.append [job] now
  · obtain ⟨htenant, hkind, hkey, hqueued⟩ := absorbs_spec habsorbs
    by_cases hjob : job.tenant = tenant
    · -- Between the replaced job and the end are only open jobs for other items.
      have hasked : askedJobs tenant [job] = [job.body] := by simp [askedJobs, hjob]
      have hof : ∀ job' : Job, job'.tenant = tenant → { prev with job := job' }.of tenant = true := by
        intro job' hjob'
        simp [Row.of, Row.isOpen, Row.waiting, hqueued, hjob']
      have hprev : prev.of tenant = true := hof prev.job (htenant.trans hjob)
      have hswaps : ∀ a ∈ openJobs tenant between, Coalesce.Swaps act a job.body := fun a ha => by
        obtain ⟨r, hr, hopen, rfl⟩ := mem_openJobs.mp ha
        exact swaps_of_place_ne (place_ne_of_blocked (hbetween r hr) (hjob ▸ hopen))
      have hlast : (askedJobs tenant w.asked ++ [job.body]).foldl act c =
          act ((askedJobs tenant w.asked).foldl act c) job.body := List.foldl_concat _ _ _ _
      rw [Settled, hold, openJobs_append, openJobs_cons, if_pos hprev] at h
      rw [Settled, step, hrows, openJobs_append, openJobs_cons, if_pos (hof job hjob),
        askedJobs_append, hasked, hlast, ← h]
      exact Coalesce.foldl_replace (absorbs_of_kind_eq hkind hkey) hswaps _
    · have hasked : askedJobs tenant [job] = [] := by simp [askedJobs, hjob]
      have hsame : Same tenant prev { prev with job := job } :=
        .of_tenant_ne (fun h => hjob (htenant.symm.trans h)) hjob
      have hopen : openJobs tenant (before ++ { prev with job := job } :: between) =
          openJobs tenant (before ++ prev :: between) :=
        openJobs_congr (List.rel_append (List.forall₂_same.mpr fun r _ => .refl r)
          (.cons hsame (List.forall₂_same.mpr fun r _ => .refl r)))
      rw [Settled, step, hrows, askedJobs_append, hasked, List.append_nil, hopen, ← hold]
      exact h

theorem settled_claim {c : Menus} {w : World} (h : Settled tenant c w) (i : ℕ) :
    Settled tenant c (w.claim i) := by
  unfold World.claim
  split
  · rename_i r hr
    split_ifs with hwait
    · have hsame : Same tenant r { r with status := .syncing } :=
        ⟨by simp [Row.of, Row.isOpen, hwait], fun _ => rfl⟩
      rw [Settled, openJobs_set hr hsame]
      exact h
    · exact h
  · exact h

theorem openJobs_first {w : World} {i : ℕ} {r : Row} (hr : w.rows[i]? = some r)
    (hopen : r.of tenant = true) (htenant : r.job.tenant = tenant) (hfirst : First tenant w i) :
    ∃ before after, w.rows = before ++ r :: after ∧ (∀ r', w.rows.set i r' = before ++ r' :: after) ∧
      ∀ c, (openJobs tenant w.rows).foldl act c =
        (openJobs tenant before ++ openJobs tenant after).foldl act (act c r.job.body) := by
  obtain ⟨before, after, hrows, hlength, hset⟩ := Calls.exists_split hr
  have hswaps : ∀ a ∈ openJobs tenant before, Coalesce.Swaps act a r.job.body := fun a ha => by
    obtain ⟨r', hr', hopen', rfl⟩ := mem_openJobs.mp ha
    exact swaps_of_place_ne (hfirst before r after hrows hlength htenant r' hr' hopen')
  refine ⟨before, after, hrows, hset, fun c => ?_⟩
  rw [hrows, openJobs_append, openJobs_cons, if_pos hopen, List.singleton_append,
    Coalesce.foldl_first hswaps]

theorem settled_reach {c : Menus} {w : World} (hsound : Sound w) (h : Settled tenant c w) (i : ℕ)
    (hfirst : First tenant w i) : Settled tenant c (w.reach i) := by
  unfold World.reach
  split
  · rename_i j job hfind
    have hj : j = i := by simpa using List.find?_some hfind
    subst hj
    obtain ⟨r, hr, hsync, hjob⟩ := hsound.held j job (List.mem_of_find?_eq_some hfind)
    subst hjob
    by_cases htenant : r.job.tenant = tenant
    · have hopen : r.of tenant = true := by simp [Row.of, Row.isOpen, hsync, htenant]
      obtain ⟨before, after, -, -, hfold⟩ := openJobs_first hr hopen htenant hfirst
      rw [Settled, hfold] at h ⊢
      dsimp only
      rw [htenant, Function.update_self, core_execute, absorbs_of_kind_eq rfl rfl]
      exact h
    · rw [Settled] at h ⊢
      dsimp only
      rw [Function.update_of_ne (Ne.symm htenant)]
      exact h
  · exact h

theorem settled_finish {c : Menus} {w : World} (hsound : Sound w) (h : Settled tenant c w) (i : ℕ)
    (error : Option String) (now : ℤ) (horder : InOrder tenant w (.finish i error now)) :
    Settled tenant c (w.finish i error now) := by
  unfold World.finish
  split
  · rename_i j job hfind
    have hj : j = i := by simpa using List.find?_some hfind
    subst hj
    obtain ⟨r, hr, hsync, hjob⟩ := hsound.held j job (List.mem_of_find?_eq_some hfind)
    cases error with
    | none =>
      by_cases htenant : job.tenant = tenant
      · have hopen : r.of tenant = true := by
          simp [Row.of, Row.isOpen, hsync, hjob, htenant]
        have hclosed : (r.markDone now).of tenant = false := by
          simp [Row.of, Row.isOpen, Row.waiting, Row.markDone]
        obtain ⟨before, after, -, hset, hfold⟩ :=
          openJobs_first hr hopen (hjob ▸ htenant) horder
        rw [Settled, hfold, hjob] at h
        dsimp only
        rw [Settled, modify_eq_set hr, hset, openJobs_append, openJobs_cons, hclosed, htenant]
        dsimp only
        rw [Function.update_self, core_execute]
        exact h
      · have hsame : Same tenant r (r.markDone now) :=
          .of_tenant_ne (hjob ▸ htenant) (hjob ▸ htenant)
        dsimp only
        rw [Settled, modify_eq_set hr, openJobs_set hr hsame]
        dsimp only
        rw [Function.update_of_ne (Ne.symm htenant)]
        exact h
    | some error =>
      -- A failed job that is not given up stays open.
      have hsame : Same tenant r (r.markFailed error now) := by
        by_cases htenant : r.job.tenant = tenant
        · have hfive := horder r hr htenant
          have hretry : (r.markFailed error now).status = .retrying ∧
              (r.markFailed error now).job = r.job := by
            unfold Row.markFailed
            dsimp only
            rw [if_neg (by omega)]
            exact ⟨rfl, rfl⟩
          refine ⟨?_, fun _ => by rw [hretry.2]⟩
          simp [Row.of, Row.isOpen, Row.waiting, hretry.1, hretry.2, hsync]
        · refine .of_tenant_ne htenant ?_
          unfold Row.markFailed
          dsimp only
          split_ifs <;> exact htenant
      dsimp only
      rw [Settled, modify_eq_set hr, openJobs_set hr hsame]
      exact h
  · exact h

theorem settled_step {c : Menus} {w : World} (hsound : Sound w) (h : Settled tenant c w) (e : Event)
    (horder : InOrder tenant w e) : Settled tenant c (step w e) := by
  cases e with
  | enqueue job now => exact settled_enqueue h job now
  | enqueueMany jobs now => exact h.append jobs now
  | claim i => exact settled_claim h i
  | reach i => exact settled_reach hsound h i horder
  | finish i error now => exact settled_finish hsound h i error now horder
  | retry i now =>
    have hopen : openJobs tenant (w.rows.modify i fun r => r.retry now) = openJobs tenant w.rows :=
      openJobs_congr (forall₂_modify .refl fun r hr =>
        ⟨by rw [Row.of, Row.of, isOpen_of_waiting (horder r hr)]; rfl, fun _ => rfl⟩)
    rw [Settled, step, hopen]
    exact h
  | cancel i =>
    have hopen : openJobs tenant (w.rows.modify i Row.cancel) = openJobs tenant w.rows :=
      openJobs_congr (forall₂_modify .refl fun r hr => .of_tenant_ne (horder r hr) (by
        unfold Row.cancel
        split_ifs <;> exact horder r hr))
    rw [Settled, step, hopen]
    exact h
  | markDoneMany ids now =>
    have hopen : openJobs tenant (markDoneMany w.rows ids now) = openJobs tenant w.rows := by
      refine openJobs_congr (List.forall₂_iff_get.mpr ⟨List.length_mapIdx.symm, fun i h h' => ?_⟩)
      simp only [markDoneMany, List.get_eq_getElem, List.getElem_mapIdx]
      split_ifs with hclose
      · have htenant := horder i hclose.1 w.rows[i] (List.getElem?_eq_getElem h)
        exact .of_tenant_ne htenant htenant
      · exact .refl _
    rw [Settled, step, hopen]
    exact h
  | markStaleResolved t now =>
    obtain ⟨t', ht, hne⟩ := horder
    have hopen : openJobs tenant (markStaleResolved w.rows t now) = openJobs tenant w.rows := by
      refine openJobs_congr (List.forall₂_map_right_iff.mpr (List.forall₂_same.mpr fun r _ => ?_))
      split_ifs with hstale
      · have htenant : r.job.tenant ≠ tenant := hstale.2 t' ht ▸ hne
        exact .of_tenant_ne htenant htenant
      · exact .refl _
    rw [Settled, step, hopen]
    exact h

theorem settled_along {c : Menus} {w : World} (hsound : Sound w) (h : Settled tenant c w)
    {events : List Event} (horder : Run.Along (InOrder tenant) step w events) :
    Settled tenant c (Run.run step w events) :=
  (Run.run_invariant (I := fun w => Sound w ∧ Settled tenant c w)
    (fun _ e h ho => ⟨sound_step h.1 ho.waits, settled_step h.1 h.2 e ho⟩) ⟨hsound, h⟩ horder).2

/-- With the jobs of each item carried out in their order, what is open would bring the router to the
same settled attributes as every job that was ever asked for, one after the other; and with nothing
open it has them. -/
theorem router_settled (tenant : ℕ) (routers : ℕ → Router) (events : List Event)
    (horder : Run.Along (InOrder tenant) step { routers } events) :
    let w := Run.run step { routers } events
    let wanted := (askedJobs tenant w.asked).foldl act (core (routers tenant).menus)
    (openJobs tenant w.rows).foldl act (core (w.routers tenant).menus) = wanted ∧
      (openJobs tenant w.rows = [] → core (w.routers tenant).menus = wanted) := by
  intro w wanted
  have hsettled : Settled tenant (core (routers tenant).menus) w :=
    settled_along (sound_empty routers) rfl horder
  refine ⟨hsettled, fun hnone => ?_⟩
  rw [Settled, hnone] at hsettled
  exact hsettled

def replaced : List Event :=
  [.enqueue (upsert "a") 0, .enqueue (upsert "b") 1, .claim 0, .finish 0 none 2]

theorem router_settled_replaced :
    let w := Run.run step { routers := fun _ => ⟨fun _ => none, []⟩ } replaced
    core (w.routers 1).menus = (askedJobs 1 w.asked).foldl act (core fun _ => none) := by
  have horder : Run.Along (InOrder 1) step { routers := fun _ => ⟨fun _ => none, []⟩ } replaced :=
    ⟨trivial, trivial, trivial, fun before _ _ _ hlength _ r hr => by
      rw [List.length_eq_zero_iff.mp hlength] at hr
      exact absurd hr List.not_mem_nil, trivial⟩
  exact (router_settled 1 _ replaced horder).2 (List.isEmpty_iff.mp (by decide +kernel))

end RadiusModule.SyncQueue
