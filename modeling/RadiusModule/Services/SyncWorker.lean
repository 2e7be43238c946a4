import RadiusModule.Library.IsoText
import RadiusModule.Services.SyncQueue

/-!
# The worker of the router jobs

The one worker of an install takes the due jobs in the order of their ids, closes those of tenants
without a router together and carries out the others one by one, while jobs keep coming in. As long
as no job fails, none overtakes another one for the same item. Whether a job is due is seen from the
texts of the times, in which a whole second comes after its fractions.
-/

namespace RadiusModule.SyncWorker
open Library RouterSync SyncQueue IsoText

def batch : ℕ := 100

/-- The ids that `pick_due` finds, with the order of the texts. -/
def due (rows : List Row) (now : ℤ) : List ℕ :=
  (List.range rows.length).filter fun i => rows[i]?.any fun r =>
    r.waiting && textRank r.nextAttempt ≤ textRank now

def pickDue (rows : List Row) (now : ℤ) : List ℕ := (due rows now).take batch

/-- The table with the jobs that `run_tick` has picked and not claimed yet. -/
structure State where
  world : World
  picked : List ℕ := []
  clock : ℤ := 0

inductive Event
  | enqueue (job : Job) (now : ℤ)
  | enqueueMany (jobs : List Job) (now : ℤ)
  | pick (now : ℤ)
  | claim
  | finish (now : ℤ)

def Event.now (clock : ℤ) : Event → ℤ
  | .enqueue _ now | .enqueueMany _ now | .pick now | .finish now => now
  | .claim => clock

def hasTargets (targets : ℕ → Bool) (rows : List Row) (i : ℕ) : Bool :=
  rows[i]?.any fun r => targets r.job.tenant

variable (targets : ℕ → Bool)

def queueEvents (s : State) : Event → List SyncQueue.Event
  | .enqueue job now => [.enqueue job now]
  | .enqueueMany jobs now => [.enqueueMany jobs now]
  | .pick now =>
    if s.world.running.isEmpty && s.picked.isEmpty then
      [.markDoneMany ((pickDue s.world.rows now).filter fun i =>
        !hasTargets targets s.world.rows i) now]
    else []
  | .claim =>
    match s.world.running, s.picked with
    | [], i :: _ => [.claim i]
    | _, _ => []
  | .finish now =>
    match s.world.running with
    | (i, _) :: _ => [.finish i none now]
    | [] => []

def step (s : State) (e : Event) : State where
  world := Run.run SyncQueue.step s.world (queueEvents targets s e)
  picked :=
    match e with
    | .pick now =>
      if s.world.running.isEmpty && s.picked.isEmpty then
        (pickDue s.world.rows now).filter fun i => hasTargets targets s.world.rows i
      else s.picked
    | .claim => if s.world.running.isEmpty then s.picked.tail else s.picked
    | _ => s.picked
  clock := e.now s.clock

def State.hands (s : State) : List ℕ := s.world.running.map Prod.fst ++ s.picked

structure Front (tenant : ℕ) (s : State) : Prop where
  sound : Sound s.world
  one : s.world.running.length ≤ 1
  sorted : s.hands.Pairwise (· < ·)
  inside : ∀ i ∈ s.hands, i < s.world.rows.length
  front : ∀ (i : ℕ) (r : Row), s.world.rows[i]? = some r → r.of tenant = true →
    i ∈ s.hands ∨ ∀ j ∈ s.hands, j < i
  dueBy : ∀ r ∈ s.world.rows, r.waiting = true →
    r.nextAttempt ≤ s.clock ∧ r.nextAttempt % 1000000 ≠ 0

variable {targets} {tenant : ℕ}

theorem Front.apart {s s' : State} (h : Front tenant s) (hsound : Sound s'.world)
    {rows new : List Row} (hrows : s'.world.rows = rows ++ new)
    (hsteady : s.world.rows.Forall₂ Steady rows)
    (hnew : ∀ r ∈ new, r.nextAttempt ≤ s'.clock ∧ r.nextAttempt % 1000000 ≠ 0)
    (hrunning : s'.world.running = s.world.running) (hpicked : s'.picked = s.picked)
    (hclock : s.clock ≤ s'.clock) : Front tenant s' := by
  have hlength := hsteady.length_eq
  have hhands : s'.hands = s.hands := by rw [State.hands, State.hands, hrunning, hpicked]
  refine ⟨hsound, hrunning ▸ h.one, hhands ▸ h.sorted, fun i hi => ?_, fun i r hr hof => ?_,
    fun r hr hwait => ?_⟩
  · rw [hrows, List.length_append, ← hlength]
    exact Nat.lt_add_right _ (h.inside i (hhands ▸ hi))
  · rw [hhands]
    rcases row_lookup hsteady (hrows ▸ hr) with ⟨old, hold, happ⟩ | ⟨hle, -⟩
    · refine h.front i old hold ?_
      rw [Row.of, Bool.and_eq_true, decide_eq_true_eq] at hof ⊢
      obtain ⟨hopen, htenant⟩ := happ.opened hof.1
      exact ⟨hopen, htenant ▸ hof.2⟩
    · exact .inr fun j hj => (h.inside j hj).trans_le hle
  · obtain ⟨i, hi⟩ := List.mem_iff_getElem?.mp hr
    rcases row_lookup hsteady (hrows ▸ hi) with ⟨old, hold, happ⟩ | ⟨-, hr⟩
    · obtain ⟨hle, hfraction⟩ := h.dueBy old (List.mem_of_getElem? hold) (happ.waiting hwait).1
      rw [happ.next hwait]
      exact ⟨Int.le_trans hle hclock, hfraction⟩
    · exact hnew r hr

theorem Front.tick {s : State} (h : Front tenant s) {now : ℤ} (hnow : s.clock ≤ now) :
    Front tenant { s with clock := now } :=
  h.apart h.sound (List.append_nil _).symm (List.forall₂_same.mpr fun r _ => .refl r)
    (fun _ hr => absurd hr List.not_mem_nil) rfl rfl hnow

end RadiusModule.SyncWorker
