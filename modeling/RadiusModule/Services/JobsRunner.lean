import RadiusModule.Library.Run
import RadiusModule.Library.Tasks
import Mathlib.Data.Int.Notation

/-!
# Background jobs

The row of one job, and the calls of `run_job` and `mark_cancelled` that work
on it. A call reads the row in one step and writes it in a later one, with
other calls in between, and may crash at any point. What a handler gives back
is taken as the text that is stored.
-/

namespace RadiusModule.JobsRunner
open Library Tasks

inductive Status
  | queued
  | running
  | waiting
  | success
  | failed
  | cancelled
deriving DecidableEq, Repr

/-- `TERMINAL_STATUSES` -/
def Status.terminal : Status → Bool
  | success => true
  | failed => true
  | cancelled => true
  | _ => false

structure Job where
  status : Status := .queued
  progress : ℤ := 0
  currentStep : String := ""
  errorMessage : String := ""
  resultJson : String := "\x7b\x7d"
  startedAt : Option ℤ := none
  finishedAt : Option ℤ := none
deriving DecidableEq, Repr

namespace Job

def markRunning (now : ℤ) (job : Job) : Job :=
  { job with status := .running, startedAt := some now }

def updateProgress (percent : ℤ) (step : String) (job : Job) : Job :=
  { job with
    progress := max 0 (min percent 100)
    currentStep := if step = "" then job.currentStep else String.ofList (step.toList.take 200) }

def markSuccess (now : ℤ) (result : String) (job : Job) : Job :=
  { job with status := .success, progress := 100, resultJson := result, finishedAt := some now }

def markFailed (now : ℤ) (error result : String) (job : Job) : Job :=
  { job with
    status := .failed
    errorMessage := String.ofList (error.toList.take 2000)
    resultJson := result
    finishedAt := some now }

def markCancelled (now : ℤ) (job : Job) : Job :=
  { job with status := .cancelled, finishedAt := some now }

end Job

/-- The row, how often its handler was started, and how many calls of `mark_cancelled` have
returned True. -/
structure State where
  job : Job := {}
  starts : ℕ := 0
  cancels : ℕ := 0
deriving DecidableEq, Repr

/-- Where a call stands: `marking` and `cancelling` have read the row, `ready` is about to call
the handler. -/
inductive Phase
  | idle
  | marking
  | ready
  | working
  | cancelling
  | done
deriving DecidableEq, Repr

/-- `run` and `cancel` begin a call with its read; `registered` is whether the type of the job has
a handler by now. -/
inductive Action
  | run (registered : Bool)
  | mark (now : ℤ)
  | start
  | progress (percent : ℤ) (step : String)
  | succeed (now : ℤ) (result : String)
  | fail (now : ℤ) (error result : String)
  | cancel
  | write (now : ℤ)
  | crash
deriving DecidableEq, Repr

def act : Action → State → Phase → State × Phase
  | .run registered, s, .idle =>
    (s, if s.job.status.terminal then .done
      else if !registered then .done
      else if s.job.status = .queued then .marking
      else .ready)
  | .mark now, s, .marking => ({ s with job := s.job.markRunning now }, .ready)
  | .start, s, .ready => ({ s with starts := s.starts + 1 }, .working)
  | .progress percent step, s, .working =>
    ({ s with job := s.job.updateProgress percent step }, .working)
  | .succeed now result, s, .working => ({ s with job := s.job.markSuccess now result }, .done)
  | .fail now error result, s, .working =>
    ({ s with job := s.job.markFailed now error result }, .done)
  | .cancel, s, .idle =>
    (s, if s.job.status = .queued ∨ s.job.status = .waiting then .cancelling else .done)
  | .write now, s, .cancelling =>
    ({ s with job := s.job.markCancelled now, cancels := s.cancels + 1 }, .done)
  | .crash, s, _ => (s, .done)
  | _, s, p => (s, p)

abbrev Calls := World ℕ State Phase

def step : Calls → ℕ × Action → Calls := World.step act

def enqueued : Calls := ⟨{}, fun _ => .idle⟩

/-- No call starts a job that another one has begun or that waits, and a write finds the row in
the state that its call has read. -/
def Clean (w : Calls) (e : ℕ × Action) : Prop :=
  match e.2, w.task e.1 with
  | .run registered, .idle =>
    registered = true → w.shared.job.status ≠ .running ∧ w.shared.job.status ≠ .waiting
  | .mark _, .marking => w.shared.job.status = .queued
  | .write _, .cancelling => w.shared.job.status = .queued ∨ w.shared.job.status = .waiting
  | _, _ => True

structure AtMostOnce (s : State) : Prop where
  once : s.starts ≤ 1
  cancelled : 0 < s.cancels → s.starts = 0 ∧ s.job.status = .cancelled

def Phase.active (p : Phase) : Bool := p = .ready || p = .working

/-- The handler has been started by the time that the row shows an end, and not before the row
shows that it runs. -/
structure Consistent (s : State) : Prop where
  starts : s.starts ≤ 1
  unstarted : s.job.status = .queued ∨ s.job.status = .waiting ∨ s.job.status = .cancelled →
    s.starts = 0
  cancels : 0 < s.cancels → s.job.status = .cancelled

def Knows (s : State) (p : Phase) : Prop :=
  (p.active = true → s.job.status = .running) ∧ (p = .ready → s.starts = 0)

def Apart (p q : Phase) : Prop := p.active = true → q.active = false

theorem Apart.symm (p q : Phase) (h : Apart p q) : Apart q p := by
  intro hq
  by_contra hp
  rw [h (by simpa using hp)] at hq
  cases hq

theorem Knows.of_inactive {s : State} {p : Phase} (h : p.active = false) : Knows s p := by
  refine ⟨fun hactive => ?_, fun hready => ?_⟩
  · rw [h] at hactive
    cases hactive
  · rw [hready] at h
    cases h

abbrev Inv (w : Calls) : Prop := w.Inv Consistent Knows Apart

theorem inv_enqueued : Inv enqueued := by
  refine ⟨⟨Nat.zero_le 1, fun _ => rfl, fun h => (Nat.lt_irrefl 0 h).elim⟩, fun _ => ?_,
    fun _ _ _ h => ?_⟩
  · exact .of_inactive rfl
  · cases h

inductive Moves (s : State) (p : Phase) : State → Phase → Prop
  | quiet (p' : Phase) (h : p'.active = true → p' = p) : Moves s p s p'
  | marked (hp : p = .marking) (h : s.job.status = .queued) (now : ℤ) :
    Moves s p { s with job := s.job.markRunning now } .ready
  | started (hp : p = .ready) : Moves s p { s with starts := s.starts + 1 } .working
  | progressed (hp : p = .working) (percent : ℤ) (step : String) :
    Moves s p { s with job := s.job.updateProgress percent step } .working
  | ended (hp : p = .working) (job : Job) (h : job.status = .success ∨ job.status = .failed) :
    Moves s p { s with job := job } .done
  | cancelled (hp : p = .cancelling) (h : s.job.status = .queued ∨ s.job.status = .waiting)
    (now : ℤ) :
    Moves s p { s with job := s.job.markCancelled now, cancels := s.cancels + 1 } .done

theorem moves_of_clean {w : Calls} {e : ℕ × Action} (h : Clean w e) :
    Moves w.shared (w.task e.1) (act e.2 w.shared (w.task e.1)).1
      (act e.2 w.shared (w.task e.1)).2 := by
  unfold Clean at h
  obtain ⟨i, action⟩ := e
  generalize w.task i = p at h ⊢
  cases action with
  | crash => exact .quiet .done fun h => by cases h
  | run registered =>
    cases p with
    | idle =>
      refine .quiet _ fun hactive => ?_
      simp only [act] at h hactive
      split_ifs at hactive with hterminal hregistered hqueued
      · cases hactive
      · cases hactive
      · cases hactive
      · obtain ⟨hrunning, hwaiting⟩ := h (by simpa using hregistered)
        cases hstatus : w.shared.job.status <;> simp_all [Status.terminal]
    | _ => exact .quiet _ fun _ => rfl
  | mark now =>
    cases p with
    | marking => exact .marked rfl h now
    | _ => exact .quiet _ fun _ => rfl
  | start =>
    cases p with
    | ready => exact .started rfl
    | _ => exact .quiet _ fun _ => rfl
  | progress percent step =>
    cases p with
    | working => exact .progressed rfl percent step
    | _ => exact .quiet _ fun _ => rfl
  | succeed now result =>
    cases p with
    | working => exact .ended rfl _ (.inl rfl)
    | _ => exact .quiet _ fun _ => rfl
  | fail now error result =>
    cases p with
    | working => exact .ended rfl _ (.inr rfl)
    | _ => exact .quiet _ fun _ => rfl
  | cancel =>
    cases p with
    | idle =>
      refine .quiet _ fun hactive => ?_
      simp only [act] at hactive
      split_ifs at hactive <;> cases hactive
    | _ => exact .quiet _ fun _ => rfl
  | write now =>
    cases p with
    | cancelling => exact .cancelled rfl h now
    | _ => exact .quiet _ fun _ => rfl

theorem Inv.advance {w : Calls} (h : Inv w) {e : ℕ × Action} (hclean : Clean w e) :
    Inv (step w e) := by
  have hmoves := moves_of_clean hclean
  have hshared := h.shared
  have hown := h.task e.1
  refine World.Inv.step h Apart.symm e ?_ fun q hq hapart => ?_
  · generalize act e.2 w.shared (w.task e.1) = out at hmoves ⊢
    obtain ⟨s', p'⟩ := out
    dsimp only at hmoves ⊢
    cases hmoves with
    | quiet _ hp' =>
      refine ⟨hshared, fun hactive => ?_, fun hready => ?_⟩
      · exact hown.1 (hp' hactive ▸ hactive)
      · exact hown.2 ((hp' (by rw [hready]; rfl)).symm.trans hready)
    | marked hp hqueued now =>
      have hstarts := hshared.unstarted (.inl hqueued)
      refine ⟨⟨hshared.starts, fun hstatus => by simp [Job.markRunning] at hstatus,
        fun hcancels => ?_⟩, fun _ => rfl, fun _ => hstarts⟩
      rw [hshared.cancels hcancels] at hqueued
      cases hqueued
    | started hp =>
      have hrunning := hown.1 (by rw [hp]; rfl)
      have hstarts := hown.2 hp
      refine ⟨⟨by simp [hstarts], fun hstatus => ?_, hshared.cancels⟩, fun _ => hrunning,
        fun hready => by cases hready⟩
      simp [hrunning] at hstatus
    | progressed hp percent step =>
      exact ⟨⟨hshared.starts, hshared.unstarted, hshared.cancels⟩,
        fun _ => hown.1 (by rw [hp]; rfl), fun hready => by cases hready⟩
    | ended hp job hend =>
      have hrunning := hown.1 (by rw [hp]; rfl)
      refine ⟨⟨hshared.starts, fun hstatus => ?_, fun hcancels => ?_⟩, .of_inactive rfl⟩
      · rcases hend with hend | hend <;> simp [hend] at hstatus
      · rw [hshared.cancels hcancels] at hrunning
        cases hrunning
    | cancelled hp hopen now =>
      have hstarts := hshared.unstarted (hopen.imp_right .inl)
      exact ⟨⟨hshared.starts, fun _ => hstarts, fun _ => rfl⟩, .of_inactive rfl⟩
  · generalize act e.2 w.shared (w.task e.1) = out at hmoves ⊢
    obtain ⟨s', p'⟩ := out
    dsimp only at hmoves ⊢
    cases hmoves with
    | quiet _ hp' => exact ⟨hq, fun hactive => hapart (hp' hactive ▸ hactive)⟩
    | marked hp hqueued now =>
      have hidle : q.active = false := by
        by_contra hactive
        rw [hq.1 (by simpa using hactive)] at hqueued
        cases hqueued
      exact ⟨.of_inactive hidle, fun _ => hidle⟩
    | started hp =>
      have hidle := hapart (by rw [hp]; rfl)
      exact ⟨.of_inactive hidle, fun _ => hidle⟩
    | progressed hp percent step => exact ⟨hq, fun _ => hapart (by rw [hp]; rfl)⟩
    | ended hp job hend =>
      have hidle := hapart (by rw [hp]; rfl)
      exact ⟨.of_inactive hidle, fun _ => hidle⟩
    | cancelled hp hopen now =>
      have hidle : q.active = false := by
        by_contra hactive
        rw [hq.1 (by simpa using hactive)] at hopen
        rcases hopen with hopen | hopen <;> cases hopen
      exact ⟨.of_inactive hidle, fun _ => hidle⟩

theorem Inv.terminal_step {w : Calls} (h : Inv w) {e : ℕ × Action} (hclean : Clean w e)
    (hterminal : w.shared.job.status.terminal = true) :
    (step w e).shared.job.status = w.shared.job.status := by
  have hmoves := moves_of_clean hclean
  have hown := h.task e.1
  change (act e.2 w.shared (w.task e.1)).1.job.status = _
  generalize act e.2 w.shared (w.task e.1) = out at hmoves ⊢
  obtain ⟨s', p'⟩ := out
  dsimp only at hmoves ⊢
  cases hmoves with
  | quiet _ _ => rfl
  | marked hp hqueued now =>
    rw [hqueued] at hterminal
    cases hterminal
  | started hp => rfl
  | progressed hp percent step => rfl
  | ended hp job hend =>
    rw [hown.1 (by rw [hp]; rfl)] at hterminal
    cases hterminal
  | cancelled hp hopen now =>
    rcases hopen with hopen | hopen
    · rw [hopen] at hterminal
      cases hterminal
    · rw [hopen] at hterminal
      cases hterminal

theorem Inv.run {w : Calls} (h : Inv w) {es : List (ℕ × Action)}
    (hclean : Run.Along Clean step w es) : Inv (Run.run step w es) :=
  Run.run_invariant (fun _ _ hw he => hw.advance he) h hclean

theorem terminal_run {w : Calls} (h : Inv w) {es : List (ℕ × Action)}
    (hclean : Run.Along Clean step w es) (hterminal : w.shared.job.status.terminal = true) :
    (Run.run step w es).shared.job.status = w.shared.job.status := by
  induction es generalizing w with
  | nil => rfl
  | cons e es ih =>
    have hsame := h.terminal_step hclean.1 hterminal
    have hrest := ih (h.advance hclean.1) hclean.2 (hsame ▸ hterminal)
    exact hrest.trans hsame

/-- Calls that do not step into each other run the handler at most once, and the end that the row
shows is final. -/
theorem runs_once_of_clean (es : List (ℕ × Action)) (h : Run.Along Clean step enqueued es) :
    AtMostOnce (Run.run step enqueued es).shared ∧
      ∀ pre post, es = pre ++ post →
        (Run.run step enqueued pre).shared.job.status.terminal = true →
        (Run.run step enqueued es).shared.job.status =
          (Run.run step enqueued pre).shared.job.status := by
  refine ⟨?_, ?_⟩
  · have hinv := (inv_enqueued.run h).shared
    exact ⟨hinv.starts, fun hcancels =>
      ⟨hinv.unstarted (.inr (.inr (hinv.cancels hcancels))), hinv.cancels hcancels⟩⟩
  · rintro pre post rfl hterminal
    obtain ⟨hpre, hpost⟩ := Run.along_append.mp h
    have hsame := terminal_run (inv_enqueued.run hpre) hpost hterminal
    rw [Run.run, List.foldl_append]
    exact hsame

theorem runs_once_twice : AtMostOnce (Run.run step enqueued
    [(0, .run true), (0, .mark 5), (0, .start), (0, .succeed 6 "ok"), (1, .run true),
      (2, .cancel)]).shared :=
  (runs_once_of_clean _ (by
    simp [Run.Along, Clean, step, World.step, act, enqueued, Status.terminal, Job.markRunning,
      Job.markSuccess])).1

/-- The worker crashes in its handler, and the repeated call starts the handler again. -/
theorem crashed_job_runs_again : ¬AtMostOnce (Run.run step enqueued
    [(0, .run true), (0, .mark 5), (0, .start), (0, .crash), (1, .run true), (1, .start)]).shared :=
  fun h => absurd h.once (by decide)

end RadiusModule.JobsRunner
