import Mathlib.Data.List.Basic
import Mathlib.Order.Basic

/-!
# Runs of a deterministic step function

A run folds a step function over a list of events. `Along ok step s es` says
that every event of the run satisfies the guard `ok` in the state it meets.
The rules below carry one-step facts to whole runs: an invariant, a quantity
that never moves backwards, and a relation between the states of two systems.
-/

namespace RadiusModule.Library.Run

variable {σ τ ε : Type*}

abbrev run (step : σ → ε → σ) (s : σ) (es : List ε) : σ := es.foldl step s

def Along (ok : σ → ε → Prop) (step : σ → ε → σ) : σ → List ε → Prop
  | _, [] => True
  | s, e :: es => ok s e ∧ Along ok step (step s e) es

def Along.decidable {ok : σ → ε → Prop} [∀ s e, Decidable (ok s e)] (step : σ → ε → σ) :
    ∀ (s : σ) (es : List ε), Decidable (Along ok step s es)
  | _, [] => .isTrue trivial
  | s, e :: es => @instDecidableAnd _ _ _ (Along.decidable step (step s e) es)

instance {ok : σ → ε → Prop} [∀ s e, Decidable (ok s e)] {step : σ → ε → σ} {s : σ}
    {es : List ε} : Decidable (Along ok step s es) := Along.decidable step s es

theorem along_append {ok : σ → ε → Prop} {step : σ → ε → σ} {s : σ} {as bs : List ε} :
    Along ok step s (as ++ bs) ↔ Along ok step s as ∧ Along ok step (run step s as) bs := by
  induction as generalizing s with
  | nil => simp [Along]
  | cons e as ih => simp [Along, ih, and_assoc]

theorem Along.mono {ok ok' : σ → ε → Prop} {step : σ → ε → σ} (h : ∀ s e, ok s e → ok' s e)
    {s : σ} {es : List ε} (ha : Along ok step s es) : Along ok' step s es := by
  induction es generalizing s with
  | nil => trivial
  | cons e es ih => exact ⟨h _ _ ha.1, ih ha.2⟩

theorem along_of_forall {ok : ε → Prop} {step : σ → ε → σ} {s : σ} {es : List ε}
    (h : ∀ e ∈ es, ok e) : Along (fun _ => ok) step s es := by
  induction es generalizing s with
  | nil => trivial
  | cons e es ih =>
    exact ⟨h e List.mem_cons_self, ih fun e' he => h e' (List.mem_cons_of_mem e he)⟩

theorem forall_split_iff {P : List ε → ε → Prop} {es : List ε} :
    (∀ pre e post, es = pre ++ e :: post → P pre e) ↔
      ∀ i : Fin es.length, P (es.take i) (es.get i) := by
  constructor
  · intro h i
    refine h _ _ (es.drop (i + 1)) ?_
    rw [List.get_eq_getElem, List.getElem_cons_drop, List.take_append_drop]
  · rintro h pre e post rfl
    simpa using h ⟨pre.length, by simp⟩

theorem run_invariant {ok : σ → ε → Prop} {step : σ → ε → σ} {I : σ → Prop}
    (hstep : ∀ s e, I s → ok s e → I (step s e)) {s : σ} {es : List ε}
    (hs : I s) (hok : Along ok step s es) : I (run step s es) := by
  induction es generalizing s with
  | nil => exact hs
  | cons e es ih => exact ih (hstep s e hs hok.1) hok.2

theorem Along.of_invariant {ok ok' : σ → ε → Prop} {step : σ → ε → σ} {I : σ → Prop}
    (hstep : ∀ s e, I s → ok s e → I (step s e)) (h : ∀ s e, I s → ok s e → ok' s e)
    {s : σ} {es : List ε} (hs : I s) (hok : Along ok step s es) : Along ok' step s es := by
  induction es generalizing s with
  | nil => trivial
  | cons e es ih => exact ⟨h s e hs hok.1, ih (hstep s e hs hok.1) hok.2⟩

theorem run_always {step : σ → ε → σ} {I : σ → Prop} (hstep : ∀ s e, I s → I (step s e)) {s : σ}
    {es : List ε} (hs : I s) : I (run step s es) := by
  induction es generalizing s with
  | nil => exact hs
  | cons e es ih => exact ih (hstep s e hs)

theorem along_congr {ok ok' : σ → ε → Prop} {step : σ → ε → σ} {I : σ → Prop}
    (hstep : ∀ s e, I s → I (step s e)) (h : ∀ s e, I s → (ok s e ↔ ok' s e)) {s : σ} {es : List ε}
    (hs : I s) : Along ok step s es ↔ Along ok' step s es := by
  induction es generalizing s with
  | nil => exact Iff.rfl
  | cons e es ih => exact and_congr (h s e hs) (ih (hstep s e hs))

theorem run_monotone {α : Type*} [Preorder α] {ok : σ → ε → Prop} {step : σ → ε → σ}
    {I : σ → Prop} {m : σ → α} (hinv : ∀ s e, I s → ok s e → I (step s e))
    (hstep : ∀ s e, I s → ok s e → m s ≤ m (step s e)) {s : σ} {es : List ε}
    (hs : I s) (hok : Along ok step s es) : m s ≤ m (run step s es) := by
  induction es generalizing s with
  | nil => exact le_refl _
  | cons e es ih => exact (hstep s e hs hok.1).trans (ih (hinv s e hs hok.1) hok.2)

theorem run_abstract (abs : σ → τ) {step : σ → ε → σ} {step' : τ → ε → τ} {ok : ε → Prop}
    (hstep : ∀ s e, ok e → abs (step s e) = step' (abs s) e) {s : σ} {es : List ε}
    (hok : ∀ e ∈ es, ok e) : abs (run step s es) = run step' (abs s) es := by
  induction es generalizing s with
  | nil => rfl
  | cons e es ih =>
    simp only [run, List.foldl_cons] at ih ⊢
    rw [ih fun e' he => hok e' (List.mem_cons_of_mem _ he), hstep s e (hok e List.mem_cons_self)]

theorem run_congr {ok : σ → ε → Prop} {step step' : σ → ε → σ}
    (hstep : ∀ s e, ok s e → step s e = step' s e) {s : σ} {es : List ε}
    (hok : Along ok step s es) : run step s es = run step' s es := by
  induction es generalizing s with
  | nil => rfl
  | cons e es ih =>
    simp only [run, List.foldl_cons] at ih ⊢
    rw [ih hok.2, hstep s e hok.1]

end RadiusModule.Library.Run
