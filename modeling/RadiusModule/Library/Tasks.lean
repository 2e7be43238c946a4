import Mathlib.Logic.Function.Basic

/-!
# Tasks that share a state

Each task is somewhere in its own program, and an event lets one task act on
the shared state. An invariant is of three parts: of the shared state, of a
task beside it, and of two tasks. It is kept when the task that acts keeps its
own part and disturbs no other task.
-/

namespace RadiusModule.Library.Tasks

variable {ι σ π ε : Type*} [DecidableEq ι]

structure World (ι σ π : Type*) where
  shared : σ
  task : ι → π

namespace World

def step (act : ε → σ → π → σ × π) (w : World ι σ π) (e : ι × ε) : World ι σ π :=
  let out := act e.2 w.shared (w.task e.1)
  ⟨out.1, Function.update w.task e.1 out.2⟩

/-- `K` is what a task knows of the shared state, `R` what holds of two tasks. -/
structure Inv (I : σ → Prop) (K : σ → π → Prop) (R : π → π → Prop) (w : World ι σ π) : Prop where
  shared : I w.shared
  task : ∀ i, K w.shared (w.task i)
  apart : ∀ i j, i ≠ j → R (w.task i) (w.task j)

variable {act : ε → σ → π → σ × π} {I : σ → Prop} {K : σ → π → Prop} {R : π → π → Prop}

theorem Inv.step {w : World ι σ π} (h : w.Inv I K R) (symm : ∀ p q, R p q → R q p) (e : ι × ε)
    (own : I (act e.2 w.shared (w.task e.1)).1 ∧
      K (act e.2 w.shared (w.task e.1)).1 (act e.2 w.shared (w.task e.1)).2)
    (others : ∀ q, K w.shared q → R (w.task e.1) q →
      K (act e.2 w.shared (w.task e.1)).1 q ∧ R (act e.2 w.shared (w.task e.1)).2 q) :
    (w.step act e).Inv I K R := by
  refine ⟨own.1, fun i => ?_, fun i j hij => ?_⟩
  · by_cases hi : i = e.1
    · subst hi
      simpa [World.step] using own.2
    · simpa [World.step, hi] using
        (others (w.task i) (h.task i) (h.apart _ _ (Ne.symm hi))).1
  · by_cases hi : i = e.1
    · subst hi
      simpa [World.step, Ne.symm hij] using
        (others (w.task j) (h.task j) (h.apart _ _ hij)).2
    · by_cases hj : j = e.1
      · subst hj
        simpa [World.step, hi] using
          symm _ _ (others (w.task i) (h.task i) (h.apart _ _ (Ne.symm hij))).2
      · simpa [World.step, hi, hj] using h.apart i j hij

end World
end RadiusModule.Library.Tasks
