import Mathlib.Algebra.BigOperators.Group.List.Basic

/-!
# Running balances

A list of movements, each with the balance before and after it and the amount
it adds, runs from `b` to `e` when the first starts at `b`, each starts
where the one before it ended, and the last ends at `e`.
-/

namespace RadiusModule.Library

variable {α M : Type*} [AddMonoid M] {before after delta : α → M}

def RunningBalance (before after delta : α → M) : M → List α → M → Prop
  | b, [], e => b = e
  | b, m :: ms, e => before m = b ∧ after m = before m + delta m ∧
      RunningBalance before after delta (after m) ms e

namespace RunningBalance

theorem refl (b : M) : RunningBalance before after delta b [] b := rfl

theorem snoc {b e : M} {ms : List α} {m : α} (h : RunningBalance before after delta b ms e)
    (hbefore : before m = e) (hafter : after m = before m + delta m) :
    RunningBalance before after delta b (ms ++ [m]) (after m) := by
  induction ms generalizing b with
  | nil =>
    subst h
    exact ⟨hbefore, hafter, rfl⟩
  | cons n ms ih => exact ⟨h.1, h.2.1, ih h.2.2⟩

theorem total {b e : M} {ms : List α} (h : RunningBalance before after delta b ms e) :
    e = b + (ms.map delta).sum := by
  induction ms generalizing b with
  | nil =>
    subst h
    simp
  | cons m ms ih =>
    obtain ⟨rfl, hafter, hrest⟩ := h
    rw [ih hrest, hafter, List.map_cons, List.sum_cons, add_assoc]

end RunningBalance
end RadiusModule.Library
