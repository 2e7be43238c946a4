import Mathlib.Data.Finset.Basic
import Mathlib.Data.List.Basic

/-!
# Mirrors kept up by later work

A mirror shows for every key whether it is wanted, and is brought up to date by
work that is owed for a while. `Owed` says that wherever the mirror is wrong,
the work that would set it right is still to be done.
-/

namespace RadiusModule.Library.Mirror

variable {κ : Type*}

def Owed (wanted there : κ → Bool) (owed : κ → Bool → Prop) : Prop :=
  ∀ k, there k = wanted k ∨ owed k (wanted k)

variable {wanted wanted' there there' : κ → Bool} {owed owed' : κ → Bool → Prop}

theorem Owed.settled (h : Owed wanted there owed) (hnone : ∀ k b, ¬ owed k b) (k : κ) :
    there k = wanted k :=
  (h k).resolve_right (hnone k _)

theorem Owed.mono (h : Owed wanted there owed) (howed : ∀ k b, owed k b → owed' k b) :
    Owed wanted there owed' := fun k => (h k).imp_right (howed k _)

theorem Owed.change (h : Owed wanted there owed) (key : κ)
    (hsame : ∀ k, k ≠ key → wanted' k = wanted k) (howed : ∀ k b, owed k b → owed' k b)
    (hnew : owed' key (wanted' key)) : Owed wanted' there owed' := by
  intro k
  by_cases hk : k = key
  · rw [hk]
    exact .inr hnew
  · rw [hsame k hk]
    exact (h k).imp_right (howed k _)

theorem Owed.perform (h : Owed wanted there owed) (key : κ)
    (hsame : ∀ k, k ≠ key → there' k = there k) (hdone : there' key = wanted key)
    (howed : ∀ k b, k ≠ key → owed k b → owed' k b) : Owed wanted there' owed' := by
  intro k
  by_cases hk : k = key
  · rw [hk]
    exact .inl hdone
  · rw [hsame k hk]
    exact (h k).imp_right (howed k _ hk)

end RadiusModule.Library.Mirror
