import Mathlib.Data.List.Basic

/-!
# Updates that give way to a later one

A list of updates is carried out from left to right. An update can stand in for an earlier one that
it absorbs, in that one's place, when it commutes with all between them; and an update can be
carried out first when it commutes with all before it.
-/

namespace RadiusModule.Library.Coalesce

variable {σ ο : Type*} (act : σ → ο → σ)

def Swaps (a b : ο) : Prop := ∀ s, act (act s a) b = act (act s b) a

def Absorbs (b a : ο) : Prop := ∀ s, act (act s a) b = act s b

variable {act}

theorem foldl_swap {updates : List ο} {b : ο} (h : ∀ a ∈ updates, Swaps act a b) (s : σ) :
    updates.foldl act (act s b) = act (updates.foldl act s) b := by
  induction updates generalizing s with
  | nil => rfl
  | cons a updates ih =>
    rw [List.foldl_cons, List.foldl_cons, ← h a List.mem_cons_self,
      ih fun a' ha' => h a' (List.mem_cons_of_mem a ha')]

theorem foldl_replace {before between : List ο} {a b : ο} (habsorbs : Absorbs act b a)
    (hswaps : ∀ c ∈ between, Swaps act c b) (s : σ) :
    (before ++ b :: between).foldl act s = act ((before ++ a :: between).foldl act s) b := by
  rw [List.foldl_append, List.foldl_append, List.foldl_cons, List.foldl_cons,
    foldl_swap hswaps, ← foldl_swap hswaps (act _ a), habsorbs, foldl_swap hswaps]

theorem foldl_first {before later : List ο} {b : ο} (hswaps : ∀ a ∈ before, Swaps act a b) (s : σ) :
    (before ++ b :: later).foldl act s = (before ++ later).foldl act (act s b) := by
  rw [List.foldl_append, List.foldl_append, List.foldl_cons, foldl_swap hswaps]

end RadiusModule.Library.Coalesce
