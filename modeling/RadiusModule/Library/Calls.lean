import Mathlib.Algebra.BigOperators.Group.List.Basic
import Mathlib.Algebra.GroupWithZero.Nat
import Mathlib.Data.List.Basic
import Mathlib.Data.List.Count
import Mathlib.Data.List.Perm.Basic

/-!
# Calls that hold items

Calls run side by side, and each holds some items of its own. What all of them
hold is counted call by call, so that a step of one call moves only its items.
-/

namespace RadiusModule.Library.Calls

variable {κ α : Type*}

theorem exists_split {calls : List κ} {i : ℕ} {c : κ} (h : calls[i]? = some c) :
    ∃ before after, calls = before ++ c :: after ∧ before.length = i ∧
      ∀ c', calls.set i c' = before ++ c' :: after := by
  obtain ⟨hi, rfl⟩ := List.getElem?_eq_some_iff.mp h
  refine ⟨calls.take i, calls.drop (i + 1), ?_, List.length_take_of_le (Nat.le_of_lt hi),
    fun c' => ?_⟩
  · rw [List.getElem_cons_drop, List.take_append_drop]
  · rw [List.set_eq_take_append_cons_drop, if_pos hi]

theorem flatMap_set_perm {calls : List κ} {i : ℕ} {c : κ} (h : calls[i]? = some c) (f : κ → List α)
    {moved : List α} {c' : κ} (hmoved : (f c' ++ moved).Perm (f c)) :
    ((calls.set i c').flatMap f ++ moved).Perm (calls.flatMap f) := by
  classical
  obtain ⟨before, after, hcalls, -, hset⟩ := exists_split h
  rw [hset, hcalls, List.perm_iff_count]
  intro a
  have hcount := List.perm_iff_count.mp hmoved a
  simp only [List.flatMap_append, List.flatMap_cons, List.count_append] at hcount ⊢
  omega

theorem sum_map_set {calls : List κ} {i : ℕ} {c c' : κ} (h : calls[i]? = some c) (f : κ → ℕ)
    {n : ℕ} (hn : f c' = f c + n) : ((calls.set i c').map f).sum = (calls.map f).sum + n := by
  obtain ⟨before, after, hcalls, -, hset⟩ := exists_split h
  rw [hset, hcalls]
  simp only [List.map_append, List.map_cons, List.sum_append, List.sum_cons, hn]
  omega

def Alone (f : κ → List α) (calls : List κ) : Prop :=
  calls.Pairwise fun c d => f c = [] ∨ f d = []

theorem Alone.flatMap_eq {f : κ → List α} {before after : List κ} {c : κ}
    (h : Alone f (before ++ c :: after)) (hc : f c ≠ []) :
    (∀ c', (before ++ c' :: after).flatMap f = f c') := by
  obtain ⟨-, hafter, hbefore⟩ := List.pairwise_append.mp h
  have hleft : before.flatMap f = [] := List.flatMap_eq_nil_iff.mpr fun d hd =>
    (hbefore d hd c List.mem_cons_self).resolve_right hc
  have hright : after.flatMap f = [] := List.flatMap_eq_nil_iff.mpr fun d hd =>
    ((List.pairwise_cons.mp hafter).1 d hd).resolve_left hc
  intro c'
  rw [List.flatMap_append, List.flatMap_cons, hleft, hright, List.append_nil, List.nil_append]

theorem Alone.replace {f : κ → List α} {before after : List κ} {c c' : κ}
    (h : Alone f (before ++ c :: after)) (hc : f c ≠ []) : Alone f (before ++ c' :: after) := by
  obtain ⟨hb, hafter, hbefore⟩ := List.pairwise_append.mp h
  refine List.pairwise_append.mpr ⟨hb, List.pairwise_cons.mpr ⟨fun d hd => ?_,
    (List.pairwise_cons.mp hafter).2⟩, fun d hd d' hd' => ?_⟩
  · exact .inr (((List.pairwise_cons.mp hafter).1 d hd).resolve_left hc)
  · exact .inl ((hbefore d hd c List.mem_cons_self).resolve_right hc)

theorem Alone.append {f : κ → List α} {calls : List κ} (h : calls.flatMap f = []) (c : κ) :
    Alone f (calls ++ [c]) := by
  have hnil := List.flatMap_eq_nil_iff.mp h
  refine List.pairwise_append.mpr ⟨?_, List.pairwise_singleton _ _, fun d hd _ _ =>
    .inl (hnil d hd)⟩
  exact List.pairwise_of_forall_mem_list fun d hd _ _ => .inl (hnil d hd)

end RadiusModule.Library.Calls
