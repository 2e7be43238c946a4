import Mathlib.Data.List.Basic
import Mathlib.Data.List.Nodup
import Mathlib.Tactic

/-!
# Rows under a key

Rewriting the rows under one key, and a run of such rewrites under different
keys: every row sees the one rewrite that is meant for it.
-/

namespace RadiusModule.Library.Keyed

variable {α κ : Type*} [DecidableEq κ] {key : α → κ}

def modify (key : α → κ) (k : κ) (f : α → α) (rows : List α) : List α :=
  rows.map fun r => if key r = k then f r else r

def get? (key : α → κ) (k : κ) (rows : List α) : Option α := rows.find? fun r => key r = k

theorem get?_mem {k : κ} {rows : List α} {r : α} (h : get? key k rows = some r) :
    r ∈ rows ∧ key r = k := by
  have hkey := List.find?_some h
  exact ⟨List.mem_of_find?_eq_some h, by simpa using hkey⟩

theorem get?_of_mem {rows : List α} (hkeys : (rows.map key).Nodup) {r : α} (hr : r ∈ rows) :
    get? key (key r) rows = some r := by
  cases hget : get? key (key r) rows with
  | none => exact absurd (List.find?_eq_none.mp hget r hr) (by simp)
  | some s =>
    obtain ⟨hs, hkey⟩ := get?_mem hget
    rw [List.inj_on_of_nodup_map hkeys hs hr hkey]

@[simp] theorem map_key_modify {f : α → α} (hf : ∀ r, key (f r) = key r) (k : κ)
    (rows : List α) : (modify key k f rows).map key = rows.map key := by
  rw [modify, List.map_map]
  refine List.map_congr_left fun r _ => ?_
  simp only [Function.comp_apply]
  split_ifs
  · exact hf r
  · rfl

theorem modify_comm {f g : α → α} (hf : ∀ r, key (f r) = key r) (hg : ∀ r, key (g r) = key r)
    {k l : κ} (h : k ≠ l) (rows : List α) :
    modify key k f (modify key l g rows) = modify key l g (modify key k f rows) := by
  simp only [modify, List.map_map]
  refine List.map_congr_left fun r _ => ?_
  by_cases hk : key r = k
  · have hl : key r ≠ l := fun hl => h (hk.symm.trans hl)
    simp [hk, hf, h]
  · by_cases hl : key r = l
    · simp [hl, hg, Ne.symm h]
    · simp [hk, hl]

theorem modify_modify_of_get? {f g : α → α} (hf : ∀ r, key (f r) = key r) {rows : List α}
    (hkeys : (rows.map key).Nodup) {r : α} {k : κ} (hget : get? key k rows = some r)
    (hback : g (f r) = r) : modify key k g (modify key k f rows) = rows := by
  obtain ⟨hr, rfl⟩ := get?_mem hget
  rw [modify, modify, List.map_map]
  refine (List.map_congr_left fun s hs => ?_).trans (List.map_id rows)
  by_cases hkey : key s = key r
  · obtain rfl := List.inj_on_of_nodup_map hkeys hs hr hkey
    simp [hf, hback]
  · simp [hkey]

theorem modify_of_get?_none {k : κ} {rows : List α} (h : get? key k rows = none) (f : α → α) :
    modify key k f rows = rows := by
  refine (List.map_congr_left fun r hr => ?_).trans (List.map_id rows)
  have hne : key r ≠ k := by simpa using List.find?_eq_none.mp h r hr
  rw [if_neg hne]
  rfl

theorem map_eq_self_iff (f : α → α) (l : List α) : l.map f = l ↔ ∀ x ∈ l, f x = x := by
  conv_lhs => rhs; rw [← List.map_id l]
  exact List.map_inj_left

def resolve {υ : Type*} (key : α → κ) (k : υ → κ) (f : υ → α → α) (us : List υ) (r : α) : α :=
  match us.find? fun u => k u = key r with
  | some u => f u r
  | none => r

theorem foldl_modify {υ : Type*} (k : υ → κ) (f : υ → α → α) (hf : ∀ u r, key (f u r) = key r)
    {us : List υ} (hus : (us.map k).Nodup) (rows : List α) :
    us.foldl (fun rows u => modify key (k u) (f u) rows) rows =
      rows.map (resolve key k f us) := by
  induction us generalizing rows with
  | nil => exact (List.map_id rows).symm
  | cons u us ih =>
    obtain ⟨hnew, hus⟩ := List.nodup_cons.mp hus
    rw [List.foldl_cons, ih hus, modify, List.map_map]
    refine List.map_congr_left fun r _ => ?_
    simp only [Function.comp_apply, resolve, List.find?_cons]
    by_cases hr : key r = k u
    · have hnone : us.find? (fun v => k v = k u) = none := by
        rw [List.find?_eq_none]
        intro v hv hkey
        exact hnew (List.mem_map.mpr ⟨v, hv, by simpa using hkey⟩)
      simp [hr, hf, hnone]
    · simp [hr, Ne.symm hr]

theorem resolve_of_mem {υ : Type*} {k : υ → κ} {f : υ → α → α} {us : List υ}
    (hus : (us.map k).Nodup) {u : υ} (hu : u ∈ us) {r : α} (hr : k u = key r) :
    resolve key k f us r = f u r := by
  cases hfind : us.find? fun v => k v = key r with
  | none => exact absurd (List.find?_eq_none.mp hfind u hu) (by simp [hr])
  | some v =>
    have hv : k v = key r := by simpa using List.find?_some hfind
    have hsame := List.inj_on_of_nodup_map hus (List.mem_of_find?_eq_some hfind) hu
      (hv.trans hr.symm)
    rw [resolve, hfind, hsame]

theorem resolve_of_not_mem {υ : Type*} {k : υ → κ} {f : υ → α → α} {us : List υ} {r : α}
    (h : ∀ u ∈ us, k u ≠ key r) : resolve key k f us r = r := by
  have hfind : us.find? (fun u => k u = key r) = none := by
    rw [List.find?_eq_none]
    intro u hu
    simpa using h u hu
  rw [resolve, hfind]

end RadiusModule.Library.Keyed
