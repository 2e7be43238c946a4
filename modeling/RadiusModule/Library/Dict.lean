import Mathlib.Data.List.Basic
import Mathlib.Tactic

/-!
# Dictionaries

Pairs in the order in which their keys came first. A key that is put again
keeps its place.
-/

namespace RadiusModule.Library

variable {α β : Type*} [DecidableEq α]

abbrev Dict (α β : Type*) := List (α × β)

namespace Dict

def get? : Dict α β → α → Option β
  | [], _ => none
  | (k, v) :: d, key => if k = key then some v else get? d key

def put : Dict α β → α → β → Dict α β
  | [], key, value => [(key, value)]
  | (k, v) :: d, key, value => if k = key then (k, value) :: d else (k, v) :: put d key value

def ofPairs (pairs : List (α × β)) : Dict α β := pairs.foldl (fun d kv => d.put kv.1 kv.2) []

theorem get?_put (d : Dict α β) (key k : α) (value : β) :
    (d.put key value).get? k = if key = k then some value else d.get? k := by
  induction d with
  | nil => rfl
  | cons kv d ih =>
    obtain ⟨k', v⟩ := kv
    by_cases hk : k' = key
    · subst hk
      simp only [put, if_true, get?]
      split_ifs <;> rfl
    · simp only [put, if_neg hk, get?, ih]
      split_ifs with h₁ h₂
      · exact absurd (h₁.trans h₂.symm) hk
      all_goals rfl

theorem mem_of_get? {d : Dict α β} {key : α} {value : β} (h : d.get? key = some value) :
    (key, value) ∈ d := by
  induction d with
  | nil => simp [get?] at h
  | cons kv d ih =>
    obtain ⟨k', v⟩ := kv
    rw [get?] at h
    split_ifs at h with hk
    · rw [hk, Option.some_inj.mp h]
      exact List.mem_cons_self
    · exact List.mem_cons_of_mem _ (ih h)

theorem keys_put (d : Dict α β) (key : α) (value : β) :
    (d.put key value).map Prod.fst =
      if key ∈ d.map Prod.fst then d.map Prod.fst else d.map Prod.fst ++ [key] := by
  induction d with
  | nil => simp [put]
  | cons kv d ih =>
    obtain ⟨k, v⟩ := kv
    by_cases hk : k = key
    · simp [put, hk]
    · simp only [put, if_neg hk, List.map_cons, ih, List.mem_cons, Ne.symm hk, false_or]
      split_ifs <;> rfl

theorem nodup_put {d : Dict α β} (h : (d.map Prod.fst).Nodup) (key : α) (value : β) :
    ((d.put key value).map Prod.fst).Nodup := by
  rw [keys_put]
  split_ifs with hmem
  · exact h
  · exact h.append (List.nodup_singleton key) (by simpa using hmem)

theorem get?_of_mem {d : Dict α β} (h : (d.map Prod.fst).Nodup) {key : α} {value : β}
    (hmem : (key, value) ∈ d) : d.get? key = some value := by
  induction d with
  | nil => cases hmem
  | cons kv d ih =>
    obtain ⟨k, v⟩ := kv
    obtain ⟨hk, hd⟩ := List.nodup_cons.mp h
    rcases List.mem_cons.mp hmem with heq | hmem
    · obtain ⟨rfl, rfl⟩ := Prod.mk.inj heq
      exact if_pos rfl
    · have hne : k ≠ key := by
        rintro rfl
        exact hk (List.mem_map.mpr ⟨_, hmem, rfl⟩)
      rw [get?, if_neg hne, ih hd hmem]

theorem get?_foldl_put (d : Dict α β) (pairs : List (α × β)) (key : α) :
    (pairs.foldl (fun d kv => d.put kv.1 kv.2) d).get? key =
      ((pairs.filter fun kv => kv.1 = key).getLast?.map Prod.snd).or (d.get? key) := by
  induction pairs using List.reverseRecOn with
  | nil => simp
  | append_singleton pairs kv ih =>
    rw [List.foldl_append, List.foldl_cons, List.foldl_nil, get?_put, ih, List.filter_append]
    by_cases hk : kv.1 = key <;> simp [hk]

theorem get?_ofPairs (pairs : List (α × β)) (key : α) :
    (ofPairs pairs).get? key =
      (pairs.filter fun kv => kv.1 = key).getLast?.map Prod.snd := by
  rw [ofPairs, get?_foldl_put]
  exact Option.or_none

/-- `setdefault` -/
def putNew (d : Dict α β) (key : α) (value : β) : Dict α β :=
  if (d.get? key).isSome then d else d.put key value

theorem get?_putNew (d : Dict α β) (key k : α) (value : β) :
    (d.putNew key value).get? k = (d.get? k).or (if key = k then some value else none) := by
  unfold putNew
  by_cases hk : key = k
  · subst hk
    cases hget : d.get? key with
    | none => simp [get?_put]
    | some v => simp [hget]
  · rw [if_neg hk, Option.or_none]
    split_ifs
    · rfl
    · rw [get?_put, if_neg hk]

def keep (d : Dict α β) (kept : α → Bool) : Dict α β := d.filter fun kv => kept kv.1

theorem get?_keep {kept : α → Bool} {key : α} (h : kept key = true) (d : Dict α β) :
    (d.keep kept).get? key = d.get? key := by
  induction d with
  | nil => rfl
  | cons kv d ih =>
    obtain ⟨k, v⟩ := kv
    rw [keep, List.filter_cons]
    by_cases hk : k = key
    · subst hk
      simp [h, get?]
    · split_ifs
      · simp only [get?, if_neg hk]
        exact ih
      · simp only [get?, if_neg hk]
        exact ih

theorem keep_put {kept : α → Bool} {key : α} (h : kept key = false) (d : Dict α β) (value : β) :
    (d.put key value).keep kept = d.keep kept := by
  induction d with
  | nil => simp [put, keep, h]
  | cons kv d ih =>
    obtain ⟨k, v⟩ := kv
    by_cases hk : k = key
    · subst hk
      simp [put, keep, h]
    · simp only [put, if_neg hk, keep, List.filter_cons]
      split_ifs
      · exact congrArg _ ih
      · exact ih

omit [DecidableEq α] in
theorem keep_keep (kept : α → Bool) (d : Dict α β) : (d.keep kept).keep kept = d.keep kept := by
  simp [keep, List.filter_filter]

theorem keep_put_of_kept {kept : α → Bool} {key : α} (h : kept key = true) (d : Dict α β)
    (value : β) : (d.put key value).keep kept = (d.keep kept).put key value := by
  induction d with
  | nil => simp [put, keep, h]
  | cons kv d ih =>
    obtain ⟨k, v⟩ := kv
    by_cases hk : k = key
    · subst hk
      simp [put, keep, h]
    · simp only [put, if_neg hk, keep, List.filter_cons]
      split_ifs
      · simp only [put, if_neg hk]
        exact congrArg _ ih
      · exact ih

theorem put_put (d : Dict α β) (key : α) (v w : β) : (d.put key v).put key w = d.put key w := by
  induction d with
  | nil => simp [put]
  | cons kv d ih =>
    obtain ⟨k, u⟩ := kv
    by_cases hk : k = key <;> simp [put, hk, ih]

/-- `setdefault(key, []).append(x)` -/
def push (d : Dict α (List β)) (key : α) (x : β) : Dict α (List β) :=
  d.put key ((d.get? key).getD [] ++ [x])

def group (pairs : List (α × β)) : Dict α (List β) :=
  pairs.foldl (fun d kv => d.push kv.1 kv.2) []

def mapValues {γ : Type*} (f : β → γ) (d : Dict α β) : Dict α γ := d.map fun kv => (kv.1, f kv.2)

theorem get?_mapValues {γ : Type*} (f : β → γ) (d : Dict α β) (key : α) :
    (d.mapValues f).get? key = (d.get? key).map f := by
  induction d with
  | nil => rfl
  | cons kv d ih =>
    obtain ⟨k, v⟩ := kv
    simp only [mapValues, List.map_cons, get?]
    split_ifs
    · rfl
    · exact ih

theorem get?_group (pairs : List (α × β)) (key : α) :
    (group pairs).get? key =
      let members := (pairs.filter fun kv => kv.1 = key).map Prod.snd
      if members = [] then none else some members := by
  induction pairs using List.reverseRecOn with
  | nil => rfl
  | append_singleton pairs kv ih =>
    rw [group, List.foldl_append, ← group, List.foldl_cons, List.foldl_nil, push, get?_put]
    by_cases hk : kv.1 = key
    · subst hk
      have hlast : (pairs ++ [kv]).filter (fun kv' => kv'.1 = kv.1) =
          (pairs.filter fun kv' => kv'.1 = kv.1) ++ [kv] := by simp
      simp only [hlast, ih, if_true, List.map_append, List.map_cons, List.map_nil,
        List.append_ne_nil_of_right_ne_nil _ (List.cons_ne_nil _ _), if_false]
      split_ifs with hnil
      · rw [hnil]
        rfl
      · rfl
    · have hlast : (pairs ++ [kv]).filter (fun kv' => kv'.1 = key) =
          pairs.filter fun kv' => kv'.1 = key := by simp [hk]
      rw [if_neg hk, hlast, ih]

section edits
variable {d e : Dict α β}

theorem get?_keep_of_not {kept : α → Bool} {key : α} (h : kept key = false) (d : Dict α β) :
    (d.keep kept).get? key = none := by
  cases hget : (d.keep kept).get? key with
  | none => rfl
  | some v =>
    have hkept := (List.mem_filter.mp (mem_of_get? hget)).2
    exact absurd (h.symm.trans hkept) Bool.false_ne_true

theorem get?_foldl_put_of_nodup (d : Dict α β) (he : (e.map Prod.fst).Nodup) (k : α) :
    (e.foldl (fun d kv => d.put kv.1 kv.2) d).get? k = (get? e k).or (d.get? k) := by
  induction e generalizing d with
  | nil => rfl
  | cons kv e ih =>
    obtain ⟨key, v⟩ := kv
    obtain ⟨hkey, he⟩ := List.nodup_cons.mp he
    rw [List.foldl_cons, ih _ he, get?_put, get?]
    by_cases hk : key = k
    · have hnone : get? e k = none := by
        cases hget : get? e k with
        | none => rfl
        | some u => exact absurd (List.mem_map.mpr ⟨_, mem_of_get? hget, hk.symm⟩) hkey
      rw [if_pos hk, if_pos hk, hnone]
      rfl
    · rw [if_neg hk, if_neg hk]

def assign (d : Dict α β) (key : α) : Option β → Dict α β
  | none => d.keep fun k => k ≠ key
  | some v => d.put key v

theorem get?_assign (d : Dict α β) (key k : α) (v : Option β) :
    (d.assign key v).get? k = if key = k then v else d.get? k := by
  cases v with
  | none =>
    rw [assign]
    split_ifs with hk
    · exact get?_keep_of_not (by simp [hk]) d
    · exact get?_keep (by simpa using Ne.symm hk) d
  | some v => exact get?_put d key k v

omit [DecidableEq α] in
theorem nodup_keep (hd : (d.map Prod.fst).Nodup) (kept : α → Bool) :
    ((d.keep kept).map Prod.fst).Nodup :=
  hd.sublist (List.filter_sublist.map _)

theorem nodup_assign (hd : (d.map Prod.fst).Nodup) (key : α) (v : Option β) :
    ((d.assign key v).map Prod.fst).Nodup := by
  cases v with
  | none =>
    rw [assign]
    exact nodup_keep hd _
  | some v => exact nodup_put hd key v

def assignAll (d : Dict α β) (sets : List (α × Option β)) : Dict α β :=
  sets.foldl (fun d s => d.assign s.1 s.2) d

theorem nodup_assignAll (hd : (d.map Prod.fst).Nodup) (sets : List (α × Option β)) :
    ((d.assignAll sets).map Prod.fst).Nodup := by
  induction sets generalizing d with
  | nil => exact hd
  | cons s sets ih => exact ih (nodup_assign hd s.1 s.2)

theorem get?_assignAll_of_not_mem {sets : List (α × Option β)} {k : α}
    (hk : k ∉ sets.map Prod.fst) (d : Dict α β) : (d.assignAll sets).get? k = d.get? k := by
  induction sets generalizing d with
  | nil => rfl
  | cons s sets ih =>
    obtain ⟨hne, hk⟩ := not_or.mp (mt List.mem_cons.mpr hk)
    rw [assignAll, List.foldl_cons, ← assignAll, ih hk, get?_assign, if_neg (Ne.symm hne)]

theorem get?_assignAll_of_mem {sets : List (α × Option β)} (hsets : (sets.map Prod.fst).Nodup)
    {k : α} {v : Option β} (hmem : (k, v) ∈ sets) (d : Dict α β) :
    (d.assignAll sets).get? k = v := by
  induction sets generalizing d with
  | nil => cases hmem
  | cons s sets ih =>
    obtain ⟨hs, hsets⟩ := List.nodup_cons.mp hsets
    obtain rfl | hmem := List.mem_cons.mp hmem
    · rw [assignAll, List.foldl_cons, ← assignAll, get?_assignAll_of_not_mem hs, get?_assign,
        if_pos rfl]
    · exact ih hsets hmem _

end edits

end Dict
end RadiusModule.Library
