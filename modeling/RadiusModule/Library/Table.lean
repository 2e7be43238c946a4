import Mathlib.Data.List.Basic
import Mathlib.Data.List.Pairwise
import Mathlib.Tactic

/-!
# Tables with an automatic integer key

A table keeps its rows in key order and remembers the next free key. `insert`
appends a row under that key, `update` rewrites the rows a predicate selects.
The order and the freshness of the next key are fields of the structure, so
"the last matching row" is the row with the largest key.
-/

namespace RadiusModule.Library

variable {α : Type*} {key : α → ℕ}

structure Table (α : Type*) (key : α → ℕ) where
  rows : List α
  next : ℕ
  sorted : rows.Pairwise fun a b => key a < key b
  below : ∀ r ∈ rows, key r < next

namespace Table

theorem eq_of_key_eq (t : Table α key) {a b : α} (ha : a ∈ t.rows) (hb : b ∈ t.rows)
    (h : key a = key b) : a = b := by
  have hn : (t.rows.map key).Nodup := List.pairwise_map.mpr (t.sorted.imp fun hab => hab.ne)
  exact List.inj_on_of_nodup_map hn ha hb h

def empty : Table α key := ⟨[], 1, List.Pairwise.nil, by simp⟩

def insert (t : Table α key) (mk : ℕ → α) (hmk : ∀ n, key (mk n) = n) : Table α key where
  rows := t.rows ++ [mk t.next]
  next := t.next + 1
  sorted := by
    refine List.pairwise_append.mpr ⟨t.sorted, List.pairwise_singleton _ _, ?_⟩
    intro a ha b hb
    rw [List.mem_singleton.mp hb, hmk]
    exact t.below a ha
  below := by
    intro r hr
    rcases List.mem_append.mp hr with hr | hr
    · exact (t.below r hr).trans (Nat.lt_succ_self _)
    · rw [List.mem_singleton.mp hr, hmk]
      exact Nat.lt_succ_self _

def update (t : Table α key) (p : α → Bool) (f : α → α) (hf : ∀ r, key (f r) = key r) :
    Table α key where
  rows := t.rows.map fun r => if p r then f r else r
  next := t.next
  sorted := by
    refine List.pairwise_map.mpr (t.sorted.imp ?_)
    intro a b hab
    split_ifs <;> simpa only [hf] using hab
  below := by
    intro r hr
    obtain ⟨q, hq, rfl⟩ := List.mem_map.mp hr
    have := t.below q hq
    split_ifs
    · rwa [hf]
    · exact this

def delete (t : Table α key) (p : α → Bool) : Table α key where
  rows := t.rows.filter fun r => !p r
  next := t.next
  sorted := t.sorted.filter _
  below r hr := t.below r (List.mem_filter.mp hr).1

def select (t : Table α key) (p : α → Bool) : List α := t.rows.filter p

def last? (t : Table α key) (p : α → Bool) : Option α := (t.select p).getLast?

def count (t : Table α key) (p : α → Bool) : ℕ := (t.select p).length

@[simp] theorem rows_empty : (empty : Table α key).rows = [] := rfl

@[simp] theorem rows_insert (t : Table α key) (mk : ℕ → α) (hmk) :
    (t.insert mk hmk).rows = t.rows ++ [mk t.next] := rfl

@[simp] theorem rows_update (t : Table α key) (p : α → Bool) (f : α → α) (hf) :
    (t.update p f hf).rows = t.rows.map fun r => if p r then f r else r := rfl

@[simp] theorem select_empty (p : α → Bool) : (empty : Table α key).select p = [] := rfl

theorem select_insert (t : Table α key) (mk : ℕ → α) (hmk) (p : α → Bool) :
    (t.insert mk hmk).select p = t.select p ++ if p (mk t.next) then [mk t.next] else [] := by
  simp [select, List.filter_append, List.filter_cons]

theorem select_update (t : Table α key) (p : α → Bool) (f : α → α) (hf) (q : α → Bool)
    (hq : ∀ r, q (f r) = q r) :
    (t.update p f hf).select q = (t.select q).map fun r => if p r then f r else r := by
  simp only [select, rows_update, List.filter_map]
  congr 1
  refine List.filter_congr fun r _ => ?_
  simp only [Function.comp]
  split_ifs
  · exact hq r
  · rfl

theorem select_update_of_disjoint (t : Table α key) (p : α → Bool) (f : α → α) (hf)
    (q : α → Bool) (hq : ∀ r, q (f r) = q r) (hd : ∀ r, q r = true → p r = false) :
    (t.update p f hf).select q = t.select q := by
  rw [select_update t p f hf q hq]
  refine (List.map_congr_left fun r hr => ?_).trans (List.map_id _)
  simp [hd r (List.mem_filter.mp hr).2]

theorem update_eq_self (t : Table α key) (p : α → Bool) (f : α → α) (hf)
    (h : ∀ r ∈ t.rows, p r = false) : t.update p f hf = t := by
  have hrows : (t.update p f hf).rows = t.rows := by
    refine (List.map_congr_left fun r hr => ?_).trans (List.map_id _)
    simp [h r hr]
  cases t
  simp_all [update]

theorem select_update_eq_iff (t : Table α key) (p : α → Bool) (f : α → α) (hf) (q : α → Bool)
    (hp : ∀ r, p r = true → q r = true) (hq : ∀ r, q (f r) = false) :
    (t.update p f hf).select q = t.select q ↔ ∀ r ∈ t.rows, p r = false := by
  constructor
  · intro hsame r hr
    by_contra hpr
    have hpr : p r = true := by simpa using hpr
    have hin : r ∈ (t.update p f hf).select q :=
      hsame ▸ List.mem_filter.mpr ⟨hr, hp r hpr⟩
    obtain ⟨hrows, hqr⟩ := List.mem_filter.mp hin
    obtain ⟨s, -, hs⟩ := List.mem_map.mp hrows
    split_ifs at hs with hps
    · rw [← hs, hq] at hqr
      cases hqr
    · exact hps (hs ▸ hpr)
  · intro hnone
    rw [update_eq_self t p f hf hnone]

theorem select_delete (t : Table α key) (p q : α → Bool) :
    (t.delete p).select q = (t.select q).filter fun r => !p r := by
  simp only [select, delete, List.filter_filter, Bool.and_comm]

theorem select_delete_of_disjoint (t : Table α key) (p q : α → Bool)
    (hd : ∀ r ∈ t.select q, p r = false) : (t.delete p).select q = t.select q := by
  rw [select_delete, List.filter_eq_self]
  intro r hr
  rw [hd r hr]
  rfl

theorem mem_select {t : Table α key} {p : α → Bool} {r : α} :
    r ∈ t.select p ↔ r ∈ t.rows ∧ p r = true := List.mem_filter

theorem last?_eq_none {t : Table α key} {p : α → Bool} :
    t.last? p = none ↔ ∀ r ∈ t.rows, p r = false := by
  simp [last?, select]

theorem mem_of_last? {t : Table α key} {p : α → Bool} {r : α} (h : t.last? p = some r) :
    r ∈ t.rows ∧ p r = true := mem_select.mp (List.mem_of_getLast? h)

theorem filter_key_eq (t : Table α key) {r : α} (hr : r ∈ t.rows) :
    (t.rows.filter fun q => key q = key r) = [r] := by
  have hnodup : (t.rows.filter fun q => key q = key r).Nodup :=
    (t.sorted.imp fun hab hsame => hab.ne (congrArg key hsame)).filter _
  refine List.perm_singleton.mp ((List.perm_ext_iff_of_nodup hnodup (List.nodup_singleton r)).mpr
    fun q => ?_)
  rw [List.mem_filter, List.mem_singleton, decide_eq_true_eq]
  constructor
  · rintro ⟨hq, hkey⟩
    exact t.eq_of_key_eq hq hr hkey
  · rintro rfl
    exact ⟨hr, rfl⟩

theorem map_key_split (t : Table α key) {r : α} (hr : r ∈ t.rows) (f : α → α) :
    ∃ before after, t.rows = before ++ r :: after ∧
      (t.rows.map fun x => if key x = key r then f x else x) = before ++ f r :: after := by
  obtain ⟨before, after, hrows⟩ := List.append_of_mem hr
  have hsorted := t.sorted
  rw [hrows, List.pairwise_append, List.pairwise_cons] at hsorted
  have hother : ∀ l : List α, (∀ x ∈ l, key x ≠ key r) →
      (l.map fun x => if key x = key r then f x else x) = l := fun l hl =>
    (List.map_congr_left fun x hx => if_neg (hl x hx)).trans (List.map_id' l)
  have hbefore := hother before fun x hx => (hsorted.2.2 x hx r List.mem_cons_self).ne
  have hafter := hother after fun x hx => (hsorted.2.1.1 x hx).ne'
  refine ⟨before, after, hrows, ?_⟩
  rw [hrows, List.map_append, List.map_cons, hbefore, hafter, if_pos rfl]

theorem countP_map_key (t : Table α key) {r : α} (hr : r ∈ t.rows) (f : α → α) (q : α → Bool) :
    (t.rows.map fun x => if key x = key r then f x else x).countP q + (q r).toNat =
      t.rows.countP q + (q (f r)).toNat := by
  obtain ⟨before, after, hrows, hmap⟩ := t.map_key_split hr f
  rw [hmap, hrows]
  simp only [List.countP_append, List.countP_cons]
  cases q r <;> cases q (f r) <;> simp <;> omega

def get? (t : Table α key) (k : ℕ) : Option α := t.rows.find? fun r => key r = k

theorem get?_eq_some {t : Table α key} {k : ℕ} {r : α} :
    t.get? k = some r ↔ r ∈ t.rows ∧ key r = k := by
  constructor
  · intro h
    exact ⟨List.mem_of_find?_eq_some h, by simpa using List.find?_some h⟩
  · rintro ⟨hr, rfl⟩
    cases hget : t.get? (key r) with
    | none => simpa using List.find?_eq_none.mp hget r hr
    | some q =>
      have hq : key q = key r := by simpa using List.find?_some hget
      rw [t.eq_of_key_eq (List.mem_of_find?_eq_some hget) hr hq]

theorem get?_next (t : Table α key) : t.get? t.next = none := by
  refine List.find?_eq_none.mpr fun r hr => ?_
  have hlt := t.below r hr
  simp only [decide_eq_true_eq]
  omega

theorem get?_insert (t : Table α key) (mk : ℕ → α) (hmk) (k : ℕ) :
    (t.insert mk hmk).get? k = if k = t.next then some (mk t.next) else t.get? k := by
  have hfind : (t.insert mk hmk).get? k = (t.get? k).or
      (if key (mk t.next) = k then some (mk t.next) else none) := by
    simp only [get?, rows_insert, List.find?_append, List.find?_cons, List.find?_nil]
    split_ifs with hkey
    · simp only [hkey, decide_true]
    · simp only [hkey, decide_false]
  rw [hfind, hmk]
  by_cases hk : k = t.next
  · subst hk
    simp [get?_next]
  · simp [hk, Ne.symm hk]

theorem get?_insert_of_some {t : Table α key} {mk : ℕ → α} {hmk : ∀ n, key (mk n) = n} {k : ℕ}
    {r : α} (h : t.get? k = some r) : (t.insert mk hmk).get? k = some r := by
  rw [get?_insert, if_neg, h]
  rintro rfl
  rw [get?_next] at h
  cases h

theorem get?_update (t : Table α key) (p : α → Bool) (f : α → α) (hf) (k : ℕ) :
    (t.update p f hf).get? k = (t.get? k).map fun r => if p r then f r else r := by
  have hkey : ((fun r => decide (key r = k)) ∘ fun r => if p r then f r else r) =
      fun r => decide (key r = k) := by
    funext r
    simp only [Function.comp]
    split_ifs <;> simp [hf]
  simp only [get?, rows_update, List.find?_map, hkey]

/-- `ORDER BY key DESC LIMIT n` -/
def newest (t : Table α key) (p : α → Bool) (n : ℕ) : List α := (t.select p).reverse.take n

def newer (t : Table α key) (p : α → Bool) (r : α) : ℕ := t.count fun q => p q && key r < key q

theorem mem_select_of_mem_newest {t : Table α key} {p : α → Bool} {n : ℕ} {r : α}
    (h : r ∈ t.newest p n) : r ∈ t.select p :=
  List.mem_reverse.mp (List.mem_of_mem_take h)

theorem mem_newest {t : Table α key} {p : α → Bool} {n : ℕ} {r : α} (hr : r ∈ t.select p) :
    r ∈ t.newest p n ↔ t.newer p r < n := by
  obtain ⟨hrow, hp⟩ := mem_select.mp hr
  obtain ⟨before, after, hrows⟩ := List.append_of_mem hrow
  have hsorted := t.sorted
  rw [hrows, List.pairwise_append, List.pairwise_cons] at hsorted
  have hbefore : ∀ q ∈ before, key q < key r := fun q hq => hsorted.2.2 q hq r List.mem_cons_self
  have hafter : ∀ q ∈ after, key r < key q := hsorted.2.1.1
  have hselect : t.select p = before.filter p ++ r :: after.filter p := by
    rw [select, hrows, List.filter_append, List.filter_cons_of_pos hp]
  -- the newer rows are those that stand behind it
  have hnewer : t.newer p r = (after.filter p).length := by
    have hnone : before.filter (fun q => p q && key r < key q) = [] := by
      refine List.filter_eq_nil_iff.mpr fun q hq => ?_
      simp [(hbefore q hq).le]
    have hall : after.filter (fun q => p q && key r < key q) = after.filter p :=
      List.filter_congr fun q hq => by simp [hafter q hq]
    rw [newer, count, select, hrows, List.filter_append, hnone, List.filter_cons_of_neg (by simp),
      hall, List.nil_append]
  have hother : ∀ (l : List α) (m : ℕ), (∀ q ∈ l, key q ≠ key r) → r ∉ l.reverse.take m :=
    fun l m hl hmem => hl r (List.mem_reverse.mp (List.mem_of_mem_take hmem)) rfl
  have hbefore' : ∀ q ∈ before.filter p, key q ≠ key r := fun q hq =>
    (hbefore q (List.mem_filter.mp hq).1).ne
  have hafter' : ∀ q ∈ after.filter p, key q ≠ key r := fun q hq =>
    (hafter q (List.mem_filter.mp hq).1).ne'
  rw [newest, hselect, hnewer, List.reverse_append, List.reverse_cons, List.append_assoc,
    List.take_append, List.mem_append, List.length_reverse]
  constructor
  · rintro (h | h)
    · exact absurd h (hother _ _ hafter')
    · by_contra hle
      rw [Nat.sub_eq_zero_of_le (not_lt.mp hle), List.take_zero] at h
      cases h
  · intro hlt
    obtain ⟨m, hm⟩ : ∃ m, n - (after.filter p).length = m + 1 := ⟨_, (Nat.succ_pred_eq_of_pos
      (Nat.sub_pos_of_lt hlt)).symm⟩
    rw [hm, List.singleton_append, List.take_succ_cons]
    exact .inr List.mem_cons_self

end Table

structure Numbered (α : Type*) (key : α → ℕ) extends Table α key where
  pos : ∀ r ∈ rows, 0 < key r
  next_pos : 0 < next

namespace Numbered

def empty : Numbered α key := ⟨.empty, by simp [Table.empty], Nat.one_pos⟩

def insert (t : Numbered α key) (mk : ℕ → α) (hmk : ∀ n, key (mk n) = n) : Numbered α key where
  toTable := t.toTable.insert mk hmk
  pos r hr := by
    rcases List.mem_append.mp hr with hr | hr
    · exact t.pos r hr
    · rw [List.mem_singleton.mp hr, hmk]
      exact t.next_pos
  next_pos := Nat.succ_pos _

def update (t : Numbered α key) (p : α → Bool) (f : α → α) (hf : ∀ r, key (f r) = key r) :
    Numbered α key where
  toTable := t.toTable.update p f hf
  pos r hr := by
    obtain ⟨q, hq, rfl⟩ := List.mem_map.mp hr
    have hpos := t.pos q hq
    split_ifs
    · rwa [hf]
    · exact hpos
  next_pos := t.next_pos

@[simp] theorem rows_insert (t : Numbered α key) (mk : ℕ → α) (hmk) :
    (t.insert mk hmk).rows = t.rows ++ [mk t.next] := rfl

@[simp] theorem rows_update (t : Numbered α key) (p : α → Bool) (f : α → α) (hf) :
    (t.update p f hf).rows = t.rows.map fun r => if p r then f r else r := rfl

end Numbered

variable {β : Type*} {col : α → β}

structure Indexed (α : Type*) {β : Type*} (key : α → ℕ) (col : α → β) extends Table α key where
  unique : rows.Pairwise fun a b => col a ≠ col b

namespace Indexed

def empty : Indexed α key col := ⟨.empty, List.Pairwise.nil⟩

theorem eq_of_col_eq (t : Indexed α key col) {a b : α} (ha : a ∈ t.rows) (hb : b ∈ t.rows)
    (h : col a = col b) : a = b :=
  List.inj_on_of_nodup_map (List.pairwise_map.mpr t.unique) ha hb h

variable [DecidableEq β]

def insert? (t : Indexed α key col) (mk : ℕ → α) (hmk : ∀ n, key (mk n) = n) :
    Option (Indexed α key col) :=
  if h : ∀ r ∈ t.rows, col r ≠ col (mk t.next) then
    some ⟨t.toTable.insert mk hmk, List.pairwise_append.mpr
      ⟨t.unique, List.pairwise_singleton _ _, fun a ha b hb => by
        rw [List.mem_singleton.mp hb]
        exact h a ha⟩⟩
  else none

def update (t : Indexed α key col) (p : α → Bool) (f : α → α) (hf : ∀ r, key (f r) = key r)
    (hcol : ∀ r, col (f r) = col r) : Indexed α key col where
  toTable := t.toTable.update p f hf
  unique := by
    refine List.pairwise_map.mpr (t.unique.imp fun {a b} hab => ?_)
    split_ifs <;> simpa only [hcol] using hab

theorem insert?_eq_some {t u : Indexed α key col} {mk : ℕ → α} {hmk} :
    t.insert? mk hmk = some u ↔
      (∀ r ∈ t.rows, col r ≠ col (mk t.next)) ∧ u.toTable = t.toTable.insert mk hmk := by
  rcases u with ⟨u, hu⟩
  constructor
  · intro h
    simp only [insert?] at h
    split_ifs at h with hfree
    exact ⟨hfree, by cases h; rfl⟩
  · rintro ⟨hfree, rfl⟩
    exact dif_pos hfree

omit [DecidableEq β] in
@[simp] theorem rows_update (t : Indexed α key col) (p : α → Bool) (f : α → α) (hf hcol) :
    (t.update p f hf hcol).rows = t.rows.map fun r => if p r then f r else r := rfl

end Indexed

end RadiusModule.Library
