import Mathlib.Algebra.Order.Group.Defs
import Mathlib.Data.List.Basic
import Mathlib.Data.List.Count
import Mathlib.Order.Lattice

/-!
# Rows that expire

A table with a primary key, a value and a time of expiry. A row still counts at
the time it expires. A row can be taken when none counts, given back by its owner,
read once, and removed when its time is over. What was taken and not given back
is recorded beside the table: as long as a lease counts its row is there, so of the
leases on a key one counts at most.
-/

namespace RadiusModule.Library.Expiring

variable {κ α τ : Type*} [DecidableEq κ]

abbrev Rows (κ α τ : Type*) := κ → Option (α × τ)

namespace Rows

/-- `INSERT … ON CONFLICT DO UPDATE` -/
def put (rows : Rows κ α τ) (k : κ) (a : α) (expires : τ) : Rows κ α τ :=
  Function.update rows k (some (a, expires))

def delete (rows : Rows κ α τ) (k : κ) : Rows κ α τ := Function.update rows k none

/-- `INSERT OR IGNORE`, and whether a row was written. -/
def insertOrIgnore (rows : Rows κ α τ) (k : κ) (a : α) (expires : τ) : Bool × Rows κ α τ :=
  if (rows k).isNone then (true, rows.put k a expires) else (false, rows)

variable [LinearOrder τ]

/-- `DELETE … WHERE key = ? AND expires_at < ?` -/
def evict (rows : Rows κ α τ) (k : κ) (now : τ) : Rows κ α τ :=
  match rows k with
  | some (_, expires) => if expires < now then rows.delete k else rows
  | none => rows

def take (rows : Rows κ α τ) (k : κ) (a : α) (now expires : τ) : Bool × Rows κ α τ :=
  (rows.evict k now).insertOrIgnore k a expires

def get (rows : Rows κ α τ) (k : κ) (now : τ) : Option α :=
  match rows k with
  | some (a, expires) => if now ≤ expires then some a else none
  | none => none

def pop (rows : Rows κ α τ) (k : κ) (now : τ) : Option α × Rows κ α τ :=
  (rows.get k now, rows.delete k)

/-- `DELETE … WHERE expires_at < ?` -/
def prune (rows : Rows κ α τ) (now : τ) : Rows κ α τ := fun k =>
  match rows k with
  | some (a, expires) => if expires < now then none else some (a, expires)
  | none => none

omit [LinearOrder τ] in
/-- `DELETE … WHERE key = ? AND owner = ?` -/
def giveBack [DecidableEq α] (rows : Rows κ α τ) (k : κ) (a : α) : Rows κ α τ :=
  match rows k with
  | some (owner, _) => if owner = a then rows.delete k else rows
  | none => rows

omit [DecidableEq κ] in
theorem get_of_none {rows : Rows κ α τ} {k : κ} (hrow : rows k = none) (now : τ) :
    rows.get k now = none := by
  rw [get, hrow]

omit [DecidableEq κ] in
theorem get_of_some {rows : Rows κ α τ} {k : κ} {a : α} {expires : τ}
    (hrow : rows k = some (a, expires)) (now : τ) :
    rows.get k now = if now ≤ expires then some a else none := by
  rw [get, hrow]

theorem take_eq (rows : Rows κ α τ) (k : κ) (a : α) (now expires : τ) :
    rows.take k a now expires =
      if (rows.get k now).isSome then (false, rows) else (true, rows.put k a expires) := by
  rw [take, evict, get]
  cases hrow : rows k with
  | none => simp only [insertOrIgnore, hrow]; rfl
  | some row =>
    obtain ⟨owner, old⟩ := row
    by_cases hold : old < now
    · have hput : (rows.delete k).put k a expires = rows.put k a expires :=
        Function.update_idem _ _ _
      simp only [if_pos hold, if_neg (not_le.mpr hold), insertOrIgnore, delete,
        Function.update_self] at hput ⊢
      simp only [Option.isNone_none, if_true, hput]
      rfl
    · simp only [if_neg hold, if_pos (not_lt.mp hold), insertOrIgnore, hrow]
      rfl

end Rows

structure Lease (κ α τ : Type*) where
  key : κ
  owner : α
  expires : τ

variable [LinearOrder τ]

def live (leases : List (Lease κ α τ)) (k : κ) (t : τ) : List (Lease κ α τ) :=
  leases.filter fun l => l.key = k ∧ t ≤ l.expires

structure Backed (rows : Rows κ α τ) (leases : List (Lease κ α τ)) (t : τ) : Prop where
  row : ∀ l ∈ leases, t ≤ l.expires → rows l.key = some (l.owner, l.expires)
  alone : leases.Pairwise fun l l' => l.key = l'.key → ¬(t ≤ l.expires ∧ t ≤ l'.expires)

namespace Backed

variable {rows : Rows κ α τ} {leases : List (Lease κ α τ)} {t t' now : τ}

omit [DecidableEq κ] in
theorem nil (rows : Rows κ α τ) (t : τ) : Backed rows [] t :=
  ⟨fun _ hl => absurd hl List.not_mem_nil, List.Pairwise.nil⟩

omit [DecidableEq κ] in
theorem mono (h : Backed rows leases t) (htime : t ≤ t') : Backed rows leases t' where
  row l hl hcount := h.row l hl (htime.trans hcount)
  alone := h.alone.imp fun hpair hkey hcount =>
    hpair hkey ⟨htime.trans hcount.1, htime.trans hcount.2⟩

theorem length_live_le (h : Backed rows leases t) (k : κ) : (live leases k t).length ≤ 1 := by
  have hpair : (live leases k t).Pairwise fun _ _ => False := by
    have hlive : (live leases k t).Pairwise fun l l' =>
        l.key = l'.key → ¬(t ≤ l.expires ∧ t ≤ l'.expires) := h.alone.sublist List.filter_sublist
    refine hlive.imp_of_mem ?_
    intro l l' hl hl' hnot
    have hin : l.key = k ∧ t ≤ l.expires := of_decide_eq_true (List.mem_filter.mp hl).2
    have hin' : l'.key = k ∧ t ≤ l'.expires := of_decide_eq_true (List.mem_filter.mp hl').2
    exact hnot (hin.1.trans hin'.1.symm) ⟨hin.2, hin'.2⟩
  match hlive : live leases k t with
  | [] => exact Nat.zero_le _
  | [l] => exact Nat.le_refl 1
  | l :: l' :: rest =>
    rw [hlive] at hpair
    exact ((List.pairwise_cons.mp hpair).1 l' List.mem_cons_self).elim

theorem take_true (h : Backed rows leases t) (hnow : now ≤ t) {k : κ} {a : α} {expires : τ}
    (htake : (rows.take k a now expires).1 = true) :
    Backed (rows.take k a now expires).2 (leases ++ [⟨k, a, expires⟩]) t := by
  rw [Rows.take_eq] at htake ⊢
  have hfree : (rows.get k now).isSome ≠ true := by
    intro hsome
    rw [if_pos hsome] at htake
    exact Bool.false_ne_true htake
  rw [if_neg hfree]
  have hdead : ∀ l ∈ leases, l.key = k → ¬ t ≤ l.expires := by
    rintro l hl rfl hcount
    have hrow := h.row l hl hcount
    refine hfree ?_
    rw [Rows.get, hrow]
    simp only [if_pos (hnow.trans hcount), Option.isSome_some]
  constructor
  · intro l hl hcount
    rcases List.mem_append.mp hl with hl | hl
    · have hne : l.key ≠ k := fun hkey => hdead l hl hkey hcount
      exact (Function.update_of_ne hne _ _).trans (h.row l hl hcount)
    · rw [List.mem_singleton.mp hl]
      exact Function.update_self _ _ _
  · refine List.pairwise_append.mpr ⟨h.alone, List.pairwise_singleton _ _, ?_⟩
    intro l hl l' hl' hkey hcount
    rw [List.mem_singleton.mp hl'] at hkey
    exact hdead l hl hkey hcount.1

omit [DecidableEq κ] in
theorem of_agree (h : Backed rows leases t) {rows' : Rows κ α τ}
    (hrows : ∀ k a expires, t ≤ expires → rows k = some (a, expires) → rows' k = some (a, expires)) :
    Backed rows' leases t :=
  ⟨fun l hl hcount => hrows _ _ _ hcount (h.row l hl hcount), h.alone⟩

theorem take_false (h : Backed rows leases t) {k : κ} {a : α} {expires : τ}
    (htake : (rows.take k a now expires).1 = false) :
    Backed (rows.take k a now expires).2 leases t := by
  rw [Rows.take_eq] at htake ⊢
  split_ifs at htake ⊢ with hheld
  exact h

omit [DecidableEq κ] in
theorem prune (h : Backed rows leases t) (hnow : now ≤ t) : Backed (rows.prune now) leases t := by
  refine h.of_agree fun k a expires hcount hrow => ?_
  rw [Rows.prune, hrow]
  exact if_neg (not_lt.mpr (hnow.trans hcount))

theorem giveBack [DecidableEq α] (h : Backed rows leases t) (k : κ) (a : α) :
    Backed (rows.giveBack k a) (leases.filter fun l => ¬(l.key = k ∧ l.owner = a)) t := by
  refine ⟨fun l hl hcount => ?_, h.alone.sublist List.filter_sublist⟩
  obtain ⟨hl, hother⟩ := List.mem_filter.mp hl
  have hrow := h.row l hl hcount
  have hother : ¬(l.key = k ∧ l.owner = a) := of_decide_eq_true hother
  cases hk : rows k with
  | none => simpa only [Rows.giveBack, hk] using hrow
  | some row =>
    by_cases howner : row.1 = a
    · have hkey : l.key ≠ k := by
        rintro rfl
        rw [hk, Option.some.injEq] at hrow
        exact hother ⟨rfl, by rw [← howner, hrow]⟩
      simp only [Rows.giveBack, hk, if_pos howner]
      exact (Function.update_of_ne hkey _ _).trans hrow
    · simpa only [Rows.giveBack, hk, if_neg howner] using hrow

end Backed

/-- Values handed out one by one, of those stored: what was handed out and what the row
holds was stored, each as often. -/
def Spent [DecidableEq α] (rows : Rows κ α τ) (stored handed : List (κ × α)) : Prop :=
  ∀ k a, handed.count (k, a) + (if (rows k).map Prod.fst = some a then 1 else 0) ≤
    stored.count (k, a)

namespace Spent

variable [DecidableEq α] {rows : Rows κ α τ} {stored handed : List (κ × α)}

omit [LinearOrder τ] in
theorem put (h : Spent rows stored handed) (k : κ) (a : α) (expires : τ) :
    Spent (rows.put k a expires) (stored ++ [(k, a)]) handed := by
  intro k' a'
  have hold := h k' a'
  rw [List.count_append, Rows.put]
  by_cases hk : k' = k
  · subst hk
    rw [Function.update_self, Option.map_some]
    by_cases ha : a = a'
    · subst ha
      rw [if_pos rfl, List.count_singleton_self]
      omega
    · rw [if_neg (by simpa using ha)]
      omega
  · rw [Function.update_of_ne hk]
    omega

omit [LinearOrder τ] in
theorem of_subset (h : Spent rows stored handed) {rows' : Rows κ α τ}
    (hrows : ∀ k row, rows' k = some row → rows k = some row) : Spent rows' stored handed := by
  intro k a
  have hold := h k a
  cases hrow : rows' k with
  | none => rw [Option.map_none, if_neg (by simp)]; omega
  | some row =>
    rw [hrows k row hrow] at hold
    exact hold

omit [LinearOrder τ] in
theorem delete (h : Spent rows stored handed) (k : κ) : Spent (rows.delete k) stored handed := by
  refine h.of_subset fun k' row hrow => ?_
  by_cases hk : k' = k
  · subst hk
    rw [Rows.delete, Function.update_self] at hrow
    exact absurd hrow (by simp)
  · rwa [Rows.delete, Function.update_of_ne hk] at hrow

theorem prune (h : Spent rows stored handed) (now : τ) :
    Spent (rows.prune now) stored handed := by
  refine h.of_subset fun k row hrow => ?_
  rw [Rows.prune] at hrow
  split at hrow
  · next a expires hk =>
    split_ifs at hrow
    rw [hk, hrow]
  · exact absurd hrow (by simp)

theorem take (h : Spent rows stored handed) (k : κ) (a : α) (now expires : τ) :
    Spent (rows.take k a now expires).2
      (if (rows.take k a now expires).1 then stored ++ [(k, a)] else stored) handed := by
  rw [Rows.take_eq]
  split_ifs with hheld htrue htrue
  · exact absurd htrue (by simp)
  · exact h
  · exact h.put k a expires
  · exact absurd rfl htrue

theorem pop (h : Spent rows stored handed) (k : κ) (now : τ) :
    Spent (rows.pop k now).2 stored
      (handed ++ ((rows.pop k now).1.map fun a => (k, a)).toList) := by
  intro k' a'
  have hold := h k' a'
  have hgone := (h.delete k) k' a'
  rw [List.count_append]
  change List.count (k', a') handed + List.count (k', a')
    (((rows.get k now).map fun a => (k, a)).toList) + _ ≤ _
  cases hget : rows.get k now with
  | none => exact hgone
  | some a =>
    have hrow : (rows k).map Prod.fst = some a := by
      rw [Rows.get] at hget
      split at hget
      · next b expires hk =>
        split_ifs at hget
        rw [hk, Option.map_some, Option.some.inj hget]
      · exact absurd hget (by simp)
    rw [Option.map_some, Option.toList_some]
    by_cases hsame : (k, a) = (k', a')
    · obtain ⟨rfl, rfl⟩ := Prod.mk.inj hsame
      rw [if_pos hrow] at hold
      rw [List.count_singleton_self, Rows.pop]
      simp only [Rows.delete, Function.update_self, Option.map_none]
      rw [if_neg (by simp)]
      omega
    · rw [List.count_singleton, if_neg (by simpa using hsame)]
      exact hgone

end Spent

end RadiusModule.Library.Expiring
