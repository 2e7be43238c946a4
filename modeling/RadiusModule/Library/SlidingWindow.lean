import Mathlib.Algebra.Order.Group.Defs
import Mathlib.Data.List.Basic
import Mathlib.Data.List.Count
import Mathlib.Order.Lattice

/-!
# A sliding window

An attempt is let in while the stamps of the last window are fewer than a limit. What it leaves
behind is stamped when it is over, so attempts that are under way are not counted yet. With at
most `k` of them at a time no window holds more than `max - 1 + k` stamps.
-/

namespace RadiusModule.Library.SlidingWindow

variable {τ : Type*}

structure Lane (τ : Type*) where
  stamps : List τ := []
  pending : ℕ := 0
  since : List τ := []

section steps
variable [LinearOrder τ]

def after (cutoff : τ) (stamps : List τ) : List τ := stamps.filter (cutoff ≤ ·)

theorem after_after {c d : τ} (h : c ≤ d) (stamps : List τ) :
    after d (after c stamps) = after d stamps := by
  rw [after, after, after, List.filter_filter]
  refine List.filter_congr fun t _ => ?_
  by_cases ht : d ≤ t
  · simp [ht, h.trans ht]
  · simp [ht]

theorem length_after_le {c d : τ} (h : c ≤ d) (stamps : List τ) :
    (after d stamps).length ≤ (after c stamps).length := by
  rw [← after_after h]
  exact List.length_filter_le _ _

variable [Sub τ]

def Lane.counted (l : Lane τ) (window now : τ) : List τ := after (now - window) l.stamps

def Lane.enter (l : Lane τ) (max : ℕ) (window now : τ) : Lane τ :=
  if (l.counted window now).length < max then { l with pending := l.pending + 1 } else l

def Lane.hit (l : Lane τ) (window now : τ) : Lane τ :=
  if 0 < l.pending then
    { stamps := l.counted window now ++ [now], pending := l.pending - 1, since := l.since ++ [now] }
  else l

def Lane.clear (l : Lane τ) : Lane τ :=
  if 0 < l.pending then { pending := l.pending - 1 } else l

def Lane.leave (l : Lane τ) : Lane τ :=
  if 0 < l.pending then { l with pending := l.pending - 1 } else l

def Lane.prune (l : Lane τ) (cutoff : τ) : Lane τ := { l with stamps := after cutoff l.stamps }

end steps

variable [AddCommGroup τ] [LinearOrder τ] [IsOrderedAddMonoid τ]

/-- The state of a lane with at most `k` attempts at a time, at a moment after all its stamps. -/
structure Bounded (max k : ℕ) (window : τ) (l : Lane τ) (now : τ) : Prop where
  kept : ∀ c, now - window ≤ c → after c l.stamps = after c l.since
  past : ∀ t ∈ l.since, t ≤ now
  room : (l.counted window now).length + l.pending ≤ max - 1 + k
  bound : ∀ t, (l.since.filter fun u => t ≤ u ∧ u ≤ t + window).length ≤ max - 1 + k

namespace Bounded

variable {max k : ℕ} {window now now' : τ} {l : Lane τ}

omit [IsOrderedAddMonoid τ] in
theorem empty (max k : ℕ) (window now : τ) : Bounded max k window ({} : Lane τ) now where
  kept _ _ := rfl
  past _ h := absurd h List.not_mem_nil
  room := Nat.zero_le _
  bound _ := Nat.zero_le _

theorem later (h : Bounded max k window l now) (hnow : now ≤ now') :
    Bounded max k window l now' where
  kept c hc := h.kept c ((sub_le_sub_right hnow _).trans hc)
  past t ht := (h.past t ht).trans hnow
  room := (Nat.add_le_add_right (length_after_le (sub_le_sub_right hnow _) _) _).trans h.room
  bound := h.bound

omit [IsOrderedAddMonoid τ] in
theorem enter (h : Bounded max k window l now) (hk : l.pending < k) :
    Bounded max k window (l.enter max window now) now := by
  unfold Lane.enter
  split_ifs with hroom
  · refine ⟨h.kept, h.past, ?_, h.bound⟩
    change (l.counted window now).length + (l.pending + 1) ≤ max - 1 + k
    omega
  · exact h

theorem hit (h : Bounded max k window l now) : Bounded max k window (l.hit window now) now := by
  unfold Lane.hit
  split_ifs with hpending
  · have hroom := h.room
    refine ⟨fun c hc => ?_, ?_, ?_, fun t => ?_⟩
    · change after c (l.counted window now ++ [now]) = after c (l.since ++ [now])
      have hold := (after_after hc l.stamps).trans (h.kept c hc)
      rw [after, List.filter_append, after, List.filter_append]
      exact congrArg (· ++ _) hold
    · intro t ht
      rcases List.mem_append.mp ht with ht | ht
      · exact h.past t ht
      · exact (List.mem_singleton.mp ht).le
    · have hsame := after_after (le_refl (now - window)) l.stamps
      change (after (now - window) (l.counted window now ++ [now])).length + (l.pending - 1) ≤ _
      rw [after, List.filter_append, List.length_append]
      have hlast := List.length_filter_le (now - window ≤ ·) [now]
      rw [List.length_singleton] at hlast
      change (after (now - window) (after (now - window) l.stamps)).length + _ + _ ≤ _
      rw [hsame]
      change (l.counted window now).length + _ + _ ≤ _
      omega
    · rw [List.filter_append, List.length_append]
      by_cases hin : t ≤ now ∧ now ≤ t + window
      · -- Every earlier stamp of this window is still counted now.
        have hcounted : (l.since.filter fun u => t ≤ u ∧ u ≤ t + window).length ≤
            (after (now - window) l.since).length := by
          refine (List.monotone_filter_right _ fun u hu => ?_).length_le
          have hu := of_decide_eq_true hu
          exact decide_eq_true ((sub_le_iff_le_add.mpr hin.2).trans hu.1)
        rw [← h.kept _ le_rfl] at hcounted
        have hlast := List.length_filter_le (fun u => decide (t ≤ u ∧ u ≤ t + window)) [now]
        rw [List.length_singleton] at hlast
        change (l.counted window now).length + _ ≤ _ at hroom
        change _ ≤ (l.counted window now).length at hcounted
        omega
      · rw [List.filter_cons_of_neg (by simpa using hin), List.filter_nil, List.length_nil]
        exact h.bound t
  · exact h

omit [IsOrderedAddMonoid τ] in
theorem clear (h : Bounded max k window l now) : Bounded max k window l.clear now := by
  unfold Lane.clear
  split_ifs with hpending
  · have hroom := h.room
    refine ⟨fun _ _ => rfl, fun _ hu => absurd hu List.not_mem_nil, ?_, fun _ => Nat.zero_le _⟩
    change 0 + (l.pending - 1) ≤ _
    omega
  · exact h

omit [IsOrderedAddMonoid τ] in
theorem leave (h : Bounded max k window l now) : Bounded max k window l.leave now := by
  unfold Lane.leave
  split_ifs with hpending
  · have hroom := h.room
    refine ⟨h.kept, h.past, ?_, h.bound⟩
    change (l.counted window now).length + (l.pending - 1) ≤ _
    omega
  · exact h

omit [IsOrderedAddMonoid τ] in
theorem prune (h : Bounded max k window l now) {cutoff : τ} (hcutoff : cutoff ≤ now - window) :
    Bounded max k window (l.prune cutoff) now := by
  refine ⟨fun c hc => (after_after (hcutoff.trans hc) _).trans (h.kept c hc), h.past, ?_, h.bound⟩
  change (after (now - window) (after cutoff l.stamps)).length + l.pending ≤ _
  rw [after_after hcutoff]
  exact h.room

end Bounded

/-- A lane with a full window: nothing is under way, and its stamps are those it filled up with. -/
structure Shut (window : τ) (full : List τ) (l : Lane τ) (now : τ) : Prop where
  idle : l.pending = 0
  kept : ∀ c, now - window ≤ c → after c l.stamps = after c full

omit [IsOrderedAddMonoid τ] in
theorem Bounded.shut {max : ℕ} {window now : τ} {l : Lane τ} (h : Bounded max 1 window l now)
    (hmax : 0 < max) (hfull : max ≤ (l.counted window now).length) :
    Shut window (l.counted window now) l now ∧ (l.counted window now).length = max := by
  have hroom := h.room
  exact ⟨⟨by omega, fun c hc => (after_after hc _).symm⟩, by omega⟩

namespace Shut

variable {max : ℕ} {window now now' : τ} {full : List τ} {l : Lane τ}

theorem later (h : Shut window full l now) (hnow : now ≤ now') : Shut window full l now' :=
  ⟨h.idle, fun c hc => h.kept c ((sub_le_sub_right hnow _).trans hc)⟩

omit [IsOrderedAddMonoid τ] in
theorem counted_eq (h : Shut window full l now) (hopen : ∀ t ∈ full, now - window ≤ t) :
    l.counted window now = full := by
  rw [Lane.counted, h.kept _ le_rfl, after, List.filter_eq_self]
  exact fun t ht => decide_eq_true (hopen t ht)

omit [IsOrderedAddMonoid τ] in
theorem length_counted_lt (h : Shut window full l now) {t : τ} (ht : t ∈ full)
    (hopen : t < now - window) : (l.counted window now).length < full.length := by
  rw [Lane.counted, h.kept _ le_rfl, after, List.length_filter_lt_length_iff_exists]
  exact ⟨t, ht, fun h => absurd (of_decide_eq_true h) hopen.not_ge⟩

omit [IsOrderedAddMonoid τ] in
theorem enter (h : Shut window full l now) (hopen : ∀ t ∈ full, now - window ≤ t)
    (hmax : max ≤ full.length) : l.enter max window now = l := by
  rw [Lane.enter, h.counted_eq hopen, if_neg hmax.not_gt]

omit [IsOrderedAddMonoid τ] in
theorem idle_eq (h : Shut window full l now) (now' : τ) :
    l.hit window now' = l ∧ l.clear = l ∧ l.leave = l := by
  have hidle : ¬0 < l.pending := by rw [h.idle]; exact lt_irrefl 0
  exact ⟨if_neg hidle, if_neg hidle, if_neg hidle⟩

omit [IsOrderedAddMonoid τ] in
theorem prune (h : Shut window full l now) {cutoff : τ} (hcutoff : cutoff ≤ now - window) :
    Shut window full (l.prune cutoff) now :=
  ⟨h.idle, fun c hc => (after_after (hcutoff.trans hc) _).trans (h.kept c hc)⟩

end Shut

end RadiusModule.Library.SlidingWindow
