import Mathlib.Data.Finset.Card
import Mathlib.Logic.Relation

/-!
# Seats

A set of occupied seats shrinks freely and grows by one holder at a time, who
is admitted only while the others leave a seat. However the two interleave,
no more holders sit than there are seats.
-/

namespace RadiusModule.Library.Seats

variable {α : Type*} [DecidableEq α] {limit : ℕ} {s t : Finset α}

inductive Step (limit : ℕ) (s t : Finset α) : Prop
  | leave (h : t ⊆ s)
  | enter (k : α) (room : (s.erase k).card < limit) (h : t ⊆ insert k s)

abbrev Steps (limit : ℕ) : Finset α → Finset α → Prop := Relation.ReflTransGen (Step limit)

theorem Step.card_le (h : Step limit s t) (hs : s.card ≤ limit) : t.card ≤ limit := by
  cases h with
  | leave h => exact (Finset.card_le_card h).trans hs
  | enter k room h =>
    calc t.card ≤ (insert k (s.erase k)).card :=
          Finset.card_le_card (h.trans (Finset.insert_subset (Finset.mem_insert_self _ _)
            (Finset.insert_erase_subset k s)))
      _ ≤ (s.erase k).card + 1 := Finset.card_insert_le _ _
      _ ≤ limit := room

theorem Steps.card_le (h : Steps limit s t) (hs : s.card ≤ limit) : t.card ≤ limit := by
  induction h with
  | refl => exact hs
  | tail _ hstep ih => exact hstep.card_le ih

theorem Step.of_cover {others : List α} {k : α} (hcover : ∀ a ∈ s, a ≠ k → a ∈ others)
    (hroom : others.length < limit) (h : t ⊆ insert k s) : Step limit s t := by
  refine .enter k (lt_of_le_of_lt ?_ hroom) h
  refine (Finset.card_le_card fun a ha => ?_).trans (List.toFinset_card_le others)
  have hk := Finset.mem_erase.mp ha
  exact List.mem_toFinset.mpr (hcover a hk.2 hk.1)

end RadiusModule.Library.Seats
