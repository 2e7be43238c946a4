import Mathlib.Data.List.Find
import RadiusModule.Library.Dict

/-!
# Names that are handed out in order

Things ask for names one after another. A thing takes the name it asks for,
unless that name was first taken by a thing with another tag: then it takes a
longer name of its own, which nobody checks. Who a name belongs to, and which
name a thing takes, depend on the list alone.
-/

namespace RadiusModule.Library

structure Naming (ι ν β : Type*) where
  raw : ι → ν
  apart : ι → ν
  tag : ι → β
  size : ν → ℕ
  size_lt : ∀ x, size (raw x) < size (apart x)

namespace Naming

variable {ι ν β : Type*} [DecidableEq ν] [DecidableEq β] (m : Naming ι ν β)

def pick (seen : Dict ν β) (x : ι) : ν :=
  if (seen.get? (m.raw x)).any fun tag => tag ≠ m.tag x then m.apart x else m.raw x

def take (seen : Dict ν β) (x : ι) : Dict ν β := seen.putNew (m.pick seen x) (m.tag x)

def assign : Dict ν β → List ι → List ν
  | _, [] => []
  | seen, x :: xs => m.pick seen x :: assign (m.take seen x) xs

/-- The tag that a name belongs to: that of the first thing that asks for it, or takes it because
the name it asks for belongs to another tag. -/
def owner (xs : List ι) (n : ν) : Option β :=
  (xs.find? fun x => m.raw x = n ||
    if _h : m.apart x = n then owner xs (m.raw x) ≠ some (m.tag x) else false).map m.tag
termination_by m.size n
decreasing_by
  have hlt := m.size_lt x
  rwa [‹m.apart x = n›] at hlt

def settled (xs : List ι) (x : ι) : ν :=
  if m.owner xs (m.raw x) = some (m.tag x) then m.raw x else m.apart x

def takes (xs : List ι) (n : ν) (x : ι) : Bool :=
  m.raw x = n || (m.apart x = n && m.owner xs (m.raw x) ≠ some (m.tag x))

theorem owner_eq (xs : List ι) (n : ν) : m.owner xs n = (xs.find? (m.takes xs n)).map m.tag := by
  rw [owner]
  congr 2
  funext x
  by_cases h : m.apart x = n <;> simp [takes, h]

theorem takes_raw (xs : List ι) (x : ι) : m.takes xs (m.raw x) x = true := by
  simp [takes]

theorem isSome_owner {xs : List ι} {x : ι} (h : x ∈ xs) : (m.owner xs (m.raw x)).isSome = true := by
  rw [owner_eq, Option.isSome_map, List.find?_isSome]
  exact ⟨x, h, m.takes_raw xs x⟩

theorem owner_append {xs : List ι} {n : ν} (h : (m.owner xs n).isSome = true) (ys : List ι) :
    m.owner (xs ++ ys) n = m.owner xs n := by
  -- on the size of the name: the owners of the names asked for decide
  induction hn : m.size n using Nat.strong_induction_on generalizing n with
  | _ k ih =>
    have htakes : ∀ x ∈ xs, m.takes (xs ++ ys) n x = m.takes xs n x := by
      intro x hx
      by_cases hapart : m.apart x = n
      · have hlt : m.size (m.raw x) < k := by
          rw [← hn, ← hapart]
          exact m.size_lt x
        rw [takes, takes, ih _ hlt (m.isSome_owner hx) rfl]
      · simp [takes, hapart]
    rw [owner_eq, Option.isSome_map] at h
    rw [owner_eq, owner_eq, List.find?_append]
    rw [List.find?_congr htakes, Option.or_of_isSome h]

theorem takes_append {xs : List ι} {x : ι} (hx : x ∈ xs) (ys : List ι) (n : ν) :
    m.takes (xs ++ ys) n x = m.takes xs n x := by
  rw [takes, takes, m.owner_append (m.isSome_owner hx)]

theorem owner_concat (xs : List ι) (x : ι) (n : ν) : m.owner (xs ++ [x]) n =
    (m.owner xs n).or (if m.takes (xs ++ [x]) n x then some (m.tag x) else none) := by
  have hold : xs.find? (m.takes (xs ++ [x]) n) = xs.find? (m.takes xs n) :=
    List.find?_congr fun y hy => m.takes_append hy [x] n
  rw [owner_eq, owner_eq, List.find?_append, hold, Option.map_or, List.find?_singleton]
  split_ifs <;> rfl

theorem pick_eq {seen : Dict ν β} {xs : List ι} (h : ∀ n, seen.get? n = m.owner xs n) (x : ι) :
    m.pick seen x = m.settled (xs ++ [x]) x := by
  rw [pick, settled, h, owner_concat, if_pos (m.takes_raw _ x)]
  cases m.owner xs (m.raw x) with
  | none => simp
  | some tag => simp

theorem get?_take {seen : Dict ν β} {xs : List ι} (h : ∀ n, seen.get? n = m.owner xs n) (x : ι)
    (n : ν) : (m.take seen x).get? n = m.owner (xs ++ [x]) n := by
  rw [take, Dict.get?_putNew, h, owner_concat, m.pick_eq h]
  cases hn : m.owner xs n with
  | some tag => rfl
  | none =>
    have htakes : m.settled (xs ++ [x]) x = n ↔ m.takes (xs ++ [x]) n x = true := by
      by_cases howner : m.owner (xs ++ [x]) (m.raw x) = some (m.tag x)
      · rw [settled, if_pos howner]
        simp [takes, howner]
      · have hraw : m.raw x ≠ n := by
          rintro rfl
          rw [owner_concat, hn, if_pos (m.takes_raw _ x)] at howner
          exact howner rfl
        rw [settled, if_neg howner]
        simp [takes, howner, hraw]
    simp only [htakes]

theorem settled_append {xs : List ι} {x : ι} (h : x ∈ xs) (ys : List ι) :
    m.settled (xs ++ ys) x = m.settled xs x := by
  rw [settled, settled, m.owner_append (m.isSome_owner h)]

theorem assign_eq {seen : Dict ν β} {pre : List ι} (h : ∀ n, seen.get? n = m.owner pre n)
    (xs : List ι) : m.assign seen xs = xs.map (m.settled (pre ++ xs)) := by
  induction xs generalizing seen pre with
  | nil => rfl
  | cons x xs ih =>
    have hrest := ih (m.get?_take h x)
    rw [List.append_assoc, List.singleton_append] at hrest
    have hsplit : pre ++ x :: xs = (pre ++ [x]) ++ xs := by simp
    rw [assign, List.map_cons, hrest, m.pick_eq h, hsplit,
      m.settled_append (List.mem_append_right pre List.mem_cons_self)]

end Naming
end RadiusModule.Library
