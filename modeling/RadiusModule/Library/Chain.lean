import RadiusModule.Library.Wire

/-!
# Block chaining

Bytes are taken block by block and combined with a pad that depends on the
block of cipher text before. `pad` gives it; the last block may be short.
-/

namespace RadiusModule.Library.Chain

open Wire

def xorBytes (a b : Bytes) : Bytes := List.zipWith (· ^^^ ·) a b

variable (size : ℕ) (pad : Bytes → Bytes)

def hide (hsize : 0 < size) (prev plain : Bytes) : Bytes :=
  if plain = [] then []
  else
    let block := xorBytes (plain.take size) (pad prev)
    block ++ hide hsize block (plain.drop size)
termination_by plain.length
decreasing_by
  rename_i hplain
  have := List.length_pos_of_ne_nil hplain
  simp only [List.length_drop]
  omega

def reveal (hsize : 0 < size) (prev cipher : Bytes) : Bytes :=
  if cipher = [] then []
  else
    xorBytes (cipher.take size) (pad prev) ++
      reveal hsize (cipher.take size) (cipher.drop size)
termination_by cipher.length
decreasing_by
  rename_i hcipher
  have := List.length_pos_of_ne_nil hcipher
  simp only [List.length_drop]
  omega

variable {size pad}

theorem length_xorBytes (a b : Bytes) : (xorBytes a b).length = min a.length b.length :=
  List.length_zipWith

theorem xorBytes_cancel {a b : Bytes} (h : a.length ≤ b.length) :
    xorBytes (xorBytes a b) b = a := by
  induction a generalizing b with
  | nil => rfl
  | cons x a ih =>
    cases b with
    | nil => simp at h
    | cons y b =>
      have htail := ih (b := b) (by simpa using h)
      simp only [xorBytes, List.zipWith_cons_cons] at htail ⊢
      rw [htail, UInt8.xor_assoc, UInt8.xor_self, UInt8.xor_zero]

theorem length_reveal (hsize : 0 < size) (hpad : ∀ b, (pad b).length = size) (prev cipher : Bytes) :
    (reveal size pad hsize prev cipher).length = cipher.length := by
  induction hn : cipher.length using Nat.strong_induction_on generalizing prev cipher with
  | h n ih =>
    rw [reveal]
    split_ifs with hnil
    · rw [← hn, hnil]
    · have hpos := List.length_pos_of_ne_nil hnil
      rw [List.length_append, length_xorBytes, hpad, List.length_take,
        ih (cipher.drop size).length (by rw [List.length_drop]; omega) _ _ rfl, List.length_drop]
      omega

theorem reveal_hide (hsize : 0 < size) (hpad : ∀ b, (pad b).length = size) (prev plain : Bytes) :
    reveal size pad hsize prev (hide size pad hsize prev plain) = plain := by
  induction hn : plain.length using Nat.strong_induction_on generalizing prev plain with
  | h n ih =>
    rw [hide]
    split_ifs with hnil
    · rw [reveal, if_pos rfl, hnil]
    have hpos := List.length_pos_of_ne_nil hnil
    set block := xorBytes (plain.take size) (pad prev) with hblock
    have hlength : block.length = min size plain.length := by
      rw [hblock, length_xorBytes, hpad, List.length_take]
      omega
    have hopen : xorBytes block (pad prev) = plain.take size :=
      xorBytes_cancel (by rw [hpad, List.length_take]; omega)
    -- a short block is the last one
    have hsplit : (block ++ hide size pad hsize block (plain.drop size)).take size = block ∧
        (block ++ hide size pad hsize block (plain.drop size)).drop size =
          hide size pad hsize block (plain.drop size) := by
      rcases Nat.lt_or_ge plain.length size with hshort | hlong
      · rw [List.drop_of_length_le hshort.le, hide, if_pos rfl, List.append_nil]
        exact ⟨List.take_of_length_le (by omega), List.drop_of_length_le (by omega)⟩
      · have hfull : block.length = size := by omega
        exact ⟨List.take_left' hfull, List.drop_left' hfull⟩
    have hne : block ++ hide size pad hsize block (plain.drop size) ≠ [] := by
      intro hempty
      rw [(List.append_eq_nil_iff.mp hempty).1, List.length_nil] at hlength
      omega
    rw [reveal, if_neg hne, hsplit.1, hsplit.2, hopen,
      ih (plain.drop size).length (by rw [List.length_drop]; omega) _ _ rfl, List.take_append_drop]

theorem length_hide (hsize : 0 < size) (hpad : ∀ b, (pad b).length = size) (prev plain : Bytes) :
    (hide size pad hsize prev plain).length = plain.length := by
  have hlength := length_reveal hsize hpad prev (hide size pad hsize prev plain)
  rw [reveal_hide hsize hpad] at hlength
  exact hlength.symm

end RadiusModule.Library.Chain
