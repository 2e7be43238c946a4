import RadiusModule.Library.Wire

/-!
# Type, length, value

Items of one type byte, one length byte that counts itself and the type, and a
value. Reading takes items off the front for as long as a whole one is there.
-/

namespace RadiusModule.Library.Tlv

abbrev Item := ℕ × Bytes

def write (item : Item) : Bytes :=
  UInt8.ofNat item.1 :: UInt8.ofNat (2 + item.2.length) :: item.2

def Fits (item : Item) : Prop := item.1 < 256 ∧ item.2.length ≤ 253

instance : DecidablePred Fits := fun _ => inferInstanceAs (Decidable (_ ∧ _))

def items : Bytes → List Item
  | t :: len :: rest =>
    if len.toNat < 2 ∨ rest.length + 2 < len.toNat then []
    else (t.toNat, rest.take (len.toNat - 2)) :: items (rest.drop (len.toNat - 2))
  | _ => []
termination_by data => data.length
decreasing_by
  simp only [List.length_drop, List.length_cons]
  omega

theorem items_cons {t len : UInt8} {rest : Bytes} (h : 2 ≤ len.toNat)
    (h' : len.toNat ≤ rest.length + 2) : items (t :: len :: rest) =
      (t.toNat, rest.take (len.toNat - 2)) :: items (rest.drop (len.toNat - 2)) := by
  rw [items, if_neg (by omega)]

theorem items_stop {t len : UInt8} {rest : Bytes}
    (h : len.toNat < 2 ∨ rest.length + 2 < len.toNat) : items (t :: len :: rest) = [] := by
  rw [items, if_pos h]

theorem items_short {data : Bytes} (h : data.length < 2) : items data = [] := by
  match data, h with
  | [], _ => rw [items]; simp
  | [b], _ => rw [items]; simp

@[simp] theorem items_nil : items [] = [] := items_short (by simp)

theorem items_write {item : Item} (h : Fits item) (rest : Bytes) :
    items (write item ++ rest) = item :: items rest := by
  obtain ⟨t, v⟩ := item
  have ht : (UInt8.ofNat t).toNat = t := by
    rw [UInt8.toNat_ofNat']
    exact Nat.mod_eq_of_lt h.1
  have hlen : (UInt8.ofNat (2 + v.length)).toNat = 2 + v.length := by
    have := h.2
    rw [UInt8.toNat_ofNat']
    exact Nat.mod_eq_of_lt (by dsimp only at this; omega)
  have hread := @items_cons (UInt8.ofNat t) (UInt8.ofNat (2 + v.length)) (v ++ rest) (by omega)
    (by rw [hlen, List.length_append]; omega)
  rw [ht, hlen, Nat.add_sub_cancel_left, List.take_left, List.drop_left] at hread
  exact hread

theorem items_flatMap_write {written : List Item} (h : ∀ item ∈ written, Fits item)
    (rest : Bytes) : items (written.flatMap write ++ rest) = written ++ items rest := by
  induction written with
  | nil => rfl
  | cons item written ih =>
    rw [List.flatMap_cons, List.append_assoc, items_write (h item List.mem_cons_self),
      ih fun i hi => h i (List.mem_cons_of_mem _ hi), List.cons_append]

theorem items_induct {P : Bytes → Prop} (hshort : ∀ data, data.length < 2 → P data)
    (hstop : ∀ t len rest, UInt8.toNat len < 2 ∨ rest.length + 2 < len.toNat →
      P (t :: len :: rest))
    (hitem : ∀ t len rest, 2 ≤ UInt8.toNat len → len.toNat ≤ rest.length + 2 →
      P (rest.drop (len.toNat - 2)) → P (t :: len :: rest)) (data : Bytes) : P data := by
  induction hn : data.length using Nat.strong_induction_on generalizing data with
  | h n ih =>
    match data with
    | [] => exact hshort _ (by simp)
    | [b] => exact hshort _ (by simp)
    | t :: len :: rest =>
      by_cases hbad : len.toNat < 2 ∨ rest.length + 2 < len.toNat
      · exact hstop t len rest hbad
      · refine hitem t len rest (by omega) (by omega) (ih _ ?_ _ rfl)
        simp only [List.length_drop, List.length_cons] at hn ⊢
        omega

theorem flatMap_write_items_prefix (data : Bytes) : (items data).flatMap write <+: data := by
  induction data using items_induct with
  | hshort data h =>
    rw [items_short h]
    exact List.nil_prefix
  | hstop t len rest h =>
    rw [items_stop h]
    exact List.nil_prefix
  | hitem t len rest h h' ih =>
    have hlength : 2 + (rest.take (len.toNat - 2)).length = len.toNat := by
      rw [List.length_take]
      omega
    have hwrite : write (t.toNat, rest.take (len.toNat - 2)) =
        t :: len :: rest.take (len.toNat - 2) := by
      rw [write, hlength]
      simp
    rw [items_cons h h', List.flatMap_cons, hwrite, List.cons_append, List.cons_append,
      List.cons_prefix_cons, List.cons_prefix_cons]
    refine ⟨rfl, rfl, ?_⟩
    conv_rhs => rw [← List.take_append_drop (len.toNat - 2) rest]
    exact (List.prefix_append_right_inj _).mpr ih

theorem fits_of_mem_items (data : Bytes) : ∀ item ∈ items data, Fits item := by
  induction data using items_induct with
  | hshort data h => simp [items_short h]
  | hstop t len rest h => simp [items_stop h]
  | hitem t len rest h h' ih =>
    rw [items_cons h h']
    rintro item (_ | ⟨_, hitem⟩)
    · have hlen := len.toNat_lt
      refine ⟨t.toNat_lt, ?_⟩
      simp only [List.length_take]
      omega
    · exact ih item hitem

theorem length_items_le (data : Bytes) : 2 * (items data).length ≤ data.length := by
  induction data using items_induct with
  | hshort data h => simp [items_short h]
  | hstop t len rest h => simp [items_stop h]
  | hitem t len rest h h' ih =>
    rw [items_cons h h']
    simp only [List.length_cons, List.length_drop] at ih ⊢
    omega

end RadiusModule.Library.Tlv
