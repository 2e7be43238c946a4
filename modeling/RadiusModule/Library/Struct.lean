import RadiusModule.Library.Tlv

/-!
# Packed fields and a walk by index

Fields of one, two and four bytes as `struct` packs them, reads of a byte that
fail outside the data, and the walk over items that keeps an index.
-/

namespace RadiusModule.Library.Struct

open Wire

inductive Error
  | struct
  | value
  | index
deriving DecidableEq, Repr

def packField (width n : ℕ) : Except Error Bytes :=
  match toBytes? width n with
  | some bytes => .ok bytes
  | none => .error .struct

/-- `struct.pack` of big-endian fields, each with its width in bytes. -/
def pack (fields : List (ℕ × ℕ)) : Except Error Bytes := do
  let parts ← fields.mapM fun f => packField f.1 f.2
  pure parts.flatten

/-- `bytes([...])`. -/
def byteList (ns : List ℕ) : Except Error Bytes :=
  if ∀ n ∈ ns, n < 256 then .ok (ns.map UInt8.ofNat) else .error .value

def byteAt (data : Bytes) (i : ℕ) : Except Error ℕ :=
  match data[i]? with
  | some b => .ok b.toNat
  | none => .error .index

def slice (data : Bytes) (start stop : ℕ) : Bytes := (data.take stop).drop start

theorem packField_eq {width n : ℕ} (h : n < 256 ^ width) :
    packField width n = .ok (bigEndian width n) := by
  rw [packField, toBytes?, if_pos h]

theorem pack_eq {fields : List (ℕ × ℕ)} (h : ∀ f ∈ fields, f.2 < 256 ^ f.1) :
    pack fields = .ok (fields.flatMap fun f => bigEndian f.1 f.2) := by
  rw [pack, mapM_eq_ok fun f hf => packField_eq (h f hf), List.flatMap_def]
  rfl

theorem byteList_eq {ns : List ℕ} (h : ∀ n ∈ ns, n < 256) :
    byteList ns = .ok (ns.map UInt8.ofNat) := if_pos h

theorem byteAt_eq {data : Bytes} {i : ℕ} (h : i < data.length) :
    byteAt data i = .ok data[i].toNat := by
  rw [byteAt, List.getElem?_eq_getElem h]

theorem slice_eq (data : Bytes) (start stop : ℕ) :
    slice data start stop = (data.drop start).take (stop - start) := List.drop_take

end RadiusModule.Library.Struct
