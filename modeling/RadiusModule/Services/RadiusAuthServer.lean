import RadiusModule.Library.Struct

/-!
# RADIUS packets of the authentication server

A packet is a code, an identifier, its length, sixteen bytes of authenticator
and attributes. `md5` is the digest that the response is signed with.
-/

namespace RadiusModule.RadiusAuthServer

open Library Library.Wire Library.Struct

abbrev Digest := { digest : Bytes // digest.length = 16 }

def attrVendorSpecific : ℕ := 26

def parseAttrsFrom (data : Bytes) (i : ℕ) (attrs : List (ℕ × Bytes)) :
    Except Error (List (ℕ × Bytes)) :=
  if i + 2 ≤ data.length then do
    let t ← byteAt data i
    let length ← byteAt data (i + 1)
    if length < 2 ∨ i + length > data.length then pure attrs
    else parseAttrsFrom data (i + length) (attrs ++ [(t, slice data (i + 2) (i + length))])
  else pure attrs
termination_by data.length - i

def parseAttrs (data : Bytes) : Except Error (List (ℕ × Bytes)) := parseAttrsFrom data 0 []

structure Packet where
  code : ℕ
  id : ℕ
  auth : Bytes
  attrs : List (ℕ × Bytes)
deriving DecidableEq, Repr

/-- `struct.unpack("!BBH", header)`. -/
def unpackHeader : Bytes → Except Error (ℕ × ℕ × ℕ)
  | [b0, b1, b2, b3] => .ok (b0.toNat, b1.toNat, ofBigEndian [b2, b3])
  | _ => .error .struct

def parsePacket (data : Bytes) : Except Error (Option Packet) :=
  if data.length < 20 then pure none
  else do
    let (code, ident, length) ← unpackHeader (data.take 4)
    if length < 20 ∨ length > data.length then pure none
    else do
      let auth := slice data 4 20
      let attrs ← parseAttrs (slice data 20 length)
      pure (some ⟨code, ident, auth, attrs⟩)

def buildAttr (t : ℕ) (v : Bytes) : Except Error Bytes := do
  let head ← pack [(1, t), (1, 2 + v.length)]
  pure (head ++ v)

def buildVendorAttr (vendor vt : ℕ) (v : Bytes) : Except Error Bytes := do
  let head ← pack [(1, vt), (1, 2 + v.length)]
  let inner := head ++ v
  let vendorId ← pack [(4, vendor)]
  buildAttr attrVendorSpecific (vendorId ++ inner)

def responseAuthenticator (md5 : Bytes → Digest) (code ident length : ℕ)
    (requestAuth payload secret : Bytes) : Except Error Digest := do
  let header ← pack [(1, code), (1, ident), (2, length)]
  pure (md5 (header ++ requestAuth ++ payload ++ secret))

def buildResponse (md5 : Bytes → Digest) (code ident : ℕ) (requestAuth secret : Bytes)
    (attrs : List Bytes) : Except Error Bytes := do
  let payload := attrs.flatten
  let length := 20 + payload.length
  let respAuth ← responseAuthenticator md5 code ident length requestAuth payload secret
  let header ← pack [(1, code), (1, ident), (2, length)]
  pure (header ++ respAuth.1 ++ payload)

theorem parseAttrsFrom_eq (data : Bytes) {i : ℕ} (hi : i ≤ data.length)
    (attrs : List (ℕ × Bytes)) :
    parseAttrsFrom data i attrs = .ok (attrs ++ Tlv.items (data.drop i)) := by
  induction hn : data.length - i using Nat.strong_induction_on generalizing i attrs with
  | h n ih =>
    rw [parseAttrsFrom]
    by_cases hmore : i + 2 ≤ data.length
    · have hdrop : data.drop i = data[i] :: data[i + 1] :: data.drop (i + 2) := by
        rw [List.drop_eq_getElem_cons (by omega), List.drop_eq_getElem_cons (by omega)]
      rw [if_pos hmore, byteAt_eq (by omega), byteAt_eq (by omega), hdrop]
      dsimp only [bind, Except.bind]
      by_cases hstop : data[i + 1].toNat < 2 ∨ i + data[i + 1].toNat > data.length
      · rw [if_pos hstop, Tlv.items_stop (by rw [List.length_drop]; omega), List.append_nil]
        rfl
      · rw [if_neg hstop, ih (data.length - (i + data[i + 1].toNat)) (by omega) (by omega) _ rfl,
          Tlv.items_cons (by omega) (by rw [List.length_drop]; omega), slice_eq, List.drop_drop,
          List.append_assoc, List.singleton_append]
        have hskip : i + 2 + (data[i + 1].toNat - 2) = i + data[i + 1].toNat := by omega
        have htake : i + data[i + 1].toNat - (i + 2) = data[i + 1].toNat - 2 := by omega
        rw [hskip, htake]
    · rw [if_neg hmore, Tlv.items_short (by rw [List.length_drop]; omega), List.append_nil]
      rfl

theorem parseAttrs_eq (data : Bytes) : parseAttrs data = .ok (Tlv.items data) := by
  rw [parseAttrs, parseAttrsFrom_eq data (Nat.zero_le _), List.drop_zero, List.nil_append]

theorem buildAttr_eq {t : ℕ} {v : Bytes} (h : Tlv.Fits (t, v)) :
    buildAttr t v = .ok (Tlv.write (t, v)) := by
  have ht : t < 256 := h.1
  have hv : v.length ≤ 253 := h.2
  rw [buildAttr, pack_eq (by simp; omega)]
  rfl

def vendorValue (vendor vt : ℕ) (v : Bytes) : Bytes := bigEndian 4 vendor ++ Tlv.write (vt, v)

theorem fits_vendor {value : Bytes} (h : value.length ≤ 253) :
    Tlv.Fits (attrVendorSpecific, value) := ⟨by norm_num [attrVendorSpecific], h⟩

theorem buildVendorAttr_eq {vendor vt : ℕ} {v : Bytes} (hvendor : vendor < 2 ^ 32)
    (hvt : vt < 256) (hfits : (vendorValue vendor vt v).length ≤ 253) :
    buildVendorAttr vendor vt v =
      .ok (Tlv.write (attrVendorSpecific, vendorValue vendor vt v)) := by
  have hlength : (vendorValue vendor vt v).length = v.length + 6 := by
    simp [vendorValue, Tlv.write]
    omega
  rw [buildVendorAttr, pack_eq (by simp; omega), pack_eq (by simp; omega)]
  exact buildAttr_eq (fits_vendor hfits)

inductive Attribute
  | plain (t : ℕ) (v : Bytes)
  | vendor (vendorId vt : ℕ) (v : Bytes)

namespace Attribute

def build : Attribute → Except Error Bytes
  | plain t v => buildAttr t v
  | vendor vendorId vt v => buildVendorAttr vendorId vt v

def item : Attribute → ℕ × Bytes
  | plain t v => (t, v)
  | vendor vendorId vt v => (attrVendorSpecific, vendorValue vendorId vt v)

def Valid : Attribute → Prop
  | plain t v => t < 256 ∧ v.length ≤ 253
  | vendor vendorId vt v =>
    vendorId < 2 ^ 32 ∧ vt < 256 ∧ (vendorValue vendorId vt v).length ≤ 253

instance : DecidablePred Valid
  | plain _ _ => inferInstanceAs (Decidable (_ ∧ _))
  | vendor _ _ _ => inferInstanceAs (Decidable (_ ∧ _ ∧ _))

theorem Valid.fits {a : Attribute} (h : a.Valid) : Tlv.Fits a.item := by
  cases a with
  | plain t v => exact ⟨h.1, h.2⟩
  | vendor vendorId vt v => exact fits_vendor h.2.2

theorem Valid.build {a : Attribute} (h : a.Valid) : a.build = .ok (Tlv.write a.item) := by
  cases a with
  | plain t v => exact buildAttr_eq ⟨h.1, h.2⟩
  | vendor vendorId vt v => exact buildVendorAttr_eq h.1 h.2.1 h.2.2

end Attribute

def header (code ident length : ℕ) : Bytes :=
  [UInt8.ofNat code, UInt8.ofNat ident, UInt8.ofNat (length / 256), UInt8.ofNat length]

theorem length_header (code ident length : ℕ) : (header code ident length).length = 4 := rfl

theorem pack_header {code ident length : ℕ} (hcode : code < 256) (hident : ident < 256)
    (hlength : length < 65536) :
    pack [(1, code), (1, ident), (2, length)] = .ok (header code ident length) := by
  rw [pack_eq (by simp; omega)]
  rfl

theorem unpackHeader_header {code ident length : ℕ} (hcode : code < 256) (hident : ident < 256)
    (hlength : length < 65536) :
    unpackHeader (header code ident length) = .ok (code, ident, length) := by
  have hbyte (k : ℕ) : (UInt8.ofNat k).toNat = k % 256 := UInt8.toNat_ofNat'
  have hword : ofBigEndian [UInt8.ofNat (length / 256), UInt8.ofNat length] = length :=
    @ofBigEndian_bigEndian 2 length hlength
  rw [header, unpackHeader, hword, hbyte, hbyte, Nat.mod_eq_of_lt hcode, Nat.mod_eq_of_lt hident]

def payload (items : List Tlv.Item) : Bytes := items.flatMap Tlv.write

theorem flatten_writes {α : Type} (item : α → Tlv.Item) (as : List α) :
    (as.map fun a => Tlv.write (item a)).flatten = payload (as.map item) := by
  rw [payload, List.flatMap_def, List.map_map]
  rfl

theorem parsePacket_write {code ident : ℕ} {auth pad : Bytes} {attrs : List Tlv.Item}
    (hcode : code < 256) (hident : ident < 256) (hauth : auth.length = 16)
    (hfits : ∀ a ∈ attrs, Tlv.Fits a) (hlength : 20 + (payload attrs).length ≤ 65535) :
    parsePacket (header code ident (20 + (payload attrs).length) ++ auth ++ payload attrs ++ pad) =
      .ok (some ⟨code, ident, auth, attrs⟩) := by
  set length := 20 + (payload attrs).length with hlen
  set data := header code ident length ++ auth ++ payload attrs ++ pad with hdata
  have hsize : data.length = length + pad.length := by
    simp only [hdata, List.length_append, header, List.length_cons, List.length_nil]
    omega
  have htake : data.take 4 = header code ident length := by
    rw [hdata, List.append_assoc, List.append_assoc]
    rfl
  have hauthSlice : slice data 4 20 = auth := by
    rw [slice_eq, hdata, List.append_assoc, List.append_assoc,
      List.drop_left' (length_header code ident length), List.take_left' hauth]
  have hpayloadSlice : slice data 20 length = payload attrs := by
    rw [slice_eq, hdata, List.append_assoc, List.drop_left' (by simp [header, hauth]),
      List.take_left' (by omega)]
  have hitems : Tlv.items (payload attrs) = attrs := by
    have hread := Tlv.items_flatMap_write hfits []
    rwa [Tlv.items_nil, List.append_nil, List.append_nil] at hread
  rw [parsePacket, if_neg (by omega), htake,
    unpackHeader_header hcode hident (by omega)]
  dsimp only [bind, Except.bind]
  rw [if_neg (by omega), hauthSlice, hpayloadSlice, parseAttrs_eq, hitems]
  rfl

theorem buildResponse_eq (md5 : Bytes → Digest) {code ident : ℕ} (requestAuth secret : Bytes)
    {attrs : List Attribute} (hcode : code < 256) (hident : ident < 256)
    (hvalid : ∀ a ∈ attrs, a.Valid)
    (hlength : 20 + (payload (attrs.map Attribute.item)).length ≤ 65535) :
    ∃ (built : List Bytes) (digest : Digest), attrs.mapM Attribute.build = .ok built ∧
      buildResponse md5 code ident requestAuth secret built =
        .ok (header code ident (20 + (payload (attrs.map Attribute.item)).length) ++ digest.1 ++
          payload (attrs.map Attribute.item)) := by
  refine ⟨attrs.map fun a => Tlv.write a.item,
    md5 (header code ident (20 + (payload (attrs.map Attribute.item)).length) ++ requestAuth ++
      payload (attrs.map Attribute.item) ++ secret),
    mapM_eq_ok fun a ha => (hvalid a ha).build, ?_⟩
  rw [buildResponse, responseAuthenticator, flatten_writes,
    pack_header hcode hident (by omega)]
  rfl

end RadiusModule.RadiusAuthServer
