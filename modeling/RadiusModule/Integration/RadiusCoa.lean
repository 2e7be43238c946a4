import RadiusModule.Library.PyText
import RadiusModule.Library.Dict
import RadiusModule.Library.Utf8
import RadiusModule.Services.RadiusAuthServer

/-!
# Disconnect and CoA packets

The second writer of RADIUS packets. Its attributes are followed by a message
authenticator, and its own walk keeps the last value of each type.
-/

namespace RadiusModule.RadiusCoa

open Library Library.Wire Library.Struct
open RadiusAuthServer (Digest header payload)

def attrVendorSpecific : ℕ := 26

def attrMessageAuthenticator : ℕ := 80

def encodeStringAttr (attrType : ℕ) (value : String) : Except Error Bytes := do
  let raw := Utf8.encode value
  let raw := if raw.length > 253 then raw.take 253 else raw
  let head ← byteList [attrType, raw.length + 2]
  pure (head ++ raw)

def ipv4Byte (part : String) : Except Error ℕ :=
  match PyText.int? part with
  | some n => if 0 ≤ n then .ok n.toNat else .error .value
  | none => .error .value

def encodeIpv4Attr (attrType : ℕ) (ip : String) : Except Error Bytes := do
  let parts := PyText.split ip '.'
  if parts.length ≠ 4 then throw .value
  else do
    let ns ← parts.mapM ipv4Byte
    let raw ← byteList ns
    let head ← byteList [attrType, 6]
    pure (head ++ raw)

def encodeUint32Attr (attrType : ℕ) (value : ℤ) : Except Error Bytes := do
  let head ← byteList [attrType, 6]
  let raw ← pack [(4, (value % 2 ^ 32).toNat)]
  pure (head ++ raw)

def encodeVendorAttr (vendorId subtype : ℕ) (value : String) : Except Error Bytes := do
  let raw := Utf8.encode value
  let raw := if raw.length > 247 then raw.take 247 else raw
  let head ← byteList [subtype, raw.length + 2]
  let sub := head ++ raw
  let vendor ← pack [(4, vendorId)]
  let body := vendor ++ sub
  let outer ← byteList [attrVendorSpecific, body.length + 2]
  pure (outer ++ body)

/-- `hmac` is the keyed digest over MD5, of a secret and a message. -/
def buildPacket (md5 : Bytes → Digest) (hmac : Bytes → Bytes → Digest) (code identifier : ℕ)
    (attrs secret : Bytes) : Except Error Bytes := do
  let mark ← byteList [attrMessageAuthenticator, 18]
  let fullAttrs := attrs ++ (mark ++ List.replicate 16 0)
  let length := 20 + fullAttrs.length
  let codes ← byteList [code, identifier]
  let size ← pack [(2, length)]
  let headerNoAuth := codes ++ size
  let zeroAuth := List.replicate 16 0
  let packetForAuth := headerNoAuth ++ zeroAuth ++ fullAttrs
  let msgAuth := hmac secret packetForAuth
  let fullAttrsSigned := attrs ++ mark ++ msgAuth.1
  let packetForMd5 := headerNoAuth ++ zeroAuth ++ fullAttrsSigned ++ secret
  let authenticator := md5 packetForMd5
  pure (headerNoAuth ++ authenticator.1 ++ fullAttrsSigned)

def parseAttrsFrom (data : Bytes) (i : ℕ) (out : Dict ℕ Bytes) : Except Error (Dict ℕ Bytes) :=
  if i < data.length then
    if i + 2 > data.length then pure out
    else do
      let t ← byteAt data i
      let ln ← byteAt data (i + 1)
      if ln < 2 ∨ i + ln > data.length then pure out
      else parseAttrsFrom data (i + ln) (out.put t (slice data (i + 2) (i + ln)))
  else pure out
termination_by data.length - i

def parseAttrs (data : Bytes) : Except Error (Dict ℕ Bytes) := parseAttrsFrom data 0 []

theorem parseAttrsFrom_eq (data : Bytes) {i : ℕ} (hi : i ≤ data.length) (out : Dict ℕ Bytes) :
    parseAttrsFrom data i out =
      .ok ((Tlv.items (data.drop i)).foldl (fun d kv => d.put kv.1 kv.2) out) := by
  induction hn : data.length - i using Nat.strong_induction_on generalizing i out with
  | h n ih =>
    rw [parseAttrsFrom]
    by_cases hmore : i + 2 ≤ data.length
    · have hdrop : data.drop i = data[i] :: data[i + 1] :: data.drop (i + 2) := by
        rw [List.drop_eq_getElem_cons (by omega), List.drop_eq_getElem_cons (by omega)]
      rw [if_pos (by omega), if_neg (by omega), byteAt_eq (by omega), byteAt_eq (by omega), hdrop]
      dsimp only [bind, Except.bind]
      by_cases hstop : data[i + 1].toNat < 2 ∨ i + data[i + 1].toNat > data.length
      · rw [if_pos hstop, Tlv.items_stop (by rw [List.length_drop]; omega)]
        rfl
      · rw [if_neg hstop, ih (data.length - (i + data[i + 1].toNat)) (by omega) (by omega) _ rfl,
          Tlv.items_cons (by omega) (by rw [List.length_drop]; omega), slice_eq, List.drop_drop,
          List.foldl_cons]
        have hskip : i + 2 + (data[i + 1].toNat - 2) = i + data[i + 1].toNat := by omega
        have htake : i + data[i + 1].toNat - (i + 2) = data[i + 1].toNat - 2 := by omega
        rw [hskip, htake]
    · rw [Tlv.items_short (by rw [List.length_drop]; omega)]
      by_cases hone : i < data.length
      · rw [if_pos hone, if_pos (by omega)]
        rfl
      · rw [if_neg hone]
        rfl

theorem parseAttrs_eq (data : Bytes) :
    parseAttrs data = .ok (Dict.ofPairs (Tlv.items data)) := by
  rw [parseAttrs, parseAttrsFrom_eq data (Nat.zero_le _), List.drop_zero]
  rfl

inductive Attribute
  | string (attrType : ℕ) (value : String)
  | ipv4 (attrType : ℕ) (ip : String)
  | uint32 (attrType : ℕ) (value : ℤ)
  | vendor (vendorId subtype : ℕ) (value : String)

namespace Attribute

def encode : Attribute → Except Error Bytes
  | string t value => encodeStringAttr t value
  | ipv4 t ip => encodeIpv4Attr t ip
  | uint32 t value => encodeUint32Attr t value
  | vendor vendorId subtype value => encodeVendorAttr vendorId subtype value

def item : Attribute → ℕ × Bytes
  | string t value => (t, Utf8.encode value)
  | ipv4 t ip => (t, (PyText.split ip '.').map fun p => UInt8.ofNat ((PyText.int? p).getD 0).toNat)
  | uint32 t value => (t, bigEndian 4 (value % 2 ^ 32).toNat)
  | vendor vendorId subtype value =>
    (attrVendorSpecific, RadiusAuthServer.vendorValue vendorId subtype (Utf8.encode value))

/-- The numbers of the attribute are in range, its address can be read and its value has at
most 253 bytes. -/
def Valid : Attribute → Prop
  | string t value => t < 256 ∧ (Utf8.encode value).length ≤ 253
  | ipv4 t ip => t < 256 ∧ (PyText.split ip '.').length = 4 ∧
      ∀ p ∈ PyText.split ip '.', ∃ n : ℕ, n < 256 ∧ PyText.int? p = some (n : ℤ)
  | uint32 t _ => t < 256
  | vendor vendorId subtype value => vendorId < 2 ^ 32 ∧ subtype < 256 ∧
      (RadiusAuthServer.vendorValue vendorId subtype (Utf8.encode value)).length ≤ 253

theorem Valid.fits {a : Attribute} (h : a.Valid) : Tlv.Fits a.item := by
  cases a with
  | string t value => exact ⟨h.1, h.2⟩
  | ipv4 t ip =>
    refine ⟨h.1, ?_⟩
    rw [item, List.length_map, h.2.1]
    norm_num
  | uint32 t value =>
    refine ⟨h, ?_⟩
    rw [item, length_bigEndian]
    norm_num
  | vendor vendorId subtype value => exact RadiusAuthServer.fits_vendor h.2.2

theorem head_eq {t len : ℕ} (ht : t < 256) (hlen : len < 256) :
    byteList [t, len] = .ok [UInt8.ofNat t, UInt8.ofNat len] := by
  rw [byteList_eq (by simp; omega)]
  rfl

theorem encode_string {t : ℕ} {value : String} (ht : t < 256)
    (hvalue : (Utf8.encode value).length ≤ 253) :
    encodeStringAttr t value = .ok (Tlv.write (t, Utf8.encode value)) := by
  simp only [encodeStringAttr]
  rw [if_neg (by omega), head_eq ht (by omega), Nat.add_comm]
  rfl

theorem encode_ipv4 {t : ℕ} {ip : String} (ht : t < 256) (hparts : (PyText.split ip '.').length = 4)
    (hall : ∀ p ∈ PyText.split ip '.', ∃ n : ℕ, n < 256 ∧ PyText.int? p = some (n : ℤ)) :
    encodeIpv4Attr t ip = .ok (Tlv.write (ipv4 t ip).item) := by
  have hbyte : ∀ p ∈ PyText.split ip '.',
      ipv4Byte p = .ok ((PyText.int? p).getD 0).toNat ∧ ((PyText.int? p).getD 0).toNat < 256 := by
    intro p hp
    obtain ⟨n, hn, hread⟩ := hall p hp
    rw [ipv4Byte, hread]
    exact ⟨if_pos (Int.natCast_nonneg n), by simpa using hn⟩
  have hlen : ((PyText.split ip '.').map fun p => ((PyText.int? p).getD 0).toNat).map UInt8.ofNat =
      (ipv4 t ip).item.2 := by
    rw [List.map_map]
    rfl
  simp only [encodeIpv4Attr]
  rw [if_neg (by omega), mapM_eq_ok fun p hp => (hbyte p hp).1]
  dsimp only [bind, Except.bind]
  rw [byteList_eq (by simpa using fun p hp => (hbyte p hp).2), head_eq ht (by norm_num), hlen]
  have hsize : (ipv4 t ip).item.2.length = 4 := by rw [item, List.length_map, hparts]
  rw [Tlv.write, hsize]
  rfl

theorem encode_uint32 {t : ℕ} (ht : t < 256) (value : ℤ) :
    encodeUint32Attr t value = .ok (Tlv.write (uint32 t value).item) := by
  have hrange : (value % 2 ^ 32).toNat < 256 ^ 4 := by omega
  rw [encodeUint32Attr, head_eq ht (by norm_num), pack_eq (by simpa using hrange)]
  rfl

theorem encode_vendor {vendorId subtype : ℕ} {value : String} (hvendor : vendorId < 2 ^ 32)
    (hsub : subtype < 256)
    (hfits : (RadiusAuthServer.vendorValue vendorId subtype (Utf8.encode value)).length ≤ 253) :
    encodeVendorAttr vendorId subtype value =
      .ok (Tlv.write (vendor vendorId subtype value).item) := by
  have hlength : (RadiusAuthServer.vendorValue vendorId subtype (Utf8.encode value)).length =
      (Utf8.encode value).length + 6 := by
    simp [RadiusAuthServer.vendorValue, Tlv.write]
    omega
  simp only [encodeVendorAttr]
  rw [if_neg (by omega), head_eq hsub (by omega), pack_eq (by simp; omega)]
  have hbody : bigEndian 4 vendorId ++ ([UInt8.ofNat subtype,
      UInt8.ofNat ((Utf8.encode value).length + 2)] ++ Utf8.encode value) =
      RadiusAuthServer.vendorValue vendorId subtype (Utf8.encode value) := by
    rw [RadiusAuthServer.vendorValue, Tlv.write, Nat.add_comm]
    rfl
  dsimp only [bind, Except.bind, pure, Except.pure]
  rw [List.flatMap_cons, List.flatMap_nil, List.append_nil, hbody,
    head_eq (by norm_num [attrVendorSpecific]) (by omega), Nat.add_comm]
  rfl

theorem Valid.encode {a : Attribute} (h : a.Valid) : a.encode = .ok (Tlv.write a.item) := by
  cases a with
  | string t value => exact encode_string h.1 h.2
  | ipv4 t ip => exact encode_ipv4 h.1 h.2.1 h.2.2
  | uint32 t value => exact encode_uint32 h value
  | vendor vendorId subtype value => exact encode_vendor h.1 h.2.1 h.2.2

end Attribute

theorem fits_messageAuthenticator (mac : Digest) :
    Tlv.Fits (attrMessageAuthenticator, mac.1) := by
  refine ⟨by norm_num [attrMessageAuthenticator], ?_⟩
  rw [mac.2]
  norm_num

theorem payload_append_mac (items : List Tlv.Item) (mac : Digest) :
    payload (items ++ [(attrMessageAuthenticator, mac.1)]) =
      payload items ++ [UInt8.ofNat attrMessageAuthenticator, UInt8.ofNat 18] ++ mac.1 := by
  simp only [payload, List.flatMap_append, List.flatMap_singleton, Tlv.write, mac.2,
    List.append_assoc]
  rfl

theorem buildPacket_eq (md5 : Bytes → Digest) (hmac : Bytes → Bytes → Digest)
    {code identifier : ℕ} (hcode : code < 256) (hident : identifier < 256)
    {items : List Tlv.Item} (hlength : 20 + (payload items).length + 18 ≤ 65535) (secret : Bytes) :
    ∃ (auth mac : Digest), buildPacket md5 hmac code identifier (payload items) secret =
      .ok (header code identifier
          (20 + (payload (items ++ [(attrMessageAuthenticator, mac.1)])).length) ++ auth.1 ++
        payload (items ++ [(attrMessageAuthenticator, mac.1)])) := by
  let mark : Bytes := [UInt8.ofNat attrMessageAuthenticator, UInt8.ofNat 18]
  let head := header code identifier (20 + ((payload items).length + 18))
  let zeros : Bytes := List.replicate 16 0
  let mac := hmac secret (head ++ zeros ++ (payload items ++ (mark ++ zeros)))
  let auth := md5 (head ++ zeros ++ (payload items ++ mark ++ mac.1) ++ secret)
  refine ⟨auth, mac, ?_⟩
  have hplaceholder : (payload items ++ (mark ++ zeros)).length = (payload items).length + 18 := by
    simp [mark, zeros]
  have hsigned : (payload (items ++ [(attrMessageAuthenticator, mac.1)])).length =
      (payload items).length + 18 := by
    rw [payload_append_mac, List.length_append, List.length_append, mac.2]
    rfl
  have hsize : pack [(2, 20 + ((payload items).length + 18))] =
      .ok (bigEndian 2 (20 + ((payload items).length + 18))) := by
    rw [pack_eq (by simp; omega)]
    rfl
  rw [hsigned, payload_append_mac, buildPacket,
    Attribute.head_eq (by norm_num [attrMessageAuthenticator]) (by norm_num),
    Attribute.head_eq hcode hident]
  dsimp only [bind, Except.bind]
  rw [hplaceholder, hsize]
  rfl

theorem parsePacket_buildPacket (md5 : Bytes → Digest) (hmac : Bytes → Bytes → Digest)
    {code identifier : ℕ} (hcode : code < 256) (hident : identifier < 256)
    {attrs : List Attribute} (hvalid : ∀ a ∈ attrs, a.Valid) (secret : Bytes)
    (hlength : 20 + (payload (attrs.map Attribute.item)).length + 18 ≤ 65535) :
    ∃ (built : List Bytes) (packet : Bytes) (auth mac : Digest),
      attrs.mapM Attribute.encode = .ok built ∧
      buildPacket md5 hmac code identifier built.flatten secret = .ok packet ∧
      ∀ pad, RadiusAuthServer.parsePacket (packet ++ pad) =
        .ok (some ⟨code, identifier, auth.1,
          attrs.map Attribute.item ++ [(attrMessageAuthenticator, mac.1)]⟩) := by
  obtain ⟨auth, mac, hbuilt⟩ := buildPacket_eq md5 hmac hcode hident hlength secret
  have hfits : ∀ i ∈ attrs.map Attribute.item ++ [(attrMessageAuthenticator, mac.1)],
      Tlv.Fits i := by
    intro i hi
    rcases List.mem_append.mp hi with hi | hi
    · obtain ⟨a, ha, rfl⟩ := List.mem_map.mp hi
      exact (hvalid a ha).fits
    · rw [List.mem_singleton.mp hi]
      exact fits_messageAuthenticator mac
  have hsize : 20 + (payload (attrs.map Attribute.item ++
      [(attrMessageAuthenticator, mac.1)])).length ≤ 65535 := by
    rw [payload_append_mac, List.length_append, List.length_append, mac.2]
    exact hlength
  refine ⟨_, _, auth, mac, mapM_eq_ok fun a ha => (hvalid a ha).encode, ?_, fun pad =>
    RadiusAuthServer.parsePacket_write hcode hident auth.2 hfits hsize⟩
  rw [RadiusAuthServer.flatten_writes]
  exact hbuilt

end RadiusModule.RadiusCoa
