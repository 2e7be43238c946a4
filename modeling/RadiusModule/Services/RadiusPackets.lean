import RadiusModule.Integration.RadiusCoa

/-!
# Packets there and back

Packets of either writer are parsed as they were built, and either walk over
any bytes ends with whole items from the start of them.
-/

namespace RadiusModule.RadiusPackets

open Library Library.Wire Library.Struct
open RadiusAuthServer (Digest payload parsePacket)

theorem response_round_trip (md5 : Bytes → Digest) {code ident : ℕ} (hcode : code < 256)
    (hident : ident < 256) (requestAuth secret : Bytes)
    {attrs : List RadiusAuthServer.Attribute} (hvalid : ∀ a ∈ attrs, a.Valid)
    (hlength : 20 + (payload (attrs.map (·.item))).length ≤ 65535) :
    ∃ (built : List Bytes) (packet : Bytes) (auth : Digest),
      attrs.mapM (·.build) = .ok built ∧
      RadiusAuthServer.buildResponse md5 code ident requestAuth secret built = .ok packet ∧
      ∀ pad, parsePacket (packet ++ pad) =
        .ok (some ⟨code, ident, auth.1, attrs.map (·.item)⟩) := by
  obtain ⟨built, auth, hbuilt, hpacket⟩ :=
    RadiusAuthServer.buildResponse_eq md5 requestAuth secret hcode hident hvalid hlength
  have hfits : ∀ i ∈ attrs.map (·.item), Tlv.Fits i := by
    intro i hi
    obtain ⟨a, ha, rfl⟩ := List.mem_map.mp hi
    exact (hvalid a ha).fits
  exact ⟨built, _, auth, hbuilt, hpacket, fun pad =>
    RadiusAuthServer.parsePacket_write hcode hident auth.2 hfits hlength⟩

theorem walk_prefix (data : Bytes) :
    (Tlv.items data).mapM (fun i => RadiusAuthServer.buildAttr i.1 i.2) =
        .ok ((Tlv.items data).map Tlv.write) ∧
      ((Tlv.items data).map Tlv.write).flatten <+: data := by
  refine ⟨mapM_eq_ok fun i hi => RadiusAuthServer.buildAttr_eq (Tlv.fits_of_mem_items data i hi),
    ?_⟩
  rw [← List.flatMap_def]
  exact Tlv.flatMap_write_items_prefix data

/-- Packets of both writers survive being parsed, whatever bytes follow them; both walks read
only inside the data, the server's gives attributes whose bytes are a start of it, and the
client's keeps the last value of each type among them. -/
theorem packets_round_trip :
    (∀ (md5 : Bytes → Digest) (code ident : ℕ) (requestAuth secret : Bytes)
      (attrs : List RadiusAuthServer.Attribute), code < 256 → ident < 256 →
      (∀ a ∈ attrs, a.Valid) → 20 + (payload (attrs.map (·.item))).length ≤ 65535 →
      ∃ (built : List Bytes) (packet : Bytes) (auth : Digest),
        attrs.mapM (·.build) = .ok built ∧
        RadiusAuthServer.buildResponse md5 code ident requestAuth secret built = .ok packet ∧
        ∀ pad, parsePacket (packet ++ pad) =
          .ok (some ⟨code, ident, auth.1, attrs.map (·.item)⟩)) ∧
    (∀ (md5 : Bytes → Digest) (hmac : Bytes → Bytes → Digest) (code identifier : ℕ)
      (secret : Bytes) (attrs : List RadiusCoa.Attribute), code < 256 → identifier < 256 →
      (∀ a ∈ attrs, a.Valid) → 20 + (payload (attrs.map (·.item))).length + 18 ≤ 65535 →
      ∃ (built : List Bytes) (packet : Bytes) (auth mac : Digest),
        attrs.mapM (·.encode) = .ok built ∧
        RadiusCoa.buildPacket md5 hmac code identifier built.flatten secret = .ok packet ∧
        ∀ pad, parsePacket (packet ++ pad) =
          .ok (some ⟨code, identifier, auth.1,
            attrs.map (·.item) ++ [(RadiusCoa.attrMessageAuthenticator, mac.1)]⟩)) ∧
    ∀ data : Bytes, ∃ attrs parts, RadiusAuthServer.parseAttrs data = .ok attrs ∧
      attrs.mapM (fun a => RadiusAuthServer.buildAttr a.1 a.2) = .ok parts ∧
      parts.flatten <+: data ∧ 2 * attrs.length ≤ data.length ∧
      RadiusCoa.parseAttrs data = .ok (Dict.ofPairs attrs) := by
  refine ⟨?_, ?_, ?_⟩
  · intro md5 code ident requestAuth secret attrs hcode hident hvalid hlength
    exact response_round_trip md5 hcode hident requestAuth secret hvalid hlength
  · intro md5 hmac code identifier secret attrs hcode hident hvalid hlength
    exact RadiusCoa.parsePacket_buildPacket md5 hmac hcode hident hvalid secret hlength
  · intro data
    obtain ⟨hbuild, hprefix⟩ := walk_prefix data
    exact ⟨_, _, RadiusAuthServer.parseAttrs_eq data, hbuild, hprefix, Tlv.length_items_le data,
      RadiusCoa.parseAttrs_eq data⟩

theorem packets_round_trip_accept :
    (∃ (built : List Bytes) (packet : Bytes) (auth : Digest),
      [RadiusAuthServer.Attribute.plain 18 [104, 105],
        .vendor 14988 8 [52, 77, 47, 52, 77]].mapM (·.build) = .ok built ∧
      RadiusAuthServer.buildResponse (fun _ => ⟨[25, 112, 253, 8, 11, 65, 122, 187, 209, 11, 94,
        69, 191, 242, 68, 82], rfl⟩) 2 7 [0, 1, 2, 3, 4, 5, 6, 7, 8, 9, 10, 11, 12, 13, 14, 15]
        [115] built = .ok packet ∧
      ∀ pad, parsePacket (packet ++ pad) = .ok (some ⟨2, 7, auth.1,
        [(18, [104, 105]), (26, [0, 0, 58, 140, 8, 7, 52, 77, 47, 52, 77])]⟩)) ∧
    ∃ (built : List Bytes) (packet : Bytes) (auth mac : Digest),
      [RadiusCoa.Attribute.string 1 "ali", .ipv4 8 "10.0.0.2"].mapM (·.encode) = .ok built ∧
      RadiusCoa.buildPacket (fun _ => ⟨[139, 254, 24, 32, 254, 12, 138, 248, 223, 200, 81, 23, 47,
        73, 118, 219], rfl⟩) (fun _ _ => ⟨[206, 105, 180, 74, 41, 55, 97, 119, 15, 197, 156, 83,
        155, 189, 244, 230], rfl⟩) 40 9 built.flatten [115] = .ok packet ∧
      ∀ pad, parsePacket (packet ++ pad) = .ok (some ⟨40, 9, auth.1,
        [(1, [97, 108, 105]), (8, [10, 0, 0, 2])] ++
          [(RadiusCoa.attrMessageAuthenticator, mac.1)]⟩) := by
  refine ⟨packets_round_trip.1 _ 2 7 _ [115] [.plain 18 [104, 105],
    .vendor 14988 8 [52, 77, 47, 52, 77]] ?_ ?_ ?_ ?_,
    packets_round_trip.2.1 _ _ 40 9 [115] [.string 1 "ali", .ipv4 8 "10.0.0.2"] ?_ ?_ ?_ ?_⟩
  · decide
  · decide
  · decide
  · decide
  · decide
  · decide
  · have hsplit : PyText.split "10.0.0.2" '.' = ["10", "0", "0", "2"] := by decide
    have hten : PyText.int? "10" = some ((10 : ℕ) : ℤ) := by decide
    have hzero : PyText.int? "0" = some ((0 : ℕ) : ℤ) := by decide
    have htwo : PyText.int? "2" = some ((2 : ℕ) : ℤ) := by decide
    simp only [List.forall_mem_cons, RadiusCoa.Attribute.Valid, hsplit]
    exact ⟨⟨by decide, by decide⟩, ⟨by decide, rfl, ⟨10, by decide, hten⟩,
      ⟨0, by decide, hzero⟩, ⟨0, by decide, hzero⟩, ⟨2, by decide, htwo⟩, by simp⟩, by simp⟩
  · decide

set_option maxRecDepth 40000 in
/-- Two texts of one type: the client's walk keeps only the second, which does not start the
data. A vendor attribute with 250 bytes is not built at all. -/
theorem walk_drops_first :
    RadiusCoa.parseAttrs [18, 3, 97, 18, 3, 98] = .ok [(18, [98])] ∧
      RadiusAuthServer.buildAttr 18 [98] = .ok [18, 3, 98] ∧
      ¬ [18, 3, 98] <+: ([18, 3, 97, 18, 3, 98] : Bytes) ∧
      RadiusAuthServer.buildVendorAttr 14988 8 (List.replicate 250 0) = .error .struct := by
  refine ⟨?_, by decide, by decide, by decide⟩
  have hitems : Tlv.items [18, 3, 97, 18, 3, 98] = [(18, [97]), (18, [98])] := by
    have hread := @Tlv.items_flatMap_write [(18, [97]), (18, [98])] (by decide) []
    rwa [Tlv.items_nil, List.append_nil, List.append_nil] at hread
  rw [RadiusCoa.parseAttrs_eq, hitems]
  decide

end RadiusModule.RadiusPackets
