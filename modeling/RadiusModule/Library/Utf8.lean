import RadiusModule.Library.Wire

/-!
# UTF-8 text

Writing a text as bytes, and reading bytes as a text where every run of bytes
that starts no character becomes one replacement character.
-/

namespace RadiusModule.Library.Utf8

def encode (s : String) : Bytes := s.toList.flatMap String.utf8EncodeChar

def first? (bytes : Bytes) : Option Char := bytes.toByteArray.utf8DecodeChar? 0

def secondByte (b : ℕ) : Option (ℕ × ℕ × ℕ) :=
  if 0xC2 ≤ b ∧ b ≤ 0xDF then some (0x80, 0xBF, 0)
  else if b = 0xE0 then some (0xA0, 0xBF, 1)
  else if b = 0xED then some (0x80, 0x9F, 1)
  else if 0xE1 ≤ b ∧ b ≤ 0xEF then some (0x80, 0xBF, 1)
  else if b = 0xF0 then some (0x90, 0xBF, 2)
  else if 0xF1 ≤ b ∧ b ≤ 0xF3 then some (0x80, 0xBF, 2)
  else if b = 0xF4 then some (0x80, 0x8F, 2)
  else none

def badLength : Bytes → ℕ
  | [] => 1
  | [_] => 1
  | b :: c :: rest =>
    match secondByte b.toNat with
    | none => 1
    | some (low, high, more) =>
      if low ≤ c.toNat ∧ c.toNat ≤ high then
        2 + ((rest.take more).takeWhile fun d => 0x80 ≤ d.toNat && d.toNat ≤ 0xBF).length
      else 1

theorem badLength_pos (bytes : Bytes) : 0 < badLength bytes := by
  unfold badLength
  split
  · exact one_pos
  · exact one_pos
  · split
    · exact one_pos
    · split_ifs <;> omega

def decodeChars : Bytes → List Char
  | [] => []
  | b :: bytes =>
    match first? (b :: bytes) with
    | some c => c :: decodeChars ((b :: bytes).drop c.utf8Size)
    | none => '\ufffd' :: decodeChars ((b :: bytes).drop (badLength (b :: bytes)))
termination_by bytes => bytes.length
decreasing_by
  · have := c.utf8Size_pos
    simp only [List.length_drop, List.length_cons]
    omega
  · have := badLength_pos (b :: bytes)
    simp only [List.length_drop, List.length_cons] at this ⊢
    omega

def decode (bytes : Bytes) : String := String.ofList (decodeChars bytes)

theorem first?_encodeChar (c : Char) (rest : Bytes) :
    first? (String.utf8EncodeChar c ++ rest) = some c := by
  rw [first?, List.toByteArray_append]
  exact ByteArray.utf8DecodeChar?_utf8EncodeChar_append

theorem encodeChar_ne_nil (c : Char) : String.utf8EncodeChar c ≠ [] := by
  intro hnil
  have hlength := String.length_utf8EncodeChar c
  rw [hnil] at hlength
  exact c.utf8Size_pos.ne hlength

theorem getLast_encodeChar_ne_zero {c : Char} (hc : c ≠ '\x00') :
    (String.utf8EncodeChar c).getLast (encodeChar_ne_nil c) ≠ 0 := by
  have hpos : c.val.toNat ≠ 0 := fun h => hc (Char.toNat_inj.mp h)
  have hnonzero : ∀ n : ℕ, n % 256 ≠ 0 → UInt8.ofNat n ≠ 0 := by
    intro n hn h
    have hnat := congrArg UInt8.toNat h
    rw [UInt8.toNat_ofNat'] at hnat
    exact hn hnat
  simp only [String.utf8EncodeChar]
  split_ifs
  · exact hnonzero _ (by omega)
  · exact hnonzero _ (by omega)
  · exact hnonzero _ (by omega)
  · exact hnonzero _ (by omega)

theorem decodeChars_encodeChars (cs : List Char) :
    decodeChars (cs.flatMap String.utf8EncodeChar) = cs := by
  induction cs with
  | nil => simp [decodeChars]
  | cons c cs ih =>
    rw [List.flatMap_cons]
    obtain ⟨b, bytes, hbytes⟩ := List.exists_cons_of_ne_nil (encodeChar_ne_nil c)
    have hfirst := first?_encodeChar c (cs.flatMap String.utf8EncodeChar)
    have hdrop : (String.utf8EncodeChar c ++ cs.flatMap String.utf8EncodeChar).drop c.utf8Size =
        cs.flatMap String.utf8EncodeChar := by
      rw [← String.length_utf8EncodeChar c, List.drop_left]
    rw [hbytes, List.cons_append] at hfirst hdrop ⊢
    rw [decodeChars, hfirst]
    dsimp only
    rw [hdrop, ih]

@[simp] theorem decode_encode (s : String) : decode (encode s) = s := by
  rw [decode, encode, decodeChars_encodeChars, String.ofList_toList]

theorem getLast?_encode_ne_zero {s : String} (h : s.toList.getLast? ≠ some '\x00') :
    (encode s).getLast? ≠ some 0 := by
  rw [encode]
  rcases List.eq_nil_or_concat s.toList with hnil | ⟨cs, c, hcs⟩
  · rw [hnil]
    simp
  · rw [List.concat_eq_append] at hcs
    rw [hcs, List.getLast?_concat] at h
    rw [hcs, List.flatMap_append, List.flatMap_singleton,
      List.getLast?_append_of_ne_nil _ (encodeChar_ne_nil c),
      List.getLast?_eq_getLast_of_ne_nil (encodeChar_ne_nil c)]
    exact fun hzero => getLast_encodeChar_ne_zero (fun hc => h (congrArg some hc))
      (Option.some_inj.mp hzero)

theorem encode_ne_nil {s : String} (h : s ≠ "") : encode s ≠ [] := by
  intro hnil
  have hs : s = decode [] := by rw [← hnil, decode_encode]
  exact h (by rw [hs]; simp [decode, decodeChars])

end RadiusModule.Library.Utf8
