import RadiusModule.Library.Dict
import RadiusModule.Library.Utf8

/-!
# RouterOS sentences

A word goes over the wire as its length, in one to five bytes, and its bytes; a
sentence is its words and a word of length zero. Reading takes one byte after
another from the stream.
-/

namespace RadiusModule.Mikrotik

open Library Library.Wire

inductive Error
  | lengthNegative (length : ℤ)
  | overflow
  | reservedControlByte (b0 : ℕ)
  | eof
deriving DecidableEq, Repr

/-- `n.to_bytes(width, "big")`. -/
def toBytes (width n : ℕ) : Except Error Bytes :=
  match toBytes? width n with
  | some bytes => .ok bytes
  | none => .error .overflow

def encodeLength (length : ℤ) : Except Error Bytes :=
  if length < 0 then .error (.lengthNegative length)
  else if length < 0x80 then .ok [UInt8.ofNat length.toNat]
  else if length < 0x4000 then toBytes 2 (length.toNat ||| 0x8000)
  else if length < 0x200000 then toBytes 3 (length.toNat ||| 0xC00000)
  else if length < 0x10000000 then toBytes 4 (length.toNat ||| 0xE0000000)
  else (toBytes 4 length.toNat).map ([0xF0] ++ ·)

def nextByte : Reader Error ℕ := do
  let b ← readByte .eof
  pure b.toNat

def decodeLength : Reader Error ℕ := do
  let b0 ← nextByte
  if b0 < 0x80 then pure b0
  else if b0 &&& 0xC0 = 0x80 then do
    let b1 ← nextByte
    pure ((b0 &&& 0x3F) <<< 8 ||| b1)
  else if b0 &&& 0xE0 = 0xC0 then do
    let b1 ← nextByte
    let b2 ← nextByte
    pure ((b0 &&& 0x1F) <<< 16 ||| b1 <<< 8 ||| b2)
  else if b0 &&& 0xF0 = 0xE0 then do
    let b1 ← nextByte
    let b2 ← nextByte
    let b3 ← nextByte
    pure ((b0 &&& 0x0F) <<< 24 ||| b1 <<< 16 ||| b2 <<< 8 ||| b3)
  else if b0 = 0xF0 then do
    let b1 ← nextByte
    let b2 ← nextByte
    let b3 ← nextByte
    let b4 ← nextByte
    pure (b1 <<< 24 ||| b2 <<< 16 ||| b3 <<< 8 ||| b4)
  else throw (.reservedControlByte b0)

inductive Word
  | str (s : String)
  | bytes (raw : Bytes)
deriving DecidableEq, Repr

def Word.raw : Word → Bytes
  | .str s => Utf8.encode s
  | .bytes raw => raw

def encodeWord (word : Word) : Except Error Bytes := do
  let len ← encodeLength word.raw.length
  pure (len ++ word.raw)

def encodeSentence (words : List Word) : Except Error Bytes := do
  let out ← words.mapM encodeWord
  let last ← encodeLength 0
  pure (out.flatten ++ last)

def decodeWord : Reader Error (Option Bytes) := do
  let length ← decodeLength
  if length = 0 then pure none
  else do
    let raw ← readBytes .eof length
    pure (some raw)

structure Sentence where
  reply : Option String := none
  attrs : Dict String String := []
  api : Dict String String := []
  extras : List String := []

/-- `body.partition("=")` where `"="` is in the body, else the body and no value. -/
def nameValue (body : List Char) : String × String :=
  if '=' ∈ body then
    (String.ofList (body.takeWhile (· ≠ '=')), String.ofList ((body.dropWhile (· ≠ '=')).drop 1))
  else (String.ofList body, "")

def Sentence.add (d : Sentence) (w : Bytes) : Sentence :=
  let s := Utf8.decode w
  match s.toList with
  | '!' :: _ => { d with reply := some s }
  | '=' :: body => { d with attrs := d.attrs.put (nameValue body).1 (nameValue body).2 }
  | '.' :: body => { d with api := d.api.put (nameValue body).1 (nameValue body).2 }
  | _ => { d with extras := d.extras ++ [s] }

def wordsToDict (words : List Bytes) : Sentence := words.foldl Sentence.add {}

def buildAttr (name value : String) : String := "=" ++ name ++ "=" ++ value

/-- The words of a command with its attributes and queries, as `run` collects them;
`str` writes an attribute's value. -/
def runWords {V : Type} (str : V → String) (command : String) (attrs : Dict String V)
    (queries : List String) : List Word :=
  [.str command] ++ attrs.map (fun kv => .str (buildAttr kv.1 (str kv.2))) ++ queries.map .str

theorem shortens_nextByte : Shortens nextByte :=
  (shortens_readByte _).bind fun _ => keeps_pure _

theorem keeps_nextByte : Keeps nextByte := shortens_nextByte.keeps

theorem shortens_decodeLength : Shortens decodeLength := by
  refine shortens_nextByte.bind fun b0 => ?_
  split_ifs
  · exact keeps_pure _
  · exact keeps_nextByte.bind fun _ => keeps_pure _
  · exact keeps_nextByte.bind fun _ => keeps_nextByte.bind fun _ => keeps_pure _
  · exact keeps_nextByte.bind fun _ => keeps_nextByte.bind fun _ => keeps_nextByte.bind fun _ =>
      keeps_pure _
  · exact keeps_nextByte.bind fun _ => keeps_nextByte.bind fun _ => keeps_nextByte.bind fun _ =>
      keeps_nextByte.bind fun _ => keeps_pure _
  · exact keeps_throw _

theorem shortens_decodeWord : Shortens decodeWord := by
  refine shortens_decodeLength.bind fun length => ?_
  split_ifs
  · exact keeps_pure _
  · exact (keeps_readBytes _ _).bind fun _ => keeps_pure _

def decodeSentence : Reader Error (List Bytes) := readUntil decodeWord shortens_decodeWord

theorem reads_next {α : Type} {f : ℕ → Reader Error α} {b : UInt8} {bytes : Bytes} {a : α}
    (h : Reads (f b.toNat) bytes a) : Reads (nextByte >>= f) (b :: bytes) a :=
  have hbyte : Reads nextByte [b] b.toNat := fun _ => rfl
  hbyte.bind h

theorem or_eq_add {i x c : ℕ} (hx : 2 ^ i ∣ x) (hc : c < 2 ^ i) : x ||| c = x + c := by
  obtain ⟨y, rfl⟩ := hx
  rw [Nat.two_pow_add_eq_or_of_lt hc]

theorem join_two (a : ℕ) {b : ℕ} (hb : b < 256) : a <<< 8 ||| b = a * 256 + b := by
  rw [Nat.shiftLeft_eq]
  exact or_eq_add (i := 8) (by omega) (by omega)

theorem join_three (a : ℕ) {b c : ℕ} (hb : b < 256) (hc : c < 256) :
    a <<< 16 ||| b <<< 8 ||| c = a * 65536 + b * 256 + c := by
  have hhigh : a <<< 16 ||| b <<< 8 = a * 65536 + b * 256 := by
    rw [Nat.shiftLeft_eq, Nat.shiftLeft_eq]
    exact or_eq_add (i := 16) (by omega) (by omega)
  rw [hhigh]
  exact or_eq_add (i := 8) (by omega) (by omega)

theorem join_four (a : ℕ) {b c d : ℕ} (hb : b < 256) (hc : c < 256) (hd : d < 256) :
    a <<< 24 ||| b <<< 16 ||| c <<< 8 ||| d = a * 16777216 + b * 65536 + c * 256 + d := by
  have htop : a <<< 24 ||| b <<< 16 = a * 16777216 + b * 65536 := by
    rw [Nat.shiftLeft_eq, Nat.shiftLeft_eq]
    exact or_eq_add (i := 24) (by omega) (by omega)
  have hhigh : a * 16777216 + b * 65536 ||| c <<< 8 = a * 16777216 + b * 65536 + c * 256 := by
    rw [Nat.shiftLeft_eq]
    exact or_eq_add (i := 16) (by omega) (by omega)
  rw [htop, hhigh]
  exact or_eq_add (i := 8) (by omega) (by omega)

theorem tag_iff : ∀ b < 256, (b &&& 0xC0 = 0x80 ↔ 0x80 ≤ b ∧ b < 0xC0) ∧
    (b &&& 0xE0 = 0xC0 ↔ 0xC0 ≤ b ∧ b < 0xE0) ∧ (b &&& 0xF0 = 0xE0 ↔ 0xE0 ≤ b ∧ b < 0xF0) := by
  decide +kernel

theorem reads_one {b0 : UInt8} (h : b0.toNat < 0x80) : Reads decodeLength [b0] b0.toNat := by
  refine reads_next ?_
  rw [if_pos h]
  exact reads_pure _

theorem reads_two {b0 b1 : UInt8} (h : 0x80 ≤ b0.toNat) (h' : b0.toNat < 0xC0) :
    Reads decodeLength [b0, b1] (b0.toNat % 64 * 256 + b1.toNat) := by
  obtain ⟨htwo, -, -⟩ := tag_iff b0.toNat b0.toNat_lt
  refine reads_next ?_
  rw [if_neg (by omega), if_pos (htwo.mpr ⟨h, h'⟩)]
  refine reads_next ?_
  rw [Nat.and_two_pow_sub_one_eq_mod b0.toNat 6, join_two _ b1.toNat_lt]
  exact reads_pure _

theorem reads_three {b0 b1 b2 : UInt8} (h : 0xC0 ≤ b0.toNat) (h' : b0.toNat < 0xE0) :
    Reads decodeLength [b0, b1, b2] (b0.toNat % 32 * 65536 + b1.toNat * 256 + b2.toNat) := by
  obtain ⟨htwo, hthree, -⟩ := tag_iff b0.toNat b0.toNat_lt
  refine reads_next ?_
  rw [if_neg (by omega), if_neg (by omega), if_pos (hthree.mpr ⟨h, h'⟩)]
  refine reads_next (reads_next ?_)
  rw [Nat.and_two_pow_sub_one_eq_mod b0.toNat 5, join_three _ b1.toNat_lt b2.toNat_lt]
  exact reads_pure _

theorem reads_four {b0 b1 b2 b3 : UInt8} (h : 0xE0 ≤ b0.toNat) (h' : b0.toNat < 0xF0) :
    Reads decodeLength [b0, b1, b2, b3]
      (b0.toNat % 16 * 16777216 + b1.toNat * 65536 + b2.toNat * 256 + b3.toNat) := by
  obtain ⟨htwo, hthree, hfour⟩ := tag_iff b0.toNat b0.toNat_lt
  refine reads_next ?_
  rw [if_neg (by omega), if_neg (by omega), if_neg (by omega), if_pos (hfour.mpr ⟨h, h'⟩)]
  refine reads_next (reads_next (reads_next ?_))
  rw [Nat.and_two_pow_sub_one_eq_mod b0.toNat 4,
    join_four _ b1.toNat_lt b2.toNat_lt b3.toNat_lt]
  exact reads_pure _

theorem reads_five (b1 b2 b3 b4 : UInt8) :
    Reads decodeLength [0xF0, b1, b2, b3, b4]
      (b1.toNat * 16777216 + b2.toNat * 65536 + b3.toNat * 256 + b4.toNat) := by
  refine reads_next (reads_next (reads_next (reads_next (reads_next ?_))))
  rw [join_four _ b2.toNat_lt b3.toNat_lt b4.toNat_lt]
  exact reads_pure _

theorem toBytes_eq {width n : ℕ} (h : n < 256 ^ width) :
    toBytes width n = .ok (bigEndian width n) := by
  rw [toBytes, toBytes?, if_pos h]

theorem encodeLength_reads {n : ℕ} (h : n < 2 ^ 32) :
    ∃ bytes, encodeLength n = .ok bytes ∧ Reads decodeLength bytes n := by
  have hbyte (k : ℕ) : (UInt8.ofNat k).toNat = k % 256 := UInt8.toNat_ofNat'
  rw [encodeLength, if_neg (by omega), Int.toNat_natCast]
  by_cases h1 : n < 0x80
  · rw [if_pos (by omega)]
    refine ⟨_, rfl, (reads_one ?_).of_eq ?_⟩
    all_goals simp only [hbyte]; omega
  rw [if_neg (by omega)]
  by_cases h2 : n < 0x4000
  · rw [if_pos (by omega), Nat.or_comm, or_eq_add (i := 14) (by omega) (by omega),
      toBytes_eq (by omega)]
    refine ⟨_, rfl, (reads_two ?_ ?_).of_eq ?_⟩
    all_goals simp only [hbyte]; omega
  rw [if_neg (by omega)]
  by_cases h3 : n < 0x200000
  · rw [if_pos (by omega), Nat.or_comm, or_eq_add (i := 21) (by omega) (by omega),
      toBytes_eq (by omega)]
    refine ⟨_, rfl, (reads_three ?_ ?_).of_eq ?_⟩
    all_goals simp only [hbyte]; omega
  rw [if_neg (by omega)]
  by_cases h4 : n < 0x10000000
  · rw [if_pos (by omega), Nat.or_comm, or_eq_add (i := 28) (by omega) (by omega),
      toBytes_eq (by omega)]
    refine ⟨_, rfl, (reads_four ?_ ?_).of_eq ?_⟩
    all_goals simp only [hbyte]; omega
  · rw [if_neg (by omega), toBytes_eq (by omega)]
    refine ⟨_, rfl, (reads_five _ _ _ _).of_eq ?_⟩
    simp only [hbyte]
    omega

theorem lt_of_encodeLength {n : ℕ} {bytes : Bytes} (h : encodeLength n = .ok bytes) :
    n < 2 ^ 32 := by
  by_contra hlarge
  have herror : encodeLength n = .error .overflow := by
    rw [encodeLength, if_neg (by omega), if_neg (by omega), if_neg (by omega), if_neg (by omega),
      if_neg (by omega), Int.toNat_natCast, toBytes, toBytes?, if_neg (by omega)]
    rfl
  rw [herror] at h
  cases h

theorem encodeWord_reads {w : Word} (hne : w.raw ≠ []) (hlt : w.raw.length < 2 ^ 32) :
    ∃ bytes, encodeWord w = .ok bytes ∧ Reads decodeWord bytes (some w.raw) := by
  obtain ⟨len, hlen, hread⟩ := encodeLength_reads hlt
  refine ⟨len ++ w.raw, ?_, hread.bind ?_⟩
  · rw [encodeWord, hlen]
    rfl
  · rw [if_neg (by simpa using hne)]
    have hraw : Reads (readBytes Error.eof w.raw.length >>= fun raw => pure (some raw))
        (w.raw ++ []) (some w.raw) := (reads_readBytes _ w.raw).bind (reads_pure _)
    rwa [List.append_nil] at hraw

theorem reads_end : Reads decodeWord [0] none := by
  have hread : Reads decodeLength [0] 0 := @reads_one 0 (by decide)
  exact hread.bind (reads_pure none)

theorem encodeSentence_reads {words : List Word}
    (h : ∀ w ∈ words, w.raw ≠ [] ∧ w.raw.length < 2 ^ 32) :
    ∃ bytes, encodeSentence words = .ok bytes ∧
      Reads decodeSentence bytes (words.map Word.raw) := by
  have hparts : ∃ parts : List (Bytes × Bytes), words.mapM encodeWord = .ok (parts.map Prod.fst) ∧
      parts.map Prod.snd = words.map Word.raw ∧
      ∀ part ∈ parts, Reads decodeWord part.1 (some part.2) := by
    induction words with
    | nil => exact ⟨[], rfl, rfl, by simp⟩
    | cons w words ih =>
      obtain ⟨parts, hmap, hraw, hread⟩ := ih fun v hv => h v (List.mem_cons_of_mem _ hv)
      obtain ⟨hne, hlt⟩ := h w List.mem_cons_self
      obtain ⟨bytes, hbytes, hword⟩ := encodeWord_reads hne hlt
      refine ⟨(bytes, w.raw) :: parts, ?_, by simp [hraw], ?_⟩
      · rw [List.mapM_cons, hbytes, hmap]
        rfl
      · rintro part (_ | ⟨_, hpart⟩)
        · exact hword
        · exact hread part hpart
  obtain ⟨parts, hmap, hraw, hread⟩ := hparts
  refine ⟨parts.flatMap Prod.fst ++ [0], ?_, ?_⟩
  · rw [encodeSentence, hmap, List.flatMap_def]
    rfl
  · rw [← hraw]
    exact reads_readUntil shortens_decodeWord reads_end hread

theorem lt_of_encodeSentence {words : List Word} {bytes : Bytes}
    (h : encodeSentence words = .ok bytes) : ∀ w ∈ words, w.raw.length < 2 ^ 32 := by
  intro w hw
  cases hout : words.mapM encodeWord with
  | error e =>
    rw [encodeSentence, hout] at h
    cases h
  | ok out =>
    obtain ⟨bytes, -, hword⟩ := exists_right_of_forall₂ (forall₂_of_mapM_ok hout) hw
    cases hlen : encodeLength w.raw.length with
    | error e =>
      rw [encodeWord, hlen] at hword
      cases hword
    | ok len => exact lt_of_encodeLength hlen

end RadiusModule.Mikrotik
