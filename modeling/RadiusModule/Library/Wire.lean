import RadiusModule.Library.Traverse

/-!
# Reading bytes back

Whole numbers as bytes with the highest first, and readers that take what they
read off the front of a byte string. `Reads r bytes a` says that `r` finds `a`
in `bytes` whatever follows them, and leaves exactly what follows.
-/

namespace RadiusModule.Library

abbrev Bytes := List UInt8

namespace Wire

def bigEndian : ℕ → ℕ → Bytes
  | 0, _ => []
  | width + 1, n => bigEndian width (n / 256) ++ [UInt8.ofNat n]

/-- `none` where the number does not fit into the bytes. -/
def toBytes? (width n : ℕ) : Option Bytes :=
  if n < 256 ^ width then some (bigEndian width n) else none

def ofBigEndian (bytes : Bytes) : ℕ := bytes.foldl (fun n b => n * 256 + b.toNat) 0

@[simp] theorem length_bigEndian (width n : ℕ) : (bigEndian width n).length = width := by
  induction width generalizing n with
  | zero => rfl
  | succ width ih => simp [bigEndian, ih]

theorem ofBigEndian_bigEndian {width n : ℕ} (h : n < 256 ^ width) :
    ofBigEndian (bigEndian width n) = n := by
  induction width generalizing n with
  | zero =>
    have hzero : n = 0 := by simpa using h
    rw [hzero]
    rfl
  | succ width ih =>
    have hhigh : n / 256 < 256 ^ width :=
      Nat.div_lt_of_lt_mul (by rwa [pow_succ, mul_comm] at h)
    have hfold : ofBigEndian (bigEndian width (n / 256) ++ [UInt8.ofNat n]) =
        ofBigEndian (bigEndian width (n / 256)) * 256 + (UInt8.ofNat n).toNat := by
      simp [ofBigEndian]
    rw [bigEndian, hfold, ih hhigh, UInt8.toNat_ofNat']
    omega

abbrev Reader (ε α : Type) := StateT Bytes (Except ε) α

section Reader

variable {ε α β : Type}

def readByte (eof : ε) : Reader ε UInt8
  | [] => .error eof
  | b :: rest => .ok (b, rest)

def readBytes (eof : ε) : ℕ → Reader ε Bytes
  | 0 => pure []
  | n + 1 => do
    let b ← readByte eof
    let bs ← readBytes eof n
    pure (b :: bs)

def readTimes (item : Reader ε α) : ℕ → Reader ε (List α)
  | 0 => pure []
  | n + 1 => do
    let a ← item
    let as ← readTimes item n
    pure (a :: as)

def Reads (r : Reader ε α) (bytes : Bytes) (a : α) : Prop :=
  ∀ rest, r (bytes ++ rest) = .ok (a, rest)

theorem reads_pure (a : α) : Reads (pure a : Reader ε α) [] a := fun _ => rfl

theorem Reads.bind {r : Reader ε α} {f : α → Reader ε β} {bytes more : Bytes} {a : α} {b : β}
    (hr : Reads r bytes a) (hf : Reads (f a) more b) : Reads (r >>= f) (bytes ++ more) b := by
  intro rest
  have hfirst := hr (more ++ rest)
  show (r (bytes ++ more ++ rest) >>= fun p => f p.1 p.2) = _
  rw [List.append_assoc, hfirst]
  exact hf rest

theorem Reads.of_eq {r : Reader ε α} {bytes : Bytes} {a b : α} (h : Reads r bytes a)
    (hab : a = b) : Reads r bytes b := hab ▸ h

theorem reads_readByte (eof : ε) (b : UInt8) : Reads (readByte eof) [b] b := fun _ => rfl

theorem reads_readBytes (eof : ε) (bytes : Bytes) :
    Reads (readBytes eof bytes.length) bytes bytes := by
  induction bytes with
  | nil => exact reads_pure []
  | cons b bytes ih =>
    have hrest : Reads (readBytes eof bytes.length >>= fun bs => pure (b :: bs))
        (bytes ++ []) (b :: bytes) := ih.bind (reads_pure _)
    rw [List.append_nil] at hrest
    exact (reads_readByte eof b).bind hrest

theorem reads_readTimes {item : Reader ε α} {parts : List (Bytes × α)}
    (h : ∀ part ∈ parts, Reads item part.1 part.2) :
    Reads (readTimes item parts.length) (parts.flatMap Prod.fst) (parts.map Prod.snd) := by
  induction parts with
  | nil => exact reads_pure []
  | cons part parts ih =>
    have hrest : Reads (readTimes item parts.length >>= fun as => pure (part.2 :: as))
        (parts.flatMap Prod.fst ++ []) (part.2 :: parts.map Prod.snd) :=
      (ih fun p hp => h p (List.mem_cons_of_mem _ hp)).bind (reads_pure _)
    rw [List.append_nil] at hrest
    exact (h part List.mem_cons_self).bind hrest

def Shortens (r : Reader ε α) : Prop :=
  ∀ input a rest, r input = .ok (a, rest) → rest.length < input.length

def Keeps (r : Reader ε α) : Prop :=
  ∀ input a rest, r input = .ok (a, rest) → rest.length ≤ input.length

theorem Shortens.keeps {r : Reader ε α} (h : Shortens r) : Keeps r :=
  fun input a rest hread => (h input a rest hread).le

theorem keeps_pure (a : α) : Keeps (pure a : Reader ε α) := by
  intro input b rest hread
  cases hread
  exact le_rfl

theorem keeps_throw (e : ε) : Keeps (throw e : Reader ε α) := by
  intro input b rest hread
  cases hread

theorem bind_ok {r : Reader ε α} {f : α → Reader ε β} {input rest : Bytes} {b : β}
    (h : (r >>= f) input = .ok (b, rest)) :
    ∃ a mid, r input = .ok (a, mid) ∧ f a mid = .ok (b, rest) := by
  have hrun : (r input >>= fun p => f p.1 p.2) = .ok (b, rest) := h
  cases hr : r input with
  | error e =>
    rw [hr] at hrun
    cases hrun
  | ok p =>
    rw [hr] at hrun
    exact ⟨p.1, p.2, rfl, hrun⟩

theorem Keeps.bind {r : Reader ε α} {f : α → Reader ε β} (hr : Keeps r)
    (hf : ∀ a, Keeps (f a)) : Keeps (r >>= f) := by
  intro input b rest hread
  obtain ⟨a, mid, hfirst, hsecond⟩ := bind_ok hread
  exact (hf a mid b rest hsecond).trans (hr input a mid hfirst)

theorem Shortens.bind {r : Reader ε α} {f : α → Reader ε β} (hr : Shortens r)
    (hf : ∀ a, Keeps (f a)) : Shortens (r >>= f) := by
  intro input b rest hread
  obtain ⟨a, mid, hfirst, hsecond⟩ := bind_ok hread
  exact (hf a mid b rest hsecond).trans_lt (hr input a mid hfirst)

theorem shortens_readByte (eof : ε) : Shortens (readByte eof) := by
  intro input b rest hread
  cases input with
  | nil => cases hread
  | cons c input =>
    cases hread
    exact Nat.lt_succ_self _

theorem keeps_readBytes (eof : ε) (n : ℕ) : Keeps (readBytes eof n) := by
  induction n with
  | zero => exact keeps_pure []
  | succ n ih => exact (shortens_readByte eof).keeps.bind fun _ => ih.bind fun _ => keeps_pure _

def readUntil (item : Reader ε (Option α)) (hshort : Shortens item) (input : Bytes) :
    Except ε (List α × Bytes) :=
  match hread : item input with
  | .error e => .error e
  | .ok (none, rest) => .ok ([], rest)
  | .ok (some a, rest) =>
    have : rest.length < input.length := hshort input (some a) rest hread
    (readUntil item hshort rest).map fun p => (a :: p.1, p.2)
termination_by input.length

theorem readUntil_none {item : Reader ε (Option α)} (hshort : Shortens item) {input rest : Bytes}
    (h : item input = .ok (none, rest)) : readUntil item hshort input = .ok ([], rest) := by
  rw [readUntil]
  split <;> simp_all

theorem readUntil_some {item : Reader ε (Option α)} (hshort : Shortens item) {input rest : Bytes}
    {a : α} (h : item input = .ok (some a, rest)) :
    readUntil item hshort input = (readUntil item hshort rest).map fun p => (a :: p.1, p.2) := by
  rw [readUntil]
  split <;> simp_all

theorem reads_readUntil {item : Reader ε (Option α)} (hshort : Shortens item) {last : Bytes}
    (hlast : Reads item last none) {parts : List (Bytes × α)}
    (h : ∀ part ∈ parts, Reads item part.1 (some part.2)) :
    Reads (readUntil item hshort) (parts.flatMap Prod.fst ++ last) (parts.map Prod.snd) := by
  induction parts with
  | nil => exact fun rest => readUntil_none hshort (hlast rest)
  | cons part parts ih =>
    intro rest
    have hfirst := h part List.mem_cons_self (parts.flatMap Prod.fst ++ last ++ rest)
    have hrest := ih (fun p hp => h p (List.mem_cons_of_mem _ hp)) rest
    rw [List.flatMap_cons, List.append_assoc, List.append_assoc, ← List.append_assoc _ last,
      readUntil_some hshort hfirst, hrest]
    rfl

end Reader

end Wire

end RadiusModule.Library
