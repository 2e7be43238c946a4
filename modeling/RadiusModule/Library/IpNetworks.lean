import Mathlib.Data.List.FinRange
import RadiusModule.Library.Ipv4Text

/-!
# Networks as text

A network of the version 4 of the internet protocol holds the addresses that
share its leading bits. Two networks that share an address are nested, so that
a network holds an address of another one when it holds that one's first
address or lies inside it. Of version 6 an address is only recognised.
-/

namespace RadiusModule.Library

namespace PyText

theorem intercalate_splitChars (sep : Char) (cs : List Char) :
    [sep].intercalate (splitChars sep cs) = cs := by
  induction cs with
  | nil => rfl
  | cons c cs ih =>
    obtain ⟨w, ws, hws⟩ := List.exists_cons_of_ne_nil (splitChars_ne_nil sep cs)
    rw [hws] at ih
    by_cases hc : c = sep
    · rw [splitChars, if_pos hc, hws, List.intercalate_cons_cons, ih, hc]
      rfl
    · rw [splitChars_cons_of_ne hc, hws, List.modifyHead_cons]
      cases ws with
      | nil =>
        simp only [List.intercalate_singleton] at ih ⊢
        rw [ih]
      | cons v vs =>
        rw [List.intercalate_cons_cons] at ih ⊢
        rw [← ih]
        rfl

theorem mem_of_mem_intercalate {sep c : Char} {ws : List (List Char)}
    (h : c ∈ [sep].intercalate ws) : c = sep ∨ ∃ w ∈ ws, c ∈ w := by
  induction ws with
  | nil => cases h
  | cons w ws ih =>
    cases ws with
    | nil => exact .inr ⟨w, List.mem_cons_self, by rwa [List.intercalate_singleton] at h⟩
    | cons v vs =>
      rw [List.intercalate_cons_cons, List.mem_append, List.mem_append, List.mem_singleton] at h
      rcases h with (h | h) | h
      · exact .inr ⟨w, List.mem_cons_self, h⟩
      · exact .inl h
      · exact (ih h).imp_right fun ⟨u, hu, hc⟩ => ⟨u, List.mem_cons_of_mem w hu, hc⟩

theorem exists_word_of_mem (sep : Char) {c : Char} {cs : List Char} (h : c ∈ cs) :
    c = sep ∨ ∃ w ∈ splitChars sep cs, c ∈ w :=
  mem_of_mem_intercalate (by rwa [intercalate_splitChars])

theorem toDigits_of_isDigit {c : Char} (h : c.isDigit = true) :
    c.toNat - '0'.toNat < 10 ∧ (c ≠ '0' → 0 < c.toNat - '0'.toNat) ∧
      Nat.toDigits 10 (c.toNat - '0'.toNat) = [c] := by
  have hdigits : ∀ k ∈ List.range' 48 10, (Char.ofNat k).toNat - '0'.toNat < 10 ∧
      (Char.ofNat k ≠ '0' → 0 < (Char.ofNat k).toNat - '0'.toNat) ∧
        Nat.toDigits 10 ((Char.ofNat k).toNat - '0'.toNat) = [Char.ofNat k] := by decide
  obtain ⟨k, hk, rfl⟩ := isDigit_cases h
  exact hdigits k hk

theorem toDigits_ofDigitChars_append {cs : List Char} (hdigit : ∀ c ∈ cs, c.isDigit = true)
    {n : ℕ} (hn : 0 < n) :
    Nat.toDigits 10 (Nat.ofDigitChars 10 cs n) = Nat.toDigits 10 n ++ cs := by
  induction cs generalizing n with
  | nil => simp
  | cons c cs ih =>
    obtain ⟨hlt, -, htext⟩ := toDigits_of_isDigit (hdigit c List.mem_cons_self)
    rw [Nat.ofDigitChars_cons, ih (fun d hd => hdigit d (List.mem_cons_of_mem c hd)) (by omega),
      ← Nat.toDigits_append_toDigits (by decide) hn hlt, htext, List.append_assoc]
    rfl

theorem toDigits_ofDigitChars {cs : List Char} (hne : cs ≠ [])
    (hdigit : ∀ c ∈ cs, c.isDigit = true) (hzero : cs.head? = some '0' → cs = ['0']) :
    Nat.toDigits 10 (Nat.ofDigitChars 10 cs 0) = cs := by
  cases cs with
  | nil => exact absurd rfl hne
  | cons c cs =>
    by_cases hc : c = '0'
    · rw [hzero (by rw [hc]; rfl)]
      rfl
    · obtain ⟨-, hpos, htext⟩ := toDigits_of_isDigit (hdigit c List.mem_cons_self)
      rw [Nat.ofDigitChars_cons, Nat.mul_zero, Nat.zero_add,
        toDigits_ofDigitChars_append (fun d hd => hdigit d (List.mem_cons_of_mem c hd)) (hpos hc),
        htext]
      rfl

end PyText

open PyText

namespace Ipv4

theorem octet?_digits {cs : List Char} {n : ℕ} (h : octet? cs = some n) :
    cs ≠ [] ∧ cs.all Char.isDigit = true ∧ cs.length ≤ 3 := by
  unfold octet? at h
  split_ifs at h with hdigits
  simpa [not_or] using hdigits

theorem octet?_eq_some {cs : List Char} {n : ℕ} (h : octet? cs = some n) :
    Nat.toDigits 10 n = cs ∧ n < 256 := by
  obtain ⟨hne, hall, -⟩ := octet?_digits h
  unfold octet? at h
  split_ifs at h with hdigits hzero
  simp only [Option.ite_none_left_eq_some, Option.some.injEq] at h
  obtain ⟨hsmall, rfl⟩ := h
  refine ⟨toDigits_ofDigitChars hne (List.all_eq_true.mp hall) fun hhead => ?_, by omega⟩
  by_contra hcs
  exact hzero ⟨hcs, hhead⟩

theorem octet?_of_ofChars? {cs : List Char} {a : Ipv4} (h : ofChars? cs = some a) :
    (splitChars '.' cs).length = 4 ∧ ∀ w ∈ splitChars '.' cs, ∃ n, octet? w = some n := by
  unfold ofChars? at h
  split at h
  · rename_i w x y z hsplit
    simp only [Option.bind_eq_bind, Option.bind_eq_some_iff] at h
    obtain ⟨n₁, h₁, n₂, h₂, n₃, h₃, n₄, h₄, -⟩ := h
    rw [hsplit]
    refine ⟨rfl, ?_⟩
    simp only [List.forall_mem_cons]
    exact ⟨⟨n₁, h₁⟩, ⟨n₂, h₂⟩, ⟨n₃, h₃⟩, ⟨n₄, h₄⟩, fun _ hw => (List.not_mem_nil hw).elim⟩
  · cases h

theorem chars_of_ofChars? {cs : List Char} {a : Ipv4} (h : ofChars? cs = some a) :
    a.chars = cs := by
  unfold ofChars? at h
  split at h
  · rename_i w x y z hsplit
    simp only [Option.bind_eq_bind, Option.bind_eq_some_iff] at h
    obtain ⟨n₁, h₁, n₂, h₂, n₃, h₃, n₄, h₄, h⟩ := h
    obtain ⟨rfl, hn₁⟩ := octet?_eq_some h₁
    obtain ⟨rfl, hn₂⟩ := octet?_eq_some h₂
    obtain ⟨rfl, hn₃⟩ := octet?_eq_some h₃
    obtain ⟨rfl, hn₄⟩ := octet?_eq_some h₄
    obtain rfl : ofOctets n₁ n₂ n₃ n₄ = a := Option.some.inj h
    have hval : (ofOctets n₁ n₂ n₃ n₄ : ℕ) = n₁ * 2 ^ 24 + n₂ * 2 ^ 16 + n₃ * 2 ^ 8 + n₄ := by
      simp only [ofOctets, Fin.ofNat]
      omega
    have hoctets : (ofOctets n₁ n₂ n₃ n₄).octets = [n₁, n₂, n₃, n₄] := by
      simp only [octets, hval, List.cons.injEq, and_true]
      omega
    rw [chars, hoctets, ← intercalate_splitChars '.' cs, hsplit]
    rfl
  · cases h

theorem mem_chars {a : Ipv4} {c : Char} (h : c ∈ a.chars) : c.isDigit = true ∨ c = '.' := by
  rcases mem_of_mem_intercalate h with rfl | ⟨w, hw, hc⟩
  · exact .inr rfl
  · obtain ⟨n, -, rfl⟩ := List.mem_map.mp hw
    exact .inl (Nat.isDigit_of_mem_toDigits (by decide) (by decide) hc)

theorem not_mem_chars {c : Char} (hdigit : c.isDigit = false) (hdot : c ≠ '.') (a : Ipv4) :
    c ∉ a.chars := fun h => by
  rcases mem_chars h with h | h
  · rw [hdigit] at h
    cases h
  · exact hdot h

end Ipv4

instance neZero_prefixLens : NeZero 33 := ⟨by decide⟩

structure Ipv4Network where
  networkAddress : Ipv4
  prefixLen : Fin 33
  masked : (networkAddress : ℕ) % 2 ^ (32 - (prefixLen : ℕ)) = 0
deriving DecidableEq

namespace Ipv4Network

def numAddresses (net : Ipv4Network) : ℕ := 2 ^ (32 - (net.prefixLen : ℕ))

def Contains (net : Ipv4Network) (a : Ipv4) : Prop :=
  (a : ℕ) / net.numAddresses = net.networkAddress / net.numAddresses

instance (net : Ipv4Network) (a : Ipv4) : Decidable (net.Contains a) :=
  inferInstanceAs (Decidable (_ = _))

/-- With `strict=False` the host bits are masked away. -/
def around (a : Ipv4) (p : Fin 33) : Ipv4Network where
  networkAddress := ⟨a - a % 2 ^ (32 - (p : ℕ)), (Nat.sub_le _ _).trans_lt a.isLt⟩
  prefixLen := p
  masked := Nat.sub_mod_eq_zero_of_mod_eq (Nat.mod_mod _ _).symm

def prefixOfMask? (mask : Ipv4) : Option (Fin 33) :=
  (List.finRange 33).find? fun p => (mask : ℕ) = 2 ^ 32 - 2 ^ (32 - (p : ℕ))

/-- `_make_netmask`: the number of bits, which `int` refuses to read from more than 4300 digits,
or an address that is a netmask or, turned around, a host mask. -/
def prefixLen? (mask : List Char) : Option (Fin 33) :=
  if mask ≠ [] ∧ mask.all Char.isDigit ∧ mask.length ≤ 4300 ∧ Nat.ofDigitChars 10 mask 0 ≤ 32 then
    some (Fin.ofNat 33 (Nat.ofDigitChars 10 mask 0))
  else (Ipv4.ofChars? mask).bind fun n => (prefixOfMask? n).or (prefixOfMask? n.rev)

/-- `IPv4Network(text, strict=False)`; without a mask it is one address. -/
def ofChars? (cs : List Char) : Option Ipv4Network :=
  match splitChars '/' cs with
  | [addr] => (Ipv4.ofChars? addr).map fun a => around a (Fin.last 32)
  | [addr, mask] => do
    let a ← Ipv4.ofChars? addr
    let p ← prefixLen? mask
    pure (around a p)
  | _ => none

/-- `str` -/
def chars (net : Ipv4Network) : List Char :=
  net.networkAddress.chars ++ '/' :: Nat.toDigits 10 net.prefixLen

theorem contains_networkAddress (net : Ipv4Network) : net.Contains net.networkAddress := rfl

theorem contains_around {a b : Ipv4} {p : Fin 33} : (around a p).Contains b ↔
    (b : ℕ) / 2 ^ (32 - (p : ℕ)) = a / 2 ^ (32 - (p : ℕ)) := by
  have hfirst : ((a : ℕ) - a % 2 ^ (32 - (p : ℕ))) / 2 ^ (32 - (p : ℕ)) =
      a / 2 ^ (32 - (p : ℕ)) := by
    rw [← Nat.div_mul_self_eq_mod_sub_self, Nat.mul_div_cancel _ (Nat.two_pow_pos _)]
  exact Eq.congr_right hfirst

theorem contains_around_last {a b : Ipv4} : (around a (Fin.last 32)).Contains b ↔ b = a := by
  rw [contains_around, Fin.ext_iff, Fin.val_last, Nat.sub_self, pow_zero, Nat.div_one, Nat.div_one]

theorem networkAddress_around_last (a : Ipv4) : (around a (Fin.last 32)).networkAddress = a :=
  contains_around_last.mp (contains_networkAddress _)

def Within (net block : Ipv4Network) : Prop :=
  block.prefixLen ≤ net.prefixLen ∧ block.Contains net.networkAddress

instance (net block : Ipv4Network) : Decidable (net.Within block) :=
  inferInstanceAs (Decidable (_ ∧ _))

theorem div_numAddresses {net block : Ipv4Network} (h : block.prefixLen ≤ net.prefixLen) (n : ℕ) :
    n / block.numAddresses =
      n / net.numAddresses / 2 ^ ((net.prefixLen : ℕ) - block.prefixLen) := by
  have hsplit : block.numAddresses =
      net.numAddresses * 2 ^ ((net.prefixLen : ℕ) - block.prefixLen) := by
    rw [numAddresses, numAddresses, ← pow_add]
    congr 1
    have := net.prefixLen.isLt
    have : (block.prefixLen : ℕ) ≤ net.prefixLen := h
    omega
  rw [hsplit, Nat.div_div_eq_div_mul]

theorem Within.contains {net block : Ipv4Network} {a : Ipv4} (h : net.Within block)
    (ha : net.Contains a) : block.Contains a := by
  have hfirst : (net.networkAddress : ℕ) / block.numAddresses =
      block.networkAddress / block.numAddresses := h.2
  rw [Contains, ← hfirst, div_numAddresses h.1, div_numAddresses h.1, ha]

theorem nested {net block : Ipv4Network} {a : Ipv4} (hnet : net.Contains a)
    (hblock : block.Contains a) : net.Within block ∨ block.Within net := by
  have hcoarse : ∀ {m n : Ipv4Network}, m.prefixLen ≤ n.prefixLen → m.Contains a →
      n.Contains a → n.Within m := by
    intro m n hle hm hn
    refine ⟨hle, ?_⟩
    have hsame : (a : ℕ) / n.numAddresses = n.networkAddress / n.numAddresses := hn
    rw [Contains, div_numAddresses hle, ← hsame, ← div_numAddresses hle]
    exact hm
  rcases le_total net.prefixLen block.prefixLen with hle | hle
  · exact .inr (hcoarse hle hnet hblock)
  · exact .inl (hcoarse hle hblock hnet)

theorem around_networkAddress (net : Ipv4Network) :
    around net.networkAddress net.prefixLen = net := by
  have hmasked := net.masked
  cases net
  simp only [around, mk.injEq, and_true]
  exact Fin.ext (by simp only [hmasked, Nat.sub_zero])

theorem prefixLen?_toDigits (p : Fin 33) : prefixLen? (Nat.toDigits 10 p) = some p := by
  revert p
  decide

theorem ofChars?_chars (net : Ipv4Network) : ofChars? net.chars = some net := by
  rw [ofChars?, chars, splitChars_word (Ipv4.not_mem_chars (by decide) (by decide) _),
    splitChars_of_not_mem (Ipv4.not_mem_toDigits (by decide) _)]
  simp only [Ipv4.ofChars?_chars, prefixLen?_toDigits, Option.bind_eq_bind, Option.bind_some,
    around_networkAddress]
  rfl

theorem ofChars?_of_ipv4 {cs : List Char} {a : Ipv4} (h : Ipv4.ofChars? cs = some a) :
    ofChars? cs = some (around a (Fin.last 32)) := by
  have hslash : '/' ∉ cs := by
    rw [← Ipv4.chars_of_ofChars? h]
    exact Ipv4.not_mem_chars (by decide) (by decide) a
  rw [ofChars?, splitChars_of_not_mem hslash]
  simp only [h, Option.map_some]

theorem ipv4_of_ofChars? {cs : List Char} {net : Ipv4Network} (h : ofChars? cs = some net)
    (hslash : '/' ∉ cs) : ∃ a, Ipv4.ofChars? cs = some a ∧ around a (Fin.last 32) = net := by
  rw [ofChars?, splitChars_of_not_mem hslash] at h
  exact Option.map_eq_some_iff.mp h

theorem mem_of_ofChars? {cs : List Char} {net : Ipv4Network} (h : ofChars? cs = some net) {c : Char}
    (hc : c ∈ cs) : c.isDigit = true ∨ c = '.' ∨ c = '/' := by
  have haddress : ∀ {w : List Char} {a : Ipv4}, Ipv4.ofChars? w = some a → c ∈ w →
      c.isDigit = true ∨ c = '.' := fun hw hmem =>
    Ipv4.mem_chars (by rwa [Ipv4.chars_of_ofChars? hw])
  rcases exists_word_of_mem '/' hc with rfl | ⟨w, hw, hcw⟩
  · exact .inr (.inr rfl)
  · suffices hword : c.isDigit = true ∨ c = '.' from hword.imp_right .inl
    unfold ofChars? at h
    split at h
    · rename_i addr hsplit
      obtain ⟨a, ha, -⟩ := Option.map_eq_some_iff.mp h
      rw [hsplit, List.mem_singleton] at hw
      exact haddress ha (hw ▸ hcw)
    · rename_i addr mask hsplit
      simp only [Option.bind_eq_bind, Option.bind_eq_some_iff] at h
      obtain ⟨a, ha, p, hp, -⟩ := h
      rw [hsplit, List.mem_cons, List.mem_singleton] at hw
      rcases hw with rfl | rfl
      · exact haddress ha hcw
      · unfold prefixLen? at hp
        split_ifs at hp with hnumber
        · exact .inl (List.all_eq_true.mp hnumber.2.1 c hcw)
        · obtain ⟨n, hn, -⟩ := Option.bind_eq_some_iff.mp hp
          exact haddress hn hcw
    · cases h

end Ipv4Network

namespace Ipv6

def isHexDigit (c : Char) : Bool := c.isDigit || 'a' ≤ c && c ≤ 'f' || 'A' ≤ c && c ≤ 'F'

/-- `_parse_hextet` -/
def isHextet (cs : List Char) : Bool := cs ≠ [] && cs.all isHexDigit && cs.length ≤ 4

/-- A dotted address at the end stands for two groups. -/
def groups? (cs : List Char) : Option (List (List Char)) :=
  let parts := splitChars ':' cs
  let last := parts.getLast?.getD []
  if parts.length < 3 then none
  else if '.' ∈ last then (Ipv4.ofChars? last).map fun _ => parts.dropLast ++ [['0'], ['0']]
  else some parts

def besideSkip (parts : List (List Char)) : List (List Char) := if parts = [[]] then [] else parts

def areGroups (parts : List (List Char)) : Bool :=
  parts.length ≤ 9 &&
    match parts.tail.dropLast.findIdx? (· = []) with
    | none => parts.length = 8 && parts.all isHextet
    | some i =>
      let kept := besideSkip (parts.take (i + 1)) ++ besideSkip (parts.drop (i + 2))
      kept.length ≤ 7 && kept.all isHextet

/-- Whether `IPv6Address` reads the text; a scope follows a percent sign. -/
def isAddress (cs : List Char) : Bool :=
  let scope := cs.dropWhile (· ≠ '%')
  (scope = [] || scope.tail ≠ [] && !scope.tail.contains '%') &&
    (groups? (cs.takeWhile (· ≠ '%'))).any areGroups

example : isAddress "fe80::1%eth0".toList ∧ isAddress "::ffff:10.0.0.1".toList ∧
    ¬isAddress "1:2".toList ∧ ¬isAddress "1::2::3".toList := by decide

end Ipv6
end RadiusModule.Library
