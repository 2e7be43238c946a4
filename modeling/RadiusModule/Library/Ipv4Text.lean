import Mathlib.Algebra.GroupWithZero.Nat
import RadiusModule.Library.Lines
import RadiusModule.Library.NumberText

/-!
# Addresses as text

Dotted addresses of the version 4 of the internet protocol, and networks that
hold one address alone.
-/

namespace RadiusModule.Library

abbrev Ipv4 := Fin (2 ^ 32)

instance neZero_addresses : NeZero (2 ^ 32) := ⟨by decide⟩

structure Ipv4Net where
  network : Ipv4
  prefixLen : ℕ

/-- `hosts`, without the first and the last address where there are others. -/
def Ipv4Net.hosts (net : Ipv4Net) : List Ipv4 :=
  let all := (List.range (2 ^ (32 - net.prefixLen))).map fun i => Fin.ofNat _ (net.network + i)
  if 31 ≤ net.prefixLen then all else all.tail.dropLast

namespace Ipv4
open PyText

def octets (a : Ipv4) : List ℕ :=
  [a / 2 ^ 24, a / 2 ^ 16 % 256, a / 2 ^ 8 % 256, a % 256]

def ofOctets (w x y z : ℕ) : Ipv4 := Fin.ofNat _ (w * 2 ^ 24 + x * 2 ^ 16 + y * 2 ^ 8 + z)

/-- `str` -/
def chars (a : Ipv4) : List Char :=
  ['.'].intercalate (a.octets.map (Nat.toDigits 10))

def octet? (cs : List Char) : Option ℕ :=
  if cs = [] ∨ cs.all Char.isDigit = false ∨ 3 < cs.length then none
  else if cs ≠ ['0'] ∧ cs.head? = some '0' then none
  else
    let n := Nat.ofDigitChars 10 cs 0
    if 255 < n then none else some n

def ofChars? (cs : List Char) : Option Ipv4 :=
  match splitChars '.' cs with
  | [w, x, y, z] => do
    let w ← octet? w
    let x ← octet? x
    let y ← octet? y
    let z ← octet? z
    pure (ofOctets w x y z)
  | _ => none

def isFullMask (cs : List Char) : Bool :=
  if cs ≠ [] ∧ cs.all Char.isDigit then Nat.ofDigitChars 10 cs 0 = 32
  else ofChars? cs = some (Fin.last _)

def single? (cs : List Char) : Option Ipv4 :=
  match splitChars '/' cs with
  | [addr] => ofChars? addr
  | [addr, mask] => if isFullMask mask then ofChars? addr else none
  | _ => none

theorem octet?_toDigits {n : ℕ} (h : n < 256) : octet? (Nat.toDigits 10 n) = some n := by
  have hall : ∀ n ∈ List.range 256, octet? (Nat.toDigits 10 n) = some n := by decide +kernel
  exact hall n (List.mem_range.mpr h)

theorem not_mem_toDigits {c : Char} (hc : c.isDigit = false) (n : ℕ) :
    c ∉ Nat.toDigits 10 n := by
  intro h
  have hdigit := Nat.isDigit_of_mem_toDigits (by decide) (by decide) h
  rw [hc] at hdigit
  cases hdigit

theorem ofChars?_chars (a : Ipv4) : ofChars? a.chars = some a := by
  have hdot : ∀ n, '.' ∉ Nat.toDigits 10 n := not_mem_toDigits (by decide)
  have hchars : a.chars = Nat.toDigits 10 (a / 2 ^ 24) ++ '.' ::
      (Nat.toDigits 10 (a / 2 ^ 16 % 256) ++ '.' ::
        (Nat.toDigits 10 (a / 2 ^ 8 % 256) ++ '.' :: Nat.toDigits 10 (a % 256))) := by
    simp [chars, octets, List.intercalate]
  have ha := a.isLt
  rw [ofChars?, hchars, splitChars_word (hdot _), splitChars_word (hdot _),
    splitChars_word (hdot _), splitChars_of_not_mem (hdot _)]
  simp only [octet?_toDigits (show (a : ℕ) / 2 ^ 24 < 256 by omega),
    octet?_toDigits (Nat.mod_lt _ (by decide : 0 < 256)), Option.bind_eq_bind, Option.bind_some]
  refine congrArg some (Fin.ext ?_)
  simp only [ofOctets, Fin.ofNat]
  omega

theorem single?_chars (a : Ipv4) : single? (a.chars ++ "/32".toList) = some a := by
  have hslash : '/' ∉ a.chars := by
    have hdigits : ∀ n, '/' ∉ Nat.toDigits 10 n := not_mem_toDigits (by decide)
    simp [chars, octets, List.intercalate, hdigits]
  have hmask : isFullMask ['3', '2'] = true := by decide
  rw [single?, show "/32".toList = '/' :: ['3', '2'] from rfl, splitChars_word hslash,
    splitChars_of_not_mem (by decide)]
  simp only [hmask, if_true, ofChars?_chars]

end Ipv4
end RadiusModule.Library
