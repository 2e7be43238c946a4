import RadiusModule.Library.PyText

/-!
# MAC addresses

The spelling under which devices are compared, and the test for a locally
administered address.
-/

namespace RadiusModule.MacAddress
open Library PyText

def normalizeMac (mac : String) : String := replaceChar (upper (strip mac)) '-' ':'

def hexDigit? (c : Char) : Option ℕ :=
  match digit? c with
  | some d => some d
  | none => if 'A' ≤ c ∧ c ≤ 'F' then some (c.toNat - 'A'.toNat + 10) else none

theorem normalizeMac_normalizeMac (mac : String) : normalizeMac (normalizeMac mac) =
    normalizeMac mac := by
  set f : Char → Char := fun c => if c.toUpper = '-' then ':' else c.toUpper with hf
  have hspace (c : Char) : isSpace (f c) = isSpace c := by
    simp only [hf]
    split_ifs with hdash
    · rw [← isSpace_toUpper c, hdash]
      rfl
    · exact isSpace_toUpper c
  have hidem (c : Char) : f (f c) = f c := by
    simp only [hf]
    by_cases hdash : c.toUpper = '-'
    · rw [if_pos hdash]
      rfl
    · rw [if_neg hdash, toUpper_toUpper, if_neg hdash]
  have hmac (s : String) : normalizeMac s = String.ofList ((stripChars s.toList).map f) := by
    simp [normalizeMac, replaceChar, upper, strip, hf, Function.comp_def]
  rw [hmac, hmac, String.toList_ofList, stripChars_map hspace, stripChars_stripChars, List.map_map]
  exact congrArg String.ofList (List.map_congr_left fun c _ => hidem c)

/-- `int(octet, 16)` for an octet of at most two capital characters. -/
def octet? (cs : List Char) : Option ℕ :=
  let digits : List Char → Option ℕ
    | [a] => hexDigit? a
    | [a, b] => (hexDigit? a).bind fun x => (hexDigit? b).map fun y => 16 * x + y
    | _ => none
  match stripChars cs with
  | '+' :: ds => digits ds
  | ds => digits ds

def pairs : List Char → List (List Char)
  | a :: b :: cs => [a, b] :: pairs cs
  | _ => []

def octets (mac : String) : Option (List ℕ) :=
  let cleaned := stripChars (upper (replaceChar (replaceChar mac '-' ':') '.' ':')).toList
  let parts := splitChars ':' cleaned
  let hex := cleaned.filter fun c => '0' ≤ c && c ≤ '9' || 'A' ≤ c && c ≤ 'F'
  if parts.length = 6 ∧ ∀ p ∈ parts, p.length = 2 then parts.mapM octet?
  else if hex.length = 12 then (pairs hex).mapM octet?
  else none

def isRandomMac (mac : String) : Bool :=
  match octets mac with
  | some (first :: _) => first.testBit 1
  | _ => false

example : isRandomMac "02-11-22-33-44-55" = true ∧ isRandomMac "001122334455" = false := by decide

end RadiusModule.MacAddress
