import Mathlib.Tactic

/-!
# Decimal numbers

A finite decimal has a sign, a coefficient and a power of ten. `quantize`
rounds half away from zero to a number of places, and fails when the
coefficient of the result has more digits than the precision.
-/

namespace RadiusModule.Library

inductive Decimal
  | finite (negative : Bool) (coefficient : ℕ) (exponent : ℤ)
  | infinite (negative : Bool)
  | nan (signaling : Bool)
deriving DecidableEq

namespace Decimal

def precision : ℕ := 28

def roundHalfUp (c k : ℕ) : ℕ := (2 * c + 10 ^ k) / (2 * 10 ^ k)

/-- The coefficient of `c * 10 ^ e` at `places` places. -/
def rescale (places : ℕ) (c : ℕ) (e : ℤ) : ℕ :=
  if -(places : ℤ) ≤ e then c * 10 ^ (e + places).toNat else roundHalfUp c (-(e + places)).toNat

def quantize (places : ℕ) : Decimal → Option Decimal
  | finite s c e =>
    if rescale places c e < 10 ^ precision then some (finite s (rescale places c e) (-places))
    else none
  | infinite _ => none
  | nan signaling => if signaling then none else some (nan false)

theorem rescale_self (places c : ℕ) : rescale places c (-places) = c := by
  simp [rescale]

theorem quantize_self {places c : ℕ} {s : Bool} (h : c < 10 ^ precision) :
    quantize places (finite s c (-places)) = some (finite s c (-places)) := by
  simp only [quantize, rescale_self, if_pos h]

end Decimal
end RadiusModule.Library
