import RadiusModule.Library.Dict
import RadiusModule.Library.FloatFormat
import RadiusModule.Library.PyText

/-!
# Caps on what a manager delegates

The limits a manager sets for one below him are cut to his own, where zero is
no limit. A limit is read as a number, cut, and written as a whole number or
with two places; the day the grants end is compared as a text.
-/

namespace RadiusModule.DelegationCaps
open Library PyText FloatText Binary64

inductive Value
  | none
  | int (z : ℤ)
  | str (s : String)
  | other (text : String) (truthy : Bool)

/-- `str(v if v is not None else "")` -/
def Value.text : Value → String
  | none => ""
  | int z => toString z
  | str s => s
  | other text _ => text

def Value.truthy : Value → Bool
  | none => false
  | int z => z ≠ 0
  | str s => s ≠ ""
  | other _ truthy => truthy

/-- `str(v or "").strip()` -/
def Value.stripped (v : Value) : String := strip (if v.truthy then v.text else "")

abbrev Limits := Dict String Value

def numTrans (c : Char) : Option Char :=
  let n := c.toNat
  if 0x0660 ≤ n ∧ n ≤ 0x0669 then some (Nat.digitChar (n - 0x0660))
  else if 0x06F0 ≤ n ∧ n ≤ 0x06F9 then some (Nat.digitChar (n - 0x06F0))
  else if n = 0x066B then some '.'
  else if n ∈ [0x2212, 0xFE63, 0xFF0D] then some '-'
  else if n ∈ [0x066C, 0x200E, 0x200F, 0x061C, 0x00A0, 0x202F] then none
  else some c

def normalizeNumberText (s : String) : String := strip (String.ofList (s.toList.filterMap numTrans))

inductive Amount
  | finite (q : ℚ)
  | infinite
  deriving DecidableEq

namespace Amount

def limited : Amount → Bool
  | finite q => 0 < q
  | infinite => true

def le : Amount → Amount → Bool
  | finite q, finite r => q ≤ r
  | finite _, infinite => true
  | infinite, finite _ => false
  | infinite, infinite => true

end Amount

@[irreducible] def num (v : Value) : Amount :=
  match float? (normalizeNumberText v.text) with
  | some (.finite q) => .finite (max 0 q)
  | some (.infinite false) => .infinite
  | _ => .finite 0

def clampToParentCap (c p : Amount) : Amount :=
  if p.limited = false then c
  else if c.limited = false then p
  else if c.le p then c else p

/-- `f"{value:.2f}"` -/
def money : Amount → String
  | .finite q => String.ofList (centChars (cents q).toNat)
  | .infinite => "inf"

def count : Amount → Option ℤ
  | .finite q => some ⌊q⌋
  | .infinite => none

def counterKeys : List String :=
  ["max_free_days", "max_trial_days", "max_subscribers", "max_cards_total", "max_cards_daily"]

def moneyKeys : List String := ["spend_cap_daily", "spend_cap_monthly"]

def delegableLimitKeys : List String := counterKeys ++ moneyKeys

/-- `plims.get(k)` -/
def Limits.at (limits : Limits) (k : String) : Value := (limits.get? k).getD .none

def replaced (want pexp : String) : Bool :=
  pexp ≠ "" && (want = "" || pexp.toList.take 19 < want.toList.take 19)

/-- One entry of `clamp_delegated_limits`: it raises, is left out, or goes in. -/
def clampEntry (plims : Limits) (k : String) (v : Value) : Option (Option Value) :=
  if k ∈ counterKeys then
    (count (clampToParentCap (num v) (num (plims.at k)))).map fun n => some (.int n)
  else if k ∈ moneyKeys then
    some (some (.str (money (clampToParentCap (num v) (num (plims.at k))))))
  else if k = "grants_expire_at" then
    let want := v.stripped
    let pexp := (plims.at k).stripped
    some (some (.str (if replaced want pexp then pexp else want)))
  else some none

/-- `clamp_delegated_limits`; without a parent nothing is cut. -/
def clampDelegatedLimits (parent : Option Limits) : Limits → Option Limits
  | [] => some []
  | (k, v) :: limits => do
    let w ← clampEntry (parent.getD []) k v
    let rest ← clampDelegatedLimits parent limits
    pure (match w with
      | none => rest
      | some w => (k, w) :: rest)

/-- `clamp_delegated_credit` under a parent; his limit is missing where reading it raised. -/
def clampDelegatedCredit (creditLimit : Option String) (requested : Value) : String :=
  match creditLimit with
  | none => if (num requested).limited then money (num requested) else "0.00"
  | some limit =>
    money (clampToParentCap (num requested) (num (if limit = "" then .int 0 else .str limit)))

/-- What `_grants_are_expired` uses of dates: the panel's day at an instant, and the readers. -/
structure Panel where
  localDay : ℤ → ℤ
  mono : Monotone localDay
  onto : Function.Surjective localDay
  date? : String → Option ℤ
  datetime? : String → Option ℤ

inductive End
  | day (d : ℤ)
  | instant (t : ℤ)

namespace Panel
variable (panel : Panel)

def end? (raw : Value) : Option End :=
  let s := raw.stripped
  if s = "" then none
  else if s.length = 10 then (panel.date? s).map .day
  else (panel.datetime? (s.replace "Z" "+00:00")).map .instant

def passed (now : ℤ) : End → Prop
  | .day d => d < panel.localDay now
  | .instant t => t < now

def expired (raw : Value) (now : ℤ) : Prop := ∃ e ∈ panel.end? raw, panel.passed now e

def noLater : End → End → Prop
  | .day d, .day d' => d ≤ d'
  | .day d, .instant t' => d < panel.localDay (t' + 1)
  | .instant t, .day d' => panel.localDay t ≤ d'
  | .instant t, .instant t' => t ≤ t'

end Panel

def AtMost (p x : Amount) : Prop := p.limited = true → x.limited = true ∧ x.le p = true

structure EntryLaw (panel : Panel) (plims : Limits) (k : String) (w : Value) : Prop where
  atMost : k ∈ delegableLimitKeys → AtMost (num (plims.at k)) (num w)
  expired : k = "grants_expire_at" → ∀ now, panel.expired (plims.at k) now → panel.expired w now

def LimitsLaw (panel : Panel) (plims limits : Limits) : Prop :=
  ∃ out, clampDelegatedLimits (some plims) limits = some out ∧
    (∀ k w, (k, w) ∈ out → EntryLaw panel plims k w) ∧
    clampDelegatedLimits (some plims) out = some out

def CreditLaw (creditLimit : String) (readable : Bool) (requested : Value) : Prop :=
  let read := if readable then some creditLimit else none
  let out := clampDelegatedCredit read requested
  AtMost (num (.str creditLimit)) (num (.str out)) ∧ clampDelegatedCredit read (.str out) = out

def Amount.Counts : Amount → Prop
  | finite q => 1 ≤ q
  | infinite => False

def Amount.Survives : Amount → Amount → Prop
  | finite q, p => 1 / 200 < q ∧ (finite (nearest (cents q / 100))).le p = true
  | infinite, p => p = infinite

def CountFits (p c : Amount) : Prop :=
  if p.limited then if c.limited ∧ c.le p then c.Counts else p.Counts else c ≠ .infinite

def MoneyFits (p c : Amount) : Prop :=
  p.limited = true → if c.limited ∧ c.le p then c.Survives p else p.Survives p

def ExpiryFits (panel : Panel) (v pv : Value) : Prop :=
  replaced v.stripped pv.stripped = false →
    ∀ e' ∈ panel.end? pv, ∃ e ∈ panel.end? v, panel.noLater e e'

structure EntryFits (panel : Panel) (plims : Limits) (k : String) (v : Value) : Prop where
  counter : k ∈ counterKeys → CountFits (num (plims.at k)) (num v)
  money : k ∈ moneyKeys → MoneyFits (num (plims.at k)) (num v)
  expiry : k = "grants_expire_at" → ExpiryFits panel v (plims.at k)

def CreditFits (creditLimit : String) (readable : Bool) (requested : Value) : Prop :=
  if readable then MoneyFits (num (.str creditLimit)) (num requested)
  else (num (.str creditLimit)).limited = true →
    (num requested).Survives (num (.str creditLimit))

end RadiusModule.DelegationCaps
