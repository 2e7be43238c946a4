import RadiusModule.Library.FloatArith
import RadiusModule.Library.Run
import RadiusModule.Services.Migration.Committers

/-!
# Values of plans

Speeds, sizes and durations are read from texts in Arabic and in English. A
number is looked for in the text, and a unit by its names. In the target zero
means no limit. A reader gives `none` where it raises.
-/

namespace RadiusModule.Migration
open Library PyText Binary64

structure Parsed (α : Type) where
  value : Option α := none
  ok : Bool := false
  unlimited : Bool := false
  raw : String := ""

namespace ValueParse

/-- `_UNLIMITED` -/
def unlimitedWords : List String :=
  ["unlimited", "unlim", "infinite", "infinity", "no limit", "nolimit", "none", "n/a", "na", "-",
    "--", "---", "غير محدود", "غيرمحدود", "بلا حدود", "لا محدود", "لانهائي", "مفتوح", "بدون حد",
    "بدون حدود", "لا يوجد"]

def latinMark (c : Char) : Char :=
  if c = '٬' ∨ c = '،' then ',' else if c = '٫' then '.' else c

/-- `\d` -/
def isDecimal (c : Char) : Bool := (digit? c).isSome

def isSign (c : Char) : Bool := c = '+' || c = '-'

/-- `[\d,\.\s]` -/
def isNumberChar (c : Char) : Bool := isDecimal c || c = ',' || c = '.' || isSpace c

/-- `re.search(r"[-+]?\d[\d,\.\s]*", t)` -/
def firstNumber : List Char → Option (List Char)
  | [] => none
  | c :: cs =>
    if isDecimal c then some (c :: cs.takeWhile isNumberChar)
    else match cs with
      | d :: ds =>
        if isSign c && isDecimal d then some (c :: d :: ds.takeWhile isNumberChar)
        else firstNumber cs
      | [] => none

/-- `[-+]?\d{1,3}(,\d{3})+` -/
def isGrouped (cs : List Char) : Bool :=
  match splitChars ',' (if cs.head?.any isSign then cs.tail else cs) with
  | first :: group :: groups =>
    first ≠ [] && first.length ≤ 3 && first.all isDecimal &&
      (group :: groups).all fun g => g.length = 3 && g.all isDecimal
  | _ => false

def commaToPoint (c : Char) : Char := if c = ',' then '.' else c

/-- Of a comma and a point the last one is the decimal one. A comma alone is so too, unless it parts
thousands. -/
def resolveMarks (token : List Char) : List Char :=
  if '.' ∈ token ∧ ',' ∈ token then
    if (token.reverse.find? fun c => c = '.' || c = ',') = some '.' then
      token.filter fun c => c ≠ ','
    else (token.filter fun c => c ≠ '.').map commaToPoint
  else if ',' ∈ token then
    if isGrouped (token.filter fun c => c ≠ ' ') then token.filter fun c => c ≠ ','
    else token.map commaToPoint
  else token

def num (s : String) : Option PyFloat :=
  (firstNumber ((stripChars s.toList).map latinMark)).bind fun token =>
    FloatText.float?
      (String.ofList ((resolveMarks (stripChars token)).filter fun c => c ≠ ' '))

section
variable (script : Script)

def norm (s : String) : String :=
  String.ofList (subRuns isSpace (script.lower (strip s)).toList)

def isUnlimited (s : String) : Bool := unlimitedWords.contains (norm script s)

def speedUnits : List (List String × ℚ) :=
  [(["gbps", "gbit", "gb/s", "g", "جيجابت", "غيغابت", "جيجا"], 1000000),
    (["mbps", "mbit", "mb/s", "m", "ميجابت", "ميغابت", "ميجا", "ميغا"], 1000),
    (["kbps", "kbit", "kb/s", "k", "كيلوبت", "كيلو"], 1),
    (["bps", "bit", "بت", "بايت/ث"], nearest (1 / 1000))]

def sizeUnits : List (List String × ℚ) :=
  [(["tb", "tib", "tera", "تيرابايت", "تيرا"], 1024 * 1024),
    (["gb", "gib", "giga", "جيجابايت", "غيغابايت", "جيجا", "غيغا"], 1024),
    (["mb", "mib", "mega", "ميجابايت", "ميغابايت", "ميجا", "ميغا"], 1),
    (["kb", "kib", "kilo", "كيلوبايت", "كيلو"], 1 / 1024),
    (["byte", "bytes", "b", "بايت"], 1 / (1024 * 1024))]

def durationUnits : List (List String × ℚ) :=
  [(["y", "yr", "yrs", "year", "years", "سنة", "سنوات", "سنه", "عام", "أعوام"], 365 * 24 * 60),
    (["mo", "mon", "month", "months", "شهر", "أشهر", "اشهر", "شهور"], 30 * 24 * 60),
    (["w", "wk", "week", "weeks", "أسبوع", "اسبوع", "أسابيع", "اسابيع"], 7 * 24 * 60),
    (["d", "day", "days", "يوم", "أيام", "ايام", "يومًا", "يوما"], 24 * 60),
    (["h", "hr", "hrs", "hour", "hours", "ساعة", "ساعات", "ساعه", "س"], 60),
    (["m", "min", "mins", "minute", "minutes", "دقيقة", "دقائق", "دقيقه", "د"], 1)]

def factorOf (units : List (List String × ℚ)) (found : String → Bool) : Option ℚ :=
  (units.find? fun unit => unit.1.any found).map Prod.snd

def isLatin (c : Char) : Bool := 'a' ≤ c && c ≤ 'z'

/-- `re.search(r"(?<![a-z])" + name + r"(?![a-z])", low)`, behind a character that is a letter or
not. -/
def standsIn (name : List Char) (behindLatin : Bool) : List Char → Bool
  | [] => false
  | c :: cs =>
    (!behindLatin && name.isPrefixOf (c :: cs) &&
      !((c :: cs).drop name.length).head?.any isLatin) || standsIn name (isLatin c) cs

def speedFactor (s : String) : Option ℚ :=
  factorOf speedUnits fun name => decide (name.toList <:+: (norm script s).toList)

def sizeFactor (s : String) : Option ℚ :=
  factorOf sizeUnits fun name => standsIn name.toList false (norm script s).toList

/-- `int(round(x)) if (x == 0 or x >= 1) else 1` -/
def roundUp (x : PyFloat) : Option ℤ := if x = .finite 0 ∨ x.atLeast 1 then x.round else some 1

def parseWith (value : PyFloat → Option ℤ) (s : String) : Option (Parsed ℤ) :=
  if isUnlimited script s then some { value := some 0, ok := true, unlimited := true, raw := s }
  else match num s with
    | none => some { raw := s }
    | some n => (value n).map fun v => { value := some v, ok := true, raw := s }

/-- `parse_speed`. A number without a unit is in kbps, a huge one in bps. -/
def parseSpeed (s : String) : Option (Parsed ℤ) :=
  parseWith script (fun n =>
    match speedFactor script s with
    | some factor => roundUp (n.scale factor)
    | none => if n.atLeast 1000000 then (n.scale (1 / 1000)).round else n.round) s

def parseDataSize (s : String) : Option (Parsed ℤ) :=
  parseWith script (fun n =>
    match sizeFactor script s with
    | some factor => roundUp (n.scale factor)
    | none => n.round) s

end

/-- `[A-Za-z؀-ۿ]` -/
def isUnitChar (c : Char) : Bool := c.isAlpha || (0x600 ≤ c.toNat && c.toNat ≤ 0x6ff)

/-- A `+`: as many characters of a run as leave a match of the rest, but one at least. -/
def greedy {β : Type} (rest : List Char → List Char → Option β) (taken : List Char) :
    List Char → List Char → Option β
  | [], after => if taken = [] then none else rest taken after
  | c :: run, after =>
    (greedy rest (taken ++ [c]) run after).or
      (if taken = [] then none else rest taken (c :: run ++ after))

def unitAt (cs : List Char) : Option (List Char × List Char) :=
  let cs := cs.dropWhile isSpace
  if cs.takeWhile isUnitChar = [] then none
  else some (cs.takeWhile isUnitChar, cs.dropWhile isUnitChar)

abbrev Amount := List Char × List Char

def amountWith (number cs : List Char) : Option (Amount × List Char) :=
  (unitAt cs).map fun unit => ((number, unit.1), unit.2)

def unsignedAmountAt (sign cs : List Char) : Option (Amount × List Char) :=
  greedy (fun whole cs =>
    (match cs with
      | '.' :: cs =>
        greedy (fun places cs => amountWith (sign ++ whole ++ '.' :: places) cs) []
          (cs.takeWhile isDecimal) (cs.dropWhile isDecimal)
      | _ => none).or (amountWith (sign ++ whole) cs))
    [] (cs.takeWhile isDecimal) (cs.dropWhile isDecimal)

/-- `([-+]?\d+(?:\.\d+)?)\s*([A-Za-z؀-ۿ]+)`, at the head of a text. -/
def amountAt : List Char → Option (Amount × List Char)
  | [] => none
  | c :: cs => if isSign c then unsignedAmountAt [c] cs else unsignedAmountAt [] (c :: cs)

/-- `re.finditer`: the matches one after another; `skip` characters still belong to the last. -/
def amounts (skip : ℕ) : List Char → List Amount
  | [] => []
  | c :: cs =>
    match skip with
    | skip + 1 => amounts skip cs
    | 0 =>
      match amountAt (c :: cs) with
      | some (amount, rest) => amount :: amounts (cs.length - rest.length) cs
      | none => amounts 0 cs

section
variable (script : Script)

def knownAmounts (s : String) : List (PyFloat × ℚ) :=
  (amounts 0 (norm script s).toList).filterMap fun amount => do
    let factor ← factorOf durationUnits fun name => name.toList = amount.2
    let val ← FloatText.float? (String.ofList amount.1)
    return (val, factor)

/-- `total_min`; a number without a known unit is in days. -/
def totalMinutes (s : String) : Option PyFloat :=
  if knownAmounts script s = [] then (num s).map fun n => (n.scale 24).scale 60
  else some ((knownAmounts script s).foldl (fun total amount =>
    total.add (amount.1.scale amount.2)) (.finite 0))

structure Duration where
  days : ℤ
  minutes : ℤ

def parseDuration (s : String) : Option (Parsed Duration) :=
  if isUnlimited script s then
    some { value := some ⟨0, 0⟩, ok := true, unlimited := true, raw := s }
  else match totalMinutes script s with
    | none => some { raw := s }
    | some total => do
      let days ← (total.scale (1 / (24 * 60))).round
      let minutes ← total.round
      return { value := some ⟨days, minutes⟩, ok := true, raw := s }

end

section
variable (script : Script)

def HoldsPositive (s : String) : Prop :=
  isUnlimited script s = false ∧ ∃ n, num s = some n ∧ n.Positive

instance (s : String) : Decidable (HoldsPositive script s) :=
  decidable_of_iff (isUnlimited script s = false ∧ (num s).any fun n => decide n.Positive) (by
    rw [HoldsPositive, Option.any_eq_true_iff_get]
    cases num s <;> simp)

def GivesPositive {α : Type} (amount : α → ℤ) (parsed : Option (Parsed α)) : Prop :=
  ∃ p v, parsed = some p ∧ p.ok = true ∧ p.value = some v ∧ 0 < amount v

def SpeedKept (s : String) : Prop :=
  HoldsPositive script s → GivesPositive id (parseSpeed script s)

def DataSizeKept (s : String) : Prop :=
  HoldsPositive script s → GivesPositive id (parseDataSize script s)

def DurationKept (s : String) : Prop :=
  HoldsPositive script s → GivesPositive Duration.minutes (parseDuration script s)

def InRange (q : ℚ) : Prop := 2 ^ (-1075 : ℤ) < q ∧ q < 2 ^ 1024 - 2 ^ 970

def Counted (factor : Option ℚ) (s : String) : Prop :=
  ∃ q, num s = some (.finite q) ∧
    match factor with
    | some f => InRange (q * f)
    | none => 1 / 2 < q

def LongerThan (minutes : ℚ) (s : String) : Prop :=
  ∃ q, totalMinutes script s = some (.finite q) ∧ minutes < q

variable {script} {s : String}

theorem factorOf_pos {units : List (List String × ℚ)} (h : ∀ unit ∈ units, 0 < unit.2)
    {found : String → Bool} {f : ℚ} (hf : factorOf units found = some f) : 0 < f := by
  obtain ⟨unit, hunit, rfl⟩ := Option.map_eq_some_iff.mp hf
  exact h unit (List.mem_of_find?_eq_some hunit)

theorem speedFactor_pos {f : ℚ} (h : speedFactor script s = some f) : 0 < f := by
  have hmilli : 0 < nearest (1 / 1000) := by
    rw [nearest_pos_iff]
    exact (zpow_le_zpow_right₀ one_le_two (by norm_num : (-1075 : ℤ) ≤ -10)).trans_lt (by norm_num)
  refine factorOf_pos ?_ h
  simp only [speedUnits, List.forall_mem_cons, List.not_mem_nil, false_imp_iff, implies_true,
    and_true]
  exact ⟨by norm_num, by norm_num, by norm_num, hmilli⟩

theorem sizeFactor_pos {f : ℚ} (h : sizeFactor script s = some f) : 0 < f := by
  refine factorOf_pos ?_ h
  simp only [sizeUnits, List.forall_mem_cons, List.not_mem_nil, false_imp_iff, implies_true,
    and_true]
  norm_num

theorem roundUp_finite {x : ℚ} (hx : 0 ≤ x) :
    (∃ v, roundUp (.finite x) = some v ∧ 0 < v) ↔ 0 < x := by
  rcases hx.eq_or_lt with rfl | hpos
  · have hzero : roundHalfEven 0 = 0 := by simpa using roundHalfEven_intCast 0
    simp [roundUp, PyFloat.round, hzero]
  · refine iff_of_true ?_ hpos
    by_cases hone : 1 ≤ x
    · have hround : (1 : ℤ) ≤ roundHalfEven x := le_roundHalfEven (by simpa using hone)
      rw [roundUp, if_pos (.inr (decide_eq_true hone))]
      exact ⟨_, rfl, hround⟩
    · rw [roundUp, if_neg (by simp [PyFloat.atLeast, hpos.ne', hone])]
      exact ⟨1, rfl, one_pos⟩

theorem roundUp_pos_iff {n : PyFloat} (hn : n.Positive) {f : ℚ} (hf : 0 < f) :
    (∃ v, roundUp (n.scale f) = some v ∧ 0 < v) ↔ ∃ q, n = .finite q ∧ InRange (q * f) := by
  have hinfinite : ¬ ∃ v, roundUp (.infinite false) = some v ∧ 0 < v := by
    simp [roundUp, PyFloat.atLeast, PyFloat.round]
  cases n with
  | finite q =>
    have hpos : 0 < q * f := mul_pos hn hf
    simp only [PyFloat.scale, PyFloat.finite.injEq, exists_eq_left', PyFloat.ofRat_of_pos hpos]
    by_cases hlimit : q * f < 2 ^ 1024 - 2 ^ 970
    · rw [if_pos hlimit, roundUp_finite (nearest_nonneg hpos.le), nearest_pos_iff, InRange,
        and_iff_left hlimit]
    · rw [if_neg hlimit]
      exact iff_of_false hinfinite fun h => hlimit h.2
  | infinite negative =>
    obtain rfl : negative = false := hn
    exact iff_of_false hinfinite (by simp)
  | nan => exact absurd hn id

theorem bare_speed_pos_iff {n : PyFloat} (hn : ∀ q, n = .finite q → |q| < 2 ^ 1024) :
    (∃ v, (if n.atLeast 1000000 then (n.scale (1 / 1000)).round else n.round) = some v ∧ 0 < v) ↔
      ∃ q, n = .finite q ∧ 1 / 2 < q := by
  by_cases hlarge : n.atLeast 1000000 = true
  · rw [if_pos hlarge]
    cases n with
    | finite q =>
      have hq : (1000000 : ℚ) ≤ q := of_decide_eq_true hlarge
      have hpos : 0 < q * (1 / 1000) := by linarith
      have hhalf : 2 ^ (9 : ℤ) ≤ q * (1 / 1000) := by
        norm_num
        linarith
      obtain ⟨r, hr⟩ := PyFloat.ofRat_mul_finite (f := 1 / 1000) (hn q rfl) (by norm_num)
        (by norm_num)
      have hr' : 2 ^ (9 : ℤ) ≤ r := by
        rw [PyFloat.eq_nearest_of_ofRat hpos hr]
        exact le_nearest_of_pow (by norm_num) hhalf
      rw [PyFloat.scale, hr, PyFloat.round_pos_iff]
      simp only [PyFloat.finite.injEq, exists_eq_left']
      norm_num at hr'
      exact iff_of_true (by linarith) (by linarith)
    | infinite negative => simp [PyFloat.scale, PyFloat.round]
    | nan => simp [PyFloat.scale, PyFloat.round]
  · rw [if_neg hlarge, PyFloat.round_pos_iff]

theorem givesPositive_parseWith {value : PyFloat → Option ℤ} {n : PyFloat}
    (hlimited : isUnlimited script s = false) (hn : num s = some n) :
    GivesPositive id (parseWith script value s) ↔ ∃ v, value n = some v ∧ 0 < v := by
  rw [parseWith, hlimited, if_neg Bool.false_ne_true, hn]
  constructor
  · rintro ⟨p, v, hp, -, hv, hpos⟩
    obtain ⟨w, hw, rfl⟩ := Option.map_eq_some_iff.mp hp
    obtain rfl := Option.some_inj.mp hv
    exact ⟨w, hw, hpos⟩
  · rintro ⟨v, hv, hpos⟩
    refine ⟨{ value := some v, ok := true, raw := s }, v, ?_, rfl, rfl, hpos⟩
    change (value n).map _ = _
    rw [hv]
    rfl

theorem num_lt {n : PyFloat} (hn : num s = some n) (q : ℚ) (hq : n = .finite q) :
    |q| < 2 ^ 1024 := by
  obtain ⟨token, -, htoken⟩ := Option.bind_eq_some_iff.mp hn
  rw [hq] at htoken
  exact PyFloat.lt_of_float? htoken

theorem parseSpeed_pos_iff (h : HoldsPositive script s) :
    GivesPositive id (parseSpeed script s) ↔ Counted (speedFactor script s) s := by
  obtain ⟨hlimited, n, hn, hpos⟩ := h
  rw [parseSpeed, givesPositive_parseWith hlimited hn, Counted, hn]
  simp only [Option.some.injEq]
  cases hfactor : speedFactor script s with
  | some f => exact roundUp_pos_iff hpos (speedFactor_pos hfactor)
  | none => exact bare_speed_pos_iff (num_lt hn)

theorem parseDataSize_pos_iff (h : HoldsPositive script s) :
    GivesPositive id (parseDataSize script s) ↔ Counted (sizeFactor script s) s := by
  obtain ⟨hlimited, n, hn, hpos⟩ := h
  rw [parseDataSize, givesPositive_parseWith hlimited hn, Counted, hn]
  simp only [Option.some.injEq]
  cases hfactor : sizeFactor script s with
  | some f => exact roundUp_pos_iff hpos (sizeFactor_pos hfactor)
  | none => exact PyFloat.round_pos_iff

theorem rounded_totalMinutes {t : PyFloat} (h : totalMinutes script s = some t) : t.Rounded := by
  rw [totalMinutes] at h
  split_ifs at h with hknown
  · obtain ⟨n, -, rfl⟩ := Option.map_eq_some_iff.mp h
    exact PyFloat.rounded_scale _ 60
  · obtain rfl := Option.some_inj.mp h
    refine Run.run_always (I := PyFloat.Rounded)
      (fun _ amount _ => PyFloat.rounded_add _ (amount.1.scale amount.2)) ?_
    intro q hq
    obtain rfl := PyFloat.finite.inj hq
    exact ⟨by simp, fun h => absurd h (lt_irrefl 0)⟩

theorem days_pos_iff {q r : ℚ} (hq : (PyFloat.finite q).Rounded)
    (hr : PyFloat.ofRat (q * (1 / (24 * 60))) = .finite r) : 1 / 2 < r ↔ 720 < q := by
  have hhalf : (2 : ℚ) ^ (-1 : ℤ) = 1 / 2 := by norm_num
  rcases le_or_gt q 0 with hneg | hpos
  · have hdays := PyFloat.nonpos_of_ofRat (mul_nonpos_of_nonpos_of_nonneg hneg (by norm_num)) hr
    exact iff_of_false (by linarith) (by linarith)
  have hdays : 0 < q * (1 / (24 * 60)) := by positivity
  rw [PyFloat.eq_nearest_of_ofRat hdays hr, ← hhalf]
  constructor
  · intro h
    by_contra hle
    refine absurd (nearest_le_of_pow (k := -1) (by norm_num) ?_) (not_le.mpr h)
    rw [hhalf]
    linarith
  · intro h
    obtain ⟨x, rfl⟩ := (hq q rfl).2 hpos
    have hgap := natCast_add_le_nearest (k := 9) (n := 720) (q := x) (by norm_num) (by norm_num)
      (by norm_num) (by exact_mod_cast h)
    refine lt_nearest_of_pow (by norm_num) ?_
    norm_num at hgap ⊢
    linarith

theorem parseDuration_of_finite (hlimited : isUnlimited script s = false) {q : ℚ}
    (ht : totalMinutes script s = some (.finite q)) :
    ∃ r, PyFloat.ofRat (q * (1 / (24 * 60))) = .finite r ∧ parseDuration script s =
      some { value := some ⟨roundHalfEven r, roundHalfEven q⟩, ok := true, raw := s } := by
  obtain ⟨r, hr⟩ := PyFloat.ofRat_mul_finite (f := 1 / (24 * 60))
    (rounded_totalMinutes ht q rfl).1 (by norm_num) (by norm_num)
  refine ⟨r, hr, ?_⟩
  rw [parseDuration, hlimited, if_neg Bool.false_ne_true, ht]
  dsimp only
  rw [PyFloat.scale, hr]
  rfl

theorem parseDuration_of_not_finite (hlimited : isUnlimited script s = false) {t : PyFloat}
    (ht : totalMinutes script s = some t) (hfinite : ∀ q, t ≠ .finite q) :
    parseDuration script s = none := by
  rw [parseDuration, hlimited, if_neg Bool.false_ne_true, ht]
  cases t with
  | finite q => exact absurd rfl (hfinite q)
  | infinite negative => rfl
  | nan => rfl

theorem parseDuration_pos_iff (hlimited : isUnlimited script s = false) {amount : Duration → ℤ}
    {limit : ℚ} (h : ∀ q r, (PyFloat.finite q).Rounded →
      PyFloat.ofRat (q * (1 / (24 * 60))) = .finite r →
      (0 < amount ⟨roundHalfEven r, roundHalfEven q⟩ ↔ limit < q)) :
    GivesPositive amount (parseDuration script s) ↔ LongerThan script limit s := by
  constructor
  · rintro ⟨p, v, hp, hok, hv, hpos⟩
    cases ht : totalMinutes script s with
    | none =>
      rw [parseDuration, hlimited, if_neg Bool.false_ne_true, ht] at hp
      obtain rfl := Option.some_inj.mp hp
      cases hok
    | some t =>
      by_cases hfinite : ∀ q, t ≠ .finite q
      · rw [parseDuration_of_not_finite hlimited ht hfinite] at hp
        cases hp
      · obtain ⟨q, rfl⟩ := not_forall_not.mp hfinite
        obtain ⟨r, hr, hparse⟩ := parseDuration_of_finite hlimited ht
        rw [hparse] at hp
        obtain rfl := Option.some_inj.mp hp
        obtain rfl := Option.some_inj.mp hv
        exact ⟨q, ht, (h q r (rounded_totalMinutes ht) hr).mp hpos⟩
  · rintro ⟨q, ht, hlt⟩
    obtain ⟨r, hr, hparse⟩ := parseDuration_of_finite hlimited ht
    exact ⟨_, _, hparse, rfl, rfl, (h q r (rounded_totalMinutes ht) hr).mpr hlt⟩

theorem parseDuration_minutes_iff (hlimited : isUnlimited script s = false) :
    GivesPositive Duration.minutes (parseDuration script s) ↔ LongerThan script (1 / 2) s :=
  parseDuration_pos_iff hlimited fun _ _ _ _ => roundHalfEven_pos_iff

theorem parseDuration_days_iff (hlimited : isUnlimited script s = false) :
    GivesPositive Duration.days (parseDuration script s) ↔ LongerThan script 720 s :=
  parseDuration_pos_iff hlimited fun _ _ hq hr =>
    roundHalfEven_pos_iff.trans (days_pos_iff hq hr)

def NumberFits (script : Script) (factor : Option ℚ) (s : String) : Prop :=
  isUnlimited script s = false → ∀ n, num s = some n →
    match factor with
    | some f => n ≠ .infinite false ∧ ∀ q, n = .finite q → q * f < 2 ^ 1024 - 2 ^ 970
    | none => ∃ q, n = .finite q

def TotalFits (script : Script) (s : String) : Prop :=
  isUnlimited script s = false → ∀ t, totalMinutes script s = some t → ∃ q, t = .finite q

theorem isSome_round {x : PyFloat} : x.round.isSome = true ↔ ∃ q, x = .finite q := by
  cases x <;> simp [PyFloat.round]

theorem isSome_roundUp {x : PyFloat} : (roundUp x).isSome = true ↔ x ≠ .infinite false := by
  cases x with
  | finite q =>
    rw [roundUp]
    split_ifs <;> simp [PyFloat.round]
  | infinite negative => cases negative <;> simp [roundUp, PyFloat.atLeast, PyFloat.round]
  | nan => simp [roundUp, PyFloat.atLeast]

theorem scale_ne_infinite {n : PyFloat} {f : ℚ} : n.scale f ≠ .infinite false ↔
    n ≠ .infinite false ∧ ∀ q, n = .finite q → q * f < 2 ^ 1024 - 2 ^ 970 := by
  cases n with
  | finite q => simp only [PyFloat.scale, ne_eq, PyFloat.ofRat_eq_infinite_iff, not_le,
      reduceCtorEq, not_false_eq_true, true_and, PyFloat.finite.injEq, forall_eq']
  | infinite negative => simp [PyFloat.scale]
  | nan => simp [PyFloat.scale]

theorem isSome_parseWith {value : PyFloat → Option ℤ} :
    (parseWith script value s).isSome = true ↔
      (isUnlimited script s = false → ∀ n, num s = some n → (value n).isSome = true) := by
  rw [parseWith]
  cases hlimited : isUnlimited script s with
  | true => simp
  | false => cases hn : num s <;> simp

theorem isSome_parseSpeed :
    (parseSpeed script s).isSome = true ↔ NumberFits script (speedFactor script s) s := by
  rw [parseSpeed, isSome_parseWith, NumberFits]
  refine forall_congr' fun _ => forall_congr' fun n => forall_congr' fun hn => ?_
  cases hfactor : speedFactor script s with
  | some f => exact isSome_roundUp.trans scale_ne_infinite
  | none =>
    cases n with
    | finite q =>
      refine iff_of_true ?_ ⟨q, rfl⟩
      dsimp only
      split_ifs
      · obtain ⟨r, hr⟩ := PyFloat.ofRat_mul_finite (f := 1 / 1000) (num_lt hn q rfl) (by norm_num)
          (by norm_num)
        rw [PyFloat.scale, hr]
        rfl
      · rfl
    | infinite negative => simp [PyFloat.scale, PyFloat.round]
    | nan => simp [PyFloat.scale, PyFloat.round]

theorem isSome_parseDataSize :
    (parseDataSize script s).isSome = true ↔ NumberFits script (sizeFactor script s) s := by
  rw [parseDataSize, isSome_parseWith, NumberFits]
  refine forall_congr' fun _ => forall_congr' fun n => forall_congr' fun hn => ?_
  cases hfactor : sizeFactor script s with
  | some f => exact isSome_roundUp.trans scale_ne_infinite
  | none => exact isSome_round

theorem isSome_parseDuration : (parseDuration script s).isSome = true ↔ TotalFits script s := by
  rw [TotalFits]
  cases hlimited : isUnlimited script s with
  | true => simp [parseDuration, hlimited]
  | false =>
    cases ht : totalMinutes script s with
    | none => simp [parseDuration, hlimited, ht]
    | some t =>
      simp only [forall_const, Option.some.injEq, forall_eq']
      by_cases hfinite : ∃ q, t = .finite q
      · obtain ⟨q, rfl⟩ := hfinite
        obtain ⟨r, -, hparse⟩ := parseDuration_of_finite hlimited ht
        simp [hparse]
      · rw [parseDuration_of_not_finite hlimited ht (not_exists.mp hfinite)]
        exact iff_of_false (by simp) hfinite

end

end ValueParse

open ValueParse

def Parsed.reading {α : Type} (amount : α → ℤ) (p : Parsed α) : Option ℤ :=
  if p.ok then p.value.map amount else none

def Readers.parsing (r : Readers) : Readers := { r with
  speed := fun s => (parseSpeed r.toScript s).map (Parsed.reading id)
  dataSize := fun s => (parseDataSize r.toScript s).map (Parsed.reading id)
  durationDays := fun s => (parseDuration r.toScript s).map (Parsed.reading Duration.days) }

@[simp] theorem parsing_speed (r : Readers) (s : String) :
    r.parsing.speed s = (parseSpeed r.toScript s).map (Parsed.reading id) := rfl

@[simp] theorem parsing_dataSize (r : Readers) (s : String) :
    r.parsing.dataSize s = (parseDataSize r.toScript s).map (Parsed.reading id) := rfl

@[simp] theorem parsing_durationDays (r : Readers) (s : String) : r.parsing.durationDays s =
    (parseDuration r.toScript s).map (Parsed.reading Duration.days) := rfl

theorem isSome_of_map {α β : Type} {f : α → β} {x : Option α} {y : β} (h : x.map f = some y) :
    x.isSome = true := by
  obtain ⟨a, rfl, -⟩ := Option.map_eq_some_iff.mp h
  rfl

theorem readers_positive {α : Type} {amount : α → ℤ} {parsed : Option (Parsed α)}
    {attr : Option ℤ} (h : parsed.map (Parsed.reading amount) = some attr) :
    (∃ v, attr = some v ∧ 0 < v) ↔ GivesPositive amount parsed := by
  obtain ⟨p, rfl, rfl⟩ := Option.map_eq_some_iff.mp h
  constructor
  · rintro ⟨v, hv, hpos⟩
    rw [Parsed.reading] at hv
    split_ifs at hv with hok
    obtain ⟨w, hw, rfl⟩ := Option.map_eq_some_iff.mp hv
    exact ⟨p, w, rfl, hok, hw, hpos⟩
  · rintro ⟨q, w, hq, hok, hw, hpos⟩
    obtain rfl := Option.some_inj.mp hq
    exact ⟨amount w, by rw [Parsed.reading, if_pos hok, hw]; rfl, hpos⟩

def Candidate.speedDown (c : Candidate) : String :=
  if c.has "speed_down" then c.text "speed_down" else c.textOr "speed"

def Candidate.speedUp (c : Candidate) : String := c.textOr "speed_up"

def Candidate.dataQuota (c : Candidate) : String := c.textOr "data_quota"

def Candidate.validity (c : Candidate) : String := c.textOr "validity_days"

theorem planAttrs_eq_some_iff {r : Readers} {c : Candidate} {attrs : PlanAttrs} :
    planAttrs r c = some attrs ↔ r.speed c.speedDown = some attrs.speedDownKbps ∧
      r.speed c.speedUp = some attrs.speedUpKbps ∧ r.dataSize c.dataQuota = some attrs.quotaTotalMb ∧
      r.durationDays c.validity = some attrs.validityDays ∧
      r.money (c.textOr "price") = attrs.price := by
  rw [planAttrs]
  constructor
  · intro h
    obtain ⟨down, hdown, h⟩ := Option.bind_eq_some_iff.mp h
    obtain ⟨up, hup, h⟩ := Option.bind_eq_some_iff.mp h
    obtain ⟨q, hq, h⟩ := Option.bind_eq_some_iff.mp h
    obtain ⟨d, hd, h⟩ := Option.bind_eq_some_iff.mp h
    obtain rfl := Option.some_inj.mp h
    exact ⟨hdown, hup, hq, hd, rfl⟩
  · rintro ⟨hdown, hup, hq, hd, hprice⟩
    simp only [Candidate.speedDown, Candidate.speedUp, Candidate.dataQuota,
      Candidate.validity] at hdown hup hq hd
    rw [hdown, hup, hq, hd, hprice]
    rfl

section
variable (r : Readers) (c : Candidate)

structure LimitsPositive (attrs : PlanAttrs) : Prop where
  speedDown : HoldsPositive r.toScript c.speedDown → ∃ v, attrs.speedDownKbps = some v ∧ 0 < v
  speedUp : HoldsPositive r.toScript c.speedUp → ∃ v, attrs.speedUpKbps = some v ∧ 0 < v
  quota : HoldsPositive r.toScript c.dataQuota → ∃ v, attrs.quotaTotalMb = some v ∧ 0 < v
  validity : HoldsPositive r.toScript c.validity → ∃ v, attrs.validityDays = some v ∧ 0 < v

def PlanKept : Prop := ∀ attrs, planAttrs r.parsing c = some attrs → LimitsPositive r c attrs

structure TextsFit : Prop where
  speedDown : NumberFits r.toScript (speedFactor r.toScript c.speedDown) c.speedDown
  speedUp : NumberFits r.toScript (speedFactor r.toScript c.speedUp) c.speedUp
  quota : NumberFits r.toScript (sizeFactor r.toScript c.dataQuota) c.dataQuota
  validity : TotalFits r.toScript c.validity

structure TextsCount : Prop where
  speedDown : HoldsPositive r.toScript c.speedDown →
    Counted (speedFactor r.toScript c.speedDown) c.speedDown
  speedUp : HoldsPositive r.toScript c.speedUp →
    Counted (speedFactor r.toScript c.speedUp) c.speedUp
  quota : HoldsPositive r.toScript c.dataQuota →
    Counted (sizeFactor r.toScript c.dataQuota) c.dataQuota
  validity : HoldsPositive r.toScript c.validity → LongerThan r.toScript 720 c.validity

variable {r c}

theorem exists_planAttrs_iff :
    (∃ attrs, planAttrs r.parsing c = some attrs) ↔ TextsFit r c := by
  simp only [planAttrs_eq_some_iff, parsing_speed, parsing_dataSize, parsing_durationDays]
  constructor
  · rintro ⟨attrs, hdown, hup, hquota, hvalidity, -⟩
    constructor
    · rw [← isSome_parseSpeed, isSome_of_map hdown]
    · rw [← isSome_parseSpeed, isSome_of_map hup]
    · rw [← isSome_parseDataSize, isSome_of_map hquota]
    · rw [← isSome_parseDuration, isSome_of_map hvalidity]
  · rintro ⟨hdown, hup, hquota, hvalidity⟩
    rw [← isSome_parseSpeed] at hdown hup
    rw [← isSome_parseDataSize] at hquota
    rw [← isSome_parseDuration] at hvalidity
    obtain ⟨down, hdown⟩ := Option.isSome_iff_exists.mp hdown
    obtain ⟨up, hup⟩ := Option.isSome_iff_exists.mp hup
    obtain ⟨quota, hquota⟩ := Option.isSome_iff_exists.mp hquota
    obtain ⟨validity, hvalidity⟩ := Option.isSome_iff_exists.mp hvalidity
    rw [hdown, hup, hquota, hvalidity]
    exact ⟨⟨_, down.reading id, up.reading id, quota.reading id, validity.reading Duration.days⟩,
      rfl, rfl, rfl, rfl, rfl⟩

theorem limitsPositive_iff {attrs : PlanAttrs} (h : planAttrs r.parsing c = some attrs) :
    LimitsPositive r c attrs ↔ TextsCount r c := by
  obtain ⟨hdown, hup, hquota, hvalidity, -⟩ := planAttrs_eq_some_iff.mp h
  rw [parsing_speed] at hdown hup
  rw [parsing_dataSize] at hquota
  rw [parsing_durationDays] at hvalidity
  have hspeedDown := readers_positive hdown
  have hspeedUp := readers_positive hup
  have hdataQuota := readers_positive hquota
  have hdays := readers_positive hvalidity
  constructor
  · rintro ⟨down, up, quota, validity⟩
    exact ⟨fun hs => (parseSpeed_pos_iff hs).mp (hspeedDown.mp (down hs)),
      fun hs => (parseSpeed_pos_iff hs).mp (hspeedUp.mp (up hs)),
      fun hs => (parseDataSize_pos_iff hs).mp (hdataQuota.mp (quota hs)),
      fun hs => (parseDuration_days_iff hs.1).mp (hdays.mp (validity hs))⟩
  · rintro ⟨down, up, quota, validity⟩
    exact ⟨fun hs => hspeedDown.mpr ((parseSpeed_pos_iff hs).mpr (down hs)),
      fun hs => hspeedUp.mpr ((parseSpeed_pos_iff hs).mpr (up hs)),
      fun hs => hdataQuota.mpr ((parseDataSize_pos_iff hs).mpr (quota hs)),
      fun hs => hdays.mpr ((parseDuration_days_iff hs.1).mpr (validity hs))⟩

theorem planKept_iff : PlanKept r c ↔ (TextsFit r c → TextsCount r c) := by
  rw [← exists_planAttrs_iff]
  constructor
  · rintro h ⟨attrs, hattrs⟩
    exact (limitsPositive_iff hattrs).mp (h attrs hattrs)
  · intro h attrs hattrs
    exact (limitsPositive_iff hattrs).mpr (h ⟨attrs, hattrs⟩)

/-- A limit stays a limit exactly when its text is large enough: a number with a unit whose product
neither vanishes nor overflows, a bare number above one half, and a duration above half a minute, or
above half a day where it becomes days. -/
theorem limits_kept_iff (r : Readers) :
    (∀ s, SpeedKept r.toScript s ↔
      (HoldsPositive r.toScript s → Counted (speedFactor r.toScript s) s)) ∧
    (∀ s, DataSizeKept r.toScript s ↔
      (HoldsPositive r.toScript s → Counted (sizeFactor r.toScript s) s)) ∧
    (∀ s, DurationKept r.toScript s ↔
      (HoldsPositive r.toScript s → LongerThan r.toScript (1 / 2) s)) ∧
    ∀ c, PlanKept r c ↔ (TextsFit r c → TextsCount r c) :=
  ⟨fun _ => forall_congr' parseSpeed_pos_iff, fun _ => forall_congr' parseDataSize_pos_iff,
    fun _ => forall_congr' fun h => parseDuration_minutes_iff h.1, fun _ => planKept_iff⟩

end

def fiveHours : Candidate := ⟨[("name", .str "Night"), ("validity_days", .str "5 hours")]⟩

example : (parseSpeed latin "0.6").bind Parsed.value = some 1 := by decide +kernel

/-- A plan of five hours never expires, and a speed of less than one half has no limit. -/
theorem limits_lost : ¬ PlanKept latinReaders fiveHours ∧ ¬ SpeedKept latin "0.4" := by
  constructor
  · intro h
    have hattrs : (planAttrs latinReaders.parsing fiveHours).map PlanAttrs.validityDays =
        some (some 0) := by decide +kernel
    obtain ⟨attrs, hbuilt, hdays⟩ := Option.map_eq_some_iff.mp hattrs
    obtain ⟨v, hv, hpos⟩ := (h attrs hbuilt).validity (by decide +kernel)
    rw [hdays] at hv
    obtain rfl := Option.some_inj.mp hv
    exact absurd hpos (lt_irrefl 0)
  · intro h
    obtain ⟨p, v, hp, -, hv, hpos⟩ := h (by decide +kernel)
    have hzero : (parseSpeed latin "0.4").bind Parsed.value = some 0 := by decide +kernel
    rw [hp, Option.bind_some, hv] at hzero
    obtain rfl := Option.some_inj.mp hzero
    exact absurd hpos (lt_irrefl 0)

end RadiusModule.Migration
