import Mathlib.Data.Int.Basic
import Mathlib.Data.List.Basic
import Mathlib.Data.List.DropRight

/-!
# Text operations

`strip`, `lower`, `split` and `int` over the characters of a string, with the
white space and the decimal digits of the Unicode standard. A change of case acts
on the letters of ASCII and leaves the others as they are, some of which Python
changes as well.
-/

namespace RadiusModule.Library.PyText

instance (priority := 2000) decidableForallMem (p : Char → Prop) [DecidablePred p]
    (cs : List Char) : Decidable (∀ c ∈ cs, p c) := List.decidableBAll p cs

def spaces : List ℕ :=
  [9, 10, 11, 12, 13, 28, 29, 30, 31, 32, 133, 160, 5760, 8192, 8193, 8194, 8195, 8196, 8197,
    8198, 8199, 8200, 8201, 8202, 8232, 8233, 8239, 8287, 12288]

def isSpace (c : Char) : Bool := spaces.contains c.toNat

def stripChars (cs : List Char) : List Char :=
  ((cs.dropWhile isSpace).reverse.dropWhile isSpace).reverse

def strip (s : String) : String := String.ofList (stripChars s.toList)

def lower (s : String) : String := String.ofList (s.toList.map Char.toLower)

def upper (s : String) : String := String.ofList (s.toList.map Char.toUpper)

/-- The characters `str.isalnum` accepts, of the Latin ones. -/
def alnum (s : String) : String := String.ofList (s.toList.filter Char.isAlphanum)

def splitChars (sep : Char) : List Char → List (List Char)
  | [] => [[]]
  | c :: cs =>
    if c = sep then [] :: splitChars sep cs
    else match splitChars sep cs with
      | [] => [[c]]
      | w :: ws => (c :: w) :: ws

def split (s : String) (sep : Char) : List String := (splitChars sep s.toList).map String.ofList

def replaceChar (s : String) (old new : Char) : String :=
  String.ofList (s.toList.map fun c => if c = old then new else c)

def digitZeros : List ℕ :=
  [48, 1632, 1776, 1984, 2406, 2534, 2662, 2790, 2918, 3046, 3174, 3302, 3430, 3558, 3664, 3792,
    3872, 4160, 4240, 6112, 6160, 6470, 6608, 6784, 6800, 6992, 7088, 7232, 7248, 42528, 43216,
    43264, 43472, 43504, 43600, 44016, 65296, 66720, 68912, 69734, 69872, 69942, 70096, 70384,
    70736, 70864, 71248, 71360, 71472, 71904, 72016, 72784, 73040, 73120, 73552, 92768, 92864,
    93008, 120782, 120792, 120802, 120812, 120822, 123200, 123632, 124144, 125264, 130032]

def digit? (c : Char) : Option ℕ :=
  (digitZeros.find? fun z => z ≤ c.toNat && c.toNat < z + 10).map fun z => c.toNat - z

def digitsFrom (n : ℕ) : List Char → Option ℕ
  | [] => some n
  | '_' :: c :: cs => (digit? c).bind fun d => digitsFrom (10 * n + d) cs
  | c :: cs => (digit? c).bind fun d => digitsFrom (10 * n + d) cs

def natChars? : List Char → Option ℕ
  | [] => none
  | c :: cs => (digit? c).bind fun d => digitsFrom d cs

/-- `int(s)`: white space around an optional sign and decimal digits. -/
def int? (s : String) : Option ℤ :=
  match stripChars s.toList with
  | '+' :: cs => (natChars? cs).map fun n => (n : ℤ)
  | '-' :: cs => (natChars? cs).map fun n => -(n : ℤ)
  | cs => (natChars? cs).map fun n => (n : ℤ)

theorem filter_stripChars {p : Char → Bool} (hp : ∀ c, isSpace c = true → p c = false)
    (cs : List Char) : (stripChars cs).filter p = cs.filter p := by
  have hdrop : ∀ l : List Char, (l.dropWhile isSpace).filter p = l.filter p := by
    intro l
    induction l with
    | nil => rfl
    | cons c l ih =>
      cases hc : isSpace c
      · rw [List.dropWhile_cons_of_neg (by simp [hc])]
      · rw [List.dropWhile_cons_of_pos hc, ih, List.filter_cons_of_neg (by simp [hp c hc])]
  rw [stripChars, List.filter_reverse, hdrop, List.filter_reverse, List.reverse_reverse, hdrop]

theorem stripChars_map {f : Char → Char} (hf : ∀ c, isSpace (f c) = isSpace c) (cs : List Char) :
    stripChars (cs.map f) = (stripChars cs).map f := by
  have hspace : isSpace ∘ f = isSpace := funext hf
  simp only [stripChars, List.dropWhile_map, ← List.map_reverse, hspace]

theorem stripChars_stripChars (cs : List Char) : stripChars (stripChars cs) = stripChars cs := by
  have hhead : (stripChars cs).dropWhile isSpace = stripChars cs := by
    cases hstrip : stripChars cs with
    | nil => rfl
    | cons c rest =>
      have hprefix : stripChars cs <+: cs.dropWhile isSpace := List.rdropWhile_prefix isSpace _
      rw [hstrip] at hprefix
      obtain ⟨tail, htail⟩ := hprefix
      refine List.dropWhile_cons_of_neg ?_
      have hnot := List.head_dropWhile_not isSpace (by rw [← htail]; exact List.cons_ne_nil _ _)
      simpa [← htail] using hnot
  calc stripChars (stripChars cs)
      = List.rdropWhile isSpace ((stripChars cs).dropWhile isSpace) := rfl
    _ = List.rdropWhile isSpace (stripChars cs) := by rw [hhead]
    _ = stripChars cs := List.rdropWhile_idempotent isSpace _

theorem strip_strip (s : String) : strip (strip s) = strip s := by
  simp only [strip, String.toList_ofList, stripChars_stripChars]

theorem stripChars_sublist (cs : List Char) : (stripChars cs).Sublist cs := by
  have hback := (List.dropWhile_sublist isSpace (l := (cs.dropWhile isSpace).reverse)).reverse
  rw [List.reverse_reverse] at hback
  exact hback.trans (List.dropWhile_sublist isSpace)

theorem stripChars_of_noSpace {s : List Char} (hs : ∀ c ∈ s, isSpace c = false) :
    stripChars s = s := by
  have hkeep : s.filter (fun c => !isSpace c) = s :=
    List.filter_eq_self.mpr fun c hc => by simp [hs c hc]
  have hlost := filter_stripChars (p := fun c => !isSpace c) (fun c hc => by simp [hc]) s
  rw [hkeep] at hlost
  have hsub := List.filter_sublist (p := fun c => !isSpace c) (l := stripChars s)
  rw [hlost] at hsub
  exact (hsub.eq_of_length_le (stripChars_sublist _).length_le).symm

theorem length_strip_le (s : String) : (strip s).length ≤ s.length := by
  rw [← String.length_toList, ← String.length_toList, strip, String.toList_ofList]
  exact (stripChars_sublist s.toList).length_le

theorem toUpper_cases (c : Char) : c.toUpper = c ∨ ∃ n ∈ List.range' 97 26, c = Char.ofNat n := by
  by_cases h : 97 ≤ c.toNat ∧ c.toNat ≤ 122
  · exact .inr ⟨c.toNat, List.mem_range'_1.mpr ⟨h.1, by omega⟩, (Char.ofNat_toNat c).symm⟩
  · exact .inl (dif_neg h)

theorem toLower_cases (c : Char) : c.toLower = c ∨ ∃ n ∈ List.range' 65 26, c = Char.ofNat n := by
  by_cases h : 65 ≤ c.toNat ∧ c.toNat ≤ 90
  · exact .inr ⟨c.toNat, List.mem_range'_1.mpr ⟨h.1, by omega⟩, (Char.ofNat_toNat c).symm⟩
  · exact .inl (dif_neg h)

theorem toLower_toLower (c : Char) : c.toLower.toLower = c.toLower := by
  have hletters : ∀ n ∈ List.range' 65 26,
      (Char.ofNat n).toLower.toLower = (Char.ofNat n).toLower := by decide
  rcases toLower_cases c with h | ⟨n, hn, rfl⟩
  · rw [h, h]
  · exact hletters n hn

theorem toLower_of_isDigit {c : Char} (h : c.isDigit = true) : c.toLower = c := by
  have hletters : ∀ n ∈ List.range' 65 26, (Char.ofNat n).isDigit = false := by decide
  rcases toLower_cases c with hc | ⟨n, hn, rfl⟩
  · exact hc
  · rw [hletters n hn] at h
    cases h

theorem lower_lower (s : String) : lower (lower s) = lower s := by
  simp only [lower, String.toList_ofList, List.map_map]
  exact congrArg String.ofList (List.map_congr_left fun c _ => toLower_toLower c)

theorem lower_append (s t : String) : lower (s ++ t) = lower s ++ lower t := by
  simp only [lower, String.toList_append, List.map_append, String.ofList_append]

theorem lower_of_digits {s : String} (h : ∀ c ∈ s.toList, c.isDigit = true) : lower s = s := by
  rw [lower, List.map_congr_left fun c hc => toLower_of_isDigit (h c hc), List.map_id'',
    String.ofList_toList]
  exact fun _ => rfl

theorem isSpace_toUpper (c : Char) : isSpace c.toUpper = isSpace c := by
  have hletters : ∀ n ∈ List.range' 97 26,
      isSpace (Char.ofNat n).toUpper = isSpace (Char.ofNat n) := by decide
  rcases toUpper_cases c with h | ⟨n, hn, rfl⟩
  · rw [h]
  · exact hletters n hn

theorem isSpace_toLower (c : Char) : isSpace c.toLower = isSpace c := by
  have hletters : ∀ n ∈ List.range' 65 26,
      isSpace (Char.ofNat n).toLower = isSpace (Char.ofNat n) := by decide
  rcases toLower_cases c with h | ⟨n, hn, rfl⟩
  · rw [h]
  · exact hletters n hn

theorem strip_lower (s : String) : strip (lower s) = lower (strip s) := by
  simp only [strip, lower, String.toList_ofList, stripChars_map isSpace_toLower]

theorem toUpper_toUpper (c : Char) : c.toUpper.toUpper = c.toUpper := by
  have hletters : ∀ n ∈ List.range' 97 26,
      (Char.ofNat n).toUpper.toUpper = (Char.ofNat n).toUpper := by decide
  rcases toUpper_cases c with h | ⟨n, hn, rfl⟩
  · rw [h, h]
  · exact hletters n hn

theorem isAlphanum_of_isSpace {c : Char} (h : isSpace c = true) :
    c.toLower.isAlphanum = false := by
  have hc : c = Char.ofNat c.toNat := (Char.ofNat_toNat c).symm
  have hmem : c.toNat ∈ spaces := List.contains_iff_mem.mp h
  have hall : ∀ n ∈ spaces, (Char.ofNat n).toLower.isAlphanum = false := by decide
  rw [hc]
  exact hall _ hmem

theorem alnum_lower_strip (s : String) : alnum (lower (strip s)) = alnum (lower s) := by
  simp only [alnum, lower, strip, String.toList_ofList, List.filter_map]
  rw [filter_stripChars (p := Char.isAlphanum ∘ Char.toLower) fun c hc => isAlphanum_of_isSpace hc]

example : strip " 22:00 " = "22:00" := by decide
example : split "sat,,sun" ',' = ["sat", "", "sun"] := by decide
example : int? " -1_0 " = some (-10) ∧ int? "1__0" = none := by decide

end RadiusModule.Library.PyText
