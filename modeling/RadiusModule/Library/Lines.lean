import Mathlib.Algebra.BigOperators.Group.List.Basic
import RadiusModule.Library.PyText

/-!
# Lines and blocks

A text that arrives in pieces is cut at its separators, and the line left over is
put before the next piece. Lines are gathered into blocks, each ended by a line
that closes it. Neither reading depends on where the pieces were cut.
-/

namespace RadiusModule.Library.PyText

theorem stripBy_append {p : Char → Bool} {a b : List Char} (ha : ∀ c ∈ a, p c = true)
    (hb : ∀ c ∈ b, p c = true) (s : List Char) :
    ((a ++ (s ++ b)).dropWhile p).rdropWhile p = (s.dropWhile p).rdropWhile p := by
  have hback : ∀ x : List Char, (x ++ b).rdropWhile p = x.rdropWhile p := by
    intro x
    rw [List.rdropWhile, List.reverse_append, List.dropWhile_append_of_pos]
    · rfl
    · exact fun c hc => hb c (List.mem_reverse.mp hc)
  rw [List.dropWhile_append_of_pos ha, List.dropWhile_append]
  split_ifs with hs
  · have hblank : b.dropWhile p = [] := List.dropWhile_eq_nil_iff.mpr hb
    rw [hblank, List.isEmpty_iff.mp hs]
  · exact hback _

theorem stripChars_append {a b : List Char} (ha : ∀ c ∈ a, isSpace c = true)
    (hb : ∀ c ∈ b, isSpace c = true) (s : List Char) :
    stripChars (a ++ (s ++ b)) = stripChars s := stripBy_append ha hb s

theorem splitChars_ne_nil (sep : Char) (cs : List Char) : splitChars sep cs ≠ [] := by
  induction cs with
  | nil => exact List.cons_ne_nil _ _
  | cons c cs ih =>
    simp only [splitChars]
    split_ifs
    · exact List.cons_ne_nil _ _
    · split <;> exact List.cons_ne_nil _ _

theorem splitChars_cons_of_ne {sep c : Char} (hc : c ≠ sep) (cs : List Char) :
    splitChars sep (c :: cs) = (splitChars sep cs).modifyHead (c :: ·) := by
  simp only [splitChars, if_neg hc]
  cases hsplit : splitChars sep cs with
  | nil => exact absurd hsplit (splitChars_ne_nil sep cs)
  | cons w ws => rfl

theorem splitChars_of_not_mem {sep : Char} {w : List Char} (h : sep ∉ w) :
    splitChars sep w = [w] := by
  induction w with
  | nil => rfl
  | cons c w ih =>
    obtain ⟨hc, hw⟩ := not_or.mp (mt List.mem_cons.mpr h)
    simp only [splitChars, if_neg (Ne.symm hc), ih hw]

theorem splitChars_word {sep : Char} {w : List Char} (h : sep ∉ w) (rest : List Char) :
    splitChars sep (w ++ sep :: rest) = w :: splitChars sep rest := by
  induction w with
  | nil => simp [splitChars]
  | cons c w ih =>
    obtain ⟨hc, hw⟩ := not_or.mp (mt List.mem_cons.mpr h)
    simp only [List.cons_append, splitChars, if_neg (Ne.symm hc), ih hw]

theorem splitChars_intercalate {sep : Char} {ws : List (List Char)} (hne : ws ≠ [])
    (h : ∀ w ∈ ws, sep ∉ w) : splitChars sep ([sep].intercalate ws) = ws := by
  induction ws with
  | nil => exact absurd rfl hne
  | cons w ws ih =>
    have hw := h w List.mem_cons_self
    cases ws with
    | nil => rw [List.intercalate_singleton, splitChars_of_not_mem hw]
    | cons v vs =>
      rw [List.intercalate_cons_cons, List.append_assoc, List.singleton_append,
        splitChars_word hw, ih (List.cons_ne_nil v vs) fun u hu => h u (List.mem_cons_of_mem w hu)]

theorem splitChars_append {sep : Char} {xs : List Char} {whole : List (List Char)}
    {rest : List Char} (hsplit : splitChars sep xs = whole ++ [rest]) (ys : List Char) :
    splitChars sep (xs ++ ys) = whole ++ splitChars sep (rest ++ ys) := by
  induction xs generalizing whole rest with
  | nil =>
    obtain ⟨rfl, hrest⟩ : whole = [] ∧ [rest] = [[]] := by
      cases whole with
      | nil => exact ⟨rfl, hsplit.symm⟩
      | cons w ws => simp [splitChars] at hsplit
    simp_all
  | cons c xs ih =>
    by_cases hc : c = sep
    · have hcut : ∀ cs, splitChars sep (c :: cs) = [] :: splitChars sep cs := by
        intro cs
        simp only [splitChars, if_pos hc]
      rw [hcut] at hsplit
      cases whole with
      | nil =>
        have hnil : splitChars sep xs = [] := (List.cons.inj hsplit).2
        exact absurd hnil (splitChars_ne_nil sep xs)
      | cons w ws =>
        obtain ⟨hw, hws⟩ := List.cons.inj hsplit
        rw [List.cons_append, hcut, ih hws, hw]
        rfl
    · have hcons : ∀ cs, splitChars sep (c :: cs) = (splitChars sep cs).modifyHead (c :: ·) :=
        splitChars_cons_of_ne hc
      rw [hcons] at hsplit
      rw [List.cons_append, hcons]
      cases hxs : splitChars sep xs with
      | nil => exact absurd hxs (splitChars_ne_nil sep xs)
      | cons w ws =>
        rw [hxs, List.modifyHead_cons] at hsplit
        cases whole with
        | nil =>
          obtain ⟨hrest, hws⟩ := List.cons.inj hsplit
          have hlast : splitChars sep xs = [] ++ [w] := by rw [hxs, hws]; rfl
          rw [ih hlast, ← hrest]
          exact (hcons (w ++ ys)).symm
        | cons v vs =>
          obtain ⟨hv, hvs⟩ := List.cons.inj hsplit
          have hprev : splitChars sep xs = (w :: vs) ++ [rest] := by rw [hxs, hvs]; rfl
          rw [ih hprev, ← hv]
          rfl

theorem mem_splitChars {sep : Char} {cs w : List Char} (hw : w ∈ splitChars sep cs) {c : Char}
    (hc : c ∈ w) : c ∈ cs ∧ c ≠ sep := by
  induction cs generalizing w with
  | nil =>
    rw [List.mem_singleton.mp hw] at hc
    exact absurd hc List.not_mem_nil
  | cons d cs ih =>
    by_cases hd : d = sep
    · have hcut : splitChars sep (d :: cs) = [] :: splitChars sep cs := by
        simp only [splitChars, if_pos hd]
      rw [hcut] at hw
      rcases List.mem_cons.mp hw with rfl | hw
      · exact absurd hc List.not_mem_nil
      · exact ⟨List.mem_cons_of_mem _ (ih hw hc).1, (ih hw hc).2⟩
    · rw [splitChars_cons_of_ne hd] at hw
      cases hsplit : splitChars sep cs with
      | nil => exact absurd hsplit (splitChars_ne_nil sep cs)
      | cons v vs =>
        rw [hsplit, List.modifyHead_cons] at hw
        have hmem : ∀ u ∈ v :: vs, c ∈ u → c ∈ d :: cs ∧ c ≠ sep := fun u hu hcu =>
          have hu' := hsplit.symm ▸ hu
          ⟨List.mem_cons_of_mem _ (ih hu' hcu).1, (ih hu' hcu).2⟩
        rcases List.mem_cons.mp hw with rfl | hw
        · rcases List.mem_cons.mp hc with rfl | hc
          · exact ⟨List.mem_cons_self, hd⟩
          · exact hmem v List.mem_cons_self hc
        · exact hmem w (List.mem_cons_of_mem _ hw) hc

theorem filter_splitChars {sep : Char} {p : Char → Bool} (hp : p sep = false) (cs : List Char) :
    (splitChars sep cs).flatten.filter p = cs.filter p := by
  induction cs with
  | nil => rfl
  | cons c cs ih =>
    by_cases hc : c = sep
    · have hcut : splitChars sep (c :: cs) = [] :: splitChars sep cs := by
        simp only [splitChars, if_pos hc]
      rw [hcut, List.flatten_cons, List.nil_append, ih, hc,
        List.filter_cons_of_neg (by simp [hp])]
    · rw [splitChars_cons_of_ne hc]
      cases hsplit : splitChars sep cs with
      | nil => exact absurd hsplit (splitChars_ne_nil sep cs)
      | cons w ws =>
        have hflat : ((w :: ws).modifyHead (c :: ·)).flatten = c :: (w :: ws).flatten := rfl
        rw [hflat, List.filter_cons, List.filter_cons, ← hsplit, ih]

end RadiusModule.Library.PyText

namespace RadiusModule.Library.Blocks

variable {α : Type*} (closes : α → Bool)

/-- The blocks closed by `xs` behind the lines `waiting`, and the lines then waiting. -/
def blocks (waiting : List α) : List α → List (List α) × List α
  | [] => ([], waiting)
  | x :: xs =>
    if closes x then ((waiting ++ [x]) :: (blocks [] xs).1, (blocks [] xs).2)
    else blocks (waiting ++ [x]) xs

theorem blocks_append (waiting xs ys : List α) :
    blocks closes waiting (xs ++ ys) =
      ((blocks closes waiting xs).1 ++ (blocks closes (blocks closes waiting xs).2 ys).1,
        (blocks closes (blocks closes waiting xs).2 ys).2) := by
  induction xs generalizing waiting with
  | nil => rfl
  | cons x xs ih =>
    by_cases hx : closes x = true
    · simp only [List.cons_append, blocks, if_pos hx, ih]
    · simp only [List.cons_append, blocks, if_neg hx, ih]

def allBlocks (waiting xs : List α) : List (List α) :=
  (blocks closes waiting xs).1 ++ [(blocks closes waiting xs).2]

theorem exists_waiting_prefix (waiting ys : List α) :
    ∃ block ∈ allBlocks closes waiting ys, waiting <+: block := by
  induction ys generalizing waiting with
  | nil => exact ⟨waiting, List.mem_singleton_self _, List.prefix_rfl⟩
  | cons y ys ih =>
    by_cases hy : closes y = true
    · refine ⟨waiting ++ [y], ?_, List.prefix_append _ _⟩
      simp only [allBlocks, blocks, if_pos hy]
      exact List.mem_cons_self
    · obtain ⟨block, hmem, hblock⟩ := ih (waiting ++ [y])
      refine ⟨block, ?_, (List.prefix_append _ _).trans hblock⟩
      simpa only [allBlocks, blocks, if_neg hy] using hmem

theorem exists_prefix_of_append (waiting xs ys : List α) :
    ∃ block ∈ allBlocks closes waiting (xs ++ ys), (blocks closes waiting xs).2 <+: block := by
  obtain ⟨block, hmem, hblock⟩ := exists_waiting_prefix closes (blocks closes waiting xs).2 ys
  refine ⟨block, ?_, hblock⟩
  rw [allBlocks, blocks_append, List.append_assoc]
  exact List.mem_append_right _ hmem

end RadiusModule.Library.Blocks
