import Mathlib.Data.List.Basic

/-!
# Gates in order

A gate reads a state and may decide; it may also change the state, whether it
decides or not. Gates run in order until one decides. A gate that only reads
leaves the state as it was, so a run decided among such gates leaves it as it
was.
-/

namespace RadiusModule.Library

variable {σ δ : Type*}

abbrev Gate (σ δ : Type*) := σ → Option δ × σ

namespace Gate

def read (f : σ → Option δ) : Gate σ δ := fun s => (f s, s)

def run : List (Gate σ δ) → Gate σ δ
  | [], s => (none, s)
  | g :: gs, s =>
    match g s with
    | (some d, t) => (some d, t)
    | (none, t) => run gs t

@[simp] theorem run_nil (s : σ) : run ([] : List (Gate σ δ)) s = (none, s) := rfl

theorem run_cons (g : Gate σ δ) (gs : List (Gate σ δ)) (s : σ) :
    run (g :: gs) s = if (g s).1.isSome then g s else run gs (g s).2 := by
  rw [run]
  split <;> simp_all

theorem run_append (gs hs : List (Gate σ δ)) (s : σ) :
    run (gs ++ hs) s = if (run gs s).1.isSome then run gs s else run hs (run gs s).2 := by
  induction gs generalizing s with
  | nil => simp
  | cons g gs ih =>
    rw [List.cons_append, run_cons, run_cons]
    by_cases hg : (g s).1.isSome = true
    · simp only [if_pos hg]
    · simp only [if_neg hg]
      exact ih _

theorem run_cons_fst (g : Gate σ δ) (gs : List (Gate σ δ)) (s : σ) :
    (run (g :: gs) s).1 = (g s).1.or (run gs (g s).2).1 := by
  rw [run_cons]
  cases hg : (g s).1 <;> simp [hg]

theorem run_preserves {inv : σ → Prop} {gs : List (Gate σ δ)}
    (h : ∀ g ∈ gs, ∀ s, inv s → inv (g s).2) {s : σ} (hs : inv s) : inv (run gs s).2 := by
  induction gs generalizing s with
  | nil => exact hs
  | cons g gs ih =>
    have hg := h g List.mem_cons_self s hs
    rw [run_cons]
    by_cases hd : (g s).1.isSome = true
    · rwa [if_pos hd]
    · rw [if_neg hd]
      exact ih (fun g' hg' => h g' (List.mem_cons_of_mem _ hg')) hg

theorem run_read (fs : List (σ → Option δ)) (s : σ) :
    run (fs.map read) s = (fs.findSome? (· s), s) := by
  induction fs with
  | nil => rfl
  | cons f fs ih =>
    rw [List.map_cons, run_cons, List.findSome?_cons]
    cases hf : f s <;> simp [read, hf, ih]

theorem run_keeps {ω : Type*} (obs : σ → ω) {gs : List (Gate σ δ)}
    (h : ∀ g ∈ gs, ∀ s, obs (g s).2 = obs s) (s : σ) : obs (run gs s).2 = obs s := by
  induction gs generalizing s with
  | nil => rfl
  | cons g gs ih =>
    have hg := h g List.mem_cons_self
    rw [run_cons]
    by_cases hd : (g s).1.isSome = true
    · rw [if_pos hd, hg]
    · rw [if_neg hd, ih (fun g' hg' => h g' (List.mem_cons_of_mem _ hg')), hg]

section
variable {ω : Type*} (obs : σ → ω) {g : Gate σ δ} {gs : List (Gate σ δ)} {s : σ}

theorem run_cons_keeps (h : ∀ g' ∈ gs, ∀ s, obs (g' s).2 = obs s) :
    obs (run (g :: gs) s).2 = obs (g s).2 := by
  rw [run_cons]
  split_ifs
  · rfl
  · exact run_keeps obs h _

theorem run_cons_kept_iff {writes rest : Prop} (hd : (run (g :: gs) s).1 ≠ none)
    (hquiet : ¬writes → obs (g s).2 = obs s)
    (hloud : writes → obs (run (g :: gs) s).2 ≠ obs s)
    (hrest : ¬writes → (run gs (g s).2).1 ≠ none →
      (obs (run gs (g s).2).2 = obs (g s).2 ↔ rest)) :
    obs (run (g :: gs) s).2 = obs s ↔ ¬writes ∧ ((g s).1 = none → rest) := by
  by_cases hw : writes
  · exact iff_of_false (hloud hw) fun h => h.1 hw
  · rw [run_cons] at hd ⊢
    cases hg : (g s).1 with
    | some d => simp [hw, hquiet hw]
    | none =>
      simp only [hg, Option.isSome_none, Bool.false_eq_true, if_false] at hd ⊢
      simpa [hw, hquiet hw] using hrest hw hd

end

/-- The gates answer alike up to the first that decides, and `atEnd` holds if none does. -/
def Alike (atEnd : Prop) : List (Option δ × Option δ) → Prop
  | [] => atEnd
  | p :: ps => p.1 = p.2 ∧ (p.1 = none → Alike atEnd ps)

/-- Where the answers differ the second gate passes, and what the first says is said neither by a
later gate on the second side nor at its end. -/
def Telling (last : δ) : List (Option δ × Option δ) → Prop
  | [] => True
  | p :: ps => (p.1 ≠ p.2 → p.2 = none ∧ p.1 ≠ some last ∧ ∀ q ∈ ps, q.2 ≠ p.1) ∧ Telling last ps

def answer (last : δ) (answers : List (Option δ)) : δ := (answers.findSome? id).getD last

theorem findSome?_id_cons (a : Option δ) (answers : List (Option δ)) :
    (a :: answers).findSome? id = a.or (answers.findSome? id) := by
  cases a <;> rfl

theorem answer_none_cons (last : δ) (answers : List (Option δ)) :
    answer last (none :: answers) = answer last answers := rfl

theorem alike_iff {atEnd : Prop} {ps : List (Option δ × Option δ)} :
    Alike atEnd ps ↔ Alike True ps ∧ ((ps.map Prod.fst).findSome? id = none → atEnd) := by
  induction ps with
  | nil => simp [Alike]
  | cons p ps ih =>
    obtain ⟨x, y⟩ := p
    cases x with
    | none => simp [Alike, ih, and_assoc]
    | some d => simp [Alike]

theorem findSome?_of_alike {ps : List (Option δ × Option δ)} (h : Alike True ps) :
    (ps.map Prod.fst).findSome? id = (ps.map Prod.snd).findSome? id := by
  induction ps with
  | nil => rfl
  | cons p ps ih =>
    obtain ⟨x, y⟩ := p
    obtain ⟨hxy, hrest⟩ := h
    obtain rfl : x = y := hxy
    cases x with
    | none => exact ih (hrest rfl)
    | some d => rfl

theorem answer_ne {last d : δ} {answers : List (Option δ)} (hlast : some d ≠ some last)
    (h : ∀ a ∈ answers, a ≠ some d) : answer last answers ≠ d := by
  unfold answer
  cases hfind : answers.findSome? id with
  | none => exact fun he => hlast (congrArg some he.symm)
  | some e =>
    obtain ⟨a, ha, hae⟩ := List.exists_of_findSome?_eq_some hfind
    rintro rfl
    exact h a ha hae

theorem answer_eq_iff {last : δ} {ps : List (Option δ × Option δ)} (h : Telling last ps) :
    answer last (ps.map Prod.fst) = answer last (ps.map Prod.snd) ↔ Alike True ps := by
  induction ps with
  | nil => simp [Alike]
  | cons p ps ih =>
    obtain ⟨hp, hps⟩ := h
    obtain ⟨x, y⟩ := p
    by_cases hxy : x = y
    · subst hxy
      cases x with
      | none => simpa [Alike, answer_none_cons] using ih hps
      | some d => simp [Alike, answer]
    · obtain ⟨rfl, hlast, hlater⟩ := hp hxy
      obtain ⟨d, rfl⟩ := Option.ne_none_iff_exists'.mp hxy
      have hne : answer last (ps.map Prod.snd) ≠ d := by
        refine answer_ne hlast fun a ha => ?_
        obtain ⟨q, hq, rfl⟩ := List.mem_map.mp ha
        exact hlater q hq
      simp only [Alike, hxy, false_and, iff_false]
      exact fun heq => hne heq.symm

end Gate
end RadiusModule.Library
