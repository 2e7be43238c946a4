import RadiusModule.Services.Migration.Committers

/-!
# What a status text says

The words by which a source calls an account blocked, expired or enabled. A
block outweighs an expiry, and an expiry an enabling.
-/

namespace RadiusModule.Migration
open Library PyText

/-- `_norm` -/
def normText (s : String) : String :=
  String.ofList (subRuns isSpace (lower (strip s)).toList)

def trueWords : List String :=
  ["1", "true", "yes", "y", "on", "enabled", "enable", "active", "ok", "مفعل", "مفعّل", "نشط",
    "فعال", "فعّال", "نعم", "تشغيل"]

def falseWords : List String :=
  ["0", "false", "no", "n", "off", "disabled", "disable", "inactive", "blocked", "expired", "معطل",
    "معطّل", "موقوف", "محظور", "منتهي", "غير مفعل", "لا", "ايقاف", "إيقاف"]

def disabledHints : List String :=
  ["disab", "block", "suspend", "banned", "معطل", "معطّل", "موقوف", "محظور", "موقف"]

def expiredHints : List String := ["expir", "منتهي", "انتهى", "منتهية"]

def enabledHints : List String := ["enab", "activ", "مفعل", "مفعّل", "نشط", "فعال", "فعّال"]

/-- `any(h in low for h in hints)` -/
def hinted (hints : List String) (low : String) : Bool :=
  hints.any fun h => decide (h.toList <:+: low.toList)

def signalOf (low : String) : Signal :=
  if low = "" then .silent
  else if falseWords.contains low && !expiredHints.contains low then
    if hinted expiredHints low then .expired else .disabled
  else if hinted disabledHints low then .disabled
  else if hinted expiredHints low then .expired
  else if trueWords.contains low || hinted enabledHints low then .enabled
  else .silent

def statusSignal (raw : String) : Signal := signalOf (normText raw)

def normalizeStatus (raw : String) : String :=
  match statusSignal raw with
  | .disabled => "disabled"
  | .expired => "expired"
  | .enabled => "enabled"
  | .silent => ""

def blockWords : List String :=
  falseWords.filter fun w => !(["expired", "منتهي"].contains w)

def HasBlockWord (low : String) : Prop := low ∈ blockWords ∨ hinted disabledHints low = true

def HasEnableWord (low : String) : Prop := low ∈ trueWords ∨ hinted enabledHints low = true

instance (low : String) : Decidable (HasBlockWord low) := inferInstanceAs (Decidable (_ ∨ _))

theorem expired_falseWords : ∀ w ∈ falseWords, w ∉ expiredHints →
    (hinted expiredHints w = true ↔ w = "expired") := by
  decide

theorem signalOf_disabled_iff {low : String} : signalOf low = .disabled ↔ HasBlockWord low := by
  have hmem : low ∈ blockWords ↔ low ∈ falseWords ∧ low ∉ ["expired", "منتهي"] := by
    simp [blockWords, List.mem_filter]
  by_cases hempty : low = ""
  · subst hempty
    decide
  by_cases hfalse : low ∈ falseWords ∧ low ∉ expiredHints
  · have hword := expired_falseWords low hfalse.1 hfalse.2
    rw [signalOf, if_neg hempty, if_pos (by simp [hfalse.1, hfalse.2])]
    by_cases hexpired : low = "expired"
    · rw [if_pos (hword.mpr hexpired), hexpired]
      decide
    · rw [if_neg fun h => hexpired (hword.mp h)]
      refine iff_of_true rfl (.inl (hmem.mpr ⟨hfalse.1, ?_⟩))
      have hhint : "منتهي" ∈ expiredHints := by decide
      intro h
      rcases List.mem_cons.mp h with h | h
      · exact hexpired h
      · exact hfalse.2 (by rwa [List.mem_singleton.mp h])
  · have hword : low ∉ blockWords := by
      rw [hmem]
      rintro ⟨hin, hout⟩
      have hboth : ∀ w ∈ falseWords, w ∈ expiredHints → w ∈ ["expired", "منتهي"] := by
        decide
      exact hfalse ⟨hin, fun h => hout (hboth low hin h)⟩
    rw [signalOf, if_neg hempty, if_neg (by simpa using hfalse), HasBlockWord,
      or_iff_right hword]
    split_ifs with hhint
    · exact iff_of_true rfl hhint
    all_goals exact iff_of_false (by simp) hhint

theorem statusSignal_normalizeStatus (raw : String) :
    statusSignal (normalizeStatus raw) = statusSignal raw := by
  unfold normalizeStatus
  cases h : statusSignal raw with
  | disabled => decide
  | expired => decide
  | enabled => decide
  | silent => decide

theorem hasEnableWord_of_signalOf {low : String} (h : signalOf low = .enabled) :
    HasEnableWord low := by
  unfold signalOf at h
  split_ifs at h with h₁ h₂ h₃ h₄ h₅ h₆
  rcases Bool.or_eq_true_iff.mp h₆ with hword | hhint
  · exact .inl (List.contains_iff_mem.mp hword)
  · exact .inr hhint

end RadiusModule.Migration
