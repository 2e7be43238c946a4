import RadiusModule.Services.AntiMacClone

/-!
# What the judgement may and may not do

A login is judged by what its fingerprint has in common with the binding, by
the sessions that are live elsewhere, by the threshold and by the mode. Here
the judgement is reduced to these, and it is said exactly when it is fair to
known devices, when more evidence never helps a device, and when a session
elsewhere is always held against it.
-/

namespace RadiusModule.AntiMacClone
open Library PyText

theorem diverged_sublist {binding live live' : Fingerprint}
    (h : diverged binding live ⊆ diverged binding live') :
    (diverged binding live).Sublist (diverged binding live') := by
  have hfilter : diverged binding live = (diverged binding live').filter fun s =>
      s.val binding ≠ "" && s.val live ≠ "" && s.val binding ≠ s.val live := by
    rw [diverged, diverged, List.filter_filter]
    refine List.filter_congr fun s hs => ?_
    cases hp : (s.val binding ≠ "" && s.val live ≠ "" && s.val binding ≠ s.val live : Bool) with
    | false => rfl
    | true =>
      have hmem := h (List.mem_filter.mpr ⟨hs, hp⟩)
      exact (List.mem_filter.mp hmem).2.symm
  rw [hfilter]
  exact List.filter_sublist

theorem compare_mono {binding live live' : Fingerprint}
    (h : diverged binding live ⊆ diverged binding live') :
    (compare binding live).2.rank ≤ (compare binding live').2.rank := by
  have hsum := ((diverged_sublist h).map Signal.weight).sum_le_sum (fun _ _ => Nat.zero_le _)
  have hcontains : ∀ s, (diverged binding live).contains s = true →
      (diverged binding live').contains s = true := by
    intro s hs
    rw [List.contains_iff_mem] at hs ⊢
    exact h hs
  simp only [compare, Bool.or_eq_true, decide_eq_true_eq]
  split_ifs with h₁ h₂ h₃ h₄ h₅ h₆
  · exact le_rfl
  · exact absurd (h₁.imp (Or.imp (fun h => by omega) (hcontains _)) (hcontains _)) h₂
  · exact absurd (h₁.imp (Or.imp (fun h => by omega) (hcontains _)) (hcontains _)) h₂
  · decide
  · exact le_rfl
  · exact absurd (h₄.imp (Or.imp (fun h => by omega) (hcontains _)) (hcontains _)) h₆
  · decide
  · decide
  · exact le_rfl

theorem compare_of_alike {binding live : Fingerprint} (h : diverged binding live = []) :
    (compare binding live).2 = .low := by
  simp [compare, h]

theorem isClone_mono {c c' threshold : Confidence} (h : c.rank ≤ c'.rank)
    (hclone : isClone c threshold = true) : isClone c' threshold = true :=
  decide_eq_true ((of_decide_eq_true hclone).trans h)

theorem isClone_low (threshold : Confidence) :
    isClone .low threshold = true ↔ threshold = .low := by
  cases threshold <;> decide

structure Request where
  now : ℤ
  tenantId : ℤ
  username : String
  planId : Option ℕ
  group : String
  mac : String
  live : Fingerprint

section
variable (sha256 : String → String) (db : Db) (q : Request)

def Request.judged : Option Verdict :=
  evaluate sha256 db q.now q.tenantId q.username q.planId q.group q.mac q.live

def Request.denied : Prop := ∃ v ∈ q.judged sha256 db, v.action = .deny

def Request.inScope : Bool :=
  isEnabled db q.tenantId && scopeApplies db q.tenantId q.planId q.group && q.mac ≠ ""

def Request.mode : String :=
  lower (orDefault (setting db q.tenantId "anti_mac_clone.mode" "enforce") "enforce")

def Request.binding : Option CloneBinding :=
  getBinding db.cloneBindings q.tenantId q.username q.mac

def Request.concurrent : Bool :=
  flag db q.tenantId "anti_mac_clone.concurrent_guard" "1" &&
    (findConcurrentSessions db q.tenantId q.mac).any (isDivergentContext · q.live)

def Request.pending : Bool :=
  hasRecentStepupPending db q.now q.tenantId q.username q.mac (liveFingerprintHash sha256 q.live)
    (stepupWindowSec db q.tenantId)

def Request.differs (b : CloneBinding) : Bool :=
  isClone (compare b.fingerprint q.live).2 (confidenceMin db q.tenantId)

theorem denied_iff : q.denied sha256 db ↔ q.inScope db = true ∧
    match q.binding db with
    | none => q.concurrent db = true ∧ q.mode db = "enforce"
    | some b => q.concurrent db = true ∧ q.mode db ≠ "monitor" ∨
        q.concurrent db = false ∧ q.differs db b = true ∧
          (q.mode db = "enforce" ∨ q.mode db = "stepup" ∧ q.pending sha256 db = false) := by
  have hscope : (!isEnabled db q.tenantId || !scopeApplies db q.tenantId q.planId q.group ||
      q.mac = "") = !q.inScope db := by
    simp [Request.inScope, Bool.not_and]
  have hhigh : isClone .high (confidenceMin db q.tenantId) = true := by
    cases confidenceMin db q.tenantId <;> decide
  simp only [Request.denied, Request.judged, evaluate, hscope, Request.binding, Request.concurrent,
    Request.mode, Request.pending, Request.differs]
  generalize (flag db q.tenantId "anti_mac_clone.concurrent_guard" "1" &&
    (findConcurrentSessions db q.tenantId q.mac).any (isDivergentContext · q.live)) = concurrent
  generalize lower (orDefault (setting db q.tenantId "anti_mac_clone.mode" "enforce") "enforce") =
    mode
  generalize hasRecentStepupPending db q.now q.tenantId q.username q.mac
    (liveFingerprintHash sha256 q.live) (stepupWindowSec db q.tenantId) = pending
  cases q.inScope db with
  | false => simp
  | true =>
    cases getBinding db.cloneBindings q.tenantId q.username q.mac with
    | none =>
      cases concurrent with
      | false => simp
      | true => by_cases henforce : mode = "enforce" <;> simp [henforce]
    | some b =>
      cases concurrent with
      | true =>
        by_cases hmonitor : mode = "monitor"
        · simp [hhigh, hmonitor]
        · simp [hhigh, hmonitor]
      | false =>
        cases hclone : isClone (compare b.fingerprint q.live).2 (confidenceMin db q.tenantId) with
        | false => simp [hclone]
        | true =>
          by_cases hstepup : mode = "stepup"
          · cases pending <;> simp [hclone, hstepup]
          · by_cases henforce : mode = "enforce" <;> simp [hclone, hstepup, henforce]

def Request.brings (live : Fingerprint) : Request := { q with live }

def withSessions (radacct : RadacctTable) : Db := { db with radacct }

structure SoundDecision : Prop where
  alike : (∀ b ∈ q.binding db, diverged b.fingerprint q.live = []) → q.concurrent db = false →
    ¬ q.denied sha256 db
  monotone : ∀ live radacct,
    (∀ b ∈ q.binding db, diverged b.fingerprint q.live ⊆ diverged b.fingerprint live) →
    (q.concurrent db = true → (q.brings live).concurrent (withSessions db radacct) = true) →
    q.denied sha256 db → (q.brings live).denied sha256 (withSessions db radacct)
  elsewhere : q.inScope db = true → q.concurrent db = true →
    q.mode db = "enforce" ∨ q.mode db = "stepup" → q.denied sha256 db
  keeps : ∀ v ∈ q.judged sha256 db, v.action = .deny →
    getBinding (applyDecision db q.now q.tenantId q.username q.mac q.live v).cloneBindings =
      getBinding db.cloneBindings

structure Undisputed : Prop where
  /-- The lowest threshold takes a device that agrees in everything for a clone. -/
  threshold : q.inScope db = true → ∀ b ∈ q.binding db, diverged b.fingerprint q.live = [] →
    q.concurrent db = false → confidenceMin db q.tenantId = .low →
    q.mode db ≠ "enforce" ∧ (q.mode db = "stepup" → q.pending sha256 db = true)
  /-- A device that is not bound yet is only watched in the step-up mode. -/
  bound : q.inScope db = true → q.concurrent db = true → q.mode db = "stepup" → q.binding db ≠ none
  /-- A device that differs more has been asked before this one. -/
  confirmed : q.inScope db = true → q.mode db = "stepup" → ∀ b ∈ q.binding db,
    q.concurrent db = false → q.differs db b = true → q.pending sha256 db = false →
    ∀ live, diverged b.fingerprint q.live ⊆ diverged b.fingerprint live →
      (q.brings live).pending sha256 db = false

end

section
variable {sha256 : String → String} {db : Db} {q : Request}

theorem keeps_of_denied {v : Verdict} (hv : v ∈ q.judged sha256 db) (hdeny : v.action = .deny) :
    v.reason = .macCloneDetected ∨ v.reason = .stepupRequired := by
  simp only [Request.judged, evaluate] at hv
  split at hv
  · cases hv
  · split at hv
    · split_ifs at hv <;> obtain rfl := Option.some_inj.mp hv <;>
        first | exact .inl rfl | cases hdeny
    · split_ifs at hv <;> obtain rfl := Option.some_inj.mp hv <;>
        first | exact .inl rfl | exact .inr rfl | cases hdeny

theorem concurrent_withoutSessions : q.concurrent (withSessions db .empty) = false := by
  simp [Request.concurrent, findConcurrentSessions, withSessions]

@[simp] theorem setting_withSessions (radacct : RadacctTable) (tenantId : ℤ) (key default : String) :
    setting (withSessions db radacct) tenantId key default = setting db tenantId key default := rfl

theorem inScope_brings (live : Fingerprint) (radacct : RadacctTable) :
    (q.brings live).inScope (withSessions db radacct) = q.inScope db := by
  simp only [Request.inScope, Request.brings, isEnabled, flag, scopeApplies, setting_withSessions]
  rfl

theorem mode_brings (live : Fingerprint) (radacct : RadacctTable) :
    (q.brings live).mode (withSessions db radacct) = q.mode db := by
  simp only [Request.mode, Request.brings, setting_withSessions]

theorem binding_brings (live : Fingerprint) (radacct : RadacctTable) :
    (q.brings live).binding (withSessions db radacct) = q.binding db := rfl

theorem pending_brings (live : Fingerprint) (radacct : RadacctTable) :
    (q.brings live).pending sha256 (withSessions db radacct) =
      (q.brings live).pending sha256 db := by
  simp only [Request.pending, stepupWindowSec, setting_withSessions]
  rfl

theorem differs_brings {live : Fingerprint} (radacct : RadacctTable) {b : CloneBinding}
    (h : diverged b.fingerprint q.live ⊆ diverged b.fingerprint live)
    (hdiffers : q.differs db b = true) :
    (q.brings live).differs (withSessions db radacct) b = true := by
  have hsame : confidenceMin (withSessions db radacct) q.tenantId = confidenceMin db q.tenantId := by
    simp only [confidenceMin, setting_withSessions]
  rw [Request.differs] at hdiffers
  rw [Request.differs, Request.brings, hsame]
  exact isClone_mono (compare_mono h) hdiffers

theorem denied_of_more {live : Fingerprint} {radacct : RadacctTable} (h : Undisputed sha256 db q)
    (hmore : ∀ b ∈ q.binding db, diverged b.fingerprint q.live ⊆ diverged b.fingerprint live)
    (hconcurrent : q.concurrent db = true →
      (q.brings live).concurrent (withSessions db radacct) = true)
    (hdenied : q.denied sha256 db) :
    (q.brings live).denied sha256 (withSessions db radacct) := by
  rw [denied_iff] at hdenied ⊢
  obtain ⟨hscope, hcase⟩ := hdenied
  rw [inScope_brings, binding_brings, mode_brings, pending_brings]
  refine ⟨hscope, ?_⟩
  cases hb : q.binding db with
  | none =>
    rw [hb] at hcase
    exact ⟨hconcurrent hcase.1, hcase.2⟩
  | some b =>
    rw [hb] at hcase
    obtain ⟨htravel, hwatch⟩ | ⟨hstays, hdiffers, hjudged⟩ := hcase
    · exact .inl ⟨hconcurrent htravel, hwatch⟩
    · have hdiffers' := differs_brings radacct (hmore b hb) hdiffers
      cases htravel : (q.brings live).concurrent (withSessions db radacct) with
      | true =>
        refine .inl ⟨rfl, ?_⟩
        obtain hmode | ⟨hmode, -⟩ := hjudged <;> rw [hmode] <;> decide
      | false =>
        refine .inr ⟨rfl, hdiffers', hjudged.imp_right fun hstepup => ⟨hstepup.1, ?_⟩⟩
        exact h.confirmed hscope hstepup.1 b hb hstays hdiffers hstepup.2 live (hmore b hb)

end

/-- A login is judged soundly if and only if none of the cases that go astray comes up. -/
theorem soundDecision_iff (sha256 : String → String) (db : Db) (q : Request) :
    SoundDecision sha256 db q ↔ Undisputed sha256 db q := by
  constructor
  · intro h
    refine ⟨?_, ?_, ?_⟩
    · intro hscope b hb hagree hstays hlow
      have hnot := h.alike (fun b' hb' => by
        obtain rfl := Option.some_inj.mp (hb.symm.trans hb')
        exact hagree) hstays
      rw [denied_iff, hb] at hnot
      have hdiffers : q.differs db b = true := by
        rw [Request.differs, compare_of_alike hagree, hlow]
        rfl
      refine ⟨fun hmode => hnot ⟨hscope, .inr ⟨hstays, hdiffers, .inl hmode⟩⟩, fun hmode => ?_⟩
      by_contra hpending
      exact hnot ⟨hscope, .inr ⟨hstays, hdiffers, .inr ⟨hmode, Bool.eq_false_iff.mpr hpending⟩⟩⟩
    · intro hscope htravel hmode hb
      have hdenied := (denied_iff sha256 db q).mp (h.elsewhere hscope htravel (.inr hmode))
      rw [hb, hmode] at hdenied
      exact absurd hdenied.2.2 (by decide)
    · intro hscope hmode b hb hstays hdiffers hpending live hmore
      by_contra hother
      have hdenied : q.denied sha256 db := by
        rw [denied_iff, hb]
        exact ⟨hscope, .inr ⟨hstays, hdiffers, .inr ⟨hmode, hpending⟩⟩⟩
      have hdenied' := h.monotone live .empty (fun b' hb' => by
        obtain rfl := Option.some_inj.mp (hb.symm.trans hb')
        exact hmore) (fun htravel => by
          rw [hstays] at htravel
          cases htravel) hdenied
      have hpending' : (q.brings live).pending sha256 db = true := Bool.not_eq_false _ ▸ hother
      rw [denied_iff, binding_brings, hb, concurrent_withoutSessions, mode_brings, hmode,
        pending_brings, hpending'] at hdenied'
      simp at hdenied'
  · intro h
    refine ⟨?_, fun live radacct => denied_of_more h, ?_, ?_⟩
    · intro hagree hstays hdenied
      rw [denied_iff] at hdenied
      obtain ⟨hscope, hcase⟩ := hdenied
      cases hb : q.binding db with
      | none =>
        rw [hb, hstays] at hcase
        cases hcase.1
      | some b =>
        rw [hb, hstays] at hcase
        obtain ⟨htravel, -⟩ | ⟨-, hdiffers, hjudged⟩ := hcase
        · cases htravel
        · rw [Request.differs, compare_of_alike (hagree b hb), isClone_low] at hdiffers
          obtain ⟨hwatch, hasked⟩ := h.threshold hscope b hb (hagree b hb) hstays hdiffers
          obtain hmode | ⟨hmode, hpending⟩ := hjudged
          · exact hwatch hmode
          · rw [hasked hmode] at hpending
            cases hpending
    · intro hscope htravel hmode
      rw [denied_iff]
      refine ⟨hscope, ?_⟩
      cases hb : q.binding db with
      | none =>
        exact ⟨htravel, hmode.resolve_right fun hstepup => h.bound hscope htravel hstepup hb⟩
      | some b =>
        refine .inl ⟨htravel, ?_⟩
        obtain hmode | hmode := hmode <;> rw [hmode] <;> decide
    · intro v hv hdeny
      obtain hreason | hreason := keeps_of_denied hv hdeny <;>
        rw [applyDecision, hreason] <;> rfl

def elsewhereDb : Db where
  settings _ key :=
    if key = "anti_mac_clone.enabled" then some "1"
    else if key = "anti_mac_clone.mode" then some "stepup"
    else none
  radacct := Table.empty.insert (fun radacctid =>
    { radacctid, tenantId := 1, username := "sara", acctSessionId := "s1"
      nasIpAddress := "10.0.0.2", callingStationId := "AA:BB:CC:DD:EE:FF" }) fun _ => rfl

def firstLogin : Request where
  now := 0
  tenantId := 1
  username := "ali"
  planId := none
  group := ""
  mac := "AA:BB:CC:DD:EE:FF"
  live := { nasIp := "10.0.0.1" }

/-- The first login of a user whose address is live elsewhere is only watched. -/
theorem first_login_not_sound : ¬ SoundDecision id elsewhereDb firstLogin := by
  intro h
  have hscope : firstLogin.inScope elsewhereDb = true := by decide
  have htravel : firstLogin.concurrent elsewhereDb = true := by decide
  have hmode : firstLogin.mode elsewhereDb = "stepup" := by decide
  have hdenied := (denied_iff id elsewhereDb firstLogin).mp (h.elsewhere hscope htravel (.inr hmode))
  have hbinding : firstLogin.binding elsewhereDb = none := by decide
  rw [hbinding, hmode] at hdenied
  exact absurd hdenied.2.2 (by decide)

end RadiusModule.AntiMacClone
