import RadiusModule.Services.AccessControl

/-!
# Blocks after repeated failures

The tracker forgets old failures, and no failure that a later count looks at is
among them. So a device that fails too often is blocked, if no row of its own
that is active without effect stands in the way, and one that does not is never
blocked, if the texts of the dates compare as the dates do.
-/

namespace RadiusModule.AccessControl
open Library PyText MacAddress IsoText

def attempts (ops : List Op) : List Failure := ops.filterMap Op.failure?

def failuresIn (history : List Failure) (mac : String) (first last : ℤ) : ℕ :=
  history.countP fun f => f.mac = mac && first ≤ f.createdAt.1 && f.createdAt.1 ≤ last

def Settings.window (s : Settings) : ℤ := s.windowSec * 1000000

def EdgeClear (since t : ℤ) : Prop :=
  t / 1000000 = since / 1000000 → (t % 1000000 = 0 ↔ since % 1000000 = 0)

def Effective (localMinute : DateTime → ℤ) (blocks : Blocks) (mac : String) (now : DateTime) :
    Prop :=
  hasActiveBlock blocks .mac mac = true → ∃ b ∈ listBlocks blocks 1000,
    b.blockType = .mac ∧ b.target = mac ∧ isBlockInEffect localMinute b now = true

theorem textRank_le_iff {since t : ℤ} (h : EdgeClear since t) :
    textRank since ≤ textRank t ↔ since ≤ t := by
  simp only [EdgeClear] at h
  simp only [textRank]
  split_ifs <;> omega

theorem one_le_windowSec (s : Settings) : 1 ≤ s.windowSec := le_max_left _ _

theorem one_le_durationMin (s : Settings) : 1 ≤ s.durationMin := le_max_left _ _

/-- The tracker within the history of all failures: what a window that ends with the history
looks at is still there. -/
structure Tracks (s : Settings) (history table : List Failure) : Prop where
  sublist : table.Sublist history
  kept : ∀ x : ℤ, (∀ f ∈ history, f.createdAt.1 ≤ x + s.window) →
    table.filter (x ≤ ·.createdAt.1) = history.filter (x ≤ ·.createdAt.1)

section

variable {s : Settings} {history table : List Failure} {now : DateTime} {f : Failure}

theorem pruned_sublist : (pruned s table now).Sublist table := by
  rw [pruned]
  cases now.addSeconds? (-(s.windowSec * 2)) with
  | none => exact List.Sublist.refl table
  | some cutoff => exact List.filter_sublist

theorem filter_pruned {x : ℤ} (hx : now.1 ≤ x + s.window) :
    (pruned s table now).filter (x ≤ ·.createdAt.1) = table.filter (x ≤ ·.createdAt.1) := by
  rw [pruned]
  cases hcutoff : now.addSeconds? (-(s.windowSec * 2)) with
  | none => rfl
  | some cutoff =>
    have hval := DateTime.addSeconds?_val hcutoff
    have hsec := one_le_windowSec s
    simp only [Settings.window] at hx
    change (table.filter fun f => !(stamp f.createdAt < stamp cutoff)).filter _ = _
    rw [List.filter_filter]
    refine List.filter_congr fun f _ => ?_
    by_cases hold : x ≤ f.createdAt.1
    · have hnew : ¬ stamp f.createdAt < stamp cutoff := by
        rw [stamp, stamp, stamp_lt_iff]
        simp only [textRank]
        split_ifs <;> omega
      simp [hold, hnew]
    · simp [hold]

theorem Tracks.attempt (h : Tracks s history table) :
    Tracks s (history ++ [f]) (pruned s (table ++ [f]) f.createdAt) := by
  constructor
  · exact pruned_sublist.trans (h.sublist.append_right [f])
  · intro x hx
    have hnow := hx f (List.mem_append_right history (List.mem_singleton_self f))
    rw [filter_pruned hnow, List.filter_append, List.filter_append,
      h.kept x fun g hg => hx g (List.mem_append_left [f] hg)]

end

section

variable {s : Settings} {db : Db} {ip mac : String} {now since expires : DateTime}

theorem failures_foldl_autoblock (ws : List (BlockType × String)) (acc : Db × Option ℕ) :
    (ws.foldl (autoblock s since expires) acc).1.failures = acc.1.failures := by
  induction ws generalizing acc with
  | nil => rfl
  | cons w ws ih =>
    rw [List.foldl_cons, ih, autoblock]
    split_ifs <;> rfl

theorem failures_registerFailedAttempt (henabled : s.enabled = true) :
    (registerFailedAttempt s db ip mac now).1.failures =
      pruned s (db.failures ++ [⟨strip ip, normalizeMac mac, now⟩]) now := by
  rw [registerFailedAttempt, henabled]
  simp only [Bool.not_true, Bool.false_eq_true, if_false]
  split
  · exact failures_foldl_autoblock _ _
  · rfl

theorem wants_mac (htarget : s.targetKind = "mac") (ip mac : String) :
    wants s ip mac = if mac ≠ "" then [(.mac, mac)] else [] := by
  simp [wants, htarget]

theorem registerFailedAttempt_mac (henabled : s.enabled = true) (htarget : s.targetKind = "mac")
    (hmac : normalizeMac mac ≠ "") (hsince : now.addSeconds? (-s.windowSec) = some since)
    (hexpires : now.addSeconds? (60 * s.durationMin) = some expires) :
    (registerFailedAttempt s db ip mac now).1 =
      (autoblock s since expires ({ db with
        failures := pruned s (db.failures ++ [⟨strip ip, normalizeMac mac, now⟩]) now }, none)
        (.mac, normalizeMac mac)).1 := by
  rw [registerFailedAttempt, henabled]
  simp only [Bool.not_true, Bool.false_eq_true, if_false, hsince, hexpires, wants_mac htarget,
    if_pos hmac, List.foldl_cons, List.foldl_nil]

variable (db ip mac now) in
theorem blocks_registerFailedAttempt (henabled : s.enabled = true)
    (htarget : s.targetKind = "mac") :
    (registerFailedAttempt s db ip mac now).1.blocks = db.blocks ∨
      ∃ since expires, now.addSeconds? (-s.windowSec) = some since ∧
        s.threshold ≤ countRecentFailures
          (pruned s (db.failures ++ [⟨strip ip, normalizeMac mac, now⟩]) now) .mac
          (normalizeMac mac) since ∧
        (registerFailedAttempt s db ip mac now).1.blocks =
          db.blocks.create (untilBlock .mac (normalizeMac mac) expires) := by
  cases hsince : now.addSeconds? (-s.windowSec) with
  | none =>
    left
    rw [registerFailedAttempt, henabled]
    simp only [Bool.not_true, Bool.false_eq_true, if_false, hsince]
  | some since =>
    cases hexpires : now.addSeconds? (60 * s.durationMin) with
    | none =>
      left
      rw [registerFailedAttempt, henabled]
      simp only [Bool.not_true, Bool.false_eq_true, if_false, hsince, hexpires]
    | some expires =>
      by_cases hmac : normalizeMac mac = ""
      · left
        rw [registerFailedAttempt, henabled]
        simp only [Bool.not_true, Bool.false_eq_true, if_false, hsince, hexpires,
          wants_mac htarget, hmac, ne_eq, not_true_eq_false, List.foldl_nil]
      · rw [registerFailedAttempt_mac henabled htarget hmac hsince hexpires, autoblock]
        split_ifs with hcount hactive
        · exact Or.inl rfl
        · exact Or.inl rfl
        · exact Or.inr ⟨since, expires, rfl, not_lt.mp hcount, rfl⟩

end

section

variable {blocks : Blocks} {localMinute : DateTime → ℤ} {ctx : AuthContext} {now : DateTime}

theorem mem_rows_of_mem_listBlocks {b : Block} {limit : ℕ} (h : b ∈ listBlocks blocks limit) :
    b ∈ blocks.rows ∧ b.active = true := by
  have hmem := List.mem_of_mem_take h
  rw [List.mem_reverse] at hmem
  exact List.mem_filter.mp hmem

theorem mem_listBlocks_create {block : Block} (hactive : block.active = true) (limit : ℕ) :
    { block with id := blocks.lastId + 1 } ∈ listBlocks (blocks.create block) (limit + 1) := by
  simp [listBlocks, Blocks.create, hactive, List.filter_append]

theorem isSome_findActiveBlock {b : Block} (hb : b ∈ listBlocks blocks 1000)
    (hmatches : blockMatches b ctx = true) (heffect : isBlockInEffect localMinute b now = true) :
    (findActiveBlock localMinute blocks ctx now).isSome = true := by
  rw [findActiveBlock, List.find?_isSome]
  exact ⟨b, hb, by rw [hmatches, heffect]; rfl⟩

theorem findActiveBlock_eq_none (h : ∀ b ∈ blocks.rows, b.active = true → blockMatches b ctx = false)
    (now : DateTime) : findActiveBlock localMinute blocks ctx now = none := by
  rw [findActiveBlock, List.find?_eq_none]
  intro b hb
  obtain ⟨hrow, hactive⟩ := mem_rows_of_mem_listBlocks hb
  rw [h b hrow hactive]
  exact Bool.false_ne_true

theorem blockMatches_mac {b : Block} (hmac : b.blockType = .mac) :
    blockMatches b ctx = true ↔ ctx.mac ≠ "" ∧ normalizeMac b.target = normalizeMac ctx.mac := by
  simp [blockMatches, hmac]

theorem normalizeMac_empty : normalizeMac "" = "" := by decide

end

section

variable {s : Settings} {history : List Failure} {localMinute : DateTime → ℤ} {db : Db}
  {ctx : AuthContext} {ip mac : String} {now since : DateTime}

theorem countRecentFailures_eq {table : List Failure} (h : Tracks s history table)
    (hsince : since.1 = now.1 - s.window) (hlast : ∀ f ∈ history, f.createdAt.1 ≤ now.1)
    (hedge : ∀ f ∈ history, f.mac = mac → EdgeClear since.1 f.createdAt.1) :
    countRecentFailures table .mac mac since = failuresIn history mac since.1 now.1 := by
  have hkept := h.kept since.1 fun f hf => by
    have := hlast f hf
    omega
  calc countRecentFailures table .mac mac since
      = table.countP fun f => f.mac = mac && since.1 ≤ f.createdAt.1 := by
        refine List.countP_congr fun f hf => ?_
        by_cases hmac : f.mac = mac
        · have hle := textRank_le_iff (hedge f (h.sublist.mem hf) hmac)
          simp [hmac, stamp, stamp_le_iff, hle]
        · simp [hmac]
    _ = (table.filter (since.1 ≤ ·.createdAt.1)).countP fun f => f.mac = mac := by
        rw [List.countP_filter]
    _ = (history.filter (since.1 ≤ ·.createdAt.1)).countP fun f => f.mac = mac := by rw [hkept]
    _ = history.countP fun f => f.mac = mac && since.1 ≤ f.createdAt.1 := by
        rw [List.countP_filter]
    _ = failuresIn history mac since.1 now.1 := by
        refine List.countP_congr fun f hf => ?_
        simp [hlast f hf]

theorem edgeClear_self : EdgeClear (now.1 - s.window) now.1 := by
  have hsec := one_le_windowSec s
  intro h
  simp only [Settings.window] at h
  omega

theorem edgeClear_append (hedge : ∀ f ∈ history, f.mac = mac →
    EdgeClear (now.1 - s.window) f.createdAt.1) {f : Failure} (hf : f.createdAt = now) :
    ∀ g ∈ history ++ [f], g.mac = mac → EdgeClear (now.1 - s.window) g.createdAt.1 := by
  intro g hg hmac
  obtain hg | hg := List.mem_append.mp hg
  · exact hedge g hg hmac
  · rw [List.mem_singleton.mp hg, hf]
    exact edgeClear_self

theorem le_append (hlast : ∀ f ∈ history, f.createdAt.1 ≤ now.1) {f : Failure}
    (hf : f.createdAt = now) : ∀ g ∈ history ++ [f], g.createdAt.1 ≤ now.1 := by
  intro g hg
  obtain hg | hg := List.mem_append.mp hg
  · exact hlast g hg
  · rw [List.mem_singleton.mp hg, hf]

theorem addSeconds?_window (h : now.addSeconds? (-s.windowSec) = some since) :
    since.1 = now.1 - s.window := by
  rw [DateTime.addSeconds?_val h, Settings.window]
  ring

theorem isBlockInEffect_until {expires : DateTime}
    (h : now.addSeconds? (60 * s.durationMin) = some expires) (id : ℕ) :
    isBlockInEffect localMinute { untilBlock .mac mac expires with id } now = true := by
  have hval := DateTime.addSeconds?_val h
  have hmin := one_le_durationMin s
  have hlt : now < expires := Subtype.coe_lt_coe.mp (by omega)
  simp [isBlockInEffect, untilBlock, hlt]

theorem attempt_blocked (henabled : s.enabled = true) (htarget : s.targetKind = "mac")
    (htracks : Tracks s history db.failures) (hlast : ∀ f ∈ history, f.createdAt.1 ≤ now.1)
    (hmac : normalizeMac mac ≠ "") (hctx : normalizeMac ctx.mac = normalizeMac mac)
    (hsince : (now.addSeconds? (-s.windowSec)).isSome)
    (hexpires : (now.addSeconds? (60 * s.durationMin)).isSome)
    (hedge : ∀ f ∈ history, f.mac = normalizeMac mac →
      EdgeClear (now.1 - s.window) f.createdAt.1)
    (heffective : Effective localMinute db.blocks (normalizeMac mac) now)
    (hcount : s.threshold ≤ failuresIn (history ++ [⟨strip ip, normalizeMac mac, now⟩])
      (normalizeMac mac) (now.1 - s.window) now.1) :
    (findActiveBlock localMinute (registerFailedAttempt s db ip mac now).1.blocks ctx
      now).isSome = true := by
  obtain ⟨since, hsince⟩ := Option.isSome_iff_exists.mp hsince
  obtain ⟨expires, hexpires⟩ := Option.isSome_iff_exists.mp hexpires
  have hval := addSeconds?_window hsince
  have htracks' := htracks.attempt (f := ⟨strip ip, normalizeMac mac, now⟩)
  have hedge' := edgeClear_append hedge (f := ⟨strip ip, normalizeMac mac, now⟩) rfl
  rw [← hval] at hedge'
  have hcounted := countRecentFailures_eq htracks' hval (le_append hlast rfl) hedge'
  have hctxmac : ctx.mac ≠ "" := by
    intro hempty
    rw [hempty, normalizeMac_empty] at hctx
    exact hmac hctx.symm
  rw [registerFailedAttempt_mac henabled htarget hmac hsince hexpires, autoblock]
  split_ifs with hfew hactive
  · rw [hcounted, hval] at hfew
    exact absurd hcount (not_le.mpr hfew)
  -- A row of the device stands already.
  · obtain ⟨b, hb, htype, htarget, heffect⟩ := heffective hactive
    refine isSome_findActiveBlock hb ((blockMatches_mac htype).mpr ⟨hctxmac, ?_⟩) heffect
    rw [htarget, normalizeMac_normalizeMac, hctx]
  · refine isSome_findActiveBlock (mem_listBlocks_create rfl 999)
      ((blockMatches_mac rfl).mpr ⟨hctxmac, ?_⟩) (isBlockInEffect_until hexpires _)
    rw [hctx]
    exact normalizeMac_normalizeMac mac

def Unblocked (ctx : AuthContext) (blocks : Blocks) : Prop :=
  ∀ b ∈ blocks.rows, b.active = true → blockMatches b ctx = false

theorem Unblocked.deactivate {blocks : Blocks} (h : Unblocked ctx blocks) (p : Block → Bool) :
    Unblocked ctx (blocks.deactivate p) := by
  intro b hb hactive
  obtain ⟨b', hb', rfl⟩ := List.mem_map.mp hb
  split_ifs at hactive ⊢ with hp
  exact h b' hb' hactive

theorem attempt_unblocked (henabled : s.enabled = true) (htarget : s.targetKind = "mac")
    (htracks : Tracks s history db.failures) (hlast : ∀ f ∈ history, f.createdAt.1 ≤ now.1)
    (hedge : normalizeMac mac = normalizeMac ctx.mac → ∀ f ∈ history,
      f.mac = normalizeMac ctx.mac → EdgeClear (now.1 - s.window) f.createdAt.1)
    (hfew : failuresIn (history ++ [⟨strip ip, normalizeMac mac, now⟩]) (normalizeMac ctx.mac)
      (now.1 - s.window) now.1 < s.threshold)
    (h : Unblocked ctx db.blocks) :
    Unblocked ctx (registerFailedAttempt s db ip mac now).1.blocks := by
  obtain hsame | ⟨since, expires, hsince, hcount, hcreate⟩ :=
    blocks_registerFailedAttempt db ip mac now henabled htarget
  · rwa [hsame]
  · rw [hcreate]
    intro b hb hactive
    obtain hb | hb := List.mem_append.mp hb
    · exact h b hb hactive
    · rw [List.mem_singleton.mp hb, ← Bool.not_eq_true, blockMatches_mac rfl]
      rintro ⟨-, hsamemac⟩
      have hmac : normalizeMac mac = normalizeMac ctx.mac :=
        (normalizeMac_normalizeMac mac).symm.trans hsamemac
      have hval := addSeconds?_window hsince
      rw [← hmac] at hedge hfew
      have htracks' := htracks.attempt (f := ⟨strip ip, normalizeMac mac, now⟩)
      have hedge' := edgeClear_append (hedge rfl) (f := ⟨strip ip, normalizeMac mac, now⟩) rfl
      rw [← hval] at hedge'
      have hcounted := countRecentFailures_eq htracks' hval (le_append hlast rfl) hedge'
      rw [hcounted, hval] at hcount
      exact absurd hcount (not_le.mpr hfew)

end

def Ordered (history : List Failure) : Prop := history.Pairwise (·.createdAt.1 ≤ ·.createdAt.1)

def EdgesClear (s : Settings) (history calls : List Failure) (mac : String) : Prop :=
  ∀ g ∈ calls, g.mac = mac → ∀ f ∈ history ++ calls, f.mac = mac →
    EdgeClear (g.createdAt.1 - s.window) f.createdAt.1

structure AttemptClear (localMinute : DateTime → ℤ) (s : Settings) (history : List Failure)
    (blocks : Blocks) (mac : String) (now : DateTime) : Prop where
  since : (now.addSeconds? (-s.windowSec)).isSome
  expires : (now.addSeconds? (60 * s.durationMin)).isSome
  edge : ∀ f ∈ history, f.mac = mac → EdgeClear (now.1 - s.window) f.createdAt.1
  effective : Effective localMinute blocks mac now

theorem attempts_cons (op : Op) (ops : List Op) :
    attempts (op :: ops) = op.failure?.toList ++ attempts ops := by
  rw [attempts, List.filterMap_cons]
  cases op.failure? <;> rfl

section

variable {s : Settings} {history : List Failure} {db : Db} {ctx : AuthContext}

theorem step_tracks (henabled : s.enabled = true) (h : Tracks s history db.failures) (op : Op) :
    Tracks s (history ++ op.failure?.toList) (step s db op).failures := by
  cases op with
  | attempt ip mac now =>
    rw [step, failures_registerFailedAttempt henabled]
    exact h.attempt
  | clear id =>
    rw [Op.failure?, Option.toList_none, List.append_nil]
    exact h
  | sweep now =>
    rw [Op.failure?, Option.toList_none, List.append_nil]
    exact h

theorem run_tracks (henabled : s.enabled = true) (h : Tracks s history db.failures)
    (ops : List Op) : Tracks s (history ++ attempts ops) (run s db ops).failures := by
  induction ops generalizing history db with
  | nil =>
    rw [attempts, List.filterMap_nil, List.append_nil]
    exact h
  | cons op ops ih =>
    rw [attempts_cons, ← List.append_assoc]
    exact ih (step_tracks henabled h op)

theorem tracks_self (s : Settings) (history : List Failure) : Tracks s history history :=
  ⟨List.Sublist.refl history, fun _ _ => rfl⟩

theorem failuresIn_append_le (history later : List Failure) (mac : String) (first last : ℤ) :
    failuresIn history mac first last ≤ failuresIn (history ++ later) mac first last := by
  rw [failuresIn, failuresIn, List.countP_append]
  exact Nat.le_add_right _ _

theorem run_attempt (s : Settings) (db : Db) (ops : List Op) (ip mac : String) (now : DateTime) :
    run s db (ops ++ [.attempt ip mac now]) =
      (registerFailedAttempt s (run s db ops) ip mac now).1 := by
  rw [run, List.foldl_append, List.foldl_cons, List.foldl_nil, ← run, step]

theorem attempts_attempt (ops : List Op) (ip mac : String) (now : DateTime) :
    attempts (ops ++ [.attempt ip mac now]) =
      attempts ops ++ [⟨strip ip, normalizeMac mac, now⟩] := by
  rw [attempts, List.filterMap_append, ← attempts]
  rfl

theorem le_of_ordered {ip mac : String} {now : DateTime} {later : List Failure}
    (h : Ordered (history ++ (⟨ip, mac, now⟩ :: later))) : ∀ f ∈ history, f.createdAt.1 ≤ now.1 :=
  fun f hf => (List.pairwise_append.mp h).2.2 f hf _ List.mem_cons_self

theorem run_unblocked (henabled : s.enabled = true) (htarget : s.targetKind = "mac")
    {ops : List Op} (htracks : Tracks s history db.failures)
    (hordered : Ordered (history ++ attempts ops))
    (hfew : ∀ x, (failuresIn (history ++ attempts ops) (normalizeMac ctx.mac) x (x + s.window) : ℤ) <
      s.threshold)
    (hedges : EdgesClear s history (attempts ops) (normalizeMac ctx.mac))
    (h : Unblocked ctx db.blocks) : Unblocked ctx (run s db ops).blocks := by
  induction ops generalizing history db with
  | nil => exact h
  | cons op ops ih =>
    rw [attempts_cons, ← List.append_assoc] at hordered hfew
    have hlater : EdgesClear s (history ++ op.failure?.toList) (attempts ops)
        (normalizeMac ctx.mac) := by
      intro g hg hmac f hf
      rw [List.append_assoc, ← attempts_cons] at hf
      exact hedges g (by rw [attempts_cons]; exact List.mem_append_right _ hg) hmac f hf
    refine ih (step_tracks henabled htracks op) hordered hfew hlater ?_
    cases op with
    | attempt ip mac now =>
      rw [Op.failure?, Option.toList_some] at hordered hfew
      have hcall := hfew (now.1 - s.window)
      rw [sub_add_cancel] at hcall
      have hle := failuresIn_append_le (history ++ [⟨strip ip, normalizeMac mac, now⟩])
        (attempts ops) (normalizeMac ctx.mac) (now.1 - s.window) now.1
      rw [List.append_assoc, List.singleton_append] at hordered
      have hlast := le_of_ordered hordered
      have hseldom : failuresIn (history ++ [⟨strip ip, normalizeMac mac, now⟩])
          (normalizeMac ctx.mac) (now.1 - s.window) now.1 < s.threshold := by omega
      rw [step]
      refine attempt_unblocked henabled htarget htracks hlast ?_ hseldom h
      intro hsame f hf hmac
      exact hedges ⟨strip ip, normalizeMac mac, now⟩ List.mem_cons_self hsame f
        (List.mem_append_left _ hf) hmac
    | clear id => exact h.deactivate _
    | sweep now => exact h.deactivate _

end

/-- Failures that reach the threshold block their device, and only they do. -/
theorem autoblock_complete_bounded (localMinute : DateTime → ℤ) (s : Settings) (db : Db)
    (henabled : s.enabled = true) (htarget : s.targetKind = "mac") :
    (∀ ops ip mac now ctx,
      Ordered (db.failures ++ attempts (ops ++ [.attempt ip mac now])) →
      normalizeMac mac ≠ "" → normalizeMac ctx.mac = normalizeMac mac →
      AttemptClear localMinute s (db.failures ++ attempts ops) (run s db ops).blocks
        (normalizeMac mac) now →
      s.threshold ≤ failuresIn (db.failures ++ attempts (ops ++ [.attempt ip mac now]))
        (normalizeMac mac) (now.1 - s.window) now.1 →
      (findActiveBlock localMinute (run s db (ops ++ [.attempt ip mac now])).blocks ctx
        now).isSome = true) ∧
    ∀ ops ctx, Ordered (db.failures ++ attempts ops) → Unblocked ctx db.blocks →
      (∀ x, (failuresIn (db.failures ++ attempts ops) (normalizeMac ctx.mac) x
        (x + s.window) : ℤ) < s.threshold) →
      EdgesClear s db.failures (attempts ops) (normalizeMac ctx.mac) →
      ∀ now, findActiveBlock localMinute (run s db ops).blocks ctx now = none := by
  have hstart := tracks_self s db.failures
  constructor
  · intro ops ip mac now ctx hordered hmac hctx hclear hcount
    rw [attempts_attempt, ← List.append_assoc] at hordered hcount
    have htracks := run_tracks henabled hstart ops
    have hlast := le_of_ordered hordered
    rw [run_attempt]
    exact attempt_blocked henabled htarget htracks hlast hmac hctx hclear.since hclear.expires
      hclear.edge hclear.effective hcount
  · intro ops ctx hordered hmanual hfew hedges
    exact findActiveBlock_eq_none
      (run_unblocked henabled htarget hstart hordered hfew hedges hmanual)

def guarded (threshold durationMin : String) : Settings :=
  { autoblockEnabled := "1", autoblockThreshold := threshold, autoblockDurationMin := durationMin }

def utcMinute (t : DateTime) : ℤ := t.1 / 60000000 % 1440

def noon : DateTime := ⟨1767268800000000, by norm_num⟩

def afterNoon : DateTime := ⟨1767268920000000, by norm_num⟩

def firstAttempt : Op := .attempt "" "aa-bb-cc-dd-ee-ff" noon

theorem autoblock_two_failures :
    (findActiveBlock utcMinute (run (guarded "2" "60") ⟨.empty, []⟩
      ([firstAttempt] ++ [.attempt "" "AA:BB:CC:DD:EE:FF" afterNoon])).blocks
      { mac := "aa:bb:cc:dd:ee:ff" } afterNoon).isSome = true := by
  refine (autoblock_complete_bounded utcMinute (guarded "2" "60") ⟨.empty, []⟩
    (by decide) (by decide)).1 [firstAttempt] "" "AA:BB:CC:DD:EE:FF" afterNoon
    { mac := "aa:bb:cc:dd:ee:ff" } ?_ (by decide +kernel) (by decide +kernel)
    ⟨by decide +kernel, by decide +kernel, ?_, ?_⟩ (by decide +kernel)
  · exact List.pairwise_pair.mpr (by decide)
  · intro f hf _ _
    rw [List.mem_singleton.mp hf]
    exact ⟨fun _ => by decide, fun _ => by decide⟩
  · intro h
    exact absurd h (by decide)

/-- The block of the first failure is over and its row is not yet swept. -/
theorem expired_row_suppresses :
    (guarded "1" "1").threshold ≤ failuresIn (attempts [firstAttempt,
        .attempt "" "aa-bb-cc-dd-ee-ff" afterNoon]) (normalizeMac "aa-bb-cc-dd-ee-ff")
        (afterNoon.1 - (guarded "1" "1").window) afterNoon.1 ∧
      findActiveBlock utcMinute (run (guarded "1" "1") ⟨.empty, []⟩ [firstAttempt,
        .attempt "" "aa-bb-cc-dd-ee-ff" afterNoon]).blocks { mac := "aa-bb-cc-dd-ee-ff" }
        afterNoon = none := by
  constructor
  · decide
  · exact Option.isNone_iff_eq_none.mp (by decide +kernel)

end RadiusModule.AccessControl
