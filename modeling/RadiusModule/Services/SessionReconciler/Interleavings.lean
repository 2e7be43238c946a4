import RadiusModule.Services.SessionReconciler

/-!
# What may come between a query and a closing

A sweep writes what it computed from the rows it read. The row may have changed
since then, by a packet or by another sweep. What every step keeps of a row, and
what a sweep therefore knows of its candidates, is said once here.
-/

namespace RadiusModule.SessionReconciler
open Library CardReconcile

structure Evolves (r c : AcctRow) : Prop where
  id : c.radacctid = r.radacctid
  start : c.acctStartTime = r.acctStartTime
  ended : r.running = false → c = r
  given : r.running = true → c.acctStopTime ≠ some ""

theorem Evolves.refl (r : AcctRow) : Evolves r r where
  id := rfl
  start := rfl
  ended _ := rfl
  given h := by
    rw [Option.isNone_iff_eq_none.mp h]
    nofun

theorem Evolves.trans {r c d : AcctRow} (h : Evolves r c) (h' : Evolves c d) : Evolves r d where
  id := h'.id.trans h.id
  start := h'.start.trans h.start
  ended hover := by
    obtain rfl := h.ended hover
    exact h'.ended hover
  given hrunning := by
    cases hc : c.running with
    | true => exact h'.given hc
    | false =>
      rw [h'.ended hc]
      exact h.given hrunning

def TableEvolves (t t' : AcctTable) : Prop :=
  ∀ k c, t.get? k = some c → ∃ c', t'.get? k = some c' ∧ Evolves c c'

theorem TableEvolves.refl (t : AcctTable) : TableEvolves t t := fun _ c h => ⟨c, h, .refl c⟩

theorem TableEvolves.trans {t t' t'' : AcctTable} (h : TableEvolves t t')
    (h' : TableEvolves t' t'') : TableEvolves t t'' := by
  intro k c hget
  obtain ⟨c', hget', hc⟩ := h k c hget
  obtain ⟨d, hget'', hd⟩ := h' k c' hget'
  exact ⟨d, hget'', hc.trans hd⟩

theorem evolves_update {t : AcctTable} {p : AcctRow → Bool} {f : AcctRow → AcctRow}
    (hf : ∀ r, (f r).radacctid = r.radacctid) (h : ∀ c, p c = true → Evolves c (f c)) :
    TableEvolves t (t.update p f hf) := by
  intro k c hget
  refine ⟨if p c then f c else c, ?_, ?_⟩
  · rw [Table.get?_update, hget, Option.map_some]
  · split_ifs with hp
    · exact h c hp
    · exact .refl c

theorem evolves_insert {t : AcctTable} {mk : ℕ → AcctRow} (hmk : ∀ n, (mk n).radacctid = n) :
    TableEvolves t (t.insert mk hmk) := by
  intro k c hget
  exact ⟨c, Table.get?_insert_of_some hget, .refl c⟩

theorem isoNow_ne_empty (now : DateTime) : isoNow now ≠ "" := by
  intro h
  have hlength := congrArg String.length h
  rw [isoNow, String.length_append] at hlength
  simp at hlength

theorem stopTime_ne_empty {stopIso : Option String} {now : DateTime} {r : AcctRow} :
    stopTime stopIso now r ≠ "" := by
  have hgiven : ∀ s t, given s = some t → t ≠ "" := by
    intro s t h
    obtain ⟨-, ht⟩ := Option.filter_eq_some_iff.mp h
    exact of_decide_eq_true ht
  rw [stopTime]
  cases h : (given stopIso).or ((given r.acctUpdateTime).or (given r.acctStartTime)) with
  | none => exact isoNow_ne_empty now
  | some t =>
    rw [Option.or_eq_some_iff, Option.or_eq_some_iff] at h
    obtain h | ⟨-, h | ⟨-, h⟩⟩ := h
    · exact hgiven _ t h
    · exact hgiven _ t h
    · exact hgiven _ t h

theorem evolves_overwriteOpen {t : AcctTable} {e : AccountingEvents.Event} {now : DateTime}
    {closed : Bool} {f : AcctRow → AcctRow} {hf : ∀ r, (f r).radacctid = r.radacctid}
    (h : ∀ c, c.running = true → Evolves c (f c)) :
    TableEvolves t (overwriteOpen t e now closed f hf) := by
  have hupdate : TableEvolves t (t.update (openOfKey e.key) f hf) :=
    evolves_update hf fun c hc => h c (Bool.and_eq_true_iff.mp hc).2
  unfold overwriteOpen
  dsimp only
  split_ifs
  · exact hupdate.trans (evolves_insert _)
  · exact hupdate

theorem evolves_interim (t : AcctTable) (now : DateTime) (e : AccountingEvents.Event) :
    TableEvolves t (interim t now e) := by
  refine evolves_overwriteOpen fun c hc => ⟨rfl, rfl, fun hover => ?_, fun _ => ?_⟩
  · rw [hc] at hover
    cases hover
  · change c.acctStopTime ≠ some ""
    rw [Option.isNone_iff_eq_none.mp hc]
    nofun

theorem evolves_stop (t : AcctTable) (now : DateTime) (e : AccountingEvents.Event) :
    TableEvolves t (stop t now e) := by
  refine evolves_overwriteOpen fun c hc => ⟨rfl, rfl, fun hover => ?_, fun _ => ?_⟩
  · rw [hc] at hover
    cases hover
  · intro h
    exact isoNow_ne_empty now (Option.some_inj.mp h)

theorem evolves_closeSessionRow {texts : DateTexts} {t t' : AcctTable} {now : DateTime}
    {r : AcctRow} {cause : String} {stopIso : Option String}
    (h : closeSessionRow texts t now r cause stopIso = some t') : TableEvolves t t' := by
  rw [closeSessionRow] at h
  split at h
  · cases h
  · obtain rfl := Option.some_inj.mp h
    refine evolves_update _ fun c hc => ⟨rfl, rfl, fun hover => ?_, fun _ hblank => ?_⟩
    · rw [(Bool.and_eq_true_iff.mp hc).2] at hover
      cases hover
    · exact stopTime_ne_empty (Option.some_inj.mp hblank)

theorem running_closeSessionRow {texts : DateTexts} {t t' : AcctTable} {now : DateTime}
    {r c : AcctRow} {cause : String} {stopIso : Option String}
    (h : closeSessionRow texts t now r cause stopIso = some t')
    (hget : t'.get? r.radacctid = some c) : c.running = false := by
  rw [closeSessionRow] at h
  split at h
  · cases h
  · obtain rfl := Option.some_inj.mp h
    rw [Table.get?_update] at hget
    obtain ⟨old, hold, rfl⟩ := Option.map_eq_some_iff.mp hget
    have hid := (Table.get?_eq_some.mp hold).2
    cases hrunning : old.running with
    | true =>
      rw [if_pos (by simp [hid])]
      rfl
    | false =>
      rw [if_neg (by simp)]
      exact hrunning

/-- The candidates are rows that are still there; those that are neither pending nor raised are
over. -/
structure Sweep.Sound (clock : Clock) (s : State) (sweep : Sweep) : Prop where
  asked : sweep.asked.1 ≤ (s.now clock).1
  pending : ∀ r ∈ sweep.pending, r ∈ sweep.selected
  evolved : ∀ r ∈ sweep.selected, ∃ c, s.rows.get? r.radacctid = some c ∧ Evolves r c
  stale : ∀ threshold, sweep.kind = .stale threshold → ∀ r ∈ sweep.selected,
    ∃ tenantId, isStale sweep.asked tenantId threshold r = true
  opened : sweep.kind = .force → ∀ r ∈ sweep.selected, r.isOpen = true
  closed : ∀ r ∈ sweep.selected, r ∈ sweep.pending ∨ r ∈ sweep.raised ∨
    ∀ c, s.rows.get? r.radacctid = some c → c.running = false

def State.Sound (clock : Clock) (s : State) : Prop :=
  ∀ i sweep, s.sweeps i = some sweep → sweep.Sound clock s

section
variable {clock : Clock} {s s' : State} {sweep : Sweep}

theorem over_of_evolves {r : AcctRow} (hrows : TableEvolves s.rows s'.rows)
    (hthere : ∃ c, s.rows.get? r.radacctid = some c ∧ Evolves r c)
    (h : ∀ c, s.rows.get? r.radacctid = some c → c.running = false) :
    ∀ c, s'.rows.get? r.radacctid = some c → c.running = false := by
  intro c hget
  obtain ⟨old, hold, -⟩ := hthere
  obtain ⟨c', hget', hc'⟩ := hrows _ old hold
  rw [hget] at hget'
  obtain rfl := Option.some_inj.mp hget'
  have hover := h old hold
  rw [hc'.ended hover]
  exact hover

theorem Sweep.Sound.later (h : sweep.Sound clock s) (hrows : TableEvolves s.rows s'.rows)
    (htick : s.tick ≤ s'.tick) : sweep.Sound clock s' where
  asked := h.asked.trans (clock.mono _ _ htick)
  pending := h.pending
  evolved r hr := by
    obtain ⟨c, hget, hc⟩ := h.evolved r hr
    obtain ⟨c', hget', hc'⟩ := hrows _ c hget
    exact ⟨c', hget', hc.trans hc'⟩
  stale := h.stale
  opened := h.opened
  closed r hr := (h.closed r hr).imp_right fun hr' => hr'.imp_right
    (over_of_evolves hrows (h.evolved r hr))

theorem sound_begun {kind : SweepKind} {cause : String} {p : AcctRow → Bool}
    (hstale : ∀ threshold, kind = .stale threshold → ∀ r, p r = true →
      ∃ tenantId, isStale (s.now clock) tenantId threshold r = true)
    (hforce : kind = .force → ∀ r, p r = true → r.isOpen = true) :
    (begun kind cause (s.now clock) (s.rows.select p)).Sound clock s where
  asked := le_rfl
  pending _ hr := hr
  evolved r hr := ⟨r, Table.get?_eq_some.mpr ⟨(Table.mem_select.mp hr).1, rfl⟩, .refl r⟩
  stale threshold hkind r hr := hstale threshold hkind r (Table.mem_select.mp hr).2
  opened hkind r hr := hforce hkind r (Table.mem_select.mp hr).2
  closed _ hr := .inl hr

theorem sound_begin (h : s.Sound clock) (i : ℕ) (hsweep : sweep.Sound clock s) :
    (s.begin i sweep).Sound clock := by
  intro j sweep' hj
  rw [State.begin] at hj
  dsimp only at hj
  split_ifs at hj
  · by_cases hij : j = i
    · subst hij
      rw [Function.update_self] at hj
      obtain rfl := Option.some_inj.mp hj
      exact hsweep.later (.refl _) le_rfl
    · rw [Function.update_of_ne hij] at hj
      exact (h j sweep' hj).later (.refl _) le_rfl
  · exact (h j sweep' hj).later (.refl _) le_rfl

variable {texts : DateTexts}

theorem closeNext_tick (texts : DateTexts) (clock : Clock) (s : State) (sweep : Sweep) (i : ℕ) (r : AcctRow) (rest : List AcctRow) :
    (s.closeNext texts clock i sweep r rest).tick = s.tick := by
  unfold State.closeNext
  split <;> rfl

theorem evolves_closeNext (texts : DateTexts) (clock : Clock) (s : State) (sweep : Sweep) (i : ℕ) (r : AcctRow) (rest : List AcctRow) :
    TableEvolves s.rows (s.closeNext texts clock i sweep r rest).rows := by
  unfold State.closeNext
  split
  · next rows hclose => exact evolves_closeSessionRow hclose
  · exact .refl _

theorem Sweep.Sound.advance {next : Sweep} (h : sweep.Sound clock s) {r : AcctRow}
    {rest : List AcctRow} (hpending : sweep.pending = r :: rest) (hkind : next.kind = sweep.kind)
    (hasked : next.asked = sweep.asked) (hselected : next.selected = sweep.selected)
    (hrest : next.pending = rest) (hraised : ∀ q ∈ sweep.raised, q ∈ next.raised)
    (hdone : r ∈ next.raised ∨ ∀ c, s.rows.get? r.radacctid = some c → c.running = false) :
    next.Sound clock s where
  asked := hasked ▸ h.asked
  pending q hq := by
    rw [hselected]
    rw [hrest] at hq
    exact h.pending q (hpending ▸ List.mem_cons_of_mem r hq)
  evolved := hselected ▸ h.evolved
  stale threshold hstale := by
    rw [hselected, hasked]
    exact h.stale threshold (hkind ▸ hstale)
  opened hforce := by
    rw [hselected]
    exact h.opened (hkind ▸ hforce)
  closed q hq := by
    rw [hselected] at hq
    obtain hq | hq | hq := h.closed q hq
    · rw [hpending, List.mem_cons] at hq
      obtain rfl | hq := hq
      · exact .inr hdone
      · exact .inl (hrest ▸ hq)
    · exact .inr (.inl (hraised q hq))
    · exact .inr (.inr hq)

theorem sound_closeNext (h : s.Sound clock) {i : ℕ} (hi : s.sweeps i = some sweep) {r : AcctRow}
    {rest : List AcctRow} (hpending : sweep.pending = r :: rest) :
    (s.closeNext texts clock i sweep r rest).Sound clock := by
  have hrows := evolves_closeNext texts clock s sweep i r rest
  have htick := (closeNext_tick texts clock s sweep i r rest).ge
  intro j sweep' hj
  by_cases hij : j = i
  · subst hij
    have hsweep := (h j sweep hi).later hrows htick
    revert hj hsweep
    unfold State.closeNext
    split
    · next rows hclose =>
      intro hj hsweep
      dsimp only at hj
      rw [Function.update_self] at hj
      obtain rfl := Option.some_inj.mp hj
      exact hsweep.advance hpending rfl rfl rfl rfl (fun q hq => hq)
        (.inr fun c hget => running_closeSessionRow hclose hget)
    · intro hj hsweep
      dsimp only at hj
      rw [Function.update_self] at hj
      obtain rfl := Option.some_inj.mp hj
      exact hsweep.advance hpending rfl rfl rfl rfl (fun q hq => List.mem_append_left _ hq)
        (.inl (List.mem_append_right _ (List.mem_singleton_self r)))
  · refine (h j sweep' ?_).later hrows htick
    revert hj
    unfold State.closeNext
    split
    · exact (Function.update_of_ne hij _ s.sweeps).symm.trans
    · exact (Function.update_of_ne hij _ s.sweeps).symm.trans

theorem State.Sound.later (h : s.Sound clock) (hrows : TableEvolves s.rows s'.rows)
    (htick : s.tick ≤ s'.tick) (hsweeps : ∀ i sweep, s'.sweeps i = some sweep →
      s.sweeps i = some sweep) : s'.Sound clock :=
  fun i sweep hi => (h i sweep (hsweeps i sweep hi)).later hrows htick

theorem evolves_act (texts : DateTexts) (clock : Clock) (s : State) (e : Event) : TableEvolves s.rows (s.act texts clock e).rows := by
  cases e with
  | interim e => exact evolves_interim _ _ _
  | stop e => exact evolves_stop _ _ _
  | askStale => exact .refl _
  | askForce => exact .refl _
  | close i =>
    simp only [State.act]
    split
    · split
      · exact evolves_closeNext _ _ _ _ _ _ _
      · exact .refl _
    · exact .refl _
  | finish i =>
    simp only [State.act]
    split
    · split_ifs
      · exact .refl _
      · exact .refl _
    · exact .refl _

theorem act_tick (e : Event) : (s.act texts clock e).tick = s.tick := by
  cases e with
  | interim e => rfl
  | stop e => rfl
  | askStale => rfl
  | askForce => rfl
  | close i =>
    simp only [State.act]
    split
    · split
      · exact closeNext_tick _ _ _ _ _ _ _
      · rfl
    · rfl
  | finish i =>
    simp only [State.act]
    split
    · split_ifs <;> rfl
    · rfl

theorem sound_act (h : s.Sound clock) (e : Event) : (s.act texts clock e).Sound clock := by
  have hrows := evolves_act texts clock s e
  cases e with
  | interim e => exact h.later hrows le_rfl fun _ _ hi => hi
  | stop e => exact h.later hrows le_rfl fun _ _ hi => hi
  | askStale i tenantId threshold cause =>
    refine sound_begin h i (sound_begun ?_ nofun)
    rintro _ ⟨⟩ r hr
    exact ⟨tenantId, hr⟩
  | askForce i tenantId username sessionId cause =>
    refine sound_begin h i (sound_begun nofun fun _ r hr => ?_)
    rw [isForced, Bool.and_eq_true, Bool.and_eq_true] at hr
    exact hr.1.2
  | close i =>
    simp only [State.act]
    split
    · next sweep hi =>
      split
      · next r rest hpending => exact sound_closeNext h hi hpending
      · exact h
    · exact h
  | finish i =>
    simp only [State.act]
    split
    · next sweep hi =>
      split_ifs
      · refine h.later (.refl _) le_rfl fun j sweep' hj => ?_
        dsimp only at hj
        by_cases hij : j = i
        · subst hij
          rw [Function.update_self] at hj
          cases hj
        · rwa [Function.update_of_ne hij] at hj
      · exact h
    · exact h

theorem sound_step (h : s.Sound clock) (e : Event) : (s.step texts clock e).Sound clock :=
  (sound_act h e).later (.refl _) ((act_tick e).trans_le (Nat.le_succ _)) fun _ _ hi => hi

theorem sound_idle (rows : AcctTable) : (State.idle rows).Sound clock := by
  intro i sweep hi
  cases hi

end

end RadiusModule.SessionReconciler
