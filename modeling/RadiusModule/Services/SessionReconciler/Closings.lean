import RadiusModule.Services.SessionReconciler.Interleavings

/-!
# When closings tell the truth

What accounting asks of each step of a run, and the condition on the state
before a step under which the step keeps to it. A sweep falsifies a row only
when the row has moved on since it was read, or when it was wrong from the start.
-/

namespace RadiusModule.SessionReconciler
open Library CardReconcile

def IsStamp (s : String) (u : DateTime) : Prop := s = isoNow u ∨ s = IsoText.datetime u

theorem acctNorm_ofList (l : List Char) : acctNorm (String.ofList l) =
    String.ofList ((l.map fun c => if c = 'T' then ' ' else c).filter (· ≠ 'Z')) := by
  rw [acctNorm, PyText.replaceChar, dropChar, String.toList_ofList, String.toList_ofList]

theorem norm_fieldChars {l : List Char} (h : ∀ c ∈ l, IsoText.isFieldChar c = true) :
    (l.map fun c => if c = 'T' then ' ' else c).filter (· ≠ 'Z') = l := by
  have hT : (l.map fun c => if c = 'T' then ' ' else c) = l := by
    refine (List.map_congr_left fun c hc => if_neg ?_).trans (List.map_id l)
    rintro rfl
    exact absurd (h _ hc) (by decide)
  rw [hT, List.filter_eq_self]
  intro c hc
  refine decide_eq_true ?_
  rintro rfl
  exact absurd (h _ hc) (by decide)

theorem acctNorm_stamp {s : String} {u : DateTime} (h : IsStamp s u) : ∃ fraction,
    acctNorm s = String.ofList
      (IsoText.markedText ' ' (IsoText.micros u / 1000000) ++ fraction) := by
  have hdate := norm_fieldChars (@IsoText.isFieldChar_dateText (IsoText.micros u / 1000000 / 86400))
  have htime := norm_fieldChars (@IsoText.isFieldChar_timeText (IsoText.micros u / 1000000 % 86400))
  have hfraction := norm_fieldChars (@IsoText.isFieldChar_fractionText (IsoText.micros u % 1000000))
  have hmark : ∀ l : List Char, (('T' :: l).map fun c => if c = 'T' then ' ' else c).filter
      (· ≠ 'Z') = ' ' :: (l.map fun c => if c = 'T' then ' ' else c).filter (· ≠ 'Z') :=
    fun _ => rfl
  have hspace : ∀ l : List Char, ((' ' :: l).map fun c => if c = 'T' then ' ' else c).filter
      (· ≠ 'Z') = ' ' :: (l.map fun c => if c = 'T' then ' ' else c).filter (· ≠ 'Z') :=
    fun _ => rfl
  have hZ : (['Z'].map fun c => if c = 'T' then ' ' else c).filter (· ≠ 'Z') = [] := rfl
  obtain rfl | rfl := h
  · refine ⟨IsoText.fractionText (IsoText.micros u % 1000000), ?_⟩
    have htext : isoNow u = String.ofList (IsoText.secondText (IsoText.micros u / 1000000) ++
        (IsoText.fractionText (IsoText.micros u % 1000000) ++ ['Z'])) := by
      rw [isoNow, IsoText.isoformat, ← List.append_assoc]
      exact String.ofList_append.symm
    rw [htext, acctNorm_ofList, IsoText.secondText, IsoText.markedText]
    simp only [List.map_append, List.filter_append, hmark, hdate, htime, hfraction, hZ,
      List.append_nil]
  · refine ⟨[], ?_⟩
    rw [IsoText.datetime, acctNorm_ofList, IsoText.markedText]
    simp only [List.map_append, List.filter_append, hspace, hdate, htime, List.append_nil]

theorem before_of_stamp_lt {s : String} {u c : DateTime} (h : IsStamp s u)
    (hlt : acctNorm s < IsoText.datetime c) : u.1 < c.1 := by
  obtain ⟨fraction, htext⟩ := acctNorm_stamp h
  rw [htext] at hlt
  exact IsoText.lt_of_spaced_lt hlt

theorem silent_of_isStale {now u : DateTime} {tenantId : Option ℤ} {threshold : ℕ} {r : AcctRow}
    {s : String} (h : isStale now tenantId threshold r = true) (hs : r.acctUpdateTime = some s)
    (hu : IsStamp s u) : u.1 + threshold * 1000000 < now.1 := by
  rw [isStale, Bool.and_eq_true] at h
  have hseen : r.lastSeen = some s := by
    rw [AcctRow.lastSeen, hs]
    rfl
  have hcut := h.2
  rw [hseen] at hcut
  dsimp only at hcut
  obtain ⟨c, hc, hlt⟩ := Option.any_eq_true _ _ |>.mp hcut
  have hbefore := before_of_stamp_lt hu (of_decide_eq_true hlt)
  rw [DateTime.addSeconds?_val hc] at hbefore
  omega

def InOrder (texts : DateTexts) (start stop : Option String) : Prop :=
  ∀ a b, parseDtUtc texts start = .ok (some a) → parseDtUtc texts stop = .ok (some b) → a.1 ≤ b.1

structure RowKept (texts : DateTexts) (c c' : AcctRow) : Prop where
  grows : c.sessionTime ≤ c'.sessionTime
  ordered : c.running = true → c'.running = false →
    InOrder texts c'.acctStartTime c'.acctStopTime
  kept : c.running = false → c' = c

def Silent (now : DateTime) (threshold : ℕ) (c : AcctRow) : Prop :=
  ∀ s u, c.acctUpdateTime = some s → IsStamp s u → u.1 + threshold * 1000000 < now.1

def RowsKept (texts : DateTexts) (t t' : AcctTable) : Prop :=
  ∀ k c c', t.get? k = some c → t'.get? k = some c' → RowKept texts c c'

structure Truthful (texts : DateTexts) (clock : Clock) (s : State) (e : Event) : Prop where
  rows : RowsKept texts s.rows (s.step texts clock e).rows
  silent : ∀ i sweep threshold, e = .close i → s.sweeps i = some sweep →
    sweep.kind = .stale threshold → ∀ k c c', s.rows.get? k = some c →
    (s.step texts clock e).rows.get? k = some c' → c.running = true → c'.running = false →
    Silent (s.now clock) threshold c
  finished : ∀ i sweep, e = .finish i → s.sweeps i = some sweep → sweep.pending = [] →
    sweep.kind = .force → ∀ r ∈ sweep.selected, ∀ c, s.rows.get? r.radacctid = some c →
    c.isOpen = false

structure CloseUndisturbed (texts : DateTexts) (now : DateTime) (sweep : Sweep) (r c : AcctRow) :
    Prop where
  /-- An update that came after the query is outside the window already. -/
  silent : ∀ threshold, sweep.kind = .stale threshold → c.acctUpdateTime ≠ r.acctUpdateTime →
    Silent now threshold c
  /-- The session time has not passed the one that was read, nor the span from start to stop. -/
  slower : c.sessionTime ≤ r.sessionTime ∨ ∃ n,
    sessionSeconds texts r.acctStartTime (some (sweep.stopFor now r)) = .ok (some n) ∧
      c.sessionTime ≤ n
  /-- The session started before its stop. -/
  inOrder : InOrder texts r.acctStartTime (some (sweep.stopFor now r))

def ReportsMore (e : AccountingEvents.Event) (t : AcctTable) : Prop :=
  ∀ c ∈ t.rows, openOfKey e.key c = true → c.sessionTime ≤ e.sessionTime

def Undisturbed (texts : DateTexts) (clock : Clock) (s : State) : Event → Prop
  | .interim e => ReportsMore e s.rows
  | .stop e => ReportsMore e s.rows ∧ ∀ c ∈ s.rows.rows, openOfKey e.key c = true →
      InOrder texts c.acctStartTime (some (isoNow (s.now clock)))
  | .askStale .. => True
  | .askForce .. => True
  | .close i => ∀ sweep r rest, s.sweeps i = some sweep → sweep.pending = r :: rest →
      ∀ secs, closingSeconds texts r (sweep.stopFor (s.now clock) r) = .ok secs →
      ∀ c, s.rows.get? r.radacctid = some c → c.running = true →
      CloseUndisturbed texts (s.now clock) sweep r c
  | .finish i => ∀ sweep, s.sweeps i = some sweep → sweep.pending = [] → sweep.kind = .force →
      ∀ r ∈ sweep.selected, r.acctStopTime ≠ some "" ∧ (r ∈ sweep.raised →
        ∀ c, s.rows.get? r.radacctid = some c → c.running = false)

theorem RowKept.refl (texts : DateTexts) (c : AcctRow) : RowKept texts c c where
  grows := le_rfl
  ordered hrunning hover := by
    rw [hrunning] at hover
    cases hover
  kept _ := rfl

theorem rowsKept_refl (texts : DateTexts) (t : AcctTable) : RowsKept texts t t := by
  intro k c c' hget hget'
  obtain rfl := Option.some_inj.mp (hget.symm.trans hget')
  exact .refl texts c

def Rewrites (p : AcctRow → Bool) (f : AcctRow → AcctRow) (t t' : AcctTable) : Prop :=
  ∀ k c, t.get? k = some c → t'.get? k = some (if p c then f c else c)

theorem rewrites_update {t : AcctTable} {p : AcctRow → Bool} {f : AcctRow → AcctRow}
    (hf : ∀ r, (f r).radacctid = r.radacctid) : Rewrites p f t (t.update p f hf) := by
  intro k c hget
  rw [Table.get?_update, hget, Option.map_some]

theorem rewrites_overwriteOpen {t : AcctTable} {e : AccountingEvents.Event} {now : DateTime}
    {closed : Bool} {f : AcctRow → AcctRow} {hf : ∀ r, (f r).radacctid = r.radacctid} :
    Rewrites (openOfKey e.key) f t (overwriteOpen t e now closed f hf) := by
  intro k c hget
  have hupdate := rewrites_update (p := openOfKey e.key) hf k c hget
  rw [overwriteOpen]
  split
  · exact Table.get?_insert_of_some hupdate
  · exact hupdate

theorem rowsKept_iff {texts : DateTexts} {t t' : AcctTable} {p : AcctRow → Bool}
    {f : AcctRow → AcctRow} (h : Rewrites p f t t') :
    RowsKept texts t t' ↔ ∀ c ∈ t.rows, p c = true → RowKept texts c (f c) := by
  constructor
  · intro hkept c hc hp
    have hget := Table.get?_eq_some.mpr ⟨hc, rfl⟩
    have hnew := h _ c hget
    rw [if_pos hp] at hnew
    exact hkept _ c (f c) hget hnew
  · intro hkept k c c' hget hget'
    rw [h k c hget] at hget'
    obtain rfl := Option.some_inj.mp hget'
    split_ifs with hp
    · exact hkept c (Table.get?_eq_some.mp hget).1 hp
    · exact .refl texts c

theorem rowKept_iff_of_running {texts : DateTexts} {c c' : AcctRow} (h : c.running = true) :
    RowKept texts c c' ↔ c.sessionTime ≤ c'.sessionTime ∧
      (c'.running = false → InOrder texts c'.acctStartTime c'.acctStopTime) := by
  constructor
  · intro hkept
    exact ⟨hkept.grows, hkept.ordered h⟩
  · rintro ⟨hgrows, hordered⟩
    refine ⟨hgrows, fun _ => hordered, fun hover => ?_⟩
    rw [h] at hover
    cases hover

theorem running_of_openOfKey {k : SessionKey} {c : AcctRow}
    (h : openOfKey k c = true) : c.running = true :=
  (Bool.and_eq_true_iff.mp h).2

theorem rowsKept_interim_iff {texts : DateTexts} {t : AcctTable} {now : DateTime}
    {e : AccountingEvents.Event} : RowsKept texts t (interim t now e) ↔ ReportsMore e t := by
  rw [interim, rowsKept_iff rewrites_overwriteOpen, ReportsMore]
  refine forall₃_congr fun c hc hopen => ?_
  rw [rowKept_iff_of_running (running_of_openOfKey hopen)]
  constructor
  · exact fun h => h.1
  · refine fun h => ⟨h, fun hover => ?_⟩
    have hrunning := running_of_openOfKey hopen
    change c.running = false at hover
    rw [hrunning] at hover
    cases hover

theorem rowsKept_stop_iff {texts : DateTexts} {t : AcctTable} {now : DateTime}
    {e : AccountingEvents.Event} : RowsKept texts t (stop t now e) ↔
      ReportsMore e t ∧ ∀ c ∈ t.rows, openOfKey e.key c = true →
        InOrder texts c.acctStartTime (some (isoNow now)) := by
  rw [stop, rowsKept_iff rewrites_overwriteOpen, ReportsMore]
  constructor
  · intro h
    refine ⟨fun c hc hopen => (h c hc hopen).grows, fun c hc hopen => ?_⟩
    exact (h c hc hopen).ordered (running_of_openOfKey hopen) rfl
  · rintro ⟨hmore, horder⟩ c hc hopen
    rw [rowKept_iff_of_running (running_of_openOfKey hopen)]
    exact ⟨hmore c hc hopen, fun _ => horder c hc hopen⟩

theorem le_closingSeconds_iff {texts : DateTexts} {r : AcctRow} {stop : String} {secs n : ℤ}
    (h : closingSeconds texts r stop = .ok secs) : n ≤ secs ↔ n ≤ r.sessionTime ∨ ∃ m,
      sessionSeconds texts r.acctStartTime (some stop) = .ok (some m) ∧ n ≤ m := by
  rw [closingSeconds] at h
  cases hspan : sessionSeconds texts r.acctStartTime (some stop) with
  | error e =>
    rw [hspan] at h
    cases h
  | ok span =>
    rw [hspan] at h
    cases span with
    | none =>
      obtain rfl := Except.ok.inj h
      simp
    | some m =>
      obtain rfl := Except.ok.inj h
      simp

section
variable {texts : DateTexts} {clock : Clock} {s : State} {sweep : Sweep} {i : ℕ} {r : AcctRow}
  {rest : List AcctRow}

theorem rows_closeNext_of_error {e : DateError}
    (h : closingSeconds texts r (sweep.stopFor (s.now clock) r) = .error e) :
    (s.closeNext texts clock i sweep r rest).rows = s.rows := by
  have hnone : closeSessionRow texts s.rows (s.now clock) r sweep.cause
      (sweep.stopIso (s.now clock)) = none := by
    rw [Sweep.stopFor] at h
    rw [closeSessionRow, h]
  rw [State.closeNext, hnone]

theorem rewrites_closeNext (i : ℕ) (rest : List AcctRow) {secs : ℤ}
    (h : closingSeconds texts r (sweep.stopFor (s.now clock) r) = .ok secs) :
    Rewrites (fun c => c.radacctid = r.radacctid && c.running)
      (fun c => c.close (sweep.stopFor (s.now clock) r) secs sweep.cause) s.rows
      (s.closeNext texts clock i sweep r rest).rows := by
  rw [Sweep.stopFor] at h ⊢
  have hsome : closeSessionRow texts s.rows (s.now clock) r sweep.cause
      (sweep.stopIso (s.now clock)) = some (s.rows.update
        (fun c => c.radacctid = r.radacctid && c.running)
        (fun c => c.close (stopTime (sweep.stopIso (s.now clock)) (s.now clock) r) secs sweep.cause)
        fun c => c.close_id _ secs sweep.cause) := by
    rw [closeSessionRow, h]
  rw [State.closeNext, hsome]
  exact rewrites_update fun c => c.close_id _ secs sweep.cause

theorem forall_candidate_iff {P : AcctRow → Prop} :
    (∀ c ∈ s.rows.rows, (c.radacctid = r.radacctid && c.running) = true → P c) ↔
      ∀ c, s.rows.get? r.radacctid = some c → c.running = true → P c := by
  constructor
  · intro h c hget hrunning
    obtain ⟨hc, hid⟩ := Table.get?_eq_some.mp hget
    exact h c hc (by simp [hid, hrunning])
  · intro h c hc hp
    rw [Bool.and_eq_true, decide_eq_true_eq] at hp
    exact h c (Table.get?_eq_some.mpr ⟨hc, hp.1⟩) hp.2

theorem rowsKept_closeNext_iff (hsweep : sweep.Sound clock s)
    (hpending : sweep.pending = r :: rest) {secs : ℤ}
    (h : closingSeconds texts r (sweep.stopFor (s.now clock) r) = .ok secs) :
    RowsKept texts s.rows (s.closeNext texts clock i sweep r rest).rows ↔
      ∀ c, s.rows.get? r.radacctid = some c → c.running = true → c.sessionTime ≤ secs ∧
        InOrder texts r.acctStartTime (some (sweep.stopFor (s.now clock) r)) := by
  rw [rowsKept_iff (rewrites_closeNext i rest h), forall_candidate_iff]
  refine forall₃_congr fun c hget hrunning => ?_
  have hselected := hsweep.pending r (hpending ▸ List.mem_cons_self)
  obtain ⟨c', hget', hevolved⟩ := hsweep.evolved r hselected
  obtain rfl := Option.some_inj.mp (hget.symm.trans hget')
  rw [rowKept_iff_of_running hrunning, ← hevolved.start]
  exact and_congr_right fun _ => ⟨fun horder => horder rfl, fun horder _ => horder⟩

theorem candidate_of_closed {secs : ℤ} {k : ℕ} {c c' : AcctRow}
    (h : closingSeconds texts r (sweep.stopFor (s.now clock) r) = .ok secs)
    (hget : s.rows.get? k = some c)
    (hget' : (s.closeNext texts clock i sweep r rest).rows.get? k = some c')
    (hrunning : c.running = true) (hover : c'.running = false) :
    s.rows.get? r.radacctid = some c := by
  rw [rewrites_closeNext i rest h k c hget] at hget'
  by_cases hp : (c.radacctid = r.radacctid && c.running) = true
  · rw [Bool.and_eq_true, decide_eq_true_eq] at hp
    rw [← hp.1, (Table.get?_eq_some.mp hget).2, hget]
  · rw [if_neg hp] at hget'
    obtain rfl := Option.some_inj.mp hget'
    rw [hrunning] at hover
    cases hover

theorem silent_of_unheard (hsweep : sweep.Sound clock s) {threshold : ℕ}
    (hkind : sweep.kind = .stale threshold) (hr : r ∈ sweep.selected) {c : AcctRow}
    (hsame : c.acctUpdateTime = r.acctUpdateTime) : Silent (s.now clock) threshold c := by
  intro text u htext hu
  obtain ⟨tenantId, hstale⟩ := hsweep.stale threshold hkind r hr
  have hsilent := silent_of_isStale hstale (hsame ▸ htext) hu
  exact hsilent.trans_le hsweep.asked

theorem step_close (texts : DateTexts) (clock : Clock) (hi : s.sweeps i = some sweep) (hpending : sweep.pending = r :: rest) :
    (s.step texts clock (.close i)).rows = (s.closeNext texts clock i sweep r rest).rows := by
  simp only [State.step, State.act, hi, hpending]

theorem step_close_of_not (h : ∀ sweep r rest, s.sweeps i = some sweep → sweep.pending ≠ r :: rest) :
    (s.step texts clock (.close i)).rows = s.rows := by
  simp only [State.step, State.act]
  split
  · next sweep hi =>
    split
    · next r rest hpending => exact absurd hpending (h sweep r rest hi)
    · rfl
  · rfl

theorem truthful_close_of_rows (hrows : (s.step texts clock (.close i)).rows = s.rows) :
    Truthful texts clock s (.close i) where
  rows := hrows ▸ rowsKept_refl texts s.rows
  silent _ _ _ _ _ _ k c c' hget hget' hrunning hover := by
    rw [hrows, hget] at hget'
    obtain rfl := Option.some_inj.mp hget'
    rw [hrunning] at hover
    cases hover
  finished _ _ he := by cases he

theorem truthful_closing_iff (h : s.Sound clock) (hi : s.sweeps i = some sweep)
    (hpending : sweep.pending = r :: rest) {secs : ℤ}
    (hsecs : closingSeconds texts r (sweep.stopFor (s.now clock) r) = .ok secs) :
    Truthful texts clock s (.close i) ↔ ∀ c, s.rows.get? r.radacctid = some c →
      c.running = true → CloseUndisturbed texts (s.now clock) sweep r c := by
  have hsweep := h i sweep hi
  have hselected := hsweep.pending r (hpending ▸ List.mem_cons_self)
  have hstep := step_close texts clock hi hpending
  have hrewrites := rewrites_closeNext i rest hsecs
  have hkept := rowsKept_closeNext_iff (i := i) hsweep hpending hsecs
  constructor
  · intro htruth c hget hrunning
    have hrows := hkept.mp (hstep ▸ htruth.rows) c hget hrunning
    refine ⟨fun threshold hkind _ => ?_, (le_closingSeconds_iff hsecs).mp hrows.1, hrows.2⟩
    have hclosed := hrewrites r.radacctid c hget
    have hid := (Table.get?_eq_some.mp hget).2
    rw [if_pos (by simp [hid, hrunning]), ← hstep] at hclosed
    exact htruth.silent i sweep threshold rfl hi hkind _ c _ hget hclosed hrunning rfl
  · intro hundisturbed
    refine ⟨?_, ?_, by rintro _ _ ⟨⟩⟩
    · rw [hstep, hkept]
      intro c hget hrunning
      have hc := hundisturbed c hget hrunning
      exact ⟨(le_closingSeconds_iff hsecs).mpr hc.slower, hc.inOrder⟩
    · rintro _ sweep' threshold ⟨⟩ hi' hkind k c c' hget hget' hrunning hover
      obtain rfl := Option.some_inj.mp (hi.symm.trans hi')
      rw [hstep] at hget'
      have hcandidate := candidate_of_closed hsecs hget hget' hrunning hover
      by_cases hsame : c.acctUpdateTime = r.acctUpdateTime
      · exact silent_of_unheard hsweep hkind hselected hsame
      · exact (hundisturbed c hcandidate hrunning).silent threshold hkind hsame

theorem truthful_close_iff (h : s.Sound clock) : Truthful texts clock s (.close i) ↔
    Undisturbed texts clock s (.close i) := by
  by_cases hnext : ∃ sweep r rest, s.sweeps i = some sweep ∧ sweep.pending = r :: rest
  · obtain ⟨sweep, r, rest, hi, hpending⟩ := hnext
    have honly : Undisturbed texts clock s (.close i) ↔
        ∀ secs, closingSeconds texts r (sweep.stopFor (s.now clock) r) = .ok secs →
          ∀ c, s.rows.get? r.radacctid = some c → c.running = true →
          CloseUndisturbed texts (s.now clock) sweep r c := by
      constructor
      · exact fun hundisturbed => hundisturbed sweep r rest hi hpending
      · intro hundisturbed sweep' r' rest' hi' hpending'
        obtain rfl := Option.some_inj.mp (hi.symm.trans hi')
        obtain ⟨rfl, -⟩ := List.cons_eq_cons.mp (hpending.symm.trans hpending')
        exact hundisturbed
    rw [honly]
    cases hsecs : closingSeconds texts r (sweep.stopFor (s.now clock) r) with
    | error e =>
      have hrows := (step_close texts clock hi hpending).trans
        (rows_closeNext_of_error hsecs)
      exact iff_of_true (truthful_close_of_rows hrows) nofun
    | ok secs =>
      rw [truthful_closing_iff h hi hpending hsecs]
      constructor
      · rintro hundisturbed _ ⟨⟩
        exact hundisturbed
      · exact fun hundisturbed => hundisturbed secs rfl
  · have hnot : ∀ sweep r rest, s.sweeps i = some sweep → sweep.pending ≠ r :: rest :=
      fun sweep r rest hi hpending => hnext ⟨sweep, r, rest, hi, hpending⟩
    refine iff_of_true (truthful_close_of_rows (step_close_of_not hnot)) ?_
    intro sweep r rest hi hpending
    exact absurd hpending (hnot sweep r rest hi)

theorem step_finish : (s.step texts clock (.finish i)).rows = s.rows := by
  simp only [State.step, State.act]
  split
  · split_ifs <;> rfl
  · rfl

theorem shut_iff (hsweep : sweep.Sound clock s) (hpending : sweep.pending = [])
    (hkind : sweep.kind = .force) (hr : r ∈ sweep.selected) :
    (∀ c, s.rows.get? r.radacctid = some c → c.isOpen = false) ↔
      r.acctStopTime ≠ some "" ∧ (r ∈ sweep.raised →
        ∀ c, s.rows.get? r.radacctid = some c → c.running = false) := by
  obtain ⟨c, hget, hc⟩ := hsweep.evolved r hr
  have hopen := hsweep.opened hkind r hr
  constructor
  · intro hshut
    have hclosed := hshut c hget
    refine ⟨fun hblank => ?_, fun _ c' hget' => ?_⟩
    · have hover : r.running = false := by
        rw [AcctRow.running, hblank]
        rfl
      rw [hc.ended hover, hopen] at hclosed
      cases hclosed
    · have hshut' := hshut c' hget'
      rw [AcctRow.isOpen] at hshut'
      rw [AcctRow.running]
      cases hstop : c'.acctStopTime with
      | none =>
        rw [hstop] at hshut'
        cases hshut'
      | some t => rfl
  · rintro ⟨hblank, hraised⟩ c' hget'
    obtain rfl := Option.some_inj.mp (hget.symm.trans hget')
    have hrunning : r.running = true := by
      rw [AcctRow.isOpen] at hopen
      rw [AcctRow.running]
      cases hstop : r.acctStopTime with
      | none => rfl
      | some t =>
        rw [hstop] at hopen hblank
        exact absurd (congrArg some (of_decide_eq_true hopen)) hblank
    have hover : c.running = false := by
      obtain hpend | hrais | hover := hsweep.closed r hr
      · rw [hpending] at hpend
        cases hpend
      · exact hraised hrais c hget
      · exact hover c hget
    have hgiven := hc.given hrunning
    rw [AcctRow.running] at hover
    rw [AcctRow.isOpen]
    cases hstop : c.acctStopTime with
    | none =>
      rw [hstop] at hover
      cases hover
    | some t =>
      rw [hstop] at hgiven
      exact decide_eq_false fun ht => hgiven (congrArg some ht)

theorem truthful_finish_iff (h : s.Sound clock) : Truthful texts clock s (.finish i) ↔
    Undisturbed texts clock s (.finish i) := by
  constructor
  · intro htruth sweep hi hpending hkind r hr
    exact (shut_iff (h i sweep hi) hpending hkind hr).mp
      (htruth.finished i sweep rfl hi hpending hkind r hr)
  · intro hundisturbed
    refine ⟨step_finish ▸ rowsKept_refl texts s.rows, by rintro _ _ _ ⟨⟩, ?_⟩
    rintro _ sweep ⟨⟩ hi hpending hkind r hr
    exact (shut_iff (h i sweep hi) hpending hkind hr).mpr (hundisturbed sweep hi hpending hkind r hr)

theorem truthful_iff_rowsKept {e : Event} (hclose : ∀ i, e ≠ .close i) (hfinish : ∀ i, e ≠ .finish i) :
    Truthful texts clock s e ↔ RowsKept texts s.rows (s.step texts clock e).rows := by
  constructor
  · exact fun h => h.rows
  · refine fun h => ⟨h, ?_, ?_⟩
    · intro i sweep threshold he
      exact absurd he (hclose i)
    · intro i sweep he
      exact absurd he (hfinish i)

theorem truthful_iff (h : s.Sound clock) (e : Event) :
    Truthful texts clock s e ↔ Undisturbed texts clock s e := by
  cases e with
  | interim e => exact (truthful_iff_rowsKept (by simp) (by simp)).trans rowsKept_interim_iff
  | stop e => exact (truthful_iff_rowsKept (by simp) (by simp)).trans rowsKept_stop_iff
  | askStale => exact (truthful_iff_rowsKept (by simp) (by simp)).trans (iff_true_intro (rowsKept_refl _ _))
  | askForce => exact (truthful_iff_rowsKept (by simp) (by simp)).trans (iff_true_intro (rowsKept_refl _ _))
  | close i => exact truthful_close_iff h
  | finish i => exact truthful_finish_iff h

end

/-- A run of packets and sweeps keeps the accounting true just where no step meets a row that has
moved on since its sweep has read it. -/
theorem closings_truthful_iff (texts : DateTexts) (clock : Clock) (rows : AcctTable)
    (es : List Event) :
    Run.Along (Truthful texts clock) (State.step texts clock) (State.idle rows) es ↔
      Run.Along (Undisturbed texts clock) (State.step texts clock) (State.idle rows) es :=
  Run.along_congr (fun _ e h => sound_step h e) (fun _ e h => truthful_iff h e) (sound_idle rows)

theorem july_range :
    -62135596800000000 ≤ (1782864000000000 : ℤ) ∧ (1782864000000000 : ℤ) ≤ 253402300799999999 := by
  norm_num

def july : DateTexts.Calendar where
  entries := [(⟨1782864000000000, july_range⟩, "2026-07-01T00:00:00")]
  dates := by decide
  texts := by decide
  mark := by decide
  digit := by decide
  chars := DateTexts.Calendar.chars_of_all (by decide)

def minutes : Clock where
  time i := ⟨1782950400000000 + 60000000 * (min i 1000 : ℕ), by omega⟩
  mono i j h := by
    dsimp only
    omega

def julySession : AcctRow where
  radacctid := 1
  tenantId := 1
  acctSessionId := "s1"
  username := "ali"
  nasIpAddress := "10.0.0.1"
  acctStartTime := some "2026-07-01T00:00:00Z"
  acctUpdateTime := none
  acctStopTime := none
  acctSessionTime := some 100
  acctTerminateCause := ""

def julyTable : AcctTable :=
  Table.empty.insert (fun n => { julySession with radacctid := n }) fun _ => rfl

theorem julyNas_ne : "10.0.0.1" ≠ "" := by decide

def julyInterim : AccountingEvents.Event where
  tenantId := 1
  username := "ali"
  acctSessionId := "s1"
  acctUniqueSessionId := ""
  nasIpAddress := "10.0.0.1"
  callingStationId := ""
  framedIpAddress := ""
  inputOctets := 0
  outputOctets := 0
  sessionTime := 86460
  terminateCause := ""
  statusType := .interimUpdate
  session_ne _ := by decide
  nas_ne := julyNas_ne

/-- An update that comes between the query and the closing is lost, and the session is closed as
stale although it was heard of a minute ago. -/
theorem closings_not_truthful : ¬ Run.Along (Truthful july.dateTexts minutes)
    (State.step july.dateTexts minutes) (State.idle julyTable)
    [.askStale 0 none 1200 "Stale-Session-Timeout", .interim julyInterim, .close 0] := by
  rintro ⟨-, -, htruth, -⟩
  set s := ((State.idle julyTable).step july.dateTexts minutes
    (.askStale 0 none 1200 "Stale-Session-Timeout")).step july.dateTexts minutes
    (.interim julyInterim) with hs
  have hbefore : (s.rows.get? 1).map AcctRow.sessionTime = some 86460 := by
    rw [hs]
    decide
  have hafter : ((s.step july.dateTexts minutes (.close 0)).rows.get? 1).map AcctRow.sessionTime =
      some 100 := by
    rw [hs]
    decide +kernel
  obtain ⟨c, hget, hc⟩ := Option.map_eq_some_iff.mp hbefore
  obtain ⟨c', hget', hc'⟩ := Option.map_eq_some_iff.mp hafter
  have hgrows := (htruth.rows 1 c c' hget hget').grows
  omega

end RadiusModule.SessionReconciler
