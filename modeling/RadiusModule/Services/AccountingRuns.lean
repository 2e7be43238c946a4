import RadiusModule.Services.SessionLife

/-!
# Runs of the accounting service

Two questions about whole runs of packets and sweeps: does a session end with
exactly one row, closed, however its packets are repeated and reordered, and
do the counters stored for it ever fall behind what its packets reported.
-/

namespace RadiusModule.SessionLife
open Library AccountingEvents

abbrev runOps (debounce : ℤ) (t : RadacctTable) (ops : List Op) : RadacctTable :=
  Run.run (Op.apply debounce) t ops

theorem life_runOps {debounce : ℤ} {t : RadacctTable} {k : SessionKey} {ops : List Op}
    (h : ∀ op ∈ ops, (op.report? k).isSome) :
    life (runOps debounce t ops) k = Run.run (Life.after k) (life t k) ops := by
  refine Run.run_abstract (fun t => life t k) (fun t op hop => ?_) h
  obtain ⟨⟨s, c⟩, hr⟩ := Option.isSome_iff_exists.mp hop
  simp only [Life.after, hr, life_apply_of_report hr]

/-- A packet of session `81a0` on NAS `10.0.0.1`, `seconds` after the epoch. -/
def sampleDelivery (seconds : ℤ) (status : String) (octets : ℤ) : Op :=
  .deliver 1 (afterSeconds 0 seconds)
    [("status_type", .str status), ("username", .str "u1"), ("acct_session_id", .str "81a0"),
      ("nas_ip_address", .str "10.0.0.1"), ("input_octets", .int octets),
      ("output_octets", .int octets), ("session_time", .int seconds)]

def sampleKey : SessionKey := ⟨1, "81a0", "10.0.0.1"⟩

def OneClosedRow (t : RadacctTable) (k : SessionKey) : Prop :=
  (t.select (ofKey k)).map Radacct.running = [false]

instance (t : RadacctTable) (k : SessionKey) : Decidable (OneClosedRow t k) :=
  inferInstanceAs (Decidable (_ = _))

theorem oneClosedRow_iff (t : RadacctTable) (k : SessionKey) :
    OneClosedRow t k ↔ (life t k).map Entry.running = [false] := by
  simp [OneClosedRow, life, Function.comp_def, entry]

theorem length_le_report (s : Kind) (c : Counters) (l : Life) :
    l.length ≤ (l.report s c).length := by
  cases s <;> simp only [Life.report] <;> split_ifs <;> simp_all [Life.overwrite]

theorem length_le_run (k : SessionKey) (l : Life) (ops : List Op) :
    l.length ≤ (Run.run (Life.after k) l ops).length := by
  induction ops generalizing l with
  | nil => exact le_refl _
  | cons op ops ih =>
    refine le_trans ?_ (ih (Life.after k l op))
    simp only [Life.after]
    split
    · exact length_le_report _ _ _
    · exact le_refl _

theorem closed_run_iff (k : SessionKey) (c : Counters) (ops : List Op) :
    (Run.run (Life.after k) [⟨false, c⟩] ops).map Entry.running = [false] ↔
      ∀ op ∈ ops, op.isKind k .start = false := by
  induction ops with
  | nil => simp
  | cons op ops ih =>
    simp only [Run.run, List.foldl_cons, List.forall_mem_cons] at ih ⊢
    cases hr : op.report? k with
    | none => simpa [Life.after, hr, Op.isKind] using ih
    | some r =>
      obtain ⟨s, c'⟩ := r
      cases s with
      | start =>
        have hlen := length_le_run k [⟨false, c⟩, ⟨true, c'⟩] ops
        have hne : (Run.run (Life.after k) [⟨false, c⟩, ⟨true, c'⟩] ops).map Entry.running ≠
            [false] := fun heq => by
          have := congrArg List.length heq
          simp only [List.length_map, List.length_cons, List.length_nil] at this hlen
          omega
        simpa [Life.after, hr, Life.report, Life.running, Op.isKind] using hne
      | interim => simpa [Life.after, hr, Life.report, Life.running, Op.isKind] using ih
      | stop => simpa [Life.after, hr, Life.report, Life.running, Op.isKind] using ih

def StartsBeforeStops (k : SessionKey) (ops : List Op) : Prop :=
  ops.Pairwise fun a b => ¬(a.isKind k .stop = true ∧ b.isKind k .start = true)

instance (k : SessionKey) (ops : List Op) : Decidable (StartsBeforeStops k ops) :=
  inferInstanceAs (Decidable (ops.Pairwise _))

theorem startsBeforeStops_of_no_start {k : SessionKey} {ops : List Op}
    (h : ∀ op ∈ ops, op.isKind k .start = false) : StartsBeforeStops k ops :=
  List.pairwise_of_forall_mem_list fun _ _ b hb hab => by simp [h b hb] at hab

theorem pending_run_iff (k : SessionKey) (ops : List Op) :
    ∀ l : Life, (l = [] ∨ ∃ c, l = [⟨true, c⟩]) → (∃ op ∈ ops, op.isKind k .stop = true) →
      ((Run.run (Life.after k) l ops).map Entry.running = [false] ↔ StartsBeforeStops k ops) := by
  induction ops with
  | nil =>
    rintro l - ⟨op, hop, -⟩
    cases hop
  | cons op ops ih =>
    intro l hl hstop
    simp only [Run.run, List.foldl_cons, StartsBeforeStops, List.pairwise_cons] at ih ⊢
    have hpass : op.isKind k .stop = false → ∃ op ∈ ops, op.isKind k .stop = true := by
      intro hno
      obtain ⟨op', hmem, hs⟩ := hstop
      rcases List.mem_cons.mp hmem with rfl | hmem
      · simp [hno] at hs
      · exact ⟨op', hmem, hs⟩
    cases hr : op.report? k with
    | none =>
      have hno : op.isKind k .stop = false := by simp [Op.isKind, hr]
      simpa [Life.after, hr, hno] using ih l hl (hpass hno)
    | some r =>
      obtain ⟨s, c⟩ := r
      cases s with
      | start =>
        have hno : op.isKind k .stop = false := by simp [Op.isKind, hr]
        have hrep : ∃ c', Life.report .start c l = [⟨true, c'⟩] := by
          rcases hl with rfl | ⟨c', rfl⟩
          · exact ⟨c, rfl⟩
          · exact ⟨c', rfl⟩
        simpa [Life.after, hr, hno] using ih _ (Or.inr hrep) (hpass hno)
      | interim =>
        have hno : op.isKind k .stop = false := by simp [Op.isKind, hr]
        have hrep : Life.report .interim c l = [⟨true, c⟩] := by
          rcases hl with rfl | ⟨c', rfl⟩ <;> rfl
        simpa [Life.after, hr, hno] using ih _ (Or.inr ⟨c, hrep⟩) (hpass hno)
      | stop =>
        have hyes : op.isKind k .stop = true := by simp [Op.isKind, hr]
        have hrep : Life.report .stop c l = [⟨false, c⟩] := by
          rcases hl with rfl | ⟨c', rfl⟩ <;> rfl
        have hclosed := closed_run_iff k c ops
        simp only [Run.run] at hclosed
        simp only [Life.after, hr, hrep, hyes, true_and, Bool.not_eq_true]
        rw [hclosed]
        exact ⟨fun h => ⟨h, startsBeforeStops_of_no_start h⟩, fun h => h.1⟩

/-- Packets of one session in any order and number leave exactly one row, closed, unless a
Start of the session is delivered after a Stop of it. -/
theorem one_closed_row_iff (debounce : ℤ) (t : RadacctTable) (k : SessionKey) (ops : List Op)
    (hfresh : lastSessionRow t k = none) (hk : ∀ op ∈ ops, (op.report? k).isSome)
    (hstop : ∃ op ∈ ops, op.isKind k .stop = true) :
    OneClosedRow (runOps debounce t ops) k ↔ StartsBeforeStops k ops := by
  rw [oneClosedRow_iff, life_runOps hk, (life_eq_nil t k).mpr hfresh]
  exact pending_run_iff k ops [] (Or.inl rfl) hstop

theorem one_closed_row_resent :
    OneClosedRow (runOps 60 .empty [sampleDelivery 0 "Start" 0, sampleDelivery 9 "Stop" 5,
      sampleDelivery 4 "Interim-Update" 3, sampleDelivery 9 "Stop" 5]) sampleKey :=
  (one_closed_row_iff 60 .empty sampleKey _ rfl (by decide) (by decide)).mpr (by decide)

/-- A Start that arrives after the Stop opens a second row that nothing closes. -/
theorem late_start_second_row :
    (∀ op ∈ [sampleDelivery 9 "Stop" 5, sampleDelivery 0 "Start" 0],
      (op.report? sampleKey).isSome) ∧
    (∃ op ∈ [sampleDelivery 9 "Stop" 5, sampleDelivery 0 "Start" 0],
      op.isKind sampleKey .stop = true) ∧
    ¬OneClosedRow (runOps 60 .empty [sampleDelivery 9 "Stop" 5, sampleDelivery 0 "Start" 0])
      sampleKey := by
  decide

def reported (k : SessionKey) (ops : List Op) : List Counters :=
  ops.filterMap fun op => (op.report? k).map Prod.snd

def reachesRow (s : Kind) (t : RadacctTable) (k : SessionKey) : Bool :=
  match s with
  | .start => (openSession t k).isNone
  | .interim | .stop => (openSession t k).isSome || (lastSessionRow t k).isNone

theorem reachesRow_eq (s : Kind) (t : RadacctTable) (k : SessionKey) :
    reachesRow s t k = (life t k).writes s := by
  have hopen : (openSession t k).isNone = !(life t k).running := by
    rw [Bool.eq_iff_iff, Option.isNone_iff_eq_none, openSession_eq_none]
    simp
  have hlast : (lastSessionRow t k).isNone = decide (life t k = []) := by
    rw [Bool.eq_iff_iff, Option.isNone_iff_eq_none, ← life_eq_nil]
    simp
  have hsome : (openSession t k).isSome = (life t k).running := by
    rw [← Option.not_isNone, hopen, Bool.not_not]
  cases s <;> simp [reachesRow, Life.writes, hopen, hlast, hsome]

/-- After a Stop of the session its row holds at least what any of its packets reported, and
the stored counters never go down between two reads. -/
def NoTrafficLost (debounce : ℤ) (k : SessionKey) (ops : List Op) : Prop :=
  ∀ pre post, ops = pre ++ post →
    ((∃ op ∈ pre, op.isKind k .stop = true) →
      ∃ c, stored (runOps debounce .empty pre) k = some c ∧ ∀ c' ∈ reported k pre, c' ≤ c) ∧
    ∀ c, stored (runOps debounce .empty pre) k = some c →
      ∃ c', stored (runOps debounce .empty (pre ++ post)) k = some c' ∧ c ≤ c'

/-- A packet that reaches a row reports at least what every earlier packet of the session did,
and one that reaches none reports no more than some earlier packet. -/
def InOrder (debounce : ℤ) (k : SessionKey) (pre : List Op) (op : Op) : Prop :=
  match op.report? k with
  | none => True
  | some (s, c) =>
    if reachesRow s (runOps debounce .empty pre) k then ∀ c' ∈ reported k pre, c' ≤ c
    else ∃ c' ∈ reported k pre, c ≤ c'

instance (debounce : ℤ) (k : SessionKey) (pre : List Op) (op : Op) :
    Decidable (InOrder debounce k pre op) := by
  unfold InOrder
  split <;> infer_instance

def Ledger (l : Life) (reports : List Counters) : Prop :=
  (l = [] ∧ reports = []) ∨
    ∃ (init : Life) (e : Entry), l = init ++ [e] ∧ init.running = false ∧ e.counters ∈ reports ∧
      ∀ c ∈ reports, c ≤ e.counters

def Grows (l l' : Life) : Prop :=
  ∀ e ∈ l.getLast?, ∃ e' ∈ l'.getLast?, e.counters ≤ e'.counters

theorem Grows.refl (l : Life) : Grows l l := fun e he => ⟨e, he, le_refl _⟩

theorem Grows.trans {a b c : Life} (hab : Grows a b) (hbc : Grows b c) : Grows a c := by
  intro e he
  obtain ⟨e', he', hle⟩ := hab e he
  obtain ⟨e'', he'', hle'⟩ := hbc e' he'
  exact ⟨e'', he'', hle.trans hle'⟩

theorem ledger_push {init : Life} {reports : List Counters} (b : Bool) {c : Counters}
    (hinit : init.running = false) (hc : ∀ c' ∈ reports, c' ≤ c) :
    Ledger (init ++ [⟨b, c⟩]) (reports ++ [c]) := by
  refine Or.inr ⟨init, ⟨b, c⟩, rfl, hinit, by simp, ?_⟩
  intro c' hc'
  rcases List.mem_append.mp hc' with h | h
  · exact hc c' h
  · exact (List.mem_singleton.mp h).le

theorem overwrite_last {init : Life} {e : Entry} (hinit : init.running = false)
    (he : e.running = true) (b : Bool) (c : Counters) :
    Life.overwrite b c (init ++ [e]) = init ++ [⟨b, c⟩] := by
  have := Life.overwrite_of_not_running (b := b) (c := c) hinit
  simp only [Life.overwrite] at this ⊢
  simp [this, he]

theorem grows_push {l init : Life} {reports : List Counters} (b : Bool) {c : Counters}
    (hl : Ledger l reports) (hc : ∀ c' ∈ reports, c' ≤ c) : Grows l (init ++ [⟨b, c⟩]) := by
  intro e he
  refine ⟨⟨b, c⟩, by simp, ?_⟩
  rcases hl with ⟨rfl, -⟩ | ⟨init', e', rfl, -, hmem, -⟩
  · simp at he
  · have hee : e' = e := by simpa using he
    exact hc _ (hee ▸ hmem)

theorem ledger_report_of_writes {l : Life} {reports : List Counters} {s : Kind} {c : Counters}
    (hl : Ledger l reports) (hw : l.writes s = true) :
    ∃ (init : Life) (b : Bool), l.report s c = init ++ [⟨b, c⟩] ∧ init.running = false := by
  have hover : ∀ b, l.running = true ∨ l = [] →
      ∃ (init : Life) (b' : Bool),
        (if l.running then l.overwrite b c else if l = [] then [⟨b, c⟩] else l) =
          init ++ [⟨b', c⟩] ∧ init.running = false := by
    intro b h
    rcases hl with ⟨rfl, -⟩ | ⟨init, e, rfl, hinit, -⟩
    · exact ⟨[], b, rfl, rfl⟩
    · have hrun : Life.running (init ++ [e]) = true := h.resolve_right (by simp)
      have he : e.running = true := by simpa [hinit] using hrun
      exact ⟨init, b, by rw [if_pos hrun, overwrite_last hinit he], hinit⟩
  cases s with
  | start =>
    have hrun : l.running = false := by simpa [Life.writes] using hw
    exact ⟨l, true, by simp [Life.report, hrun], hrun⟩
  | interim => exact hover true (by simpa [Life.writes] using hw)
  | stop => exact hover false (by simpa [Life.writes] using hw)

theorem ledger_report {l : Life} {reports : List Counters} {s : Kind} {c : Counters}
    (hl : Ledger l reports)
    (hc : if l.writes s then ∀ c' ∈ reports, c' ≤ c else ∃ c' ∈ reports, c ≤ c') :
    Ledger (l.report s c) (reports ++ [c]) ∧ Grows l (l.report s c) := by
  split_ifs at hc with hw
  · obtain ⟨init, b, heq, hinit⟩ := ledger_report_of_writes (c := c) hl hw
    rw [heq]
    exact ⟨ledger_push b hinit hc, grows_push b hl hc⟩
  · rw [Life.report_of_not_writes (by simpa using hw)]
    refine ⟨?_, Grows.refl l⟩
    obtain ⟨c', hmem, hle⟩ := hc
    rcases hl with ⟨-, rfl⟩ | ⟨init, e, hleq, hinit, hmem', hmax⟩
    · cases hmem
    · refine Or.inr ⟨init, e, hleq, hinit, List.mem_append_left _ hmem', fun c'' hc'' => ?_⟩
      rcases List.mem_append.mp hc'' with h | h
      · exact hmax c'' h
      · exact (List.mem_singleton.mp h).le.trans (hle.trans (hmax c' hmem))

theorem ledger_of_closes {l l' : Life} {reports : List Counters} (hl : Ledger l reports)
    (h : l.Closes l') : Ledger l' reports ∧ Grows l l' := by
  rcases hl with ⟨rfl, rfl⟩ | ⟨init, e, rfl, hinit, hmem, hmax⟩
  · obtain rfl := List.forall₂_nil_left_iff.mp h
    exact ⟨Or.inl ⟨rfl, rfl⟩, Grows.refl []⟩
  · obtain ⟨init', e', rfl, hi, he⟩ := h.append_singleton
    refine ⟨Or.inr ⟨init', e', rfl, hi.running_eq_false hinit, he ▸ hmem, he ▸ hmax⟩, ?_⟩
    intro x hx
    have hxe : e = x := by simpa using hx
    exact ⟨e', by simp, by rw [← hxe, he]⟩

theorem reported_append_singleton (k : SessionKey) (ops : List Op) (op : Op) :
    reported k (ops ++ [op]) = reported k ops ++ ((op.report? k).map Prod.snd).toList := by
  simp only [reported, List.filterMap_append]
  cases h : op.report? k <;> simp [h]

theorem ledger_step {debounce : ℤ} {k : SessionKey} {pre : List Op} {op : Op}
    (hl : Ledger (life (runOps debounce .empty pre) k) (reported k pre))
    (hop : InOrder debounce k pre op) :
    Ledger (life (runOps debounce .empty (pre ++ [op])) k) (reported k (pre ++ [op])) ∧
      Grows (life (runOps debounce .empty pre) k)
        (life (runOps debounce .empty (pre ++ [op])) k) := by
  simp only [runOps, Run.run, List.foldl_append, List.foldl_cons, List.foldl_nil] at hl ⊢
  rw [reported_append_singleton]
  cases hr : op.report? k with
  | none => simpa [hr] using ledger_of_closes hl (closes_apply_of_no_report hr)
  | some r =>
    have hc := hop
    simp only [InOrder, hr, reachesRow_eq] at hc
    rw [life_apply_of_report hr]
    exact ledger_report hl hc

theorem ledger_run {debounce : ℤ} {k : SessionKey} {ops : List Op}
    (hops : ∀ pre op post, ops = pre ++ op :: post → InOrder debounce k pre op) :
    Ledger (life (runOps debounce .empty ops) k) (reported k ops) := by
  induction ops using List.reverseRecOn with
  | nil => exact Or.inl ⟨rfl, rfl⟩
  | append_singleton ops op ih =>
    refine (ledger_step (ih fun pre op' post h => ?_) (hops ops op [] rfl)).1
    exact hops pre op' (post ++ [op]) (by simp [h])

theorem grows_run {debounce : ℤ} {k : SessionKey} (pre post : List Op)
    (hops : ∀ pre' op post', pre ++ post = pre' ++ op :: post' → InOrder debounce k pre' op) :
    Grows (life (runOps debounce .empty pre) k)
      (life (runOps debounce .empty (pre ++ post)) k) := by
  induction post generalizing pre with
  | nil => simpa using Grows.refl _
  | cons op post ih =>
    have hpre : Ledger (life (runOps debounce .empty pre) k) (reported k pre) :=
      ledger_run fun pre' op' post' h => hops pre' op' (post' ++ op :: post) (by simp [h])
    have hstep := (ledger_step hpre (hops pre op post rfl)).2
    have hrest := ih (pre ++ [op]) fun pre' op' post' h => hops pre' op' post' (by simpa using h)
    simpa using hstep.trans hrest

/-- In a run whose packets of the session arrive in order, no reported traffic is lost. -/
theorem no_traffic_lost (debounce : ℤ) (k : SessionKey) (ops : List Op)
    (hops : ∀ pre op post, ops = pre ++ op :: post → InOrder debounce k pre op) :
    NoTrafficLost debounce k ops := by
  rintro pre post rfl
  have hpre : Ledger (life (runOps debounce .empty pre) k) (reported k pre) :=
    ledger_run fun pre' op post' h => hops pre' op (post' ++ post) (by simp [h])
  constructor
  · rintro ⟨op, hop, hstop⟩
    rcases hpre with ⟨-, hnil⟩ | ⟨init, e, hl, -, -, hmax⟩
    · obtain ⟨c, hr⟩ := Op.isKind_iff.mp hstop
      have hmem : c ∈ reported k pre := List.mem_filterMap.mpr ⟨op, hop, by simp [hr]⟩
      rw [hnil] at hmem
      cases hmem
    · exact ⟨e.counters, by simp [stored_eq, hl], hmax⟩
  · intro c hc
    rw [stored_eq] at hc
    obtain ⟨e, he, rfl⟩ := Option.map_eq_some_iff.mp hc
    obtain ⟨e', he', hle⟩ := grows_run pre post hops e he
    exact ⟨e'.counters, by rw [stored_eq, Option.mem_def.mp he']; rfl, hle⟩

theorem no_traffic_lost_growing :
    NoTrafficLost 60 sampleKey [sampleDelivery 0 "Start" 0, sampleDelivery 300 "Interim-Update" 40,
      sampleDelivery 600 "Stop" 90, sampleDelivery 600 "Stop" 90] :=
  no_traffic_lost 60 sampleKey _ (by
    rw [Run.forall_split_iff]
    decide)

/-- A Stop that follows the sweep is dropped together with its counters. -/
theorem stop_after_sweep_lost :
    ¬NoTrafficLost 60 sampleKey [sampleDelivery 0 "Start" 0,
      .markStale 1 (afterSeconds 0 7200) 3600, sampleDelivery 7300 "Stop" 500] := by
  intro h
  obtain ⟨c, hc, hmax⟩ := (h _ [] (List.append_nil _).symm).1 (by decide)
  have hstored : stored (runOps 60 .empty [sampleDelivery 0 "Start" 0,
      .markStale 1 (afterSeconds 0 7200) 3600, sampleDelivery 7300 "Stop" 500]) sampleKey =
      some (0, 0, 0) := by decide
  obtain rfl : (0, 0, 0) = c := Option.some.inj (hstored.symm.trans hc)
  exact absurd (hmax (500, 500, 7300) (by decide)) (by decide)

end RadiusModule.SessionLife
