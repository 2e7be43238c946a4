import Mathlib.Data.List.Induction
import RadiusModule.Library.Run
import RadiusModule.Library.Calls

/-!
# The login log behind the logins

A login leaves its row in a buffer, and calls of `flush` take the buffer and
write it in pieces. A piece that cannot be written is put back, with the ones
after it, in front of what came in since. Rows are only given up when the
buffer is full, oldest first, and what is given up is counted.
-/

namespace RadiusModule.AuthLogWriter
open Library Calls

variable {ρ : Type*}

def maxBatch : ℕ := 500
def maxBuffer : ℕ := 20000

/-- A call of `flush` between its steps: the rows it has taken and not written, and whether its last
write failed, so that it is about to put them back. -/
structure Flush (ρ : Type*) where
  rows : List ρ
  written : ℕ := 0
  failed : Bool := false

structure State (ρ : Type*) where
  buf : List ρ := []
  dropped : ℕ := 0
  warned : ℕ := 0
  table : List ρ := []
  flushes : List (Flush ρ) := []

namespace State

def record (s : State ρ) (row : ρ) : State ρ :=
  if maxBuffer ≤ s.buf.length then
    { s with buf := s.buf.tail ++ [row], dropped := s.dropped + 1 }
  else { s with buf := s.buf ++ [row] }

/-- `flush` up to its loop. What was dropped goes into the log as one warning. -/
def takeAll (s : State ρ) : State ρ :=
  { s with
    buf := []
    dropped := 0
    warned := s.warned + s.dropped
    flushes := s.flushes ++ [{ rows := s.buf }] }

/-- One round of the loop of `flush`: `_write` runs in a transaction, so a piece is in the table as
a whole or not at all. -/
def write (s : State ρ) (i : ℕ) (ok : Bool) : State ρ :=
  match s.flushes[i]? with
  | some ⟨row :: rows, written, false⟩ =>
    let chunk := (row :: rows).take maxBatch
    if ok then
      { s with
        table := s.table ++ chunk
        flushes := s.flushes.set i ⟨(row :: rows).drop maxBatch, written + chunk.length, false⟩ }
    else { s with flushes := s.flushes.set i ⟨row :: rows, written, true⟩ }
  | _ => s

/-- The way out of the loop of `flush` after a failure. -/
def putBack (s : State ρ) (i : ℕ) : State ρ :=
  match s.flushes[i]? with
  | some ⟨row :: rows, written, true⟩ =>
    let overflow := (row :: rows ++ s.buf).length - maxBuffer
    { s with
      buf := (row :: rows ++ s.buf).drop overflow
      dropped := s.dropped + overflow
      flushes := s.flushes.set i ⟨[], written, false⟩ }
  | _ => s

def inFlight (s : State ρ) : List ρ := s.flushes.flatMap Flush.rows

def lost (s : State ρ) : ℕ := s.warned + s.dropped

end State

inductive Event (ρ : Type*)
  | record (row : ρ)
  | flush
  | write (i : ℕ) (ok : Bool)
  | putBack (i : ℕ)

def step (s : State ρ) : Event ρ → State ρ
  | .record row => s.record row
  | .flush => s.takeAll
  | .write i ok => s.write i ok
  | .putBack i => s.putBack i

def recorded : List (Event ρ) → List ρ
  | [] => []
  | .record row :: es => row :: recorded es
  | _ :: es => recorded es

theorem recorded_append (es es' : List (Event ρ)) :
    recorded (es ++ es') = recorded es ++ recorded es' := by
  induction es with
  | nil => rfl
  | cons e es ih => cases e <;> simp [recorded, ih]

theorem record_cases (s : State ρ) (row : ρ) :
    (∃ oldest buf, s.buf = oldest :: buf ∧
      s.record row = { s with buf := buf ++ [row], dropped := s.dropped + 1 }) ∨
    (s.buf.length < maxBuffer ∧ s.record row = { s with buf := s.buf ++ [row] }) := by
  unfold State.record
  split_ifs with hfull
  · cases hbuf : s.buf with
    | nil =>
      rw [hbuf, List.length_nil, maxBuffer] at hfull
      omega
    | cons oldest buf => exact .inl ⟨oldest, buf, rfl, rfl⟩
  · exact .inr ⟨Nat.lt_of_not_le hfull, rfl⟩

@[simp]
theorem inFlight_takeAll (s : State ρ) : s.takeAll.inFlight = s.inFlight ++ s.buf := by
  simp [State.takeAll, State.inFlight]

theorem write_cases (s : State ρ) (i : ℕ) (ok : Bool) : s.write i ok = s ∨
    ∃ call call' chunk, s.flushes[i]? = some call ∧ call.rows ≠ [] ∧
      chunk ++ call'.rows = call.rows ∧ call'.written = call.written + chunk.length ∧
      s.write i ok = { s with table := s.table ++ chunk, flushes := s.flushes.set i call' } := by
  unfold State.write
  split
  · rename_i row rows written hcall
    cases ok with
    | true =>
      exact .inr ⟨_, ⟨(row :: rows).drop maxBatch, _, false⟩, (row :: rows).take maxBatch, hcall,
        List.cons_ne_nil _ _, List.take_append_drop _ _, rfl, rfl⟩
    | false =>
      refine .inr ⟨_, ⟨row :: rows, written, true⟩, [], hcall, List.cons_ne_nil _ _, rfl, rfl, ?_⟩
      rw [List.append_nil]
      rfl
  · exact .inl rfl

theorem putBack_cases (s : State ρ) (i : ℕ) : s.putBack i = s ∨
    ∃ call call', s.flushes[i]? = some call ∧ call.rows ≠ [] ∧ call'.rows = [] ∧
      call'.written = call.written ∧
      s.putBack i = { s with
        buf := (call.rows ++ s.buf).drop ((call.rows ++ s.buf).length - maxBuffer)
        dropped := s.dropped + ((call.rows ++ s.buf).length - maxBuffer)
        flushes := s.flushes.set i call' } := by
  unfold State.putBack
  split
  · rename_i row rows written hcall
    exact .inr ⟨_, ⟨[], written, false⟩, hcall, List.cons_ne_nil _ _, rfl, rfl, rfl⟩
  · exact .inl rfl

/-- Every recorded row is in the table, in a call, in the buffer or among the rows that were given
up, and in one of them only; what the calls return adds up to the rows of the table. -/
structure Conserved (rows : List ρ) (s : State ρ) : Prop where
  bounded : s.buf.length ≤ maxBuffer
  returned : (s.flushes.map Flush.written).sum = s.table.length
  once : ∃ gone, gone.length = s.lost ∧ (s.table ++ s.inFlight ++ s.buf ++ gone).Perm rows

variable {rows : List ρ} {s : State ρ}

theorem conserved_record (h : Conserved rows s) (row : ρ) :
    Conserved (rows ++ [row]) (s.record row) := by
  classical
  obtain ⟨gone, hgone, hperm⟩ := h.once
  rcases record_cases s row with ⟨oldest, buf, hbuf, hrecord⟩ | ⟨hroom, hrecord⟩ <;> rw [hrecord]
  · have hbounded := h.bounded
    rw [hbuf, List.length_cons] at hbounded
    refine ⟨by rw [List.length_append, List.length_singleton]; omega, h.returned, oldest :: gone,
      ?_, List.perm_iff_count.mpr fun a => ?_⟩
    · rw [List.length_cons, hgone]
      exact Nat.add_assoc _ _ _
    · have hcount := List.perm_iff_count.mp hperm a
      simp only [State.inFlight, hbuf, List.count_append, List.count_cons] at hcount ⊢
      omega
  · refine ⟨by rw [List.length_append, List.length_singleton]; omega, h.returned, gone, hgone,
      List.perm_iff_count.mpr fun a => ?_⟩
    have hcount := List.perm_iff_count.mp hperm a
    simp only [State.inFlight, List.count_append] at hcount ⊢
    omega

theorem conserved_takeAll (h : Conserved rows s) : Conserved rows s.takeAll := by
  obtain ⟨gone, hgone, hperm⟩ := h.once
  refine ⟨Nat.zero_le _, by simpa [State.takeAll] using h.returned, gone, hgone, ?_⟩
  rw [inFlight_takeAll]
  simpa [State.takeAll] using hperm

theorem conserved_write (h : Conserved rows s) (i : ℕ) (ok : Bool) :
    Conserved rows (s.write i ok) := by
  classical
  obtain ⟨gone, hgone, hperm⟩ := h.once
  rcases write_cases s i ok with hsame | ⟨call, call', chunk, hcall, -, hrows, hwritten, hwrite⟩
  · rwa [hsame]
  · rw [hwrite]
    refine ⟨h.bounded, ?_, gone, hgone, List.perm_iff_count.mpr fun a => ?_⟩
    · rw [sum_map_set hcall Flush.written hwritten, h.returned, List.length_append]
    have hmoved := List.perm_iff_count.mp (flatMap_set_perm hcall Flush.rows
      (List.perm_append_comm.trans (List.Perm.of_eq hrows))) a
    have hcount := List.perm_iff_count.mp hperm a
    simp only [State.inFlight, List.count_append] at hmoved hcount ⊢
    omega

theorem conserved_putBack (h : Conserved rows s) (i : ℕ) : Conserved rows (s.putBack i) := by
  classical
  obtain ⟨gone, hgone, hperm⟩ := h.once
  rcases putBack_cases s i with hsame | ⟨call, call', hcall, -, hempty, hwritten, hback⟩
  · rwa [hsame]
  · rw [hback]
    set overflow := (call.rows ++ s.buf).length - maxBuffer with hoverflow
    refine ⟨by rw [List.length_drop]; omega, ?_, (call.rows ++ s.buf).take overflow ++ gone, ?_,
      List.perm_iff_count.mpr fun a => ?_⟩
    · rw [sum_map_set hcall Flush.written (n := 0) hwritten, h.returned, Nat.add_zero]
    · rw [List.length_append, List.length_take, hgone, Nat.min_eq_left (Nat.sub_le _ _),
        Nat.add_comm]
      exact Nat.add_assoc _ _ _
    · have hrows : (call'.rows ++ call.rows).Perm call.rows := by rw [hempty, List.nil_append]
      have hmoved := List.perm_iff_count.mp (flatMap_set_perm hcall Flush.rows hrows) a
      have hcount := List.perm_iff_count.mp hperm a
      have hsplit := congrArg (List.count a) (List.take_append_drop overflow (call.rows ++ s.buf))
      simp only [State.inFlight, List.count_append] at hmoved hcount hsplit ⊢
      omega

theorem conserved_step (h : Conserved rows s) (e : Event ρ) :
    Conserved (rows ++ recorded [e]) (step s e) := by
  cases e with
  | record row => exact conserved_record h row
  | flush => simpa only [recorded, List.append_nil, step] using conserved_takeAll h
  | write i ok => simpa only [recorded, List.append_nil, step] using conserved_write h i ok
  | putBack i => simpa only [recorded, List.append_nil, step] using conserved_putBack h i

theorem conserved_run (events : List (Event ρ)) :
    Conserved (recorded events) (Run.run step ({} : State ρ) events) := by
  induction events using List.reverseRecOn with
  | nil => exact ⟨Nat.zero_le _, rfl, [], rfl, .nil⟩
  | append_singleton events e ih =>
    rw [recorded_append, Run.run, List.foldl_append]
    exact conserved_step ih e

/-- However the calls go and whichever of their writes fail, no row is lost but the counted ones,
and none is written twice; what the calls return adds up to what is in the table. -/
theorem authlog_conserved (events : List (Event ρ)) :
    let s := Run.run step ({} : State ρ) events
    s.buf.length ≤ maxBuffer ∧ (s.flushes.map Flush.written).sum = s.table.length ∧
      ∃ gone, gone.length = s.lost ∧
        (s.table ++ s.inFlight ++ s.buf ++ gone).Perm (recorded events) := by
  intro s
  have hall := conserved_run events
  exact ⟨hall.bounded, hall.returned, hall.once⟩

/-- A call of `flush` begins when no other one holds rows, as in the loop of the writer's thread. -/
def Serial (s : State ρ) : Event ρ → Prop
  | .flush => s.inFlight = []
  | _ => True

structure Ordered (rows : List ρ) (s : State ρ) : Prop where
  alone : Alone Flush.rows s.flushes
  order : (s.table ++ s.inFlight ++ s.buf).Sublist rows

theorem ordered_record (h : Ordered rows s) (row : ρ) :
    Ordered (rows ++ [row]) (s.record row) := by
  rcases record_cases s row with ⟨oldest, buf, hbuf, hrecord⟩ | ⟨-, hrecord⟩ <;> rw [hrecord] <;>
    refine ⟨h.alone, ?_⟩ <;> rw [← List.append_assoc]
  · have hkept : buf.Sublist s.buf := hbuf ▸ List.sublist_cons_self oldest buf
    exact ((hkept.append_left _).trans h.order).append_right [row]
  · exact h.order.append_right [row]

theorem ordered_takeAll (h : Ordered rows s) (hserial : s.inFlight = []) :
    Ordered rows s.takeAll := by
  refine ⟨Alone.append hserial _, ?_⟩
  rw [inFlight_takeAll, ← List.append_assoc]
  exact (List.append_nil _).symm ▸ h.order

theorem ordered_write (h : Ordered rows s) (i : ℕ) (ok : Bool) : Ordered rows (s.write i ok) := by
  rcases write_cases s i ok with hsame | ⟨call, call', chunk, hcall, hheld, hrows, -, hwrite⟩
  · rwa [hsame]
  · obtain ⟨before, after, hcalls, -, hset⟩ := exists_split hcall
    have halone := hcalls ▸ h.alone
    have hflight := halone.flatMap_eq hheld
    have horder := h.order
    rw [State.inFlight, hcalls, hflight, ← hrows, ← List.append_assoc] at horder
    rw [hwrite, hset]
    refine ⟨halone.replace hheld, ?_⟩
    rw [State.inFlight, hflight]
    exact horder

theorem ordered_putBack (h : Ordered rows s) (i : ℕ) : Ordered rows (s.putBack i) := by
  rcases putBack_cases s i with hsame | ⟨call, call', hcall, hheld, hempty, -, hback⟩
  · rwa [hsame]
  · obtain ⟨before, after, hcalls, -, hset⟩ := exists_split hcall
    have halone := hcalls ▸ h.alone
    have hflight := halone.flatMap_eq hheld
    have horder := h.order
    rw [State.inFlight, hcalls, hflight, List.append_assoc] at horder
    rw [hback, hset]
    refine ⟨halone.replace hheld, ?_⟩
    rw [State.inFlight, hflight, hempty, List.append_nil]
    dsimp only
    have hkept := List.drop_sublist ((call.rows ++ s.buf).length - maxBuffer) (call.rows ++ s.buf)
    exact (hkept.append_left s.table).trans horder

theorem ordered_step (h : Ordered rows s) (e : Event ρ) (hserial : Serial s e) :
    Ordered (rows ++ recorded [e]) (step s e) := by
  cases e with
  | record row => exact ordered_record h row
  | flush => simpa only [recorded, List.append_nil, step] using ordered_takeAll h hserial
  | write i ok => simpa only [recorded, List.append_nil, step] using ordered_write h i ok
  | putBack i => simpa only [recorded, List.append_nil, step] using ordered_putBack h i

theorem ordered_run {events : List (Event ρ)} (hserial : Run.Along Serial step {} events) :
    Ordered (recorded events) (Run.run step ({} : State ρ) events) := by
  induction events using List.reverseRecOn with
  | nil => exact ⟨.nil, .slnil⟩
  | append_singleton events e ih =>
    obtain ⟨hbefore, hlast, -⟩ := Run.along_append.mp hserial
    rw [recorded_append, Run.run, List.foldl_append]
    exact ordered_step (ih hbefore) e hlast

/-- With one call at a time the table, the rows on their way and the buffer follow the order of the
logins, and as long as no row was given up they are all of the logins. -/
theorem authlog_in_order (events : List (Event ρ)) (hserial : Run.Along Serial step {} events) :
    let s := Run.run step ({} : State ρ) events
    (s.table ++ s.inFlight ++ s.buf).Sublist (recorded events) ∧
      (s.lost = 0 → s.table ++ s.inFlight ++ s.buf = recorded events) := by
  intro s
  have horder := (ordered_run hserial).order
  refine ⟨horder, fun hnone => horder.eq_of_length ?_⟩
  obtain ⟨gone, hgone, hperm⟩ := (conserved_run events).once
  have hgone : gone = [] := List.length_eq_zero_iff.mp (hgone.trans hnone)
  rw [hgone, List.append_nil] at hperm
  exact hperm.length_eq

def retried : List (Event ℕ) :=
  [.record 1, .record 2, .flush, .write 0 false, .record 3, .putBack 0, .flush, .write 1 true]

theorem authlog_in_order_retried :
    let s := Run.run step ({} : State ℕ) retried
    s.table = [1, 2, 3] ∧ s.table ++ s.inFlight ++ s.buf = recorded retried :=
  ⟨rfl, (authlog_in_order retried
    ⟨trivial, trivial, rfl, trivial, trivial, trivial, rfl, trivial, trivial⟩).2 rfl⟩

end RadiusModule.AuthLogWriter
