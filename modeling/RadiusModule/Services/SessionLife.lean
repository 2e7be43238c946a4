import RadiusModule.Library.Run
import RadiusModule.Services.AccountingEvents

/-!
# The life of one session

The rows of one session, in the order of their ids, are a list of entries: is
the row running, and which counters does it hold. A packet of the session acts
on this list alone; every other operation on `radacct` can only close entries
and leaves their counters.
-/

namespace RadiusModule.SessionLife
open Library AccountingEvents

structure Entry where
  running : Bool
  counters : Counters
deriving DecidableEq, Repr

abbrev Life := List Entry

inductive Kind
  | start
  | interim
  | stop
deriving DecidableEq, Repr

namespace Life

def running (l : Life) : Bool := l.any (·.running)

def overwrite (running : Bool) (c : Counters) (l : Life) : Life :=
  l.map fun e => if e.running then ⟨running, c⟩ else e

def report (k : Kind) (c : Counters) (l : Life) : Life :=
  match k with
  | .start => if l.running then l else l ++ [⟨true, c⟩]
  | .interim => if l.running then l.overwrite true c else if l = [] then [⟨true, c⟩] else l
  | .stop => if l.running then l.overwrite false c else if l = [] then [⟨false, c⟩] else l

@[simp] theorem running_append (l l' : Life) : running (l ++ l') = (running l || running l') :=
  List.any_append

@[simp] theorem running_singleton (e : Entry) : running [e] = e.running := by simp [running]

def Closes (l l' : Life) : Prop :=
  List.Forall₂ (fun a b : Entry => b.counters = a.counters ∧ (b.running = true → a.running = true))
    l l'

theorem Closes.refl (l : Life) : Closes l l := by
  induction l with
  | nil => exact .nil
  | cons e l ih => exact .cons ⟨rfl, id⟩ ih

theorem Closes.running_eq_false {l l' : Life} (h : Closes l l') (hl : l.running = false) :
    l'.running = false := by
  induction h with
  | nil => rfl
  | cons hab _ ih =>
    simp only [running, List.any_cons, Bool.or_eq_false_iff] at ih hl ⊢
    exact ⟨Bool.eq_false_iff.mpr fun hb => Bool.eq_false_iff.mp hl.1 (hab.2 hb), ih hl.2⟩

theorem Closes.append_singleton {l l' : Life} {e : Entry} (h : Closes (l ++ [e]) l') :
    ∃ m e', l' = m ++ [e'] ∧ Closes l m ∧ e'.counters = e.counters := by
  induction l generalizing l' with
  | nil =>
    obtain ⟨e', rest, he, hrest, rfl⟩ := List.forall₂_cons_left_iff.mp h
    obtain rfl := List.forall₂_nil_left_iff.mp hrest
    exact ⟨[], e', rfl, .nil, he.1⟩
  | cons a l ih =>
    obtain ⟨a', rest, ha, hrest, rfl⟩ := List.forall₂_cons_left_iff.mp h
    obtain ⟨m, e', rfl, hm, he⟩ := ih hrest
    exact ⟨a' :: m, e', rfl, .cons ha hm, he⟩

def writes (k : Kind) (l : Life) : Bool :=
  match k with
  | .start => !l.running
  | .interim | .stop => l.running || l = []

theorem report_of_not_writes {k : Kind} {c : Counters} {l : Life} (h : writes k l = false) :
    report k c l = l := by
  cases k with
  | start => simp_all [writes, report]
  | interim => simp_all [writes, report]
  | stop => simp_all [writes, report]

theorem overwrite_of_not_running {b : Bool} {c : Counters} {l : Life} (h : l.running = false) :
    l.overwrite b c = l := by
  refine (List.map_congr_left fun e he => ?_).trans (List.map_id _)
  have hr : e.running = false := by simpa using List.any_eq_false.mp h e he
  simp [hr]

end Life

def kind? : StatusType → Option Kind
  | .start => some .start
  | .interimUpdate => some .interim
  | .stop => some .stop
  | .accountingOn | .accountingOff => none

def entry (r : Radacct) : Entry := ⟨r.running, r.counters⟩

@[simp] theorem entry_row (e : Event) (n : ℕ) (started updated : ℤ) :
    entry (e.row n started updated) = ⟨true, e.counters⟩ := rfl

@[simp] theorem entry_missingStartRow (e : Event) (now : ℤ) (closed : Bool) (n : ℕ) :
    entry (missingStartRow e now closed n) = ⟨!closed, e.counters⟩ := by
  cases closed <;> rfl

theorem entry_interimRow (e : Event) (now : ℤ) {r : Radacct} (h : r.running = true) :
    entry (interimRow e now r) = ⟨true, e.counters⟩ := by
  simpa [entry, interimRow, Radacct.running, Radacct.counters, Event.counters] using h

@[simp] theorem entry_stopRow (e : Event) (now : ℤ) (r : Radacct) :
    entry (stopRow e now r) = ⟨false, e.counters⟩ := rfl

def life (t : RadacctTable) (k : SessionKey) : Life := (t.select (ofKey k)).map entry

theorem running_life (t : RadacctTable) (k : SessionKey) :
    (life t k).running = decide (t.count (openOfKey k) ≠ 0) := by
  rw [Bool.eq_iff_iff]
  simp [Life.running, life, Table.mem_select, Table.count, List.eq_nil_iff_forall_not_mem, entry,
    openOfKey, and_assoc]

theorem life_eq_nil (t : RadacctTable) (k : SessionKey) :
    life t k = [] ↔ lastSessionRow t k = none := by
  simp [life, lastSessionRow, Table.last?]

theorem openSession_eq_none (t : RadacctTable) (k : SessionKey) :
    openSession t k = none ↔ (life t k).running = false := by
  simp [running_life, openSession, Table.last?, Table.count]

def stored (t : RadacctTable) (k : SessionKey) : Option Counters :=
  (lastSessionRow t k).map Radacct.counters

theorem stored_eq (t : RadacctTable) (k : SessionKey) :
    stored t k = (life t k).getLast?.map Entry.counters := by
  simp only [stored, lastSessionRow, Table.last?, life, List.getLast?_map, Option.map_map]
  rfl

theorem life_insert (t : RadacctTable) (mk : ℕ → Radacct) (hmk) (k : SessionKey) :
    life (t.insert mk hmk) k =
      life t k ++ if ofKey k (mk t.next) then [entry (mk t.next)] else [] := by
  simp only [life, Table.select_insert, List.map_append]
  split_ifs <;> rfl

theorem life_update_self (t : RadacctTable) (k : SessionKey) (f : Radacct → Radacct) (hf)
    (b : Bool) (c : Counters) (hkey : ∀ r, (f r).key = r.key)
    (hentry : ∀ r, r.running = true → entry (f r) = ⟨b, c⟩) :
    life (t.update (openOfKey k) f hf) k = (life t k).overwrite b c := by
  rw [life, Table.select_update _ _ _ _ _ fun r => by simp [ofKey, hkey]]
  simp only [life, Life.overwrite, List.map_map]
  refine List.map_congr_left fun r hr => ?_
  have hk : ofKey k r = true := (Table.mem_select.mp hr).2
  by_cases hrun : r.running = true
  · simp [openOfKey, hk, hrun, entry, ← hentry r hrun]
  · simp [openOfKey, hk, hrun, entry]

theorem life_update_of_ne (t : RadacctTable) {k k' : SessionKey} (h : k ≠ k')
    (f : Radacct → Radacct) (hf) (hkey : ∀ r, (f r).key = r.key) :
    life (t.update (openOfKey k) f hf) k' = life t k' := by
  rw [life, Table.select_update_of_disjoint, life]
  · intro r
    simp [ofKey, hkey]
  · intro r hr
    have hr' : r.key = k' := by simpa [ofKey] using hr
    simp [openOfKey, ofKey, hr', h.symm]

theorem life_update_closes (t : RadacctTable) (p : Radacct → Bool) (f : Radacct → Radacct) (hf)
    (hkey : ∀ r, (f r).key = r.key) (hc : ∀ r, (f r).counters = r.counters)
    (hrun : ∀ r, p r = true → (f r).running = true → r.running = true) (k : SessionKey) :
    Life.Closes (life t k) (life (t.update p f hf) k) := by
  rw [life, life, Table.select_update _ _ _ _ _ fun r => by simp [ofKey, hkey]]
  rw [List.map_map]
  refine List.forall₂_map_left_iff.mpr (List.forall₂_map_right_iff.mpr ?_)
  refine List.forall₂_same.mpr fun r _ => ?_
  by_cases hp : p r = true
  · simpa [hp, entry, hc] using hrun r hp
  · simp [hp, entry]

theorem life_start (t : RadacctTable) (now : ℤ) (e : Event) :
    life (start t now e).1 e.key = Life.report .start e.counters (life t e.key) := by
  cases ho : openSession t e.key with
  | some r =>
    have hrun : (life t e.key).running = true := by
      by_contra hn
      rw [(openSession_eq_none t e.key).mpr (by simpa using hn)] at ho
      cases ho
    simp [start, ho, Life.report, hrun]
  | none =>
    have hrun := (openSession_eq_none t e.key).mp ho
    simp [start, ho, Life.report, hrun, life_insert, ofKey]

theorem life_start_of_ne (t : RadacctTable) (now : ℤ) (e : Event) {k : SessionKey}
    (h : e.key ≠ k) : life (start t now e).1 k = life t k := by
  cases ho : openSession t e.key with
  | some r => simp [start, ho]
  | none => simp [start, ho, life_insert, ofKey, h]

theorem life_insertMissingStart (t : RadacctTable) (now : ℤ) (e : Event) (closed : Bool) :
    life (insertMissingStart t now e closed).1 e.key = life t e.key ++ [⟨!closed, e.counters⟩] := by
  simp [insertMissingStart, life_insert, ofKey]

theorem life_insertMissingStart_of_ne (t : RadacctTable) (now : ℤ) (e : Event) (closed : Bool)
    {k : SessionKey} (h : e.key ≠ k) :
    life (insertMissingStart t now e closed).1 k = life t k := by
  simp [insertMissingStart, life_insert, ofKey, h]

theorem life_overwriteOpen (t : RadacctTable) (now : ℤ) (e : Event) (closed : Bool)
    (f : Radacct → Radacct) (hf) (reply : RadacctTable → Reply) (hkey : ∀ r, (f r).key = r.key)
    (hentry : ∀ r, r.running = true → entry (f r) = ⟨!closed, e.counters⟩) :
    life (overwriteOpen t now e closed f hf reply).1 e.key =
      if (life t e.key).running then (life t e.key).overwrite (!closed) e.counters
      else if life t e.key = [] then [⟨!closed, e.counters⟩] else life t e.key := by
  have hu := life_update_self t e.key f hf (!closed) e.counters hkey hentry
  by_cases hc : t.count (openOfKey e.key) = 0
  · have hrun : (life t e.key).running = false := by simp [running_life, hc]
    rw [Life.overwrite_of_not_running hrun] at hu
    simp only [overwriteOpen, hc, if_true]
    cases hl : lastSessionRow (t.update (openOfKey e.key) f hf) e.key with
    | some prior =>
      have hne : life t e.key ≠ [] := by simp [← hu, life_eq_nil, hl]
      simp [hrun, hne, hu]
    | none =>
      have hnil : life t e.key = [] := by rw [← hu, life_eq_nil, hl]
      simp [life_insertMissingStart, hu, hnil, Life.running]
  · have hrun : (life t e.key).running = true := by simp [running_life, hc]
    simp [overwriteOpen, hc, hrun, hu]

theorem life_overwriteOpen_of_ne (t : RadacctTable) (now : ℤ) (e : Event) (closed : Bool)
    (f : Radacct → Radacct) (hf) (reply : RadacctTable → Reply) (hkey : ∀ r, (f r).key = r.key)
    {k : SessionKey} (h : e.key ≠ k) :
    life (overwriteOpen t now e closed f hf reply).1 k = life t k := by
  have hu := life_update_of_ne t h f hf hkey
  simp only [overwriteOpen]
  split_ifs
  · split
    · exact hu
    · rw [life_insertMissingStart_of_ne _ _ _ _ h, hu]
  · exact hu

theorem life_interim (t : RadacctTable) (now : ℤ) (e : Event) :
    life (interim t now e).1 e.key = Life.report .interim e.counters (life t e.key) :=
  life_overwriteOpen t now e false _ _ _ (interimRow_key e now) fun _ => entry_interimRow e now

theorem life_stop (t : RadacctTable) (now : ℤ) (e : Event) :
    life (stop t now e).1 e.key = Life.report .stop e.counters (life t e.key) :=
  life_overwriteOpen t now e true _ _ _ (stopRow_key e now) fun r _ => entry_stopRow e now r

theorem closes_accountingOnOff (debounce : ℤ) (t : RadacctTable) (now : ℤ) (e : Event)
    (k : SessionKey) : (life t k).Closes (life (accountingOnOff debounce t now e).1 k) := by
  have hrun : ∀ p : Radacct → Bool, ∀ r, p r = true → (resetRow e now r).running = true →
      r.running = true := fun _ r _ hr => by simp [resetRow, Radacct.running] at hr
  simp only [accountingOnOff]
  split_ifs
  · exact life_update_closes t _ _ (resetRow_id e now) (resetRow_key e now) (fun _ => rfl)
      (hrun _) k
  · exact life_update_closes t _ _ (resetRow_id e now) (resetRow_key e now) (fun _ => rfl)
      (hrun _) k

theorem closes_markStale (t : RadacctTable) (tenantId now olderThanSeconds : ℤ) (k : SessionKey) :
    (life t k).Closes (life (markStale t tenantId now olderThanSeconds).1 k) := by
  refine life_update_closes t _ _ (staleRow_id now) (staleRow_key now) (fun _ => rfl)
    (fun r _ hr => ?_) k
  simp [staleRow, Radacct.running, Stamp.isNull_coalesce] at hr

/-- What can happen to `radacct`: a packet arrives at some instant, or the sweep runs. -/
inductive Op
  | deliver (tenantId now : ℤ) (payload : Payload)
  | markStale (tenantId now olderThanSeconds : ℤ)

def Op.apply (debounce : ℤ) (t : RadacctTable) : Op → RadacctTable
  | .deliver tenantId now payload =>
    match ingest debounce t tenantId now payload with
    | .ok (t', _) => t'
    | .error _ => t
  | .markStale tenantId now older => (AccountingEvents.markStale t tenantId now older).1

/-- The packet of session `k` that an operation delivers, with its counters. -/
def Op.report? (k : SessionKey) : Op → Option (Kind × Counters)
  | .deliver tenantId _ payload =>
    match normalize tenantId payload with
    | .ok e => if e.key = k then (kind? e.statusType).map fun s => (s, e.counters) else none
    | .error _ => none
  | .markStale .. => none

def Op.isKind (k : SessionKey) (s : Kind) (op : Op) : Bool := (op.report? k).any fun r => r.1 = s

theorem Op.isKind_iff {k : SessionKey} {s : Kind} {op : Op} :
    op.isKind k s = true ↔ ∃ c, op.report? k = some (s, c) := by
  cases h : op.report? k with
  | none => simp [isKind, h]
  | some r => simp [isKind, h, Prod.ext_iff]

/-- What an operation does to the life of session `k` when it delivers a packet of it. -/
def Life.after (k : SessionKey) (l : Life) (op : Op) : Life :=
  match op.report? k with
  | some (s, c) => l.report s c
  | none => l

theorem life_apply_of_report {debounce : ℤ} {t : RadacctTable} {k : SessionKey} {op : Op}
    {s : Kind} {c : Counters} (h : op.report? k = some (s, c)) :
    life (op.apply debounce t) k = (life t k).report s c := by
  cases op with
  | markStale => cases h
  | deliver tenantId now payload =>
    simp only [Op.report?] at h
    simp only [Op.apply, ingest]
    cases hn : normalize tenantId payload with
    | error => simp [hn] at h
    | ok e =>
      simp only [hn] at h
      split_ifs at h with hk
      subst hk
      simp only [Except.map, ingestEvent]
      cases hs : e.statusType <;> simp only [kind?, hs, Option.map_some, Option.map_none,
        Option.some.injEq, Prod.mk.injEq, reduceCtorEq] at h
      · rw [← h.1, ← h.2, life_start]
      · rw [← h.1, ← h.2, life_interim]
      · rw [← h.1, ← h.2, life_stop]

theorem closes_apply_of_no_report {debounce : ℤ} {t : RadacctTable} {k : SessionKey} {op : Op}
    (h : op.report? k = none) : (life t k).Closes (life (op.apply debounce t) k) := by
  cases op with
  | markStale tenantId now older => exact closes_markStale t tenantId now older k
  | deliver tenantId now payload =>
    simp only [Op.report?] at h
    simp only [Op.apply, ingest]
    cases hn : normalize tenantId payload with
    | error => exact Life.Closes.refl _
    | ok e =>
      simp only [hn] at h
      simp only [Except.map, ingestEvent]
      cases hs : e.statusType with
      | start =>
        have hk : e.key ≠ k := by simpa [kind?, hs] using h
        simpa [life_start_of_ne t now e hk] using Life.Closes.refl (life t k)
      | interimUpdate =>
        have hk : e.key ≠ k := by simpa [kind?, hs] using h
        simpa [interim, life_overwriteOpen_of_ne t now e false _ _ _ (interimRow_key e now) hk]
          using Life.Closes.refl (life t k)
      | stop =>
        have hk : e.key ≠ k := by simpa [kind?, hs] using h
        simpa [stop, life_overwriteOpen_of_ne t now e true _ _ _ (stopRow_key e now) hk]
          using Life.Closes.refl (life t k)
      | accountingOn => exact closes_accountingOnOff debounce t now e k
      | accountingOff => exact closes_accountingOnOff debounce t now e k

end RadiusModule.SessionLife
