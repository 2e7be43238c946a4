import Mathlib.Algebra.Order.Floor.Ring
import Mathlib.Algebra.Order.Ring.Rat
import Mathlib.Data.List.Sort
import Mathlib.Data.Rat.Floor
import Mathlib.Order.Nat
import RadiusModule.Library.Expiring
import RadiusModule.Library.PyText
import RadiusModule.Library.Run

/-!
# State shared by the processes of an install

Leases on operations and keyed values with an expiry. They live in two tables of
the database; where these are missing each process keeps its own in memory. A
lease is taken by a token and freed by the same token, whoever holds it then.
-/

namespace RadiusModule.SharedState
open Library Expiring

variable {τ ν : Type*}

structure KvKey where
  ns : String
  key : String
deriving DecidableEq

/-- The tables `op_locks` and `shared_kv`, or the dictionaries that stand in for them. -/
structure Store (τ ν : Type*) where
  locks : Rows String String τ
  kv : Rows KvKey ν τ

inductive KvCall (τ ν : Type*)
  | put (ns key : String) (value : ν) (ttl : τ)
  | putIfAbsent (ns key : String) (value : ν) (ttl : τ)
  | get (ns key : String)
  | pop (ns key : String)
  | delete (ns key : String)
  | prune

inductive Call (τ ν : Type*)
  | tryLock (name token : String) (ttl : τ)
  | unlock (name token : String)
  | kv (call : KvCall τ ν)

inductive Reply (ν : Type*)
  | token (t : Option String)
  | stored (b : Bool)
  | value (v : Option ν)
  | done

section branches
variable [LinearOrder τ] [Add τ]

def Store.execDb (s : Store τ ν) (now : τ) : Call τ ν → Reply ν × Store τ ν
  | .tryLock name token ttl =>
    let r := s.locks.take name token now (now + ttl)
    (.token (if r.1 then some token else none), { s with locks := r.2 })
  | .unlock name token => (.done, { s with locks := s.locks.giveBack name token })
  | .kv (.put ns key value ttl) => (.done, { s with kv := s.kv.put ⟨ns, key⟩ value (now + ttl) })
  | .kv (.putIfAbsent ns key value ttl) =>
    let r := s.kv.take ⟨ns, key⟩ value now (now + ttl)
    (.stored r.1, { s with kv := r.2 })
  | .kv (.get ns key) => (.value (s.kv.get ⟨ns, key⟩ now), s)
  | .kv (.pop ns key) =>
    let r := s.kv.pop ⟨ns, key⟩ now
    (.value r.1, { s with kv := r.2 })
  | .kv (.delete ns key) => (.done, { s with kv := s.kv.delete ⟨ns, key⟩ })
  | .kv .prune => (.done, { locks := s.locks.prune now, kv := s.kv.prune now })

def Store.execMemory (s : Store τ ν) (now : τ) : Call τ ν → Reply ν × Store τ ν
  | .tryLock name token ttl =>
    match s.locks name with
    | some (_, expires) =>
      if now ≤ expires then (.token none, s)
      else (.token (some token), { s with locks := s.locks.put name token (now + ttl) })
    | none => (.token (some token), { s with locks := s.locks.put name token (now + ttl) })
  | .unlock name token =>
    match s.locks name with
    | some (holder, _) =>
      (.done, if holder = token then { s with locks := s.locks.delete name } else s)
    | none => (.done, s)
  | .kv (.put ns key value ttl) => (.done, { s with kv := s.kv.put ⟨ns, key⟩ value (now + ttl) })
  | .kv (.putIfAbsent ns key value ttl) =>
    match s.kv ⟨ns, key⟩ with
    | some (_, expires) =>
      if now ≤ expires then (.stored false, s)
      else (.stored true, { s with kv := s.kv.put ⟨ns, key⟩ value (now + ttl) })
    | none => (.stored true, { s with kv := s.kv.put ⟨ns, key⟩ value (now + ttl) })
  | .kv (.get ns key) =>
    match s.kv ⟨ns, key⟩ with
    | some (value, expires) => (.value (if now ≤ expires then some value else none), s)
    | none => (.value none, s)
  | .kv (.pop ns key) =>
    match s.kv ⟨ns, key⟩ with
    | some (value, expires) =>
      (.value (if now ≤ expires then some value else none), { s with kv := s.kv.delete ⟨ns, key⟩ })
    | none => (.value none, { s with kv := s.kv.delete ⟨ns, key⟩ })
  | .kv (.delete ns key) => (.done, { s with kv := s.kv.delete ⟨ns, key⟩ })
  | .kv .prune => (.done, s)

theorem execMemory_eq (s : Store τ ν) (now : τ) {call : Call τ ν} (hcall : call ≠ .kv .prune) :
    s.execMemory now call = s.execDb now call := by
  cases call with
  | tryLock name token ttl =>
    rw [Store.execDb, Rows.take_eq, Store.execMemory]
    cases hrow : s.locks name with
    | none => rw [Rows.get_of_none hrow]; rfl
    | some row =>
      rw [Rows.get_of_some hrow]
      by_cases hcount : now ≤ row.2 <;> simp [hcount]
  | unlock name token =>
    rw [Store.execDb, Rows.giveBack, Store.execMemory]
    cases s.locks name with
    | none => rfl
    | some row => by_cases howner : row.1 = token <;> simp [howner]
  | kv call =>
    cases call with
    | put => rfl
    | putIfAbsent ns key value ttl =>
      rw [Store.execDb, Rows.take_eq, Store.execMemory]
      cases hrow : s.kv ⟨ns, key⟩ with
      | none => rw [Rows.get_of_none hrow]; rfl
      | some row =>
        rw [Rows.get_of_some hrow]
        by_cases hcount : now ≤ row.2 <;> simp [hcount]
    | get ns key =>
      rw [Store.execDb, Store.execMemory]
      cases hrow : s.kv ⟨ns, key⟩ with
      | none => rw [Rows.get_of_none hrow]
      | some row => rw [Rows.get_of_some hrow]
    | pop ns key =>
      rw [Store.execDb, Rows.pop, Store.execMemory]
      cases hrow : s.kv ⟨ns, key⟩ with
      | none => rw [Rows.get_of_none hrow]
      | some row => rw [Rows.get_of_some hrow]
    | delete => rfl
    | prune => exact absurd rfl hcall

end branches

structure Thread where
  process : ℕ
  id : ℕ
deriving DecidableEq

structure OpLock (τ : Type*) where
  id : ℕ
  name : String
  ttl : τ
deriving DecidableEq

/-- What a thread does. `fresh` is the token it draws, should it need one. -/
inductive Op (τ ν : Type*)
  | tryLock (name : String) (ttl : τ) (holder : Option String) (fresh : String)
  | unlock (name token : String)
  | enter (name : String) (ttl : τ) (fresh : String)
  | leave
  | acquire (lock : OpLock τ) (fresh : String)
  | release (lock : OpLock τ)
  | kv (call : KvCall τ ν)

structure Step (τ ν : Type*) where
  thread : Thread
  now : τ
  time : τ
  op : Op τ ν

structure System (τ ν : Type*) where
  /-- Whether the tables are there. -/
  tables : Bool
  /-- The database, and the memory of each process. -/
  stores : Option ℕ → Store τ ν
  /-- `self._local.token` -/
  tokens : Thread → OpLock τ → Option String
  /-- The `with op_lock(..)` blocks a thread is in, the innermost first. -/
  blocks : Thread → List (String × String)

namespace System

def place (s : System τ ν) (t : Thread) : Option ℕ := if s.tables then none else some t.process

def call? (s : System τ ν) (t : Thread) : Op τ ν → Option (Call τ ν)
  | .tryLock name ttl holder fresh =>
    some (.tryLock name ((holder.filter (· ≠ "")).getD fresh) ttl)
  | .unlock name token => some (.unlock name token)
  | .enter name ttl fresh => some (.tryLock name fresh ttl)
  | .leave => (s.blocks t).head?.map fun block => .unlock block.1 block.2
  | .acquire lock fresh => some (.tryLock lock.name fresh lock.ttl)
  | .release lock => ((s.tokens t lock).filter (· ≠ "")).map fun token => .unlock lock.name token
  | .kv call => some (.kv call)

def note [DecidableEq τ] (s : System τ ν) (t : Thread) : Op τ ν → Reply ν → System τ ν
  | .enter name _ _, .token (some token) =>
    { s with blocks := Function.update s.blocks t ((name, token) :: s.blocks t) }
  | .leave, _ => { s with blocks := Function.update s.blocks t (s.blocks t).tail }
  | .acquire lock _, .token (some token) =>
    { s with tokens := Function.update s.tokens t (Function.update (s.tokens t) lock (some token)) }
  | .release lock, _ =>
    { s with tokens := Function.update s.tokens t (Function.update (s.tokens t) lock none) }
  | _, _ => s

variable [LinearOrder τ] [Add τ]

def exec (s : System τ ν) (t : Thread) (now : τ) (call : Call τ ν) : Reply ν × Store τ ν :=
  if s.tables then (s.stores (s.place t)).execDb now call
  else (s.stores (s.place t)).execMemory now call

def step (s : System τ ν) (e : Step τ ν) : System τ ν :=
  match s.call? e.thread e.op with
  | none => s.note e.thread e.op .done
  | some call =>
    let r := s.exec e.thread e.now call
    { s with stores := Function.update s.stores (s.place e.thread) r.2 }.note e.thread e.op r.1

end System

structure World (τ ν : Type*) where
  system : System τ ν
  leases : Option ℕ → List (Lease String String τ)
  stored : Option ℕ → List (KvKey × ν)
  handed : Option ℕ → List (KvKey × ν)

namespace World

def init (tables : Bool) : World τ ν where
  system := ⟨tables, fun _ => ⟨fun _ => none, fun _ => none⟩, fun _ _ => none, fun _ => []⟩
  leases _ := []
  stored _ := []
  handed _ := []

def leasesAfter [Add τ] (leases : List (Lease String String τ)) (now : τ) :
    Call τ ν → Reply ν → List (Lease String String τ)
  | .tryLock name _ ttl, .token (some token) => leases ++ [⟨name, token, now + ttl⟩]
  | .unlock name token, _ => leases.filter fun l => ¬(l.key = name ∧ l.owner = token)
  | _, _ => leases

def storedAfter (stored : List (KvKey × ν)) :
    Call τ ν → Reply ν → List (KvKey × ν)
  | .kv (.put ns key value _), _ => stored ++ [(⟨ns, key⟩, value)]
  | .kv (.putIfAbsent ns key value _), .stored true => stored ++ [(⟨ns, key⟩, value)]
  | _, _ => stored

def handedAfter (handed : List (KvKey × ν)) :
    Call τ ν → Reply ν → List (KvKey × ν)
  | .kv (.pop ns key), .value (some value) => handed ++ [(⟨ns, key⟩, value)]
  | _, _ => handed

variable [LinearOrder τ] [Add τ]

def step (w : World τ ν) (e : Step τ ν) : World τ ν :=
  match w.system.call? e.thread e.op with
  | none => { w with system := w.system.step e }
  | some call =>
    let p := w.system.place e.thread
    let reply := (w.system.exec e.thread e.now call).1
    { system := w.system.step e
      leases := Function.update w.leases p (leasesAfter (w.leases p) e.now call reply)
      stored := Function.update w.stored p (storedAfter (w.stored p) call reply)
      handed := Function.update w.handed p (handedAfter (w.handed p) call reply) }

end World

def World.after [LinearOrder τ] [Add τ] (tables : Bool) (steps : List (Step τ ν)) : World τ ν :=
  Run.run World.step (World.init tables) steps

def Clocked [LinearOrder τ] (steps : List (Step τ ν)) : Prop :=
  steps.Pairwise (fun e e' => e.time ≤ e'.time) ∧ ∀ e ∈ steps, e.now ≤ e.time

section invariant
variable [LinearOrder τ] [Add τ] [DecidableEq ν]

/-- Every store backs the leases on it, and no value was handed out of it more often than
it was stored. -/
def Sound (w : World τ ν) (t : τ) : Prop :=
  ∀ p, Backed (w.system.stores p).locks (w.leases p) t ∧
    Spent (w.system.stores p).kv (w.stored p) (w.handed p)

theorem execDb_sound {s : Store τ ν} {leases : List (Lease String String τ)}
    {stored handed : List (KvKey × ν)} {t now : τ} (hnow : now ≤ t)
    (hlocks : Backed s.locks leases t) (hkv : Spent s.kv stored handed) (call : Call τ ν) :
    Backed (s.execDb now call).2.locks (World.leasesAfter leases now call (s.execDb now call).1) t ∧
      Spent (s.execDb now call).2.kv (World.storedAfter stored call (s.execDb now call).1)
        (World.handedAfter handed call (s.execDb now call).1) := by
  cases call with
  | tryLock name token ttl =>
    refine ⟨?_, hkv⟩
    cases htake : (s.locks.take name token now (now + ttl)).1 with
    | true =>
      simp only [Store.execDb, htake, if_true]
      exact hlocks.take_true hnow htake
    | false =>
      simp only [Store.execDb, htake, Bool.false_eq_true, if_false]
      exact hlocks.take_false htake
  | unlock name token => exact ⟨hlocks.giveBack name token, hkv⟩
  | kv call =>
    cases call with
    | put ns key value ttl => exact ⟨hlocks, hkv.put ⟨ns, key⟩ value (now + ttl)⟩
    | putIfAbsent ns key value ttl =>
      refine ⟨hlocks, ?_⟩
      have hspent := hkv.take ⟨ns, key⟩ value now (now + ttl)
      cases htake : (s.kv.take ⟨ns, key⟩ value now (now + ttl)).1 with
      | true =>
        rw [htake, if_pos rfl] at hspent
        simp only [Store.execDb, htake]
        exact hspent
      | false =>
        rw [htake, if_neg Bool.false_ne_true] at hspent
        simp only [Store.execDb, htake]
        exact hspent
    | get ns key => exact ⟨hlocks, hkv⟩
    | pop ns key =>
      refine ⟨hlocks, ?_⟩
      have hspent := hkv.pop ⟨ns, key⟩ now
      cases hpop : (s.kv.pop ⟨ns, key⟩ now).1 with
      | none =>
        rw [hpop, Option.map_none, Option.toList_none, List.append_nil] at hspent
        simp only [Store.execDb, hpop]
        exact hspent
      | some value =>
        rw [hpop, Option.map_some, Option.toList_some] at hspent
        simp only [Store.execDb, hpop]
        exact hspent
    | delete ns key => exact ⟨hlocks, hkv.delete ⟨ns, key⟩⟩
    | prune => exact ⟨hlocks.prune hnow, hkv.prune now⟩

theorem execMemory_sound {s : Store τ ν} {leases : List (Lease String String τ)}
    {stored handed : List (KvKey × ν)} {t now : τ} (hnow : now ≤ t)
    (hlocks : Backed s.locks leases t) (hkv : Spent s.kv stored handed) (call : Call τ ν) :
    Backed (s.execMemory now call).2.locks
        (World.leasesAfter leases now call (s.execMemory now call).1) t ∧
      Spent (s.execMemory now call).2.kv (World.storedAfter stored call (s.execMemory now call).1)
        (World.handedAfter handed call (s.execMemory now call).1) := by
  by_cases hcall : call = .kv .prune
  · subst hcall
    exact ⟨hlocks, hkv⟩
  · rw [execMemory_eq s now hcall]
    exact execDb_sound hnow hlocks hkv call

omit [Add τ] [DecidableEq ν] in
theorem stores_note (s : System τ ν) (t : Thread) (op : Op τ ν) (r : Reply ν) :
    (s.note t op r).stores = s.stores ∧ (s.note t op r).tables = s.tables := by
  rw [System.note.eq_def]
  split <;> exact ⟨rfl, rfl⟩

theorem step_sound {w : World τ ν} {t : τ} (h : Sound w t) {e : Step τ ν} (hnow : e.now ≤ e.time)
    (htime : t ≤ e.time) : Sound (w.step e) e.time := by
  intro p
  have hold : Backed (w.system.stores p).locks (w.leases p) e.time := (h p).1.mono htime
  rw [World.step]
  cases hcall : w.system.call? e.thread e.op with
  | none =>
    have hstores : (w.system.step e).stores = w.system.stores := by
      rw [System.step, hcall]
      exact (stores_note _ _ _ _).1
    simp only [hstores]
    exact ⟨hold, (h p).2⟩
  | some call =>
    have hstores : (w.system.step e).stores = Function.update w.system.stores
        (w.system.place e.thread) (w.system.exec e.thread e.now call).2 := by
      rw [System.step, hcall]
      exact (stores_note _ _ _ _).1
    simp only [hstores]
    by_cases hp : p = w.system.place e.thread
    · subst hp
      simp only [Function.update_self]
      rw [System.exec]
      split_ifs
      · exact execDb_sound hnow hold (h _).2 call
      · exact execMemory_sound hnow hold (h _).2 call
    · simp only [Function.update_of_ne hp]
      exact ⟨hold, (h p).2⟩

omit [DecidableEq ν] in
theorem tables_step (w : World τ ν) (e : Step τ ν) :
    (w.step e).system.tables = w.system.tables := by
  have hsystem : (w.step e).system = w.system.step e := by
    rw [World.step]
    cases w.system.call? e.thread e.op <;> rfl
  rw [hsystem, System.step]
  cases w.system.call? e.thread e.op with
  | none => exact (stores_note _ _ _ _).2
  | some call => exact (stores_note _ _ _ _).2

theorem run_sound {w : World τ ν} {t : τ} (h : Sound w t) {steps : List (Step τ ν)}
    (hclock : Clocked steps) (hstart : ∀ e ∈ steps, t ≤ e.time) {t' : τ} (hend : t ≤ t')
    (hlast : ∀ e ∈ steps, e.time ≤ t') : Sound (Run.run World.step w steps) t' := by
  induction steps generalizing w t with
  | nil => exact fun p => ⟨(h p).1.mono hend, (h p).2⟩
  | cons e steps ih =>
    obtain ⟨hpair, hnow⟩ := hclock
    obtain ⟨hfirst, hpair⟩ := List.pairwise_cons.mp hpair
    refine ih (step_sound h (hnow e List.mem_cons_self) (hstart e List.mem_cons_self))
      ⟨hpair, fun e' he => hnow e' (List.mem_cons_of_mem _ he)⟩ hfirst
      (hlast e List.mem_cons_self) (fun e' he => hlast e' (List.mem_cons_of_mem _ he))

omit [Add τ] in
theorem sound_init (tables : Bool) (t : τ) : Sound (World.init tables : World τ ν) t := fun _ =>
  ⟨.nil _ t, fun _ _ => Nat.le_refl 0⟩

omit [DecidableEq ν] in
theorem memory_unused {tables : Bool} (htables : tables = true) (steps : List (Step τ ν))
    (process : ℕ) :
    (World.after tables steps).leases (some process) = [] ∧
      (World.after tables steps).handed (some process) = [] := by
  have hrun : ∀ w : World τ ν, w.system.tables = true →
      w.leases (some process) = [] ∧ w.handed (some process) = [] →
      (Run.run World.step w steps).leases (some process) = [] ∧
        (Run.run World.step w steps).handed (some process) = [] := by
    induction steps with
    | nil => exact fun w _ h => h
    | cons e steps ih =>
      intro w hw h
      refine ih (w.step e) ((tables_step w e).trans hw) ?_
      have hplace : some process ≠ w.system.place e.thread := by
        rw [System.place, if_pos hw]
        exact Option.some_ne_none _
      rw [World.step]
      cases w.system.call? e.thread e.op with
      | none => exact h
      | some call => simpa only [Function.update_of_ne hplace] using h
  exact hrun _ htables ⟨rfl, rfl⟩

theorem unlock_keeps {w : World τ ν} {t : τ} (h : Sound w t) {e : Step τ ν} {name token : String}
    (hcall : w.system.call? e.thread e.op = some (.unlock name token)) {place : Option ℕ}
    {l : Lease String String τ} (hl : l ∈ live (w.leases place) name t) (hother : l.owner ≠ token) :
    l ∈ live ((w.step e).leases place) name t ∧
      ((w.step e).system.stores place).locks name = some (l.owner, l.expires) := by
  obtain ⟨hmem, hcount⟩ := List.mem_filter.mp hl
  have hlive : l.key = name ∧ t ≤ l.expires := of_decide_eq_true hcount
  have hstores : (w.system.step e).stores = Function.update w.system.stores
      (w.system.place e.thread) (w.system.exec e.thread e.now (.unlock name token)).2 := by
    rw [System.step, hcall]
    exact (stores_note _ _ _ _).1
  rw [World.step, hcall]
  simp only [hstores]
  by_cases hp : place = w.system.place e.thread
  · subst hp
    have hkept : l ∈ World.leasesAfter (w.leases (w.system.place e.thread)) e.now
        (.unlock name token : Call τ ν) (w.system.exec e.thread e.now (.unlock name token)).1 :=
      List.mem_filter.mpr ⟨hmem, decide_eq_true fun h => hother h.2⟩
    have hrow := ((h (w.system.place e.thread)).1.giveBack name token).row l
      (List.mem_filter.mpr ⟨hmem, decide_eq_true fun h => hother h.2⟩) hlive.2
    have hexec : (w.system.exec e.thread e.now (.unlock name token)).2.locks =
        (w.system.stores (w.system.place e.thread)).locks.giveBack name token := by
      rw [System.exec, execMemory_eq _ _ (fun h => by cases h), ite_self]
      rfl
    simp only [Function.update_self, hexec]
    exact ⟨List.mem_filter.mpr ⟨hkept, hcount⟩, hlive.1 ▸ hrow⟩
  · simp only [Function.update_of_ne hp]
    exact ⟨hl, hlive.1 ▸ (h place).1.row l hmem hlive.2⟩

/-- After any history of steps, at any later instant: one lease counts at most on a name, an
unlock leaves the lease of another token alone, and a value is handed out no more often than
it was stored. The database is one place for all processes. -/
theorem leases_exclusive (tables : Bool) (steps : List (Step τ ν)) (hclock : Clocked steps)
    (t : τ) (ht : ∀ e ∈ steps, e.time ≤ t) (place : Option ℕ) :
    (∀ name, (live ((World.after tables steps).leases place) name t).length ≤ 1) ∧
      (∀ (e : Step τ ν) (name token : String),
        (World.after tables steps).system.call? e.thread e.op = some (.unlock name token) →
        ∀ l ∈ live ((World.after tables steps).leases place) name t, l.owner ≠ token →
          l ∈ live (((World.after tables steps).step e).leases place) name t ∧
            (((World.after tables steps).step e).system.stores place).locks name =
              some (l.owner, l.expires)) ∧
      (∀ key value, ((World.after tables steps).handed place).count (key, value) ≤
        ((World.after tables steps).stored place).count (key, value)) ∧
      (tables = true → ∀ process, (World.after tables steps).leases (some process) = [] ∧
        (World.after tables steps).handed (some process) = []) := by
  have hsound : Sound (World.after tables steps) t := by
    cases steps with
    | nil => exact sound_init tables t
    | cons e steps =>
      refine run_sound (sound_init tables e.time) hclock ?_ (ht e List.mem_cons_self) ht
      exact List.forall_mem_cons.mpr ⟨le_rfl, (List.pairwise_cons.mp hclock.1).1⟩
  refine ⟨(hsound place).1.length_live_le, ?_, fun key value => ?_, ?_⟩
  · intro e name token hcall l hl hother
    exact unlock_keeps hsound hcall hl hother
  · exact Nat.le_trans (Nat.le_add_right _ _) ((hsound place).2 key value)
  · exact fun htables process => memory_unused htables steps process

end invariant

/-- The first holder is late: its lease of ten seconds is over when the second takes the
name, and only then it releases. -/
def lateRelease : List (Step ℕ String) :=
  let reset : OpLock ℕ := ⟨0, "data_reset", 10⟩
  [⟨⟨1, 1⟩, 0, 1, .acquire reset "a"⟩, ⟨⟨2, 1⟩, 10, 10, .acquire reset "b"⟩,
    ⟨⟨2, 1⟩, 11, 12, .acquire reset "c"⟩, ⟨⟨1, 1⟩, 13, 13, .release reset⟩]

theorem leases_exclusive_late :
    (live ((World.after true lateRelease).leases none) "data_reset" 13).length ≤ 1 :=
  (leases_exclusive true lateRelease ⟨by decide, by decide⟩ 13 (by decide) none).1 "data_reset"

example : (live ((World.after true lateRelease).leases none) "data_reset" 13).map Lease.owner =
    ["c"] := by decide

end RadiusModule.SharedState
