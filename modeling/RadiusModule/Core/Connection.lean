import Mathlib.Data.List.Basic

/-!
# Nested transactions of one connection

`transaction()` opens a BEGIN at the outside and a SAVEPOINT inside, and keeps
the depth and the list of hooks beside the connection. A program is a tree of
blocks, statements and hooks, with exceptions raised and caught anywhere; which
of its blocks complete is said beside the connection, so that what the outermost
block leaves behind can be compared with what the completed blocks wrote.
-/

namespace RadiusModule.Connection

/-- SQLite on contents `σ`: a statement that raises leaves the contents. -/
structure Sqlite (σ ω ε : Type*) where
  write : ω → σ → Except ε σ
  beginRaises : σ → Option ε := fun _ => none
  commitRaises : σ → Option ε := fun _ => none

/-- SQLite with the failures on which it takes the whole transaction back by itself, as when the
disk is full, and with what RELEASE and COMMIT raise where there is no transaction. -/
structure Engine (σ ω ε : Type*) extends Sqlite σ ω ε where
  takesBack : ω → σ → Bool := fun _ _ => false
  lostRaises : Option ε := none

def Sqlite.engine {σ ω ε : Type*} (db : Sqlite σ ω ε) : Engine σ ω ε := { db with }

@[simp] theorem Sqlite.engine_toSqlite {σ ω ε : Type*} (db : Sqlite σ ω ε) :
    db.engine.toSqlite = db := rfl

/-- The connection of a thread, with `tx_depth` and `after_commit` beside it. A hook that ran
is kept with the contents of the file at that time. -/
structure Session (σ η : Type*) where
  file : σ
  seen : σ
  inTransaction : Bool
  /-- A BEGIN opened the transaction, not a SAVEPOINT. -/
  begun : Bool
  savepoints : List (ℕ × σ)
  txDepth : ℕ
  hooks : List η
  ran : List (η × σ)
deriving DecidableEq

inductive Prog (σ ω η ε α : Type*)
  | ret (a : α)
  | raise (e : ε)
  | statement (w : ω) (next : σ → Prog σ ω η ε α)
  | afterCommit (h : η) (next : Prog σ ω η ε α)
  | transaction (body : Prog σ ω η ε α) (next : α → Prog σ ω η ε α)
  | attempt (body : Prog σ ω η ε α) (next : Except ε α → Prog σ ω η ε α)

def Prog.each {σ ω η ε α : Type*} (ws : List ω) (next : Prog σ ω η ε α) : Prog σ ω η ε α :=
  ws.foldr (fun w rest => .statement w fun _ => rest) next

variable {σ ω η ε α : Type*}

namespace Session

def idle (x : σ) (ran : List (η × σ)) : Session σ η :=
  ⟨x, x, false, false, [], 0, [], ran⟩

def begin (s : Session σ η) : Session σ η :=
  { s with seen := s.file, inTransaction := true, begun := true }

def commit (s : Session σ η) : Session σ η :=
  { s with file := s.seen, inTransaction := false, begun := false, savepoints := [] }

def rollback (s : Session σ η) : Session σ η :=
  { s with seen := s.file, inTransaction := false, begun := false, savepoints := [] }

def savepoint (s : Session σ η) (name : ℕ) : Session σ η :=
  if s.inTransaction then { s with savepoints := (name, s.seen) :: s.savepoints }
  else { s with seen := s.file, inTransaction := true, savepoints := [(name, s.file)] }

def rollbackTo (s : Session σ η) (name : ℕ) : Session σ η :=
  match s.savepoints.dropWhile fun p => p.1 ≠ name with
  | [] => s
  | p :: rest => { s with seen := p.2, savepoints := p :: rest }

def release (db : Engine σ ω ε) (s : Session σ η) (name : ℕ) : Option ε × Session σ η :=
  match s.savepoints.dropWhile fun p => p.1 ≠ name with
  | [] => (db.lostRaises, s)
  | _ :: rest =>
    if rest.isEmpty && !s.begun then
      match db.commitRaises s.seen with
      | some e => (some e, s)
      | none => (none, s.commit)
    else (none, { s with savepoints := rest })

/-- What COMMIT raises. -/
def commitError (db : Engine σ ω ε) (s : Session σ η) : Option ε :=
  if s.inTransaction then db.commitRaises s.seen else db.lostRaises

/-- `_safe_rollback`: SQLite may have ended the transaction itself. -/
def safe (s : Session σ η) (sql : Session σ η → Session σ η) : Session σ η :=
  if s.inTransaction then sql s else s

def store (s : Session σ η) (x : σ) : Session σ η :=
  if s.inTransaction then { s with seen := x } else { s with file := x, seen := x }

def runHooks (s : Session σ η) (hooks : List η) : Session σ η :=
  { s with ran := s.ran ++ hooks.map fun h => (h, s.file) }

def afterCommit (s : Session σ η) (h : η) : Session σ η :=
  if 0 < s.txDepth then { s with hooks := s.hooks ++ [h] } else s.runHooks [h]

def releaseLeakedTransaction (s : Session σ η) : Session σ η :=
  { (s.safe rollback) with txDepth := 0, hooks := [] }

end Session

structure Outcome (σ η ε α : Type*) where
  result : Except ε α
  session : Session σ η

def transaction (db : Engine σ ω ε) (body : Session σ η → Outcome σ η ε α) (s : Session σ η) :
    Outcome σ η ε α :=
  let depth := s.txDepth
  if 0 < depth ∨ s.inTransaction then
    let name := depth + 1
    let mark := s.hooks.length
    let out := body { s.savepoint name with txDepth := depth + 1 }
    match out.result with
    | .error e =>
      let undone := (out.session.safe (·.rollbackTo name)).safe fun s => (s.release db name).2
      ⟨.error e, { undone with hooks := undone.hooks.take mark, txDepth := depth }⟩
    | .ok a =>
      match out.session.release db name with
      -- raised in the `else:` of the block, which leaves the hooks
      | (some e, s) => ⟨.error e, { s with txDepth := depth }⟩
      | (none, s) =>
        let released := { s with txDepth := depth }
        -- inside a manual BEGIN no COMMIT of ours follows
        if depth = 0 then
          ⟨.ok a, { released with hooks := released.hooks.take mark }.runHooks
            (released.hooks.drop mark)⟩
        else ⟨.ok a, released⟩
  else
    match db.beginRaises s.file with
    | some e => ⟨.error e, s⟩
    | none =>
      let out := body { s.begin with txDepth := 1, hooks := [] }
      let failed (e : ε) : Outcome σ η ε α :=
        ⟨.error e, { (out.session.safe (·.rollback)) with hooks := [], txDepth := 0 }⟩
      match out.result with
      | .error e => failed e
      | .ok a =>
        match out.session.commitError db with
        | some e => failed e
        | none =>
          let done := { out.session.commit with txDepth := 0 }
          ⟨.ok a, { done with hooks := [] }.runHooks done.hooks⟩

def exec (db : Engine σ ω ε) : Prog σ ω η ε α → Session σ η → Outcome σ η ε α
  | .ret a, s => ⟨.ok a, s⟩
  | .raise e, s => ⟨.error e, s⟩
  | .statement w next, s =>
    match db.write w s.seen with
    | .ok x => exec db (next x) (s.store x)
    | .error e => ⟨.error e, if db.takesBack w s.seen then s.rollback else s⟩
  | .afterCommit h next, s => exec db next (s.afterCommit h)
  | .transaction body next, s =>
    let out := transaction db (exec db body) s
    match out.result with
    | .ok a => exec db (next a) out.session
    | .error _ => out
  | .attempt body next, s =>
    let out := exec db body s
    exec db (next out.result) out.session

/-- A program as a function of the contents: a block that raises gives back the contents it
started from. -/
def eval (db : Sqlite σ ω ε) : Prog σ ω η ε α → σ → Except ε α × σ
  | .ret a, x => (.ok a, x)
  | .raise e, x => (.error e, x)
  | .statement w next, x =>
    match db.write w x with
    | .ok y => eval db (next y) y
    | .error e => (.error e, x)
  | .afterCommit _ next, x => eval db next x
  | .transaction body next, x =>
    match eval db body x with
    | (.ok a, y) => eval db (next a) y
    | (.error e, _) => (.error e, x)
  | .attempt body next, x => eval db (next (eval db body x).1) (eval db body x).2

inductive Trace (ω η : Type*)
  | nil
  | write (w : ω) (rest : Trace ω η)
  | hook (h : η) (rest : Trace ω η)
  | block (completed : Bool) (body rest : Trace ω η)

namespace Trace

def append : Trace ω η → Trace ω η → Trace ω η
  | .nil, u => u
  | .write w t, u => .write w (t.append u)
  | .hook h t, u => .hook h (t.append u)
  | .block completed body t, u => .block completed body (t.append u)

def writes : Trace ω η → List ω
  | .nil => []
  | .write w t => w :: t.writes
  | .hook _ t => t.writes
  | .block completed body t => (if completed then body.writes else []) ++ t.writes

def hooks : Trace ω η → List η
  | .nil => []
  | .write _ t => t.hooks
  | .hook h t => h :: t.hooks
  | .block completed body t => (if completed then body.hooks else []) ++ t.hooks

@[simp] theorem writes_append (t u : Trace ω η) : (t.append u).writes = t.writes ++ u.writes := by
  induction t with
  | nil => rfl
  | write w t ih => simp [append, writes, ih]
  | hook h t ih => simp [append, writes, ih]
  | block completed body t _ ih => simp [append, writes, ih]

@[simp] theorem hooks_append (t u : Trace ω η) : (t.append u).hooks = t.hooks ++ u.hooks := by
  induction t with
  | nil => rfl
  | write w t ih => simp [append, hooks, ih]
  | hook h t ih => simp [append, hooks, ih]
  | block completed body t _ ih => simp [append, hooks, ih]

end Trace

def trace (db : Sqlite σ ω ε) : Prog σ ω η ε α → σ → Trace ω η
  | .ret _, _ => .nil
  | .raise _, _ => .nil
  | .statement w next, x =>
    match db.write w x with
    | .ok y => .write w (trace db (next y) y)
    | .error _ => .nil
  | .afterCommit h next, x => .hook h (trace db next x)
  | .transaction body next, x =>
    match eval db body x with
    | (.ok a, y) => .block true (trace db body x) (trace db (next a) y)
    | (.error _, _) => .block false (trace db body x) .nil
  | .attempt body next, x =>
    (trace db body x).append (trace db (next (eval db body x).1) (eval db body x).2)

def replay (db : Sqlite σ ω ε) : List ω → σ → Except ε σ
  | [], x => .ok x
  | w :: ws, x => (db.write w x).bind (replay db ws)

theorem replay_append (db : Sqlite σ ω ε) {ws vs : List ω} {x y : σ}
    (h : replay db ws x = .ok y) : replay db (ws ++ vs) x = replay db vs y := by
  induction ws generalizing x with
  | nil =>
    cases h
    rfl
  | cons w ws ih =>
    simp only [replay, List.cons_append] at h ⊢
    cases hw : db.write w x with
    | error e =>
      rw [hw] at h
      cases h
    | ok z =>
      rw [hw] at h
      exact ih h

theorem replay_append_ok {db : Sqlite σ ω ε} {ws vs : List ω} {x z : σ}
    (h : replay db (ws ++ vs) x = .ok z) :
    ∃ y, replay db ws x = .ok y ∧ replay db vs y = .ok z := by
  induction ws generalizing x with
  | nil => exact ⟨x, rfl, h⟩
  | cons w ws ih =>
    simp only [replay, List.cons_append] at h ⊢
    cases hw : db.write w x with
    | error e =>
      rw [hw] at h
      cases h
    | ok y =>
      rw [hw] at h
      exact ih h

theorem replay_singleton {db : Sqlite σ ω ε} {w : ω} {x z : σ} (h : replay db [w] x = .ok z) :
    db.write w x = .ok z := by
  simp only [replay] at h
  cases hw : db.write w x with
  | error e =>
    rw [hw] at h
    cases h
  | ok y =>
    rw [hw] at h
    exact h

theorem replay_trace (db : Sqlite σ ω ε) (p : Prog σ ω η ε α) (x : σ) :
    replay db (trace db p x).writes x = .ok (eval db p x).2 := by
  induction p generalizing x with
  | ret a => rfl
  | raise e => rfl
  | statement w next ih =>
    simp only [trace, eval]
    cases hw : db.write w x with
    | error e => rfl
    | ok y =>
      simp only [Trace.writes, replay, hw]
      exact ih y y
  | afterCommit h next ih => exact ih x
  | transaction body next ihbody ih =>
    have hbody := ihbody x
    simp only [trace, eval]
    generalize eval db body x = out at hbody
    rcases out with ⟨_ | a, y⟩
    · rfl
    · simp only [Trace.writes, if_true]
      rw [replay_append db hbody]
      exact ih a y
  | attempt body next ihbody ih =>
    rw [trace, Trace.writes_append, replay_append db (ihbody x)]
    exact ih _ _

def Engine.loses (db : Engine σ ω ε) : Prog σ ω η ε α → σ → Bool
  | .ret _, _ => false
  | .raise _, _ => false
  | .statement w next, x =>
    match db.write w x with
    | .ok y => db.loses (next y) y
    | .error _ => db.takesBack w x
  | .afterCommit _ next, x => db.loses next x
  | .transaction body next, x => db.loses body x ||
    match eval db.toSqlite body x with
    | (.ok a, y) => db.loses (next a) y
    | (.error _, _) => false
  | .attempt body next, x => db.loses body x ||
    db.loses (next (eval db.toSqlite body x).1) (eval db.toSqlite body x).2

/-- It comes to one and catches what it raises. -/
def Engine.catchesLoss (db : Engine σ ω ε) : Prog σ ω η ε α → σ → Bool
  | .ret _, _ => false
  | .raise _, _ => false
  | .statement w next, x =>
    match db.write w x with
    | .ok y => db.catchesLoss (next y) y
    | .error _ => false
  | .afterCommit _ next, x => db.catchesLoss next x
  | .transaction body next, x => db.catchesLoss body x ||
    match eval db.toSqlite body x with
    | (.ok a, y) => db.catchesLoss (next a) y
    | (.error _, _) => false
  | .attempt body next, x => db.loses body x ||
    db.catchesLoss (next (eval db.toSqlite body x).1) (eval db.toSqlite body x).2

theorem loses_engine (db : Sqlite σ ω ε) (p : Prog σ ω η ε α) (x : σ) :
    db.engine.loses p x = false := by
  induction p generalizing x with
  | ret a => rfl
  | raise e => rfl
  | statement w next ih =>
    simp only [Engine.loses]
    cases db.engine.write w x with
    | error e => rfl
    | ok y => exact ih y y
  | afterCommit h next ih => exact ih x
  | transaction body next ihbody ih =>
    simp only [Engine.loses, ihbody, Bool.false_or]
    rcases eval db.engine.toSqlite body x with ⟨_ | a, y⟩
    · rfl
    · exact ih a y
  | attempt body next ihbody ih =>
    simp only [Engine.loses, ihbody, Bool.false_or]
    exact ih _ _

def Session.Open (s : Session σ η) : Prop :=
  0 < s.txDepth ∧ s.inTransaction = true ∧ s.begun = true

def Session.advance (s : Session σ η) (x : σ) (hs : List η) : Session σ η :=
  { s with seen := x, hooks := s.hooks ++ hs }

def Session.lost (s : Session σ η) (hs : List η) : Session σ η :=
  { s.rollback with hooks := s.hooks ++ hs }

theorem Session.Open.advance {s : Session σ η} (h : s.Open) (x : σ) (hs : List η) :
    (s.advance x hs).Open := h

theorem Session.Open.store {s : Session σ η} (h : s.Open) (x : σ) : s.store x = s.advance x [] := by
  simp [Session.store, Session.advance, h.2.1]

theorem Session.Open.afterCommit {s : Session σ η} (h : s.Open) (hook : η) :
    s.afterCommit hook = s.advance s.seen [hook] := by
  simp [Session.afterCommit, Session.advance, h.1]

theorem Session.advance_advance (s : Session σ η) (x y : σ) (hs hs' : List η) :
    (s.advance x hs).advance y hs' = s.advance y (hs ++ hs') := by
  simp [Session.advance]

theorem Session.advance_lost (s : Session σ η) (x : σ) (hs hs' : List η) :
    (s.advance x hs).lost hs' = s.lost (hs ++ hs') := by
  simp [Session.advance, Session.lost, Session.rollback]

def Session.inner (s : Session σ η) : Session σ η :=
  { s.savepoint (s.txDepth + 1) with txDepth := s.txDepth + 1 }

theorem Session.Open.inner_eq {s : Session σ η} (h : s.Open) : s.inner =
    { s with savepoints := (s.txDepth + 1, s.seen) :: s.savepoints, txDepth := s.txDepth + 1 } := by
  simp [Session.inner, Session.savepoint, h.2.1]

theorem Session.Open.inner {s : Session σ η} (h : s.Open) : s.inner.Open := by
  rw [h.inner_eq]
  exact ⟨Nat.succ_pos _, h.2⟩

theorem transaction_completed (db : Engine σ ω ε) {s : Session σ η} (hs : s.Open)
    {body : Session σ η → Outcome σ η ε α} {a : α} {x : σ} {hooks : List η}
    (hbody : body s.inner = ⟨.ok a, s.inner.advance x hooks⟩) :
    transaction db body s = ⟨.ok a, s.advance x hooks⟩ := by
  obtain ⟨hdepth, -, hbegun⟩ := id hs
  simp only [Session.inner] at hbody
  simp only [transaction, hdepth, true_or, if_true, hbody]
  rw [← Session.inner, hs.inner_eq]
  simp [Session.release, Session.advance, hbegun, Nat.ne_of_gt hdepth]

theorem transaction_failed (db : Engine σ ω ε) {s : Session σ η} (hs : s.Open)
    {body : Session σ η → Outcome σ η ε α} {e : ε} {x : σ} {hooks : List η}
    (hbody : body s.inner = ⟨.error e, s.inner.advance x hooks⟩) :
    transaction db body s = ⟨.error e, s⟩ := by
  obtain ⟨hdepth, hin, hbegun⟩ := id hs
  simp only [Session.inner] at hbody
  simp only [transaction, hdepth, true_or, if_true, hbody]
  rw [← Session.inner, hs.inner_eq]
  obtain ⟨file, seen, inTransaction, begun, savepoints, txDepth, hooks, ran⟩ := s
  simp only at hin hbegun
  subst hin hbegun
  simp [Session.safe, Session.rollbackTo, Session.release, Session.advance]

theorem transaction_lost (db : Engine σ ω ε) {s : Session σ η} (hs : s.Open)
    {body : Session σ η → Outcome σ η ε α} {e : ε} {hooks : List η}
    (hbody : body s.inner = ⟨.error e, s.inner.lost hooks⟩) :
    transaction db body s = ⟨.error e, s.lost []⟩ := by
  obtain ⟨hdepth, -, -⟩ := id hs
  simp only [Session.inner] at hbody
  simp only [transaction, hdepth, true_or, if_true, hbody]
  rw [← Session.inner, hs.inner_eq]
  simp [Session.safe, Session.lost, Session.rollback]

theorem exec_eval (db : Engine σ ω ε) (p : Prog σ ω η ε α) {s : Session σ η} (hs : s.Open)
    (hkept : db.loses p s.seen = false) :
    exec db p s = ⟨(eval db.toSqlite p s.seen).1,
      s.advance (eval db.toSqlite p s.seen).2 (trace db.toSqlite p s.seen).hooks⟩ := by
  induction p generalizing s with
  | ret a => simp [exec, eval, trace, Trace.hooks, Session.advance]
  | raise e => simp [exec, eval, trace, Trace.hooks, Session.advance]
  | statement w next ih =>
    simp only [Engine.loses] at hkept
    simp only [exec, eval, trace]
    cases hw : db.write w s.seen with
    | error e =>
      rw [hw] at hkept
      simp only at hkept
      simp [hkept, Trace.hooks, Session.advance]
    | ok x =>
      rw [hw] at hkept
      simp only [hs.store x]
      rw [ih x (hs.advance x []) hkept, Session.advance_advance]
      rfl
  | afterCommit h next ih =>
    simp only [exec, hs.afterCommit h]
    rw [ih (hs.advance s.seen [h]) hkept, Session.advance_advance]
    rfl
  | transaction body next ihbody ih =>
    simp only [Engine.loses, Bool.or_eq_false_iff] at hkept
    have hseen : s.inner.seen = s.seen := by rw [hs.inner_eq]
    have hbody := ihbody hs.inner (hseen.symm ▸ hkept.1)
    rw [hseen] at hbody
    simp only [exec, eval, trace]
    rcases heval : eval db.toSqlite body s.seen with ⟨_ | a, y⟩
    · rw [heval] at hbody
      simp [transaction_failed db hs hbody, Trace.hooks, Session.advance]
    · rw [heval] at hbody hkept
      simp only [transaction_completed db hs hbody]
      rw [ih a (hs.advance y _) hkept.2, Session.advance_advance]
      rfl
  | attempt body next ihbody ih =>
    simp only [Engine.loses, Bool.or_eq_false_iff] at hkept
    simp only [exec, eval, trace, Trace.hooks_append]
    rw [ihbody hs hkept.1]
    simp only
    rw [ih _ (hs.advance _ _) hkept.2, Session.advance_advance]
    rfl

theorem exec_lost (db : Engine σ ω ε) (p : Prog σ ω η ε α) {s : Session σ η} (hs : s.Open)
    (hcaught : db.catchesLoss p s.seen = false) (hlost : db.loses p s.seen = true) :
    ∃ e hooks, exec db p s = ⟨.error e, s.lost hooks⟩ := by
  induction p generalizing s with
  | ret a => cases hlost
  | raise e => cases hlost
  | statement w next ih =>
    simp only [Engine.loses] at hlost
    simp only [Engine.catchesLoss] at hcaught
    simp only [exec]
    cases hw : db.write w s.seen with
    | error e =>
      rw [hw] at hlost
      exact ⟨e, [], by simp only at hlost; simp [hlost, Session.lost, Session.rollback]⟩
    | ok x =>
      rw [hw] at hlost hcaught
      obtain ⟨e, hooks, hexec⟩ := ih x (hs.advance x []) hcaught hlost
      exact ⟨e, hooks, by simp only [hs.store x]; rw [hexec, Session.advance_lost]; rfl⟩
  | afterCommit h next ih =>
    obtain ⟨e, hooks, hexec⟩ := ih (hs.advance s.seen [h]) hcaught hlost
    exact ⟨e, h :: hooks, by simp only [exec, hs.afterCommit h]; rw [hexec, Session.advance_lost]; rfl⟩
  | transaction body next ihbody ih =>
    simp only [Engine.catchesLoss, Bool.or_eq_false_iff] at hcaught
    simp only [Engine.loses, Bool.or_eq_true] at hlost
    have hseen : s.inner.seen = s.seen := by rw [hs.inner_eq]
    cases hbody : db.loses body s.seen with
    | true =>
      obtain ⟨e, hooks, hexec⟩ := ihbody hs.inner (hseen.symm ▸ hcaught.1) (hseen.symm ▸ hbody)
      refine ⟨e, [], ?_⟩
      simp only [exec, transaction_lost db hs hexec]
    | false =>
      have hexec := exec_eval db body hs.inner (hseen.symm ▸ hbody)
      rw [hseen] at hexec
      rw [hbody] at hlost
      simp only [exec]
      rcases heval : eval db.toSqlite body s.seen with ⟨_ | a, y⟩
      · rw [heval] at hlost
        rcases hlost with hlost | hlost <;> cases hlost
      · rw [heval] at hlost hcaught hexec
        obtain ⟨e, hooks, hnext⟩ :=
          ih a (hs.advance y (trace db.toSqlite body s.seen).hooks) hcaught.2
            (hlost.resolve_left (by decide))
        refine ⟨e, (trace db.toSqlite body s.seen).hooks ++ hooks, ?_⟩
        simp only [transaction_completed db hs hexec]
        rw [hnext, Session.advance_lost]
  | attempt body next ihbody ih =>
    simp only [Engine.catchesLoss, Bool.or_eq_false_iff] at hcaught
    simp only [Engine.loses, hcaught.1, Bool.false_or] at hlost
    obtain ⟨e, hooks, hnext⟩ := ih _ (hs.advance _ _) hcaught.2 hlost
    refine ⟨e, (trace db.toSqlite body s.seen).hooks ++ hooks, ?_⟩
    simp only [exec]
    rw [exec_eval db body hs hcaught.1]
    simp only
    rw [hnext, Session.advance_lost]

def AllOrNothing (db : Engine σ ω ε) (p : Prog σ ω η ε α) (x : σ) (ran : List (η × σ)) : Prop :=
  let out := transaction db (exec db p) (.idle x ran)
  match out.result with
  | .ok _ => ∃ y, replay db.toSqlite (trace db.toSqlite p x).writes x = .ok y ∧
      out.session = .idle y (ran ++ (trace db.toSqlite p x).hooks.map fun h => (h, y))
  | .error _ => out.session = .idle x ran

def Session.opened (x : σ) (ran : List (η × σ)) : Session σ η :=
  { (Session.idle x ran).begin with txDepth := 1, hooks := [] }

theorem open_opened (x : σ) (ran : List (η × σ)) : (Session.opened x ran).Open :=
  ⟨Nat.one_pos, rfl, rfl⟩

theorem transaction_kept (db : Engine σ ω ε) (p : Prog σ ω η ε α) (x : σ) (ran : List (η × σ))
    (hkept : db.loses p x = false) :
    transaction db (exec db p) (.idle x ran) =
      match db.beginRaises x with
      | some e => ⟨.error e, .idle x ran⟩
      | none =>
        match (eval db.toSqlite p x).1 with
        | .error e => ⟨.error e, .idle x ran⟩
        | .ok a =>
          match db.commitRaises (eval db.toSqlite p x).2 with
          | some e => ⟨.error e, .idle x ran⟩
          | none => ⟨.ok a, .idle (eval db.toSqlite p x).2
              (ran ++ (trace db.toSqlite p x).hooks.map fun h => (h, (eval db.toSqlite p x).2))⟩ := by
  have hexec := exec_eval db p (open_opened x ran) hkept
  have hseen : (Session.opened x ran : Session σ η).seen = x := rfl
  rw [hseen] at hexec
  simp only [transaction, Session.idle, Nat.lt_irrefl, Bool.false_eq_true, or_self, if_false]
  cases db.beginRaises x with
  | some e => rfl
  | none =>
    simp only
    rw [show ({ (⟨x, x, false, false, [], 0, [], ran⟩ : Session σ η).begin with
      txDepth := 1, hooks := [] } : Session σ η) = .opened x ran from rfl, hexec]
    rcases eval db.toSqlite p x with ⟨_ | a, y⟩
    · rfl
    · simp only [Session.commitError, Session.advance, Session.opened, Session.begin, if_true]
      cases db.commitRaises y with
      | some e => rfl
      | none => simp [Session.commit, Session.runHooks, Session.idle]

theorem transaction_uncaught (db : Engine σ ω ε) (p : Prog σ ω η ε α) (x : σ)
    (ran : List (η × σ)) (hcaught : db.catchesLoss p x = false) (hlost : db.loses p x = true) :
    ∃ e, transaction db (exec db p) (.idle x ran) = ⟨.error e, .idle x ran⟩ := by
  obtain ⟨e, hooks, hexec⟩ := exec_lost db p (open_opened x ran) hcaught hlost
  simp only [transaction, Session.idle, Nat.lt_irrefl, Bool.false_eq_true, or_self, if_false]
  cases db.beginRaises x with
  | some e => exact ⟨e, rfl⟩
  | none =>
    simp only
    rw [show ({ (⟨x, x, false, false, [], 0, [], ran⟩ : Session σ η).begin with
      txDepth := 1, hooks := [] } : Session σ η) = .opened x ran from rfl, hexec]
    exact ⟨e, rfl⟩

theorem allOrNothing_block {db : Engine σ ω ε} {p : Prog σ ω η ε α} {x : σ}
    (hcaught : db.catchesLoss p x = false) (ran : List (η × σ)) : AllOrNothing db p x ran := by
  simp only [AllOrNothing]
  cases hlost : db.loses p x with
  | true =>
    obtain ⟨e, hout⟩ := transaction_uncaught db p x ran hcaught hlost
    rw [hout]
  | false =>
    rw [transaction_kept db p x ran hlost]
    cases db.beginRaises x with
    | some e => rfl
    | none =>
      have hreplay := replay_trace db.toSqlite p x
      generalize eval db.toSqlite p x = out at hreplay ⊢
      rcases out with ⟨_ | a, y⟩
      · rfl
      · simp only
        cases db.commitRaises y with
        | some e => rfl
        | none => exact ⟨y, hreplay, rfl⟩

def Session.Tidy (s : Session σ η) : Prop :=
  s.inTransaction = false → s.seen = s.file ∧ s.savepoints = [] ∧ s.begun = false

structure Session.Within (s s' : Session σ η) : Prop where
  tidy : s'.Tidy
  txDepth : s'.txDepth = s.txDepth
  ran : s'.ran = s.ran

theorem Session.Tidy.refl {s : Session σ η} (h : s.Tidy) : s.Within s := ⟨h, rfl, rfl⟩

theorem Session.Within.trans {s₁ s₂ s₃ : Session σ η} (h : s₁.Within s₂) (h' : s₂.Within s₃) :
    s₁.Within s₃ :=
  ⟨h'.tidy, h'.txDepth.trans h.txDepth, h'.ran.trans h.ran⟩

theorem within_rollback (s : Session σ η) : s.Within s.rollback := ⟨fun _ => ⟨rfl, rfl, rfl⟩, rfl, rfl⟩

theorem Session.Tidy.rollbackTo {s : Session σ η} (h : s.Tidy) (name : ℕ) :
    s.Within (s.rollbackTo name) := by
  unfold Session.rollbackTo
  split
  · exact h.refl
  · rename_i p rest hdrop
    refine ⟨fun hout => ?_, rfl, rfl⟩
    rw [(h hout).2.1] at hdrop
    cases hdrop

theorem Session.Tidy.release {s : Session σ η} (h : s.Tidy) (db : Engine σ ω ε) (name : ℕ) :
    s.Within (s.release db name).2 := by
  unfold Session.release
  split
  · exact h.refl
  · rename_i p rest hdrop
    split_ifs
    · cases db.commitRaises s.seen with
      | some e => exact h.refl
      | none => exact ⟨fun _ => ⟨rfl, rfl, rfl⟩, rfl, rfl⟩
    · refine ⟨fun hout => ?_, rfl, rfl⟩
      rw [(h hout).2.1] at hdrop
      cases hdrop

theorem Session.Tidy.safe {s : Session σ η} (h : s.Tidy) {sql : Session σ η → Session σ η}
    (hsql : s.Within (sql s)) : s.Within (s.safe sql) := by
  unfold Session.safe
  split_ifs
  · exact hsql
  · exact h.refl

theorem Session.Tidy.store {s : Session σ η} (h : s.Tidy) (x : σ) : s.Within (s.store x) := by
  unfold Session.store
  split_ifs with hin
  · exact ⟨fun hout => absurd (hin.symm.trans hout) (by decide), rfl, rfl⟩
  · obtain ⟨-, hrest⟩ := h (Bool.eq_false_iff.mpr hin)
    exact ⟨fun _ => ⟨rfl, hrest⟩, rfl, rfl⟩

theorem within_transaction (db : Engine σ ω ε) {s : Session σ η} (hdepth : 0 < s.txDepth)
    {body : Session σ η → Outcome σ η ε α}
    (hbody : s.inner.Within (body s.inner).session) :
    s.Within (transaction db body s).session := by
  have hran : s.inner.ran = s.ran := by
    unfold Session.inner Session.savepoint
    split_ifs <;> rfl
  simp only [Session.inner] at hbody hran
  simp only [transaction, hdepth, true_or, if_true, Nat.ne_of_gt hdepth, if_false]
  generalize body { s.savepoint (s.txDepth + 1) with txDepth := s.txDepth + 1 } = out at hbody ⊢
  rcases out with ⟨result, session⟩
  cases result with
  | error e =>
    simp only at hbody ⊢
    have hback : session.Within (session.safe (·.rollbackTo (s.txDepth + 1))) :=
      hbody.tidy.safe (hbody.tidy.rollbackTo (s.txDepth + 1))
    generalize session.safe (·.rollbackTo (s.txDepth + 1)) = back at hback ⊢
    have hundone : back.Within (back.safe fun s' => (s'.release db (s.txDepth + 1)).2) :=
      hback.tidy.safe (hback.tidy.release db (s.txDepth + 1))
    exact ⟨hundone.tidy, rfl, ((hbody.trans hback).trans hundone).ran.trans hran⟩
  | ok a =>
    have hreleased := hbody.tidy.release db (s.txDepth + 1)
    simp only
    rcases hout : session.release db (s.txDepth + 1) with ⟨_ | e, released⟩
    all_goals
      rw [hout] at hreleased
      exact ⟨hreleased.tidy, rfl, (hbody.trans hreleased).ran.trans hran⟩

theorem within_exec (db : Engine σ ω ε) (p : Prog σ ω η ε α) {s : Session σ η} (hs : s.Tidy)
    (hdepth : 0 < s.txDepth) : s.Within (exec db p s).session := by
  induction p generalizing s with
  | ret a => exact hs.refl
  | raise e => exact hs.refl
  | statement w next ih =>
    simp only [exec]
    cases db.write w s.seen with
    | error e =>
      simp only
      split_ifs
      · exact within_rollback s
      · exact hs.refl
    | ok x =>
      have hstore := hs.store x
      exact hstore.trans (ih x hstore.tidy (hstore.txDepth ▸ hdepth))
  | afterCommit h next ih =>
    have hhook : s.Within (s.afterCommit h) := by
      simp only [Session.afterCommit, hdepth, if_true]
      exact ⟨hs, rfl, rfl⟩
    exact hhook.trans (ih hhook.tidy (hhook.txDepth ▸ hdepth))
  | transaction body next ihbody ih =>
    have hinner : s.inner.Tidy := by
      unfold Session.inner Session.savepoint
      split_ifs with hin
      · exact fun hout => Bool.noConfusion (hin.symm.trans hout)
      · exact fun hout => Bool.noConfusion hout
    have hblock := within_transaction db hdepth (ihbody hinner (Nat.succ_pos s.txDepth))
    simp only [exec]
    cases (transaction db (exec db body) s).result with
    | error e => exact hblock
    | ok a => exact hblock.trans (ih a hblock.tidy (hblock.txDepth ▸ hdepth))
  | attempt body next ihbody ih =>
    have hbody := ihbody hs hdepth
    exact hbody.trans (ih _ hbody.tidy (hbody.txDepth ▸ hdepth))

theorem transaction_closes (db : Engine σ ω ε) (p : Prog σ ω η ε α) (x : σ) (ran : List (η × σ)) :
    ∃ y ran', (transaction db (exec db p) (.idle x ran)).session = .idle y ran' ∧
      ∀ e, (transaction db (exec db p) (.idle x ran)).result = .error e → ran' = ran := by
  have htidy : (Session.opened x ran).Tidy := fun hout => Bool.noConfusion hout
  have hbody := within_exec db p htidy Nat.one_pos
  simp only [transaction, Session.idle, Nat.lt_irrefl, Bool.false_eq_true, or_self, if_false]
  cases db.beginRaises x with
  | some e => exact ⟨x, ran, rfl, fun _ _ => rfl⟩
  | none =>
    simp only
    rw [show ({ (⟨x, x, false, false, [], 0, [], ran⟩ : Session σ η).begin with
      txDepth := 1, hooks := [] } : Session σ η) = .opened x ran from rfl]
    generalize exec db p (.opened x ran) = out at hbody ⊢
    rcases out with ⟨result, session⟩
    simp only at hbody
    have hran : session.ran = ran := hbody.ran
    have hfailed : ({ (session.safe (·.rollback)) with hooks := [], txDepth := 0 } : Session σ η) =
        .idle session.file ran := by
      have hback : session.Within (session.safe (·.rollback)) :=
        hbody.tidy.safe (within_rollback session)
      unfold Session.safe at hback ⊢
      split_ifs with hin
      · simp [Session.rollback, Session.idle, hran]
      · obtain ⟨hseen, hsavepoints, hbegun⟩ := hbody.tidy (Bool.eq_false_iff.mpr hin)
        simp [Session.idle, hran, hseen, hsavepoints, hbegun, Bool.eq_false_iff.mpr hin]
    cases result with
    | error e => exact ⟨session.file, ran, hfailed, fun _ _ => rfl⟩
    | ok a =>
      simp only
      cases session.commitError db with
      | some e => exact ⟨session.file, ran, hfailed, fun _ _ => rfl⟩
      | none =>
        exact ⟨session.seen, ran ++ session.hooks.map fun h => (h, session.seen),
          by simp [Session.commit, Session.runHooks, hran], by simp⟩

theorem transaction_all_or_nothing (db : Engine σ ω ε) (p : Prog σ ω η ε α) (x : σ)
    (ran : List (η × σ)) (hcaught : db.catchesLoss p x = false) :
    let out := transaction db (exec db p) (.idle x ran)
    match out.result with
    | .ok _ => ∃ y, replay db.toSqlite (trace db.toSqlite p x).writes x = .ok y ∧
        out.session = .idle y (ran ++ (trace db.toSqlite p x).hooks.map fun h => (h, y))
    | .error _ => out.session = .idle x ran :=
  allOrNothing_block hcaught ran

def smallDisk : Engine (List ℕ) ℕ String where
  write w x := if w = 9 then .error "database or disk is full" else .ok (x ++ [w])
  takesBack w _ := decide (w = 9)
  lostRaises := some "cannot commit - no transaction is active"

def innerRaises : Prog (List ℕ) ℕ Char String Unit :=
  .attempt (.transaction (.statement 1 fun _ => .afterCommit 'a' (.raise "no")) .ret) fun _ =>
    .statement 2 fun _ => .afterCommit 'b' (.ret ())

/-- An inner block that raises, caught by the outer one, takes its write and its hook with it. -/
theorem inner_taken_back :
    (transaction smallDisk (exec smallDisk innerRaises) (.idle [0] [])).session =
      .idle [0, 2] [('b', [0, 2])] := by
  have hwhole := transaction_all_or_nothing smallDisk innerRaises [0] [] (by decide +kernel)
  have hcompleted : (transaction smallDisk (exec smallDisk innerRaises) (.idle [0] [])).result =
      .ok () := by decide +kernel
  simp only [hcompleted] at hwhole
  obtain ⟨y, hreplay, hsession⟩ := hwhole
  rw [replay_trace] at hreplay
  have hhooks : (trace smallDisk.toSqlite innerRaises [0]).hooks = ['b'] := by decide +kernel
  rw [hsession, hhooks, ← Except.ok.inj hreplay]
  decide +kernel

def innerFull : Prog (List ℕ) ℕ Char String Unit :=
  .statement 1 fun _ =>
    .attempt (.transaction (.statement 9 fun _ => .ret ()) .ret) fun _ =>
      .statement 2 fun _ => .ret ()

/-- The disk is full in an inner block, which the outer one catches: that fails in the end, and what
it wrote after the inner one stays. -/
theorem full_disk_leaves_write :
    let out := transaction smallDisk (exec smallDisk innerFull) (.idle [0] [])
    out.result = .error "cannot commit - no transaction is active" ∧
      out.session = .idle [0, 2] [] := by
  decide +kernel

/-- Every statement that the program may come to satisfies `ok`. -/
def Prog.Only (ok : ω → Prop) : Prog σ ω η ε α → Prop
  | .ret _ => True
  | .raise _ => True
  | .statement w next => ok w ∧ ∀ x, (next x).Only ok
  | .afterCommit _ next => next.Only ok
  | .transaction body next => body.Only ok ∧ ∀ a, (next a).Only ok
  | .attempt body next => body.Only ok ∧ ∀ r, (next r).Only ok

theorem eval_only {db : Sqlite σ ω ε} {I : σ → Prop} {ok : ω → Prop}
    (hwrite : ∀ w x y, ok w → I x → db.write w x = .ok y → I y) {p : Prog σ ω η ε α}
    (hp : p.Only ok) {x : σ} (hx : I x) : I (eval db p x).2 := by
  induction p generalizing x with
  | ret a => exact hx
  | raise e => exact hx
  | statement w next ih =>
    simp only [eval]
    cases hw : db.write w x with
    | error e => exact hx
    | ok y => exact ih y (hp.2 y) (hwrite w x y hp.1 hx hw)
  | afterCommit h next ih => exact ih hp hx
  | transaction body next ihbody ih =>
    have hbody := ihbody hp.1 hx
    simp only [eval]
    generalize eval db body x = out at hbody ⊢
    rcases out with ⟨_ | a, y⟩
    · exact hx
    · exact ih a (hp.2 a) hbody
  | attempt body next ihbody ih => exact ih _ (hp.2 _) (ihbody hp.1 hx)

/-- A block at the outside of a thread that rests on contents `x`. -/
def block (db : Sqlite σ ω ε) (p : Prog σ ω η ε α) (x : σ) : Except ε α × σ :=
  let out := transaction db.engine (exec db.engine p) (.idle x [])
  (out.result, out.session.file)

theorem block_eq (db : Sqlite σ ω ε) (p : Prog σ ω η ε α) (x : σ) :
    block db p x =
      match db.beginRaises x with
      | some e => (.error e, x)
      | none =>
        match (eval db p x).1 with
        | .error e => (.error e, x)
        | .ok a =>
          match db.commitRaises (eval db p x).2 with
          | some e => (.error e, x)
          | none => (.ok a, (eval db p x).2) := by
  unfold block
  rw [transaction_kept db.engine p x [] (loses_engine db p x), Sqlite.engine_toSqlite]
  cases db.beginRaises x with
  | some e => rfl
  | none =>
    rcases eval db p x with ⟨_ | a, y⟩
    · rfl
    · simp only
      cases db.commitRaises y with
      | some e => rfl
      | none => rfl

theorem block_cases (db : Sqlite σ ω ε) (p : Prog σ ω η ε α) (x : σ) :
    (∃ e, block db p x = (.error e, x)) ∨ ∃ a y, eval db p x = (.ok a, y) ∧
      block db p x = (.ok a, y) := by
  rw [block_eq]
  cases db.beginRaises x with
  | some e => exact .inl ⟨e, rfl⟩
  | none =>
    rcases eval db p x with ⟨e | a, y⟩
    · exact .inl ⟨e, rfl⟩
    · simp only
      cases db.commitRaises y with
      | some e => exact .inl ⟨e, rfl⟩
      | none => exact .inr ⟨a, y, rfl, rfl⟩

theorem block_of_eval {db : Sqlite σ ω ε} {p : Prog σ ω η ε α} {x y : σ} {a : α}
    (hbegin : db.beginRaises x = none) (heval : eval db p x = (.ok a, y))
    (hcommit : db.commitRaises y = none) : block db p x = (.ok a, y) := by
  simp only [block_eq, hbegin, heval, hcommit]

theorem block_of_eval_error {db : Sqlite σ ω ε} {p : Prog σ ω η ε α} {x : σ} {e : ε}
    (hbegin : db.beginRaises x = none) (heval : (eval db p x).1 = .error e) :
    block db p x = (.error e, x) := by
  simp only [block_eq, hbegin, heval]

theorem block_error {db : Sqlite σ ω ε} {p : Prog σ ω η ε α} {x y : σ} {e : ε}
    (h : block db p x = (.error e, y)) :
    db.beginRaises x = some e ∨ (eval db p x).1 = .error e ∨ ∃ z, db.commitRaises z = some e := by
  rw [block_eq] at h
  cases hbegin : db.beginRaises x with
  | some e' =>
    simp only [hbegin, Prod.mk.injEq, Except.error.injEq] at h
    exact .inl (congrArg some h.1)
  | none =>
    refine .inr ?_
    simp only [hbegin] at h
    generalize eval db p x = out at h ⊢
    rcases out with ⟨e' | a, z⟩
    · simp only [Prod.mk.injEq, Except.error.injEq] at h
      exact .inl (congrArg Except.error h.1)
    · cases hcommit : db.commitRaises z with
      | some e' =>
        simp only [hcommit, Prod.mk.injEq, Except.error.injEq] at h
        exact .inr ⟨z, h.1 ▸ hcommit⟩
      | none => simp [hcommit] at h

def perform (db : Sqlite σ ω ε) (p : Prog σ ω η ε α) (x : σ) : Except ε α × σ :=
  let out := exec db.engine p (.idle x [])
  (out.result, out.session.file)

theorem perform_transaction (db : Sqlite σ ω ε) (p : Prog σ ω η ε α) (x : σ) :
    perform db (.transaction p .ret) x = block db p x := by
  simp only [perform, block, exec]
  generalize transaction db.engine (exec db.engine p) (.idle x []) = out
  rcases out with ⟨result, session⟩
  cases result <;> rfl

section
variable {db : Sqlite σ ω ε} {x y : σ} {a : α}

theorem eval_statement {w : ω} {next : σ → Prog σ ω η ε α}
    (h : eval db (.statement w next) x = (.ok a, y)) :
    ∃ z, db.write w x = .ok z ∧ eval db (next z) z = (.ok a, y) := by
  simp only [eval] at h
  cases hw : db.write w x with
  | error e =>
    rw [hw] at h
    cases h
  | ok z =>
    rw [hw] at h
    exact ⟨z, rfl, h⟩

theorem eval_each {ws : List ω} {next : Prog σ ω η ε α}
    (h : eval db (.each ws next) x = (.ok a, y)) :
    ∃ z, replay db ws x = .ok z ∧ eval db next z = (.ok a, y) := by
  induction ws generalizing x with
  | nil => exact ⟨x, rfl, h⟩
  | cons w ws ih =>
    obtain ⟨z, hwrite, hrest⟩ := eval_statement h
    obtain ⟨z', hreplay, hnext⟩ := ih hrest
    refine ⟨z', ?_, hnext⟩
    rw [replay, hwrite]
    exact hreplay

theorem eval_transaction {body : Prog σ ω η ε α} {next : α → Prog σ ω η ε α}
    (h : eval db (.transaction body next) x = (.ok a, y)) :
    ∃ a' z, eval db body x = (.ok a', z) ∧ eval db (next a') z = (.ok a, y) := by
  simp only [eval] at h
  rcases heval : eval db body x with ⟨result, z⟩
  rw [heval] at h
  cases result with
  | error e => cases h
  | ok a' => exact ⟨a', z, rfl, h⟩

end

end RadiusModule.Connection
