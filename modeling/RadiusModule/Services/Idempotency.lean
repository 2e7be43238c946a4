import RadiusModule.Library.Json
import RadiusModule.Library.Run
import RadiusModule.Library.Table
import Mathlib.Logic.Function.Basic

/-!
# Idempotency keys

A key is reserved by a pending row before the action runs, kept with the
response when it succeeds, and released when it fails. Clients run `claim`, the
action and `finish` or `release` in any order of their steps; over every such
run a key is held by one client at most, and answered from its row for good
once its action has succeeded.
-/

namespace RadiusModule.Idempotency
open Library

inductive State
  | pending
  | done
deriving DecidableEq

structure Fingerprint where
  text : String
  nonempty : text ≠ ""
deriving DecidableEq

/-- A row of `api_idempotency_keys`. `createdAt` is in microseconds. -/
structure KeyRow where
  id : ℕ
  tenantId : ℤ
  idemKey : String
  scope : String
  state : State
  statusCode : Option ℤ
  responseJson : Option String
  createdAt : ℤ
  requestHash : String
deriving DecidableEq

abbrev Keys := Table KeyRow KeyRow.id

def ttlHours : ℤ := 24

def ttl : ℤ := ttlHours * 3600 * 1000000

def tenantOr (tenantId : ℤ) : ℤ := if tenantId = 0 then 1 else tenantId

def ofKey (tenantId : ℤ) (key : String) (r : KeyRow) : Bool :=
  r.tenantId = tenantId && r.idemKey = key

def ofScope (tenantId : ℤ) (key scope : String) (r : KeyRow) : Bool :=
  ofKey tenantId key r && r.scope = scope

inductive Claimed
  | claimed
  | replay (statusCode : Option ℤ) (responseJson : Option String)
  | inProgress
  | mismatch
deriving DecidableEq

def mismatches (scope requestHash : String) (r : KeyRow) : Bool :=
  r.scope ≠ scope || (r.requestHash ≠ "" && r.requestHash ≠ requestHash)

def sweep (t : Keys) (now : ℤ) : Keys := t.delete fun r => r.createdAt < now - ttl

def reserve (t : Keys) (now tenantId : ℤ) (key scope requestHash : String) : Keys :=
  t.insert (fun id => ⟨id, tenantId, key, scope, .pending, none, none, now, requestHash⟩) fun _ =>
    rfl

/-- `claim`. A return inside the block commits, the sweep included. -/
def claim (t : Keys) (now tenantId : ℤ) (key scope : String) (requestHash : Fingerprint) :
    Claimed × Keys :=
  let tid := tenantOr tenantId
  let t := sweep t now
  let rows := t.select (ofKey tid key)
  if rows.any (mismatches scope requestHash.text) then (.mismatch, t)
  else
    match rows with
    | row :: _ =>
      match row.state with
      | .done => (.replay row.statusCode row.responseJson, t)
      | .pending => (.inProgress, t)
    | [] =>
      -- UNIQUE(tenant_id, idem_key, scope)
      if t.rows.any (ofScope tid key scope) then (.inProgress, t)
      else (.claimed, reserve t now tid key scope requestHash.text)

def release (t : Keys) (tenantId : ℤ) (key scope : String) : Keys :=
  t.delete fun r => ofScope (tenantOr tenantId) key scope r && r.state = .pending

def KeyRow.withResponse (statusCode : ℤ) (responseText : String) (r : KeyRow) : KeyRow :=
  { r with state := .done, statusCode := some statusCode, responseJson := some responseText }

def save (t : Keys) (tenantId : ℤ) (key scope : String) (statusCode : ℤ) (responseText : String) :
    Keys :=
  t.update (ofScope (tenantOr tenantId) key scope) (.withResponse statusCode responseText)
    fun _ => rfl

inductive Phase
  | idle
  | executing (tenantId : ℤ) (key scope : String) (requestHash : Fingerprint)
  | answered (outcome : Claimed)
  | ended
deriving DecidableEq

structure World where
  keys : Keys
  phase : ℕ → Phase

def World.setPhase (w : World) (c : ℕ) (p : Phase) : World :=
  { w with phase := Function.update w.phase c p }

/-- Steps of client `c`. A `finish` whose UPDATE raises (`saved = false`) stores no response and
releases instead, and a `release` whose DELETE raises (`deleted = false`) leaves the row. -/
inductive Event
  | claim (c : ℕ) (now tenantId : ℤ) (key scope : String) (requestHash : Fingerprint)
  | finish (c : ℕ) (statusCode : ℤ) (responseText : String) (saved : Bool) (deleted : Bool)
  | release (c : ℕ) (deleted : Bool)

def step (w : World) : Event → World
  | .claim c now tenantId key scope requestHash =>
    match w.phase c with
    | .idle =>
      match claim w.keys now tenantId key scope requestHash with
      | (.claimed, keys) =>
        { w with keys }.setPhase c (.executing tenantId key scope requestHash)
      | (outcome, keys) => { w with keys }.setPhase c (.answered outcome)
    | _ => w
  | .finish c statusCode responseText saved deleted =>
    match w.phase c with
    | .executing tenantId key scope _ =>
      if saved then
        { w with keys := save w.keys tenantId key scope statusCode responseText }.setPhase c .ended
      else if deleted then { w with keys := release w.keys tenantId key scope }.setPhase c .ended
      else w.setPhase c .ended
    | _ => w
  | .release c deleted =>
    match w.phase c with
    | .executing tenantId key scope _ =>
      if deleted then { w with keys := release w.keys tenantId key scope }.setPhase c .ended
      else w.setPhase c .ended
    | _ => w

theorem ofKey_of_ofScope {tenantId : ℤ} {key scope : String} {r : KeyRow}
    (h : ofScope tenantId key scope r = true) : ofKey tenantId key r = true :=
  (Bool.and_eq_true_iff.mp h).1

section claim
variable {t : Keys} {now tenantId : ℤ} {key scope : String} {requestHash : Fingerprint}

theorem claim_of_no_row (h : (sweep t now).select (ofKey (tenantOr tenantId) key) = []) :
    claim t now tenantId key scope requestHash =
      (.claimed, reserve (sweep t now) now (tenantOr tenantId) key scope requestHash.text) := by
  have hunique : (sweep t now).rows.any (ofScope (tenantOr tenantId) key scope) = false := by
    refine List.any_eq_false.mpr fun r hr hscope => ?_
    have hmem : r ∈ (sweep t now).select (ofKey (tenantOr tenantId) key) :=
      Table.mem_select.mpr ⟨hr, ofKey_of_ofScope hscope⟩
    rw [h] at hmem
    cases hmem
  simp only [claim, h, hunique, List.any_nil, Bool.false_eq_true, if_false]

def answer (r : KeyRow) (scope : String) (requestHash : Fingerprint) : Claimed :=
  if mismatches scope requestHash.text r then .mismatch
  else match r.state with
    | .done => .replay r.statusCode r.responseJson
    | .pending => .inProgress

theorem claim_of_row {r : KeyRow}
    (h : (sweep t now).select (ofKey (tenantOr tenantId) key) = [r]) :
    claim t now tenantId key scope requestHash = (answer r scope requestHash, sweep t now) := by
  simp only [claim, h, answer, List.any_cons, List.any_nil, Bool.or_false]
  cases r.state <;> split_ifs <;> rfl

theorem claim_snd (t : Keys) (now tenantId : ℤ) (key scope : String) (requestHash : Fingerprint) :
    (claim t now tenantId key scope requestHash).2 = sweep t now ∨
      (claim t now tenantId key scope requestHash).2 =
        reserve (sweep t now) now (tenantOr tenantId) key scope requestHash.text := by
  simp only [claim]
  split
  · exact .inl rfl
  · split
    · split <;> exact .inl rfl
    · split
      · exact .inl rfl
      · exact .inr rfl

end claim

/-- The steps of a run fall within the retention of what it stores from `t₀` on. -/
def Event.Within (t₀ : ℤ) : Event → Prop
  | .claim _ now _ _ _ _ => t₀ ≤ now ∧ now ≤ t₀ + ttl
  | _ => True

section
variable (tid : ℤ) (key : String)

def World.rowsOf (w : World) : List KeyRow := w.keys.select (ofKey tid key)

def Phase.OfKey : Phase → Prop
  | .executing tenantId key' _ _ => tenantOr tenantId = tid ∧ key' = key
  | _ => False

def World.Executing (w : World) (c : ℕ) : Prop := (w.phase c).OfKey tid key

structure Inv (t₀ : ℤ) (w : World) : Prop where
  young : ∀ r ∈ w.rowsOf tid key, t₀ ≤ r.createdAt
  single : w.rowsOf tid key = [] ∨ ∃ r, w.rowsOf tid key = [r]
  holder : ∀ c tenantId scope requestHash, w.phase c = .executing tenantId key scope requestHash →
    tenantOr tenantId = tid → ∃ r, w.rowsOf tid key = [r] ∧ r.state = .pending ∧
      r.scope = scope ∧ r.requestHash = requestHash.text
  alone : ∀ c c', w.Executing tid key c → w.Executing tid key c' → c = c'

structure Stored (t₀ : ℤ) (scope : String) (requestHash : Fingerprint) (statusCode : ℤ)
    (responseText : String) (w : World) : Prop where
  row : ∃ r, w.rowsOf tid key = [r] ∧ r.state = .done ∧ r.scope = scope ∧
    r.requestHash = requestHash.text ∧ r.statusCode = some statusCode ∧
    r.responseJson = some responseText ∧ t₀ ≤ r.createdAt
  nobody : ∀ c, ¬w.Executing tid key c

end

section
variable {tid : ℤ} {key : String} {t₀ : ℤ} {w : World}

theorem select_sweep {t : Keys} {now : ℤ} {q : KeyRow → Bool}
    (hyoung : ∀ r ∈ t.select q, t₀ ≤ r.createdAt) (hnow : now ≤ t₀ + ttl) :
    (sweep t now).select q = t.select q := by
  refine Table.select_delete_of_disjoint _ _ _ fun r hr => ?_
  have hr := hyoung r hr
  simp only [decide_eq_false_iff_not, not_lt]
  omega

theorem rowsOf_claim (hyoung : ∀ r ∈ w.rowsOf tid key, t₀ ≤ r.createdAt) {now : ℤ}
    (hnow : now ≤ t₀ + ttl) (tenantId : ℤ) (key' scope : String) (requestHash : Fingerprint)
    (hother : ¬(tenantOr tenantId = tid ∧ key' = key)) :
    (claim w.keys now tenantId key' scope requestHash).2.select (ofKey tid key) =
      w.rowsOf tid key := by
  have hswept : (sweep w.keys now).select (ofKey tid key) = w.rowsOf tid key :=
    select_sweep hyoung hnow
  rcases claim_snd w.keys now tenantId key' scope requestHash with hsame | hadds
  · rw [hsame, hswept]
  · rw [hadds, reserve, Table.select_insert, if_neg, List.append_nil, hswept]
    simpa [ofKey] using hother

theorem executing_setPhase_of_ne {c c' : ℕ} (p : Phase) (hc : c' ≠ c) :
    (w.setPhase c p).Executing tid key c' ↔ w.Executing tid key c' := by
  simp only [World.Executing, World.setPhase, ne_eq, hc, not_false_eq_true, Function.update_of_ne]

theorem executing_setPhase_self {c : ℕ} (p : Phase) :
    (w.setPhase c p).Executing tid key c ↔ p.OfKey tid key := by
  simp only [World.Executing, World.setPhase, Function.update_self]

theorem rowsOf_setPhase (keys : Keys) (c : ℕ) (p : Phase) :
    ({ w with keys }.setPhase c p).rowsOf tid key = keys.select (ofKey tid key) := rfl

theorem Inv.other (h : Inv tid key t₀ w) {keys : Keys} {c : ℕ} {p : Phase}
    (hrows : keys.select (ofKey tid key) = w.rowsOf tid key) (hp : ¬p.OfKey tid key) :
    Inv tid key t₀ ({ w with keys }.setPhase c p) where
  young := fun r hr => h.young r (hrows ▸ hr)
  single := by
    rw [rowsOf_setPhase, hrows]
    exact h.single
  holder c' tenantId scope requestHash hphase htid := by
    by_cases hc : c' = c
    · subst hc
      simp only [World.setPhase, Function.update_self] at hphase
      exact absurd (hphase ▸ ⟨htid, rfl⟩) hp
    · simp only [World.setPhase, ne_eq, hc, not_false_eq_true, Function.update_of_ne] at hphase
      obtain ⟨r, hr, hrest⟩ := h.holder c' tenantId scope requestHash hphase htid
      exact ⟨r, hrows.trans hr, hrest⟩
  alone c₁ c₂ h₁ h₂ := by
    have hbefore : ∀ c', ({ w with keys }.setPhase c p).Executing tid key c' →
        w.Executing tid key c' := by
      intro c' hc'
      by_cases hc : c' = c
      · subst hc
        exact absurd ((executing_setPhase_self p).mp hc') hp
      · exact (executing_setPhase_of_ne p hc).mp hc'
    exact h.alone c₁ c₂ (hbefore c₁ h₁) (hbefore c₂ h₂)

theorem Inv.nobody (h : Inv tid key t₀ w) {c : ℕ} (hc : w.Executing tid key c) (keys : Keys) :
    ∀ c', ¬({ w with keys }.setPhase c .ended).Executing tid key c' := by
  intro c' hc'
  by_cases hsame : c' = c
  · subst hsame
    exact (executing_setPhase_self (.ended)).mp hc'
  · exact hsame (h.alone c' c ((executing_setPhase_of_ne _ hsame).mp hc') hc)

theorem Inv.giveUp (h : Inv tid key t₀ w) {c : ℕ} (hc : w.Executing tid key c) {keys : Keys}
    (hkeys : keys.select (ofKey tid key) = [] ∨
      ∃ r, keys.select (ofKey tid key) = [r] ∧ t₀ ≤ r.createdAt) :
    Inv tid key t₀ ({ w with keys }.setPhase c .ended) where
  young r hr := by
    rw [rowsOf_setPhase] at hr
    rcases hkeys with hnone | ⟨r', hrow, hyoung⟩
    · rw [hnone] at hr
      cases hr
    · rw [hrow] at hr
      rwa [List.mem_singleton.mp hr]
  single := hkeys.imp_right fun ⟨r, hrow, _⟩ => ⟨r, hrow⟩
  holder c' _ _ _ hphase htid := by
    refine absurd ?_ (h.nobody hc keys c')
    rw [World.Executing, hphase]
    exact ⟨htid, rfl⟩
  alone c' _ hc' := absurd hc' (h.nobody hc keys c')

theorem select_save_other {t : Keys} {tenantId : ℤ} {key' scope : String} {statusCode : ℤ}
    {responseText : String} (hother : ¬(tenantOr tenantId = tid ∧ key' = key)) :
    (save t tenantId key' scope statusCode responseText).select (ofKey tid key) =
      t.select (ofKey tid key) := by
  refine Table.select_update_of_disjoint _ _ _ _ _ (fun _ => rfl) fun r hr => ?_
  refine Bool.eq_false_iff.mpr fun hscope => hother ?_
  have hkey := ofKey_of_ofScope hscope
  simp only [ofKey, Bool.and_eq_true, decide_eq_true_eq] at hr hkey
  exact ⟨hkey.1.symm.trans hr.1, hkey.2.symm.trans hr.2⟩

theorem select_release_other {t : Keys} {tenantId : ℤ} {key' scope : String}
    (hother : ¬(tenantOr tenantId = tid ∧ key' = key)) :
    (release t tenantId key' scope).select (ofKey tid key) = t.select (ofKey tid key) := by
  refine Table.select_delete_of_disjoint _ _ _ fun r hr => ?_
  refine Bool.eq_false_iff.mpr fun hrow => hother ?_
  have hkey := ofKey_of_ofScope (Bool.and_eq_true_iff.mp hrow).1
  have hr := (Table.mem_select.mp hr).2
  simp only [ofKey, Bool.and_eq_true, decide_eq_true_eq] at hr hkey
  exact ⟨hkey.1.symm.trans hr.1, hkey.2.symm.trans hr.2⟩

theorem ofScope_row {t : Keys} {r : KeyRow} (h : t.select (ofKey tid key) = [r]) :
    ofScope tid key r.scope r = true := by
  have hr : r ∈ t.select (ofKey tid key) := h ▸ List.mem_singleton_self r
  simp [ofScope, (Table.mem_select.mp hr).2]

theorem select_save_self {t : Keys} {r : KeyRow} (h : t.select (ofKey tid key) = [r])
    {tenantId : ℤ} (htid : tenantOr tenantId = tid) (statusCode : ℤ) (responseText : String) :
    (save t tenantId key r.scope statusCode responseText).select (ofKey tid key) =
      [r.withResponse statusCode responseText] := by
  have hrow := ofScope_row h
  have hupdate := Table.select_update t (ofScope tid key r.scope)
    (.withResponse statusCode responseText) (fun _ => rfl) (ofKey tid key) fun _ => rfl
  rw [save, htid, hupdate, h]
  simp only [List.map_cons, List.map_nil, hrow, if_true]

theorem select_release_self {t : Keys} {r : KeyRow} (h : t.select (ofKey tid key) = [r])
    {tenantId : ℤ} (htid : tenantOr tenantId = tid) (hpending : r.state = .pending) :
    (release t tenantId key r.scope).select (ofKey tid key) = [] := by
  have hrow := ofScope_row h
  rw [release, htid, Table.select_delete, h]
  simp [hrow, hpending]

theorem answer_ne_claimed (r : KeyRow) (scope : String) (requestHash : Fingerprint) :
    answer r scope requestHash ≠ Claimed.claimed := by
  unfold answer
  cases r.state <;> split_ifs <;> exact Claimed.noConfusion

theorem step_claim {c : ℕ} {now tenantId : ℤ} {key' scope : String} {requestHash : Fingerprint}
    (hidle : w.phase c = .idle) :
    step w (.claim c now tenantId key' scope requestHash) =
      { w with keys := (claim w.keys now tenantId key' scope requestHash).2 }.setPhase c
        (if (claim w.keys now tenantId key' scope requestHash).1 = Claimed.claimed then
          .executing tenantId key' scope requestHash
        else .answered (claim w.keys now tenantId key' scope requestHash).1) := by
  simp only [step, hidle]
  generalize claim w.keys now tenantId key' scope requestHash = out
  rcases out with ⟨outcome, keys⟩
  cases outcome <;> rfl

theorem Inv.claim (h : Inv tid key t₀ w) {c : ℕ} {now tenantId : ℤ} {key' scope : String}
    {requestHash : Fingerprint} (hlow : t₀ ≤ now) (hnow : now ≤ t₀ + ttl) :
    Inv tid key t₀ (step w (.claim c now tenantId key' scope requestHash)) := by
  by_cases hidle : w.phase c = .idle
  swap
  · have hsame : step w (.claim c now tenantId key' scope requestHash) = w := by
      simp only [step]
    rw [hsame]
    exact h
  rw [step_claim hidle]
  by_cases hown : tenantOr tenantId = tid ∧ key' = key
  · obtain ⟨rfl, rfl⟩ := hown
    have hswept : (sweep w.keys now).select (ofKey (tenantOr tenantId) key') =
        w.rowsOf (tenantOr tenantId) key' := select_sweep h.young hnow
    rcases h.single with hrows | ⟨r, hrows⟩
    · rw [claim_of_no_row (hswept.trans hrows), if_pos rfl]
      have hnobody : ∀ c', ¬w.Executing (tenantOr tenantId) key' c' := by
        intro c' hc'
        unfold World.Executing at hc'
        cases hphase : w.phase c' with
        | executing tenantId' key'' scope' requestHash' =>
          rw [hphase] at hc'
          obtain ⟨htid, rfl⟩ := hc'
          obtain ⟨r, hr, -⟩ := h.holder c' tenantId' scope' requestHash' hphase htid
          rw [hrows] at hr
          cases hr
        | idle => exact (hphase ▸ hc' : Phase.OfKey _ _ .idle)
        | answered outcome => exact (hphase ▸ hc' : Phase.OfKey _ _ (.answered outcome))
        | ended => exact (hphase ▸ hc' : Phase.OfKey _ _ .ended)
      have hnew : (reserve (sweep w.keys now) now (tenantOr tenantId) key' scope
          requestHash.text).select (ofKey (tenantOr tenantId) key') =
          [⟨(sweep w.keys now).next, tenantOr tenantId, key', scope, .pending, none, none, now,
            requestHash.text⟩] := by
        rw [reserve, Table.select_insert, hswept, hrows, if_pos (by simp [ofKey])]
        rfl
      generalize reserve (sweep w.keys now) now (tenantOr tenantId) key' scope requestHash.text =
        keys at hnew ⊢
      have honly : ∀ c', ({ w with keys }.setPhase c (.executing tenantId key' scope
          requestHash)).Executing (tenantOr tenantId) key' c' → c' = c := by
        intro c' hc'
        by_contra hc
        exact hnobody c' ((executing_setPhase_of_ne _ hc).mp hc')
      refine ⟨?_, .inr ⟨_, hnew⟩, ?_, ?_⟩
      · intro r hr
        rw [World.rowsOf, World.setPhase, hnew] at hr
        rw [List.mem_singleton.mp hr]
        exact hlow
      · intro c' tenantId' scope' requestHash' hphase htid
        have hc : c' = c := by
          refine honly c' ?_
          rw [World.Executing, hphase]
          exact ⟨htid, rfl⟩
        subst hc
        simp only [World.setPhase, Function.update_self, Phase.executing.injEq] at hphase
        obtain ⟨-, -, rfl, rfl⟩ := hphase
        exact ⟨_, hnew, rfl, rfl, rfl⟩
      · intro c₁ c₂ h₁ h₂
        rw [honly c₁ h₁, honly c₂ h₂]
    · rw [claim_of_row (hswept.trans hrows), if_neg (answer_ne_claimed _ _ _)]
      exact h.other hswept id
  · refine h.other (rowsOf_claim h.young hnow _ _ _ _ hown) ?_
    split_ifs
    · exact hown
    · exact id

theorem Inv.finish (h : Inv tid key t₀ w) (c : ℕ) (statusCode : ℤ) (responseText : String)
    (saved deleted : Bool) :
    Inv tid key t₀ (step w (.finish c statusCode responseText saved deleted)) := by
  simp only [step]
  cases hphase : w.phase c with
  | idle => exact h
  | answered outcome => exact h
  | ended => exact h
  | executing tenantId key' scope requestHash =>
    dsimp only
    by_cases hown : tenantOr tenantId = tid ∧ key' = key
    · obtain ⟨htid, rfl⟩ := hown
      obtain ⟨r, hrow, hpending, rfl, -⟩ := h.holder c tenantId scope requestHash hphase htid
      have hc : w.Executing tid key' c := by
        rw [World.Executing, hphase]
        exact ⟨htid, rfl⟩
      have hyoung : t₀ ≤ r.createdAt := h.young r (hrow ▸ List.mem_singleton_self r)
      split_ifs
      · exact h.giveUp hc (.inr ⟨_, select_save_self hrow htid statusCode responseText, hyoung⟩)
      · exact h.giveUp hc (.inl (select_release_self hrow htid hpending))
      · exact h.giveUp hc (.inr ⟨r, hrow, hyoung⟩)
    · split_ifs
      · exact h.other (select_save_other hown) id
      · exact h.other (select_release_other hown) id
      · exact h.other rfl id

theorem step_release (c : ℕ) (deleted : Bool) :
    step w (.release c deleted) = step w (.finish c 0 "" false deleted) := rfl

theorem Inv.step (h : Inv tid key t₀ w) {e : Event} (he : e.Within t₀) :
    Inv tid key t₀ (step w e) := by
  cases e with
  | claim c now tenantId key' scope requestHash => exact h.claim he.1 he.2
  | finish c statusCode responseText saved deleted => exact h.finish c _ _ saved deleted
  | release c deleted => exact step_release c deleted ▸ h.finish c 0 "" false deleted

theorem World.executing_of_phase {c : ℕ} {tenantId : ℤ} {scope : String}
    {requestHash : Fingerprint} (hphase : w.phase c = .executing tenantId key scope requestHash)
    (htid : tenantOr tenantId = tid) : w.Executing tid key c := by
  rw [World.Executing, hphase]
  exact ⟨htid, rfl⟩

section stored
variable {scope : String} {requestHash : Fingerprint} {statusCode : ℤ} {responseText : String}

theorem Inv.stored (h : Inv tid key t₀ w) {c : ℕ} {tenantId : ℤ}
    (hphase : w.phase c = .executing tenantId key scope requestHash)
    (htid : tenantOr tenantId = tid) (deleted : Bool) :
    Stored tid key t₀ scope requestHash statusCode responseText
      (Idempotency.step w (.finish c statusCode responseText true deleted)) := by
  obtain ⟨r, hrow, -, rfl, hhash⟩ := h.holder c tenantId scope requestHash hphase htid
  have hyoung : t₀ ≤ r.createdAt := h.young r (hrow ▸ List.mem_singleton_self r)
  simp only [Idempotency.step, hphase, if_true]
  exact ⟨⟨_, select_save_self hrow htid statusCode responseText, rfl, rfl, hhash, rfl, rfl,
    hyoung⟩, h.nobody (World.executing_of_phase hphase htid) _⟩

theorem Stored.other (h : Stored tid key t₀ scope requestHash statusCode responseText w)
    {keys : Keys} {c : ℕ} {p : Phase}
    (hrows : keys.select (ofKey tid key) = w.rowsOf tid key) (hp : ¬p.OfKey tid key) :
    Stored tid key t₀ scope requestHash statusCode responseText
      ({ w with keys }.setPhase c p) where
  row := by
    rw [rowsOf_setPhase, hrows]
    exact h.row
  nobody c' hc' := by
    by_cases hc : c' = c
    · subst hc
      exact hp ((executing_setPhase_self p).mp hc')
    · exact h.nobody c' ((executing_setPhase_of_ne p hc).mp hc')

theorem Stored.young (h : Stored tid key t₀ scope requestHash statusCode responseText w) :
    ∀ r ∈ w.rowsOf tid key, t₀ ≤ r.createdAt := by
  obtain ⟨r, hrow, -, -, -, -, -, hyoung⟩ := h.row
  intro r' hr'
  rw [hrow] at hr'
  rwa [List.mem_singleton.mp hr']

theorem Stored.claim (h : Stored tid key t₀ scope requestHash statusCode responseText w)
    {now tenantId : ℤ} (htid : tenantOr tenantId = tid) (hnow : now ≤ t₀ + ttl)
    (scope' : String) (requestHash' : Fingerprint) :
    Idempotency.claim w.keys now tenantId key scope' requestHash' =
      (if scope' = scope ∧ requestHash' = requestHash then
        .replay (some statusCode) (some responseText) else .mismatch, sweep w.keys now) := by
  have hswept := select_sweep h.young hnow
  obtain ⟨r, hrow, hdone, rfl, hhash, hstatus, hresponse, -⟩ := h.row
  subst htid
  rw [claim_of_row (hswept.trans hrow)]
  congr 1
  have hsame : requestHash' = requestHash ↔ r.requestHash = requestHash'.text := by
    rw [hhash]
    constructor
    · exact fun heq => heq ▸ rfl
    · intro heq
      cases requestHash
      cases requestHash'
      simp_all
  have hblank : r.requestHash ≠ "" := hhash ▸ requestHash.nonempty
  simp only [answer, mismatches, hdone, hstatus, hresponse, hsame, eq_comm (a := scope')]
  by_cases hscope : r.scope = scope' <;> by_cases heq : r.requestHash = requestHash'.text <;>
    simp [hscope, heq, hblank, requestHash'.nonempty]

theorem Stored.step (h : Stored tid key t₀ scope requestHash statusCode responseText w)
    {e : Event} (he : e.Within t₀) :
    Stored tid key t₀ scope requestHash statusCode responseText (step w e) := by
  have hfinish : ∀ c status text saved deleted, Stored tid key t₀ scope requestHash statusCode
      responseText (Idempotency.step w (.finish c status text saved deleted)) := by
    intro c status text saved deleted
    simp only [Idempotency.step]
    cases hphase : w.phase c with
    | idle => exact h
    | answered outcome => exact h
    | ended => exact h
    | executing tenantId key' scope' requestHash' =>
      have hother : ¬(tenantOr tenantId = tid ∧ key' = key) := by
        rintro ⟨htid, rfl⟩
        exact h.nobody c (World.executing_of_phase hphase htid)
      dsimp only
      split_ifs
      · exact h.other (select_save_other hother) id
      · exact h.other (select_release_other hother) id
      · exact h.other rfl id
  cases e with
  | finish c status text saved deleted => exact hfinish c status text saved deleted
  | release c deleted => exact step_release c deleted ▸ hfinish c 0 "" false deleted
  | claim c now tenantId key' scope' requestHash' =>
    by_cases hidle : w.phase c = .idle
    · rw [step_claim hidle]
      by_cases hown : tenantOr tenantId = tid ∧ key' = key
      · obtain ⟨htid, rfl⟩ := hown
        have hanswer : (if scope' = scope ∧ requestHash' = requestHash then
            Claimed.replay (some statusCode) (some responseText) else .mismatch) ≠ .claimed := by
          split_ifs <;> exact Claimed.noConfusion
        rw [h.claim htid he.2, if_neg hanswer]
        exact h.other (select_sweep h.young he.2) id
      · refine h.other (rowsOf_claim h.young he.2 _ _ _ _ hown) ?_
        split_ifs
        · exact hown
        · exact id
    · have hsame : Idempotency.step w (.claim c now tenantId key' scope' requestHash') = w := by
        simp only [Idempotency.step]
      rw [hsame]
      exact h

end stored

theorem Inv.released (h : Inv tid key t₀ w) {c : ℕ} {tenantId : ℤ} {scope : String}
    {requestHash : Fingerprint}
    (hphase : w.phase c = .executing tenantId key scope requestHash)
    (htid : tenantOr tenantId = tid) :
    (Idempotency.step w (.release c true)).rowsOf tid key = [] := by
  obtain ⟨r, hrow, hpending, rfl, -⟩ := h.holder c tenantId scope requestHash hphase htid
  simp only [Idempotency.step, hphase, if_true]
  exact select_release_self hrow htid hpending

end

end RadiusModule.Idempotency
