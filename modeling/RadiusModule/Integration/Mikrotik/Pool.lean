import Mathlib.Algebra.Order.Group.Int
import Mathlib.Algebra.Order.Monoid.Defs
import Mathlib.Data.List.Basic
import RadiusModule.Library.Run
import RadiusModule.Library.Tasks

/-!
# Connections to a router that may be down

Threads share one connection to a router, under the lock of its entry, and a breaker that says for a
while after a failure of the network that the router is not to be dialled. A thread asks the breaker
before it waits for the lock and again before it dials. An error that `connect` does not translate
leaves a client without a connection behind. The diagnostics dial on their own, without the lock, and
tell the breaker what they found.
-/

namespace RadiusModule.Mikrotik.Pool
open Library Tasks

variable {τ : Type*}

inductive Entry (τ : Type*)
  | dial (now : τ)
  | failure (now : τ)
  | success

structure Shared (τ : Type*) where
  openUntil : Option τ := none
  failures : ℕ := 0
  locked : Bool := false
  /-- The client that is there, and whether its `connect` has come through. -/
  client : Option Bool := none
  clock : τ
  log : List (Entry τ) := []

inductive Outcome
  | ok
  /-- `ConnectError`, or an `OSError` in mid operation -/
  | network
  /-- an error that the router answered with, or any other exception in mid operation -/
  | answered
  /-- in a dial, an exception that is no `MikrotikError`, such as a timeout of the TLS handshake,
  before the client was `made` or out of its `connect` -/
  | raised (made : Bool)

inductive Event (τ : Type*)
  /-- `acquire` up to the lock -/
  | enter (now : τ)
  | lock
  /-- the look at the client and at the breaker under the lock -/
  | look (now : τ)
  | dialled (outcome : Outcome) (now : τ)
  | leave (outcome : Outcome) (now : τ)
  /-- the diagnostics of a router up to its probe -/
  | scan (now : τ)
  | scanned (ok : Bool) (now : τ)
  | invalidate

inductive Phase
  | idle | waiting | holding | dialling | working | scanning

def Phase.holds : Phase → Bool
  | .holding | .dialling | .working => true
  | _ => false

namespace Shared

variable [LinearOrder τ]

def unreachable (s : Shared τ) (now : τ) : Bool := s.openUntil.any fun deadline => now < deadline

/-- `is_unreachable` forgets a deadline that has passed. -/
def asked (s : Shared τ) (now : τ) : Shared τ :=
  if s.unreachable now then s else { s with openUntil := none }

variable [Add τ]

def recordFailure (ttl : τ) (s : Shared τ) (now : τ) : Shared τ :=
  { s with
    openUntil := some (now + ttl), failures := s.failures + 1, log := .failure now :: s.log }

omit [LinearOrder τ] [Add τ] in
def recordSuccess (s : Shared τ) : Shared τ :=
  { s with openUntil := none, failures := 0, log := .success :: s.log }

end Shared

def Event.now (clock : τ) : Event τ → τ
  | .enter now | .look now | .dialled _ now | .leave _ now | .scan now | .scanned _ now => now
  | .lock | .invalidate => clock

section act
variable [LinearOrder τ] [Add τ] (ttl : τ)

def act' : Event τ → Shared τ → Phase → Shared τ × Phase
  | .enter now, s, .idle => (s.asked now, if s.unreachable now then .idle else .waiting)
  | .lock, s, .waiting => if s.locked then (s, .waiting) else ({ s with locked := true }, .holding)
  | .look now, s, .holding =>
    if s.client.isSome then (s, .working)
    else if s.unreachable now then ({ s with locked := false }, .idle)
    else ({ s.asked now with log := .dial now :: s.log }, .dialling)
  | .dialled .ok _, s, .dialling => ({ s.recordSuccess with client := some true }, .working)
  | .dialled .network now, s, .dialling =>
    ({ s.recordFailure ttl now with locked := false }, .idle)
  | .dialled .answered _, s, .dialling => ({ s.recordSuccess with locked := false }, .idle)
  | .dialled (.raised made) _, s, .dialling =>
    ({ s with client := if made then some false else none, locked := false }, .idle)
  | .leave .network now, s, .working =>
    ({ s.recordFailure ttl now with client := none, locked := false }, .idle)
  | .leave _ _, s, .working => ({ s with locked := false }, .idle)
  | .scan now, s, .idle => (s.asked now, if s.unreachable now then .idle else .scanning)
  | .scanned true _, s, .scanning => (s.recordSuccess, .idle)
  | .scanned false now, s, .scanning => (s.recordFailure ttl now, .idle)
  | .invalidate, s, .idle => (if s.locked then s else { s with client := none }, .idle)
  | _, s, phase => (s, phase)

def act (e : Event τ) (s : Shared τ) (phase : Phase) : Shared τ × Phase :=
  act' ttl e { s with clock := e.now s.clock } phase

end act

structure Knows (s : Shared τ) (phase : Phase) : Prop where
  locked : phase.holds = true → s.locked = true
  dialling : phase = .dialling → s.client = none
  working : phase = .working → s.client.isSome = true

def Apart (p q : Phase) : Prop := ¬(p.holds = true ∧ q.holds = true)

theorem Apart.symm {p q : Phase} (h : Apart p q) : Apart q p := fun hboth => h hboth.symm

theorem Knows.of_same {s s' : Shared τ} {phase : Phase} (h : Knows s phase)
    (hlocked : s'.locked = s.locked) (hclient : s'.client = s.client) : Knows s' phase :=
  ⟨fun hholds => hlocked ▸ h.locked hholds, fun hdial => hclient ▸ h.dialling hdial,
    fun huse => hclient ▸ h.working huse⟩

theorem Knows.of_not_holds (s : Shared τ) {phase : Phase} (h : phase.holds = false) :
    Knows s phase := by
  refine ⟨fun hholds => absurd (h.symm.trans hholds) (by decide), fun hdial => ?_, fun huse => ?_⟩
  · subst hdial
    cases h
  · subst huse
    cases h

section steps
variable [LinearOrder τ] [Add τ] {ttl : τ}

omit [Add τ] in
theorem asked_locked (s : Shared τ) (now : τ) : (s.asked now).locked = s.locked := by
  unfold Shared.asked
  split_ifs <;> rfl

omit [Add τ] in
theorem asked_client (s : Shared τ) (now : τ) : (s.asked now).client = s.client := by
  unfold Shared.asked
  split_ifs <;> rfl

/-- What a step leaves to the other threads: the lock and the client, unless it has the lock or
nobody has. -/
structure Kept (s : Shared τ) (phase : Phase) (s' : Shared τ) (phase' : Phase) : Prop where
  own : Knows s' phase'
  shared : (s'.locked = s.locked ∧ s'.client = s.client) ∨ phase.holds = true ∨ s.locked = false
  lock : phase'.holds = true → phase.holds = true ∨ s.locked = false

omit [LinearOrder τ] [Add τ] in
theorem Kept.of_not_holds {s s' : Shared τ} {phase phase' : Phase} (h : phase'.holds = false)
    (hshared : (s'.locked = s.locked ∧ s'.client = s.client) ∨ phase.holds = true ∨
      s.locked = false) : Kept s phase s' phase' :=
  ⟨.of_not_holds _ h, hshared, fun hholds => absurd (h.symm.trans hholds) (by decide)⟩

omit [Add τ] in
theorem asked_kept (s : Shared τ) (now : τ) {phase phase' : Phase} (h : phase'.holds = false) :
    Kept s phase (s.asked now) phase' :=
  .of_not_holds h (.inl ⟨asked_locked s now, asked_client s now⟩)

theorem act'_kept (ttl : τ) (e : Event τ) (s : Shared τ) (phase : Phase) (hknows : Knows s phase) :
    Kept s phase (act' ttl e s phase).1 (act' ttl e s phase).2 := by
  generalize hout : act' ttl e s phase = out
  unfold act' at hout
  split at hout <;> subst hout
  · -- the first look at the breaker
    exact asked_kept s _ (by split_ifs <;> rfl)
  · -- the lock
    split_ifs with hlocked
    · exact ⟨hknows, .inl ⟨rfl, rfl⟩, .inl⟩
    · have hfree := Bool.eq_false_iff.mpr hlocked
      exact ⟨⟨fun _ => rfl, nofun, nofun⟩, .inr (.inr hfree), fun _ => .inr hfree⟩
  · -- the client, and the second look at the breaker
    split_ifs with hclient hdown
    · exact ⟨⟨fun _ => hknows.locked rfl, nofun, fun _ => hclient⟩, .inl ⟨rfl, rfl⟩,
        fun _ => .inl rfl⟩
    · exact .of_not_holds rfl (.inr (.inl rfl))
    · refine ⟨⟨fun _ => ?_, fun _ => ?_, nofun⟩, .inr (.inl rfl), fun _ => .inl rfl⟩
      · exact (asked_locked s _).trans (hknows.locked rfl)
      · exact (asked_client s _).trans (Option.not_isSome_iff_eq_none.mp hclient)
  · -- a dial that comes through
    exact ⟨⟨fun _ => hknows.locked rfl, nofun, fun _ => rfl⟩, .inr (.inl rfl), fun _ => .inl rfl⟩
  · exact .of_not_holds rfl (.inr (.inl rfl))
  · exact .of_not_holds rfl (.inr (.inl rfl))
  · exact .of_not_holds rfl (.inr (.inl rfl))
  · exact .of_not_holds rfl (.inr (.inl rfl))
  · exact .of_not_holds rfl (.inr (.inl rfl))
  · -- the diagnostics
    exact asked_kept s _ (by split_ifs <;> rfl)
  · exact .of_not_holds rfl (.inl ⟨rfl, rfl⟩)
  · exact .of_not_holds rfl (.inl ⟨rfl, rfl⟩)
  · -- a change of the router's settings
    split_ifs with hlocked
    · exact .of_not_holds rfl (.inl ⟨rfl, rfl⟩)
    · exact .of_not_holds rfl (.inr (.inr (Bool.eq_false_iff.mpr hlocked)))
  · exact ⟨hknows, .inl ⟨rfl, rfl⟩, .inl⟩

end steps

def Pending (t : τ) : List (Entry τ) → Prop
  | [] => False
  | .failure u :: log => t = u ∨ Pending t log
  | .dial _ :: log => Pending t log
  | .success :: _ => False

section spacing
variable [AddCommMonoid τ] [LinearOrder τ] [IsOrderedAddMonoid τ] {ttl : τ}

def Spaced (ttl : τ) : List (Entry τ) → Prop
  | [] => True
  | .dial now :: log => (∀ t, Pending t log → t + ttl ≤ now) ∧ Spaced ttl log
  | .failure _ :: log | .success :: log => Spaced ttl log

structure Guarded (ttl : τ) (s : Shared τ) : Prop where
  past : ∀ t, Pending t s.log → t ≤ s.clock
  held : ∀ t, Pending t s.log → (∃ d, s.openUntil = some d ∧ t + ttl ≤ d) ∨ t + ttl ≤ s.clock
  spaced : Spaced ttl s.log

omit [IsOrderedAddMonoid τ] in
theorem Guarded.later {s : Shared τ} (h : Guarded ttl s) {now : τ} (hnow : s.clock ≤ now) :
    Guarded ttl { s with clock := now } :=
  ⟨fun t ht => (h.past t ht).trans hnow, fun t ht => (h.held t ht).imp_right fun h => h.trans hnow,
    h.spaced⟩

omit [IsOrderedAddMonoid τ] in
theorem Guarded.free {s : Shared τ} (h : Guarded ttl s) (hfree : ¬s.unreachable s.clock = true)
    {t : τ} (ht : Pending t s.log) : t + ttl ≤ s.clock := by
  rcases h.held t ht with ⟨d, hd, hle⟩ | hle
  · rw [Shared.unreachable, hd] at hfree
    exact hle.trans (not_lt.mp fun hlt => hfree (decide_eq_true hlt))
  · exact hle

omit [IsOrderedAddMonoid τ] in
theorem Guarded.asked {s : Shared τ} (h : Guarded ttl s) : Guarded ttl (s.asked s.clock) := by
  unfold Shared.asked
  split_ifs with hdown
  · exact h
  · exact ⟨h.past, fun t ht => .inr (h.free hdown ht), h.spaced⟩

theorem Guarded.recordFailure {s : Shared τ} (h : Guarded ttl s) :
    Guarded ttl (s.recordFailure ttl s.clock) := by
  refine ⟨fun t ht => ?_, fun t ht => .inl ⟨s.clock + ttl, rfl, ?_⟩, h.spaced⟩
  · rcases ht with rfl | ht
    · exact le_rfl
    · exact h.past t ht
  · rcases ht with rfl | ht
    · exact le_rfl
    · exact add_le_add_left (h.past t ht) ttl

omit [IsOrderedAddMonoid τ] in
theorem Guarded.recordSuccess {s : Shared τ} (h : Guarded ttl s) : Guarded ttl s.recordSuccess :=
  ⟨fun _ ht => ht.elim, fun _ ht => ht.elim, h.spaced⟩

omit [IsOrderedAddMonoid τ] in
theorem Guarded.of_same {s s' : Shared τ} (h : Guarded ttl s) (hlog : s'.log = s.log)
    (hopen : s'.openUntil = s.openUntil) (hclock : s'.clock = s.clock) : Guarded ttl s' := by
  refine ⟨?_, ?_, hlog ▸ h.spaced⟩
  · rw [hlog, hclock]
    exact h.past
  · rw [hlog, hopen, hclock]
    exact h.held

theorem guarded_act' {e : Event τ} {s : Shared τ} {phase : Phase} (h : Guarded ttl s)
    (hnow : e.now s.clock = s.clock) : Guarded ttl (act' ttl e s phase).1 := by
  unfold act'
  split
  · rename_i now
    obtain rfl : now = s.clock := hnow
    exact h.asked
  · split_ifs
    · exact h
    · exact h.of_same rfl rfl rfl
  · rename_i now
    obtain rfl : now = s.clock := hnow
    split_ifs with hclient hdown
    · exact h
    · exact h.of_same rfl rfl rfl
    · have hasked := h.asked
      have hlog : (s.asked s.clock).log = s.log := by
        unfold Shared.asked
        rw [if_neg hdown]
      refine ⟨hlog ▸ hasked.past, hlog ▸ hasked.held, fun t ht => h.free hdown ht, h.spaced⟩
  · exact h.recordSuccess.of_same rfl rfl rfl
  · rename_i now
    obtain rfl : now = s.clock := hnow
    exact h.recordFailure.of_same rfl rfl rfl
  · exact h.recordSuccess.of_same rfl rfl rfl
  · exact h.of_same rfl rfl rfl
  · rename_i now
    obtain rfl : now = s.clock := hnow
    exact h.recordFailure.of_same rfl rfl rfl
  · exact h.of_same rfl rfl rfl
  · rename_i now
    obtain rfl : now = s.clock := hnow
    exact h.asked
  · exact h.recordSuccess
  · rename_i now
    obtain rfl : now = s.clock := hnow
    exact h.recordFailure
  · split_ifs
    · exact h
    · exact h.of_same rfl rfl rfl
  · exact h

end spacing

variable {ι : Type*} [DecidableEq ι]

abbrev Threads (ι τ : Type*) := World ι (Shared τ) Phase

def opened (clock : τ) : Threads ι τ := ⟨{ clock }, fun _ => .idle⟩

section together
variable [AddCommMonoid τ] [LinearOrder τ] [IsOrderedAddMonoid τ] {ttl : τ}

theorem inv_step {w : Threads ι τ} (h : w.Inv (Guarded ttl) Knows Apart) (e : ι × Event τ)
    (hclock : w.shared.clock ≤ e.2.now w.shared.clock) :
    (w.step (act ttl) e).Inv (Guarded ttl) Knows Apart := by
  obtain ⟨i, e⟩ := e
  have hlater : Guarded ttl { w.shared with clock := e.now w.shared.clock } := h.shared.later hclock
  have hself : Knows { w.shared with clock := e.now w.shared.clock } (w.task i) :=
    (h.task i).of_same rfl rfl
  have hnow : e.now (e.now w.shared.clock) = e.now w.shared.clock := by cases e <;> rfl
  obtain ⟨hown, hlock, hheld⟩ := act'_kept ttl e _ _ hself
  refine h.step (fun _ _ => Apart.symm) (i, e) ⟨guarded_act' hlater hnow, hown⟩ fun q hq hapart => ?_
  have hfree : ((w.task i).holds = true ∨ w.shared.locked = false) → q.holds = false := by
    rintro (hmine | hnone)
    · exact Bool.eq_false_iff.mpr fun hholds => hapart ⟨hmine, hholds⟩
    · exact Bool.eq_false_iff.mpr fun hholds => by
        rw [hq.locked hholds] at hnone
        cases hnone
  refine ⟨?_, fun hboth => ?_⟩
  · rcases hlock with ⟨hlocked, hclient⟩ | hmine
    · exact hq.of_same hlocked hclient
    · exact .of_not_holds _ (hfree hmine)
  · exact absurd ((hfree (hheld hboth.1)).symm.trans hboth.2) (by decide)

end together

end RadiusModule.Mikrotik.Pool
