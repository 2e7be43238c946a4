import Mathlib.Algebra.Order.Floor.Ring
import Mathlib.Algebra.Order.Ring.Rat
import Mathlib.Data.List.Sort
import Mathlib.Data.Rat.Floor
import Mathlib.Order.Nat
import RadiusModule.Library.SlidingWindow
import RadiusModule.Library.PyText
import RadiusModule.Library.Run

/-!
# The brake on password guessing

Failed logins are stamped in the table `rate_events`, which all processes share. Before a password
is looked at the stamps of its window are counted, and after a wrong one a stamp is added; between
the two other attempts may come and go. The logins of the store and of the portals are braked in
the same way, each in a scope of its own.
-/

namespace RadiusModule.LoginThrottle
open Library SlidingWindow PyText

abbrev Slot := String × String

abbrev RateEvents := Slot → List ℚ

def rateHit (rows : RateEvents) (slot : Slot) (window now : ℚ) : ℕ × RateEvents :=
  let hits := after (now - window) (rows slot) ++ [now]
  (hits.length, Function.update rows slot hits)

def rateEvents (rows : RateEvents) (slot : Slot) (window now : ℚ) : List ℚ :=
  (after (now - window) (rows slot)).mergeSort (· ≤ ·)

def rateCount (rows : RateEvents) (slot : Slot) (window now : ℚ) : ℕ :=
  (rateEvents rows slot window now).length

def rateClear (rows : RateEvents) (slot : Slot) : RateEvents := Function.update rows slot []

def kvPrune (rows : RateEvents) (now : ℚ) : RateEvents := fun slot => after (now - 86400) (rows slot)

theorem rateCount_eq (rows : RateEvents) (slot : Slot) (window now : ℚ) :
    rateCount rows slot window now = (after (now - window) (rows slot)).length :=
  List.length_mergeSort _

structure Gate where
  max : ℕ
  window : ℚ

def intEnv (raw : Option String) (default : ℕ) : ℤ :=
  let text := strip (raw.getD "")
  if text = "" then default
  else
    match int? text with
    | some value => if 0 < value then value else default
    | none => default

theorem intEnv_pos (raw : Option String) {default : ℕ} (h : 0 < default) :
    0 < intEnv raw default := by
  have hdefault : (0 : ℤ) < default := Int.natCast_pos.mpr h
  unfold intEnv
  dsimp only
  split_ifs with hempty
  · exact hdefault
  · split
    · split_ifs with hpos
      · exact hpos
      · exact hdefault
    · exact hdefault

def maxFailures (raw : Option String) : ℕ := (intEnv raw 10).toNat

def windowSeconds (raw : Option String) : ℚ := intEnv raw 15 * 60

/-- `login_throttle`, with what its two environment variables say. -/
def loginFail (failures minutes : Option String) : Gate :=
  ⟨maxFailures failures, windowSeconds minutes⟩

def storeLoginFail : Gate := ⟨10, 60⟩
def storeRegister : Gate := ⟨5, 600⟩
def subscriberPortalLogin : Gate := ⟨10, 60⟩
def hotspotCardsLogin : Gate := ⟨10, 60⟩

theorem maxFailures_pos (raw : Option String) : 0 < maxFailures raw := by
  have hpos : 0 < intEnv raw 10 := intEnv_pos raw (by decide)
  rw [maxFailures]
  omega

def brakes (failures minutes : Option String) : String → Gate
  | "login_fail" => loginFail failures minutes
  | "store_login_fail" => storeLoginFail
  | "store_register" => storeRegister
  | "subscriber_portal_login" => subscriberPortalLogin
  | "hotspot_cards_login" => hotspotCardsLogin
  | _ => ⟨1, 0⟩

theorem brakes_fit {failures minutes : Option String} (hminutes : windowSeconds minutes ≤ 86400)
    (scope : String) :
    0 < (brakes failures minutes scope).max ∧ (brakes failures minutes scope).window ≤ 86400 := by
  unfold brakes
  split
  · dsimp only [loginFail]
    exact ⟨maxFailures_pos failures, hminutes⟩
  all_goals exact ⟨by decide, by decide⟩

def loginSlot (kind username ip : String) : Slot :=
  ("login_fail", kind ++ ":" ++ lower (strip username) ++ "|" ++ ip)

theorem loginSlot_lower (kind username ip : String) :
    loginSlot kind (lower (strip username)) ip = loginSlot kind username ip := by
  rw [loginSlot, loginSlot, strip_lower, strip_strip, lower_lower]

def retryAfter (g : Gate) (rows : RateEvents) (slot : Slot) (now : ℚ) : ℤ :=
  match rateEvents rows slot g.window now with
  | [] => 0
  | oldest :: hits =>
    if (oldest :: hits).length < g.max then 0 else max 1 ⌈g.window - (now - oldest)⌉

def throttled (g : Gate) (rows : RateEvents) (slot : Slot) (now : ℚ) : Prop :=
  g.max ≤ rateCount rows slot g.window now

instance throttled.decidable (g : Gate) (rows : RateEvents) (slot : Slot) (now : ℚ) :
    Decidable (throttled g rows slot now) := inferInstanceAs (Decidable (_ ≤ _))

theorem throttled_iff (g : Gate) (rows : RateEvents) (slot : Slot) (now : ℚ) :
    throttled g rows slot now ↔ g.max ≤ (after (now - g.window) (rows slot)).length := by
  rw [throttled, rateCount_eq]

theorem retryAfter_eq_zero_iff {g : Gate} (hmax : 0 < g.max) (rows : RateEvents) (slot : Slot)
    (now : ℚ) : retryAfter g rows slot now = 0 ↔ ¬throttled g rows slot now := by
  rw [retryAfter, throttled, rateCount, not_le]
  cases rateEvents rows slot g.window now with
  | nil => exact iff_of_true rfl hmax
  | cons oldest hits =>
    dsimp only
    split_ifs with hroom
    · exact iff_of_true rfl hroom
    · exact iff_of_false (by omega) hroom

structure State where
  rows : RateEvents := fun _ => []
  pending : Slot → ℕ := fun _ => 0
  /-- All stamps since the slot was last cleared. -/
  since : Slot → List ℚ := fun _ => []
  clock : ℚ := 0

inductive Event
  | attempt (slot : Slot) (now : ℚ)
  /-- `register_failure` and its like at the end of an attempt that was let in. -/
  | failure (slot : Slot) (now : ℚ)
  | success (slot : Slot)
  /-- The end of a right password over HTTP Basic, which clears nothing. -/
  | leave (slot : Slot)
  | prune (now : ℚ)

def Event.now (clock : ℚ) : Event → ℚ
  | .attempt _ now | .failure _ now | .prune now => now
  | .success _ | .leave _ => clock

def State.lane (s : State) (slot : Slot) : Lane ℚ := ⟨s.rows slot, s.pending slot, s.since slot⟩

theorem counted_lane (s : State) (slot : Slot) (window now : ℚ) :
    (s.lane slot).counted window now = after (now - window) (s.rows slot) := rfl

variable (gates : String → Gate)

def step (s : State) : Event → State
  | .attempt slot now =>
    if throttled (gates slot.1) s.rows slot now then { s with clock := now }
    else { s with pending := Function.update s.pending slot (s.pending slot + 1), clock := now }
  | .failure slot now =>
    if 0 < s.pending slot then
      { rows := (rateHit s.rows slot (gates slot.1).window now).2
        pending := Function.update s.pending slot (s.pending slot - 1)
        since := Function.update s.since slot (s.since slot ++ [now])
        clock := now }
    else { s with clock := now }
  | .success slot =>
    if 0 < s.pending slot then
      { s with
        rows := rateClear s.rows slot
        pending := Function.update s.pending slot (s.pending slot - 1)
        since := Function.update s.since slot [] }
    else s
  | .leave slot =>
    if 0 < s.pending slot then
      { s with pending := Function.update s.pending slot (s.pending slot - 1) }
    else s
  | .prune now => { s with rows := kvPrune s.rows now, clock := now }

def laneStep (slot : Slot) (l : Lane ℚ) : Event → Lane ℚ
  | .attempt slot' now =>
    if slot' = slot then l.enter (gates slot.1).max (gates slot.1).window now else l
  | .failure slot' now => if slot' = slot then l.hit (gates slot.1).window now else l
  | .success slot' => if slot' = slot then l.clear else l
  | .leave slot' => if slot' = slot then l.leave else l
  | .prune now => l.prune (now - 86400)

theorem lane_step (s : State) (e : Event) (slot : Slot) :
    (step gates s e).lane slot = laneStep gates slot (s.lane slot) e := by
  cases e with
  | attempt slot' now =>
    by_cases hslot : slot' = slot
    · subst hslot
      rw [laneStep, if_pos rfl, Lane.enter, step]
      by_cases hroom : throttled (gates slot'.1) s.rows slot' now
      · have hfull := (throttled_iff _ _ _ _).mp hroom
        rw [if_pos hroom, if_neg (show ¬(Lane.counted _ _ _).length < _ from hfull.not_gt)]
        rfl
      · have hfull := Nat.lt_of_not_le fun h => hroom ((throttled_iff _ _ _ _).mpr h)
        rw [if_neg hroom, if_pos (show (Lane.counted _ _ _).length < _ from hfull)]
        simp [State.lane]
    · rw [laneStep, if_neg hslot, step]
      split_ifs
      · rfl
      · simp [State.lane, Function.update_of_ne (Ne.symm hslot)]
  | failure slot' now =>
    by_cases hslot : slot' = slot
    · subst hslot
      rw [laneStep, if_pos rfl, Lane.hit, step]
      by_cases hpending : 0 < s.pending slot'
      · rw [if_pos hpending, if_pos (show 0 < (s.lane slot').pending from hpending)]
        simp [State.lane, rateHit, Lane.counted]
      · rw [if_neg hpending, if_neg (show ¬0 < (s.lane slot').pending from hpending)]
        rfl
    · rw [laneStep, if_neg hslot, step]
      split_ifs
      · simp [State.lane, rateHit, Function.update_of_ne (Ne.symm hslot)]
      · rfl
  | success slot' =>
    by_cases hslot : slot' = slot
    · subst hslot
      rw [laneStep, if_pos rfl, Lane.clear, step]
      by_cases hpending : 0 < s.pending slot'
      · rw [if_pos hpending, if_pos (show 0 < (s.lane slot').pending from hpending)]
        simp [State.lane, rateClear]
      · rw [if_neg hpending, if_neg (show ¬0 < (s.lane slot').pending from hpending)]
    · rw [laneStep, if_neg hslot, step]
      split_ifs
      · simp [State.lane, rateClear, Function.update_of_ne (Ne.symm hslot)]
      · rfl
  | leave slot' =>
    by_cases hslot : slot' = slot
    · subst hslot
      rw [laneStep, if_pos rfl, Lane.leave, step]
      by_cases hpending : 0 < s.pending slot'
      · rw [if_pos hpending, if_pos (show 0 < (s.lane slot').pending from hpending)]
        simp [State.lane]
      · rw [if_neg hpending, if_neg (show ¬0 < (s.lane slot').pending from hpending)]
    · rw [laneStep, if_neg hslot, step]
      split_ifs
      · simp [State.lane, Function.update_of_ne (Ne.symm hslot)]
      · rfl
  | prune now => rfl

/-- The clock does not go back, and with an attempt that begins there are at most `k` of its slot
under way. -/
structure Allowed (k : ℕ) (slot : Slot) (s : State) (e : Event) : Prop where
  clock : s.clock ≤ e.now s.clock
  atMost : ∀ now, e = .attempt slot now → s.pending slot < k

variable {gates} {k : ℕ} {slot : Slot}

theorem clock_step (s : State) (e : Event) : (step gates s e).clock = e.now s.clock := by
  cases e <;> rw [step] <;> (try split_ifs) <;> rfl

theorem bounded_step (hday : (gates slot.1).window ≤ 86400) {s : State} {e : Event}
    (h : Bounded (gates slot.1).max k (gates slot.1).window (s.lane slot) s.clock)
    (hallowed : Allowed k slot s e) :
    Bounded (gates slot.1).max k (gates slot.1).window ((step gates s e).lane slot)
      (step gates s e).clock := by
  rw [lane_step, clock_step]
  have hlater := h.later hallowed.clock
  cases e with
  | attempt slot' now =>
    rw [laneStep]
    split_ifs with hslot
    · subst hslot
      exact hlater.enter (hallowed.atMost now rfl)
    · exact hlater
  | failure slot' now =>
    rw [laneStep]
    split_ifs
    · exact hlater.hit
    · exact hlater
  | success slot' =>
    rw [laneStep]
    split_ifs
    · exact hlater.clear
    · exact hlater
  | leave slot' =>
    rw [laneStep]
    split_ifs
    · exact hlater.leave
    · exact hlater
  | prune now => exact hlater.prune (sub_le_sub_left hday now)

theorem bounded_run (hday : (gates slot.1).window ≤ 86400) {events : List Event}
    (hallowed : Run.Along (Allowed k slot) (step gates) {} events) :
    let s := Run.run (step gates) {} events
    Bounded (gates slot.1).max k (gates slot.1).window (s.lane slot) s.clock :=
  Run.run_invariant
    (I := fun s => Bounded (gates slot.1).max k (gates slot.1).window (s.lane slot) s.clock)
    (fun _ _ h => bounded_step hday h) (Bounded.empty _ _ _ _) hallowed

/-- Among processes that look at up to `k` passwords of a slot at a time, no stretch of the length
of the window holds more than `max - 1 + k` wrong ones since the last right one. -/
theorem failures_in_window (gates : String → Gate) (slot : Slot) (k : ℕ)
    (hday : (gates slot.1).window ≤ 86400) (events : List Event)
    (hallowed : Run.Along (Allowed k slot) (step gates) {} events) (t : ℚ) :
    (((Run.run (step gates) {} events).since slot).filter fun u =>
      t ≤ u ∧ u ≤ t + (gates slot.1).window).length ≤ (gates slot.1).max - 1 + k :=
  (bounded_run hday hallowed).bound t

theorem lane_run (s : State) (events : List Event) :
    (Run.run (step gates) s events).lane slot =
      events.foldl (laneStep gates slot) (s.lane slot) := by
  induction events generalizing s with
  | nil => rfl
  | cons e events ih =>
    rw [Run.run, List.foldl_cons, List.foldl_cons, ← lane_step]
    exact ih _

theorem clock_run (s : State) (events : List Event) :
    (Run.run (step gates) s events).clock = events.foldl Event.now s.clock := by
  induction events generalizing s with
  | nil => rfl
  | cons e events ih =>
    rw [Run.run, List.foldl_cons, List.foldl_cons, ← clock_step s e]
    exact ih _

/-- `Allowed`, as far as the lane and the clock tell. -/
def laneAllowed (k : ℕ) (slot : Slot) (l : Lane ℚ × ℚ) (e : Event) : Bool :=
  decide (l.2 ≤ e.now l.2) &&
    match e with
    | .attempt slot' _ => slot' ≠ slot || decide (l.1.pending < k)
    | _ => true

theorem along_allowed {s : State} {events : List Event}
    (h : Run.Along (fun l e => laneAllowed k slot l e = true)
      (fun l e => (laneStep gates slot l.1 e, e.now l.2)) (s.lane slot, s.clock) events) :
    Run.Along (Allowed k slot) (step gates) s events := by
  induction events generalizing s with
  | nil => trivial
  | cons e events ih =>
    obtain ⟨hallowed, hrest⟩ := h
    have hboth := Bool.and_eq_true_iff.mp hallowed
    refine ⟨⟨of_decide_eq_true hboth.1, fun now he => ?_⟩, ih ?_⟩
    · subst he
      have hroom : (decide (slot ≠ slot) || decide ((s.lane slot).pending < k)) = true := hboth.2
      exact of_decide_eq_true ((Bool.or_eq_true_iff.mp hroom).resolve_left (by simp))
    · rw [lane_step, clock_step]
      exact hrest

def nourSlot : Slot := ("login_fail", "user:nour|10.0.0.7")

/-- Two processes guess at a time, a third guess is refused, and a slot beside it is left alone. -/
def sprayed : List Event :=
  [.attempt nourSlot 0, .attempt nourSlot 1, .failure nourSlot 2,
    .attempt ("login_fail", "user:ali|10.0.0.7") 3, .failure nourSlot 4, .attempt nourSlot 5,
    .prune 6]

theorem failures_in_window_sprayed :
    (((Run.run (step fun _ => ⟨2, 60⟩) {} sprayed).since nourSlot).filter fun u =>
      2 ≤ u ∧ u ≤ 2 + 60).length ≤ 3 :=
  failures_in_window (fun _ => ⟨2, 60⟩) nourSlot 2 (by decide) sprayed
    (along_allowed (by decide +kernel)) 2

theorem shut_step (hday : (gates slot.1).window ≤ 86400) {full : List ℚ} {s : State} {e : Event}
    (h : Shut (gates slot.1).window full (s.lane slot) s.clock)
    (hfull : (gates slot.1).max ≤ full.length) (hclock : s.clock ≤ e.now s.clock)
    (hopen : ∀ t ∈ full, e.now s.clock - (gates slot.1).window ≤ t) :
    Shut (gates slot.1).window full ((step gates s e).lane slot) (step gates s e).clock := by
  rw [lane_step, clock_step]
  have hlater := h.later hclock
  cases e with
  | attempt slot' now =>
    rw [laneStep]
    split_ifs
    · exact (hlater.enter hopen hfull).symm ▸ hlater
    · exact hlater
  | failure slot' now =>
    rw [laneStep]
    split_ifs
    · exact (h.idle_eq now).1.symm ▸ hlater
    · exact hlater
  | success slot' =>
    rw [laneStep]
    split_ifs
    · exact (h.idle_eq s.clock).2.1.symm ▸ hlater
    · exact hlater
  | leave slot' =>
    rw [laneStep]
    split_ifs
    · exact (h.idle_eq s.clock).2.2.symm ▸ hlater
    · exact hlater
  | prune now => exact hlater.prune (sub_le_sub_left hday now)

theorem retryAfter_cases {g : Gate} {rows : RateEvents} {now : ℚ}
    (hlocked : retryAfter g rows slot now ≠ 0) :
    ∃ oldest ∈ after (now - g.window) (rows slot),
      (∀ t ∈ after (now - g.window) (rows slot), oldest ≤ t) ∧
      g.max ≤ (after (now - g.window) (rows slot)).length ∧
      retryAfter g rows slot now = max 1 ⌈oldest + g.window - now⌉ := by
  have hlength := rateCount_eq rows slot g.window now
  have hsorted : (rateEvents rows slot g.window now).Pairwise fun a b => decide (a ≤ b) = true :=
    List.pairwise_mergeSort
      (fun a b c hab hbc => decide_eq_true ((of_decide_eq_true hab).trans (of_decide_eq_true hbc)))
      (fun a b : ℚ => by simpa using le_total a b) (after (now - g.window) (rows slot))
  rw [rateCount] at hlength
  rw [retryAfter] at hlocked ⊢
  have hmem : ∀ t, t ∈ rateEvents rows slot g.window now ↔ t ∈ after (now - g.window) (rows slot) :=
    fun t => List.mem_mergeSort
  cases hrows : rateEvents rows slot g.window now with
  | nil =>
    rw [hrows] at hlocked
    exact absurd rfl hlocked
  | cons oldest hits =>
    rw [hrows] at hlocked hmem hsorted hlength
    dsimp only at hlocked ⊢
    split_ifs at hlocked ⊢ with hroom
    · exact absurd rfl hlocked
    · refine ⟨oldest, (hmem oldest).mp List.mem_cons_self, fun t ht => ?_, ?_, ?_⟩
      · rcases List.mem_cons.mp ((hmem t).mpr ht) with rfl | ht
        · exact le_rfl
        · exact of_decide_eq_true ((List.pairwise_cons.mp hsorted).1 t ht)
      · omega
      · rw [sub_sub_eq_add_sub, add_comm]

def Until (last : ℚ) (s : State) (e : Event) : Prop :=
  s.clock ≤ e.now s.clock ∧ e.now s.clock ≤ last

/-- With one attempt at a time, a slot that is locked stays so up to a moment that its wait announces
to the second, whatever is tried meanwhile, and opens right after it. -/
theorem lockout_opens (gates : String → Gate) (slot : Slot) (hmax : 0 < (gates slot.1).max)
    (hday : (gates slot.1).window ≤ 86400) (events : List Event)
    (hallowed : Run.Along (Allowed 1 slot) (step gates) {} events) (now : ℚ)
    (hnow : (Run.run (step gates) {} events).clock ≤ now)
    (hlocked : retryAfter (gates slot.1) (Run.run (step gates) {} events).rows slot now ≠ 0) :
    let s := Run.run (step gates) {} events
    let wait := retryAfter (gates slot.1) s.rows slot now
    ∃ last, now ≤ last ∧ last ≤ now + wait ∧ now + wait ≤ last + 1 ∧
      ∀ later, Run.Along (Until last) (step gates) { s with clock := now } later →
        ∀ t, (Run.run (step gates) { s with clock := now } later).clock ≤ t →
          (retryAfter (gates slot.1) (Run.run (step gates) { s with clock := now } later).rows slot t
            = 0 ↔ last < t) := by
  intro s wait
  obtain ⟨oldest, hmem, hleast, hfull, hwait⟩ := retryAfter_cases hlocked
  have hcounted : now - (gates slot.1).window ≤ oldest :=
    of_decide_eq_true (List.mem_filter.mp hmem).2
  obtain ⟨hshut, hlength⟩ := ((bounded_run hday hallowed).later hnow).shut hmax hfull
  rw [counted_lane] at hshut hlength
  set full := after (now - (gates slot.1).window) (s.rows slot)
  refine ⟨oldest + (gates slot.1).window, sub_le_iff_le_add.mp hcounted, ?_, ?_, ?_⟩
  · have hceil := Int.le_ceil (oldest + (gates slot.1).window - now)
    have hleft : ⌈oldest + (gates slot.1).window - now⌉ ≤ wait :=
      (le_max_right _ _).trans hwait.ge
    have hcast : ((⌈oldest + (gates slot.1).window - now⌉ : ℤ) : ℚ) ≤ wait := Int.cast_le.mpr hleft
    linarith
  · have hceil := Int.ceil_lt_add_one (oldest + (gates slot.1).window - now)
    change now + ((retryAfter _ _ _ _ : ℤ) : ℚ) ≤ _
    rw [hwait, Int.cast_max, Int.cast_one]
    rcases max_cases (1 : ℚ) ⌈oldest + (gates slot.1).window - now⌉ with ⟨h, -⟩ | ⟨h, -⟩ <;>
      rw [h] <;> linarith
  · intro later hlater t ht
    have hopen : ∀ {m : ℚ}, m ≤ oldest + (gates slot.1).window →
        ∀ u ∈ full, m - (gates slot.1).window ≤ u := fun hm u hu =>
      (sub_le_iff_le_add.mpr hm).trans (hleast u hu)
    have hend := Run.run_invariant
      (I := fun s => Shut (gates slot.1).window full (s.lane slot) s.clock)
      (fun _ _ h hguard => shut_step hday h hlength.ge hguard.1 (hopen hguard.2))
      (s := { s with clock := now }) hshut hlater
    have hend := hend.later ht
    rw [retryAfter_eq_zero_iff hmax, throttled_iff, not_le, ← counted_lane]
    constructor
    · intro hroom
      by_contra hlast
      rw [hend.counted_eq (hopen (not_lt.mp hlast))] at hroom
      exact hroom.ne hlength
    · intro hlast
      exact (hend.length_counted_lt hmem (lt_sub_iff_add_lt.mpr hlast)).trans_eq hlength

/-- Two wrong passwords, one after another. -/
def guessed : List Event :=
  [.attempt nourSlot 0, .failure nourSlot 1, .attempt nourSlot 2, .failure nourSlot 3]

theorem lockout_opens_guessed : ∃ last : ℚ, 4 ≤ last ∧
    retryAfter ⟨2, 60⟩ (Run.run (step fun _ => ⟨2, 60⟩) {} guessed).rows nourSlot (last + 1)
      = 0 := by
  have hlocked : retryAfter ⟨2, 60⟩ (Run.run (step fun _ => ⟨2, 60⟩) {} guessed).rows nourSlot 4
      ≠ 0 := by
    rw [Ne, retryAfter_eq_zero_iff Nat.two_pos, not_not, throttled_iff, ← counted_lane _ _ 60,
      lane_run]
    decide +kernel
  have hclock : (Run.run (step fun _ => ⟨2, 60⟩) {} guessed).clock ≤ 4 := by
    rw [clock_run]
    decide
  obtain ⟨last, hnow, -, -, hopen⟩ := lockout_opens (fun _ => ⟨2, 60⟩) nourSlot Nat.two_pos
    (by decide) guessed (along_allowed (by decide +kernel)) 4 hclock hlocked
  have hlater : (4 : ℚ) ≤ last + 1 := hnow.trans (le_add_of_nonneg_right zero_le_one)
  exact ⟨last, hnow, (hopen [] trivial (last + 1) hlater).mpr (lt_add_one last)⟩

end RadiusModule.LoginThrottle
