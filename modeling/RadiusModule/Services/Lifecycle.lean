import Mathlib.Data.List.Sort
import RadiusModule.Library.IsoText
import RadiusModule.Library.Run

/-!
# Automatic archiving

For each policy the worker asks which accounts are due, comparing the texts of
their expiries with the text of a cutoff, and archives them one after the other
by their numbers. Between two of its updates anybody may move an expiry.
-/

namespace RadiusModule.Lifecycle
open Library IsoText Run

inductive Separator
  | blank
  | letter
deriving DecidableEq, Repr

def Separator.char : Separator → Char
  | blank => ' '
  | letter => 'T'

/-- An instant as a column spells it: the second since the first of the year one, a fraction of
six digits or none, the sign before the time, and a final Z or none. -/
structure Spelling where
  second : ℕ
  inRange : second / 86400 < 3652059 := by decide
  fraction : Option (Fin 1000000) := none
  separator : Separator := .letter
  zulu : Bool := true

def Spelling.tail (e : Spelling) : List Char :=
  (e.fraction.elim [] fun n => '.' :: pad 6 n) ++ if e.zulu then ['Z'] else []

def Spelling.text (e : Spelling) : String :=
  String.ofList (markedText e.separator.char e.second ++ e.tail)

def Spelling.instant (e : Spelling) : ℕ :=
  e.second * 1000000 + (e.fraction.elim 0 fun n => n.1)

inductive Expiry
  | null
  | empty
  | at (e : Spelling)

inductive Kind
  | card
  | subscriber
deriving DecidableEq, Repr

structure Account where
  id : ℕ
  expireAt : Expiry := .null
  deleted : Bool := false

inductive EntityType
  | of (kind : Kind)
  | cardBatch
  | externalFile
deriving DecidableEq, Repr

inductive Trigger
  | expiredAt
  | disabledSince
  | inactiveSince
deriving DecidableEq, Repr

inductive DelayUnit
  | minutes
  | hours
  | days
  | months
deriving DecidableEq, Repr

def delta (value : ℕ) : DelayUnit → ℕ
  | .minutes => value * 60
  | .hours => value * 3600
  | .days => value * 86400
  | .months => value * 30 * 86400

structure Policy where
  id : ℕ
  entity : EntityType
  trigger : Trigger := .expiredAt
  action : String := "archive"
  enabled : Bool := true
  delayValue : ℕ := 0
  delayUnit : DelayUnit := .days
  retentionValue : ℕ := 90
  retentionUnit : DelayUnit := .days

def Policy.delay (p : Policy) : ℕ := delta p.delayValue p.delayUnit

def Policy.kind? (p : Policy) : Option Kind :=
  if p.enabled && p.action = "archive" && p.trigger = .expiredAt then
    match p.entity with
    | .of kind => some kind
    | _ => none
  else none

/-- `_cutoff_for`, as the second that its text names; none is the overflow of a date. -/
def cutoff? (now : ℕ) (p : Policy) : Option ℕ :=
  if p.delay * 1000000 ≤ now then some ((now - p.delay * 1000000) / 1000000) else none

/-- `_retention_for` -/
def retention? (now : ℕ) (p : Policy) : Option ℕ :=
  let second := now / 1000000 + delta p.retentionValue p.retentionUnit
  if second / 86400 < 3652059 then some second else none

def cutoffText (second : ℕ) : String := String.ofList (secondText second ++ ['Z'])

/-- The conditions of `due_cards` and of `due_subscribers`. -/
def Account.due (a : Account) (cutoff : ℕ) : Bool :=
  !a.deleted && match a.expireAt with
    | .at e => !decide (cutoffText cutoff < e.text)
    | _ => false

def Account.text (a : Account) : String :=
  match a.expireAt with
  | .at e => e.text
  | _ => ""

/-- `ORDER BY expire_at ASC, id ASC` -/
def Account.before (a b : Account) : Prop := a.text < b.text ∨ a.text = b.text ∧ a.id ≤ b.id

instance : DecidableRel Account.before := fun _ _ => inferInstanceAs (Decidable (_ ∨ _))

def dueRows (rows : List Account) (cutoff limit : ℕ) : List Account :=
  ((rows.filter (·.due cutoff)).insertionSort Account.before).take limit

structure Candidate where
  policy : Policy
  kind : Kind
  id : ℕ

structure Archived where
  policy : Policy
  kind : Kind
  account : Account
  now : ℕ

structure World where
  now : ℕ
  limit : ℕ := 500
  rows : Kind → List Account
  policies : List Policy
  pending : List Candidate := []
  raised : Bool := false
  log : List Archived := []

inductive Event
  | tick (micros : ℕ)
  | work
  | touch (kind : Kind) (id : ℕ) (expireAt : Expiry)

def Account.archive (id : ℕ) (a : Account) : Account :=
  if a.id = id && !a.deleted then { a with deleted := true } else a

def World.setRows (w : World) (kind : Kind) (f : Account → Account) : World :=
  { w with rows := fun k => if k = kind then (w.rows k).map f else w.rows k }

def World.archiveNext (w : World) (c : Candidate) (rest : List Candidate) : World :=
  { w.setRows c.kind (Account.archive c.id) with
    pending := rest
    log := w.log ++ ((w.rows c.kind).filter fun a => a.id = c.id && !a.deleted).map
      (⟨c.policy, c.kind, ·, w.now⟩) }

def World.query (w : World) (p : Policy) (policies : List Policy) :
    Option Kind → Option ℕ → Option ℕ → World
  | none, _, _ => { w with policies }
  | some kind, some cutoff, some _ =>
    { w with
      policies
      pending := (dueRows (w.rows kind) cutoff w.limit).map fun a => ⟨p, kind, a.id⟩ }
  | some _, _, _ => { w with policies := [], raised := true }

def work (w : World) : World :=
  match w.pending, w.policies with
  | c :: rest, _ => w.archiveNext c rest
  | [], [] => w
  | [], p :: policies => w.query p policies p.kind? (cutoff? w.now p) (retention? w.now p)

def step (w : World) : Event → World
  | .tick micros => { w with now := w.now + micros }
  | .work => work w
  | .touch kind id expireAt =>
    w.setRows kind fun a => if a.id = id then { a with expireAt } else a

/-- `_summarise_policy`: how many cards and how many subscribers. -/
def summarise (w : World) (p : Policy) : Option (Kind → ℕ) :=
  (cutoff? w.now p).map fun cutoff kind =>
    if p.kind? = some kind then (dueRows (w.rows kind) cutoff w.limit).length else 0

def previewOf (w : World) : List Policy → Option (Kind → ℕ)
  | [] => some fun _ => 0
  | p :: policies => do
    let own ← summarise w p
    let rest ← previewOf w policies
    return fun kind => own kind + rest kind

def preview (w : World) : Option (Kind → ℕ) := previewOf w w.policies

def Spelling.Past (e : Spelling) (p : Policy) (now : ℕ) : Prop :=
  e.instant + p.delay * 1000000 ≤ now

def Expiry.Past (p : Policy) (now : ℕ) : Expiry → Prop
  | .at e => e.Past p now
  | _ => False

def World.AllDue (w : World) : Prop := ∀ r ∈ w.log, r.account.expireAt.Past r.policy r.now

def World.archivedCount (w : World) (kind : Kind) : ℕ := w.log.countP fun r => r.kind = kind

def World.Done (w : World) : Prop := w.policies = [] ∧ w.pending = []

structure World.Fresh (w : World) : Prop where
  pending : w.pending = []
  log : w.log = []
  raised : w.raised = false
  keys : ∀ kind, ((w.rows kind).map Account.id).Nodup

/-- The text stands on the side of the cutoff where its instant is: no blank on the day of the
cutoff, and no fraction in its second. -/
def Spelling.InOrder (e : Spelling) (cutoff : ℕ) : Prop :=
  match e.separator with
  | .blank => e.second / 86400 ≠ cutoff / 86400
  | .letter => e.second = cutoff → e.fraction.elim 0 (fun n => n.1) = 0

/-- A policy is asked for while every spelling that is out of order is past, and nobody gives a
candidate that waits an expiry that is not past. -/
def Meets (w : World) : Event → Prop
  | .tick _ => True
  | .work => w.pending = [] → ∀ p ∈ w.policies.head?, ∀ kind ∈ p.kind?, ∀ cutoff ∈ cutoff? w.now p,
    ∀ a ∈ w.rows kind, ∀ e, a.expireAt = .at e → e.InOrder cutoff ∨ e.Past p w.now
  | .touch kind id expireAt => ∀ c ∈ w.pending, c.kind = kind → c.id = id →
    expireAt.Past c.policy w.now

def DueUnder (now : ℕ) (p : Policy) (kind : Kind) (a : Account) : Prop :=
  p.kind? = some kind ∧ ∃ cutoff ∈ cutoff? now p, a.due cutoff = true

def World.Apart (w : World) : Prop :=
  w.policies.Pairwise fun p q => ∀ kind, ∀ a ∈ w.rows kind,
    DueUnder w.now p kind a → ¬DueUnder w.now q kind a

theorem Spelling.instant_lt (e : Spelling) : e.instant < (e.second + 1) * 1000000 := by
  rw [instant]
  cases e.fraction with
  | none => simp only [Option.elim_none]; omega
  | some n =>
    have := n.2
    simp only [Option.elim_some]
    omega

theorem Spelling.instant_le {e : Spelling} {cutoff : ℕ} (h : ¬cutoffText cutoff < e.text)
    (horder : e.InOrder cutoff) : e.instant ≤ cutoff * 1000000 := by
  have hlast := e.inRange
  rw [cutoffText, text, String.lt_iff_toList_lt, String.toList_ofList, String.toList_ofList] at h
  rw [InOrder] at horder
  suffices hsecond : e.second < cutoff ∨ e.second = cutoff ∧ e.instant = e.second * 1000000 by
    have := e.instant_lt
    omega
  cases hsep : e.separator with
  | blank =>
    rw [hsep] at h horder
    have hday : e.second / 86400 ≤ cutoff / 86400 := by
      by_contra hlater
      refine h ?_
      rw [secondText, markedText, List.append_assoc, List.append_assoc]
      exact append_lt_append (by rw [length_dateText, length_dateText])
        (dateText_lt (by omega) hlast) _ _
    exact .inl (by dsimp only at horder; omega)
  | letter =>
    rw [hsep] at h horder
    have hle : e.second ≤ cutoff := by
      by_contra hlater
      refine h (append_lt_append ?_ (secondText_lt (by omega) hlast) _ _)
      exact (length_secondText _).trans (length_secondText _).symm
    obtain hlt | heq := hle.lt_or_eq
    · exact .inl hlt
    · refine .inr ⟨heq, ?_⟩
      rw [instant, horder heq, Nat.add_zero]

theorem cutoff_le {now cutoff : ℕ} {p : Policy} (h : cutoff? now p = some cutoff) :
    cutoff * 1000000 + p.delay * 1000000 ≤ now := by
  obtain ⟨hle, hcutoff⟩ := Option.ite_none_right_eq_some.mp h
  have hfloor := Nat.div_mul_le_self (now - p.delay * 1000000) 1000000
  rw [Option.some.inj hcutoff] at hfloor
  exact Nat.add_le_of_le_sub hle hfloor

theorem Account.due_iff {a : Account} {cutoff : ℕ} : a.due cutoff = true ↔
    a.deleted = false ∧ ∃ e, a.expireAt = .at e ∧ ¬cutoffText cutoff < e.text := by
  rw [due]
  cases a.expireAt <;> simp

theorem Account.past_of_due {a : Account} {p : Policy} {now cutoff : ℕ}
    (hcutoff : cutoff? now p = some cutoff) (hdue : a.due cutoff = true)
    (horder : ∀ e, a.expireAt = .at e → e.InOrder cutoff ∨ e.Past p now) :
    a.expireAt.Past p now := by
  obtain ⟨-, e, he, htext⟩ := due_iff.mp hdue
  rw [he]
  obtain hin | hpast := horder e he
  · have := Spelling.instant_le htext hin
    have := cutoff_le hcutoff
    change e.instant + _ ≤ now
    omega
  · exact hpast

theorem Expiry.Past.mono {e : Expiry} {p : Policy} {now later : ℕ} (h : e.Past p now)
    (hle : now ≤ later) : e.Past p later := by
  cases e with
  | null => exact h
  | empty => exact h
  | «at» e => exact le_trans h hle

theorem mem_dueRows {a : Account} {rows : List Account} {cutoff limit : ℕ}
    (h : a ∈ dueRows rows cutoff limit) : a ∈ rows ∧ a.due cutoff = true :=
  List.mem_filter.mp ((List.mem_insertionSort _).mp (List.mem_of_mem_take h))

structure World.Kept (w : World) : Prop where
  keys : ∀ kind, ((w.rows kind).map Account.id).Nodup
  pending : ∀ c ∈ w.pending, ∀ a ∈ w.rows c.kind, a.id = c.id → a.deleted = false →
    a.expireAt.Past c.policy w.now
  log : w.AllDue

theorem keys_setRows {w : World} (h : ∀ kind, ((w.rows kind).map Account.id).Nodup) (kind : Kind)
    {f : Account → Account} (hf : ∀ a, (f a).id = a.id) (k : Kind) :
    (((w.setRows kind f).rows k).map Account.id).Nodup := by
  simp only [World.setRows]
  split_ifs
  · rw [List.map_map, show Account.id ∘ f = Account.id from funext hf]
    exact h k
  · exact h k

theorem id_archive (id : ℕ) (a : Account) : (a.archive id).id = a.id := by
  rw [Account.archive]
  split_ifs <;> rfl

theorem mem_setRows {w : World} {kind k : Kind} {f : Account → Account} {a : Account}
    (h : a ∈ (w.setRows kind f).rows k) :
    k = kind ∧ (∃ b ∈ w.rows k, f b = a) ∨ k ≠ kind ∧ a ∈ w.rows k := by
  simp only [World.setRows] at h
  split_ifs at h with hk
  · exact .inl ⟨hk, List.mem_map.mp h⟩
  · exact .inr ⟨hk, h⟩

theorem eq_of_archive_live {id : ℕ} {a : Account} (h : (a.archive id).deleted = false) :
    a.archive id = a := by
  rw [Account.archive] at h ⊢
  split_ifs at h ⊢
  rfl

theorem archiveNext_kept {w : World} (hw : w.Kept) {c : Candidate} {rest : List Candidate}
    (hpending : w.pending = c :: rest) : (w.archiveNext c rest).Kept := by
  have hc : c ∈ w.pending := hpending ▸ List.mem_cons_self
  refine ⟨keys_setRows hw.keys _ (id_archive c.id), ?_, ?_⟩
  · intro c' hc' a ha hid hlive
    have hold := hw.pending c' (hpending ▸ List.mem_cons_of_mem _ hc')
    obtain ⟨-, b, hb, hba⟩ | ⟨-, ha⟩ := mem_setRows ha
    · rw [← hba] at hlive
      have hsame : b = a := (eq_of_archive_live hlive).symm.trans hba
      rw [hba] at hlive
      exact hold a (hsame ▸ hb) hid hlive
    · exact hold a ha hid hlive
  · intro r hr
    obtain hr | hr := List.mem_append.mp hr
    · exact hw.log r hr
    · obtain ⟨a, ha, rfl⟩ := List.mem_map.mp hr
      obtain ⟨ha, hcond⟩ := List.mem_filter.mp ha
      simp only [Bool.and_eq_true, decide_eq_true_eq, Bool.not_eq_true'] at hcond
      exact hw.pending c hc a ha hcond.1 hcond.2

theorem work_query {w : World} {p : Policy} {policies : List Policy} (hpending : w.pending = [])
    (hpolicies : w.policies = p :: policies) :
    work w = w.query p policies p.kind? (cutoff? w.now p) (retention? w.now p) := by
  rw [work, hpending, hpolicies]

theorem query_cases (w : World) (p : Policy) (policies : List Policy) (kind : Kind)
    (cutoff retention : Option ℕ) :
    (∃ c, cutoff = some c ∧ w.query p policies (some kind) cutoff retention =
      { w with
        policies
        pending := (dueRows (w.rows kind) c w.limit).map fun a => ⟨p, kind, a.id⟩ }) ∨
      w.query p policies (some kind) cutoff retention =
        { w with policies := [], raised := true } := by
  cases cutoff with
  | none => exact .inr rfl
  | some c =>
    cases retention with
    | none => exact .inr rfl
    | some r => exact .inl ⟨c, rfl, rfl⟩

theorem work_kept {w : World} (hw : w.Kept) (hmeets : Meets w .work) : (work w).Kept := by
  cases hpending : w.pending with
  | cons c rest =>
    rw [work, hpending]
    exact archiveNext_kept hw hpending
  | nil =>
    have hidle (policies : List Policy) (raised : Bool) :
        World.Kept { w with policies, raised } :=
      ⟨hw.keys, by simp [hpending], hw.log⟩
    cases hpolicies : w.policies with
    | nil =>
      rw [work, hpending, hpolicies]
      exact hw
    | cons p policies =>
      have hquery := hmeets hpending p (by rw [hpolicies]; rfl)
      rw [work_query hpending hpolicies]
      cases hkind : p.kind? with
      | none => exact hidle policies w.raised
      | some kind =>
        obtain ⟨cutoff, hcutoff, hnext⟩ | hnext :=
          query_cases w p policies kind (cutoff? w.now p) (retention? w.now p)
        · rw [hnext]
          refine ⟨hw.keys, ?_, hw.log⟩
          intro c hc b hb hid hlive
          obtain ⟨a, ha, rfl⟩ := List.mem_map.mp hc
          obtain ⟨ha, hdue⟩ := mem_dueRows ha
          have hsame : b = a := List.inj_on_of_nodup_map (hw.keys kind) hb ha hid
          rw [hsame]
          exact Account.past_of_due hcutoff hdue (hquery kind hkind cutoff hcutoff a ha)
        · rw [hnext]
          exact hidle [] true

theorem step_kept (w : World) (event : Event) (hw : w.Kept) (hmeets : Meets w event) :
    (step w event).Kept := by
  cases event with
  | tick micros =>
    exact ⟨hw.keys, fun c hc a ha hid hlive =>
      (hw.pending c hc a ha hid hlive).mono (Nat.le_add_right _ _), hw.log⟩
  | work => exact work_kept hw hmeets
  | touch kind id expireAt =>
    refine ⟨keys_setRows hw.keys _ fun a => ?_, ?_, hw.log⟩
    · split_ifs <;> rfl
    · intro c hc a ha hid hlive
      obtain ⟨hkind, b, hb, rfl⟩ | ⟨-, ha⟩ := mem_setRows ha
      · by_cases hb' : b.id = id
        · rw [if_pos hb'] at hid ⊢
          exact hmeets c hc hkind (hid.symm.trans hb')
        · rw [if_neg hb'] at hid hlive ⊢
          exact hw.pending c hc b hb hid hlive
      · exact hw.pending c hc a ha hid hlive

theorem run_allDue {w : World} (hw : w.Fresh) {events : List Event}
    (hmeets : Along Meets step w events) : (run step w events).AllDue := by
  have hkept : w.Kept := by
    refine ⟨hw.keys, ?_, ?_⟩
    · simp [hw.pending]
    · simp [World.AllDue, hw.log]
  exact (run_invariant step_kept hkept hmeets).log

theorem work_cons {w : World} {c : Candidate} {rest : List Candidate}
    (h : w.pending = c :: rest) : work w = w.archiveNext c rest := by
  rw [work, h]

abbrev works (w : World) (n : ℕ) : World := run step w (List.replicate n .work)

def Account.mark (ids : List ℕ) (a : Account) : Account :=
  if a.id ∈ ids then { a with deleted := true } else a

structure Drained (w after : World) (kind : Kind) (ids : List ℕ) : Prop where
  now : after.now = w.now
  limit : after.limit = w.limit
  policies : after.policies = w.policies
  raised : after.raised = w.raised
  pending : after.pending = []
  rows : ∀ k, after.rows k = if k = kind then
    (w.rows k).map (Account.mark ids) else w.rows k
  count : ∀ k, after.archivedCount k = w.archivedCount k + if k = kind then ids.length else 0

theorem filter_live {rows : List Account} (hkeys : (rows.map Account.id).Nodup) {a : Account}
    (ha : a ∈ rows) (hlive : a.deleted = false) :
    (rows.filter fun b => b.id = a.id && !b.deleted) = [a] := by
  induction rows with
  | nil => cases ha
  | cons b rows ih =>
    obtain ⟨hb, hrest⟩ := List.nodup_cons.mp hkeys
    obtain rfl | ha := List.mem_cons.mp ha
    · rw [List.filter_cons_of_pos (by simp [hlive])]
      refine congrArg _ (List.filter_eq_nil_iff.mpr fun c hc => ?_)
      have hne : c.id ≠ a.id := fun heq => hb (heq ▸ List.mem_map_of_mem hc)
      simp [hne]
    · have hne : b.id ≠ a.id := fun heq => hb (heq ▸ List.mem_map_of_mem ha)
      rw [List.filter_cons_of_neg (by simp [hne])]
      exact ih hrest ha

theorem archive_eq (id : ℕ) (a : Account) :
    a.archive id = if a.id = id then { a with deleted := true } else a := by
  rw [Account.archive]
  cases hdeleted : a.deleted with
  | false => simp
  | true =>
    split_ifs <;> simp_all
    cases a
    simp_all

theorem mark_archive {id : ℕ} {ids : List ℕ} (a : Account) :
    (a.archive id).mark ids = a.mark (id :: ids) := by
  rw [Account.mark, Account.mark, id_archive, archive_eq]
  by_cases hid : a.id = id
  · simp [hid]
  · simp [hid]

theorem mark_of_due {ids : List ℕ} {a : Account} {cutoff : ℕ}
    (h : (a.mark ids).due cutoff = true) : a.mark ids = a := by
  rw [Account.mark] at h ⊢
  split_ifs at h ⊢
  · simp [Account.due] at h
  · rfl

theorem drain (p : Policy) (kind : Kind) (ids : List ℕ) : ∀ w : World,
    (∀ k, ((w.rows k).map Account.id).Nodup) →
    w.pending = ids.map (fun id => ⟨p, kind, id⟩) → ids.Nodup →
    (∀ id ∈ ids, ∃ a ∈ w.rows kind, a.id = id ∧ a.deleted = false) →
      Drained w (works w ids.length) kind ids := by
  induction ids with
  | nil =>
    intro w _ hpending _ _
    have hmark : Account.mark [] = id := by
      funext a
      simp [Account.mark]
    refine ⟨rfl, rfl, rfl, rfl, hpending, fun k => ?_, fun k => ?_⟩
    · rw [hmark, List.map_id, ite_self]
      rfl
    · rw [List.length_nil, ite_self]
      rfl
  | cons id ids ih =>
    intro w hkeys hpending hnodup hlive
    obtain ⟨hid, hids⟩ := List.nodup_cons.mp hnodup
    obtain ⟨a, ha, rfl, hdeleted⟩ := hlive id List.mem_cons_self
    have hnext : step w .work = w.archiveNext ⟨p, kind, a.id⟩ (ids.map fun id => ⟨p, kind, id⟩) :=
      work_cons hpending
    have hrest := ih (step w .work) ?_ (by rw [hnext]; rfl) hids ?_
    · refine ⟨hrest.now.trans (by rw [hnext]; rfl), hrest.limit.trans (by rw [hnext]; rfl),
        hrest.policies.trans (by rw [hnext]; rfl), hrest.raised.trans (by rw [hnext]; rfl),
        hrest.pending, fun k => (hrest.rows k).trans ?_, fun k => (hrest.count k).trans ?_⟩
      · rw [hnext]
        simp only [World.archiveNext, World.setRows]
        split_ifs with hk
        · rw [List.map_map]
          exact List.map_congr_left fun b _ => mark_archive b
        · rfl
      · rw [hnext]
        have hone := filter_live (hkeys kind) ha hdeleted
        simp only [World.archivedCount, World.archiveNext, hone, List.map_cons, List.map_nil,
          List.countP_append, List.countP_singleton, decide_eq_true_eq, List.length_cons]
        by_cases hk : k = kind
        · rw [if_pos hk, if_pos hk, if_pos hk.symm]
          omega
        · rw [if_neg hk, if_neg hk, if_neg (Ne.symm hk)]
    · rw [hnext]
      exact keys_setRows hkeys _ (id_archive _)
    · intro i hi
      obtain ⟨b, hb, rfl, hbdeleted⟩ := hlive i (List.mem_cons_of_mem _ hi)
      have hne : b.id ≠ a.id := fun heq => hid (heq ▸ hi)
      refine ⟨b, ?_, rfl, hbdeleted⟩
      rw [hnext]
      simp only [World.archiveNext, World.setRows, if_true]
      exact List.mem_map.mpr ⟨b, hb, by rw [archive_eq, if_neg hne]⟩

theorem filter_mark {rows : List Account} {ids : List ℕ} {cutoff : ℕ}
    (h : ∀ a ∈ rows, a.id ∈ ids → a.due cutoff = false) :
    (rows.map (Account.mark ids)).filter (·.due cutoff) = rows.filter (·.due cutoff) := by
  induction rows with
  | nil => rfl
  | cons a rows ih =>
    obtain ⟨ha, hrows⟩ := List.forall_mem_cons.mp h
    rw [List.map_cons, List.filter_cons, List.filter_cons, ih hrows]
    by_cases hid : a.id ∈ ids
    · have hmarked : (a.mark ids).due cutoff = false := by simp [Account.mark, hid, Account.due]
      rw [hmarked, ha hid]
      rfl
    · rw [Account.mark, if_neg hid]

theorem nodup_dueRows {rows : List Account} (hkeys : (rows.map Account.id).Nodup)
    (cutoff limit : ℕ) : ((dueRows rows cutoff limit).map Account.id).Nodup := by
  have hsorted : (((rows.filter (·.due cutoff)).insertionSort Account.before).map
      Account.id).Nodup :=
    ((List.perm_insertionSort _ _).map _).nodup_iff.mpr (hkeys.sublist (List.filter_sublist.map _))
  exact hsorted.sublist ((List.take_sublist _ _).map _)

theorem summarise_congr {w v : World} {q : Policy} (hnow : v.now = w.now)
    (hlimit : v.limit = w.limit)
    (hrows : ∀ kind cutoff, q.kind? = some kind → cutoff? w.now q = some cutoff →
      (v.rows kind).filter (·.due cutoff) = (w.rows kind).filter (·.due cutoff)) :
    summarise v q = summarise w q := by
  rw [summarise, summarise, hnow]
  cases hcutoff : cutoff? w.now q with
  | none => rfl
  | some cutoff =>
    refine congrArg some (funext fun kind => ?_)
    dsimp only
    split_ifs with hkind
    · rw [dueRows, dueRows, hrows kind cutoff hkind hcutoff, hlimit]
    · rfl

theorem previewOf_cons {w : World} {p : Policy} {policies : List Policy} {totals : Kind → ℕ}
    (h : previewOf w (p :: policies) = some totals) :
    ∃ own rest, summarise w p = some own ∧ previewOf w policies = some rest ∧
      totals = fun kind => own kind + rest kind := by
  rw [previewOf] at h
  obtain ⟨own, hown, h⟩ := Option.bind_eq_some_iff.mp h
  obtain ⟨rest, hrest, h⟩ := Option.bind_eq_some_iff.mp h
  exact ⟨own, rest, hown, hrest, (Option.some.inj h).symm⟩

theorem previewOf_congr {w v : World} {policies : List Policy}
    (h : ∀ q ∈ policies, summarise v q = summarise w q) :
    previewOf v policies = previewOf w policies := by
  induction policies with
  | nil => rfl
  | cons q policies ih =>
    rw [previewOf, previewOf, h q List.mem_cons_self,
      ih fun r hr => h r (List.mem_cons_of_mem _ hr)]

theorem Drained.summarise_eq {w after : World} {kind : Kind} {p q : Policy} {cutoff : ℕ}
    (hafter : Drained w after kind ((dueRows (w.rows kind) cutoff w.limit).map Account.id))
    (hkeys : ((w.rows kind).map Account.id).Nodup) (hkind : p.kind? = some kind)
    (hcutoff : cutoff? w.now p = some cutoff)
    (hapart : ∀ kind, ∀ a ∈ w.rows kind, DueUnder w.now p kind a → ¬DueUnder w.now q kind a) :
    summarise after q = summarise w q := by
  refine summarise_congr hafter.now hafter.limit fun k c hk hc => ?_
  rw [hafter.rows]
  split_ifs with heq
  · subst heq
    refine filter_mark fun a ha hid => ?_
    obtain ⟨b, hb, hba⟩ := List.mem_map.mp hid
    obtain ⟨hb, hdue⟩ := mem_dueRows hb
    have hsame : b = a := List.inj_on_of_nodup_map hkeys hb ha hba
    have hnot := hapart k a ha ⟨hkind, cutoff, hcutoff, hsame ▸ hdue⟩
    by_contra hother
    exact hnot ⟨hk, c, hc, by simpa using hother⟩
  · rfl

theorem Drained.mem_rows {w after : World} {kind k : Kind} {ids : List ℕ}
    (hafter : Drained w after kind ids) {a : Account} (ha : a ∈ after.rows k) {cutoff : ℕ}
    (hdue : a.due cutoff = true) : a ∈ w.rows k := by
  rw [hafter.rows] at ha
  split_ifs at ha
  · obtain ⟨b, hb, rfl⟩ := List.mem_map.mp ha
    rwa [mark_of_due hdue]
  · exact ha

theorem run_counts (policies : List Policy) : ∀ w : World, w.policies = policies →
    w.pending = [] → (∀ k, ((w.rows k).map Account.id).Nodup) → w.Apart →
    ∀ totals, previewOf w policies = some totals → ∃ n, (works w n).Done ∧
      ((works w n).raised = false →
        ∀ kind, (works w n).archivedCount kind = w.archivedCount kind + totals kind) := by
  induction policies with
  | nil =>
    intro w hpolicies hpending _ _ totals htotals
    exact ⟨0, ⟨hpolicies, hpending⟩, fun _ kind => by rw [← Option.some.inj htotals]; rfl⟩
  | cons p policies ih =>
    intro w hpolicies hpending hkeys hapart totals htotals
    obtain ⟨own, rest, hown, hrest, rfl⟩ := previewOf_cons htotals
    rw [World.Apart, hpolicies] at hapart
    obtain ⟨hfirst, hlater⟩ := List.pairwise_cons.mp hapart
    obtain ⟨cutoff, hcutoff, hcounts⟩ := Option.map_eq_some_iff.mp hown
    have hstep := work_query hpending hpolicies
    cases hkind : p.kind? with
    | none =>
      rw [hkind, World.query] at hstep
      have hsame : previewOf { w with policies } policies = some rest :=
        hrest ▸ @previewOf_congr w { w with policies } policies fun q _ =>
          summarise_congr rfl rfl fun _ _ _ _ => rfl
      obtain ⟨n, hdone, hcount⟩ :=
        ih { w with policies } rfl hpending hkeys hlater rest hsame
      rw [← hstep] at hdone hcount
      refine ⟨n + 1, hdone, fun hraised kind => (hcount hraised kind).trans ?_⟩
      rw [← hcounts, hstep]
      simp [World.archivedCount, hkind]
    | some kind =>
      rw [hkind, hcutoff] at hstep
      cases hretention : retention? w.now p with
      | none =>
        rw [hretention, World.query] at hstep
        · refine ⟨1, ?_⟩
          change (work w).Done ∧ ((work w).raised = false → _)
          rw [hstep]
          exact ⟨⟨rfl, hpending⟩, fun hraised => by cases hraised⟩
        · rintro _ _ _ ⟨⟩
      | some retention =>
        rw [hretention, World.query] at hstep
        let ids := (dueRows (w.rows kind) cutoff w.limit).map Account.id
        have hafter : Drained (work w) (works (work w) ids.length) kind ids := by
          refine drain p kind ids (work w) ?_ ?_ (nodup_dueRows (hkeys kind) _ _) ?_
          · rw [hstep]
            exact hkeys
          · rw [hstep]
            simp [ids]
          · rw [hstep]
            intro id hid
            obtain ⟨a, ha, rfl⟩ := List.mem_map.mp hid
            obtain ⟨ha, hdue⟩ := mem_dueRows ha
            exact ⟨a, ha, rfl, (Account.due_iff.mp hdue).1⟩
        set after := works (work w) ids.length with hdef
        have hpoliciesAfter : after.policies = policies := by rw [hafter.policies, hstep]
        have hof : Drained { w with policies } after kind ids := by
          refine ⟨hafter.now.trans ?_, hafter.limit.trans ?_, hpoliciesAfter,
            hafter.raised.trans ?_, hafter.pending, fun k => (hafter.rows k).trans ?_,
            fun k => (hafter.count k).trans ?_⟩
          all_goals rw [hstep]
          rfl
        have hkeys' : ∀ k, ((after.rows k).map Account.id).Nodup := by
          intro k
          rw [hof.rows]
          split_ifs
          · have hid : Account.id ∘ Account.mark ids = Account.id := by
              funext a
              simp only [Function.comp, Account.mark]
              split_ifs <;> rfl
            rw [List.map_map, hid]
            exact hkeys k
          · exact hkeys k
        have hapart' : after.Apart := by
          rw [World.Apart, hpoliciesAfter]
          refine hlater.imp fun {q r} hqr k a ha hdue => ?_
          rw [hof.now] at hdue ⊢
          obtain ⟨c, hc, hac⟩ := hdue.2
          exact hqr k a (hof.mem_rows ha hac) hdue
        have hsame : previewOf after policies = some rest := by
          rw [← hrest]
          refine previewOf_congr fun q hq => ?_
          exact (hof.summarise_eq (hkeys kind) hkind hcutoff (hfirst q hq)).trans
            (summarise_congr rfl rfl fun _ _ _ _ => rfl)
        obtain ⟨n, hdone, hcount⟩ := ih after hpoliciesAfter hof.pending hkeys' hapart' rest hsame
        have hruns : works w (1 + ids.length + n) = works after n := by
          rw [works, works, hdef, works, ← List.replicate_append_replicate,
            ← List.replicate_append_replicate, run, run, run, List.foldl_append, List.foldl_append]
          rfl
        refine ⟨1 + ids.length + n, ?_⟩
        rw [hruns]
        refine ⟨hdone, fun hraised k => (hcount hraised k).trans ?_⟩
        rw [hof.count, ← hcounts, hkind]
        by_cases hk : k = kind
        · subst hk
          simp [ids, World.archivedCount, Nat.add_assoc]
        · simp [hk, Ne.symm hk, World.archivedCount]

/-- Only what is due is archived, and as much as the preview shows. -/
theorem archiving_law {w : World} (hw : w.Fresh) :
    (∀ events, Along Meets step w events → (run step w events).AllDue) ∧
      (w.Apart → ∀ totals, preview w = some totals → ∃ n, (works w n).Done ∧
        ((works w n).raised = false → ∀ kind, (works w n).archivedCount kind = totals kind)) := by
  refine ⟨fun events hmeets => run_allDue hw hmeets, fun hapart totals htotals => ?_⟩
  obtain ⟨n, hdone, hcount⟩ := run_counts w.policies w rfl hw.pending hw.keys hapart totals htotals
  refine ⟨n, hdone, fun hraised kind => (hcount hraised kind).trans ?_⟩
  simp [World.archivedCount, hw.log]

instance (p : Policy) (now : ℕ) : (e : Expiry) → Decidable (e.Past p now)
  | .null => .isFalse id
  | .empty => .isFalse id
  | .at _ => inferInstanceAs (Decidable (_ ≤ _))

instance (w : World) : Decidable w.AllDue := List.decidableBAll _ _

def shop (e : Spelling) : World where
  now := 63926449200000000
  rows kind := if kind = .subscriber then [{ id := 1, expireAt := .at e }] else []
  policies := [{ id := 1, entity := .of .subscriber }]

theorem shop_fresh (e : Spelling) : (shop e).Fresh := by
  refine ⟨rfl, rfl, rfl, fun kind => ?_⟩
  cases kind <;> simp [shop]

def atEleven : Spelling := { second := 63926449200 }

def atTwelve : Spelling := { second := 63926452800 }

def atTwelveSpaced : Spelling := { second := 63926452800, separator := .blank }

theorem shop_law : (∀ events, Along Meets step (shop atEleven) events →
    (run step (shop atEleven) events).AllDue) ∧
      ((shop atEleven).Apart → ∀ totals, preview (shop atEleven) = some totals →
        ∃ n, (works (shop atEleven) n).Done ∧ ((works (shop atEleven) n).raised = false →
          ∀ kind, (works (shop atEleven) n).archivedCount kind = totals kind)) :=
  archiving_law (shop_fresh atEleven)

/-- An account that is good until twelve is archived at eleven, when its expiry is spelled with a
blank, and when its holder pays between the query and the update. -/
theorem paid_account_archived :
    ¬ ((shop atTwelveSpaced).Fresh → ∀ events, (run step (shop atTwelveSpaced) events).AllDue) ∧
      ¬ ((shop atEleven).Fresh → ∀ events, (run step (shop atEleven) events).AllDue) := by
  refine ⟨fun h => ?_, fun h => ?_⟩
  · exact absurd (h (shop_fresh _) [.work, .work]) (by decide)
  · exact absurd (h (shop_fresh _) [.work, .touch .subscriber 1 (.at atTwelve), .work])
      (by decide)

end RadiusModule.Lifecycle
