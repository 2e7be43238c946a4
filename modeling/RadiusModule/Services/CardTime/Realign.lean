import RadiusModule.Library.Keyed
import RadiusModule.Services.CardTime.Grant

/-!
# The window of a batch

`update_batch` writes the new window, and `realign_batch_card_windows` brings
the expiries of the cards in line: a card that was not used loses its expiry,
a used one gets the end of the new window from its own first login. What was
granted to the cards is not added.
-/

namespace RadiusModule.CardTime
open Library CardAccounting CardBatchFlags PolicyEngine

structure WindowChange where
  timeValue : Option ℤ := none
  timeUnit : Option String := none
  validityAfterFirstLoginDays : Option ℤ := none
  countBySeconds : Option Bool := none
  countFromFirstConnect : Option Bool := none

def WindowChange.movesWindow (change : WindowChange) : Bool :=
  change.timeValue.isSome || change.timeUnit.isSome ||
    change.validityAfterFirstLoginDays.isSome || change.countBySeconds.isSome ||
    change.countFromFirstConnect.isSome

def WindowChange.apply (change : WindowChange) (b : CardBatch) : CardBatch :=
  { b with
    timeValue := change.timeValue.getD b.timeValue
    timeUnit := change.timeUnit.getD b.timeUnit
    validityAfterFirstLoginDays :=
      change.validityAfterFirstLoginDays.getD b.validityAfterFirstLoginDays
    countBySeconds := change.countBySeconds.getD b.countBySeconds
    countFromFirstConnect := change.countFromFirstConnect.getD b.countFromFirstConnect }

structure Realigned where
  pending : ℕ := 0
  started : ℕ := 0
  expiredNow : ℕ := 0

def ofBatch (tenantId : ℤ) (batchId : ℕ) (c : Card) : Bool :=
  c.tenantId = tenantId && c.batchId = batchId

def inScope (c : Card) : Bool := c.deletedAt.isNull && c.frozenRemainingSeconds = 0

section

variable (db : Db) (now tenantId : ℤ) (batchId : ℕ) (window : ℤ)

def startedRows : List (Card × ℤ) :=
  db.cards.filterMap fun c =>
    if ofBatch tenantId batchId c && inScope c then
      c.firstUsedAt.time?.map fun first => (c, afterSeconds first window)
    else none

def writeRow (db : Db) (r : Card × ℤ) : Db :=
  (db.updateCards (ofCardId tenantId r.1.id) (Card.withExpiry · r.2)).updateSubscribers
    (ofSubscriber tenantId r.1.username) (Subscriber.withExpiry · r.2)

def isPending (c : Card) : Bool :=
  ofBatch tenantId batchId c && inScope c && c.firstUsedAt.isNull && !c.expireAt.isNull

def clearPending : Db :=
  db.updateCards (isPending tenantId batchId) fun c => { c with expireAt := .null }

def isStamped (c : Card) : Bool := ofBatch tenantId batchId c && inScope c && !c.expireAt.isNull

def clearStarted : Db :=
  (db.updateCards (isStamped tenantId batchId) fun c =>
    { c with expireAt := .null }).updateSubscribers
    (fun s => s.tenantId = tenantId && s.userType = .card &&
      db.cards.any fun c => ofBatch tenantId batchId c && c.username = s.username)
    fun s => { s with expireAt := .null }

def realignBatchCardWindows (clearStartedWhenZero : Bool) : Db × Realigned :=
  if window ≤ 0 then
    if clearStartedWhenZero then
      (clearStarted db tenantId batchId,
        { started := db.cards.countP (isStamped tenantId batchId) })
    else (db, {})
  else
    let cleared := clearPending db tenantId batchId
    let rows := startedRows cleared tenantId batchId window
    (rows.foldl (writeRow tenantId) cleared,
      { pending := db.cards.countP (isPending tenantId batchId)
        started := rows.length
        expiredNow := rows.countP fun r => r.2 ≤ now })

def writeWindow (change : WindowChange) : Db :=
  { db with
    batches := db.batches.map fun b =>
      if b.tenantId = tenantId ∧ b.id = batchId ∧ b.deletedAt.isNull then change.apply b else b }

/-- `update_batch` for the fields of the window; no table stands for a refusal. -/
def updateBatch (change : WindowChange) : Option Db :=
  let tables := writeWindow db tenantId batchId change
  (db.batch tenantId batchId).bind fun batch =>
    (tables.batch tenantId batchId).bind fun updated =>
      if !batch.deletedAt.isNull then none
      else if change.movesWindow then
        some (realignBatchCardWindows tables now tenantId batchId (cardWindowSeconds updated)
          (bySeconds updated)).1
      else some tables

end

section

variable {db : Db} {tenantId : ℤ} {batchId : ℕ} {window : ℤ}

def CardKeys (db : Db) : Prop :=
  db.cards.Pairwise fun c d => c.id ≠ d.id ∧ (c.tenantId = d.tenantId → c.username ≠ d.username)

theorem mem_startedRows {r : Card × ℤ} : r ∈ startedRows db tenantId batchId window ↔
    r.1 ∈ db.cards ∧ ofBatch tenantId batchId r.1 = true ∧ inScope r.1 = true ∧
      ∃ f ∈ r.1.firstUsedAt.time?, r.2 = afterSeconds f window := by
  obtain ⟨c, e⟩ := r
  simp only [startedRows, List.mem_filterMap]
  constructor
  · rintro ⟨c', hc, hrow⟩
    split_ifs at hrow with hin
    obtain ⟨f, hf, hpair⟩ := Option.map_eq_some_iff.mp hrow
    obtain ⟨rfl, rfl⟩ := Prod.mk.injEq .. ▸ hpair
    rw [Bool.and_eq_true] at hin
    exact ⟨hc, hin.1, hin.2, f, hf, rfl⟩
  · rintro ⟨hc, hbatch, hscope, f, hf, rfl⟩
    refine ⟨c, hc, ?_⟩
    rw [if_pos (by simp [hbatch, hscope]), Option.mem_def.mp hf, Option.map_some]

theorem startedRows_clearPending : startedRows (clearPending db tenantId batchId) tenantId batchId
    window = startedRows db tenantId batchId window := by
  simp only [startedRows, clearPending, Db.updateCards, List.filterMap_map]
  refine List.filterMap_congr fun c _ => ?_
  simp only [Function.comp]
  by_cases hpending : isPending tenantId batchId c = true
  · have hnull : c.firstUsedAt = .null := by
      simp only [isPending, Bool.and_eq_true] at hpending
      cases hfirst : c.firstUsedAt <;> simp_all [Stamp.isNull]
    rw [if_pos hpending]
    simp [hnull, Stamp.time?]
  · rw [if_neg hpending]

def rowCard (tenantId : ℤ) (rows : List (Card × ℤ)) : Card → Card :=
  Keyed.resolve (fun c : Card => (c.tenantId, c.id)) (fun r => (tenantId, r.1.id))
    (fun r c => c.withExpiry r.2) rows

def rowAccount (tenantId : ℤ) (rows : List (Card × ℤ)) : Subscriber → Subscriber :=
  Keyed.resolve (fun s : Subscriber => (s.tenantId, s.username)) (fun r => (tenantId, r.1.username))
    (fun r s => s.withExpiry r.2) rows

theorem updateCards_modify (db : Db) (id : ℕ) (f : Card → Card) :
    (db.updateCards (ofCardId tenantId id) f).cards =
      Keyed.modify (fun c : Card => (c.tenantId, c.id)) (tenantId, id) f db.cards := by
  simp only [Db.updateCards, Keyed.modify, ofCardId, Bool.and_eq_true, decide_eq_true_eq,
    Prod.mk.injEq]

theorem updateSubscribers_modify (db : Db) (username : String) (f : Subscriber → Subscriber) :
    (db.updateSubscribers (ofSubscriber tenantId username) f).subscribers =
      Keyed.modify (fun s : Subscriber => (s.tenantId, s.username)) (tenantId, username) f
        db.subscribers := by
  simp only [Db.updateSubscribers, Keyed.modify, ofSubscriber, Bool.and_eq_true, decide_eq_true_eq,
    Prod.mk.injEq]

theorem foldl_writeRow {rows : List (Card × ℤ)}
    (hids : (rows.map fun r => (tenantId, r.1.id)).Nodup)
    (hnames : (rows.map fun r => (tenantId, r.1.username)).Nodup) (db : Db) :
    (rows.foldl (writeRow tenantId) db).cards = db.cards.map (rowCard tenantId rows) ∧
      (rows.foldl (writeRow tenantId) db).subscribers =
        db.subscribers.map (rowAccount tenantId rows) := by
  have hfold : ∀ db : Db, (rows.foldl (writeRow tenantId) db).cards =
        rows.foldl (fun cards r => Keyed.modify (fun c : Card => (c.tenantId, c.id))
          (tenantId, r.1.id) (Card.withExpiry · r.2) cards) db.cards ∧
      (rows.foldl (writeRow tenantId) db).subscribers =
        rows.foldl (fun subs r => Keyed.modify (fun s : Subscriber => (s.tenantId, s.username))
          (tenantId, r.1.username) (Subscriber.withExpiry · r.2) subs) db.subscribers := by
    clear hids hnames
    induction rows with
    | nil => exact fun _ => ⟨rfl, rfl⟩
    | cons r rows ih =>
      intro db
      have hcards : (writeRow tenantId db r).cards = _ := updateCards_modify db r.1.id _
      have hsubs : (writeRow tenantId db r).subscribers = _ :=
        updateSubscribers_modify (db.updateCards (ofCardId tenantId r.1.id) _) r.1.username _
      obtain ⟨hrestCards, hrestSubs⟩ := ih (writeRow tenantId db r)
      rw [List.foldl_cons, List.foldl_cons, List.foldl_cons, hrestCards, hrestSubs, hcards, hsubs]
      exact ⟨rfl, rfl⟩
  rw [(hfold db).1, (hfold db).2]
  exact ⟨Keyed.foldl_modify (fun r : Card × ℤ => (tenantId, r.1.id))
      (fun r c => Card.withExpiry c r.2) (fun _ _ => rfl) hids db.cards,
    Keyed.foldl_modify (fun r : Card × ℤ => (tenantId, r.1.username))
      (fun r s => Subscriber.withExpiry s r.2) (fun _ _ => rfl) hnames db.subscribers⟩

variable (tenantId batchId window) in
theorem startedRows_nodup (hkeys : CardKeys db) :
    ((startedRows db tenantId batchId window).map fun r => (tenantId, r.1.id)).Nodup ∧
      ((startedRows db tenantId batchId window).map fun r => (tenantId, r.1.username)).Nodup := by
  have hcard : ∀ (c : Card) (r : Card × ℤ), r ∈ (if ofBatch tenantId batchId c && inScope c then
      c.firstUsedAt.time?.map fun first => (c, afterSeconds first window) else none) → r.1 = c := by
    intro c r hr
    split_ifs at hr
    · obtain ⟨f, -, rfl⟩ := Option.map_eq_some_iff.mp (Option.mem_def.mp hr)
      rfl
    · cases hr
  have hrows : (startedRows db tenantId batchId window).Pairwise fun r r' =>
      r.1.id ≠ r'.1.id ∧ (r.1.tenantId = r'.1.tenantId → r.1.username ≠ r'.1.username) := by
    refine List.Pairwise.filterMap _ (fun c d hcd r hr r' hr' => ?_) hkeys
    rw [hcard c r hr, hcard d r' hr']
    exact hcd
  have htenant : ∀ r ∈ startedRows db tenantId batchId window, r.1.tenantId = tenantId := by
    intro r hr
    have hbatch := (mem_startedRows.mp hr).2.1
    simp only [ofBatch, Bool.and_eq_true, decide_eq_true_eq] at hbatch
    exact hbatch.1
  constructor
  · exact List.pairwise_map.mpr (hrows.imp fun h hid => h.1 (Prod.mk.inj hid).2)
  · refine List.pairwise_map.mpr (hrows.imp_of_mem fun {r r'} hr hr' h hname => ?_)
    exact h.2 ((htenant r hr).trans (htenant r' hr').symm) (Prod.mk.inj hname).2

theorem CardKeys.eq_of (hkeys : CardKeys db) {c d : Card} (hc : c ∈ db.cards) (hd : d ∈ db.cards)
    (h : c.id = d.id ∨ c.tenantId = d.tenantId ∧ c.username = d.username) : c = d := by
  obtain hid | ⟨htenant, hname⟩ := h
  · have hids : (db.cards.map Card.id).Nodup := List.pairwise_map.mpr (hkeys.imp And.left)
    exact List.inj_on_of_nodup_map hids hc hd hid
  · have hnames : (db.cards.map fun c => (c.tenantId, c.username)).Nodup :=
      List.pairwise_map.mpr (hkeys.imp fun h heq => h.2 (Prod.mk.inj heq).1 (Prod.mk.inj heq).2)
    exact List.inj_on_of_nodup_map hnames hc hd (Prod.ext htenant hname)

def realignedCard (tenantId : ℤ) (batchId : ℕ) (window : ℤ) (c : Card) : Card :=
  if ofBatch tenantId batchId c && inScope c then
    match c.firstUsedAt with
    | .null => { c with expireAt := .null }
    | .blank => c
    | .instant f => c.withExpiry (afterSeconds f window)
  else c

theorem rowCard_clearPending (hkeys : CardKeys db) {c : Card} (hc : c ∈ db.cards) :
    rowCard tenantId (startedRows db tenantId batchId window)
        (if isPending tenantId batchId c then { c with expireAt := .null } else c) =
      realignedCard tenantId batchId window c := by
  by_cases hused : (ofBatch tenantId batchId c && inScope c) = true ∧ c.firstUsedAt.time?.isSome
  · obtain ⟨hin, hsome⟩ := hused
    obtain ⟨f, hf⟩ := Option.isSome_iff_exists.mp hsome
    have hfirst : c.firstUsedAt = .instant f := by
      cases h : c.firstUsedAt <;> simp_all [Stamp.time?]
    rw [if_neg (by simp [isPending, hfirst, Stamp.isNull]), realignedCard, if_pos hin, hfirst]
    rw [Bool.and_eq_true] at hin
    exact Keyed.resolve_of_mem (u := (c, afterSeconds f window)) (startedRows_nodup _ _ _ hkeys).1
      (mem_startedRows.mpr ⟨hc, hin.1, hin.2, f, hf, rfl⟩) (by
        have hbatch := hin.1
        simp only [ofBatch, Bool.and_eq_true, decide_eq_true_eq] at hbatch
        rw [hbatch.1])
  · have hother : ∀ r ∈ startedRows db tenantId batchId window,
        ((tenantId, r.1.id) : ℤ × ℕ) ≠ (c.tenantId, c.id) := by
      intro r hr hkey
      obtain ⟨hmem, hbatch, hscope, f, hf, -⟩ := mem_startedRows.mp hr
      have hsame := hkeys.eq_of hmem hc (Or.inl (Prod.mk.inj hkey).2)
      rw [hsame] at hbatch hscope hf
      exact hused ⟨by rw [hbatch, hscope]; rfl, by rw [Option.mem_def.mp hf]; rfl⟩
    have hkept : rowCard tenantId (startedRows db tenantId batchId window)
        (if isPending tenantId batchId c then { c with expireAt := .null } else c) =
          if isPending tenantId batchId c then { c with expireAt := .null } else c := by
      refine Keyed.resolve_of_not_mem fun r hr => ?_
      split_ifs
      · exact hother r hr
      · exact hother r hr
    rw [hkept, realignedCard]
    by_cases hin : (ofBatch tenantId batchId c && inScope c) = true
    · rw [if_pos hin, isPending, hin, Bool.true_and]
      cases hfirst : c.firstUsedAt with
      | null =>
        cases hend : c.expireAt with
        | null =>
          cases c
          simp_all [Stamp.isNull]
        | blank => simp [Stamp.isNull]
        | instant e => simp [Stamp.isNull]
      | blank => simp [Stamp.isNull]
      | instant f => exact absurd ⟨hin, by rw [hfirst]; rfl⟩ hused
    · rw [if_neg hin, isPending, Bool.eq_false_iff.mpr hin]
      simp

section

variable (hkeys : CardKeys db) (hwindow : 0 < window) (now : ℤ) (clear : Bool)
include hkeys hwindow

variable (tenantId batchId) in
theorem realigned_tables :
    (realignBatchCardWindows db now tenantId batchId window clear).1.cards =
        db.cards.map (realignedCard tenantId batchId window) ∧
      (realignBatchCardWindows db now tenantId batchId window clear).1.subscribers =
        db.subscribers.map (rowAccount tenantId (startedRows db tenantId batchId window)) := by
  obtain ⟨hids, hnames⟩ := startedRows_nodup tenantId batchId window hkeys
  rw [realignBatchCardWindows, if_neg (not_le.mpr hwindow)]
  simp only [startedRows_clearPending]
  obtain ⟨hcards, hsubs⟩ := foldl_writeRow hids hnames (clearPending db tenantId batchId)
  rw [hcards, hsubs]
  refine ⟨?_, rfl⟩
  rw [clearPending, Db.updateCards, List.map_map]
  exact List.map_congr_left fun c hc => rowCard_clearPending hkeys hc

end

theorem rowAccount_of_used (hkeys : CardKeys db) {c : Card} (hc : c ∈ db.cards)
    (hbatch : ofBatch tenantId batchId c = true) (hscope : inScope c = true) {f : ℤ}
    (hf : c.firstUsedAt.time? = some f) {s : Subscriber}
    (hs : ofSubscriber tenantId c.username s = true) :
    rowAccount tenantId (startedRows db tenantId batchId window) s =
      s.withExpiry (afterSeconds f window) := by
  simp only [ofSubscriber, Bool.and_eq_true, decide_eq_true_eq] at hs
  exact Keyed.resolve_of_mem (u := (c, afterSeconds f window)) (startedRows_nodup _ _ _ hkeys).2
    (mem_startedRows.mpr ⟨hc, hbatch, hscope, f, hf, rfl⟩) (Prod.ext hs.1.symm hs.2.symm)

theorem rowAccount_of_other {s : Subscriber} (h : ∀ c ∈ db.cards,
    ofBatch tenantId batchId c = true → inScope c = true → c.firstUsedAt.time?.isSome = true →
      ofSubscriber tenantId c.username s = false) :
    rowAccount tenantId (startedRows db tenantId batchId window) s = s := by
  refine Keyed.resolve_of_not_mem fun r hr hkey => ?_
  obtain ⟨hc, hbatch, hscope, f, hf, -⟩ := mem_startedRows.mp hr
  have hother := h r.1 hc hbatch hscope (by rw [Option.mem_def.mp hf]; rfl)
  obtain ⟨htenant, hname⟩ := Prod.mk.inj hkey
  simp [ofSubscriber, ← htenant, ← hname] at hother

variable (tenantId) in
theorem rowAccount_keeps (rows : List (Card × ℤ)) (s : Subscriber) :
    ∃ stamp, rowAccount tenantId rows s = { s with expireAt := stamp } := by
  unfold rowAccount Keyed.resolve
  split
  · exact ⟨_, rfl⟩
  · exact ⟨s.expireAt, rfl⟩

variable (tenantId batchId window) in
theorem realignedCard_keeps (c : Card) :
    ∃ stamp, realignedCard tenantId batchId window c = { c with expireAt := stamp } := by
  unfold realignedCard
  split
  · split
    · exact ⟨_, rfl⟩
    · exact ⟨c.expireAt, rfl⟩
    · exact ⟨_, rfl⟩
  · exact ⟨c.expireAt, rfl⟩

end

/-- The expiries that a batch with this window is to have, where no account but those of its cards
has changed. -/
structure Windowed (db db' : Db) (tenantId : ℤ) (batchId : ℕ) (window : ℤ) : Prop where
  used : ∀ c ∈ db'.cards, ofBatch tenantId batchId c = true → inScope c = true →
    ∀ f ∈ c.firstUsedAt.time?, isExhausted window c.extraSeconds = false →
      c.expireAt = .instant (afterSeconds f (window + c.extraSeconds)) ∧
      ∀ s ∈ db'.subscribers, ofMirror tenantId c.username s = true →
        s.expireAt = .instant (afterSeconds f (window + c.extraSeconds))
  unused : ∀ c ∈ db'.cards, ofBatch tenantId batchId c = true → c.firstUsedAt.time? = none →
    c.expireAt.time? = none ∧
      ∀ s ∈ db'.subscribers, ofMirror tenantId c.username s = true → s.expireAt.time? = none
  others : (db'.subscribers.filter fun s => s.userType ≠ .card) =
    db.subscribers.filter fun s => s.userType ≠ .card

/-- The tables that the realignment brings in line: nothing was granted to a used card, an unused
one that is passed over has no end, nor have its accounts, and no other account bears the name of
a used card. -/
structure RealignExact (db : Db) (tenantId : ℤ) (batchId : ℕ) (window : ℤ) : Prop where
  ungranted : ∀ c ∈ db.cards, ofBatch tenantId batchId c = true → inScope c = true →
    c.firstUsedAt.time?.isSome = true → isExhausted window c.extraSeconds = false →
      c.extraSeconds = 0
  unused : ∀ c ∈ db.cards, ofBatch tenantId batchId c = true → c.firstUsedAt.time? = none →
    (inScope c = true ∧ c.firstUsedAt = .null ∨ c.expireAt.time? = none) ∧
      ∀ s ∈ db.subscribers, ofMirror tenantId c.username s = true → s.expireAt.time? = none
  names : ∀ c ∈ db.cards, ofBatch tenantId batchId c = true → inScope c = true →
    ∀ f ∈ c.firstUsedAt.time?, ∀ s ∈ db.subscribers,
      ofSubscriber tenantId c.username s = true → s.userType ≠ .card →
        s.expireAt = .instant (afterSeconds f window)

section

variable {db : Db} {tenantId : ℤ} {batchId : ℕ} {window : ℤ}

theorem realignedCard_used {c : Card} (hbatch : ofBatch tenantId batchId c = true)
    (hscope : inScope c = true) {f : ℤ} (hf : c.firstUsedAt.time? = some f) :
    realignedCard tenantId batchId window c = c.withExpiry (afterSeconds f window) := by
  have hfirst : c.firstUsedAt = .instant f := by
    cases h : c.firstUsedAt <;> simp_all [Stamp.time?]
  rw [realignedCard, hbatch, hscope, Bool.and_self, if_pos rfl, hfirst]

variable (window) in
theorem realignedCard_unused_iff {c : Card} (hbatch : ofBatch tenantId batchId c = true)
    (hnone : c.firstUsedAt.time? = none) :
    (realignedCard tenantId batchId window c).expireAt.time? = none ↔
      inScope c = true ∧ c.firstUsedAt = .null ∨ c.expireAt.time? = none := by
  rw [realignedCard, hbatch, Bool.true_and]
  cases hscope : inScope c with
  | false => simp
  | true =>
    cases hfirst : c.firstUsedAt with
    | null => simp [Stamp.time?]
    | blank => simp
    | instant f => simp [hfirst, Stamp.time?] at hnone

theorem rowAccount_of_unused (hkeys : CardKeys db) {c : Card} (hc : c ∈ db.cards)
    (hbatch : ofBatch tenantId batchId c = true) (hnone : c.firstUsedAt.time? = none)
    {s : Subscriber} (hs : ofMirror tenantId c.username s = true) :
    rowAccount tenantId (startedRows db tenantId batchId window) s = s := by
  refine rowAccount_of_other fun d hd hdbatch _ hused => ?_
  by_contra hname
  simp only [ofBatch, Bool.and_eq_true, decide_eq_true_eq] at hbatch hdbatch
  simp only [ofSubscriber, ofMirror, Bool.and_eq_true, decide_eq_true_eq,
    Bool.not_eq_false] at hs hname
  have hsame := hkeys.eq_of hd hc
    (Or.inr ⟨hdbatch.1.trans hbatch.1.symm, hname.2.symm.trans hs.2⟩)
  rw [hsame, hnone] at hused
  simp at hused

theorem ofMirror_rowAccount (username : String) (rows : List (Card × ℤ)) (s : Subscriber) :
    ofMirror tenantId username (rowAccount tenantId rows s) = ofMirror tenantId username s := by
  obtain ⟨stamp, hstamp⟩ := rowAccount_keeps tenantId rows s
  rw [hstamp]
  rfl

theorem others_iff {subs : List Subscriber} {g : Subscriber → Subscriber}
    (htype : ∀ s, (g s).userType = s.userType) :
    ((subs.map g).filter fun s => s.userType ≠ .card) =
        (subs.filter fun s => s.userType ≠ .card) ↔
      ∀ s ∈ subs, s.userType ≠ .card → g s = s := by
  have hkept : ((fun s : Subscriber => decide (s.userType ≠ .card)) ∘ g) =
      fun s => decide (s.userType ≠ .card) := by
    funext s
    rw [Function.comp_apply, htype]
  rw [List.filter_map, hkept, Keyed.map_eq_self_iff]
  simp only [List.mem_filter, decide_eq_true_eq, and_imp]

theorem userType_rowAccount (rows : List (Card × ℤ)) (s : Subscriber) :
    (rowAccount tenantId rows s).userType = s.userType := by
  obtain ⟨stamp, hstamp⟩ := rowAccount_keeps tenantId rows s
  rw [hstamp]

section

variable (hkeys : CardKeys db) (hwindow : 0 < window) (now : ℤ) (clear : Bool)
include hkeys hwindow

theorem realignExact_of_windowed (h : Windowed db
    (realignBatchCardWindows db now tenantId batchId window clear).1 tenantId batchId window) :
    RealignExact db tenantId batchId window := by
  obtain ⟨hcards, hsubs⟩ := realigned_tables tenantId batchId hkeys
    hwindow now clear
  have hmem : ∀ c ∈ db.cards, realignedCard tenantId batchId window c ∈
      (realignBatchCardWindows db now tenantId batchId window clear).1.cards := fun c hc => by
    rw [hcards]
    exact List.mem_map_of_mem hc
  constructor
  · intro c hc hbatch hscope hsome hleft
    obtain ⟨f, hf⟩ := Option.isSome_iff_exists.mp hsome
    have hrow := hmem c hc
    rw [realignedCard_used hbatch hscope hf] at hrow
    have hend := (h.used _ hrow hbatch hscope f hf hleft).1
    simp only [Card.withExpiry, Stamp.instant.injEq, afterSeconds, second] at hend
    omega
  · intro c hc hbatch hnone
    obtain ⟨stamp, hstamp⟩ := realignedCard_keeps tenantId batchId window c
    have hrow := hmem c hc
    rw [hstamp] at hrow
    obtain ⟨hend, haccounts⟩ := h.unused _ hrow hbatch hnone
    refine ⟨(realignedCard_unused_iff window hbatch hnone).mp (by rwa [hstamp]),
      fun s hs hmine => haccounts s ?_ hmine⟩
    rw [hsubs, List.mem_map]
    exact ⟨s, hs, rowAccount_of_unused hkeys hc hbatch hnone hmine⟩
  · intro c hc hbatch hscope f hf s hs hname htype
    have hothers := h.others
    rw [hsubs, others_iff (userType_rowAccount _)] at hothers
    have hsame := hothers s hs htype
    rw [rowAccount_of_used hkeys hc hbatch hscope hf hname] at hsame
    exact (congrArg Subscriber.expireAt hsame).symm

theorem windowed_of_realignExact (h : RealignExact db tenantId batchId window) : Windowed db
    (realignBatchCardWindows db now tenantId batchId window clear).1 tenantId batchId window := by
  obtain ⟨hcards, hsubs⟩ := realigned_tables tenantId batchId hkeys
    hwindow now clear
  constructor
  · intro c' hc' hbatch hscope f hf hleft
    rw [hcards] at hc'
    obtain ⟨c, hc, rfl⟩ := List.mem_map.mp hc'
    obtain ⟨stamp, hstamp⟩ := realignedCard_keeps tenantId batchId window c
    rw [hstamp] at hbatch hscope hf hleft
    have hextra := h.ungranted c hc hbatch hscope (by rw [Option.mem_def.mp hf]; rfl) hleft
    rw [realignedCard_used (c := c) hbatch hscope hf]
    simp only [Card.withExpiry, hextra, add_zero, true_and]
    intro s' hs' hmine
    rw [hsubs] at hs'
    obtain ⟨s, hs, rfl⟩ := List.mem_map.mp hs'
    rw [ofMirror_rowAccount] at hmine
    rw [rowAccount_of_used hkeys hc hbatch hscope hf (ofSubscriber_of_mirror hmine)]
    rfl
  · intro c' hc' hbatch hnone
    rw [hcards] at hc'
    obtain ⟨c, hc, rfl⟩ := List.mem_map.mp hc'
    obtain ⟨stamp, hstamp⟩ := realignedCard_keeps tenantId batchId window c
    rw [hstamp] at hbatch hnone
    obtain ⟨hend, haccounts⟩ := h.unused c hc hbatch hnone
    refine ⟨(realignedCard_unused_iff window (c := c) hbatch hnone).mpr hend, fun s' hs' hmine => ?_⟩
    rw [hsubs] at hs'
    obtain ⟨s, hs, rfl⟩ := List.mem_map.mp hs'
    rw [ofMirror_rowAccount, hstamp] at hmine
    rw [rowAccount_of_unused hkeys hc hbatch hnone hmine]
    exact haccounts s hs hmine
  · rw [hsubs, others_iff (userType_rowAccount _)]
    intro s hs htype
    by_cases hused : ∃ c ∈ db.cards, ofBatch tenantId batchId c = true ∧ inScope c = true ∧
        c.firstUsedAt.time?.isSome = true ∧ ofSubscriber tenantId c.username s = true
    · obtain ⟨c, hc, hbatch, hscope, hsome, hname⟩ := hused
      obtain ⟨f, hf⟩ := Option.isSome_iff_exists.mp hsome
      rw [rowAccount_of_used hkeys hc hbatch hscope hf hname, Subscriber.withExpiry,
        ← h.names c hc hbatch hscope f hf s hs hname htype]
    · refine rowAccount_of_other fun c hc hbatch hscope hsome => ?_
      by_contra hname
      exact hused ⟨c, hc, hbatch, hscope, hsome, by simpa using hname⟩

end

theorem expireAt_clearStarted {c : Card} (hbatch : ofBatch tenantId batchId c = true)
    (hscope : inScope c = true) :
    (if isStamped tenantId batchId c then { c with expireAt := .null } else c).expireAt = .null := by
  cases hend : c.expireAt <;> simp [isStamped, hbatch, hscope, hend, Stamp.isNull]

theorem cleared_windowed_iff (hwindow : window ≤ 0) :
    Windowed db (clearStarted db tenantId batchId) tenantId batchId window ↔
      ∀ c ∈ db.cards, ofBatch tenantId batchId c = true →
        if inScope c then c.firstUsedAt.time? = none
        else c.firstUsedAt.time? = none → c.expireAt.time? = none := by
  have hmem : ∀ c ∈ db.cards,
      (if isStamped tenantId batchId c then { c with expireAt := .null } else c) ∈
        (clearStarted db tenantId batchId).cards := fun c hc => List.mem_map_of_mem hc
  constructor
  · intro h c hc hbatch
    have hrow := hmem c hc
    cases hscope : inScope c with
    | true =>
      rw [if_pos rfl]
      by_contra hsome
      obtain ⟨f, hf⟩ := Option.ne_none_iff_exists'.mp hsome
      have hend := (h.used _ hrow (by split_ifs <;> exact hbatch) (by split_ifs <;> exact hscope) f
        (by split_ifs <;> exact hf) (by simp [isExhausted, not_lt.mpr hwindow])).1
      rw [expireAt_clearStarted hbatch hscope] at hend
      cases hend
    | false =>
      rw [if_neg Bool.false_ne_true]
      intro hnone
      have hskipped : isStamped tenantId batchId c = false := by simp [isStamped, hscope]
      rw [hskipped, if_neg Bool.false_ne_true] at hrow
      exact (h.unused c hrow hbatch hnone).1
  · intro h
    constructor
    · intro c' hc' hbatch hscope f hf
      obtain ⟨c, hc, rfl⟩ := List.mem_map.mp hc'
      have hbatch' : ofBatch tenantId batchId c = true := by split_ifs at hbatch <;> exact hbatch
      have hscope' : inScope c = true := by split_ifs at hscope <;> exact hscope
      have hf' : c.firstUsedAt.time? = some f := by split_ifs at hf <;> exact hf
      have hnone := h c hc hbatch'
      rw [if_pos hscope', hf'] at hnone
      cases hnone
    · intro c' hc' hbatch hnone
      obtain ⟨c, hc, rfl⟩ := List.mem_map.mp hc'
      have hbatch' : ofBatch tenantId batchId c = true := by split_ifs at hbatch <;> exact hbatch
      have hnone' : c.firstUsedAt.time? = none := by split_ifs at hnone <;> exact hnone
      have hname : (if isStamped tenantId batchId c then { c with expireAt := .null } else
          c).username = c.username := by split_ifs <;> rfl
      constructor
      · cases hscope : inScope c with
        | true =>
          rw [expireAt_clearStarted hbatch' hscope]
          rfl
        | false =>
          have hskipped : isStamped tenantId batchId c = false := by simp [isStamped, hscope]
          have hopen := h c hc hbatch'
          rw [hscope, if_neg Bool.false_ne_true] at hopen
          rw [hskipped, if_neg Bool.false_ne_true]
          exact hopen hnone'
      · intro s' hs' hmine
        obtain ⟨s, -, rfl⟩ := List.mem_map.mp hs'
        rw [hname] at hmine
        split_ifs at hmine ⊢ with hcleared
        · rfl
        · simp only [ofMirror, Bool.and_eq_true, decide_eq_true_eq] at hmine
          refine absurd ?_ hcleared
          simp only [hmine.1.1, hmine.1.2, decide_true, Bool.true_and, List.any_eq_true]
          exact ⟨c, hc, by simp [hbatch', hmine.2]⟩
    · refine (others_iff fun s => ?_).mpr fun s _ htype => ?_
      · split_ifs <;> rfl
      · exact if_neg (by simp [htype])

theorem batch_writeRow (r : Card × ℤ) (t : ℤ) (id : ℕ) :
    (writeRow tenantId db r).batch t id = db.batch t id := rfl

theorem batch_realign (now : ℤ) (clear : Bool) (t : ℤ) (id : ℕ) :
    (realignBatchCardWindows db now tenantId batchId window clear).1.batch t id =
      db.batch t id := by
  have hrows : ∀ (rows : List (Card × ℤ)) (db : Db),
      (rows.foldl (writeRow tenantId) db).batch t id = db.batch t id := by
    intro rows
    induction rows with
    | nil => exact fun _ => rfl
    | cons r rows ih => exact fun db => (ih (writeRow tenantId db r)).trans (batch_writeRow r t id)
  unfold realignBatchCardWindows
  split_ifs
  · rfl
  · rfl
  · exact hrows _ _

end

def WindowExact (db : Db) (tenantId : ℤ) (batchId : ℕ) (batch : CardBatch) : Prop :=
  let window := cardWindowSeconds batch
  if 0 < window then RealignExact db tenantId batchId window
  else if bySeconds batch then
    ∀ c ∈ db.cards, ofBatch tenantId batchId c = true →
      if inScope c then c.firstUsedAt.time? = none
      else c.firstUsedAt.time? = none → c.expireAt.time? = none
  else Windowed db db tenantId batchId window

theorem update_windowed_iff {db db' : Db} {now tenantId : ℤ} {batchId : ℕ} {change : WindowChange}
    {batch : CardBatch} (hkeys : CardKeys db)
    (hmoves : change.timeValue.isSome = true ∨ change.timeUnit.isSome = true)
    (hupdate : updateBatch db now tenantId batchId change = some db')
    (hbatch : db'.batch tenantId batchId = some batch) :
    Windowed db db' tenantId batchId (cardWindowSeconds batch) ↔
      WindowExact db tenantId batchId batch := by
  have hmoved : change.movesWindow = true := by
    obtain h | h := hmoves <;> simp [WindowChange.movesWindow, h]
  obtain ⟨old, -, hrest⟩ := Option.bind_eq_some_iff.mp hupdate
  obtain ⟨updated, hupdated, hdone⟩ := Option.bind_eq_some_iff.mp hrest
  rw [hmoved, if_pos rfl] at hdone
  split_ifs at hdone
  rw [Option.some_inj] at hdone
  subst hdone
  rw [batch_realign, hupdated, Option.some_inj] at hbatch
  subst hbatch
  -- the update of the batch leaves the cards and the accounts
  set tables := writeWindow db tenantId batchId change
  have hkeys' : CardKeys tables := hkeys
  have hsame : ∀ d, Windowed db d tenantId batchId (cardWindowSeconds updated) ↔
      Windowed tables d tenantId batchId (cardWindowSeconds updated) := fun d =>
    ⟨fun h => ⟨h.used, h.unused, h.others⟩, fun h => ⟨h.used, h.unused, h.others⟩⟩
  rw [hsame, WindowExact]
  by_cases hwindow : 0 < cardWindowSeconds updated
  · rw [if_pos hwindow]
    constructor
    · intro h
      have hexact := realignExact_of_windowed hkeys' hwindow now (bySeconds updated) h
      exact ⟨hexact.ungranted, hexact.unused, hexact.names⟩
    · intro h
      exact windowed_of_realignExact hkeys' hwindow now (bySeconds updated)
        ⟨h.ungranted, h.unused, h.names⟩
  · rw [if_neg hwindow, realignBatchCardWindows, if_pos (not_lt.mp hwindow)]
    cases bySeconds updated with
    | true =>
      rw [if_pos rfl, if_pos rfl]
      exact cleared_windowed_iff (not_lt.mp hwindow)
    | false =>
      rw [if_neg Bool.false_ne_true, if_neg Bool.false_ne_true, ← hsame]
      exact ⟨fun h => ⟨h.used, h.unused, h.others⟩, fun h => ⟨h.used, h.unused, h.others⟩⟩

def sixHours : WindowChange := { timeValue := some 6, timeUnit := some "hours" }

def usedCard (extraSeconds : ℤ) : Card :=
  { freshCard with firstUsedAt := .instant 0, extraSeconds := extraSeconds }

def usedDb (extraSeconds : ℤ) : Db where
  cards := [usedCard extraSeconds]
  batches := [fourHours]
  subscribers := [{ username := "c1", userType := .card }]

theorem update_windowed_six_hours : ∃ db', updateBatch (usedDb 0) 0 1 1 sixHours = some db' ∧
    Windowed (usedDb 0) db' 1 1 (6 * 3600) := by
  have hruns : (updateBatch (usedDb 0) 0 1 1 sixHours).map (fun d => d.batch 1 1) =
      some (some (sixHours.apply fourHours)) := by decide
  obtain ⟨db', hupdate, hbatch⟩ := Option.map_eq_some_iff.mp hruns
  refine ⟨db', hupdate, (update_windowed_iff (by simp [CardKeys, usedDb]) (by decide) hupdate
    hbatch).mpr ?_⟩
  rw [WindowExact, if_pos (by decide)]
  exact ⟨by decide, by decide, by decide⟩

/-- A card to which an hour was granted loses it when the batch gets six hours. -/
theorem granted_hour_dropped :
    ¬∀ (db db' : Db) (now tenantId : ℤ) (batchId : ℕ) (change : WindowChange) (batch : CardBatch),
      CardKeys db → (change.timeValue.isSome = true ∨ change.timeUnit.isSome = true) →
      updateBatch db now tenantId batchId change = some db' →
      db'.batch tenantId batchId = some batch →
      Windowed db db' tenantId batchId (cardWindowSeconds batch) := by
  intro h
  have hruns : (updateBatch (usedDb 3600) 0 1 1 sixHours).map (fun d => (d.batch 1 1, d.cards)) =
      some (some (sixHours.apply fourHours),
        [(usedCard 3600).withExpiry (6 * 3600 * second)]) := by decide
  obtain ⟨db', hupdate, hrow⟩ := Option.map_eq_some_iff.mp hruns
  obtain ⟨hbatch, hcards⟩ := Prod.mk.inj hrow
  have hwindowed := h (usedDb 3600) db' 0 1 1 sixHours _ (by simp [CardKeys, usedDb]) (by decide)
    hupdate hbatch
  have hend := hwindowed.used ((usedCard 3600).withExpiry (6 * 3600 * second))
    (by rw [hcards]; exact List.mem_singleton_self _) (by decide) (by decide) 0 (by decide)
    (by decide)
  exact absurd hend.1 (by decide)

end RadiusModule.CardTime
