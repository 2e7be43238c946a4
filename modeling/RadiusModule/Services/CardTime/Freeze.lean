import RadiusModule.Services.CardTime.Grant

/-!
# Frozen cards

Disabling a card puts what is left of its expiry aside, and enabling it gives
that back. The accounts of the card are not touched, whole seconds are
counted, and 0 stands both for nothing left and for nothing put aside.
-/

namespace RadiusModule.CardTime
open Library CardAccounting CardBatchFlags

/-- `strftime('%s', t)` -/
def sqlSeconds (t : ℤ) : ℤ := t / second

structure FreezeReport where
  frozenRemainingSeconds : ℤ
  expireAtOld : Stamp

structure ThawReport where
  expireAtNew : Stamp
  restoredSeconds : ℤ

def liveRemaining (now : ℤ) (c : Card) : ℤ :=
  (c.expireAt.time?.map fun e => sqlSeconds e - sqlSeconds now).getD 0

def frozenSeconds (now : ℤ) (c : Card) : ℤ :=
  if c.revoked && 0 < c.frozenRemainingSeconds then c.frozenRemainingSeconds
  else max 0 (liveRemaining now c)

def freezeCardTime (db : Db) (now tenantId : ℤ) (id : ℕ) : Option (Db × FreezeReport) :=
  (cardById db tenantId id).map fun card =>
    let frozen := frozenSeconds now card
    (db.updateCards (ofCardId tenantId id) fun c =>
      { c with revoked := true, frozenRemainingSeconds := frozen, expireAt := .null },
      ⟨frozen, card.expireAt⟩)

def thawCardTime (db : Db) (now tenantId : ℤ) (id : ℕ) : Option (Db × ThawReport) :=
  (cardById db tenantId id).map fun card =>
    let frozen := card.frozenRemainingSeconds
    if 0 < frozen then
      let stamp := Stamp.instant (afterSeconds (sqlSeconds now * second) frozen)
      (db.updateCards (ofCardId tenantId id) fun c =>
        { c with revoked := false, frozenRemainingSeconds := 0, expireAt := stamp },
        ⟨stamp, frozen⟩)
    else
      (db.updateCards (ofCardId tenantId id) fun c => { c with revoked := false },
        ⟨card.expireAt, frozen⟩)

inductive Op
  | freeze (now : ℤ)
  | grant (now delta : ℤ)

def Op.seconds : Op → ℤ
  | .freeze _ => 0
  | .grant _ delta => delta

def Op.isFreeze : Op → Bool
  | .freeze _ => true
  | .grant _ _ => false

def Op.step (limit : ℤ) (card : Card) (db : Db) : Op → Option Db
  | .freeze now => (freezeCardTime db now card.tenantId card.id).map Prod.fst
  | .grant now delta => granted db now limit card delta

def grantedSeconds (ops : List Op) : ℤ := (ops.map Op.seconds).sum

/-- Disabled at `t₁`, then `ops`, then enabled at `t₂`. -/
def pause (limit : ℤ) (card : Card) (t₁ : ℤ) (ops : List Op) (t₂ : ℤ) (db : Db) : Option Db :=
  (List.foldlM (Op.step limit card) db (.freeze t₁ :: ops)).bind fun db' =>
    (thawCardTime db' t₂ card.tenantId card.id).map Prod.fst

/-- The ends that login enforces are `later` later, and the extra seconds more by `extra`. -/
def Conserved (db db' : Db) (card : Card) (later extra : ℤ) : Prop :=
  (cardById db' card.tenantId card.id).map (fun c => (c.expireAt.time?, c.extraSeconds)) =
      some (card.expireAt.time?.map (· + later), card.extraSeconds + extra) ∧
    (db'.subscribers.filter (ofMirror card.tenantId card.username)).map
        (fun s => s.expireAt.time?) =
      (db.subscribers.filter (ofMirror card.tenantId card.username)).map fun s =>
        s.expireAt.time?.map (· + later)

def frozenBefore (card : Card) : Bool := card.revoked && 0 < card.frozenRemainingSeconds

def mirrorsOpen (db : Db) (card : Card) : Prop :=
  ∀ s ∈ db.subscribers, ofMirror card.tenantId card.username s = true → s.expireAt.time? = none

def Restorable (db : Db) (card : Card) (t₁ t₂ : ℤ) : Prop :=
  (match card.expireAt.time?, frozenBefore card with
    | none, frozen => frozen = false
    | some e, false =>
      sqlSeconds t₁ < sqlSeconds e ∧ t₁ % second = e % second + t₂ % second
    | some e, true =>
      sqlSeconds t₂ * second + card.frozenRemainingSeconds * second = e + (t₂ - t₁)) ∧
  (mirrorsOpen db card ∨ t₂ = t₁)

def Extendable (db : Db) (card : Card) : Prop :=
  let base := baseBudget (db.batch card.tenantId card.batchId)
  card.expireAt.time? = none ∧ frozenBefore card = false ∧ mirrorsOpen db card ∧
    (modeOf (db.batch card.tenantId card.batchId) = .bySeconds ∨
      card.firstUsedAt.time? = none) ∧ 0 ≤ base + card.extraSeconds

def parkedRow (card : Card) (frozen extra : ℤ) : Card :=
  { card with
    revoked := true
    frozenRemainingSeconds := frozen
    expireAt := .null
    extraSeconds := extra }

structure Parked (db₀ : Db) (card : Card) (frozen extra : ℤ) (db : Db) : Prop where
  row : cardById db card.tenantId card.id = some (parkedRow card frozen extra)
  subscribers : db.subscribers = db₀.subscribers
  batches : db.batches = db₀.batches

section

variable {db₀ db db' : Db} {card : Card} {frozen extra limit : ℤ}

theorem frozenSeconds_parked (now : ℤ) (h : 0 ≤ frozen) :
    frozenSeconds now (parkedRow card frozen extra) = frozen := by
  have hlive : liveRemaining now (parkedRow card frozen extra) = 0 := rfl
  rw [frozenSeconds, hlive]
  by_cases hpos : 0 < frozen
  · simp [parkedRow, hpos]
  · simp [parkedRow, le_antisymm (not_lt.mp hpos) h]

theorem frozenSeconds_nonneg (now : ℤ) (c : Card) : 0 ≤ frozenSeconds now c := by
  simp only [frozenSeconds, Bool.and_eq_true, decide_eq_true_eq]
  split_ifs <;> omega

theorem parked_of_freeze {now : ℤ} (hrow : cardById db card.tenantId card.id = some card)
    (hstep : Op.step limit card db (.freeze now) = some db') :
    Parked db card (frozenSeconds now card) card.extraSeconds db' := by
  simp only [Op.step, freezeCardTime, hrow, Option.map_some, Option.some_inj] at hstep
  subst hstep
  refine ⟨?_, rfl, rfl⟩
  rw [cardById_updateCards, hrow, Option.map_some]
  · rfl
  · exact fun _ => rfl

theorem Parked.freeze (h : Parked db₀ card frozen extra db) (hfrozen : 0 ≤ frozen) {now : ℤ}
    (hstep : Op.step limit card db (.freeze now) = some db') :
    Parked db₀ card frozen extra db' := by
  simp only [Op.step, freezeCardTime, h.row, Option.map_some, Option.some_inj,
    frozenSeconds_parked now hfrozen] at hstep
  subst hstep
  refine ⟨?_, h.subscribers, h.batches⟩
  rw [cardById_updateCards, h.row, Option.map_some]
  · rfl
  · exact fun _ => rfl

theorem grantWrite_parked (card : Card) (now frozen : ℤ) {mode : Mode} {base delta : ℤ}
    (hmode : mode = .bySeconds ∨ card.firstUsedAt.time? = none) (hdelta : 0 < delta)
    (hleft : 0 ≤ base + extra) :
    grantWrite now mode base (parkedRow card frozen extra) delta =
      ⟨extra + delta, none, .keep, false⟩ := by
  have hextra : newExtra base (parkedRow card frozen extra) delta = extra + delta :=
    max_eq_left (by change -base ≤ extra + delta; omega)
  have hused' : isExhausted base (extra + delta) = false := by
    simp only [isExhausted, Bool.and_eq_false_iff, decide_eq_false_iff_not]
    omega
  have hopen := @grantWrite_open now base delta mode (parkedRow card frozen extra) hmode rfl
    (by rwa [hextra])
  rw [hopen, hextra]

theorem Parked.grant (h : Parked db₀ card frozen extra db) {now delta : ℤ} (hdelta : 0 < delta)
    (hmode : modeOf (db₀.batch card.tenantId card.batchId) = .bySeconds ∨
      card.firstUsedAt.time? = none)
    (hleft : 0 ≤ baseBudget (db₀.batch card.tenantId card.batchId) + extra)
    (hstep : Op.step limit card db (.grant now delta) = some db') :
    Parked db₀ card frozen (extra + delta) db' := by
  have hbatch : db.batch card.tenantId (parkedRow card frozen extra).batchId =
      db₀.batch card.tenantId card.batchId := by
    simp only [Db.batch, h.batches]
    rfl
  have hwrite := grantWrite_parked card now frozen hmode hdelta hleft
  simp only [Op.step, granted, grantCardTime, h.row, hbatch, hwrite, hdelta.ne', if_false] at hstep
  split_ifs at hstep
  rw [Option.some_inj, Write.apply] at hstep
  subst hstep
  refine ⟨?_, h.subscribers, h.batches⟩
  rw [cardById_updateCards, h.row, Option.map_some]
  · rfl
  · exact fun _ => rfl

theorem Parked.run_freezes (hfrozen : 0 ≤ frozen) {ops : List Op} :
    ∀ {db}, Parked db₀ card frozen extra db → (∀ op ∈ ops, op.isFreeze = true) →
      List.foldlM (Op.step limit card) db ops = some db' → Parked db₀ card frozen extra db' := by
  induction ops with
  | nil =>
    intro db h _ hrun
    exact Option.some_inj.mp hrun ▸ h
  | cons op ops ih =>
    intro db h hall hrun
    obtain ⟨db₁, hstep, hrest⟩ := Option.bind_eq_some_iff.mp hrun
    cases op with
    | freeze now =>
      exact ih (h.freeze hfrozen hstep) (fun op hop => hall op (List.mem_cons_of_mem _ hop)) hrest
    | grant now delta => exact absurd (hall _ List.mem_cons_self) (by simp [Op.isFreeze])

theorem Parked.run_grants {ops : List Op}
    (hmode : modeOf (db₀.batch card.tenantId card.batchId) = .bySeconds ∨
      card.firstUsedAt.time? = none) :
    ∀ {db extra}, Parked db₀ card 0 extra db →
      0 ≤ baseBudget (db₀.batch card.tenantId card.batchId) + extra →
      (∀ op ∈ ops, op.isFreeze = true ∨ 0 < op.seconds) →
      List.foldlM (Op.step limit card) db ops = some db' →
      Parked db₀ card 0 (extra + grantedSeconds ops) db' := by
  induction ops with
  | nil =>
    intro db extra h _ _ hrun
    rw [grantedSeconds, List.map_nil, List.sum_nil, add_zero]
    exact Option.some_inj.mp hrun ▸ h
  | cons op ops ih =>
    intro db extra h hleft hall hrun
    obtain ⟨db₁, hstep, hrest⟩ := Option.bind_eq_some_iff.mp hrun
    have hrestAll := fun op hop => hall op (List.mem_cons_of_mem _ hop)
    rw [grantedSeconds, List.map_cons, List.sum_cons, ← add_assoc]
    cases op with
    | freeze now =>
      rw [Op.seconds, add_zero]
      exact ih (h.freeze le_rfl hstep) hleft hrestAll hrest
    | grant now delta =>
      have hdelta : 0 < delta := (hall _ List.mem_cons_self).resolve_left (by simp [Op.isFreeze])
      have hmore := h.grant hdelta hmode hleft hstep
      rw [Op.seconds]
      exact ih hmore (hleft.trans (by omega)) hrestAll hrest

theorem Parked.thaw (h : Parked db₀ card frozen extra db) {now : ℤ}
    (hthaw : (thawCardTime db now card.tenantId card.id).map Prod.fst = some db') :
    (cardById db' card.tenantId card.id).map (fun c => (c.expireAt.time?, c.extraSeconds)) =
        some (if 0 < frozen then some (afterSeconds (sqlSeconds now * second) frozen) else none,
          extra) ∧
      db'.subscribers = db₀.subscribers := by
  simp only [thawCardTime, h.row, Option.map_some, Option.some_inj] at hthaw
  subst hthaw
  by_cases hpos : 0 < frozen
  · simp only [parkedRow, hpos, if_true]
    refine ⟨?_, h.subscribers⟩
    rw [cardById_updateCards, h.row]
    · rfl
    · exact fun _ => rfl
  · simp only [parkedRow, hpos, if_false]
    refine ⟨?_, h.subscribers⟩
    rw [cardById_updateCards, h.row]
    · rfl
    · exact fun _ => rfl

end

theorem mirrors_later_iff {db : Db} {card : Card} {later : ℤ} :
    (db.subscribers.filter (ofMirror card.tenantId card.username)).map
        (fun s => s.expireAt.time?) =
      (db.subscribers.filter (ofMirror card.tenantId card.username)).map
        (fun s => s.expireAt.time?.map (· + later)) ↔ mirrorsOpen db card ∨ later = 0 := by
  rw [List.map_inj_left]
  constructor
  · intro h
    by_cases hlater : later = 0
    · exact Or.inr hlater
    · refine Or.inl fun s hs hmine => ?_
      have hsame := h s (List.mem_filter.mpr ⟨hs, hmine⟩)
      cases hend : s.expireAt.time? with
      | none => rfl
      | some e =>
        rw [hend, Option.map_some, Option.some_inj] at hsame
        exact absurd hsame (by omega)
  · rintro (hopen | rfl) s hs
    · rw [hopen s (List.mem_filter.mp hs).1 (List.mem_filter.mp hs).2, Option.map_none]
    · cases s.expireAt.time? <;> simp

theorem restored_iff {card : Card} {t₁ t₂ : ℤ} :
    (if 0 < frozenSeconds t₁ card then
        some (afterSeconds (sqlSeconds t₂ * second) (frozenSeconds t₁ card)) else none) =
      card.expireAt.time?.map (· + (t₂ - t₁)) ↔
    match card.expireAt.time?, frozenBefore card with
    | none, frozen => frozen = false
    | some e, false =>
      sqlSeconds t₁ < sqlSeconds e ∧ t₁ % second = e % second + t₂ % second
    | some e, true =>
      sqlSeconds t₂ * second + card.frozenRemainingSeconds * second = e + (t₂ - t₁) := by
  cases hbefore : frozenBefore card with
  | true =>
    have hkept : frozenSeconds t₁ card = card.frozenRemainingSeconds := if_pos hbefore
    have hpos : 0 < card.frozenRemainingSeconds := by
      simp only [frozenBefore, Bool.and_eq_true, decide_eq_true_eq] at hbefore
      exact hbefore.2
    rw [hkept, if_pos hpos]
    cases card.expireAt.time? <;> simp [afterSeconds]
  | false =>
    have hleft : frozenSeconds t₁ card = max 0 (liveRemaining t₁ card) :=
      if_neg (by simpa [frozenBefore] using hbefore)
    cases hend : card.expireAt.time? with
    | none => simp [hleft, liveRemaining, hend]
    | some e =>
      rw [hleft, liveRemaining, hend, Option.map_some, Option.getD_some, Option.map_some]
      by_cases hlater : sqlSeconds t₁ < sqlSeconds e
      · rw [max_eq_right (by omega), if_pos (by omega), Option.some_inj]
        refine Iff.trans ?_ (and_iff_right hlater).symm
        simp only [afterSeconds, sqlSeconds, second]
        omega
      · rw [max_eq_left (by omega), if_neg (lt_irrefl 0)]
        simp [hlater]

theorem pause_conserves {db db' : Db} {card : Card} {limit t₁ t₂ : ℤ} {ops : List Op}
    (hrow : cardById db card.tenantId card.id = some card)
    (hrun : pause limit card t₁ ops t₂ db = some db') :
    ((∀ op ∈ ops, op.isFreeze = true) →
      (Conserved db db' card (t₂ - t₁) 0 ↔ Restorable db card t₁ t₂)) ∧
    ((∀ op ∈ ops, op.isFreeze = true ∨ 0 < op.seconds) → Extendable db card →
      Conserved db db' card (t₂ - t₁ + grantedSeconds ops * second) (grantedSeconds ops)) := by
  obtain ⟨parked, hops, hthaw⟩ := Option.bind_eq_some_iff.mp hrun
  obtain ⟨db₁, hfreeze, hrest⟩ := Option.bind_eq_some_iff.mp hops
  have hparked := parked_of_freeze hrow hfreeze
  constructor
  · intro hall
    obtain ⟨hend, hsubs⟩ :=
      (hparked.run_freezes (frozenSeconds_nonneg t₁ card) hall hrest).thaw hthaw
    rw [Conserved, Restorable, hend, hsubs, mirrors_later_iff, sub_eq_zero, Option.some_inj,
      Prod.mk.injEq, add_zero, restored_iff]
    tauto
  · rintro hall ⟨hopen, hbefore, hmirrors, hmode, hleft⟩
    have hzero : frozenSeconds t₁ card = 0 := by
      rw [frozenSeconds, show (card.revoked && decide (0 < card.frozenRemainingSeconds)) = false from
        hbefore, liveRemaining, hopen]
      rfl
    rw [hzero] at hparked
    obtain ⟨hend, hsubs⟩ := (hparked.run_grants hmode hleft hall hrest).thaw hthaw
    rw [Conserved, hend, hsubs, mirrors_later_iff, hopen]
    exact ⟨rfl, Or.inl hmirrors⟩

def endingCard : Card :=
  { id := 1, batchId := 1, username := "c1", expireAt := .instant (3600 * second) }

def endingDb : Db := { cards := [endingCard] }

theorem pause_conserves_hour : ∃ db',
    pause 0 endingCard (600 * second) [.freeze (700 * second)] (900 * second) endingDb = some db' ∧
      Conserved endingDb db' endingCard (900 * second - 600 * second) 0 := by
  have hruns : (pause 0 endingCard (600 * second) [.freeze (700 * second)] (900 * second)
      endingDb).isSome = true := by decide
  obtain ⟨db', hrun⟩ := Option.isSome_iff_exists.mp hruns
  exact ⟨db', hrun, ((pause_conserves (by rfl) hrun).1 (by decide)).mpr
    ⟨⟨by decide, by decide⟩, Or.inl fun s hs => absurd hs List.not_mem_nil⟩⟩

/-- A card that had ended when it was disabled is enabled without an end. -/
theorem ended_card_unlimited :
    ¬∀ (db db' : Db) (card : Card) (limit t₁ t₂ : ℤ) (ops : List Op), t₁ ≤ t₂ →
      cardById db card.tenantId card.id = some card →
      pause limit card t₁ ops t₂ db = some db' → (∀ op ∈ ops, op.isFreeze = true) →
      Conserved db db' card (t₂ - t₁) 0 := by
  intro h
  have hends : (pause 0 endingCard (4000 * second) [] (5000 * second) endingDb).map (fun d =>
      (cardById d 1 1).map fun c => (c.expireAt.time?, c.extraSeconds)) =
        some (some (none, 0)) := by decide
  obtain ⟨db', hrun, hrow⟩ := Option.map_eq_some_iff.mp hends
  have hconserved := h endingDb db' endingCard 0 (4000 * second) (5000 * second) []
    (by decide) (by rfl) hrun (by simp)
  exact absurd (hrow.symm.trans hconserved.1) (by decide)

end RadiusModule.CardTime
