import RadiusModule.Library.Traverse
import RadiusModule.Services.CardReconcile.TimeReconcile

/-!
# What a time reconcile does to the tables

A plan's fixes are the rows that are due. Applying them gives each such card,
and the subscriber of its name, the expiry the card is due, and reverting gives
every row back.
-/

namespace RadiusModule.CardReconcile

open Library CardAccounting

section Texts

variable (texts : DateTexts)

theorem max_secondsSince_mono {t u : DateTime} (h : t.1 ≤ u.1) (now : DateTime) :
    max 0 (t.secondsSince now) ≤ max 0 (u.secondsSince now) := by
  have hle : ((t.1 - now.1 : ℤ) : ℚ) / 1000000 ≤ ((u.1 - now.1 : ℤ) : ℚ) / 1000000 := by
    have hdiff : ((t.1 - now.1 : ℤ) : ℚ) ≤ ((u.1 - now.1 : ℤ) : ℚ) := by
      exact_mod_cast sub_le_sub_right h now.1
    exact div_le_div_of_nonneg_right hdiff (by norm_num)
  rcases le_or_gt 0 (((t.1 - now.1 : ℤ) : ℚ) / 1000000) with hpos | hneg
  · exact max_le_max le_rfl (Binary64.fl_mono hpos hle)
  · have hzero : max 0 (t.secondsSince now) = 0 := max_eq_left (Binary64.fl_nonpos hneg.le)
    rw [hzero]
    exact le_max_left _ _

theorem lt_of_not_withinLimit {target now : DateTime} {expire : Option DateTime}
    (h : withinLimit (max 0 (target.secondsSince now)) (remainingFrom expire now) = false) :
    ∃ e, expire = some e ∧ e.1 < target.1 := by
  cases expire with
  | none => cases h
  | some e =>
    refine ⟨e, rfl, ?_⟩
    by_contra hle
    have hmono := max_secondsSince_mono (not_lt.mp hle) now
    simp only [remainingFrom, Option.map_some, withinLimit, decide_eq_false_iff_not] at h
    exact h hmono

theorem withinLimit_self (target now : DateTime) :
    withinLimit (max 0 (target.secondsSince now)) (remainingFrom (some target) now) = true := by
  simp [remainingFrom, withinLimit]

/-- The row is a live card with time left that has connected, and its first connection gives
it longer than what is stored. -/
structure Due (t : Tables) (tenantId : ℤ) (now : DateTime) (r : Row) (target : DateTime) :
    Prop where
  live : r.card.revoked = false
  mode : r.batch.countFromFirstConnect = true
  budget : 0 < r.budget
  left : isExhausted r.budget r.card.extraSeconds = false
  first : ∃ first, firstConnection texts t tenantId r.card.username r.card.firstUsedAt =
    some first ∧ first.addSeconds? (budgetWithExtra r.budget r.card.extraSeconds) = some target
  longer : withinLimit (max 0 (target.secondsSince now))
    (remainingFrom (parseDt texts r.card.expireAt) now) = false

variable {texts}

theorem Due.unique {t : Tables} {tenantId : ℤ} {now : DateTime} {r : Row}
    {target target' : DateTime} (h : Due texts t tenantId now r target)
    (h' : Due texts t tenantId now r target') : target = target' := by
  obtain ⟨first, hfirst, hadd⟩ := h.first
  obtain ⟨first', hfirst', hadd'⟩ := h'.first
  rw [hfirst] at hfirst'
  obtain rfl := Option.some_inj.mp hfirst'
  exact Option.some_inj.mp (hadd.symm.trans hadd')

theorem planCard_cases {t : Tables} {tenantId : ℤ} {now : DateTime} {r : Row} {d : CardDecision}
    (h : planCard texts t tenantId now r = .ok d) :
    d.cardId = r.card.id ∧ d.username = r.card.username ∧
      ((∃ target, Due texts t tenantId now r target ∧ d.action = .fix ∧
          d.newExpireAt = some (texts.isoformat target)) ∨
        (d.action ≠ .fix ∧ ∀ target, ¬ Due texts t tenantId now r target)) := by
  simp only [planCard] at h
  by_cases hlive : r.card.revoked = true
  · rw [if_pos hlive] at h
    cases h
    exact ⟨rfl, rfl, .inr ⟨by simp, fun _ hd => by simp [hd.live] at hlive⟩⟩
  rw [if_neg hlive] at h
  by_cases hmode : r.batch.countFromFirstConnect = true
  · rw [if_neg (by simp [accountingMode, hmode])] at h
    by_cases hbudget : r.budget ≤ 0
    · rw [if_pos hbudget] at h
      cases h
      exact ⟨rfl, rfl, .inr ⟨by simp, fun _ hd => absurd hd.budget (not_lt.mpr hbudget)⟩⟩
    rw [if_neg hbudget] at h
    by_cases hleft : isExhausted r.budget r.card.extraSeconds = true
    · rw [if_pos hleft] at h
      cases h
      exact ⟨rfl, rfl, .inr ⟨by simp, fun _ hd => by simp [hd.left] at hleft⟩⟩
    rw [if_neg hleft] at h
    cases hfirst : firstConnection texts t tenantId r.card.username r.card.firstUsedAt with
    | none =>
      rw [hfirst] at h
      cases h
      refine ⟨rfl, rfl, .inr ⟨by simp, fun _ hd => ?_⟩⟩
      obtain ⟨first, hsome, -⟩ := hd.first
      rw [hfirst] at hsome
      cases hsome
    | some first =>
      rw [hfirst] at h
      dsimp only [addSeconds] at h
      cases hadd : first.addSeconds? (budgetWithExtra r.budget r.card.extraSeconds) with
      | none =>
        rw [hadd] at h
        cases h
      | some target =>
        rw [hadd] at h
        dsimp only [bind, Except.bind] at h
        by_cases hkeep : withinLimit (max 0 (target.secondsSince now))
            (remainingFrom (parseDt texts r.card.expireAt) now) = true
        · rw [if_pos hkeep] at h
          cases h
          refine ⟨rfl, rfl, .inr ⟨by simp, fun target' hd => ?_⟩⟩
          obtain ⟨first', hfirst', hadd'⟩ := hd.first
          rw [hfirst] at hfirst'
          obtain rfl := Option.some_inj.mp hfirst'
          obtain rfl := Option.some_inj.mp (hadd.symm.trans hadd')
          rw [hd.longer] at hkeep
          cases hkeep
        · rw [if_neg hkeep] at h
          cases h
          exact ⟨rfl, rfl, .inl ⟨target, ⟨by simpa using hlive, hmode, not_le.mp hbudget,
            by simpa using hleft, ⟨first, hfirst, hadd⟩, by simpa using hkeep⟩, rfl, rfl⟩⟩
  · rw [if_pos (by simp [accountingMode, hmode])] at h
    cases h
    exact ⟨rfl, rfl, .inr ⟨by simp, fun _ hd => hmode hd.mode⟩⟩

abbrev Fix := Card × DateTime

def Writes (texts : DateTexts) (d : CardDecision) (f : Fix) : Prop :=
  d.cardId = f.1.id ∧ d.username = f.1.username ∧ d.newExpireAt = some (texts.isoformat f.2)

theorem map_of_writes {ds : List CardDecision} {fixes : List Fix}
    (h : List.Forall₂ (Writes texts) ds fixes) :
    ds.map CardDecision.cardId = fixes.map (fun f => f.1.id) ∧
      ds.map CardDecision.username = fixes.map fun f => f.1.username := by
  induction h with
  | nil => exact ⟨rfl, rfl⟩
  | cons hd _ ih => simp [hd.1, hd.2.1, ih]

theorem fixes_of_decisions {t : Tables} {tenantId : ℤ} {now : DateTime} {rows : List Row}
    {ds : List CardDecision}
    (h : List.Forall₂ (fun r d => planCard texts t tenantId now r = .ok d) rows ds) :
    ∃ fixes : List Fix, List.Forall₂ (Writes texts) (ds.filter fun d => d.action = .fix) fixes ∧
      (∀ f, f ∈ fixes ↔ ∃ r ∈ rows, r.card = f.1 ∧ Due texts t tenantId now r f.2) ∧
      (fixes.map Prod.fst).Sublist (rows.map Row.card) := by
  induction h with
  | nil => exact ⟨[], .nil, by simp, .slnil⟩
  | @cons r d rows ds hrd _ ih =>
    obtain ⟨fixes, hwrites, hmem, hsub⟩ := ih
    obtain ⟨hid, hname, hcases⟩ := planCard_cases hrd
    rcases hcases with ⟨target, hdue, haction, hnew⟩ | ⟨haction, hnot⟩
    · refine ⟨(r.card, target) :: fixes, ?_, ?_, ?_⟩
      · rw [List.filter_cons_of_pos (by simpa using haction)]
        exact .cons ⟨hid, hname, hnew⟩ hwrites
      · intro f
        rw [List.mem_cons, hmem]
        constructor
        · rintro (rfl | ⟨q, hq, hcard, hd⟩)
          · exact ⟨r, List.mem_cons_self, rfl, hdue⟩
          · exact ⟨q, List.mem_cons_of_mem _ hq, hcard, hd⟩
        · rintro ⟨q, hq, hcard, hd⟩
          rcases List.mem_cons.mp hq with rfl | hq
          · exact .inl (Prod.ext hcard.symm (hd.unique hdue))
          · exact .inr ⟨q, hq, hcard, hd⟩
      · exact hsub.cons_cons _
    · refine ⟨fixes, ?_, ?_, hsub.cons _⟩
      · rwa [List.filter_cons_of_neg (by simpa using haction)]
      · intro f
        rw [hmem]
        constructor
        · rintro ⟨q, hq, hcard, hd⟩
          exact ⟨q, List.mem_cons_of_mem _ hq, hcard, hd⟩
        · rintro ⟨q, hq, hcard, hd⟩
          rcases List.mem_cons.mp hq with rfl | hq
          · exact absurd hd (hnot _)
          · exact ⟨q, hq, hcard, hd⟩

theorem card_of_candidate {t : Tables} {tenantId : ℤ} {batchId : Option ℤ}
    {username : Option String} {c : Card} {r : Row}
    (h : candidate t tenantId batchId username c = some r) : r.card = c ∧ c.tenantId = tenantId := by
  simp only [candidate] at h
  split_ifs at h with hfits
  cases hb : batchOf t c with
  | none =>
    rw [hb] at h
    cases h
  | some b =>
    rw [hb] at h
    dsimp only at h
    split_ifs at h
    rw [← Option.some_inj.mp h]
    exact ⟨rfl, hfits.1⟩

theorem candidateRows_card_sublist (t : Tables) (tenantId : ℤ) (batchId : Option ℤ)
    (username : Option String) :
    ((candidateRows t tenantId batchId username).map Row.card).Sublist t.cards := by
  have hgen : ∀ cards : List Card,
      ((cards.filterMap (candidate t tenantId batchId username)).map Row.card).Sublist cards := by
    intro cards
    induction cards with
    | nil => exact .slnil
    | cons c cards ih =>
      cases hc : candidate t tenantId batchId username c with
      | none =>
        rw [List.filterMap_cons_none hc]
        exact ih.cons _
      | some r =>
        rw [List.filterMap_cons_some hc, List.map_cons, (card_of_candidate hc).1]
        exact ih.cons_cons _
  exact hgen t.cards

theorem mem_candidateRows {t : Tables} {tenantId : ℤ} {batchId : Option ℤ}
    {username : Option String} {r : Row} (h : r ∈ candidateRows t tenantId batchId username) :
    r.card ∈ t.cards ∧ r.card.tenantId = tenantId := by
  obtain ⟨c, hc, hr⟩ := List.mem_filterMap.mp h
  obtain ⟨hcard, htenant⟩ := card_of_candidate hr
  rw [hcard]
  exact ⟨hc, htenant⟩

theorem candidateRows_card_injective {t : Tables} {tenantId : ℤ} {batchId : Option ℤ}
    {username : Option String} {q r : Row} (hq : q ∈ candidateRows t tenantId batchId username)
    (hr : r ∈ candidateRows t tenantId batchId username) (h : q.card = r.card) : q = r := by
  obtain ⟨c, -, hc⟩ := List.mem_filterMap.mp hq
  obtain ⟨d, -, hd⟩ := List.mem_filterMap.mp hr
  rw [(card_of_candidate hc).1, (card_of_candidate hd).1] at h
  subst h
  exact Option.some_inj.mp (hc.symm.trans hd)

theorem fixes_of_plan {t : Tables} (hkeyed : t.Keyed) {tenantId : ℤ} {now : DateTime}
    {batchId : Option ℤ} {username : Option String} {plan : ReconcilePlan}
    (h : planReconcile texts t tenantId now batchId username = .ok plan) :
    plan.tenantId = tenantId ∧ plan.now = texts.isoformat now ∧
      ∃ fixes : List Fix, List.Forall₂ (Writes texts) plan.toFix fixes ∧
        (∀ f, f ∈ fixes ↔ ∃ r ∈ candidateRows t tenantId batchId username,
          r.card = f.1 ∧ Due texts t tenantId now r f.2) ∧
        (fixes.map fun f => f.1.key).Nodup ∧ (fixes.map fun f => f.1.name).Nodup := by
  simp only [planReconcile] at h
  cases hds : (candidateRows t tenantId batchId username).mapM
      (planCard texts t tenantId now) with
  | error e =>
    rw [hds] at h
    cases h
  | ok ds =>
    rw [hds] at h
    cases h
    obtain ⟨fixes, hwrites, hmem, hsub⟩ := fixes_of_decisions (forall₂_of_mapM_ok hds)
    have hcards := hsub.trans (candidateRows_card_sublist t tenantId batchId username)
    refine ⟨rfl, rfl, fixes, hwrites, hmem, ?_, ?_⟩
    · have hnodup := (hcards.map Card.key).nodup hkeyed.cardIds
      rwa [List.map_map] at hnodup
    · have hnodup := (hcards.map Card.name).nodup hkeyed.cardNames
      rwa [List.map_map] at hnodup

theorem keys_setCardExpiry (t : Tables) (tenantId id : ℤ) (text : Option String) :
    (setCardExpiry t tenantId id text).cards.map Card.key = t.cards.map Card.key :=
  Keyed.map_key_modify (fun c => c.key_withExpiry text) _ _

theorem names_setSubscriberExpiry (t : Tables) (tenantId : ℤ) (username : String)
    (text : Option String) :
    (setSubscriberExpiry t tenantId username text).subscribers.map Subscriber.name =
      t.subscribers.map Subscriber.name :=
  Keyed.map_key_modify (fun s => s.name_withExpiry text) _ _

def writeFix (texts : DateTexts) (tenantId : ℤ) (t : Tables) (f : Fix) : Tables :=
  setSubscriberExpiry (setCardExpiry t tenantId f.1.id (some (texts.isoformat f.2))) tenantId
    f.1.username (some (texts.isoformat f.2))

def Ready (texts : DateTexts) (tenantId : ℤ) (now : DateTime) (t : Tables) (f : Fix) : Prop :=
  f.1 ∈ t.cards ∧ f.1.tenantId = tenantId ∧
    withinLimit (max 0 (f.2.secondsSince now))
      (remainingFrom (parseDt texts f.1.expireAt) now) = false

theorem isoformat_ne_empty (t : DateTime) : texts.isoformat t ≠ "" := by
  intro hempty
  have hmark := texts.mark_mem t
  rw [hempty] at hmark
  exact absurd hmark (by decide)

theorem applyFix_tables {tenantId : ℤ} {now : DateTime} {s : Applied}
    (hkeys : (s.tables.cards.map Card.key).Nodup) {d : CardDecision} {f : Fix}
    (hwrites : Writes texts d f) (hready : Ready texts tenantId now s.tables f) :
    (applyFix texts tenantId now s d).tables = writeFix texts tenantId s.tables f := by
  obtain ⟨hid, hname, hnew⟩ := hwrites
  obtain ⟨hcard, htenant, hlonger⟩ := hready
  have hget : Keyed.get? Card.key (tenantId, d.cardId) s.tables.cards = some f.1 := by
    have hkey : Card.key f.1 = (tenantId, d.cardId) := by rw [Card.key, htenant, hid]
    rw [← hkey]
    exact Keyed.get?_of_mem hkeys hcard
  rw [applyFix, hnew]
  dsimp only
  rw [if_neg (isoformat_ne_empty _), parseDt_isoformat]
  dsimp only
  rw [hget]
  dsimp only
  rw [if_neg (by rw [hlonger]; exact Bool.false_ne_true), hid, hname]
  rfl

theorem keys_writeFix (tenantId : ℤ) (t : Tables) (f : Fix) :
    (writeFix texts tenantId t f).cards.map Card.key = t.cards.map Card.key :=
  keys_setCardExpiry t tenantId f.1.id _

theorem Ready.writeFix {tenantId : ℤ} {now : DateTime} {t : Tables} {f g : Fix}
    (hready : Ready texts tenantId now t g) (hne : g.1.key ≠ f.1.key)
    (hf : f.1.tenantId = tenantId) : Ready texts tenantId now (writeFix texts tenantId t f) g := by
  refine ⟨List.mem_map.mpr ⟨g.1, hready.1, if_neg fun hkey => hne ?_⟩, hready.2⟩
  rw [hkey, Card.key, hf]

theorem foldl_applyFix_tables {tenantId : ℤ} {now : DateTime} {ds : List CardDecision}
    {fixes : List Fix} (hwrites : List.Forall₂ (Writes texts) ds fixes)
    (hnodup : (fixes.map fun f => f.1.key).Nodup) {s : Applied}
    (hkeys : (s.tables.cards.map Card.key).Nodup)
    (hready : ∀ f ∈ fixes, Ready texts tenantId now s.tables f) :
    (ds.foldl (applyFix texts tenantId now) s).tables =
      fixes.foldl (writeFix texts tenantId) s.tables := by
  induction hwrites generalizing s with
  | nil => rfl
  | @cons d f ds fixes hd _ ih =>
    obtain ⟨hnew, hnodup⟩ := List.nodup_cons.mp hnodup
    have hf := hready f List.mem_cons_self
    have htables := applyFix_tables hkeys hd hf
    rw [List.foldl_cons, List.foldl_cons, ← htables]
    refine ih hnodup (by rwa [htables, keys_writeFix]) fun g hg => ?_
    rw [htables]
    refine (hready g (List.mem_cons_of_mem _ hg)).writeFix (fun hkey => ?_) hf.2.1
    exact hnew (List.mem_map.mpr ⟨g, hg, hkey⟩)

def fixedCard (texts : DateTexts) (fixes : List Fix) : Card → Card :=
  Keyed.resolve Card.key (fun f : Fix => f.1.key)
    (fun f c => c.withExpiry (some (texts.isoformat f.2))) fixes

def fixedSubscriber (texts : DateTexts) (fixes : List Fix) : Subscriber → Subscriber :=
  Keyed.resolve Subscriber.name (fun f : Fix => f.1.name)
    (fun f s => s.withExpiry (some (texts.isoformat f.2))) fixes

theorem foldl_writeFix {tenantId : ℤ} {fixes : List Fix}
    (htenant : ∀ f ∈ fixes, f.1.tenantId = tenantId)
    (hkeys : (fixes.map fun f => f.1.key).Nodup) (hnames : (fixes.map fun f => f.1.name).Nodup)
    (t : Tables) : fixes.foldl (writeFix texts tenantId) t =
      { t with
        cards := t.cards.map (fixedCard texts fixes)
        subscribers := t.subscribers.map (fixedSubscriber texts fixes) } := by
  have hfold : ∀ t : Tables, fixes.foldl (writeFix texts tenantId) t =
      { t with
        cards := fixes.foldl (fun rows f => Keyed.modify Card.key f.1.key
          (·.withExpiry (some (texts.isoformat f.2))) rows) t.cards
        subscribers := fixes.foldl (fun rows f => Keyed.modify Subscriber.name f.1.name
          (·.withExpiry (some (texts.isoformat f.2))) rows) t.subscribers } := by
    clear hkeys hnames
    induction fixes with
    | nil => exact fun _ => rfl
    | cons f fixes ih =>
      intro t
      have hf : f.1.tenantId = tenantId := htenant f List.mem_cons_self
      rw [List.foldl_cons, ih fun g hg => htenant g (List.mem_cons_of_mem _ hg), writeFix, ← hf]
      rfl
  have hcards := Keyed.foldl_modify (fun f : Fix => f.1.key)
    (fun f c => Card.withExpiry c (some (texts.isoformat f.2))) (fun _ c => c.key_withExpiry _)
    hkeys t.cards
  have hsubs := Keyed.foldl_modify (fun f : Fix => f.1.name)
    (fun f s => Subscriber.withExpiry s (some (texts.isoformat f.2)))
    (fun _ s => s.name_withExpiry _) hnames t.subscribers
  rw [hfold, hcards, hsubs]
  rfl

end Texts

theorem setCardExpiry_comm (t : Tables) (tenantId : ℤ) {id id' : ℤ} (h : id ≠ id')
    (text text' : Option String) :
    setCardExpiry (setCardExpiry t tenantId id text) tenantId id' text' =
      setCardExpiry (setCardExpiry t tenantId id' text') tenantId id text := by
  have hne : ((tenantId, id') : ℤ × ℤ) ≠ (tenantId, id) := fun hkey => h (Prod.mk.inj hkey).2.symm
  simp only [setCardExpiry]
  rw [Keyed.modify_comm (fun c => c.key_withExpiry text') (fun c => c.key_withExpiry text) hne]

theorem setSubscriberExpiry_comm (t : Tables) (tenantId : ℤ) {name name' : String}
    (h : name ≠ name') (text text' : Option String) :
    setSubscriberExpiry (setSubscriberExpiry t tenantId name text) tenantId name' text' =
      setSubscriberExpiry (setSubscriberExpiry t tenantId name' text') tenantId name text := by
  have hne : ((tenantId, name') : ℤ × String) ≠ (tenantId, name) :=
    fun hkey => h (Prod.mk.inj hkey).2.symm
  simp only [setSubscriberExpiry]
  rw [Keyed.modify_comm (fun s => s.name_withExpiry text') (fun s => s.name_withExpiry text) hne]

theorem revertEntry_comm (tenantId : ℤ) (t : Tables) {e e' : UndoEntry}
    (hid : e.cardId ≠ e'.cardId) (hname : e.username ≠ e'.username) :
    revertEntry tenantId (revertEntry tenantId t e) e' =
      revertEntry tenantId (revertEntry tenantId t e') e := by
  have hcards := setCardExpiry_comm t tenantId hid e.oldCardExpireAt e'.oldCardExpireAt
  have hsubs := setSubscriberExpiry_comm t tenantId hname e.oldSubscriberExpireAt
    e'.oldSubscriberExpireAt
  simp only [setCardExpiry, setSubscriberExpiry, Tables.mk.injEq, true_and, and_true]
    at hcards hsubs
  cases he : e.hadSubscriber <;> cases he' : e'.hadSubscriber <;>
    simp [revertEntry, setCardExpiry, setSubscriberExpiry, he, he', hcards, hsubs]

theorem revert_revertEntry (tenantId : ℤ) (t : Tables) {e : UndoEntry} {us : List UndoEntry}
    (h : ∀ u ∈ us, e.cardId ≠ u.cardId ∧ e.username ≠ u.username) :
    revert tenantId (revertEntry tenantId t e) us =
      revertEntry tenantId (revert tenantId t us) e := by
  induction us generalizing t with
  | nil => rfl
  | cons u us ih =>
    obtain ⟨hid, hname⟩ := h u List.mem_cons_self
    simp only [revert, List.foldl_cons] at ih ⊢
    rw [revertEntry_comm tenantId t hid hname, ih _ fun v hv => h v (List.mem_cons_of_mem _ hv)]

def UniqueRows (t : Tables) : Prop :=
  (t.cards.map Card.key).Nodup ∧ (t.subscribers.map Subscriber.name).Nodup

section Texts

variable {texts : DateTexts}

theorem applyFix_undo {tenantId : ℤ} {now : DateTime} {s : Applied} (hkeys : UniqueRows s.tables)
    (d : CardDecision) : applyFix texts tenantId now s d = s ∨
      ∃ t e, applyFix texts tenantId now s d = ⟨t, s.undo ++ [e]⟩ ∧ UniqueRows t ∧
        e.cardId = d.cardId ∧ e.username = d.username ∧ revertEntry tenantId t e = s.tables := by
  unfold applyFix
  cases d.newExpireAt with
  | none => exact .inl rfl
  | some text =>
    dsimp only
    by_cases hempty : text = ""
    · rw [if_pos hempty]
      exact .inl rfl
    rw [if_neg hempty]
    cases parseDt texts (some text) with
    | none => exact .inl rfl
    | some newDt =>
      dsimp only
      cases hcur : Keyed.get? Card.key (tenantId, d.cardId) s.tables.cards with
      | none => exact .inl rfl
      | some cur =>
        dsimp only
        split_ifs
        · exact .inl rfl
        refine .inr ⟨_, _, rfl, ⟨?_, ?_⟩, rfl, rfl, ?_⟩
        · have hcards := keys_setCardExpiry s.tables tenantId d.cardId
            (some (texts.isoformat newDt))
          exact hcards.symm ▸ hkeys.1
        · have hsubs := names_setSubscriberExpiry
            (setCardExpiry s.tables tenantId d.cardId (some (texts.isoformat newDt))) tenantId
            d.username (some (texts.isoformat newDt))
          exact hsubs.symm ▸ hkeys.2
        · have hcards := Keyed.modify_modify_of_get?
            (f := fun c => c.withExpiry (some (texts.isoformat newDt)))
            (g := fun c => c.withExpiry cur.expireAt) (fun c => c.key_withExpiry _) hkeys.1 hcur
            rfl
          cases hsub : Keyed.get? Subscriber.name (tenantId, d.username) s.tables.subscribers with
          | none =>
            have hsubs := Keyed.modify_of_get?_none hsub
              (fun s => s.withExpiry (some (texts.isoformat newDt)))
            simp [revertEntry, setCardExpiry, setSubscriberExpiry, hcards, hsubs]
          | some sub =>
            have hsubs := Keyed.modify_modify_of_get?
              (f := fun s => s.withExpiry (some (texts.isoformat newDt)))
              (g := fun s => s.withExpiry sub.expireAt) (fun s => s.name_withExpiry _) hkeys.2 hsub
              rfl
            simp [revertEntry, setCardExpiry, setSubscriberExpiry, hcards, hsubs]

theorem revert_foldl_applyFix {tenantId : ℤ} {now : DateTime} {ds : List CardDecision}
    (hids : (ds.map CardDecision.cardId).Nodup) (hnames : (ds.map CardDecision.username).Nodup)
    {s : Applied} (hkeys : UniqueRows s.tables) :
    ∃ us, (ds.foldl (applyFix texts tenantId now) s).undo = s.undo ++ us ∧
      (∀ u ∈ us, ∃ d ∈ ds, u.cardId = d.cardId ∧ u.username = d.username) ∧
      revert tenantId (ds.foldl (applyFix texts tenantId now) s).tables us = s.tables := by
  induction ds generalizing s with
  | nil => exact ⟨[], by simp, by simp, rfl⟩
  | cons d ds ih =>
    obtain ⟨hid, hids⟩ := List.nodup_cons.mp hids
    obtain ⟨hname, hnames⟩ := List.nodup_cons.mp hnames
    rw [List.foldl_cons]
    rcases applyFix_undo hkeys d with hskip | ⟨t, e, hwrite, hkeys', heid, hename, hback⟩
    · rw [hskip]
      obtain ⟨us, hundo, hfrom, hrevert⟩ := ih hids hnames hkeys
      refine ⟨us, hundo, fun u hu => ?_, hrevert⟩
      obtain ⟨d', hd', hu⟩ := hfrom u hu
      exact ⟨d', List.mem_cons_of_mem _ hd', hu⟩
    · rw [hwrite]
      obtain ⟨us, hundo, hfrom, hrevert⟩ := ih hids hnames (s := ⟨t, s.undo ++ [e]⟩) hkeys'
      refine ⟨e :: us, by rw [hundo]; simp, ?_, ?_⟩
      · rintro u (_ | ⟨_, hu⟩)
        · exact ⟨d, List.mem_cons_self, heid, hename⟩
        · obtain ⟨d', hd', hu⟩ := hfrom u hu
          exact ⟨d', List.mem_cons_of_mem _ hd', hu⟩
      · have hother : ∀ u ∈ us, e.cardId ≠ u.cardId ∧ e.username ≠ u.username := by
          intro u hu
          obtain ⟨d', hd', huid, huname⟩ := hfrom u hu
          refine ⟨fun h => hid ?_, fun h => hname ?_⟩
          · exact List.mem_map.mpr ⟨d', hd', by rw [← huid, ← h, heid]⟩
          · exact List.mem_map.mpr ⟨d', hd', by rw [← huname, ← h, hename]⟩
        show revert tenantId (revertEntry tenantId _ e) us = s.tables
        rw [revert_revertEntry tenantId _ hother, hrevert, hback]

end Texts

end RadiusModule.CardReconcile
