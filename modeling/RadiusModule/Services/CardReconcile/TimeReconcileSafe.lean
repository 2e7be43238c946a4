import RadiusModule.Services.CardReconcile.TimeReconcileRuns

/-!
# When a time reconcile is safe

A second plan finds nothing to fix and a revert restores every row. No card's
expiry moves earlier; a subscriber's does unless it was read as a date no later
than what the card of its name is due.
-/

namespace RadiusModule.CardReconcile

open Library CardAccounting

section Texts

variable {texts : DateTexts}

def Row.withExpiry (r : Row) (text : Option String) : Row :=
  { r with card := r.card.withExpiry text }

def fixedText (texts : DateTexts) (fixes : List Fix) (c : Card) : Option String :=
  (fixedCard texts fixes c).expireAt

theorem fixedCard_eq (fixes : List Fix) (c : Card) :
    fixedCard texts fixes c = c.withExpiry (fixedText texts fixes c) := by
  simp only [fixedText, fixedCard, Keyed.resolve]
  cases fixes.find? fun f => f.1.key = c.key <;> rfl

theorem fixedCard_of_mem {fixes : List Fix} (hkeys : (fixes.map fun f => f.1.key).Nodup)
    {f : Fix} (hf : f ∈ fixes) :
    fixedCard texts fixes f.1 = f.1.withExpiry (some (texts.isoformat f.2)) :=
  Keyed.resolve_of_mem (k := fun f : Fix => f.1.key) hkeys hf rfl

theorem fixedCard_of_not_mem {fixes : List Fix} {c : Card} (h : ∀ f ∈ fixes, f.1.key ≠ c.key) :
    fixedCard texts fixes c = c := Keyed.resolve_of_not_mem h

def fixedTables (texts : DateTexts) (fixes : List Fix) (t : Tables) : Tables :=
  { t with
    cards := t.cards.map (fixedCard texts fixes)
    subscribers := t.subscribers.map (fixedSubscriber texts fixes) }

variable (texts) in
theorem candidate_withExpiry (fixes : List Fix) (t : Tables) (tenantId : ℤ) (batchId : Option ℤ)
    (username : Option String) (c : Card) (text : Option String) :
    candidate (fixedTables texts fixes t) tenantId batchId username (c.withExpiry text) =
      (candidate t tenantId batchId username c).map (·.withExpiry text) := by
  have hbatch : batchOf (fixedTables texts fixes t) (c.withExpiry text) = batchOf t c := rfl
  have hplan : planOf (fixedTables texts fixes t) (c.withExpiry text) = planOf t c := rfl
  simp only [candidate, hbatch, hplan, Card.tenantId_withExpiry, Card.batchId_withExpiry,
    Card.username_withExpiry]
  by_cases hfits : c.tenantId = tenantId ∧ (∀ b ∈ batchId, c.batchId = b) ∧
      ∀ u ∈ username, c.username = u
  · rw [if_pos hfits, if_pos hfits]
    cases batchOf t c with
    | none => rfl
    | some b =>
      dsimp only
      split_ifs <;> rfl
  · rw [if_neg hfits, if_neg hfits]
    rfl

theorem candidateRows_fixed (fixes : List Fix) (t : Tables) (tenantId : ℤ) (batchId : Option ℤ)
    (username : Option String) :
    candidateRows (fixedTables texts fixes t) tenantId batchId username =
      (candidateRows t tenantId batchId username).map fun r =>
        r.withExpiry (fixedText texts fixes r.card) := by
  have hgen : ∀ cards : List Card, (cards.map (fixedCard texts fixes)).filterMap
      (candidate (fixedTables texts fixes t) tenantId batchId username) =
      (cards.filterMap (candidate t tenantId batchId username)).map fun r =>
        r.withExpiry (fixedText texts fixes r.card) := by
    intro cards
    induction cards with
    | nil => rfl
    | cons c cards ih =>
      have hcand := candidate_withExpiry texts fixes t tenantId batchId username c
        (fixedText texts fixes c)
      rw [← fixedCard_eq] at hcand
      cases hc : candidate t tenantId batchId username c with
      | none =>
        rw [hc] at hcand
        rw [List.map_cons, List.filterMap_cons_none hcand, List.filterMap_cons_none hc, ih]
      | some r =>
        rw [hc] at hcand
        rw [List.map_cons, List.filterMap_cons_some hcand, List.filterMap_cons_some hc, ih,
          List.map_cons, (card_of_candidate hc).1]
  exact hgen t.cards

theorem cardResetSince_fixed (fixes : List Fix) (t : Tables) (tenantId : ℤ) (username : String) :
    cardResetSince (fixedTables texts fixes t) tenantId username =
      cardResetSince t tenantId username := by
  have hfields (c : Card) : (fixedCard texts fixes c).tenantId = c.tenantId ∧
      (fixedCard texts fixes c).username = c.username ∧
      (fixedCard texts fixes c).usageResetAt = c.usageResetAt := by
    rw [fixedCard_eq]
    exact ⟨rfl, rfl, rfl⟩
  have hfind : (fixedTables texts fixes t).cards.find?
      (fun c => c.tenantId = tenantId ∧ c.username = username) =
      (t.cards.find? fun c => c.tenantId = tenantId ∧ c.username = username).map
        (fixedCard texts fixes) := by
    simp only [fixedTables, List.find?_map, Function.comp_def, (hfields _).1, (hfields _).2.1]
  rw [cardResetSince, cardResetSince, hfind]
  cases t.cards.find? fun c => c.tenantId = tenantId ∧ c.username = username with
  | none => rfl
  | some c => exact congrArg toSpaceTs (hfields c).2.2

theorem firstConnection_fixed (fixes : List Fix) (t : Tables) (tenantId : ℤ) (username : String)
    (stamp : Option String) :
    firstConnection texts (fixedTables texts fixes t) tenantId username stamp =
      firstConnection texts t tenantId username stamp := by
  simp only [firstConnection, cardResetSince_fixed]
  rfl

theorem planCard_again (fixes : List Fix) {t : Tables} {tenantId : ℤ} {now : DateTime} {r : Row}
    {d : CardDecision} (h : planCard texts t tenantId now r = .ok d) (text : Option String) :
    ∃ d', planCard texts (fixedTables texts fixes t) tenantId now (r.withExpiry text) = .ok d' := by
  have hfirst : firstConnection texts (fixedTables texts fixes t) tenantId r.card.username
      r.card.firstUsedAt = firstConnection texts t tenantId r.card.username r.card.firstUsedAt :=
    firstConnection_fixed fixes t tenantId r.card.username r.card.firstUsedAt
  have hbudget : (r.withExpiry text).budget = r.budget := rfl
  simp only [planCard] at h ⊢
  rw [hbudget]
  by_cases hlive : r.card.revoked = true
  · exact ⟨_, if_pos hlive⟩
  rw [if_neg (c := (r.withExpiry text).card.revoked = true) hlive]
  rw [if_neg hlive] at h
  by_cases hmode : accountingMode r.batch.countFromFirstConnect ≠ .fromFirstConnect
  · exact ⟨_, if_pos hmode⟩
  rw [if_neg (c := accountingMode (r.withExpiry text).batch.countFromFirstConnect ≠ _) hmode]
  rw [if_neg hmode] at h
  by_cases hnone : r.budget ≤ 0
  · exact ⟨_, if_pos hnone⟩
  rw [if_neg hnone] at h ⊢
  by_cases hleft : isExhausted r.budget r.card.extraSeconds = true
  · exact ⟨_, if_pos hleft⟩
  rw [if_neg (c := isExhausted r.budget (r.withExpiry text).card.extraSeconds = true) hleft]
  rw [if_neg hleft] at h
  have hfirst' : firstConnection texts (fixedTables texts fixes t) tenantId
      (r.withExpiry text).card.username (r.withExpiry text).card.firstUsedAt =
      firstConnection texts t tenantId r.card.username r.card.firstUsedAt := hfirst
  rw [hfirst']
  cases hconn : firstConnection texts t tenantId r.card.username r.card.firstUsedAt with
  | none => exact ⟨_, rfl⟩
  | some first =>
    rw [hconn] at h
    dsimp only at h ⊢
    cases hadd : addSeconds first (budgetWithExtra r.budget r.card.extraSeconds) with
    | error e =>
      rw [hadd] at h
      cases h
    | ok target =>
      have hadd' : addSeconds first
          (budgetWithExtra r.budget (r.withExpiry text).card.extraSeconds) = .ok target := hadd
      rw [hadd']
      dsimp only [bind, Except.bind]
      split_ifs <;> exact ⟨_, rfl⟩

def expiryOf (texts : DateTexts) (text : Option String) : WithTop ℤ :=
  match parseDt texts text with
  | some t => (t.1 : WithTop ℤ)
  | none => ⊤

theorem expiryOf_isoformat (t : DateTime) :
    expiryOf texts (some (texts.isoformat t)) = (t.1 : WithTop ℤ) := by
  rw [expiryOf, parseDt_isoformat]

theorem expiryOf_le_iff {text : Option String} {t : ℤ} :
    expiryOf texts text ≤ (t : WithTop ℤ) ↔ ∃ e, parseDt texts text = some e ∧ e.1 ≤ t := by
  rw [expiryOf]
  cases parseDt texts text with
  | none => simp
  | some e => simp

structure SafeRun (texts : DateTexts) (utcnow : DateTime) (t : Tables) (tenantId : ℤ)
    (now : DateTime) (batchId : Option ℤ) (username : Option String) (plan : ReconcilePlan) :
    Prop where
  cards : List.Forall₂ (fun c c' => c'.key = c.key ∧
    expiryOf texts c.expireAt ≤ expiryOf texts c'.expireAt) t.cards
    (applyReconcile texts utcnow t plan).tables.cards
  subscribers : List.Forall₂ (fun s s' => s'.name = s.name ∧
    expiryOf texts s.expireAt ≤ expiryOf texts s'.expireAt) t.subscribers
    (applyReconcile texts utcnow t plan).tables.subscribers
  idempotent : ∃ again, planReconcile texts (applyReconcile texts utcnow t plan).tables tenantId
    now batchId username = .ok again ∧ again.toFix = []
  reversible : revert tenantId (applyReconcile texts utcnow t plan).tables
    (applyReconcile texts utcnow t plan).undo = t

theorem due_fixed {fixes : List Fix} {t : Tables} {tenantId : ℤ} {now : DateTime} {r : Row}
    {text : Option String} {target : DateTime}
    (h : Due texts (fixedTables texts fixes t) tenantId now (r.withExpiry text) target)
    (hlonger : withinLimit (max 0 (target.secondsSince now))
      (remainingFrom (parseDt texts r.card.expireAt) now) = false) :
    Due texts t tenantId now r target := by
  obtain ⟨first, hfirst, hadd⟩ := h.first
  rw [firstConnection_fixed] at hfirst
  exact ⟨h.live, h.mode, h.budget, h.left, ⟨first, hfirst, hadd⟩, hlonger⟩

theorem plan_again {t : Tables} {tenantId : ℤ} {now : DateTime} {batchId : Option ℤ}
    {username : Option String} {plan : ReconcilePlan} {fixes : List Fix}
    (hplan : planReconcile texts t tenantId now batchId username = .ok plan)
    (hmem : ∀ f, f ∈ fixes ↔ ∃ r ∈ candidateRows t tenantId batchId username,
      r.card = f.1 ∧ Due texts t tenantId now r f.2)
    (hkeys : (fixes.map fun f => f.1.key).Nodup) (hunique : (t.cards.map Card.key).Nodup) :
    ∃ again, planReconcile texts (fixedTables texts fixes t) tenantId now batchId username =
      .ok again ∧ again.toFix = [] := by
  simp only [planReconcile] at hplan
  cases hds : (candidateRows t tenantId batchId username).mapM (planCard texts t tenantId now) with
  | error e =>
    rw [hds] at hplan
    cases hplan
  | ok ds =>
    have hdecided := forall₂_of_mapM_ok hds
    have hagain : ∃ ds', (candidateRows (fixedTables texts fixes t) tenantId batchId username).mapM
        (planCard texts (fixedTables texts fixes t) tenantId now) = .ok ds' := by
      refine exists_mapM_ok fun r' hr' => ?_
      rw [candidateRows_fixed] at hr'
      obtain ⟨r, hr, rfl⟩ := List.mem_map.mp hr'
      obtain ⟨d, -, hd⟩ := exists_right_of_forall₂ hdecided hr
      exact planCard_again fixes hd _
    obtain ⟨ds', hds'⟩ := hagain
    refine ⟨⟨tenantId, texts.isoformat now, ds'⟩, by rw [planReconcile, hds']; rfl, ?_⟩
    rw [ReconcilePlan.toFix, List.filter_eq_nil_iff]
    intro d' hd'
    obtain ⟨r', hr', hdecide⟩ := exists_left_of_forall₂ (forall₂_of_mapM_ok hds') hd'
    rw [candidateRows_fixed] at hr'
    obtain ⟨r, hr, rfl⟩ := List.mem_map.mp hr'
    obtain ⟨-, -, hcases⟩ := planCard_cases hdecide
    rcases hcases with ⟨target, hdue, -, -⟩ | ⟨haction, -⟩
    · exfalso
      have hlonger := hdue.longer
      by_cases hfixed : ∃ f ∈ fixes, f.1 = r.card
      · -- a card that was due holds its target now
        obtain ⟨f, hf, hcard⟩ := hfixed
        obtain ⟨q, hq, hqcard, hqdue⟩ := (hmem f).mp hf
        have htext : fixedText texts fixes r.card = some (texts.isoformat f.2) := by
          rw [← hcard, fixedText, fixedCard_of_mem hkeys hf, Card.expireAt_withExpiry]
        obtain rfl := candidateRows_card_injective hq hr (hqcard.trans hcard)
        obtain ⟨first, hfirst, hadd⟩ := hqdue.first
        obtain ⟨first', hfirst', hadd'⟩ := hdue.first
        have hsame : first' = first := by
          rw [firstConnection_fixed] at hfirst'
          exact Option.some_inj.mp (hfirst'.symm.trans hfirst)
        rw [hsame] at hadd'
        have htarget : target = f.2 := Option.some_inj.mp (hadd'.symm.trans hadd)
        have hstored : (q.withExpiry (fixedText texts fixes q.card)).card.expireAt =
            some (texts.isoformat target) := by
          rw [htarget]
          exact htext
        rw [hstored, parseDt_isoformat, withinLimit_self] at hlonger
        cases hlonger
      · -- any other card is as it was
        have hsame : fixedText texts fixes r.card = r.card.expireAt := by
          rw [fixedText, fixedCard_of_not_mem]
          intro f hf hkey
          obtain ⟨q, hq, hqcard, -⟩ := (hmem f).mp hf
          refine hfixed ⟨f, hf, ?_⟩
          have hqmem := (mem_candidateRows hq).1
          rw [hqcard] at hqmem
          exact List.inj_on_of_nodup_map hunique hqmem (mem_candidateRows hr).1 hkey
        have hdue' : Due texts t tenantId now r target := by
          refine due_fixed hdue ?_
          have htext : (r.withExpiry (fixedText texts fixes r.card)).card.expireAt =
              r.card.expireAt := hsame
          rwa [htext] at hlonger
        exact hfixed ⟨(r.card, target), (hmem _).mpr ⟨r, hr, rfl, hdue'⟩, rfl⟩
    · simpa using haction

theorem applied_tables (utcnow : DateTime) (db : Db) {tenantId : ℤ} {now : DateTime}
    {batchId : Option ℤ} {username : Option String} {plan : ReconcilePlan}
    (hplan : planReconcile texts db.1 tenantId now batchId username = .ok plan) :
    ∃ fixes : List Fix,
      (applyReconcile texts utcnow db.1 plan).tables = fixedTables texts fixes db.1 ∧
      revert tenantId (applyReconcile texts utcnow db.1 plan).tables
        (applyReconcile texts utcnow db.1 plan).undo = db.1 ∧
      (∀ f, f ∈ fixes ↔ ∃ r ∈ candidateRows db.1 tenantId batchId username,
        r.card = f.1 ∧ Due texts db.1 tenantId now r f.2) ∧
      (fixes.map fun f => f.1.key).Nodup ∧ (fixes.map fun f => f.1.name).Nodup := by
  obtain ⟨htenant, hnow, fixes, hwrites, hmem, hkeys, hnames⟩ := fixes_of_plan db.2 hplan
  have hclock : (parseDt texts (some plan.now)).getD utcnow = now := by
    rw [hnow, parseDt_isoformat]
    rfl
  have hready : ∀ f ∈ fixes, Ready texts tenantId now db.1 f := by
    intro f hf
    obtain ⟨r, hr, hcard, hdue⟩ := (hmem f).mp hf
    rw [Ready, ← hcard]
    exact ⟨(mem_candidateRows hr).1, (mem_candidateRows hr).2, hdue.longer⟩
  have hids : (plan.toFix.map CardDecision.cardId).Nodup := by
    rw [(map_of_writes hwrites).1]
    refine List.Nodup.of_map (fun id => ((tenantId, id) : ℤ × ℤ)) ?_
    rw [List.map_map]
    rwa [List.map_congr_left fun f hf => (Prod.ext (hready f hf).2.1 rfl :
      f.1.key = (tenantId, f.1.id))] at hkeys
  have husers : (plan.toFix.map CardDecision.username).Nodup := by
    rw [(map_of_writes hwrites).2]
    refine List.Nodup.of_map (fun name => ((tenantId, name) : ℤ × String)) ?_
    rw [List.map_map]
    rwa [List.map_congr_left fun f hf => (Prod.ext (hready f hf).2.1 rfl :
      f.1.name = (tenantId, f.1.username))] at hnames
  refine ⟨fixes, ?_, ?_, hmem, hkeys, hnames⟩
  · rw [applyReconcile, htenant, hclock, foldl_applyFix_tables hwrites hkeys db.2.cardIds hready]
    exact foldl_writeFix (fun f hf => (hready f hf).2.1) hkeys hnames db.1
  · obtain ⟨us, hundo, -, hrevert⟩ := @revert_foldl_applyFix texts tenantId now plan.toFix hids
      husers ⟨db.1, []⟩ ⟨db.2.cardIds, db.2.subscriberNames⟩
    rw [List.nil_append] at hundo
    rw [applyReconcile, htenant, hclock, hundo, hrevert]

theorem fixedSubscriber_of_mem {fixes : List Fix} (hnames : (fixes.map fun f => f.1.name).Nodup)
    {f : Fix} (hf : f ∈ fixes) {s : Subscriber} (hs : s.name = f.1.name) :
    fixedSubscriber texts fixes s = s.withExpiry (some (texts.isoformat f.2)) :=
  Keyed.resolve_of_mem (k := fun f : Fix => f.1.name) hnames hf hs.symm

theorem fixedSubscriber_of_not_mem {fixes : List Fix} {s : Subscriber}
    (h : ∀ f ∈ fixes, f.1.name ≠ s.name) : fixedSubscriber texts fixes s = s :=
  Keyed.resolve_of_not_mem h

theorem extends_cards {fixes : List Fix} {t : Tables} {tenantId : ℤ} {now : DateTime}
    {batchId : Option ℤ} {username : Option String}
    (hmem : ∀ f, f ∈ fixes ↔ ∃ r ∈ candidateRows t tenantId batchId username,
      r.card = f.1 ∧ Due texts t tenantId now r f.2)
    (hkeys : (fixes.map fun f => f.1.key).Nodup) (hunique : (t.cards.map Card.key).Nodup)
    {c : Card} (hc : c ∈ t.cards) : (fixedCard texts fixes c).key = c.key ∧
      expiryOf texts c.expireAt ≤ expiryOf texts (fixedCard texts fixes c).expireAt := by
  by_cases hfixed : ∃ f ∈ fixes, f.1.key = c.key
  · obtain ⟨f, hf, hkey⟩ := hfixed
    obtain ⟨r, hr, hcard, hdue⟩ := (hmem f).mp hf
    have hin := (mem_candidateRows hr).1
    rw [hcard] at hin
    obtain rfl := List.inj_on_of_nodup_map hunique hin hc hkey
    rw [fixedCard_of_mem hkeys hf]
    refine ⟨rfl, ?_⟩
    rw [Card.expireAt_withExpiry, expiryOf_isoformat, expiryOf_le_iff, ← hcard]
    obtain ⟨e, he, hlt⟩ := lt_of_not_withinLimit hdue.longer
    exact ⟨e, he, hlt.le⟩
  · rw [fixedCard_of_not_mem fun f hf hkey => hfixed ⟨f, hf, hkey⟩]
    exact ⟨rfl, le_rfl⟩

theorem SafeRun.subscriber_le {utcnow : DateTime} {db : Db} {tenantId : ℤ} {now : DateTime}
    {batchId : Option ℤ} {username : Option String} {plan : ReconcilePlan}
    (hplan : planReconcile texts db.1 tenantId now batchId username = .ok plan)
    (hsafe : SafeRun texts utcnow db.1 tenantId now batchId username plan) {r : Row}
    (hr : r ∈ candidateRows db.1 tenantId batchId username) {target : DateTime}
    (hdue : Due texts db.1 tenantId now r target) {s : Subscriber} (hs : s ∈ db.1.subscribers)
    (hname : s.name = r.card.name) : ∃ e, parseDt texts s.expireAt = some e ∧ e.1 ≤ target.1 := by
  obtain ⟨fixes, htables, -, hmem, -, hnames⟩ := applied_tables utcnow db hplan
  have hsub := hsafe.subscribers
  rw [htables] at hsub
  have hrow := List.forall₂_same.mp (List.forall₂_map_right_iff.mp hsub) s hs
  have hf : (r.card, target) ∈ fixes := (hmem _).mpr ⟨r, hr, rfl, hdue⟩
  rw [fixedSubscriber_of_mem hnames hf hname, Subscriber.expireAt_withExpiry,
    expiryOf_isoformat, expiryOf_le_iff] at hrow
  exact hrow.2

/-- A run is safe exactly when no subscriber has more than the card of its name is due. -/
theorem safeRun_iff (texts : DateTexts) (utcnow : DateTime) (db : Db) (tenantId : ℤ)
    (now : DateTime) (batchId : Option ℤ) (username : Option String) (plan : ReconcilePlan)
    (hplan : planReconcile texts db.1 tenantId now batchId username = .ok plan) :
    SafeRun texts utcnow db.1 tenantId now batchId username plan ↔
      ∀ r ∈ candidateRows db.1 tenantId batchId username,
        ∀ target, Due texts db.1 tenantId now r target →
          ∀ s ∈ db.1.subscribers, s.name = r.card.name →
            ∃ e, parseDt texts s.expireAt = some e ∧ e.1 ≤ target.1 := by
  constructor
  · intro hsafe r hr target hdue s hs hname
    exact hsafe.subscriber_le hplan hr hdue hs hname
  · intro hcond
    obtain ⟨fixes, htables, hrevert, hmem, hkeys, hnames⟩ := applied_tables utcnow db hplan
    refine ⟨?_, ?_, ?_, hrevert⟩
    · rw [htables]
      refine List.forall₂_map_right_iff.mpr (List.forall₂_same.mpr fun c hc => ?_)
      exact extends_cards hmem hkeys db.2.cardIds hc
    · rw [htables]
      refine List.forall₂_map_right_iff.mpr (List.forall₂_same.mpr fun s hs => ?_)
      by_cases hfixed : ∃ f ∈ fixes, f.1.name = s.name
      · obtain ⟨f, hf, hname⟩ := hfixed
        obtain ⟨r, hr, hcard, hdue⟩ := (hmem f).mp hf
        rw [fixedSubscriber_of_mem hnames hf hname.symm]
        refine ⟨rfl, ?_⟩
        rw [Subscriber.expireAt_withExpiry, expiryOf_isoformat, expiryOf_le_iff]
        exact hcond r hr f.2 hdue s hs (by rw [hcard, hname])
      · rw [fixedSubscriber_of_not_mem fun f hf hname => hfixed ⟨f, hf, hname⟩]
        exact ⟨rfl, le_rfl⟩
    · rw [htables]
      exact plan_again hplan hmem hkeys db.2.cardIds

end Texts

def autumn : DateTexts.Calendar where
  entries := [(⟨1782864000000000, by norm_num⟩, "2026-07-01T00:00:00"),
    (⟨1790852400000000, by norm_num⟩, "2026-10-01T11:00:00"),
    (⟨1790856000000000, by norm_num⟩, "2026-10-01T12:00:00"),
    (⟨1790863200000000, by norm_num⟩, "2026-10-01T14:00:00"),
    (⟨1796083200000000, by norm_num⟩, "2026-12-01T00:00:00")]
  dates := by decide
  texts := by decide
  mark := by decide
  digit := by decide
  chars := DateTexts.Calendar.chars_of_all (by decide)

def noon : DateTime := ⟨1790856000000000, by norm_num⟩

def staleCard (subscriberExpiry : Option String) : Db :=
  ⟨{ cards := [{ id := 1, username := "ali", batchId := 7
                 expireAt := some "2026-07-01T00:00:00"
                 firstUsedAt := some "2026-10-01T11:00:00" }]
     batches := [{ id := 7, timeValue := 3, timeUnit := "hours" }]
     subscribers := [{ username := "ali", expireAt := subscriberExpiry }] },
    ⟨List.nodup_singleton _, List.nodup_singleton _, List.nodup_singleton _, List.nodup_nil,
      List.nodup_singleton _⟩⟩

theorem staleCard_plan (subscriberExpiry : Option String) :
    ∃ plan, planReconcile autumn.dateTexts (staleCard subscriberExpiry).1 1 noon none none =
      .ok plan := by
  have hok : (planReconcile autumn.dateTexts (staleCard subscriberExpiry).1 1 noon none
      none).toBool = true := by
    have hclosed : (planReconcile autumn.dateTexts (staleCard none).1 1 noon none none).toBool =
        true := by decide +kernel
    exact hclosed
  cases hplan : planReconcile autumn.dateTexts (staleCard subscriberExpiry).1 1 noon none none with
  | error e =>
    rw [hplan] at hok
    cases hok
  | ok plan => exact ⟨plan, rfl⟩

theorem safeRun_staleCard : ∃ plan,
    planReconcile autumn.dateTexts (staleCard (some "2026-07-01T00:00:00")).1 1 noon none none =
      .ok plan ∧
    SafeRun autumn.dateTexts noon (staleCard (some "2026-07-01T00:00:00")).1 1 noon none none
      plan := by
  obtain ⟨plan, hplan⟩ := staleCard_plan (some "2026-07-01T00:00:00")
  refine ⟨plan, hplan, (safeRun_iff autumn.dateTexts noon (staleCard _) 1 noon none none plan
    hplan).mpr fun r hr target hdue s hs _ => ?_⟩
  have hcard := List.mem_singleton.mp (mem_candidateRows hr).1
  have hsub := List.mem_singleton.mp hs
  obtain ⟨e, he, hlt⟩ := lt_of_not_withinLimit hdue.longer
  rw [hcard] at he
  rw [hsub]
  exact ⟨e, he, hlt.le⟩

/-- The subscriber had until December and is left with two hours. -/
theorem reconcile_shortens : ∃ plan,
    planReconcile autumn.dateTexts (staleCard (some "2026-12-01T00:00:00")).1 1 noon none none =
      .ok plan ∧
    ¬ SafeRun autumn.dateTexts noon (staleCard (some "2026-12-01T00:00:00")).1 1 noon none none
      plan := by
  obtain ⟨plan, hplan⟩ := staleCard_plan (some "2026-12-01T00:00:00")
  refine ⟨plan, hplan, fun hsafe => ?_⟩
  let row : Row := ⟨{ id := 1, username := "ali", batchId := 7
                      expireAt := some "2026-07-01T00:00:00"
                      firstUsedAt := some "2026-10-01T11:00:00" },
    { id := 7, timeValue := 3, timeUnit := "hours" }, none⟩
  have hrow : row ∈ candidateRows (staleCard (some "2026-12-01T00:00:00")).1 1 none none :=
    List.mem_singleton.mpr rfl
  have hdue : Due autumn.dateTexts (staleCard (some "2026-12-01T00:00:00")).1 1 noon row
      ⟨1790863200000000, by norm_num⟩ :=
    ⟨rfl, rfl, by decide, by decide, ⟨⟨1790852400000000, by norm_num⟩, by decide,
      by decide +kernel⟩, by decide +kernel⟩
  obtain ⟨e, he, hle⟩ := hsafe.subscriber_le hplan hrow hdue (List.mem_singleton.mpr rfl) rfl
  have hread : parseDt autumn.dateTexts (some "2026-12-01T00:00:00") =
      some ⟨1796083200000000, by norm_num⟩ := by decide
  obtain rfl := Option.some_inj.mp (hread.symm.trans he)
  exact absurd hle (by norm_num)

end RadiusModule.CardReconcile
