import RadiusModule.Services.CardReconcile.AccountingReconcile
import RadiusModule.Services.CardReconcile.TimeReconcileSafe

/-!
# When the two card reconciles agree

Both tools derive the same budget. They differ in where they find the first
connection, in the clamp of the expiry and in how they read the stored one.
-/

namespace RadiusModule.CardReconcile

open Library CardAccounting

section Texts

variable (texts : DateTexts)

/-- The stored expiry is missing, unreadable or before the expiry that the stamp or the first
session gives. -/
structure AccountingDue (last : DateTime) (t : Tables) (r : Row) (target : DateTime) : Prop where
  live : r.card.revoked = false
  mode : r.batch.countFromFirstConnect = true
  budget : 0 < r.budget
  left : isExhausted r.budget r.card.extraSeconds = false
  first : ∃ first, accountingFirst texts t r.card = .ok (some first) ∧
    clampedExpiry last first (budgetWithExtra r.budget r.card.extraSeconds) = target
  short : ∃ cur, parseDtUtc texts r.card.expireAt = .ok cur ∧ ∀ e ∈ cur, e.1 < target.1

variable {texts}

theorem budgetWithExtra_pos {budget extra : ℤ} (h : 0 < budget)
    (hleft : isExhausted budget extra = false) : 0 < budgetWithExtra budget extra := by
  simp only [isExhausted, Bool.and_eq_false_iff, decide_eq_false_iff_not] at hleft
  rw [budgetWithExtra, if_neg (by omega)]
  rcases hleft with hleft | hleft <;> omega

theorem accountingCard_cases {last : DateTime} {t : Tables} {now : DateTime} {r : Row}
    {o : Outcome} (hlive : r.card.revoked = false) (hmode : r.batch.countFromFirstConnect = true)
    (h : accountingCard texts last t now ⟨r.card, some r.batch, r.plan⟩ = .ok o) :
    (∃ u target, o.update? = some u ∧ u.cardId = r.card.id ∧
        AccountingDue texts last t r target ∧ u.newExpire = texts.isoformat target) ∨
      (o.update? = none ∧ ∀ target, ¬ AccountingDue texts last t r target) := by
  have hrow : Row.budget ⟨r.card, r.batch, r.plan⟩ = r.budget := rfl
  simp only [accountingCard, hrow] at h
  rw [if_neg (by simp [accountingMode, hmode])] at h
  by_cases hbudget : r.budget ≤ 0
  · rw [if_pos hbudget] at h
    cases h
    exact .inr ⟨rfl, fun _ hd => absurd hd.budget (not_lt.mpr hbudget)⟩
  rw [if_neg hbudget] at h
  by_cases hleft : isExhausted r.budget r.card.extraSeconds = true
  · rw [if_pos hleft] at h
    cases h
    exact .inr ⟨rfl, fun _ hd => by simp [hd.left] at hleft⟩
  rw [if_neg hleft, if_neg (by simp [hlive])] at h
  have hpos := budgetWithExtra_pos (not_le.mp hbudget) (by simpa using hleft)
  cases hfirst : accountingFirst texts t r.card with
  | error e =>
    rw [hfirst] at h
    cases h
  | ok first? =>
    rw [hfirst] at h
    cases first? with
    | none =>
      cases h
      refine .inr ⟨rfl, fun _ hd => ?_⟩
      obtain ⟨first, hsome, -⟩ := hd.first
      rw [hfirst] at hsome
      cases hsome
    | some first =>
      dsimp only [bind, Except.bind, firstConnectExpiryAt] at h
      rw [if_neg (not_le.mpr hpos)] at h
      dsimp only at h
      cases hcur : parseDtUtc texts r.card.expireAt with
      | error e =>
        rw [hcur] at h
        cases h
      | ok cur =>
        rw [hcur] at h
        dsimp only at h
        by_cases hreached : ∃ e ∈ cur, (clampedExpiry last first
            (budgetWithExtra r.budget r.card.extraSeconds)).1 ≤ e.1
        · rw [if_pos hreached] at h
          cases h
          refine .inr ⟨rfl, fun target hd => ?_⟩
          obtain ⟨first', hsome, htarget⟩ := hd.first
          rw [hfirst] at hsome
          obtain rfl := Option.some_inj.mp (Except.ok.inj hsome)
          obtain ⟨cur', hcur', hall⟩ := hd.short
          rw [hcur] at hcur'
          obtain rfl := Except.ok.inj hcur'
          obtain ⟨e, he, hle⟩ := hreached
          rw [htarget] at hle
          exact absurd (hall e he) (not_lt.mpr hle)
        · rw [if_neg hreached] at h
          cases hadd : addSeconds first (budgetWithExtra r.budget r.card.extraSeconds) with
          | error e =>
            rw [hadd] at h
            cases h
          | ok finish =>
            rw [hadd] at h
            cases h
            refine .inl ⟨_, _, rfl, rfl, ⟨hlive, hmode, not_le.mp hbudget, by simpa using hleft,
              ⟨first, hfirst, rfl⟩, cur, hcur, fun e he => ?_⟩, rfl⟩
            exact not_le.mp fun hle => hreached ⟨e, he, hle⟩

theorem cardId_of_update {last : DateTime} {t : Tables} {now : DateTime} {r : AccountingRow}
    {o : Outcome} {u : CardUpdate} (h : accountingCard texts last t now r = .ok o)
    (hu : o.update? = some u) : u.cardId = r.card.id := by
  unfold accountingCard at h
  cases hb : r.batch with
  | none =>
    rw [hb] at h
    cases h
    cases hu
  | some b =>
    rw [hb] at h
    dsimp only at h
    split_ifs at h
    · cases h
      cases hu
    · cases h
      cases hu
    · cases h
      cases hu
    · cases h
      cases hu
    cases hfirst : accountingFirst texts t r.card with
    | error e =>
      rw [hfirst] at h
      cases h
    | ok first? =>
      rw [hfirst] at h
      dsimp only [bind, Except.bind] at h
      cases first? with
      | none =>
        cases h
        cases hu
      | some first =>
        dsimp only at h
        cases hnew : firstConnectExpiryAt last first
            (budgetWithExtra (Row.budget ⟨r.card, b, r.plan⟩) r.card.extraSeconds) with
        | none =>
          rw [hnew] at h
          cases h
          cases hu
        | some newExpire =>
          rw [hnew] at h
          dsimp only at h
          cases hcur : parseDtUtc texts r.card.expireAt with
          | error e =>
            rw [hcur] at h
            cases h
          | ok cur =>
            rw [hcur] at h
            dsimp only at h
            split_ifs at h
            · cases h
              cases hu
            cases hadd : addSeconds first
                (budgetWithExtra (Row.budget ⟨r.card, b, r.plan⟩) r.card.extraSeconds) with
            | error e =>
              rw [hadd] at h
              cases h
            | ok finish =>
              rw [hadd] at h
              cases h
              cases hu
              rfl

theorem lookups_of_candidate {t : Tables} {tenantId : ℤ} {batchId : Option ℤ}
    {username : Option String} {r : Row} (h : r ∈ candidateRows t tenantId batchId username) :
    batchOf t r.card = some r.batch ∧ planOf t r.card = r.plan := by
  obtain ⟨c, -, hc⟩ := List.mem_filterMap.mp h
  simp only [candidate] at hc
  split_ifs at hc
  cases hb : batchOf t c with
  | none =>
    rw [hb] at hc
    cases hc
  | some b =>
    rw [hb] at hc
    dsimp only at hc
    split_ifs at hc
    rw [← Option.some_inj.mp hc]
    exact ⟨hb, rfl⟩

theorem updates_of_plan {last : DateTime} {db : Db} {tenantId : ℤ} {now : DateTime}
    {batchId : Option ℤ} {username : Option String} {p : AccountingPlan}
    (hp : accountingPlan texts last db.1 tenantId now = .ok p) {r : Row}
    (hr : r ∈ candidateRows db.1 tenantId batchId username) (hlive : r.card.revoked = false)
    (hmode : r.batch.countFromFirstConnect = true) :
    (∃ target, AccountingDue texts last db.1 r target ∧
        (∃ u ∈ p.cardUpdates, u.cardId = r.card.id) ∧
        ∀ u ∈ p.cardUpdates, u.cardId = r.card.id → u.newExpire = texts.isoformat target) ∨
      ((∀ u ∈ p.cardUpdates, u.cardId ≠ r.card.id) ∧
        ∀ target, ¬ AccountingDue texts last db.1 r target) := by
  obtain ⟨hcard, htenant⟩ := mem_candidateRows hr
  obtain ⟨hbatch, hplan⟩ := lookups_of_candidate hr
  have hrow : (⟨r.card, some r.batch, r.plan⟩ : AccountingRow) ∈
      accountingRows db.1 tenantId := by
    rw [← hbatch, ← hplan]
    exact List.mem_map.mpr ⟨r.card, List.mem_filter.mpr ⟨hcard, by simpa using htenant⟩, rfl⟩
  cases hos : (accountingRows db.1 tenantId).mapM (accountingCard texts last db.1 now) with
  | error e =>
    rw [accountingPlan, hos] at hp
    cases hp
  | ok os =>
    rw [accountingPlan, hos] at hp
    cases hp
    have hall := forall₂_of_mapM_ok hos
    obtain ⟨o, ho, hdecided⟩ := exists_right_of_forall₂ hall hrow
    -- an update for the card comes from the row of the card
    have hfrom : ∀ u ∈ os.filterMap Outcome.update?, u.cardId = r.card.id →
        o.update? = some u := by
      intro u hu hid
      obtain ⟨o', ho', hu⟩ := List.mem_filterMap.mp hu
      obtain ⟨row, hrow', hdecided'⟩ := exists_left_of_forall₂ hall ho'
      obtain ⟨c, hc, rfl⟩ := List.mem_map.mp hrow'
      obtain ⟨hc, hctenant⟩ := List.mem_filter.mp hc
      have hcid : c.id = r.card.id := (cardId_of_update hdecided' hu).symm.trans hid
      have hkey : c.key = r.card.key :=
        Prod.ext ((of_decide_eq_true hctenant).trans htenant.symm) hcid
      obtain rfl := List.inj_on_of_nodup_map db.2.cardIds hc hcard hkey
      rw [hbatch, hplan, hdecided] at hdecided'
      rw [Except.ok.inj hdecided']
      exact hu
    rcases accountingCard_cases hlive hmode hdecided with
      ⟨u, target, hu, hid, hdue, hnew⟩ | ⟨hnone, hnot⟩
    · refine .inl ⟨target, hdue, ⟨u, List.mem_filterMap.mpr ⟨o, ho, hu⟩, hid⟩, fun v hv hvid => ?_⟩
      have hsame := hfrom v hv hvid
      rw [hu] at hsame
      rw [← Option.some_inj.mp hsame, hnew]
    · refine .inr ⟨fun u hu hid => ?_, hnot⟩
      have hsome := hfrom u hu hid
      rw [hnone] at hsome
      cases hsome

theorem fixes_of_card {db : Db} {tenantId : ℤ} {now : DateTime} {batchId : Option ℤ}
    {username : Option String} {q : ReconcilePlan}
    (hq : planReconcile texts db.1 tenantId now batchId username = .ok q) {r : Row}
    (hr : r ∈ candidateRows db.1 tenantId batchId username) :
    (∃ target, Due texts db.1 tenantId now r target ∧ (∃ d ∈ q.toFix, d.cardId = r.card.id) ∧
        ∀ d ∈ q.toFix, d.cardId = r.card.id → d.newExpireAt = some (texts.isoformat target)) ∨
      ((∀ d ∈ q.toFix, d.cardId ≠ r.card.id) ∧
        ∀ target, ¬ Due texts db.1 tenantId now r target) := by
  obtain ⟨-, -, fixes, hwrites, hmem, -, -⟩ := fixes_of_plan db.2 hq
  obtain ⟨hcard, htenant⟩ := mem_candidateRows hr
  -- a fix for the card is the fix of its row
  have hfrom : ∀ d ∈ q.toFix, d.cardId = r.card.id → ∃ target,
      Due texts db.1 tenantId now r target ∧ d.newExpireAt = some (texts.isoformat target) := by
    intro d hd hid
    obtain ⟨f, hf, hdid, -, hnew⟩ := exists_right_of_forall₂ hwrites hd
    obtain ⟨s, hs, hscard, hdue⟩ := (hmem f).mp hf
    obtain ⟨hsmem, hstenant⟩ := mem_candidateRows hs
    have hkey : s.card.key = r.card.key := by
      refine Prod.ext (hstenant.trans htenant.symm) ?_
      show s.card.id = r.card.id
      rw [hscard, ← hdid, hid]
    have hsame := List.inj_on_of_nodup_map db.2.cardIds hsmem hcard hkey
    obtain rfl := candidateRows_card_injective hs hr hsame
    exact ⟨f.2, hdue, hnew⟩
  by_cases hdue : ∃ target, Due texts db.1 tenantId now r target
  · obtain ⟨target, hdue⟩ := hdue
    refine .inl ⟨target, hdue, ?_, fun d hd hid => ?_⟩
    · obtain ⟨d, hd, hdid, -, -⟩ := exists_left_of_forall₂ hwrites
        ((hmem (r.card, target)).mpr ⟨r, hr, rfl, hdue⟩)
      exact ⟨d, hd, hdid⟩
    · obtain ⟨target', hdue', hnew⟩ := hfrom d hd hid
      rw [hnew, hdue'.unique hdue]
  · refine .inr ⟨fun d hd hid => ?_, fun target h => hdue ⟨target, h⟩⟩
    obtain ⟨target, h, -⟩ := hfrom d hd hid
    exact hdue ⟨target, h⟩

/-- Both tools change a card or neither does, to the same expiry; neither replaces a missing
expiry or one that it reads as later. -/
structure Agreement (texts : DateTexts) (p : AccountingPlan) (q : ReconcilePlan) (c : Card) :
    Prop where
  same : (∃ u ∈ p.cardUpdates, u.cardId = c.id) ↔ ∃ d ∈ q.toFix, d.cardId = c.id
  expiry : ∀ u ∈ p.cardUpdates, u.cardId = c.id → ∀ d ∈ q.toFix, d.cardId = c.id →
    d.newExpireAt = some u.newExpire
  update : ∀ u ∈ p.cardUpdates, u.cardId = c.id → c.expireAt ≠ none ∧
    ∀ e n, parseDtUtc texts c.expireAt = .ok (some e) →
      parseDtUtc texts (some u.newExpire) = .ok (some n) → e.1 ≤ n.1
  fix : ∀ d ∈ q.toFix, d.cardId = c.id → c.expireAt ≠ none ∧
    ∀ e n, parseDt texts c.expireAt = some e → parseDt texts d.newExpireAt = some n → e.1 ≤ n.1

/-- There is nothing to count, or each tool finds its own target reached or no first
connection, or both find one target after the stored expiry. -/
def SameAnswer (texts : DateTexts) (last : DateTime) (t : Tables) (tenantId : ℤ) (now : DateTime)
    (r : Row) : Prop :=
  let budget := budgetWithExtra r.budget r.card.extraSeconds
  let stamped := accountingFirst texts t r.card
  let earliest := firstConnection texts t tenantId r.card.username r.card.firstUsedAt
  let stored := parseDtUtc texts r.card.expireAt
  let kept (target : DateTime) := withinLimit (max 0 (target.secondsSince now))
    (remainingFrom (parseDt texts r.card.expireAt) now)
  r.budget ≤ 0 ∨ isExhausted r.budget r.card.extraSeconds = true ∨
    ((∀ first, stamped = .ok (some first) → ∀ cur, stored = .ok cur →
        ∃ e ∈ cur, (clampedExpiry last first budget).1 ≤ e.1) ∧
      ∀ first target, earliest = some first → first.addSeconds? budget = some target →
        kept target = true) ∨
    ∃ first first', stamped = .ok (some first) ∧ earliest = some first' ∧
      first'.addSeconds? budget = some (clampedExpiry last first budget) ∧
      (∃ cur, stored = .ok cur ∧ ∀ e ∈ cur, e.1 < (clampedExpiry last first budget).1) ∧
      kept (clampedExpiry last first budget) = false

theorem sameAnswer_iff {last : DateTime} {t : Tables} {tenantId : ℤ} {now : DateTime} {r : Row}
    (hlive : r.card.revoked = false) (hmode : r.batch.countFromFirstConnect = true) :
    SameAnswer texts last t tenantId now r ↔
      ((∀ target, ¬ AccountingDue texts last t r target) ∧
        ∀ target, ¬ Due texts t tenantId now r target) ∨
      ∃ target, AccountingDue texts last t r target ∧ Due texts t tenantId now r target := by
  constructor
  · rintro (hbudget | hleft | ⟨hreached, hkept⟩ | ⟨first, first', hfirst, hfirst', hadd, hshort,
      hlonger⟩)
    · exact .inl ⟨fun _ hd => absurd hd.budget (not_lt.mpr hbudget),
        fun _ hd => absurd hd.budget (not_lt.mpr hbudget)⟩
    · refine .inl ⟨fun _ hd => ?_, fun _ hd => ?_⟩
      · exact Bool.false_ne_true (hd.left.symm.trans hleft)
      · exact Bool.false_ne_true (hd.left.symm.trans hleft)
    · refine .inl ⟨fun target hd => ?_, fun target hd => ?_⟩
      · obtain ⟨first, hfirst, htarget⟩ := hd.first
        obtain ⟨cur, hcur, hall⟩ := hd.short
        obtain ⟨e, he, hle⟩ := hreached first hfirst cur hcur
        rw [htarget] at hle
        exact absurd (hall e he) (not_lt.mpr hle)
      · obtain ⟨first, hfirst, hadd⟩ := hd.first
        exact Bool.false_ne_true (hd.longer.symm.trans (hkept first target hfirst hadd))
    · by_cases hbudget : r.budget ≤ 0
      · exact .inl ⟨fun _ hd => absurd hd.budget (not_lt.mpr hbudget),
          fun _ hd => absurd hd.budget (not_lt.mpr hbudget)⟩
      by_cases hleft : isExhausted r.budget r.card.extraSeconds = true
      · refine .inl ⟨fun _ hd => ?_, fun _ hd => ?_⟩
        · exact Bool.false_ne_true (hd.left.symm.trans hleft)
        · exact Bool.false_ne_true (hd.left.symm.trans hleft)
      have hleft : isExhausted r.budget r.card.extraSeconds = false := by simpa using hleft
      exact .inr ⟨_, ⟨hlive, hmode, not_le.mp hbudget, hleft, ⟨first, hfirst, rfl⟩, hshort⟩,
        ⟨hlive, hmode, not_le.mp hbudget, hleft, ⟨first', hfirst', hadd⟩, hlonger⟩⟩
  · rintro (⟨haccounting, htime⟩ | ⟨target, haccounting, htime⟩)
    · by_cases hbudget : r.budget ≤ 0
      · exact .inl hbudget
      by_cases hleft : isExhausted r.budget r.card.extraSeconds = true
      · exact .inr (.inl hleft)
      have hleft : isExhausted r.budget r.card.extraSeconds = false := by simpa using hleft
      refine .inr (.inr (.inl ⟨fun first hfirst cur hcur => ?_, fun first target hfirst hadd => ?_⟩))
      · by_contra hnone
        refine haccounting _ ⟨hlive, hmode, not_le.mp hbudget, hleft, ⟨first, hfirst, rfl⟩, cur,
          hcur, fun e he => ?_⟩
        exact not_le.mp fun hle => hnone ⟨e, he, hle⟩
      · by_contra hlonger
        exact htime target ⟨hlive, hmode, not_le.mp hbudget, hleft, ⟨first, hfirst, hadd⟩,
          by simpa using hlonger⟩
    · obtain ⟨first, hfirst, rfl⟩ := haccounting.first
      obtain ⟨first', hfirst', hadd⟩ := htime.first
      exact .inr (.inr (.inr ⟨first, first', hfirst, hfirst', hadd, haccounting.short,
        htime.longer⟩))

theorem isoformat_injective {t u : DateTime} (h : texts.isoformat t = texts.isoformat u) :
    t = u := by
  have hread := texts.fromisoformat_isoformat t
  rw [h, texts.fromisoformat_isoformat] at hread
  exact (congrArg Moment.wall (Option.some_inj.mp hread)).symm

theorem parseDtUtc_isoformat (t : DateTime) :
    parseDtUtc texts (some (texts.isoformat t)) = .ok (some t) := by
  have hZ := dropChar_of_not_mem (texts.not_mem_isoformat (c := 'Z') (by decide) (by decide) t)
  rw [parseDtUtc, if_neg (isoformat_ne_empty t), hZ, texts.fromisoformat_isoformat]

/-- A card that was stamped at its first login, has no sessions and ends no earlier than its budget
does has one answer. -/
theorem sameAnswer_of_reached {last : DateTime} {t : Tables} {tenantId : ℤ} {now : DateTime}
    {r : Row} {first e target : DateTime}
    (hfirst : r.card.firstUsedAt = some (texts.isoformat first))
    (hexpire : r.card.expireAt = some (texts.isoformat e))
    (hsessions : ∀ s ∈ t.sessions, s.username ≠ r.card.username)
    (hadd : first.addSeconds? (budgetWithExtra r.budget r.card.extraSeconds) = some target)
    (hreached : target.1 ≤ e.1) : SameAnswer texts last t tenantId now r := by
  refine .inr (.inr (.inl ⟨fun first' hfirst' cur hcur => ?_, fun first' target' hfirst' hadd' => ?_⟩))
  · have hstamped : accountingFirst texts t r.card = .ok (some first) := by
      rw [accountingFirst, hfirst, parseDtUtc_isoformat]
      rfl
    obtain rfl := Option.some_inj.mp (Except.ok.inj (hstamped.symm.trans hfirst'))
    rw [hexpire, parseDtUtc_isoformat] at hcur
    obtain rfl := Except.ok.inj hcur
    refine ⟨e, rfl, ?_⟩
    simp only [clampedExpiry, hadd]
    split_ifs <;> omega
  · have hstarts : ∀ since, startTexts t.sessions tenantId r.card.username since = [] := fun since =>
      List.filterMap_eq_nil_iff.mpr fun s hs => if_neg fun h => hsessions s hs h.2
    have hstamped : firstConnection texts t tenantId r.card.username r.card.firstUsedAt =
        some first := by
      rw [firstConnection, hstarts, hfirst, parseDt_isoformat]
      rfl
    obtain rfl := Option.some_inj.mp (hstamped.symm.trans hfirst')
    obtain rfl := Option.some_inj.mp (hadd.symm.trans hadd')
    by_contra hlonger
    obtain ⟨e', he', hlt⟩ := lt_of_not_withinLimit (by simpa using hlonger)
    rw [hexpire, parseDt_isoformat] at he'
    obtain rfl := Option.some_inj.mp he'
    omega

/-- For a live from-first-connect card of an imported batch the two plans agree exactly when
both tools have nothing to do or one target to move a set expiry to. -/
theorem agreement_iff (texts : DateTexts) (last : DateTime) (db : Db) (tenantId : ℤ)
    (now : DateTime) (batchId : Option ℤ) (username : Option String) (p : AccountingPlan)
    (q : ReconcilePlan) (hp : accountingPlan texts last db.1 tenantId now = .ok p)
    (hq : planReconcile texts db.1 tenantId now batchId username = .ok q) (r : Row)
    (hr : r ∈ candidateRows db.1 tenantId batchId username) (hlive : r.card.revoked = false)
    (hmode : r.batch.countFromFirstConnect = true) :
    Agreement texts p q r.card ↔ SameAnswer texts last db.1 tenantId now r := by
  rw [sameAnswer_iff hlive hmode]
  have hupdates := updates_of_plan hp hr hlive hmode
  have hfixes := fixes_of_card hq hr
  constructor
  · intro hagree
    rcases hupdates with ⟨target, hdue, ⟨u, hu, huid⟩, hnew⟩ | ⟨hnone, hnot⟩
    · rcases hfixes with ⟨target', hdue', ⟨d, hd, hdid⟩, hnew'⟩ | ⟨hnone', -⟩
      · have hexpiry := hagree.expiry u hu huid d hd hdid
        rw [hnew u hu huid, hnew' d hd hdid] at hexpiry
        obtain rfl := isoformat_injective (Option.some_inj.mp hexpiry)
        exact .inr ⟨_, hdue, hdue'⟩
      · obtain ⟨d, hd, hdid⟩ := hagree.same.mp ⟨u, hu, huid⟩
        exact absurd hdid (hnone' d hd)
    · rcases hfixes with ⟨target', -, hd, -⟩ | ⟨-, hnot'⟩
      · obtain ⟨u, hu, huid⟩ := hagree.same.mpr hd
        exact absurd huid (hnone u hu)
      · exact .inl ⟨hnot, hnot'⟩
  · rintro (⟨hnot, hnot'⟩ | ⟨target, hdue, hdue'⟩)
    · rcases hupdates with ⟨target, h, -⟩ | ⟨hnone, -⟩
      · exact absurd h (hnot target)
      rcases hfixes with ⟨target, h, -⟩ | ⟨hnone', -⟩
      · exact absurd h (hnot' target)
      exact ⟨⟨fun ⟨u, hu, hid⟩ => absurd hid (hnone u hu), fun ⟨d, hd, hid⟩ =>
        absurd hid (hnone' d hd)⟩, fun u hu hid => absurd hid (hnone u hu),
        fun u hu hid => absurd hid (hnone u hu), fun d hd hid => absurd hid (hnone' d hd)⟩
    · rcases hupdates with ⟨target₁, hdue₁, hu, hnew⟩ | ⟨-, hnot⟩
      swap
      · exact absurd hdue (hnot target)
      rcases hfixes with ⟨target₂, hdue₂, hd, hnew'⟩ | ⟨-, hnot'⟩
      swap
      · exact absurd hdue' (hnot' target)
      obtain rfl : target₁ = target := by
        obtain ⟨first, hfirst, rfl⟩ := hdue₁.first
        obtain ⟨first', hfirst', rfl⟩ := hdue.first
        rw [hfirst] at hfirst'
        rw [Option.some_inj.mp (Except.ok.inj hfirst')]
      obtain rfl := hdue₂.unique hdue'
      obtain ⟨e, he, hlt⟩ := lt_of_not_withinLimit hdue'.longer
      have hset : r.card.expireAt ≠ none := by
        intro hnull
        rw [hnull] at he
        cases he
      refine ⟨iff_of_true hu hd, fun u hu hid d hd hdid => ?_, fun u hu hid => ⟨hset, ?_⟩,
        fun d hd hid => ⟨hset, ?_⟩⟩
      · rw [hnew u hu hid, hnew' d hd hdid]
      · intro e n hold hn
        rw [hnew u hu hid, parseDtUtc_isoformat] at hn
        obtain rfl := Option.some_inj.mp (Except.ok.inj hn)
        obtain ⟨cur, hcur, hall⟩ := hdue.short
        rw [hold] at hcur
        exact (hall e (by rw [← Except.ok.inj hcur]; rfl)).le
      · intro e' n hold hn
        rw [hnew' d hd hid, parseDt_isoformat] at hn
        obtain rfl := Option.some_inj.mp hn
        obtain rfl := Option.some_inj.mp (he.symm.trans hold)
        exact hlt.le

end Texts

def lastDay : DateTime := ⟨4133980799000000, by norm_num⟩

def oneCard (expireAt : Option String) : Card :=
  { id := 1, username := "ali", batchId := 7, expireAt := expireAt
    firstUsedAt := some "2026-10-01T11:00:00" }

def oneBatch : Batch := { id := 7, timeValue := 3, timeUnit := "hours" }

def oneDb (expireAt : Option String) : Db :=
  ⟨{ cards := [oneCard expireAt], batches := [oneBatch] },
    ⟨List.nodup_singleton _, List.nodup_singleton _, List.nodup_singleton _, List.nodup_nil,
      List.nodup_nil⟩⟩

theorem exists_of_toBool {ε α : Type} {x : Except ε α} (h : x.toBool = true) :
    ∃ a, x = .ok a := by
  cases x with
  | error e => cases h
  | ok a => exact ⟨a, rfl⟩

theorem agreement_staleCard : ∃ p q,
    accountingPlan autumn.dateTexts lastDay (oneDb (some "2026-07-01T00:00:00")).1 1 noon =
      .ok p ∧
    planReconcile autumn.dateTexts (oneDb (some "2026-07-01T00:00:00")).1 1 noon none none =
      .ok q ∧
    Agreement autumn.dateTexts p q (oneCard (some "2026-07-01T00:00:00")) := by
  obtain ⟨p, hp⟩ : ∃ p, accountingPlan autumn.dateTexts lastDay
      (oneDb (some "2026-07-01T00:00:00")).1 1 noon = .ok p := exists_of_toBool (by decide)
  obtain ⟨q, hq⟩ : ∃ q, planReconcile autumn.dateTexts (oneDb (some "2026-07-01T00:00:00")).1 1
      noon none none = .ok q := exists_of_toBool (by decide +kernel)
  refine ⟨p, q, hp, hq, (agreement_iff autumn.dateTexts lastDay (oneDb _) 1 noon none none p q hp hq
    ⟨oneCard (some "2026-07-01T00:00:00"), oneBatch, none⟩ (List.mem_singleton.mpr rfl) rfl
    rfl).mpr (.inr (.inr (.inr ?_)))⟩
  refine ⟨⟨1790852400000000, by norm_num⟩, ⟨1790852400000000, by norm_num⟩, by decide,
    by decide, by decide, ⟨some ⟨1782864000000000, by norm_num⟩,
      by decide +kernel, by decide +kernel⟩, by decide +kernel⟩

/-- A card without an expiry: one tool gives it two more hours to live, the other leaves it. -/
theorem reconciles_disagree : ∃ p q,
    accountingPlan autumn.dateTexts lastDay (oneDb none).1 1 noon = .ok p ∧
    planReconcile autumn.dateTexts (oneDb none).1 1 noon none none = .ok q ∧
    ¬ Agreement autumn.dateTexts p q (oneCard none) := by
  obtain ⟨p, hp⟩ : ∃ p, accountingPlan autumn.dateTexts lastDay (oneDb none).1 1 noon = .ok p :=
    exists_of_toBool (by decide)
  obtain ⟨q, hq⟩ : ∃ q, planReconcile autumn.dateTexts (oneDb none).1 1 noon none none = .ok q :=
    exists_of_toBool (by decide)
  refine ⟨p, q, hp, hq, fun hagree => ?_⟩
  have hrow : (⟨oneCard none, oneBatch, none⟩ : Row) ∈ candidateRows (oneDb none).1 1 none none :=
    List.mem_singleton.mpr rfl
  have hdue : AccountingDue autumn.dateTexts lastDay (oneDb none).1 ⟨oneCard none, oneBatch, none⟩
      ⟨1790863200000000, by norm_num⟩ :=
    ⟨rfl, rfl, by decide, by decide, ⟨⟨1790852400000000, by norm_num⟩, by decide,
      by decide⟩, none, rfl, by simp⟩
  rcases updates_of_plan hp hrow rfl rfl with ⟨_, -, hu, -⟩ | ⟨-, hnot⟩
  · rcases fixes_of_card hq hrow with ⟨_, hdue', -⟩ | ⟨hnone, -⟩
    · cases hdue'.longer
    · obtain ⟨d, hd, hid⟩ := hagree.same.mp hu
      exact hnone d hd hid
  · exact hnot _ hdue

end RadiusModule.CardReconcile
