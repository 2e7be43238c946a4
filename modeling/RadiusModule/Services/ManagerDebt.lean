import RadiusModule.Services.ManagerCredit

/-!
# The debt of a manager over interleaved charges

Every approved charge splits its cost between wallet and debt, and moves just
that. Its debt fits under the cap together with the debt that its `evaluate`
read; so the cap holds along a run in which no charge records its debt after
the recorded debt has grown past what it read.
-/

namespace RadiusModule.ManagerCredit
open Library Connection BusinessOs

structure Approved (cfg : Config) (req : Request) (d : SpendDecision) (debtRead : ℤ) : Prop where
  deduct_nonneg : 0 ≤ d.walletDeductMinor
  debt_nonneg : 0 ≤ d.debtMinor
  split : d.walletDeductMinor + d.debtMinor = max 0 req.costMinor
  capped : isUncapped cfg req.managerId = false →
    (getCaps cfg req.managerId).debtCapEnabled = true → 0 < d.debtMinor →
      debtRead + d.debtMinor ≤ (getCaps cfg req.managerId).debtCapMinor

theorem approved_evaluate {cfg : Config} {req : Request} {balance debt : ℤ}
    (hbalance : 0 ≤ balance)
    (hok : (evaluate cfg req.managerId req.costMinor balance debt).ok = true) :
    Approved cfg req (evaluate cfg req.managerId req.costMinor balance debt) debt := by
  simp only [evaluate] at hok ⊢
  by_cases hfree : max 0 req.costMinor ≤ 0
  · simp only [if_pos hfree]
    exact ⟨le_rfl, le_rfl, by simp only; omega, fun _ _ h => absurd h (lt_irrefl _)⟩
  simp only [if_neg hfree] at hok ⊢
  by_cases hfull : max 0 req.costMinor ≤ balance
  · simp only [if_pos hfull]
    exact ⟨by simp only; omega, le_rfl, by simp only; omega, fun _ _ h => absurd h (lt_irrefl _)⟩
  simp only [if_neg hfull] at hok ⊢
  by_cases huncapped : isUncapped cfg req.managerId = true
  · simp only [if_pos huncapped]
    exact ⟨hbalance, by simp only; omega, by simp only; omega,
      fun h => absurd huncapped (by simp [h])⟩
  simp only [huncapped, Bool.false_eq_true, if_false] at hok ⊢
  split_ifs at hok ⊢ with hcap
  simp only [Bool.and_eq_true, decide_eq_true_eq] at hcap
  exact ⟨hbalance, by simp only; omega, by simp only; omega, fun _ _ _ => hcap.2⟩

theorem approved_evaluateAdvance {cfg : Config} {req : Request} {funding : SpendDecision}
    {debtRead advances : ℤ} (h : Approved cfg req funding debtRead)
    (hok : (evaluateAdvance cfg req.managerId req.costMinor funding advances).ok = true) :
    Approved cfg req (evaluateAdvance cfg req.managerId req.costMinor funding advances)
      debtRead := by
  simp only [evaluateAdvance] at hok ⊢
  split_ifs at hok ⊢
  exact ⟨h.deduct_nonneg, h.debt_nonneg, h.split, h.capped⟩

def PhaseSound (cfg : Config) (moved : ℤ) : Option Phase → Prop
  | none => moved = 0
  | some (.reading _) => moved = 0
  | some (.funding _ balance) => moved = 0 ∧ 0 ≤ balance
  | some (.lending req d debtRead) => moved = 0 ∧ Approved cfg req d debtRead
  | some (.opening req d debtRead) => moved = 0 ∧ Approved cfg req d debtRead
  | some (.debiting req d debtRead _) => moved = 0 ∧ Approved cfg req d debtRead
  | some (.recording req d debtRead) =>
    moved = d.walletDeductMinor ∧ Approved cfg req d debtRead
  | some (.advancing req _) => moved = max 0 req.costMinor
  | some (.succeeded req _) => moved = max 0 req.costMinor
  | some (.refused _) => moved = 0
  | some .failed => True

structure Inv (cfg : Config) (w : World) : Prop where
  books : Sound w.books
  phase : ∀ r, PhaseSound cfg (w.moved r) (w.phase r)

theorem phaseSound_afterGate {cfg : Config} {req : Request} {d : SpendDecision} {debtRead : ℤ}
    (h : d.ok = true → Approved cfg req d debtRead) :
    PhaseSound cfg 0 (some (afterGate req d debtRead)) := by
  unfold afterGate
  split_ifs with hok
  · exact ⟨rfl, h hok⟩
  · exact rfl
  · exact rfl

section
variable {cfg : Config} {w : World} {r : ℕ} {p : Phase}

theorem Inv.setPhase (h : Inv cfg w) (hp : PhaseSound cfg (w.moved r) (some p)) :
    Inv cfg (w.setPhase r p) where
  books := h.books
  phase r' := by
    by_cases hr : r' = r
    · subst hr
      simpa [World.setPhase, World.moved] using hp
    · simpa [World.setPhase, World.moved, hr] using h.phase r'

theorem Inv.withBooks (h : Inv cfg w) {books : Books} (hbooks : Sound books) :
    Inv cfg { w with books } :=
  ⟨hbooks, h.phase⟩

theorem Inv.withLedger (h : Inv cfg w) (ledger : CreditLedger) : Inv cfg { w with ledger } :=
  ⟨h.books, h.phase⟩

theorem moved_journal (w : World) (r r' : ℕ) (m : Moved) :
    ({ w with journal := w.journal ++ [(r, m)] } : World).moved r' =
      w.moved r' + if r = r' then m.amountMinor else 0 := by
  simp only [World.moved, List.filter_append, List.map_append, List.sum_append,
    List.filter_cons, List.filter_nil, decide_eq_true_eq]
  split_ifs <;> simp

theorem Inv.journal (h : Inv cfg w) {m : Moved}
    (hp : PhaseSound cfg (w.moved r + m.amountMinor) (some p)) :
    Inv cfg ({ w with journal := w.journal ++ [(r, m)] }.setPhase r p) where
  books := h.books
  phase r' := by
    have hmoved : ({ w with journal := w.journal ++ [(r, m)] }.setPhase r p).moved r' =
        w.moved r' + if r = r' then m.amountMinor else 0 := moved_journal w r r' m
    rw [hmoved]
    by_cases hr : r' = r
    · subst hr
      simpa [World.setPhase] using hp
    · simpa [World.setPhase, hr, Ne.symm hr] using h.phase r'

theorem Inv.next (h : Inv cfg w) (r : ℕ) (faults : Faults) (raises : Bool) :
    Inv cfg (w.next cfg r faults raises) := by
  have hr := h.phase r
  unfold World.next
  cases hphase : w.phase r with
  | none => exact h
  | some phase =>
    rw [hphase] at hr
    cases phase with
    | reading req =>
      have hwallet := sound_walletOf cfg.defaultCurrency faults req.tenantId "manager"
        req.managerId h.books
      dsimp only [wallet]
      generalize walletOf cfg.defaultCurrency faults req.tenantId "manager" req.managerId w.books =
        out at hwallet ⊢
      rcases out with ⟨_ | found, books⟩
      · exact (h.withBooks hwallet.1).setPhase trivial
      · exact (h.withBooks hwallet.1).setPhase ⟨hr, hwallet.2 found rfl⟩
    | funding req balance =>
      obtain ⟨hmoved, hbalance⟩ := hr
      dsimp only
      split_ifs with hraises hadvance
      · exact h.setPhase trivial
      · refine h.setPhase ⟨hmoved, approved_evaluate hbalance ?_⟩
        exact (Bool.and_eq_true_iff.mp hadvance).2
      · refine h.setPhase ?_
        rw [hmoved]
        exact phaseSound_afterGate (approved_evaluate hbalance)
    | lending req d debtRead =>
      obtain ⟨hmoved, happroved⟩ := hr
      dsimp only
      split_ifs with hraises
      · exact h.setPhase trivial
      · refine h.setPhase ?_
        rw [hmoved]
        exact phaseSound_afterGate (approved_evaluateAdvance happroved)
    | opening req d debtRead =>
      have hwallet := sound_walletOf cfg.defaultCurrency faults req.tenantId "manager"
        req.managerId h.books
      dsimp only [wallet]
      generalize walletOf cfg.defaultCurrency faults req.tenantId "manager" req.managerId w.books =
        out at hwallet ⊢
      rcases out with ⟨_ | found, books⟩
      · exact (h.withBooks hwallet.1).setPhase trivial
      · exact (h.withBooks hwallet.1).setPhase hr
    | debiting req d debtRead walletId =>
      obtain ⟨hmoved, happroved⟩ := hr
      dsimp only
      split_ifs with hdeduct
      · have hbooks := sound_changeBalance faults cfg.defaultCurrency (debitOf req d walletId)
          h.books
        generalize perform faults.sqlite (changeBalance cfg.defaultCurrency
          (debitOf req d walletId)) w.books = out at hbooks ⊢
        rcases out with ⟨_ | ids, books⟩
        · exact (h.withBooks hbooks).setPhase trivial
        · refine (h.withBooks hbooks).journal ⟨?_, happroved⟩
          change w.moved r + d.walletDeductMinor = _
          rw [hmoved, zero_add]
      · have hzero := happroved.deduct_nonneg
        exact h.setPhase ⟨by omega, happroved⟩
    | recording req d debtRead =>
      obtain ⟨hmoved, happroved⟩ := hr
      have hsplit := happroved.split
      dsimp only
      split_ifs with hdebt hraises
      · exact h.setPhase trivial
      · refine (h.withLedger (record w.ledger req.tenantId req.managerId .debt
          d.debtMinor)).journal ?_
        change w.moved r + d.debtMinor = _
        rw [hmoved, hsplit]
      · have hzero := happroved.debt_nonneg
        refine h.setPhase ?_
        change w.moved r = _
        omega
    | advancing req d =>
      dsimp only
      split_ifs with hadvance hraises
      · exact h.setPhase trivial
      · exact (h.withLedger _).setPhase hr
      · exact h.setPhase hr
    | succeeded req d => exact h
    | refused message => exact h
    | failed => exact h

theorem Inv.begin (h : Inv cfg w) (r : ℕ) (req : Request) : Inv cfg (w.begin r req) := by
  unfold World.begin
  split_ifs with hnew
  · have hr := h.phase r
    rw [Option.isNone_iff_eq_none.mp hnew] at hr
    exact h.setPhase hr
  · exact h

theorem Inv.step (h : Inv cfg w) (e : Event) : Inv cfg (step cfg w e) := by
  cases e with
  | charge r req => exact h.begin r req
  | enforce r tenantId managerId isSuper costMoney kind =>
    simp only [ManagerCredit.step]
    cases enforceManagerSpend cfg tenantId managerId isSuper costMoney kind with
    | error e => exact h
    | ok req =>
      cases req with
      | none => exact h
      | some req => exact h.begin r req
  | next r faults raises => exact h.next r faults raises
  | wallet call => exact h.withBooks (sound_step call h.books)
  | settle tenantId managerId amountMinor => exact h.withLedger _
  | reverse tenantId managerId debtBack advanceBack => exact h.withLedger _

end

/-- The row a movement stands for. -/
def Moved.inTables (w : World) : Moved → Prop
  | .deducted id amount => ∃ t ∈ w.books.transactions.rows,
    t.id = id ∧ t.transactionType = .debit ∧ t.amountMinor = amount
  | .owed id amount => ∃ e ∈ w.ledger.rows, e.id = id ∧ e.kind = .debt ∧ e.amountMinor = amount

def Moved.rowId : Moved → ℕ ⊕ ℕ
  | .deducted id _ => .inl id
  | .owed id _ => .inr id

structure Backed (w : World) : Prop where
  row : ∀ p ∈ w.journal, p.2.inTables w
  own : (w.journal.map fun p => p.2.rowId).Nodup

theorem Moved.inTables_mono {w w' : World}
    (hbooks : w.books.transactions.rows ⊆ w'.books.transactions.rows)
    (hledger : w.ledger.rows ⊆ w'.ledger.rows) {m : Moved} (h : m.inTables w) :
    m.inTables w' := by
  cases m with
  | deducted id amount =>
    obtain ⟨t, ht, hrow⟩ := h
    exact ⟨t, hbooks ht, hrow⟩
  | owed id amount =>
    obtain ⟨e, he, hrow⟩ := h
    exact ⟨e, hledger he, hrow⟩

theorem Backed.grow {w w' : World} (h : Backed w) (hjournal : w'.journal = w.journal)
    (hbooks : w.books.transactions.rows ⊆ w'.books.transactions.rows)
    (hledger : w.ledger.rows ⊆ w'.ledger.rows) : Backed w' where
  row p hp := Moved.inTables_mono hbooks hledger (h.row p (hjournal ▸ hp))
  own := hjournal ▸ h.own

theorem Backed.snoc {w w' : World} (h : Backed w) {r : ℕ} {m : Moved}
    (hjournal : w'.journal = w.journal ++ [(r, m)])
    (hbooks : w.books.transactions.rows ⊆ w'.books.transactions.rows)
    (hledger : w.ledger.rows ⊆ w'.ledger.rows) (hm : m.inTables w')
    (hnew : ∀ p ∈ w.journal, p.2.rowId ≠ m.rowId) : Backed w' where
  row p hp := by
    rw [hjournal] at hp
    rcases List.mem_append.mp hp with hp | hp
    · exact Moved.inTables_mono hbooks hledger (h.row p hp)
    · obtain rfl := List.mem_singleton.mp hp
      exact hm
  own := by
    rw [hjournal, List.map_append]
    refine List.nodup_append.mpr ⟨h.own, List.nodup_singleton _, ?_⟩
    intro a ha b hb
    obtain ⟨p, hp, rfl⟩ := List.mem_map.mp ha
    rw [List.mem_singleton.mp hb]
    exact hnew p hp

theorem Backed.rowId_deducted_ne {w : World} (h : Backed w) :
    ∀ p ∈ w.journal, p.2.rowId ≠ .inl w.books.transactions.next := by
  rintro ⟨r, m⟩ hp heq
  have hrow := h.row _ hp
  cases m with
  | deducted id amount =>
    obtain ⟨t, ht, hid, -⟩ := hrow
    have hlt := w.books.transactions.below t ht
    have hnext : id = w.books.transactions.next := Sum.inl.inj heq
    omega
  | owed id amount => cases heq

theorem Backed.rowId_owed_ne {w : World} (h : Backed w) :
    ∀ p ∈ w.journal, p.2.rowId ≠ .inr w.ledger.next := by
  rintro ⟨r, m⟩ hp heq
  have hrow := h.row _ hp
  cases m with
  | deducted id amount => cases heq
  | owed id amount =>
    obtain ⟨e, he, hid, -⟩ := hrow
    have hlt := w.ledger.below e he
    have hnext : id = w.ledger.next := Sum.inr.inj heq
    omega

theorem rows_record (t : CreditLedger) (tenantId managerId : ℤ) (kind : Kind) (amount : ℤ) :
    t.rows ⊆ (record t tenantId managerId kind amount).rows :=
  List.subset_append_left _ _

theorem rows_settleDebt (t : CreditLedger) (tenantId managerId amount : ℤ) :
    t.rows ⊆ (settleDebt t tenantId managerId amount).rows := by
  simp only [settleDebt]
  split_ifs
  · exact List.Subset.refl _
  · exact rows_record _ _ _ _ _

theorem rows_reverseCharge (t : CreditLedger) (tenantId managerId debtBack advanceBack : ℤ) :
    t.rows ⊆ (reverseCharge t tenantId managerId debtBack advanceBack).rows := by
  simp only [reverseCharge]
  split_ifs
  · exact List.Subset.trans (rows_record _ _ _ _ _) (rows_record _ _ _ _ _)
  · exact rows_record _ _ _ _ _
  · exact rows_record _ _ _ _ _
  · exact List.Subset.refl _

theorem Backed.next {w : World} (h : Backed w) (cfg : Config) (r : ℕ) (faults : Faults)
    (raises : Bool) : Backed (w.next cfg r faults raises) := by
  have hsame : ∀ p, Backed (w.setPhase r p) := fun p =>
    h.grow rfl (List.Subset.refl _) (List.Subset.refl _)
  unfold World.next
  cases hphase : w.phase r with
  | none => exact h
  | some phase =>
    cases phase with
    | reading req =>
      have hrows := transactions_walletOf cfg.defaultCurrency faults req.tenantId "manager"
        req.managerId w.books
      dsimp only [wallet]
      generalize walletOf cfg.defaultCurrency faults req.tenantId "manager" req.managerId w.books =
        out at hrows ⊢
      rcases out with ⟨_ | found, books⟩
      · exact h.grow rfl (hrows ▸ List.Subset.refl _) (List.Subset.refl _)
      · exact h.grow rfl (hrows ▸ List.Subset.refl _) (List.Subset.refl _)
    | funding req balance =>
      dsimp only
      split_ifs
      · exact hsame _
      · exact hsame _
      · exact hsame _
    | lending req d debtRead =>
      dsimp only
      split_ifs
      · exact hsame _
      · exact hsame _
    | opening req d debtRead =>
      have hrows := transactions_walletOf cfg.defaultCurrency faults req.tenantId "manager"
        req.managerId w.books
      dsimp only [wallet]
      generalize walletOf cfg.defaultCurrency faults req.tenantId "manager" req.managerId w.books =
        out at hrows ⊢
      rcases out with ⟨_ | found, books⟩
      · exact h.grow rfl (hrows ▸ List.Subset.refl _) (List.Subset.refl _)
      · exact h.grow rfl (hrows ▸ List.Subset.refl _) (List.Subset.refl _)
    | debiting req d debtRead walletId =>
      dsimp only
      split_ifs with hdeduct
      · rcases perform_changeBalance faults cfg.defaultCurrency (debitOf req d walletId) w.books
          with ⟨e, herror⟩ | ⟨amount, found, hamount, hfound, hafter, hmade⟩
        · rw [herror]
          exact h.grow rfl (List.Subset.refl _) (List.Subset.refl _)
        · rw [hmade]
          obtain rfl := positiveMinor_minorToMoney hamount
          refine h.snoc rfl (List.subset_append_left _ _) (List.Subset.refl _) ?_
            h.rowId_deducted_ne
          exact ⟨_, List.mem_append_right _ (List.mem_singleton_self _), rfl, rfl, rfl⟩
      · exact hsame _
    | recording req d debtRead =>
      dsimp only
      split_ifs
      · exact hsame _
      · refine h.snoc rfl (List.Subset.refl _) (rows_record _ _ _ _ _) ?_ h.rowId_owed_ne
        exact ⟨_, List.mem_append_right _ (List.mem_singleton_self _), rfl, rfl, rfl⟩
      · exact hsame _
    | advancing req d =>
      dsimp only
      split_ifs
      · exact hsame _
      · exact h.grow rfl (List.Subset.refl _) (rows_record _ _ _ _ _)
      · exact hsame _
    | succeeded req d => exact h
    | refused message => exact h
    | failed => exact h

theorem Backed.begin {w : World} (h : Backed w) (r : ℕ) (req : Request) :
    Backed (w.begin r req) := by
  unfold World.begin
  split_ifs
  · exact h.grow rfl (List.Subset.refl _) (List.Subset.refl _)
  · exact h

theorem Backed.step {w : World} (h : Backed w) (cfg : Config) (e : Event) :
    Backed (step cfg w e) := by
  cases e with
  | charge r req => exact h.begin r req
  | enforce r tenantId managerId isSuper costMoney kind =>
    simp only [ManagerCredit.step]
    cases enforceManagerSpend cfg tenantId managerId isSuper costMoney kind with
    | error e => exact h
    | ok req =>
      cases req with
      | none => exact h
      | some req => exact h.begin r req
  | next r faults raises => exact h.next cfg r faults raises
  | wallet call => exact h.grow rfl (transactions_step w.books call) (List.Subset.refl _)
  | settle tenantId managerId amountMinor =>
    exact h.grow rfl (List.Subset.refl _) (rows_settleDebt _ _ _ _)
  | reverse tenantId managerId debtBack advanceBack =>
    exact h.grow rfl (List.Subset.refl _) (rows_reverseCharge _ _ _ _ _)

def FreshPhase (tenantId managerId debt : ℤ) : Option Phase → Prop
  | some (.recording req d debtRead) =>
    req.tenantId = tenantId → req.managerId = managerId → 0 < d.debtMinor → debt ≤ debtRead
  | _ => True

/-- A charge records its debt before the recorded debt grows past what its `evaluate` read. -/
def Fresh (tenantId managerId : ℤ) (w : World) : Event → Prop
  | .next r _ _ => FreshPhase tenantId managerId (currentDebtMinor w.ledger tenantId managerId)
    (w.phase r)
  | _ => True

instance (tenantId managerId debt : ℤ) : DecidablePred (FreshPhase tenantId managerId debt)
  | some (.recording _ _ _) => inferInstanceAs (Decidable (_ → _ → _ → _))
  | none => .isTrue trivial
  | some (.reading _) => .isTrue trivial
  | some (.funding _ _) => .isTrue trivial
  | some (.lending _ _ _) => .isTrue trivial
  | some (.opening _ _ _) => .isTrue trivial
  | some (.debiting _ _ _ _) => .isTrue trivial
  | some (.advancing _ _) => .isTrue trivial
  | some (.succeeded _ _) => .isTrue trivial
  | some (.refused _) => .isTrue trivial
  | some .failed => .isTrue trivial

instance (tenantId managerId : ℤ) (w : World) : DecidablePred (Fresh tenantId managerId w)
  | .next r _ _ => inferInstanceAs (Decidable (FreshPhase _ _ _ (w.phase r)))
  | .charge _ _ => .isTrue trivial
  | .enforce _ _ _ _ _ _ => .isTrue trivial
  | .wallet _ => .isTrue trivial
  | .settle _ _ _ => .isTrue trivial
  | .reverse _ _ _ _ => .isTrue trivial

theorem currentDebtMinor_record (t : CreditLedger) (tenantId managerId : ℤ)
    (tenantId' managerId' : ℤ) (kind : Kind) (amount : ℤ) :
    currentDebtMinor (record t tenantId' managerId' kind amount) tenantId managerId =
      max 0 (ledgerTotal t tenantId managerId .debt .debtSettle +
        if tenantId' = tenantId ∧ managerId' = managerId then
          if kind = .debt then amount else if kind = .debtSettle then -amount else 0
        else 0) := by
  simp only [currentDebtMinor, ledgerSum, ledgerTotal, record, Table.select_insert,
    Bool.and_eq_true, decide_eq_true_eq, List.map_append, List.sum_append]
  split_ifs <;> simp_all [CreditEntry.signed]

theorem currentDebtMinor_record_le {t : CreditLedger} (tenantId managerId tenantId' managerId' : ℤ)
    {kind : Kind} {amount : ℤ} (hkind : kind ≠ .debt) (hamount : 0 ≤ amount) :
    currentDebtMinor (record t tenantId' managerId' kind amount) tenantId managerId ≤
      currentDebtMinor t tenantId managerId := by
  rw [currentDebtMinor_record, currentDebtMinor, ledgerSum]
  generalize ledgerTotal t tenantId managerId .debt .debtSettle = total
  refine max_le_max le_rfl ?_
  rw [if_neg hkind]
  split_ifs <;> omega

theorem currentDebtMinor_settleDebt_le (t : CreditLedger) (tenantId managerId tenantId' managerId'
    amount : ℤ) :
    currentDebtMinor (settleDebt t tenantId' managerId' amount) tenantId managerId ≤
      currentDebtMinor t tenantId managerId := by
  simp only [settleDebt]
  split_ifs with hnone
  · exact le_rfl
  · exact currentDebtMinor_record_le _ _ _ _ (by decide) (not_le.mp hnone).le

theorem currentDebtMinor_reverseCharge_le (t : CreditLedger) (tenantId managerId tenantId'
    managerId' debtBack advanceBack : ℤ) :
    currentDebtMinor (reverseCharge t tenantId' managerId' debtBack advanceBack) tenantId
      managerId ≤ currentDebtMinor t tenantId managerId := by
  have hsettled : ∀ t : CreditLedger, 0 < debtBack → currentDebtMinor
      (record t tenantId' managerId' .debtSettle debtBack) tenantId managerId ≤
        currentDebtMinor t tenantId managerId := fun t hpos =>
    currentDebtMinor_record_le _ _ _ _ (by decide) hpos.le
  have hreturned : ∀ t : CreditLedger, 0 < advanceBack → currentDebtMinor
      (record t tenantId' managerId' .advanceSettle advanceBack) tenantId managerId ≤
        currentDebtMinor t tenantId managerId := fun t hpos =>
    currentDebtMinor_record_le _ _ _ _ (by decide) hpos.le
  unfold reverseCharge
  by_cases hdebt : 0 < debtBack
  · by_cases hadvance : 0 < advanceBack
    · simp only [if_pos hdebt, if_pos hadvance]
      exact (hreturned _ hadvance).trans (hsettled t hdebt)
    · simp only [if_pos hdebt, if_neg hadvance]
      exact hsettled t hdebt
  · by_cases hadvance : 0 < advanceBack
    · simp only [if_neg hdebt, if_pos hadvance]
      exact hreturned t hadvance
    · simp only [if_neg hdebt, if_neg hadvance]
      exact le_rfl

section
variable {cfg : Config} {w : World} {tenantId managerId : ℤ}

theorem debt_next (hinv : Inv cfg w) (hcapped : isUncapped cfg managerId = false)
    (henabled : (getCaps cfg managerId).debtCapEnabled = true)
    (hdebt : currentDebtMinor w.ledger tenantId managerId ≤ (getCaps cfg managerId).debtCapMinor)
    {r : ℕ} {faults : Faults} {raises : Bool}
    (hfresh : Fresh tenantId managerId w (.next r faults raises)) :
    currentDebtMinor (w.next cfg r faults raises).ledger tenantId managerId ≤
      (getCaps cfg managerId).debtCapMinor := by
  have hr := hinv.phase r
  simp only [Fresh] at hfresh
  unfold World.next
  cases hphase : w.phase r with
  | none => exact hdebt
  | some phase =>
    rw [hphase] at hr hfresh
    cases phase with
    | reading req =>
      dsimp only
      split <;> exact hdebt
    | funding req balance =>
      dsimp only
      split_ifs <;> exact hdebt
    | lending req d debtRead =>
      dsimp only
      split_ifs <;> exact hdebt
    | opening req d debtRead =>
      dsimp only
      split <;> exact hdebt
    | debiting req d debtRead walletId =>
      dsimp only
      split_ifs
      · split <;> exact hdebt
      · exact hdebt
    | recording req d debtRead =>
      dsimp only
      split_ifs with howes hraises
      · exact hdebt
      · change currentDebtMinor (record _ _ _ _ _) _ _ ≤ _
        have hpresent := currentDebtMinor_record w.ledger tenantId managerId req.tenantId
          req.managerId .debt d.debtMinor
        rw [hpresent]
        by_cases hown : req.tenantId = tenantId ∧ req.managerId = managerId
        · obtain ⟨htenant, hmanager⟩ := hown
          have hread := hfresh htenant hmanager howes
          have hcap := hr.2.capped
          rw [hmanager] at hcap
          have hfits := hcap hcapped henabled howes
          simp only [htenant, hmanager, and_self, if_true]
          simp only [currentDebtMinor, ledgerSum] at hread hdebt
          omega
        · simp only [hown, if_false, add_zero]
          exact hdebt
      · exact hdebt
    | advancing req d =>
      dsimp only
      split_ifs with hadvance hraises
      · exact hdebt
      · exact (currentDebtMinor_record_le _ _ _ _ (by decide) hadvance.le).trans hdebt
      · exact hdebt
    | succeeded req d => exact hdebt
    | refused message => exact hdebt
    | failed => exact hdebt

theorem debt_step (hinv : Inv cfg w) (hcapped : isUncapped cfg managerId = false)
    (henabled : (getCaps cfg managerId).debtCapEnabled = true)
    (hdebt : currentDebtMinor w.ledger tenantId managerId ≤ (getCaps cfg managerId).debtCapMinor)
    {e : Event} (hfresh : Fresh tenantId managerId w e) :
    currentDebtMinor (step cfg w e).ledger tenantId managerId ≤
      (getCaps cfg managerId).debtCapMinor := by
  have hbegin : ∀ r req, (w.begin r req).ledger = w.ledger := by
    intro r req
    unfold World.begin
    split_ifs <;> rfl
  cases e with
  | charge r req => rwa [step, hbegin]
  | enforce r tenantId' managerId' isSuper costMoney kind =>
    simp only [step]
    cases enforceManagerSpend cfg tenantId' managerId' isSuper costMoney kind with
    | error e => exact hdebt
    | ok req =>
      cases req with
      | none => exact hdebt
      | some req => rwa [hbegin]
  | next r faults raises => exact debt_next hinv hcapped henabled hdebt hfresh
  | wallet call => exact hdebt
  | settle tenantId' managerId' amount =>
    exact (currentDebtMinor_settleDebt_le _ _ _ _ _ _).trans hdebt
  | reverse tenantId' managerId' debtBack advanceBack =>
    exact (currentDebtMinor_reverseCharge_le _ _ _ _ _ _ _).trans hdebt

end

theorem inv_initial (cfg : Config) {books : Books} (h : Sound books) (ledger : CreditLedger) :
    Inv cfg (.initial books ledger) :=
  ⟨h, fun _ => rfl⟩

theorem backed_initial (books : Books) (ledger : CreditLedger) : Backed (.initial books ledger) :=
  ⟨fun _ h => absurd h List.not_mem_nil, List.nodup_nil⟩

/-- Along a run in which every debt is recorded on a fresh reading, a capped manager stays within
his cap, and every charge that succeeds has moved its cost, in rows of its own. -/
theorem debt_within_cap_of_fresh (cfg : Config) (calls : List Call) (ledger : CreditLedger)
    (tenantId managerId : ℤ) (hcapped : isUncapped cfg managerId = false)
    (henabled : (getCaps cfg managerId).debtCapEnabled = true)
    (hinitial : currentDebtMinor ledger tenantId managerId ≤ (getCaps cfg managerId).debtCapMinor)
    (events : List Event)
    (hfresh : Run.Along (Fresh tenantId managerId) (step cfg)
      (.initial (Run.run BusinessOs.step .empty calls) ledger) events) :
    let w := Run.run (step cfg) (.initial (Run.run BusinessOs.step .empty calls) ledger) events
    currentDebtMinor w.ledger tenantId managerId ≤ (getCaps cfg managerId).debtCapMinor ∧
      (∀ r req d, w.phase r = some (.succeeded req d) → w.moved r = max 0 req.costMinor) ∧
      Backed w := by
  intro w
  have hbooks : Sound (Run.run BusinessOs.step .empty calls) :=
    Run.run_always (fun _ c h => sound_step c h) sound_empty
  have hkept : Inv cfg w ∧ currentDebtMinor w.ledger tenantId managerId ≤
      (getCaps cfg managerId).debtCapMinor := by
    refine Run.run_invariant (I := fun w => Inv cfg w ∧
      currentDebtMinor w.ledger tenantId managerId ≤ (getCaps cfg managerId).debtCapMinor)
      (fun w e h hok => ?_) ⟨inv_initial cfg hbooks ledger, hinitial⟩ hfresh
    exact ⟨h.1.step e, debt_step h.1 hcapped henabled h.2 hok⟩
  have hbacked : Backed w :=
    Run.run_always (fun _ e h => h.step cfg e) (backed_initial _ _)
  refine ⟨hkept.2, fun r req d hphase => ?_, hbacked⟩
  have hr := hkept.1.phase r
  rwa [hphase] at hr

def cappedManager : Config where
  isPrimaryOwner _ := false
  getAdmin _ := some { debtCapEnabled := true, debtCapMinor := 100 }
  defaultCurrency := "JOD"

def nextOf (r : ℕ) : Event := .next r {} false

example : currentDebtMinor (Run.run (step cappedManager) (.initial .empty .empty)
    (.charge 1 { managerId := 7, costMinor := 60 } :: List.replicate 6 (nextOf 1))).ledger 1 7 = 60 := by
  decide +kernel

theorem debt_within_cap_one_charge :
    let w := Run.run (step cappedManager) (.initial (Run.run BusinessOs.step .empty []) .empty)
      (.charge 1 { managerId := 7, costMinor := 100 } :: List.replicate 6 (nextOf 1))
    currentDebtMinor w.ledger 1 7 ≤ 100 ∧
      (∀ r req d, w.phase r = some (.succeeded req d) → w.moved r = max 0 req.costMinor) ∧
      Backed w :=
  debt_within_cap_of_fresh cappedManager [] .empty 1 7 (by decide) (by decide) (by decide) _
    (by decide +kernel)

/-- Two charges of 100 read the debt before either records its own. -/
theorem two_charges_exceed_cap :
    ¬∀ (cfg : Config) (calls : List Call) (ledger : CreditLedger) (tenantId managerId : ℤ),
      isUncapped cfg managerId = false → (getCaps cfg managerId).debtCapEnabled = true →
      currentDebtMinor ledger tenantId managerId ≤ (getCaps cfg managerId).debtCapMinor →
      ∀ events : List Event,
        currentDebtMinor (Run.run (step cfg)
          (.initial (Run.run BusinessOs.step .empty calls) ledger) events).ledger tenantId
            managerId ≤ (getCaps cfg managerId).debtCapMinor := by
  intro h
  have hdebt := h cappedManager [] .empty 1 7 (by decide) (by decide) (by decide)
    ([.charge 1 { managerId := 7, costMinor := 100 }, .charge 2 { managerId := 7, costMinor := 100 },
      nextOf 1, nextOf 1, nextOf 2, nextOf 2] ++ List.replicate 4 (nextOf 1) ++
      List.replicate 4 (nextOf 2))
  revert hdebt
  decide +kernel

end RadiusModule.ManagerCredit
