import RadiusModule.Services.ManagerDebt

/-!
# Taking a charge back

`reverse_charge` gives back what a charge has moved: it credits the wallet and
enters a settlement of the debt and of the advance that the charge recorded.
Debt and advances are sums that do not go below zero, so an entry that settles
more than is owed is lost.
-/

namespace RadiusModule.ManagerCredit
open Library Connection BusinessOs

/-- What `commit` returns of a decision that it has applied. -/
structure ChargeResult where
  costMinor : ℤ
  walletDeductedMinor : ℤ
  debtRecordedMinor : ℤ
  advanceRecordedMinor : ℤ
deriving DecidableEq

def SpendDecision.result (d : SpendDecision) : ChargeResult where
  costMinor := d.costMinor
  walletDeductedMinor := if 0 < d.walletDeductMinor then d.walletDeductMinor else 0
  debtRecordedMinor := if 0 < d.debtMinor then d.debtMinor else 0
  advanceRecordedMinor := if 0 < d.advanceMinor then d.advanceMinor else 0

def creditBack (tenantId : ℤ) (walletId : ℕ) (walletBack : ℤ) (referenceType : String)
    (referenceId : Option ℤ) : Movement where
  tenantId
  walletId
  amount := minorToMoney walletBack
  transactionType := .credit
  referenceType := textOr referenceType "credit_reversal"
  referenceId
  metadata := [("reversal", .bool true)]

/-- `reverse_charge`; what raises leaves the rest undone. -/
def World.reverse (cfg : Config) (faults : Faults) (w : World) (tenantId managerId : ℤ)
    (charged : ChargeResult) (referenceType : String) (referenceId : Option ℤ) : World :=
  let settled := reverseCharge w.ledger tenantId managerId charged.debtRecordedMinor
    charged.advanceRecordedMinor
  if 0 < charged.walletDeductedMinor then
    match wallet cfg faults tenantId managerId w.books with
    | (none, books) => { w with books }
    | (some found, books) =>
      match perform faults.sqlite (changeBalance cfg.defaultCurrency
        (creditBack tenantId found.id charged.walletDeductedMinor referenceType referenceId))
        books with
      | (.error _, books) => { w with books }
      | (.ok _, books) => { w with books, ledger := settled }
  else { w with ledger := settled }

/-- `record_debt`: credit that is handed over on account. -/
def recordDebt (t : CreditLedger) (tenantId managerId amountMinor : ℤ) : CreditLedger :=
  if max 0 amountMinor ≤ 0 then t else record t tenantId managerId .debt (max 0 amountMinor)

/-- What `plan_package` decides when the owner confirms the debt. -/
def superOverride (balance costMinor : ℤ) : SpendDecision :=
  let cost := max 0 costMinor
  let deduct := min balance cost
  { ok := true
    mode := if 0 < cost - deduct then .debt else .wallet
    walletDeductMinor := deduct
    debtMinor := cost - deduct
    costMinor := cost }

/-- What may happen in between: the events of the gate, a package that the owner links on debt,
and credit on account. -/
inductive Act
  | gate (e : Event)
  | package (r : ℕ) (req : Request) (faults : Faults)
  | recordDebt (tenantId managerId amountMinor : ℤ)

def act (cfg : Config) (w : World) : Act → World
  | .gate e => step cfg w e
  | .package r req faults =>
    if (w.phase r).isNone then
      match wallet cfg faults req.tenantId req.managerId w.books with
      | (none, books) => { w with books }.setPhase r .failed
      | (some found, books) =>
        { w with books }.setPhase r (.opening req (superOverride found.balanceMinor req.costMinor) 0)
    else w
  | .recordDebt tenantId managerId amountMinor =>
    { w with ledger := recordDebt w.ledger tenantId managerId amountMinor }

def walletBalanceMinor (b : Books) (tenantId managerId : ℤ) : ℤ :=
  ((ownersWallet b tenantId "manager" managerId).map Wallet.balanceMinor).getD 0

def World.position (w : World) (tenantId managerId : ℤ) : ℤ :=
  walletBalanceMinor w.books tenantId managerId - currentDebtMinor w.ledger tenantId managerId

def canOpen (cfg : Config) (b : Books) (tenantId managerId : ℤ) : Bool :=
  (ownersWallet b tenantId "manager" managerId).isSome ||
    !b.ownerTaken tenantId "manager" (some managerId) cfg.defaultCurrency

structure Restorable (cfg : Config) (w : World) (tenantId managerId : ℤ)
    (charged : ChargeResult) : Prop where
  wallet : 0 < charged.walletDeductedMinor → canOpen cfg w.books tenantId managerId = true
  debt : 0 < charged.debtRecordedMinor →
    charged.debtRecordedMinor ≤ ledgerTotal w.ledger tenantId managerId .debt .debtSettle
  advance : 0 < charged.advanceRecordedMinor →
    charged.advanceRecordedMinor ≤ ledgerTotal w.ledger tenantId managerId .advance .advanceSettle

structure Split (d : SpendDecision) : Prop where
  deduct_nonneg : 0 ≤ d.walletDeductMinor
  debt_nonneg : 0 ≤ d.debtMinor
  advance_nonneg : 0 ≤ d.advanceMinor
  split : d.walletDeductMinor + d.debtMinor = d.costMinor

def Written (d : SpendDecision) : Prop :=
  0 < d.walletDeductMinor →
    positiveMinor (minorToMoney d.walletDeductMinor) = .ok d.walletDeductMinor

def PhaseSplit : Option Phase → Prop
  | some (.funding _ balance) => 0 ≤ balance
  | some (.lending _ d _) => Split d
  | some (.opening _ d _) => Split d
  | some (.debiting _ d _ _) => Split d
  | some (.recording _ d _) => Split d ∧ Written d
  | some (.advancing _ d) => Split d ∧ Written d
  | some (.succeeded _ d) => Split d ∧ Written d
  | _ => True

structure Whole (w : World) : Prop where
  books : Sound w.books
  phase : ∀ r, PhaseSplit (w.phase r)

theorem split_evaluate {cfg : Config} {managerId costMinor balance debt : ℤ}
    (hbalance : 0 ≤ balance) (hok : (evaluate cfg managerId costMinor balance debt).ok = true) :
    Split (evaluate cfg managerId costMinor balance debt) := by
  simp only [evaluate] at hok ⊢
  by_cases hfree : max 0 costMinor ≤ 0
  · simp only [if_pos hfree]
    exact ⟨le_rfl, le_rfl, le_rfl, rfl⟩
  by_cases hfull : max 0 costMinor ≤ balance
  · simp only [if_neg hfree, if_pos hfull]
    exact ⟨le_max_left _ _, le_rfl, le_rfl, add_zero _⟩
  simp only [if_neg hfree, if_neg hfull] at hok ⊢
  have hsplit : Split
      { ok := true, mode := .debt, walletDeductMinor := balance,
        debtMinor := max 0 costMinor - balance, costMinor := max 0 costMinor,
        shortfallMinor := max 0 costMinor - balance } :=
    ⟨hbalance, sub_nonneg.mpr (le_of_not_ge hfull), le_rfl, add_sub_cancel _ _⟩
  split_ifs at hok ⊢
  · exact hsplit
  · exact hsplit

theorem split_evaluateAdvance {cfg : Config} {managerId advanceMinor advances : ℤ}
    {funding : SpendDecision} (h : Split funding)
    (hok : (evaluateAdvance cfg managerId advanceMinor funding advances).ok = true) :
    Split (evaluateAdvance cfg managerId advanceMinor funding advances) := by
  simp only [evaluateAdvance] at hok ⊢
  split_ifs at hok ⊢
  exact ⟨h.deduct_nonneg, h.debt_nonneg, le_max_left _ _, h.split⟩

theorem split_superOverride {balance costMinor : ℤ} (hbalance : 0 ≤ balance) :
    Split (superOverride balance costMinor) :=
  ⟨le_min hbalance (le_max_left _ _), sub_nonneg.mpr (min_le_right _ _), le_rfl,
    add_sub_cancel _ _⟩

theorem phaseSplit_afterGate {req : Request} {d : SpendDecision} {debtRead : ℤ}
    (h : d.ok = true → Split d) : PhaseSplit (some (afterGate req d debtRead)) := by
  unfold afterGate
  by_cases hok : d.ok = true
  · rw [if_pos hok]
    exact h hok
  · rw [if_neg hok]
    exact True.intro

section
variable {cfg : Config} {w : World} {r : ℕ} {p : Phase}

theorem Whole.setPhase (h : Whole w) (hp : PhaseSplit (some p)) : Whole (w.setPhase r p) where
  books := h.books
  phase r' := by
    by_cases hr : r' = r
    · subst hr
      simpa [World.setPhase] using hp
    · simpa [World.setPhase, hr] using h.phase r'

theorem Whole.withBooks (h : Whole w) {books : Books} (hbooks : Sound books) :
    Whole { w with books } :=
  ⟨hbooks, h.phase⟩

theorem Whole.withLedger (h : Whole w) (ledger : CreditLedger) : Whole { w with ledger } :=
  ⟨h.books, h.phase⟩

theorem Whole.withJournal (h : Whole w) (ledger : CreditLedger) (journal : List (ℕ × Moved)) :
    Whole { w with ledger, journal } :=
  ⟨h.books, h.phase⟩

theorem Whole.next (h : Whole w) (r : ℕ) (faults : Faults) (raises : Bool) :
    Whole (w.next cfg r faults raises) := by
  have hr := h.phase r
  unfold World.next
  cases hphase : w.phase r with
  | none => exact h
  | some phase =>
    rw [hphase] at hr
    cases phase with
    | reading req =>
      have hwallet := sound_walletOf cfg.defaultCurrency faults req.tenantId "manager"
        req.managerId h.books
      dsimp only [wallet]
      generalize walletOf cfg.defaultCurrency faults req.tenantId "manager" req.managerId w.books =
        out at hwallet ⊢
      rcases out with ⟨_ | found, books⟩
      · exact (h.withBooks hwallet.1).setPhase True.intro
      · exact (h.withBooks hwallet.1).setPhase (hwallet.2 found rfl)
    | funding req balance =>
      dsimp only
      split_ifs with hraises hadvance
      · exact h.setPhase True.intro
      · exact h.setPhase (split_evaluate hr (Bool.and_eq_true_iff.mp hadvance).2)
      · exact h.setPhase (phaseSplit_afterGate (split_evaluate hr))
    | lending req d debtRead =>
      dsimp only
      split_ifs with hraises
      · exact h.setPhase True.intro
      · exact h.setPhase (phaseSplit_afterGate (split_evaluateAdvance hr))
    | opening req d debtRead =>
      have hwallet := sound_walletOf cfg.defaultCurrency faults req.tenantId "manager"
        req.managerId h.books
      dsimp only [wallet]
      generalize walletOf cfg.defaultCurrency faults req.tenantId "manager" req.managerId w.books =
        out at hwallet ⊢
      rcases out with ⟨_ | found, books⟩
      · exact (h.withBooks hwallet.1).setPhase True.intro
      · exact (h.withBooks hwallet.1).setPhase hr
    | debiting req d debtRead walletId =>
      dsimp only
      split_ifs with hdeduct
      · rcases perform_changeBalance faults cfg.defaultCurrency (debitOf req d walletId) w.books
          with ⟨e, herror⟩ | ⟨amount, found, hamount, hfound, hafter, hmade⟩
        · simp only [herror]
          exact (h.withBooks h.books).setPhase True.intro
        · have hsame : amount = d.walletDeductMinor := positiveMinor_minorToMoney hamount
          simp only [hmade]
          refine ((h.withBooks (sound_moved h.books hfound (positiveMinor_pos hamount)
            hafter)).withJournal _ _).setPhase ⟨hr, fun _ => ?_⟩
          rw [hsame] at hamount
          exact hamount
      · exact h.setPhase ⟨hr, fun hpos => absurd hpos hdeduct⟩
    | recording req d debtRead =>
      dsimp only
      split_ifs with hdebt hraises
      · exact h.setPhase True.intro
      · exact (h.withJournal _ _).setPhase hr
      · exact h.setPhase hr
    | advancing req d =>
      dsimp only
      split_ifs with hadvance hraises
      · exact h.setPhase True.intro
      · exact (h.withLedger _).setPhase hr
      · exact h.setPhase hr
    | succeeded req d => exact h
    | refused message => exact h
    | failed => exact h

theorem Whole.begin (h : Whole w) (r : ℕ) (req : Request) : Whole (w.begin r req) := by
  unfold World.begin
  split_ifs
  · exact h.setPhase True.intro
  · exact h

theorem Whole.step (h : Whole w) (e : Event) : Whole (step cfg w e) := by
  cases e with
  | charge r req => exact h.begin r req
  | enforce r tenantId managerId isSuper costMoney kind =>
    simp only [ManagerCredit.step]
    cases enforceManagerSpend cfg tenantId managerId isSuper costMoney kind with
    | error e => exact h
    | ok req =>
      cases req with
      | none => exact h
      | some req => exact h.begin r req
  | next r faults raises => exact h.next r faults raises
  | wallet call => exact h.withBooks (sound_step call h.books)
  | settle tenantId managerId amountMinor => exact h.withLedger _
  | reverse tenantId managerId debtBack advanceBack => exact h.withLedger _

theorem Whole.act (h : Whole w) (a : Act) : Whole (act cfg w a) := by
  cases a with
  | gate e => exact h.step e
  | package r req faults =>
    have hwallet := sound_walletOf cfg.defaultCurrency faults req.tenantId "manager"
      req.managerId h.books
    simp only [ManagerCredit.act]
    split_ifs
    · dsimp only [wallet]
      generalize walletOf cfg.defaultCurrency faults req.tenantId "manager" req.managerId w.books =
        out at hwallet ⊢
      rcases out with ⟨_ | found, books⟩
      · exact (h.withBooks hwallet.1).setPhase True.intro
      · exact (h.withBooks hwallet.1).setPhase (split_superOverride (hwallet.2 found rfl))
    · exact h
  | recordDebt tenantId managerId amountMinor => exact h.withLedger _

theorem whole_run (calls : List Call) (ledger : CreditLedger) (acts : List Act) :
    Whole (Run.run (ManagerCredit.act cfg)
      (World.initial (Run.run BusinessOs.step .empty calls) ledger) acts) := by
  refine Run.run_always (fun _ a h => h.act a) ⟨?_, fun _ => True.intro⟩
  exact Run.run_always (fun _ c h => sound_step c h) sound_empty

end

theorem ledgerTotal_record (t : CreditLedger) (tenantId managerId : ℤ) (kind : Kind)
    (amountMinor : ℤ) (plus minus : Kind) :
    ledgerTotal (record t tenantId managerId kind amountMinor) tenantId managerId plus minus =
      ledgerTotal t tenantId managerId plus minus +
        if kind = plus then amountMinor else if kind = minus then -amountMinor else 0 := by
  simp [ledgerTotal, record, Table.select_insert, CreditEntry.signed]

theorem ledgerTotal_reverseCharge (t : CreditLedger) (tenantId managerId debtBack advanceBack : ℤ) :
    ledgerTotal (reverseCharge t tenantId managerId debtBack advanceBack) tenantId managerId
        .debt .debtSettle = ledgerTotal t tenantId managerId .debt .debtSettle - max 0 debtBack ∧
      ledgerTotal (reverseCharge t tenantId managerId debtBack advanceBack) tenantId managerId
        .advance .advanceSettle =
          ledgerTotal t tenantId managerId .advance .advanceSettle - max 0 advanceBack := by
  unfold reverseCharge
  constructor
  · split_ifs <;> simp [ledgerTotal_record] <;> omega
  · split_ifs <;> simp [ledgerTotal_record] <;> omega

theorem clamped_falls_iff {total back : ℤ} :
    max 0 (total - max 0 back) = max 0 total - max 0 back ↔ (0 < back → back ≤ total) := by
  omega

theorem ownersWallet_mem {b : Books} {tenantId managerId : ℤ} {found : Wallet}
    (h : ownersWallet b tenantId "manager" managerId = some found) :
    found ∈ b.wallets.rows ∧ found.tenantId = tenantId := by
  have hmem := List.mem_of_mem_take (List.mem_of_find?_eq_some h)
  obtain ⟨hrow, hof⟩ := Table.mem_select.mp (List.mem_reverse.mp hmem)
  simp only [Bool.and_eq_true, decide_eq_true_eq] at hof
  exact ⟨hrow, hof.1⟩

theorem walletBalanceMinor_moved {b : Books} {tenantId managerId : ℤ} {found : Wallet}
    (hfound : ownersWallet b tenantId "manager" managerId = some found) (defaultCurrency : String)
    (m : Movement) (htenant : m.tenantId = tenantId) (hid : m.walletId = found.id)
    (amountMinor : ℤ) :
    walletBalanceMinor (b.moved defaultCurrency m found amountMinor) tenantId managerId =
      found.balanceMinor + m.transactionType.signed amountMinor := by
  obtain ⟨-, hmine⟩ := ownersWallet_mem hfound
  rw [walletBalanceMinor, ownersWallet_moved, hfound, Option.map_some, Option.map_some,
    Option.getD_some, if_pos (by simp [ofWallet, htenant, hid, hmine])]

theorem credit_back (cfg : Config) {b : Books} (hsound : Sound b) (tenantId managerId : ℤ)
    {walletBack : ℤ} (hwritten : positiveMinor (minorToMoney walletBack) = .ok walletBack)
    (referenceType : String) (referenceId : Option ℤ) :
    (canOpen cfg b tenantId managerId = false ∧ (wallet cfg {} tenantId managerId b).1 = none ∧
        (wallet cfg {} tenantId managerId b).2 = b) ∨
      canOpen cfg b tenantId managerId = true ∧ ∃ found opened ids after,
        wallet cfg {} tenantId managerId b = (some found, opened) ∧
        perform ({} : Faults).sqlite (changeBalance cfg.defaultCurrency
          (creditBack tenantId found.id walletBack referenceType referenceId)) opened =
          (.ok ids, after) ∧
        walletBalanceMinor after tenantId managerId =
          walletBalanceMinor b tenantId managerId + walletBack := by
  have hpos := positiveMinor_pos hwritten
  have hcredit : ∀ {opened : Books} {found : Wallet}, Sound opened →
      ownersWallet opened tenantId "manager" managerId = some found →
      ∃ ids after, perform ({} : Faults).sqlite (changeBalance cfg.defaultCurrency
          (creditBack tenantId found.id walletBack referenceType referenceId)) opened =
          (.ok ids, after) ∧
        walletBalanceMinor after tenantId managerId = found.balanceMinor + walletBack := by
    intro opened found hsound hfound
    obtain ⟨hmem, htenant⟩ := ownersWallet_mem hfound
    have hwallet : opened.wallet tenantId found.id = some found := htenant ▸ Books.wallet_of_mem hmem
    have hbalance := (hsound.wallet found hmem).balance_nonneg
    have hmade := perform_changeBalance_ok cfg.defaultCurrency
      (creditBack tenantId found.id walletBack referenceType referenceId) hwritten hwallet
      (by simp only [creditBack, TransactionType.signed]; omega)
    exact ⟨_, _, hmade, walletBalanceMinor_moved hfound _ _ rfl rfl _⟩
  unfold canOpen wallet walletOf
  cases hfound : ownersWallet b tenantId "manager" managerId with
  | some found =>
    obtain ⟨ids, after, hmade, hafter⟩ := hcredit hsound hfound
    refine .inr ⟨rfl, found, b, ids, after, rfl, hmade, ?_⟩
    rw [hafter, walletBalanceMinor, hfound]
    rfl
  | none =>
    rcases perform_createWallet_iff b cfg.defaultCurrency tenantId managerId
        (by decide : PyText.strip "manager" = "manager") (by decide) with
      ⟨htaken, e, herror⟩ | ⟨hfree, event, hmade⟩
    · exact .inl ⟨by simp [htaken], by simp only [herror], by simp only [herror]⟩
    · have hopened := ownersWallet_inserted b tenantId managerId "manager" cfg.defaultCurrency event
      have hopenedSound := sound_recordEvent (sound_insertWallet hsound tenantId "manager"
        (some managerId) cfg.defaultCurrency) event
      obtain ⟨ids, after, hcredited, hafter⟩ := hcredit hopenedSound hopened
      refine .inr ⟨by simp [hfree], _, _, ids, after, ?_, hcredited, ?_⟩
      · simp only [hmade]
        rw [Prod.mk.injEq]
        refine ⟨?_, rfl⟩
        obtain ⟨hmem, htenant⟩ := ownersWallet_mem hopened
        exact Books.wallet_of_mem hmem
      · rw [hafter, walletBalanceMinor, hfound]
        rfl

theorem Split.result_eq {d : SpendDecision} (h : Split d) :
    d.result = ⟨d.costMinor, d.walletDeductMinor, d.debtMinor, d.advanceMinor⟩ := by
  obtain ⟨hdeduct, hdebt, hadvance, -⟩ := h
  simp only [SpendDecision.result, ChargeResult.mk.injEq, true_and]
  refine ⟨?_, ?_, ?_⟩ <;> split_ifs <;> omega

theorem settled_restores_iff (w : World) {books : Books} {tenantId managerId : ℤ}
    {d : SpendDecision} (h : Split d)
    (hbooks : walletBalanceMinor books tenantId managerId =
      walletBalanceMinor w.books tenantId managerId + d.walletDeductMinor) :
    let ledger := reverseCharge w.ledger tenantId managerId d.debtMinor d.advanceMinor
    (({ w with books, ledger } : World).position tenantId managerId =
        w.position tenantId managerId + d.costMinor ∧
      currentAdvancesMinor ledger tenantId managerId =
        currentAdvancesMinor w.ledger tenantId managerId - d.advanceMinor) ↔
      (0 < d.debtMinor →
        d.debtMinor ≤ ledgerTotal w.ledger tenantId managerId .debt .debtSettle) ∧
      (0 < d.advanceMinor →
        d.advanceMinor ≤ ledgerTotal w.ledger tenantId managerId .advance .advanceSettle) := by
  intro ledger
  obtain ⟨hdeduct, hdebt, hadvance, hcost⟩ := h
  obtain ⟨hdebtTotal, hadvanceTotal⟩ :=
    ledgerTotal_reverseCharge w.ledger tenantId managerId d.debtMinor d.advanceMinor
  rw [← clamped_falls_iff, ← clamped_falls_iff]
  simp only [World.position, currentDebtMinor, currentAdvancesMinor, ledgerSum, ledger, hbooks,
    hdebtTotal, hadvanceTotal, max_eq_right hadvance]
  constructor
  · rintro ⟨hposition, hadvances⟩
    exact ⟨by omega, hadvances⟩
  · rintro ⟨hdebts, hadvances⟩
    exact ⟨by omega, hadvances⟩

/-- After a charge that was committed, whatever has happened since: taking it back raises what
the manager has by exactly its cost, and lowers his advances by exactly its advance, if and only
if his wallet can be opened and the recorded debt and advance are still owed in full. -/
theorem reverse_restores_iff (cfg cfg' : Config) (calls : List Call) (ledger : CreditLedger)
    (acts : List Act) (r : ℕ) (req : Request) (d : SpendDecision) (referenceType : String)
    (referenceId : Option ℤ)
    (hcharged : (Run.run (act cfg) (World.initial (Run.run BusinessOs.step .empty calls) ledger)
      acts).phase r = some (.succeeded req d)) :
    let w := Run.run (act cfg) (World.initial (Run.run BusinessOs.step .empty calls) ledger) acts
    let w' := w.reverse cfg' {} req.tenantId req.managerId d.result referenceType referenceId
    (w'.position req.tenantId req.managerId =
        w.position req.tenantId req.managerId + d.result.costMinor ∧
      currentAdvancesMinor w'.ledger req.tenantId req.managerId =
        currentAdvancesMinor w.ledger req.tenantId req.managerId -
          d.result.advanceRecordedMinor) ↔
      Restorable cfg' w req.tenantId req.managerId d.result := by
  intro w w'
  have hwhole : Whole w := whole_run calls ledger acts
  have hphase := hwhole.phase r
  rw [show w.phase r = some (.succeeded req d) from hcharged] at hphase
  obtain ⟨hsplit, hwritten⟩ := hphase
  have hresult := hsplit.result_eq
  have hcost := hsplit.split
  have hdebt := hsplit.debt_nonneg
  have hrest : ∀ {charged : ChargeResult}, charged = d.result →
      (Restorable cfg' w req.tenantId req.managerId charged ↔
        (0 < d.walletDeductMinor → canOpen cfg' w.books req.tenantId req.managerId = true) ∧
        (0 < d.debtMinor →
          d.debtMinor ≤ ledgerTotal w.ledger req.tenantId req.managerId .debt .debtSettle) ∧
        (0 < d.advanceMinor → d.advanceMinor ≤
          ledgerTotal w.ledger req.tenantId req.managerId .advance .advanceSettle)) := by
    rintro _ rfl
    rw [hresult]
    exact ⟨fun h => ⟨h.wallet, h.debt, h.advance⟩, fun h => ⟨h.1, h.2.1, h.2.2⟩⟩
  rw [hrest rfl]
  simp only [w', World.reverse, hresult]
  by_cases hpos : 0 < d.walletDeductMinor
  · simp only [if_pos hpos]
    rcases credit_back cfg' hwhole.books req.tenantId req.managerId (hwritten hpos) referenceType
      referenceId with ⟨hclosed, hnone, hsame⟩ |
      ⟨hopen, found, opened, ids, after, hwallet, hcredited, hafter⟩
    · generalize wallet cfg' {} req.tenantId req.managerId w.books = out at hnone hsame ⊢
      obtain ⟨_, books⟩ := out
      subst hnone hsame
      constructor
      · rintro ⟨hposition, -⟩
        dsimp only [World.position] at hposition
        omega
      · rintro ⟨hopen, -⟩
        rw [hclosed] at hopen
        cases hopen hpos
    · simp only [hwallet, hcredited]
      refine (settled_restores_iff w hsplit hafter).trans ?_
      exact ⟨fun h => ⟨fun _ => hopen, h⟩, fun h => h.2⟩
  · simp only [if_neg hpos]
    have hzero : d.walletDeductMinor = 0 := le_antisymm (not_lt.mp hpos) hsplit.deduct_nonneg
    have hsame : walletBalanceMinor w.books req.tenantId req.managerId =
        walletBalanceMinor w.books req.tenantId req.managerId + d.walletDeductMinor := by omega
    refine (settled_restores_iff w hsplit hsame).trans ?_
    exact ⟨fun h => ⟨fun h' => absurd h' hpos, h⟩, fun h => h.2⟩

deriving instance DecidableEq for Phase

def trusting : Config where
  isPrimaryOwner _ := false
  getAdmin managerId :=
    if managerId = 7 then some { debtCapEnabled := true, debtCapMinor := 10000 } else none
  defaultCurrency := "ILS"

def onDebt : List Act :=
  .gate (.charge 0 { managerId := 7, costMinor := 5000 }) ::
    List.replicate 6 (.gate (.next 0 {} false))

example : (Run.run (act trusting) (World.initial .empty .empty) onDebt).position 1 7 = -5000 := by
  decide +kernel

def fifty : SpendDecision :=
  { ok := true, mode := .debt, debtMinor := 5000, costMinor := 5000, shortfallMinor := 5000 }

theorem reverse_restores_fifty :
    let w := Run.run (act trusting) (World.initial (Run.run BusinessOs.step .empty []) .empty) onDebt
    (w.reverse trusting {} 1 7 fifty.result "" none).position 1 7 = w.position 1 7 + 5000 := by
  exact ((reverse_restores_iff trusting trusting [] .empty onDebt 0
    { managerId := 7, costMinor := 5000 } fifty "" none (by decide +kernel)).mpr
    ⟨by decide +kernel, by decide +kernel, by decide +kernel⟩).1

/-- The manager has paid the fifty before the charge is taken back, and they are lost to him. -/
theorem reverse_after_settlement_loses :
    let w := Run.run (act trusting) (World.initial (Run.run BusinessOs.step .empty []) .empty)
      (onDebt ++ [.gate (.settle 1 7 5000)])
    w.phase 0 = some (.succeeded { managerId := 7, costMinor := 5000 } fifty) ∧
      (w.reverse trusting {} 1 7 fifty.result "" none).position 1 7 ≠
        w.position 1 7 + fifty.result.costMinor := by
  decide +kernel

end RadiusModule.ManagerCredit
