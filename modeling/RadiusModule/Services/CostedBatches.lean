import RadiusModule.Services.ManagerCredit

/-!
# Card batches and their cost

`create_costed_batch` writes the batch, the price snapshot, the charge and the
three book entries one after the other, each committed by itself. A raise
between two of them leaves what was written before it.
-/

namespace RadiusModule.CostedBatches
open Library Connection BusinessOs ManagerCredit

/-- A row of `card_marketplace_packages`; `set_package_pricing` refuses a negative price. -/
structure Package where
  id : ℤ
  name : String
  planId : ℤ
  currency : String
  priceMinor : ℕ
  retailPriceMinor : ℕ
  wholesalePriceMinor : ℕ
  allowedManagerIds : List ℤ := []

structure Batch where
  id : ℕ
  tenantId : ℤ
  batchCode : String
  packageName : String
  planId : ℤ
  count : ℤ
  managerId : ℤ

structure PriceSnapshot where
  id : ℕ
  tenantId : ℤ
  referenceId : ℕ
  packageId : ℤ
  retailPriceMinor : ℤ
  wholesalePriceMinor : ℤ
  effectivePriceMinor : ℤ
  currency : String

structure RevenueRecord where
  id : ℕ
  tenantId : ℤ
  sourceId : ℕ
  priceSnapshotId : ℕ
  retailPriceMinor : ℤ
  wholesaleCostMinor : ℤ
  netProfitMinor : ℤ
  currency : String

structure CostRecord where
  id : ℕ
  tenantId : ℤ
  batchId : ℕ
  packageId : ℤ
  responsibleId : ℤ
  count : ℤ
  retailPriceMinor : ℤ
  wholesalePriceMinor : ℤ
  totalRetailMinor : ℤ
  totalWholesaleMinor : ℤ
  walletId : ℕ
  walletTransactionId : Option ℕ
  ledgerEntryId : ℕ
  revenueRecordId : ℕ
  priceSnapshotId : ℕ

structure Office where
  books : Books
  credit : CreditLedger
  batches : Table Batch Batch.id
  snapshots : Table PriceSnapshot PriceSnapshot.id
  revenue : Table RevenueRecord RevenueRecord.id
  costs : Table CostRecord CostRecord.id

inductive PricingError
  | pricing (text : String)
  | confirmRequired (shortfallMinor : ℤ)
  | service (e : ServiceError)
deriving DecidableEq

inductive Step
  | batch
  | snapshot
  | wallet
  | debit
  | debt
  | ledger
  | revenue
  | cost
  | event
  | result
deriving DecidableEq

/-- The call, with the time of its batch code and the step of it that raises, if any: a lock, a
full disk or an integer past 64 bits. The raise ends the call. -/
structure Request where
  tenantId : ℤ := 1
  package : Option Package
  count : ℤ
  managerId : ℤ
  actorIsSuper : Bool := false
  allowSuperDebt : Bool := false
  now : String
  raising : Option Step := none

def Package.retailMinor (p : Package) : ℕ :=
  if p.retailPriceMinor = 0 then p.priceMinor else p.retailPriceMinor

def totalWholesale (r : Request) (p : Package) : ℤ := p.wholesalePriceMinor * r.count

def totalRetail (r : Request) (p : Package) : ℤ := p.retailMinor * r.count

/-- `wallet_balance_minor`: a manager without a wallet gets one. -/
def walletBalanceMinor (cfg : Config) (tenantId managerId : ℤ) (books : Books) :
    Except PricingError ℤ × Books :=
  match wallet cfg {} tenantId managerId books with
  | (some found, books) => (.ok found.balanceMinor, books)
  | (none, books) => (.error (.service (.database "wallet")), books)

def planPackage (cfg : Config) (r : Request) (costMinor : ℤ) (credit : CreditLedger)
    (books : Books) : Except PricingError SpendDecision × Books :=
  let cost := max 0 costMinor
  if cost ≤ 0 then (.ok (evaluate cfg r.managerId cost 0 0), books)
  else
    match walletBalanceMinor cfg r.tenantId r.managerId books with
    | (.error e, books) => (.error e, books)
    | (.ok balance, books) =>
      let decision :=
        evaluate cfg r.managerId cost balance (currentDebtMinor credit r.tenantId r.managerId)
      if decision.ok then (.ok decision, books)
      else if r.actorIsSuper then
        if !r.allowSuperDebt then (.error (.confirmRequired decision.shortfallMinor), books)
        else
          -- the wallet is read again and nothing moved it in between
          let walletDeduct := min balance cost
          (.ok
            { ok := true
              mode := if 0 < cost - walletDeduct then .debt else .wallet
              walletDeductMinor := walletDeduct
              debtMinor := cost - walletDeduct
              costMinor := cost }, books)
      else (.error (.pricing ("manager wallet has insufficient balance — " ++ noBalanceMsg)), books)

/-- The end of the time without `:` and `.`: the last digit of the seconds, and what follows. -/
def batchCode (p : Package) (now : String) : String :=
  let text := now.toList.filter fun c => c ≠ ':' && c ≠ '.'
  "COST-" ++ toString p.id ++ "-" ++ String.ofList (text.drop (text.length - 8))

def codeTaken (o : Office) (r : Request) (p : Package) : Bool :=
  o.batches.rows.any fun b => b.tenantId = r.tenantId && b.batchCode = batchCode p r.now

namespace Office
variable (o : Office)

def insertBatch (r : Request) (p : Package) : Office :=
  { o with
    batches := o.batches.insert
      (fun id => ⟨id, r.tenantId, batchCode p r.now, p.name, p.planId, r.count, r.managerId⟩)
      fun _ => rfl }

def insertSnapshot (r : Request) (p : Package) (batchId : ℕ) : Office :=
  { o with
    snapshots := o.snapshots.insert
      (fun id => ⟨id, r.tenantId, batchId, p.id, p.retailMinor, p.wholesalePriceMinor,
        p.wholesalePriceMinor, p.currency⟩) fun _ => rfl }

def insertRevenue (r : Request) (p : Package) (batchId snapshotId : ℕ) : Office :=
  { o with
    revenue := o.revenue.insert
      (fun id => ⟨id, r.tenantId, batchId, snapshotId, totalRetail r p, totalWholesale r p,
        max (totalRetail r p - totalWholesale r p) 0, p.currency⟩) fun _ => rfl }

def insertCost (r : Request) (p : Package) (batchId snapshotId walletId : ℕ)
    (transactionId : Option ℕ) (ledgerId revenueId : ℕ) : Office :=
  { o with
    costs := o.costs.insert
      (fun id => ⟨id, r.tenantId, batchId, p.id, r.managerId, r.count, p.retailMinor,
        p.wholesalePriceMinor, totalRetail r p, totalWholesale r p, walletId, transactionId,
        ledgerId, revenueId, snapshotId⟩) fun _ => rfl }

def recordEvent (batchId : ℕ) : Office :=
  { o with
    books := o.books.recordEvent ⟨"card_batch.costed", "card_batch", some batchId, none, none⟩ }

end Office

def Request.orRaise {α : Type} (r : Request) (s : Step) (o : Office)
    (next : Except PricingError α × Office) : Except PricingError α × Office :=
  if r.raising = some s then (.error (.service (.database "raised")), o) else next

def debitOfBatch (r : Request) (decision : SpendDecision) (walletId batchId : ℕ) : Movement where
  tenantId := r.tenantId
  walletId
  amount := minorToMoney decision.walletDeductMinor
  transactionType := .debit
  referenceType := "card_batch_cost"
  referenceId := some batchId
  metadata := [("kind", .str "card_package")]

def batchEntry (r : Request) (p : Package) (batchId : ℕ) : LedgerEntry where
  id := 0
  tenantId := r.tenantId
  entryType := "batch_creation"
  debitAccount := .other ("wallet:manager:" ++ toString r.managerId)
  creditAccount := .other "card_inventory_cost"
  amountMinor := 0
  currency := p.currency
  targetType := "manager"
  targetId := some r.managerId
  referenceType := "card_batch"
  referenceId := some batchId
  metadata := []

def bookBatch (r : Request) (p : Package) (batchId snapshotId walletId : ℕ)
    (transactionId : Option ℕ) (o : Office) : Except PricingError ℕ × Office :=
  r.orRaise .ledger o
    (match perform ({} : Faults).sqlite
      (ledgerWriteEntry (minorToMoney (totalWholesale r p)) (batchEntry r p batchId)) o.books with
    | (.error e, books) => (.error (.service e), { o with books })
    | (.ok ledgerId, books) =>
      let o := { o with books }
      r.orRaise .revenue o <|
      let revenueId := o.revenue.next
      let o := o.insertRevenue r p batchId snapshotId
      r.orRaise .cost o <|
      let o := o.insertCost r p batchId snapshotId walletId transactionId ledgerId revenueId
      r.orRaise .event o <|
      let o := o.recordEvent batchId
      r.orRaise .result o (.ok batchId, o))

def commitDebt (r : Request) (p : Package) (decision : SpendDecision)
    (batchId snapshotId walletId : ℕ) (transactionId : Option ℕ) (o : Office) :
    Except PricingError ℕ × Office :=
  if 0 < decision.debtMinor then
    r.orRaise .debt o <|
    bookBatch r p batchId snapshotId walletId transactionId
      { o with credit := record o.credit r.tenantId r.managerId .debt decision.debtMinor }
  else bookBatch r p batchId snapshotId walletId transactionId o

def commitCharge (cfg : Config) (r : Request) (p : Package) (decision : SpendDecision)
    (batchId snapshotId : ℕ) (o : Office) : Except PricingError ℕ × Office :=
  r.orRaise .wallet o
    (match wallet cfg {} r.tenantId r.managerId o.books with
    | (none, books) => (.error (.service (.database "wallet")), { o with books })
    | (some found, books) =>
      let o := { o with books }
      if 0 < decision.walletDeductMinor then
        r.orRaise .debit o
          (match perform ({} : Faults).sqlite
            (changeBalance cfg.defaultCurrency (debitOfBatch r decision found.id batchId))
            o.books with
          | (.error e, books) => (.error (.service e), { o with books })
          | (.ok ids, books) =>
            commitDebt r p decision batchId snapshotId found.id (some ids.1) { o with books })
      else commitDebt r p decision batchId snapshotId found.id none o)

/-- The writes of `create_costed_batch`, once the gate has accepted. -/
def writeBatch (cfg : Config) (r : Request) (p : Package) (decision : SpendDecision)
    (o : Office) : Except PricingError ℕ × Office :=
  r.orRaise .batch o <|
  if codeTaken o r p then (.error (.service (.database "UNIQUE constraint failed")), o)
  else
    let batchId := o.batches.next
    let o := o.insertBatch r p
    r.orRaise .snapshot o <|
    let snapshotId := o.snapshots.next
    commitCharge cfg r p decision batchId snapshotId (o.insertSnapshot r p batchId)

def gate (cfg : Config) (r : Request) (o : Office) :
    Except PricingError (Package × SpendDecision) × Office :=
  match r.package with
  | none => (.error (.pricing "package not found"), o)
  | some p =>
    if r.count ≤ 0 then (.error (.pricing "count must be positive"), o)
    else if p.allowedManagerIds ≠ [] ∧ r.managerId ∉ p.allowedManagerIds then
      (.error (.pricing "manager is not allowed for this package"), o)
    else
      match planPackage cfg r (totalWholesale r p) o.credit o.books with
      | (.error e, books) => (.error e, { o with books })
      | (.ok decision, books) => (.ok (p, decision), { o with books })

def createCostedBatch (cfg : Config) (r : Request) (o : Office) :
    Except PricingError ℕ × Office :=
  match gate cfg r o with
  | (.error e, o) => (.error e, o)
  | (.ok (p, decision), o) => writeBatch cfg r p decision o

structure Untouched (o o' : Office) : Prop where
  batches : o'.batches = o.batches
  snapshots : o'.snapshots = o.snapshots
  movements : o'.books.transactions = o.books.transactions
  wallets : ∀ w ∈ o.books.wallets.rows, w ∈ o'.books.wallets.rows
  debts : o'.credit = o.credit
  ledger : o'.books.ledger = o.books.ledger
  revenue : o'.revenue = o.revenue
  costs : o'.costs = o.costs

structure Deducted (r : Request) (batchId : ℕ) (o' : Office) (t : WalletTransaction) : Prop where
  kind : t.transactionType = .debit
  reference : t.referenceId = some (batchId : ℤ)
  left : ∃ w ∈ o'.books.wallets.rows, w.id = t.walletId ∧ w.ownerId.getD 0 = r.managerId ∧
    w.balanceMinor = t.beforeBalanceMinor - t.amountMinor

/-- One batch, one snapshot, a charge of `charge` and one row in each book. -/
structure Booked (r : Request) (p : Package) (o o' : Office) (batchId : ℕ) (charge : ℤ) :
    Prop where
  batch : ∃ b : Batch, o'.batches.rows = o.batches.rows ++ [b] ∧ b.id = batchId ∧
    b.count = r.count ∧ b.managerId = r.managerId
  snapshot : ∃ s : PriceSnapshot, o'.snapshots.rows = o.snapshots.rows ++ [s] ∧
    s.referenceId = batchId ∧ s.retailPriceMinor = p.retailMinor ∧
    s.wholesalePriceMinor = p.wholesalePriceMinor
  charged : ∃ deductions debts,
    o'.books.transactions.rows = o.books.transactions.rows ++ deductions ∧
    o'.credit.rows = o.credit.rows ++ debts ∧
    (∀ t ∈ deductions, Deducted r batchId o' t) ∧
    (∀ e ∈ debts, e.kind = .debt ∧ e.tenantId = r.tenantId ∧ e.managerId = r.managerId) ∧
    (deductions.map (·.amountMinor)).sum + (debts.map (·.amountMinor)).sum = charge
  ledger : ∃ corrections entry,
    o'.books.ledger.rows = o.books.ledger.rows ++ corrections ++ [entry] ∧
    (∀ e ∈ corrections, e.entryType = "correction" ∧ e.referenceType = "card_batch_cost") ∧
    entry.entryType = "batch_creation" ∧ entry.referenceId = some (batchId : ℤ) ∧
    entry.amountMinor = totalWholesale r p
  revenue : ∃ v : RevenueRecord, o'.revenue.rows = o.revenue.rows ++ [v] ∧ v.sourceId = batchId ∧
    v.retailPriceMinor = totalRetail r p ∧ v.wholesaleCostMinor = totalWholesale r p
  cost : ∃ c : CostRecord, o'.costs.rows = o.costs.rows ++ [c] ∧ c.batchId = batchId ∧
    c.count = r.count ∧ c.totalWholesaleMinor = totalWholesale r p

/-- The call leaves nothing of the batch, or it makes and charges it whole; and it does make it
when the gate accepts and nothing raises. -/
def BatchKept (cfg : Config) (r : Request) (o : Office) : Prop :=
  let out := createCostedBatch cfg r o
  (∀ e, out.1 = .error e → Untouched o out.2) ∧
  (∀ batchId, out.1 = .ok batchId →
    ∃ p ∈ r.package, Booked r p o out.2 batchId (totalWholesale r p)) ∧
  (r.raising = none → ∀ accepted, (gate cfg r o).1 = .ok accepted → ∃ batchId, out.1 = .ok batchId)

def balanceOf (r : Request) (o : Office) : ℤ :=
  match ownersWallet o.books r.tenantId "manager" r.managerId with
  | some w => w.balanceMinor
  | none => 0

def Step.runs (balance total : ℤ) : Step → Prop
  | .debit => 0 < balance
  | .debt => balance < total
  | _ => True

/-- A request that the gate accepts raises at the batch itself, or all of its steps go through:
the code is free, no step raises, and the cost has an amount to book. -/
def GoesThrough (cfg : Config) (r : Request) (o : Office) : Prop :=
  ∀ p decision, (gate cfg r o).1 = .ok (p, decision) →
    (r.raising ≠ none ∧ (r.raising = some .batch ∨ codeTaken o r p = true)) ∨
    (codeTaken o r p = false ∧
      (∀ s, r.raising = some s → ¬s.runs (balanceOf r o) (totalWholesale r p)) ∧
      0 < p.wholesalePriceMinor ∧ totalWholesale r p < 10 ^ Decimal.precision ∧
      0 ≤ balanceOf r o)

structure Opened (b b' : Books) : Prop where
  movements : b'.transactions = b.transactions
  ledger : b'.ledger = b.ledger
  wallets : ∀ w ∈ b.wallets.rows, w ∈ b'.wallets.rows

theorem Opened.rfl (b : Books) : Opened b b := ⟨.refl _, .refl _, fun _ h => h⟩

theorem wallet_opened (cfg : Config) (tenantId managerId : ℤ) (b : Books) :
    Opened b (wallet cfg {} tenantId managerId b).2 := by
  unfold wallet walletOf
  cases ownersWallet b tenantId "manager" managerId with
  | some w => exact .rfl b
  | none =>
    rcases perform_createWallet {} cfg.defaultCurrency tenantId "manager" (some managerId) "" b
      with ⟨e, herror⟩ | ⟨event, hmade⟩
    · simp only [herror]
      exact .rfl b
    · simp only [hmade]
      exact ⟨.refl _, .refl _, fun w hw => List.mem_append_left _ hw⟩

theorem wallet_found {cfg : Config} {r : Request} {o : Office} {w : Wallet} {books : Books}
    (h : wallet cfg {} r.tenantId r.managerId o.books = (some w, books)) :
    ownersWallet books r.tenantId "manager" r.managerId = some w ∧
      w.balanceMinor = balanceOf r o := by
  unfold wallet walletOf at h
  unfold balanceOf
  cases hown : ownersWallet o.books r.tenantId "manager" r.managerId with
  | some found =>
    rw [hown] at h
    cases h
    exact ⟨hown, rfl⟩
  | none =>
    simp only [hown] at h
    rcases perform_createWallet {} cfg.defaultCurrency r.tenantId "manager" (some r.managerId) ""
      o.books with ⟨e, herror⟩ | ⟨event, hmade⟩
    · rw [herror] at h
      cases h
    · simp only [hmade, Prod.mk.injEq] at h
      obtain ⟨hw, rfl⟩ := h
      have hnew := ownersWallet_inserted o.books r.tenantId r.managerId (PyText.strip "manager")
        (textOr "" cfg.defaultCurrency) event
      have hmem := List.mem_of_mem_take (List.mem_of_find?_eq_some hnew)
      have hsome := Books.wallet_of_mem (Table.mem_select.mp (List.mem_reverse.mp hmem)).1
      rw [hsome] at hw
      cases hw
      exact ⟨hnew, rfl⟩

theorem wallet_again {cfg : Config} {tenantId managerId : ℤ} {b : Books} {w : Wallet}
    (h : ownersWallet b tenantId "manager" managerId = some w) :
    wallet cfg {} tenantId managerId b = (some w, b) := by
  simp only [wallet, walletOf, h]

theorem ownersWallet_spec {b : Books} {tenantId managerId : ℤ} {w : Wallet}
    (h : ownersWallet b tenantId "manager" managerId = some w) :
    b.wallet tenantId w.id = some w ∧ w.ownerId.getD 0 = managerId := by
  have howner := List.find?_some h
  have hmem := List.mem_of_mem_take (List.mem_of_find?_eq_some h)
  obtain ⟨hrow, hsel⟩ := Table.mem_select.mp (List.mem_reverse.mp hmem)
  simp only [Bool.and_eq_true, decide_eq_true_eq] at hsel howner
  refine ⟨?_, howner⟩
  rw [← hsel.1]
  exact Books.wallet_of_mem hrow

structure Funded (r : Request) (o : Office) (total : ℤ) (decision : SpendDecision)
    (books : Books) : Prop where
  deduct : decision.walletDeductMinor = min (balanceOf r o) total
  debt : decision.debtMinor = total - min (balanceOf r o) total
  wallet : ∃ w, ownersWallet books r.tenantId "manager" r.managerId = some w ∧
    w.balanceMinor = balanceOf r o

theorem planPackage_funded {cfg : Config} {r : Request} {o : Office} {total : ℤ}
    {decision : SpendDecision} {books : Books} (htotal : 0 < total)
    (h : planPackage cfg r total o.credit o.books = (.ok decision, books)) :
    Funded r o total decision books := by
  have hmax : max 0 total = total := max_eq_right htotal.le
  simp only [planPackage, walletBalanceMinor, hmax, if_neg (not_le.mpr htotal)] at h
  rcases hwallet : wallet cfg {} r.tenantId r.managerId o.books with ⟨found, b₁⟩
  cases found with
  | none =>
    rw [hwallet] at h
    cases h
  | some w =>
    obtain ⟨hown, hbalance⟩ := wallet_found hwallet
    simp only [hwallet] at h
    by_cases hok : (evaluate cfg r.managerId total w.balanceMinor
        (currentDebtMinor o.credit r.tenantId r.managerId)).ok = true
    · simp only [if_pos hok, Prod.mk.injEq, Except.ok.injEq] at h
      obtain ⟨rfl, rfl⟩ := h
      have hfund : ∀ d : ℤ, (evaluate cfg r.managerId total w.balanceMinor d).ok = true →
          (evaluate cfg r.managerId total w.balanceMinor d).walletDeductMinor =
              min w.balanceMinor total ∧
            (evaluate cfg r.managerId total w.balanceMinor d).debtMinor =
              total - min w.balanceMinor total := by
        intro d
        simp only [evaluate, hmax, if_neg (not_le.mpr htotal)]
        split_ifs <;> simp <;> omega
      rw [hbalance] at hfund hok
      obtain ⟨hdeduct, hdebt⟩ := hfund _ hok
      rw [hbalance]
      exact ⟨hdeduct, hdebt, w, hown, hbalance⟩
    · simp only [if_neg hok] at h
      -- the super override, in either mode; the other branches raise
      split_ifs at h <;> cases h <;> rw [hbalance] <;> exact ⟨rfl, rfl, w, hown, hbalance⟩

theorem planPackage_opened (cfg : Config) (r : Request) (total : ℤ) (credit : CreditLedger)
    (b : Books) : Opened b (planPackage cfg r total credit b).2 := by
  have hopened := wallet_opened cfg r.tenantId r.managerId b
  simp only [planPackage, walletBalanceMinor]
  rcases hwallet : wallet cfg {} r.tenantId r.managerId b with ⟨found, b₁⟩
  rw [hwallet] at hopened
  cases found <;> simp only <;> split_ifs <;> first | exact .rfl b | exact hopened

theorem gate_opened (cfg : Config) (r : Request) (o : Office) :
    ∃ books, (gate cfg r o).2 = { o with books } ∧ Opened o.books books := by
  unfold gate
  cases r.package with
  | none => exact ⟨o.books, rfl, .rfl _⟩
  | some p =>
    simp only
    split_ifs
    · exact ⟨o.books, rfl, .rfl _⟩
    · exact ⟨o.books, rfl, .rfl _⟩
    · have hopened := planPackage_opened cfg r (totalWholesale r p) o.credit o.books
      rcases hplan : planPackage cfg r (totalWholesale r p) o.credit o.books with ⟨result, books⟩
      rw [hplan] at hopened
      cases result <;> exact ⟨books, rfl, hopened⟩

theorem gate_accepted {cfg : Config} {r : Request} {o : Office} {p : Package}
    {decision : SpendDecision} (h : (gate cfg r o).1 = .ok (p, decision)) :
    r.package = some p ∧ 0 < r.count ∧ (0 < totalWholesale r p →
      Funded r o (totalWholesale r p) decision (gate cfg r o).2.books) := by
  unfold gate at h ⊢
  cases hp : r.package with
  | none =>
    rw [hp] at h
    cases h
  | some q =>
    simp only [hp] at h ⊢
    split_ifs at h ⊢ with hcount hallowed
    rcases hplan : planPackage cfg r (totalWholesale r q) o.credit o.books with ⟨result, books⟩
    rw [hplan] at h
    cases result with
    | error e => cases h
    | ok found =>
      cases h
      exact ⟨rfl, not_le.mp hcount, fun htotal => planPackage_funded htotal hplan⟩

theorem Untouched.of_opened {o : Office} {books : Books} (h : Opened o.books books) :
    Untouched o { o with books } :=
  ⟨rfl, rfl, h.movements, h.wallets, rfl, h.ledger, rfl, rfl⟩

section
variable {α : Type} {cfg : Config} {r : Request} {p : Package} {decision : SpendDecision}
  {s : Step} {o o' o₁ : Office} {batchId : ℕ}

theorem orRaise_ok {next : Except PricingError α × Office} {a : α}
    (h : r.orRaise s o next = (.ok a, o')) : r.raising ≠ some s ∧ next = (.ok a, o') := by
  unfold Request.orRaise at h
  split_ifs at h with hs
  · cases h
  · exact ⟨hs, h⟩

theorem orRaise_of_ne (h : r.raising ≠ some s) (next : Except PricingError α × Office) :
    r.orRaise s o next = next := if_neg h

theorem orRaise_batches {next : Except PricingError α × Office}
    (h : next.2.batches = o.batches) : (r.orRaise s o next).2.batches = o.batches := by
  unfold Request.orRaise
  split_ifs
  · rfl
  · exact h

theorem bookBatch_batches (snapshotId walletId : ℕ) (transactionId : Option ℕ) :
    (bookBatch r p batchId snapshotId walletId transactionId o).2.batches = o.batches := by
  unfold bookBatch
  refine orRaise_batches ?_
  rcases perform ({} : Faults).sqlite (ledgerWriteEntry (minorToMoney (totalWholesale r p))
    (batchEntry r p batchId)) o.books with ⟨result, books⟩
  cases result with
  | error e => rfl
  | ok ledgerId =>
    exact orRaise_batches (orRaise_batches (orRaise_batches (orRaise_batches rfl)))

theorem commitDebt_batches (snapshotId walletId : ℕ) (transactionId : Option ℕ) :
    (commitDebt r p decision batchId snapshotId walletId transactionId o).2.batches =
      o.batches := by
  unfold commitDebt
  split_ifs
  · exact orRaise_batches (bookBatch_batches ..)
  · exact bookBatch_batches ..

theorem commitCharge_batches (snapshotId : ℕ) :
    (commitCharge cfg r p decision batchId snapshotId o).2.batches = o.batches := by
  unfold commitCharge
  refine orRaise_batches ?_
  rcases wallet cfg {} r.tenantId r.managerId o.books with ⟨found, books⟩
  cases found with
  | none => rfl
  | some w =>
    simp only
    split_ifs
    · refine orRaise_batches ?_
      rcases perform ({} : Faults).sqlite (changeBalance cfg.defaultCurrency
        (debitOfBatch r decision w.id batchId)) books with ⟨result, books⟩
      cases result with
      | error e => rfl
      | ok ids => exact commitDebt_batches ..
    · exact commitDebt_batches ..

theorem writeBatch_batches (hraise : r.raising ≠ some .batch) (hfree : codeTaken o r p = false) :
    (writeBatch cfg r p decision o).2.batches = (o.insertBatch r p).batches := by
  unfold writeBatch
  rw [orRaise_of_ne hraise, if_neg (by simp [hfree])]
  exact orRaise_batches (commitCharge_batches _)

theorem positiveMinor_minorToMoney_iff {value : ℤ} :
    (∃ minor, positiveMinor (minorToMoney value) = .ok minor) ↔
      0 < value ∧ value < 10 ^ Decimal.precision := by
  constructor
  · rintro ⟨minor, h⟩
    obtain rfl := positiveMinor_minorToMoney h
    have hpos := positiveMinor_pos h
    refine ⟨hpos, ?_⟩
    by_contra hbig
    have hsmall : ¬minor.natAbs < 10 ^ Decimal.precision := by
      zify
      rw [abs_of_pos hpos]
      simpa using hbig
    simp only [positiveMinor, moneyToMinor, minorToMoney, if_neg hsmall, Option.bind_none] at h
    cases h
  · rintro ⟨hpos, hsmall⟩
    have hnat : value.natAbs < 10 ^ Decimal.precision := by
      zify
      rw [abs_of_pos hpos]
      exact_mod_cast hsmall
    refine ⟨value, ?_⟩
    simp only [positiveMinor, moneyToMinor_minorToMoney hnat, if_neg (not_le.mpr hpos)]

structure Posted (r : Request) (p : Package) (batchId : ℕ) (o o' : Office) : Prop where
  batches : o'.batches = o.batches
  snapshots : o'.snapshots = o.snapshots
  movements : o'.books.transactions = o.books.transactions
  wallets : o'.books.wallets = o.books.wallets
  credit : o'.credit = o.credit
  ledger : ∃ entry, o'.books.ledger.rows = o.books.ledger.rows ++ [entry] ∧
    entry.entryType = "batch_creation" ∧ entry.referenceId = some (batchId : ℤ) ∧
    entry.amountMinor = totalWholesale r p
  revenue : ∃ v : RevenueRecord, o'.revenue.rows = o.revenue.rows ++ [v] ∧ v.sourceId = batchId ∧
    v.retailPriceMinor = totalRetail r p ∧ v.wholesaleCostMinor = totalWholesale r p
  cost : ∃ c : CostRecord, o'.costs.rows = o.costs.rows ++ [c] ∧ c.batchId = batchId ∧
    c.count = r.count ∧ c.totalWholesaleMinor = totalWholesale r p

def bookSteps : List Step := [.ledger, .revenue, .cost, .event, .result]

theorem bookBatch_ok {snapshotId walletId : ℕ} {transactionId : Option ℕ} {id : ℕ}
    (h : bookBatch r p batchId snapshotId walletId transactionId o = (.ok id, o')) :
    id = batchId ∧ (∀ s ∈ bookSteps, r.raising ≠ some s) ∧ 0 < totalWholesale r p ∧
      totalWholesale r p < 10 ^ Decimal.precision ∧ Posted r p batchId o o' := by
  unfold bookBatch at h
  obtain ⟨hledger, h⟩ := orRaise_ok h
  rcases perform_ledgerWriteEntry {} (minorToMoney (totalWholesale r p)) (batchEntry r p batchId)
    o.books with ⟨e, herror⟩ | ⟨amountMinor, event, hamount, hmade⟩
  · rw [herror] at h
    cases h
  · simp only [hmade] at h
    obtain ⟨hrevenue, h⟩ := orRaise_ok h
    obtain ⟨hcost, h⟩ := orRaise_ok h
    obtain ⟨hevent, h⟩ := orRaise_ok h
    obtain ⟨hresult, h⟩ := orRaise_ok h
    cases h
    obtain ⟨hpos, hsmall⟩ := positiveMinor_minorToMoney_iff.mp ⟨_, hamount⟩
    obtain rfl := positiveMinor_minorToMoney hamount
    refine ⟨rfl, ?_, hpos, hsmall, rfl, rfl, rfl, rfl, rfl, ⟨_, rfl, rfl, rfl, rfl⟩,
      ⟨_, rfl, rfl, rfl, rfl⟩, ⟨_, rfl, rfl, rfl, rfl⟩⟩
    simpa [bookSteps] using ⟨hledger, hrevenue, hcost, hevent, hresult⟩

theorem bookBatch_returns (snapshotId walletId : ℕ) (transactionId : Option ℕ)
    (hsteps : ∀ s ∈ bookSteps, r.raising ≠ some s) (hpos : 0 < totalWholesale r p)
    (hsmall : totalWholesale r p < 10 ^ Decimal.precision) :
    ∃ o', bookBatch r p batchId snapshotId walletId transactionId o = (.ok batchId, o') := by
  obtain ⟨amountMinor, hamount⟩ := positiveMinor_minorToMoney_iff.mpr ⟨hpos, hsmall⟩
  have hmade : perform ({} : Faults).sqlite
      (ledgerWriteEntry (minorToMoney (totalWholesale r p)) (batchEntry r p batchId)) o.books =
      (.ok o.books.ledger.next,
        (o.books.insertEntry { batchEntry r p batchId with amountMinor }).recordEvent
          ⟨"ledger.batch_creation", "manager", some r.managerId, none,
            some o.books.ledger.next⟩) := by
    unfold ledgerWriteEntry
    rw [perform_transaction]
    refine block_of_eval rfl ?_ rfl
    simp only [writeEntry, hamount, eval, Faults.sqlite, Books.apply]
    rfl
  unfold bookBatch
  rw [orRaise_of_ne (hsteps .ledger (by decide)), hmade]
  simp only
  rw [orRaise_of_ne (hsteps .revenue (by decide)), orRaise_of_ne (hsteps .cost (by decide)),
    orRaise_of_ne (hsteps .event (by decide)), orRaise_of_ne (hsteps .result (by decide))]
  exact ⟨_, rfl⟩

def owed (r : Request) (decision : SpendDecision) (credit : CreditLedger) : CreditLedger :=
  if 0 < decision.debtMinor then record credit r.tenantId r.managerId .debt decision.debtMinor
  else credit

theorem commitDebt_ok {snapshotId walletId : ℕ} {transactionId : Option ℕ} {id : ℕ}
    (h : commitDebt r p decision batchId snapshotId walletId transactionId o = (.ok id, o')) :
    id = batchId ∧ (∀ s ∈ bookSteps, r.raising ≠ some s) ∧
      (0 < decision.debtMinor → r.raising ≠ some .debt) ∧ 0 < totalWholesale r p ∧
      totalWholesale r p < 10 ^ Decimal.precision ∧
      Posted r p batchId { o with credit := owed r decision o.credit } o' := by
  unfold commitDebt at h
  by_cases hdebt : 0 < decision.debtMinor
  · rw [if_pos hdebt] at h
    obtain ⟨hraise, h⟩ := orRaise_ok h
    obtain ⟨hid, hsteps, hpos, hsmall, hposted⟩ := bookBatch_ok h
    refine ⟨hid, hsteps, fun _ => hraise, hpos, hsmall, ?_⟩
    rw [owed, if_pos hdebt]
    exact hposted
  · rw [if_neg hdebt] at h
    obtain ⟨hid, hsteps, hpos, hsmall, hposted⟩ := bookBatch_ok h
    refine ⟨hid, hsteps, fun hd => absurd hd hdebt, hpos, hsmall, ?_⟩
    rw [owed, if_neg hdebt]
    exact hposted

theorem commitDebt_returns (snapshotId walletId : ℕ) (transactionId : Option ℕ)
    (hsteps : ∀ s ∈ bookSteps, r.raising ≠ some s)
    (hdebt : 0 < decision.debtMinor → r.raising ≠ some .debt) (hpos : 0 < totalWholesale r p)
    (hsmall : totalWholesale r p < 10 ^ Decimal.precision) :
    ∃ o', commitDebt r p decision batchId snapshotId walletId transactionId o =
      (.ok batchId, o') := by
  unfold commitDebt
  split_ifs with hd
  · rw [orRaise_of_ne (hdebt hd)]
    exact bookBatch_returns snapshotId walletId transactionId hsteps hpos hsmall
  · exact bookBatch_returns snapshotId walletId transactionId hsteps hpos hsmall

structure Charged (r : Request) (decision : SpendDecision) (batchId : ℕ) (o o' : Office) :
    Prop where
  rows : ∃ deductions corrections,
    o'.books.transactions.rows = o.books.transactions.rows ++ deductions ∧
    (∀ t ∈ deductions, Deducted r batchId o' t) ∧
    (deductions.map (·.amountMinor)).sum = max 0 decision.walletDeductMinor ∧
    o'.books.ledger.rows = o.books.ledger.rows ++ corrections ∧
    ∀ e ∈ corrections, e.entryType = "correction" ∧ e.referenceType = "card_batch_cost"
  rest : ∃ books, o' = { o with books }

theorem commitCharge_ok {snapshotId id : ℕ} {w : Wallet}
    (hown : ownersWallet o.books r.tenantId "manager" r.managerId = some w)
    (h : commitCharge cfg r p decision batchId snapshotId o = (.ok id, o')) :
    r.raising ≠ some .wallet ∧ (0 < decision.walletDeductMinor → r.raising ≠ some .debit) ∧
      ∃ o₁ walletId transactionId, Charged r decision batchId o o₁ ∧
        commitDebt r p decision batchId snapshotId walletId transactionId o₁ = (.ok id, o') := by
  unfold commitCharge at h
  obtain ⟨hwallet, h⟩ := orRaise_ok h
  rw [wallet_again hown] at h
  refine ⟨hwallet, ?_⟩
  by_cases hdeduct : 0 < decision.walletDeductMinor
  · simp only [if_pos hdeduct] at h
    obtain ⟨hdebit, h⟩ := orRaise_ok h
    refine ⟨fun _ => hdebit, ?_⟩
    rcases perform_changeBalance {} cfg.defaultCurrency (debitOfBatch r decision w.id batchId)
      o.books with ⟨e, herror⟩ | ⟨amountMinor, moved, hamount, hfound, hafter, hmade⟩
    · rw [herror] at h
      cases h
    · simp only [hmade] at h
      obtain ⟨hrow, howner⟩ := ownersWallet_spec hown
      obtain rfl : w = moved := Option.some.inj (hrow.symm.trans hfound)
      have hmoney : amountMinor = decision.walletDeductMinor := positiveMinor_minorToMoney hamount
      refine ⟨_, _, _, ⟨⟨[_], [_], rfl, ?_, ?_, rfl, ?_⟩, _, rfl⟩, h⟩
      · intro t ht
        rw [List.mem_singleton.mp ht]
        have hmem := (Books.wallet_found hrow).1
        have hmatch : ofWallet r.tenantId w.id w = true := by
          simp [ofWallet, (Books.wallet_found hrow).2.1]
        refine ⟨rfl, rfl, { w with balanceMinor := w.balanceMinor + -amountMinor }, ?_, rfl,
          howner, (Int.sub_eq_add_neg ..).symm⟩
        refine List.mem_map.mpr ⟨w, hmem, ?_⟩
        exact if_pos hmatch
      · rw [max_eq_right hdeduct.le, ← hmoney]
        exact Int.add_zero _
      · intro e he
        rw [List.mem_singleton.mp he]
        exact ⟨rfl, rfl⟩
  · simp only [if_neg hdeduct] at h
    refine ⟨fun hd => absurd hd hdeduct, o, w.id, none, ⟨⟨[], [], ?_, ?_, ?_, ?_, ?_⟩, _, rfl⟩, h⟩
    · exact (List.append_nil _).symm
    · exact fun t ht => by cases ht
    · exact (max_eq_left (not_lt.mp hdeduct)).symm
    · exact (List.append_nil _).symm
    · exact fun e he => by cases he

theorem commitCharge_returns (snapshotId : ℕ) {w : Wallet}
    (hown : ownersWallet o.books r.tenantId "manager" r.managerId = some w)
    (hwallet : r.raising ≠ some .wallet)
    (hdebit : 0 < decision.walletDeductMinor → r.raising ≠ some .debit)
    (hcovered : decision.walletDeductMinor ≤ w.balanceMinor)
    (hdeduct : decision.walletDeductMinor < 10 ^ Decimal.precision)
    (hsteps : ∀ s ∈ bookSteps, r.raising ≠ some s)
    (hdebt : 0 < decision.debtMinor → r.raising ≠ some .debt) (hpos : 0 < totalWholesale r p)
    (hsmall : totalWholesale r p < 10 ^ Decimal.precision) :
    ∃ o', commitCharge cfg r p decision batchId snapshotId o = (.ok batchId, o') := by
  unfold commitCharge
  rw [orRaise_of_ne hwallet, wallet_again hown]
  simp only
  split_ifs with hd
  · rw [orRaise_of_ne (hdebit hd)]
    obtain ⟨amountMinor, hamount⟩ := positiveMinor_minorToMoney_iff.mpr ⟨hd, hdeduct⟩
    have hafter : 0 ≤ w.balanceMinor + TransactionType.debit.signed amountMinor := by
      obtain rfl := positiveMinor_minorToMoney hamount
      simp only [TransactionType.signed]
      omega
    rw [perform_changeBalance_ok cfg.defaultCurrency (debitOfBatch r decision w.id batchId)
      hamount (ownersWallet_spec hown).1 hafter]
    exact commitDebt_returns snapshotId _ _ hsteps hdebt hpos hsmall
  · exact commitDebt_returns snapshotId _ _ hsteps hdebt hpos hsmall

theorem commitCharge_pos {snapshotId id : ℕ}
    (h : commitCharge cfg r p decision batchId snapshotId o = (.ok id, o')) :
    0 < totalWholesale r p := by
  unfold commitCharge at h
  obtain ⟨-, h⟩ := orRaise_ok h
  rcases hwallet : wallet cfg {} r.tenantId r.managerId o.books with ⟨found, books⟩
  rw [hwallet] at h
  cases found with
  | none => cases h
  | some w =>
    simp only at h
    split_ifs at h with hdeduct
    · obtain ⟨-, h⟩ := orRaise_ok h
      rcases hmade : perform ({} : Faults).sqlite (changeBalance cfg.defaultCurrency
        (debitOfBatch r decision w.id batchId)) books with ⟨result, books'⟩
      rw [hmade] at h
      cases result with
      | error e => cases h
      | ok ids => exact (commitDebt_ok h).2.2.2.1
    · exact (commitDebt_ok h).2.2.2.1

theorem total_pos_iff (hcount : 0 < r.count) :
    0 < totalWholesale r p ↔ 0 < p.wholesalePriceMinor := by
  rw [totalWholesale, mul_pos_iff_of_pos_right hcount]
  exact Int.natCast_pos

theorem Funded.runs_iff {books : Books} (h : Funded r o (totalWholesale r p) decision books)
    (hpos : 0 < totalWholesale r p) :
    (∀ s, r.raising = some s → ¬s.runs (balanceOf r o) (totalWholesale r p)) ↔
      r.raising ≠ some .batch ∧ r.raising ≠ some .snapshot ∧ r.raising ≠ some .wallet ∧
        (0 < decision.walletDeductMinor → r.raising ≠ some .debit) ∧
        (0 < decision.debtMinor → r.raising ≠ some .debt) ∧
        ∀ s ∈ bookSteps, r.raising ≠ some s := by
  have hdeduct : 0 < decision.walletDeductMinor ↔ 0 < balanceOf r o := by
    rw [h.deduct]
    omega
  have hdebt : 0 < decision.debtMinor ↔ balanceOf r o < totalWholesale r p := by
    rw [h.debt]
    omega
  rw [hdeduct, hdebt]
  cases r.raising with
  | none => simp
  | some s => cases s <;> simp [Step.runs, bookSteps]

theorem writeBatch_returns_iff (hcount : 0 < r.count)
    (hfunded : 0 < totalWholesale r p → Funded r o (totalWholesale r p) decision o₁.books) :
    (∃ id o', writeBatch cfg r p decision o₁ = (.ok id, o')) ↔
      codeTaken o₁ r p = false ∧
        (∀ s, r.raising = some s → ¬s.runs (balanceOf r o) (totalWholesale r p)) ∧
        0 < p.wholesalePriceMinor ∧ totalWholesale r p < 10 ^ Decimal.precision := by
  constructor
  · rintro ⟨id, o', h⟩
    unfold writeBatch at h
    obtain ⟨hbatch, h⟩ := orRaise_ok h
    split_ifs at h with htaken
    · cases h
    obtain ⟨hsnapshot, h⟩ := orRaise_ok h
    have hpos := commitCharge_pos h
    have hfund := hfunded hpos
    obtain ⟨w, hown, -⟩ := hfund.wallet
    obtain ⟨hwallet, hdebit, o₂, walletId, transactionId, -, h⟩ :=
      commitCharge_ok (o := (o₁.insertBatch r p).insertSnapshot r p o₁.batches.next) hown h
    obtain ⟨-, hsteps, hdebt, -, hsmall, -⟩ := commitDebt_ok h
    exact ⟨by simpa using htaken, (hfund.runs_iff hpos).mpr
      ⟨hbatch, hsnapshot, hwallet, hdebit, hdebt, hsteps⟩, (total_pos_iff hcount).mp hpos, hsmall⟩
  · rintro ⟨hfree, hruns, hprice, hsmall⟩
    have hpos := (total_pos_iff (p := p) hcount).mpr hprice
    have hfund := hfunded hpos
    obtain ⟨hbatch, hsnapshot, hwallet, hdebit, hdebt, hsteps⟩ := (hfund.runs_iff hpos).mp hruns
    obtain ⟨w, hown, hbalance⟩ := hfund.wallet
    unfold writeBatch
    rw [orRaise_of_ne hbatch, if_neg (by simp [hfree])]
    simp only
    rw [orRaise_of_ne hsnapshot]
    have hcovered : decision.walletDeductMinor ≤ w.balanceMinor := by
      rw [hfund.deduct, hbalance]
      exact min_le_left _ _
    have hdeduct : decision.walletDeductMinor < 10 ^ Decimal.precision := by
      rw [hfund.deduct]
      exact (min_le_right _ _).trans_lt hsmall
    exact ⟨_, commitCharge_returns (o := (o₁.insertBatch r p).insertSnapshot r p o₁.batches.next)
      o₁.snapshots.next hown hwallet hdebit hcovered hdeduct hsteps hdebt hpos hsmall⟩

theorem writeBatch_booked {id : ℕ} {books : Books} (hopened : Opened o.books books)
    (hfunded : 0 < totalWholesale r p → Funded r o (totalWholesale r p) decision books)
    (h : writeBatch cfg r p decision { o with books } = (.ok id, o')) :
    Booked r p o o' id (max 0 decision.walletDeductMinor + max 0 decision.debtMinor) := by
  unfold writeBatch at h
  obtain ⟨-, h⟩ := orRaise_ok h
  split_ifs at h with htaken
  · cases h
  obtain ⟨-, h⟩ := orRaise_ok h
  obtain ⟨w, hown, -⟩ := (hfunded (commitCharge_pos h)).wallet
  obtain ⟨-, -, o₂, walletId, transactionId, ⟨⟨deductions, corrections, hrows, hdeducted, hsum,
    hcorrections, hcorrection⟩, books₂, rfl⟩, h⟩ :=
    commitCharge_ok
      (o := ({ o with books }.insertBatch r p).insertSnapshot r p o.batches.next) hown h
  obtain ⟨rfl, -, -, -, -, hposted⟩ := commitDebt_ok h
  obtain ⟨entry, hledger, hentry⟩ := hposted.ledger
  refine ⟨⟨_, congrArg Table.rows hposted.batches, rfl, rfl, rfl⟩,
    ⟨_, congrArg Table.rows hposted.snapshots, rfl, rfl, rfl⟩, ?_,
    ⟨corrections, entry, ?_, hcorrection, hentry⟩, hposted.revenue, hposted.cost⟩
  · have hmoved : o'.books.transactions.rows = o.books.transactions.rows ++ deductions := by
      rw [hposted.movements, ← hopened.movements]
      exact hrows
    have hdeducted' : ∀ t ∈ deductions, Deducted r o.batches.next o' t := by
      intro t ht
      obtain ⟨hkind, href, left⟩ := hdeducted t ht
      exact ⟨hkind, href, by rw [hposted.wallets]; exact left⟩
    have hcredit : o'.credit = owed r decision o.credit := hposted.credit
    by_cases hdebt : 0 < decision.debtMinor
    · rw [owed, if_pos hdebt] at hcredit
      refine ⟨deductions, [_], hmoved, congrArg Table.rows hcredit, hdeducted', ?_, ?_⟩
      · intro e he
        rw [List.mem_singleton.mp he]
        exact ⟨rfl, rfl, rfl⟩
      · rw [hsum, max_eq_right hdebt.le]
        exact congrArg _ (Int.add_zero _)
    · rw [owed, if_neg hdebt] at hcredit
      refine ⟨deductions, [], hmoved, ?_, hdeducted', fun e he => (by cases he), ?_⟩
      · rw [hcredit, List.append_nil]
      · rw [hsum, max_eq_left (not_lt.mp hdebt)]
        rfl
  · rw [hledger, ← hopened.ledger]
    exact congrArg (· ++ [entry]) hcorrections

theorem Booked.charge_unique {charge charge' : ℤ} (h : Booked r p o o' batchId charge)
    (h' : Booked r p o o' batchId charge') : charge = charge' := by
  obtain ⟨deductions, debts, hd, hc, -, -, rfl⟩ := h.charged
  obtain ⟨deductions', debts', hd', hc', -, -, rfl⟩ := h'.charged
  rw [List.append_cancel_left (hd.symm.trans hd'), List.append_cancel_left (hc.symm.trans hc')]

theorem Funded.charge_iff {books : Books} {total : ℤ} (h : Funded r o total decision books)
    (hpos : 0 < total) :
    max 0 decision.walletDeductMinor + max 0 decision.debtMinor = total ↔ 0 ≤ balanceOf r o := by
  rw [h.deduct, h.debt]
  omega

theorem writeBatch_refused (h : r.raising = some .batch ∨ codeTaken o r p = true) :
    ∃ e, writeBatch cfg r p decision o = (.error e, o) := by
  unfold writeBatch Request.orRaise
  by_cases hbatch : r.raising = some .batch
  · exact ⟨_, if_pos hbatch⟩
  · rw [if_neg hbatch, if_pos (h.resolve_left hbatch)]
    exact ⟨_, rfl⟩

theorem accepted_iff {books : Books}
    (hgate : gate cfg r o = (.ok (p, decision), { o with books }))
    (hopened : Opened o.books books) : BatchKept cfg r o ↔ GoesThrough cfg r o := by
  obtain ⟨hpackage, hcount, hfunded⟩ := gate_accepted (congrArg Prod.fst hgate)
  have hcall : createCostedBatch cfg r o = writeBatch cfg r p decision { o with books } := by
    simp only [createCostedBatch, hgate]
  rw [hgate] at hfunded
  have hreturns : (∃ id o', writeBatch cfg r p decision { o with books } = (.ok id, o')) ↔ _ :=
    writeBatch_returns_iff hcount hfunded
  simp only [BatchKept, GoesThrough, hcall, hgate]
  constructor
  · rintro ⟨huntouched, hpaid, hreturned⟩ p' decision' hsame
    cases hsame
    by_cases hearly : r.raising ≠ none ∧ (r.raising = some .batch ∨ codeTaken o r p = true)
    · exact .inl hearly
    right
    have hok : ∃ id o', writeBatch cfg r p decision { o with books } = (.ok id, o') := by
      rcases hout : writeBatch cfg r p decision { o with books } with ⟨result, o'⟩
      cases result with
      | ok id => exact ⟨id, o', rfl⟩
      | error e =>
        exfalso
        by_cases hnone : r.raising = none
        · obtain ⟨id, hid⟩ := hreturned hnone _ rfl
          rw [hout] at hid
          cases hid
        · rw [not_and, not_or, Bool.not_eq_true] at hearly
          obtain ⟨hbatch, hfree⟩ := hearly hnone
          have hkept := (huntouched e (by rw [hout])).batches
          have hwritten : (writeBatch cfg r p decision { o with books }).2.batches = _ :=
            writeBatch_batches hbatch hfree
          rw [hkept] at hwritten
          -- the batch that was written would not be there
          have hlength := congrArg (fun t : Table Batch Batch.id => t.rows.length) hwritten
          simp [Office.insertBatch] at hlength
    obtain ⟨hfree, hruns, hprice, hsmall⟩ := hreturns.mp hok
    refine ⟨hfree, hruns, hprice, hsmall, ?_⟩
    obtain ⟨id, o', hout⟩ := hok
    obtain ⟨q, hq, hbooked⟩ := hpaid id (by rw [hout])
    obtain rfl : p = q := Option.some.inj (hpackage.symm.trans hq)
    rw [hout] at hbooked
    have hpos := (total_pos_iff (p := p) hcount).mpr hprice
    exact ((hfunded hpos).charge_iff hpos).mp
      ((writeBatch_booked hopened hfunded hout).charge_unique hbooked)
  · intro hthrough
    rcases hthrough p decision rfl with ⟨hraises, hearly⟩ | ⟨hfree, hruns, hprice, hsmall, hbalance⟩
    · obtain ⟨e, hout⟩ : ∃ e, writeBatch cfg r p decision { o with books } = (.error e, _) :=
        writeBatch_refused hearly
      rw [hout]
      exact ⟨fun _ _ => .of_opened hopened, fun id hid => (by cases hid),
        fun hnone => absurd hnone hraises⟩
    · obtain ⟨id, o', hout⟩ := hreturns.mpr ⟨hfree, hruns, hprice, hsmall⟩
      have hpos := (total_pos_iff (p := p) hcount).mpr hprice
      have hbooked := writeBatch_booked hopened hfunded hout
      rw [((hfunded hpos).charge_iff hpos).mpr hbalance] at hbooked
      rw [hout]
      refine ⟨fun e he => (by cases he), fun batchId hid => ?_, fun _ _ _ => ⟨id, rfl⟩⟩
      cases hid
      exact ⟨p, hpackage, hbooked⟩

end

/-- For every price, count, wallet and step that raises: the batch is made and charged whole, or
not at all, exactly when what follows the gate raises at the batch or not at all. -/
theorem batchKept_iff (cfg : Config) (r : Request) (o : Office) :
    BatchKept cfg r o ↔ GoesThrough cfg r o := by
  obtain ⟨books, hbooks, hopened⟩ := gate_opened cfg r o
  rcases hgate : gate cfg r o with ⟨result, o₁⟩
  obtain rfl : o₁ = { o with books } := by rw [← hbooks, hgate]
  cases result with
  | error e =>
    refine ⟨fun _ p decision h => (by rw [hgate] at h; cases h), fun _ => ?_⟩
    simp only [BatchKept, createCostedBatch, hgate]
    exact ⟨fun _ _ => .of_opened hopened, fun id hid => (by cases hid),
      fun _ accepted h => by cases h⟩
  | ok accepted => exact accepted_iff hgate hopened

/-- A package that costs the manager nothing, which `set_package_pricing` accepts. -/
def freePackage : Package :=
  { id := 5, name := "gift", planId := 3, currency := "ILS", priceMinor := 500,
    retailPriceMinor := 500, wholesalePriceMinor := 0 }

def freeRequest : Request :=
  { package := some freePackage, count := 10, managerId := 7, now := "2026-01-05T10:00:00.123456Z" }

def emptyOffice : Office := ⟨.empty, .empty, .empty, .empty, .empty, .empty⟩

def shop : Config :=
  { isPrimaryOwner := fun _ => false, getAdmin := fun _ => none, defaultCurrency := "ILS" }

/-- The gate lets a cost of zero pass and the ledger refuses it: the batch, its snapshot and the
manager's wallet are there, and the call has raised. -/
theorem free_batch_left_behind :
    (gate shop freeRequest emptyOffice).1 = .ok (freePackage, { ok := true, mode := .wallet }) ∧
      (createCostedBatch shop freeRequest emptyOffice).1 =
        .error (.service (.validation "amount must be positive")) ∧
      (createCostedBatch shop freeRequest emptyOffice).2.batches.rows.map (·.count) = [10] ∧
      ¬BatchKept shop freeRequest emptyOffice := by
  have hgate : gate shop freeRequest emptyOffice =
      (.ok (freePackage, { ok := true, mode := .wallet }), emptyOffice) := rfl
  have hcall : createCostedBatch shop freeRequest emptyOffice =
      writeBatch shop freeRequest freePackage { ok := true, mode := .wallet } emptyOffice := by
    simp only [createCostedBatch, hgate]
  refine ⟨congrArg Prod.fst hgate, by decide +kernel, ?_, ?_⟩
  · rw [hcall, writeBatch_batches (by decide) rfl]
    rfl
  rw [accepted_iff hgate (.rfl _)]
  intro h
  rcases h _ _ (congrArg Prod.fst hgate) with ⟨hraises, -⟩ | ⟨-, -, hprice, -⟩
  · exact hraises rfl
  · exact absurd hprice (by decide)

end RadiusModule.CostedBatches
