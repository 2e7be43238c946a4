import RadiusModule.Core.Connection
import RadiusModule.Library.Decimal
import RadiusModule.Library.Json
import RadiusModule.Library.PyText
import RadiusModule.Library.Table

/-!
# Wallets

`WalletService` keeps a wallet's balance, a row for every movement of it and a
ledger entry for every row. Each operation is one block of the connection; its
statements are the SQL of the source, any of which may raise.
-/

namespace RadiusModule.BusinessOs
open Library Connection PyText

inductive ServiceError
  | validation (text : String)
  | database (text : String)
deriving DecidableEq

/-- `Decimal(str(amount))`, or `none` where it raises. -/
abbrev Amount := Option Decimal

def moneyToMinor (amount : Amount) : Except ServiceError ℤ :=
  match amount.bind (Decimal.quantize 2) with
  | some (.finite negative cents _) => .ok (if negative then -cents else cents)
  | _ => .error (.validation "amount must be numeric")

/-- The quotient by 100 has more digits than the precision from `10 ^ 28` on, and raises. -/
def minorToMoney (value : ℤ) : Amount :=
  if value.natAbs < 10 ^ Decimal.precision then some (.finite (value < 0) value.natAbs (-2))
  else none

def positiveMinor (amount : Amount) : Except ServiceError ℤ :=
  match moneyToMinor amount with
  | .error e => .error e
  | .ok minor =>
    if minor ≤ 0 then .error (.validation "amount must be positive") else .ok minor

theorem moneyToMinor_minorToMoney {value : ℤ} (h : value.natAbs < 10 ^ Decimal.precision) :
    moneyToMinor (minorToMoney value) = .ok value := by
  have hcents : Decimal.quantize 2 (.finite (value < 0) value.natAbs (-2)) =
      some (.finite (value < 0) value.natAbs (-2)) := Decimal.quantize_self h
  simp only [moneyToMinor, minorToMoney, if_pos h, Option.bind_some, hcents]
  by_cases hneg : value < 0
  · simp only [hneg, decide_true, if_true]
    congr 1
    omega
  · simp only [hneg, decide_false, Bool.false_eq_true, if_false]
    congr 1
    omega

theorem positiveMinor_pos {amount : Amount} {minor : ℤ} (h : positiveMinor amount = .ok minor) :
    0 < minor := by
  unfold positiveMinor at h
  cases hm : moneyToMinor amount with
  | error e =>
    rw [hm] at h
    cases h
  | ok n =>
    simp only [hm] at h
    split_ifs at h with hn
    cases h
    exact not_le.mp hn

theorem positiveMinor_minorToMoney {value minor : ℤ}
    (h : positiveMinor (minorToMoney value) = .ok minor) : minor = value := by
  by_cases hsmall : value.natAbs < 10 ^ Decimal.precision
  · simp only [positiveMinor, moneyToMinor_minorToMoney hsmall] at h
    split_ifs at h
    cases h
    rfl
  · simp only [positiveMinor, moneyToMinor, minorToMoney, if_neg hsmall, Option.bind_none] at h
    cases h

structure Wallet where
  id : ℕ
  tenantId : ℤ := 1
  ownerType : String
  ownerId : Option ℤ
  balanceMinor : ℤ := 0
  currency : String

inductive TransactionType
  | credit
  | debit
deriving DecidableEq

structure WalletTransaction where
  id : ℕ
  tenantId : ℤ := 1
  walletId : ℕ
  transactionType : TransactionType
  amountMinor : ℤ
  beforeBalanceMinor : ℤ
  afterBalanceMinor : ℤ
  currency : String
  referenceType : String
  referenceId : Option ℤ
  metadata : List (String × Json)

/-- The texts `cash` and `wallet:<id>`, and any other. -/
inductive Account
  | cash
  | wallet (id : ℕ)
  | other (name : String)
deriving DecidableEq

structure LedgerEntry where
  id : ℕ
  tenantId : ℤ := 1
  entryType : String
  debitAccount : Account
  creditAccount : Account
  amountMinor : ℤ
  currency : String
  targetType : String
  targetId : Option ℤ
  referenceType : String
  referenceId : Option ℤ
  metadata : List (String × Json)

structure BusinessEvent where
  eventKey : String
  targetType : String
  targetId : Option ℤ
  walletId : Option ℕ
  ledgerEntryId : Option ℕ

structure Books where
  wallets : Table Wallet Wallet.id
  transactions : Table WalletTransaction WalletTransaction.id
  ledger : Table LedgerEntry LedgerEntry.id
  events : List BusinessEvent

def Books.empty : Books := ⟨.empty, .empty, .empty, []⟩

/-- `WHERE tenant_id=? AND id=?` -/
def ofWallet (tenantId : ℤ) (walletId : ℕ) (w : Wallet) : Bool :=
  w.tenantId = tenantId && w.id = walletId

inductive Statement
  | select
  | insertWallet (tenantId : ℤ) (ownerType : String) (ownerId : Option ℤ) (currency : String)
  | updateBalance (tenantId : ℤ) (walletId : ℕ) (after : ℤ)
  | insertTransaction (row : WalletTransaction)
  | insertEntry (row : LedgerEntry)
  | recordEvent (event : BusinessEvent)

namespace Books
variable (b : Books)

def updateBalance (tenantId : ℤ) (walletId : ℕ) (after : ℤ) : Books :=
  { b with
    wallets := b.wallets.update (ofWallet tenantId walletId)
      (fun w => { w with balanceMinor := after }) fun _ => rfl }

def insertTransaction (row : WalletTransaction) : Books :=
  { b with transactions := b.transactions.insert (fun id => { row with id }) fun _ => rfl }

def insertEntry (row : LedgerEntry) : Books :=
  { b with ledger := b.ledger.insert (fun id => { row with id }) fun _ => rfl }

def recordEvent (event : BusinessEvent) : Books :=
  { b with events := b.events ++ [event] }

def insertWallet (tenantId : ℤ) (ownerType : String) (ownerId : Option ℤ) (currency : String) :
    Books :=
  { b with
    wallets := b.wallets.insert
      (fun id => { id, tenantId, ownerType, ownerId, currency }) fun _ => rfl }

def ownerTaken (tenantId : ℤ) (ownerType : String) (ownerId : Option ℤ) (currency : String) :
    Bool :=
  b.wallets.rows.any fun w => w.tenantId = tenantId && w.ownerType = ownerType &&
    w.ownerId = ownerId && ownerId.isSome && w.currency = currency

def apply : Statement → Except ServiceError Books
  | .select => .ok b
  | .insertWallet tenantId ownerType ownerId currency =>
    if b.ownerTaken tenantId ownerType ownerId currency then
      .error (.database "UNIQUE constraint failed")
    else .ok (b.insertWallet tenantId ownerType ownerId currency)
  | .updateBalance tenantId walletId after => .ok (b.updateBalance tenantId walletId after)
  | .insertTransaction row => .ok (b.insertTransaction row)
  | .insertEntry row => .ok (b.insertEntry row)
  | .recordEvent event => .ok (b.recordEvent event)

def wallet (tenantId : ℤ) (walletId : ℕ) : Option Wallet :=
  b.wallets.rows.find? (ofWallet tenantId walletId)

end Books

/-- What may go wrong besides the constraints: a statement, the BEGIN or the COMMIT raises. -/
structure Faults where
  statement : Statement → Books → Option ServiceError := fun _ _ => none
  atBegin : Books → Option ServiceError := fun _ => none
  atCommit : Books → Option ServiceError := fun _ => none

def Faults.sqlite (faults : Faults) : Sqlite Books Statement ServiceError where
  write w b :=
    match faults.statement w b with
    | some e => .error e
    | none => b.apply w
  beginRaises := faults.atBegin
  commitRaises := faults.atCommit

abbrev WalletProg (α : Type) := Prog Books Statement Empty ServiceError α

/-- `text or default` -/
def textOr (text orElse : String) : String := if text = "" then orElse else text

def ownerTypes : List String := ["company", "manager", "distributor", "subscriber", "card_user"]

def createWallet (defaultCurrency : String) (tenantId : ℤ) (ownerType : String)
    (ownerId : Option ℤ) (currency : String) : WalletProg ℕ :=
  let currency := textOr currency defaultCurrency
  let owner := strip ownerType
  if owner ∉ ownerTypes then .raise (.validation "unknown wallet owner_type")
  else if owner ≠ "company" ∧ ownerId = none then
    .raise (.validation "owner_id is required for this wallet owner_type")
  else
    .transaction (.statement (.insertWallet tenantId owner ownerId currency) fun b =>
      let walletId := b.wallets.next - 1
      .statement (.recordEvent ⟨"wallet.created", owner, ownerId, some walletId, none⟩) fun _ =>
        .ret walletId) .ret

structure Movement where
  tenantId : ℤ := 1
  walletId : ℕ
  amount : Amount
  transactionType : TransactionType
  referenceType : String := ""
  referenceId : Option ℤ := none
  metadata : List (String × Json) := []

/-- `_write_entry` with `next` for the rest of the block, which gets the id of the entry. The
entry types of this file are known and its accounts are never blank. -/
def writeEntry {α : Type} (amount : Amount) (row : LedgerEntry) (next : ℕ → WalletProg α) :
    WalletProg α :=
  match positiveMinor amount with
  | .error e => .raise e
  | .ok amountMinor =>
    .statement (.insertEntry { row with amountMinor }) fun b => next (b.ledger.next - 1)

/-- `write_entry`, for the entries that other services write. -/
def ledgerWriteEntry (amount : Amount) (row : LedgerEntry) : WalletProg ℕ :=
  .transaction (writeEntry amount row fun entryId =>
    .statement (.recordEvent ⟨"ledger." ++ row.entryType, row.targetType, row.targetId, none,
      some entryId⟩) fun _ => .ret entryId) .ret

def TransactionType.name : TransactionType → String
  | .credit => "credit"
  | .debit => "debit"

def TransactionType.signed (kind : TransactionType) (amountMinor : ℤ) : ℤ :=
  match kind with
  | .credit => amountMinor
  | .debit => -amountMinor

def walletTransactionIdKey : String := "wallet_transaction_id"

def idOr (id : Option ℤ) (orElse : ℕ) : Option ℤ :=
  match id with
  | some n => if n = 0 then some orElse else some n
  | none => some orElse

def movementRow (m : Movement) (amountMinor before : ℤ) (currency : String) :
    WalletTransaction where
  id := 0
  tenantId := m.tenantId
  walletId := m.walletId
  transactionType := m.transactionType
  amountMinor
  beforeBalanceMinor := before
  afterBalanceMinor := before + m.transactionType.signed amountMinor
  currency
  referenceType := m.referenceType
  referenceId := m.referenceId
  metadata := m.metadata

def movementEntry (m : Movement) (wallet : Wallet) (currency : String) (txId : ℕ) :
    LedgerEntry where
  id := 0
  tenantId := m.tenantId
  entryType := match m.transactionType with
    | .credit => "wallet_recharge"
    | .debit => "correction"
  debitAccount := match m.transactionType with
    | .credit => .cash
    | .debit => .wallet m.walletId
  creditAccount := match m.transactionType with
    | .credit => .wallet m.walletId
    | .debit => .cash
  amountMinor := 0
  currency
  targetType := wallet.ownerType
  targetId := wallet.ownerId
  referenceType := textOr m.referenceType "wallet_transaction"
  referenceId := idOr m.referenceId txId
  -- the caller's metadata comes last in the source, so its keys win
  metadata := m.metadata ++ [(walletTransactionIdKey, .number (toString txId) (txId = 0))]

/-- `_change_balance`. The ids of the movement and of its ledger entry. -/
def changeBalance (defaultCurrency : String) (m : Movement) : WalletProg (ℕ × ℕ) :=
  match positiveMinor m.amount with
  | .error e => .raise e
  | .ok amountMinor =>
    .transaction (.statement .select fun b =>
      match b.wallet m.tenantId m.walletId with
      | none => .raise (.validation "wallet not found")
      | some wallet =>
        let before := wallet.balanceMinor
        let after := before + m.transactionType.signed amountMinor
        let currency := textOr wallet.currency defaultCurrency
        if after < 0 then .raise (.validation "wallet balance cannot go negative")
        else
          .statement (.updateBalance m.tenantId m.walletId after) fun _ =>
          .statement (.insertTransaction (movementRow m amountMinor before currency)) fun b =>
          let txId := b.transactions.next - 1
          writeEntry m.amount (movementEntry m wallet currency txId) fun entryId =>
          .statement (.recordEvent ⟨"wallet." ++ m.transactionType.name, wallet.ownerType,
            wallet.ownerId, some m.walletId, some entryId⟩) fun _ =>
          .ret (txId, entryId)) .ret

def ownersWallet (books : Books) (tenantId : ℤ) (ownerType : String) (ownerId : ℤ) :
    Option Wallet :=
  ((books.wallets.select fun w => w.tenantId = tenantId && w.ownerType = ownerType).reverse.take
    500).find? fun w => w.ownerId.getD 0 = ownerId

/-- The newest wallet of an owner, from the list of the services that keep one for him; an owner
without a wallet gets one. `none` is a creation that raises. -/
def walletOf (defaultCurrency : String) (faults : Faults) (tenantId : ℤ) (ownerType : String)
    (ownerId : ℤ) (books : Books) : Option Wallet × Books :=
  match ownersWallet books tenantId ownerType ownerId with
  | some w => (some w, books)
  | none =>
    match perform faults.sqlite
      (createWallet defaultCurrency tenantId ownerType (some ownerId) "") books with
    | (.ok id, books') => (books'.wallet tenantId id, books')
    | (.error _, books') => (none, books')

end RadiusModule.BusinessOs
