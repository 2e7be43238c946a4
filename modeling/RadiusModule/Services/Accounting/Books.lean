import RadiusModule.Library.Journal
import RadiusModule.Library.PyText
import Mathlib.Data.Rat.Floor

/-!
# The accounting books

The ledger, the payments, loans and settlements that are entered in it, and
the accounts of the subscribers; the rows are those of one tenant. Money is in
cents and time in microseconds. A function that writes is one block of
`accounting_repo`.
-/

namespace RadiusModule.Accounting
open Library

inductive EntryType
  | payment
  | loan
  | settlement
  | writeoff
  | void
  | reversal
  | correction
  | debtSettlement
  | timeExtension
  | debt
  | cashBalance
  | quotaTopup
deriving DecidableEq

inductive Direction
  | credit
  | debit
deriving DecidableEq

def Direction.flip : Direction → Direction
  | .credit => .debit
  | .debit => .credit

/-- The `subscriber_…` sources, and `payment_balance_settlement`: what the service of the
subscribers enters. -/
inductive SubscriberSource
  | cashBalance
  | balanceSettlement
  | timeExtension
  | quotaTopup
  | dailyQuotaReset
  | planChange
  | manualBalance
deriving DecidableEq

inductive SourceType
  | payment
  | loan
  | settlement
  | loanWriteoff
  | paymentVoid
  | settlementVoid
  | ledgerVoid
  | subscriber (source : SubscriberSource)
deriving DecidableEq

inductive Related
  | loan (id : ℕ)
  | payment (id : ℕ)
deriving DecidableEq

inductive EntryStatus
  | posted
  | void
deriving DecidableEq

/-- A row of `accounting_ledger_entries`; `minutes` and `paymentId` are keys of its metadata. -/
structure LedgerEntry where
  id : ℕ
  entryType : EntryType
  direction : Direction
  amount : ℤ
  currency : String
  subscriberId : Option ℕ
  username : String
  sourceType : SourceType
  sourceId : Option ℕ := none
  related : Option Related := none
  reversalOf : Option ℕ := none
  status : EntryStatus := .posted
  minutes : ℤ := 0
  paymentId : Option ℕ := none
deriving DecidableEq

inductive PaymentStatus
  | posted
  | voided
deriving DecidableEq

/-- A row of `payment_transactions`, with what `mark_payment_applied` adds to its metadata. -/
structure Payment where
  id : ℕ
  subscriberId : ℕ
  username : String
  amount : ℤ
  currency : String
  earnedMinutes : ℤ
  status : PaymentStatus := .posted
  ledgerEntryId : Option ℕ := none
  appliedMinutes : ℤ := 0
  wasUnlimited : Bool := false
deriving DecidableEq

inductive LoanStatus
  | open
  | settled
  | voided
deriving DecidableEq

structure Loan where
  id : ℕ
  subscriberId : ℕ
  username : String
  durationMinutes : ℤ
  amount : ℤ
  currency : String
  status : LoanStatus := .open
  ledgerEntryId : Option ℕ := none
  appliedMinutes : ℤ := 0
deriving DecidableEq

structure Settlement where
  id : ℕ
  subscriberId : ℕ
  username : String
  loanId : ℕ
  paymentId : Option ℕ
  amount : ℤ
  currency : String
  status : PaymentStatus := .posted
  ledgerEntryId : Option ℕ := none
deriving DecidableEq

def statusEnabled : String := "enabled"
def statusDisabled : String := "disabled"
def statusSuspended : String := "suspended"

structure Account where
  id : ℕ
  username : String
  planId : Option ℕ := none
  customPrice : ℚ := 0
  managerId : Option ℕ := none
  status : String := statusEnabled
  expireAt : Option ℤ := none
  balance : ℤ := 0
  deleted : Bool := false
deriving DecidableEq

structure Accounts where
  table : Table Account Account.id
  unique : ∀ a ∈ table.rows, ∀ a' ∈ table.rows, a.username = a'.username → a = a'

namespace Accounts

/-- `get_account` -/
def get (as : Accounts) (username : String) : Option Account :=
  as.table.rows.find? fun a => a.username = username && !a.deleted

/-- `resolve_subscriber`, by the id when there is one. -/
def resolve (as : Accounts) (id : Option ℕ) (username : String) : Option Account :=
  match id with
  | some id => (as.table.get? id).filter fun a => !a.deleted
  | none => as.get username

def replace (as : Accounts) (account : Account) : Accounts where
  table := as.table.update (fun a => a.username = account.username)
    (fun a => { account with id := a.id }) fun _ => rfl
  unique a ha a' ha' hname := by
    obtain ⟨r, hr, rfl⟩ := List.mem_map.mp ha
    obtain ⟨r', hr', rfl⟩ := List.mem_map.mp ha'
    have hsame : r.username = r'.username := by
      split_ifs at hname with h h' h'
      · exact (of_decide_eq_true h).trans (of_decide_eq_true h').symm
      · exact (of_decide_eq_true h).trans hname
      · exact hname.trans (of_decide_eq_true h').symm
      · exact hname
    rw [as.unique r hr r' hr' hsame]

def insert (as : Accounts) (account : Account)
    (hnew : ∀ a ∈ as.table.rows, a.username ≠ account.username) : Accounts where
  table := as.table.insert (fun id => { account with id }) fun _ => rfl
  unique a ha a' ha' hname := by
    rcases List.mem_append.mp ha with ha | ha
    · rcases List.mem_append.mp ha' with ha' | ha'
      · exact as.unique a ha a' ha' hname
      · rw [List.mem_singleton.mp ha'] at hname
        exact absurd hname (hnew a ha)
    · rcases List.mem_append.mp ha' with ha' | ha'
      · rw [List.mem_singleton.mp ha] at hname
        exact absurd hname.symm (hnew a' ha')
      · rw [List.mem_singleton.mp ha, List.mem_singleton.mp ha']

/-- `upsert_account` -/
def upsert (as : Accounts) (account : Account) : Accounts :=
  if h : ∀ a ∈ as.table.rows, a.username ≠ account.username then as.insert account h
  else as.replace account

end Accounts

inductive ActionSource
  | payment (id : ℕ)
  | loan (id : ℕ)
  | preview
  | paymentVoid (id : ℕ)
  | loanVoid (id : ℕ)
  | ledgerVoid (id : ℕ)
deriving DecidableEq

structure AuditRecord where
  username : String
  source : ActionSource
  minutes : ℤ
deriving DecidableEq

abbrev Ledger := Table LedgerEntry LedgerEntry.id
abbrev Payments := Table Payment Payment.id
abbrev Loans := Table Loan Loan.id
abbrev Settlements := Table Settlement Settlement.id

structure Books where
  ledger : Ledger
  payments : Payments
  loans : Loans
  settlements : Settlements
  accounts : Accounts
  auditLog : List AuditRecord

def Books.fresh (accounts : Accounts) : Books :=
  ⟨.empty, .empty, .empty, .empty, accounts, []⟩

inductive Error
  | notFound
  | validation
  | conflict
  | nonFinite (field : String)
  | zeroDivision
  | database
deriving DecidableEq

def paymentEntry (p : Payment) (id : ℕ) : LedgerEntry where
  id
  entryType := .payment
  direction := .credit
  amount := p.amount
  currency := p.currency
  subscriberId := some p.subscriberId
  username := p.username
  sourceType := .payment
  sourceId := some p.id

def loanEntry (l : Loan) (id : ℕ) : LedgerEntry where
  id
  entryType := .loan
  direction := .debit
  amount := l.amount
  currency := l.currency
  subscriberId := some l.subscriberId
  username := l.username
  sourceType := .loan
  sourceId := some l.id

def settlementEntry (s : Settlement) (id : ℕ) : LedgerEntry where
  id
  entryType := .settlement
  direction := .credit
  amount := s.amount
  currency := s.currency
  subscriberId := some s.subscriberId
  username := s.username
  sourceType := .settlement
  sourceId := some s.id
  related := some (.loan s.loanId)

def writeoffEntry (l : Loan) (amount : ℤ) (currency : String) (id : ℕ) : LedgerEntry where
  id
  entryType := .writeoff
  direction := .credit
  amount
  currency
  subscriberId := some l.subscriberId
  username := l.username
  sourceType := .loanWriteoff
  sourceId := some l.id
  related := some (.loan l.id)

def reversalEntry (original : LedgerEntry) (sourceType : SourceType) (sourceId : ℕ)
    (related : Option Related) (id : ℕ) : LedgerEntry where
  id
  entryType := .void
  direction := original.direction.flip
  amount := -original.amount
  currency := original.currency
  subscriberId := original.subscriberId
  username := original.username
  sourceType
  sourceId := some sourceId
  related
  reversalOf := some original.id
  status := .void

/-- `is_reversal_entry` -/
def LedgerEntry.isReversal (e : LedgerEntry) : Bool :=
  e.reversalOf.isSome || e.entryType = .void || e.entryType = .reversal || e.status = .void

structure LoanView where
  loan : Loan
  settledAmount : ℤ
  outstanding : ℤ
deriving DecidableEq

namespace Books
variable (b : Books)

def reversed (entryId : ℕ) : Bool := Journal.reversed LedgerEntry.reversalOf b.ledger entryId

def postedSettlements (loanId : ℕ) : List Settlement :=
  b.settlements.select fun s => s.loanId = loanId && s.status = .posted

def settledAmount (loanId : ℕ) : ℤ := ((b.postedSettlements loanId).map Settlement.amount).sum

def getLoan (loanId : ℕ) : Option LoanView :=
  (b.loans.get? loanId).map fun loan =>
    { loan
      settledAmount := b.settledAmount loanId
      outstanding := if loan.status = .open then max (loan.amount - b.settledAmount loanId) 0
        else 0 }

def paymentSettlements (paymentId : ℕ) : List Settlement :=
  b.settlements.select fun s => s.paymentId = some paymentId && s.status = .posted

def paymentDebtSettlements (paymentId : ℕ) : List LedgerEntry :=
  b.ledger.select fun e => e.entryType = .debtSettlement && e.reversalOf.isNone &&
    e.paymentId = some paymentId && !b.reversed e.id

def post (entry : ℕ → LedgerEntry) (hentry : ∀ id, (entry id).id = id) : Books :=
  { b with ledger := b.ledger.insert entry hentry }

def createPayment (p : Payment) : Books :=
  { b with
    payments := b.payments.insert
      (fun id => { p with id, status := .posted, ledgerEntryId := some b.ledger.next })
      fun _ => rfl
    ledger := b.ledger.insert (paymentEntry { p with id := b.payments.next }) fun _ => rfl }

def markPaymentApplied (paymentId : ℕ) (minutes : ℤ) (wasUnlimited : Bool) : Books :=
  { b with
    payments := b.payments.update (fun p => p.id = paymentId)
      (fun p => { p with appliedMinutes := minutes, wasUnlimited }) fun _ => rfl }

def createLoan (l : Loan) : Books :=
  { b with
    loans := b.loans.insert
      (fun id => { l with id, status := .open, ledgerEntryId := some b.ledger.next })
      fun _ => rfl
    ledger := b.ledger.insert (loanEntry { l with id := b.loans.next }) fun _ => rfl }

def markLoanApplied (loanId : ℕ) (minutes : ℤ) : Books :=
  { b with
    loans := b.loans.update (fun l => l.id = loanId)
      (fun l => { l with appliedMinutes := minutes }) fun _ => rfl }

def updateLoanStatus (loanId : ℕ) (status : LoanStatus) : Books :=
  { b with
    loans := b.loans.update (fun l => l.id = loanId) (fun l => { l with status }) fun _ => rfl }

/-- The loan is open and the amount within what is left; half a cent of tolerance decides
nothing between whole cents. -/
def claims (loanId : ℕ) (amount : ℤ) (l : Loan) : Bool :=
  l.id = loanId && l.status = .open && amount ≤ l.amount - b.settledAmount loanId

/-- `settle_loan` on the loan that its caller has read; the payment is a foreign key. -/
def settleLoan (loan : Loan) (amount : ℤ) (currency : String) (paymentId : Option ℕ) :
    Except Error Books :=
  match b.loans.rows.find? (b.claims loan.id amount) with
  | none => .error .conflict
  | some row =>
    if paymentId.all fun id => (b.payments.get? id).isSome then
      let status := if row.amount - b.settledAmount loan.id - amount ≤ 0 then .settled else .open
      let s : Settlement :=
        { id := b.settlements.next
          subscriberId := loan.subscriberId
          username := loan.username
          loanId := loan.id
          paymentId
          amount
          currency
          ledgerEntryId := some b.ledger.next }
      .ok { b.updateLoanStatus loan.id status with
        settlements := b.settlements.insert (fun id => { s with id }) fun _ => rfl
        ledger := b.ledger.insert (settlementEntry s) fun _ => rfl }
    else .error .database

def writeoffLoan (loan : Loan) (currency : String) : Except Error Books :=
  if b.loans.rows.any fun l => l.id = loan.id && l.status = .open then
    let amount := max (loan.amount - b.settledAmount loan.id) 0
    .ok { b.updateLoanStatus loan.id .voided with
      ledger := b.ledger.insert (writeoffEntry loan amount currency) fun _ => rfl }
  else .error .conflict

/-- `void_settlement`: a loan that was settled is open again. -/
def voidSettlement (settlementId : ℕ) : Except Error Books :=
  match b.settlements.rows.find? fun s => s.id = settlementId && s.status = .posted with
  | none => .error .conflict
  | some s =>
    let voided : Books :=
      { b with
        settlements := b.settlements.update (fun s => s.id = settlementId)
          (fun s => { s with status := .voided }) fun _ => rfl
        loans := b.loans.update (fun l => l.id = s.loanId && l.status = .settled)
          (fun l => { l with status := .open }) fun _ => rfl }
    match s.ledgerEntryId.bind b.ledger.get? with
    | none => .ok voided
    | some original =>
      if b.reversed original.id then .ok voided
      else .ok (voided.post (reversalEntry original .settlementVoid settlementId
        (some (.loan s.loanId))) fun _ => rfl)

def hasStatus (loanId : ℕ) (expect : LoanStatus) : Bool :=
  b.loans.rows.any fun l => l.id = loanId && l.status = expect

def setLoanStatus (loanId : ℕ) (status expect : LoanStatus) : Books :=
  { b with
    loans := b.loans.update (fun l => l.id = loanId && l.status = expect)
      (fun l => { l with status }) fun _ => rfl }

/-- `void_payment`; a payment without its entry is refused by the caller. -/
def voidPayment (payment : Payment) : Except Error Books :=
  match payment.ledgerEntryId.bind b.ledger.get? with
  | none => .error .validation
  | some original =>
    if b.payments.rows.any fun p => p.id = payment.id && p.status ≠ .voided then
      if b.reversed original.id then .error .conflict
      else
        .ok ({ b with
          payments := b.payments.update (fun p => p.id = payment.id && p.status ≠ PaymentStatus.voided)
            (fun p => { p with status := .voided }) fun _ => rfl }.post
          (reversalEntry original .paymentVoid payment.id (some (.payment payment.id)))
          fun _ => rfl)
    else .error .conflict

/-- `void_ledger_entry`; an entry that is not there is refused by the caller. -/
def voidLedgerEntry (entryId : ℕ) : Except Error Books :=
  match b.ledger.get? entryId with
  | none => .error .notFound
  | some original =>
    if original.isReversal then .error .validation
    else if b.reversed entryId then .error .conflict
    else .ok (b.post (reversalEntry original .ledgerVoid entryId none) fun _ => rfl)

def upsertAccount (account : Account) : Books :=
  { b with accounts := b.accounts.upsert account }

def audit (record : AuditRecord) : Books := { b with auditLog := b.auditLog ++ [record] }

end Books

end RadiusModule.Accounting
