import RadiusModule.Core.Connection
import RadiusModule.Services.Accounting.Pricing

/-!
# The accounting service

Each operation is one block of the connection: it raises and leaves the books,
or it has done all of its writes. The statements are the writes of
`accounting_repo` and of the account, any of which may raise; `select` stands
for what is read.
-/

namespace RadiusModule.Accounting
open Library Connection PyText

inductive Statement
  | select
  | createPayment (p : Payment)
  | markPaymentApplied (paymentId : ℕ) (minutes : ℤ) (wasUnlimited : Bool)
  | createLoan (l : Loan)
  | markLoanApplied (loanId : ℕ) (minutes : ℤ)
  | settleLoan (loan : Loan) (amount : ℤ) (currency : String) (paymentId : Option ℕ)
  | writeoffLoan (loan : Loan) (currency : String)
  | voidSettlement (settlementId : ℕ)
  | setLoanStatus (loanId : ℕ) (status expect : LoanStatus)
  | voidPayment (payment : Payment)
  | voidLedgerEntry (entryId : ℕ)
  | createLedgerEntry (entry : LedgerEntry)
  | upsertAccount (account : Account)
  | audit (record : AuditRecord)

def Books.apply (b : Books) : Statement → Except Error Books
  | .select => .ok b
  | .createPayment p => .ok (b.createPayment p)
  | .markPaymentApplied id minutes wasUnlimited =>
    .ok (b.markPaymentApplied id minutes wasUnlimited)
  | .createLoan l => .ok (b.createLoan l)
  | .markLoanApplied id minutes => .ok (b.markLoanApplied id minutes)
  | .settleLoan loan amount currency paymentId => b.settleLoan loan amount currency paymentId
  | .writeoffLoan loan currency => b.writeoffLoan loan currency
  | .voidSettlement id => b.voidSettlement id
  | .setLoanStatus id status expect => .ok (b.setLoanStatus id status expect)
  | .voidPayment payment => b.voidPayment payment
  | .voidLedgerEntry id => b.voidLedgerEntry id
  | .createLedgerEntry entry => .ok (b.post (fun id => { entry with id }) fun _ => rfl)
  | .upsertAccount account => .ok (b.upsertAccount account)
  | .audit record => .ok (b.audit record)

/-- What may go wrong besides: a statement, the BEGIN or the COMMIT raises. -/
structure Faults where
  statement : Statement → Books → Option Error := fun _ _ => none
  atBegin : Books → Option Error := fun _ => none
  atCommit : Books → Option Error := fun _ => none

def Faults.sqlite (faults : Faults) : Sqlite Books Statement Error where
  write w b :=
    match faults.statement w b with
    | some e => .error e
    | none => b.apply w
  beginRaises := faults.atBegin
  commitRaises := faults.atCommit

structure Env extends Settings where
  now : ℤ
  expiryLimit : ℤ := 4133980800 * 1000000
  faults : Faults := {}

inductive Reply
  | preview (minutes : ℤ)
  | payment (id : ℕ)
  | loan (id : ℕ)
  | settlement (id : ℕ)
  | entry (id : ℕ)
  | resolved (settledTotal : ℤ) (settledIds writeoffIds : List ℕ)
  | done
deriving DecidableEq

abbrev Tx := Prog Books Statement Empty Error Reply

def minute : ℤ := 60 * 1000000

def audited (record : AuditRecord) (next : Tx) : Tx :=
  .attempt (.statement (.audit record) fun _ => .ret .done) fun _ => next

/-- What `apply_activation_minutes` reports: whether the account changed, and whether it had no
end before. -/
structure Activation where
  applied : Bool
  wasUnlimited : Bool

def activationBase (env : Env) (account : Account) : ℤ :=
  match account.expireAt with
  | some expireAt => max expireAt env.now
  | none => env.now

def activated (account : Account) (expireAt : ℤ) : Account :=
  { account with
    expireAt := some expireAt
    status := if account.status = statusDisabled ∨ account.status = statusSuspended
      then account.status else statusEnabled }

def applyActivationMinutes (env : Env) (username : String) (minutes : ℤ) (source : ActionSource)
    (dryRun respectUnlimited : Bool) (next : Activation → Tx) : Tx :=
  if username = "" ∨ minutes ≤ 0 then .raise .validation
  else if env.maxExtendMinutes < minutes then .raise (.nonFinite "minutes")
  else
    .statement .select fun b =>
      match b.accounts.get username with
      | none => .raise .notFound
      | some account =>
        if account.expireAt.isNone && respectUnlimited then next ⟨false, true⟩
        else
          let newExpire := activationBase env account + minutes * minute
          if env.expiryLimit ≤ newExpire then .raise (.nonFinite "expire_at")
          else if dryRun then next ⟨false, account.expireAt.isNone⟩
          else
            .statement (.upsertAccount (activated account newExpire)) fun _ =>
              audited ⟨username, source, minutes⟩ (next ⟨true, account.expireAt.isNone⟩)

/-- `revoke_activation_minutes`: not below now, and back to no end where the payment had set
one. -/
def revokeActivationMinutes (env : Env) (username : String) (minutes : ℤ) (source : ActionSource)
    (restoreUnlimited : Bool) (next : Tx) : Tx :=
  if username = "" ∨ minutes ≤ 0 then next
  else
    .statement .select fun b =>
      match b.accounts.get username with
      | none => .raise .notFound
      | some account =>
        match account.expireAt with
        | none => next
        | some current =>
          if restoreUnlimited then
            .statement (.upsertAccount { account with expireAt := none }) fun _ =>
              audited ⟨username, source, -minutes⟩ next
          else
            let newExpire := max (current - minutes * minute) env.now
            if current ≤ newExpire then next
            else
              .statement (.upsertAccount { account with expireAt := some newExpire }) fun _ =>
                audited ⟨username, source, -((current - newExpire) / minute)⟩ next

def shiftWallet (entry : LedgerEntry) (delta : ℤ) (next : Tx) : Tx :=
  .statement .select fun b =>
    let username :=
      if strip entry.username = "" then
        ((entry.subscriberId.bind fun id => b.accounts.resolve (some id) "").map
          Account.username).getD ""
      else strip entry.username
    match b.accounts.get username with
    | none => .raise .conflict
    | some account =>
      .statement (.upsertAccount { account with balance := account.balance + delta }) fun _ => next

def createPayment (env : Env) (body : PaymentBody) : Tx :=
  .transaction (.statement .select fun b =>
    match b.accounts.resolve body.subscriberId (strip body.username) with
    | none => .raise .validation
    | some account =>
      match paymentTerms env.toSettings account body with
      | .error e => .raise e
      | .ok terms =>
        if body.dryRun then
          if body.applyToRadius ∧ 0 < terms.earnedMinutes then
            applyActivationMinutes env account.username terms.earnedMinutes .preview true false
              fun _ => .ret (.preview terms.earnedMinutes)
          else .ret (.preview terms.earnedMinutes)
        else
          .statement (.createPayment
            { id := 0
              subscriberId := account.id
              username := account.username
              amount := terms.amount
              currency := terms.currency
              earnedMinutes := terms.earnedMinutes }) fun b =>
            let paymentId := b.payments.next - 1
            if body.applyToRadius ∧ 0 < terms.earnedMinutes then
              applyActivationMinutes env account.username terms.earnedMinutes (.payment paymentId)
                false false fun activation =>
                  if activation.applied then
                    .statement (.markPaymentApplied paymentId terms.earnedMinutes
                      activation.wasUnlimited) fun _ => .ret (.payment paymentId)
                  else .ret (.payment paymentId)
            else .ret (.payment paymentId)) .ret

def createLoan (env : Env) (body : LoanBody) : Tx :=
  .transaction (.statement .select fun b =>
    match b.accounts.resolve body.subscriberId (strip body.username) with
    | none => .raise .validation
    | some account =>
      match loanTerms env.toSettings account body,
        normalizeCurrency env.toSettings env.defaultCurrency "" with
      | .error e, _ => .raise e
      | _, .error e => .raise e
      | .ok terms, .ok currency =>
        if body.dryRun then
          if body.applyToRadius then
            applyActivationMinutes env account.username terms.minutes .preview true true
              fun _ => .ret (.preview terms.minutes)
          else .ret (.preview terms.minutes)
        else
          .statement (.createLoan
            { id := 0
              subscriberId := account.id
              username := account.username
              durationMinutes := terms.minutes
              amount := terms.amount
              currency }) fun b =>
            let loanId := b.loans.next - 1
            if body.applyToRadius then
              applyActivationMinutes env account.username terms.minutes (.loan loanId) false true
                fun activation =>
                  if activation.applied then
                    .statement (.markLoanApplied loanId terms.minutes) fun _ => .ret (.loan loanId)
                  else .ret (.loan loanId)
            else .ret (.loan loanId)) .ret

structure SettlementBody where
  amount : Option ℚ := none
  currency : String := ""

/-- `settle_loan`: without an amount all that is left; a free loan takes no money. -/
def settleLoan (env : Env) (loanId : ℕ) (body : SettlementBody) (subscriberId : Option ℕ) : Tx :=
  .transaction (.statement .select fun b =>
    match b.getLoan loanId with
    | none => .raise .notFound
    | some ⟨loan, _, outstanding⟩ =>
      if subscriberId.any (· ≠ loan.subscriberId) then .raise .notFound
      else if loan.status ≠ .open then .raise .conflict
      else
        match toFloat "amount" 0 (body.amount.getD 0) with
        | .error e => .raise e
        | .ok requested =>
          let cents := roundMoney requested
          let amount := if cents ≤ 0 then outstanding else cents
          if 0 < requested ∧ cents ≤ 0 then .raise (.nonFinite "amount")
          else if loan.amount ≤ 0 ∧ 0 < cents then .raise .validation
          else if outstanding < amount then .raise .validation
          else
            match normalizeCurrency env.toSettings loan.currency "" with
            | .error e => .raise e
            | .ok loanCurrency =>
              match normalizeCurrency env.toSettings body.currency loanCurrency with
              | .error e => .raise e
              | .ok currency =>
                if currency ≠ loanCurrency then .raise .validation
                else
                  .statement (.settleLoan loan amount currency none) fun b =>
                    .ret (.settlement (b.settlements.next - 1))) .ret

def writeoffLoan (env : Env) (loanId : ℕ) : Tx :=
  .transaction (.statement .select fun b =>
    match b.getLoan loanId with
    | none => .raise .notFound
    | some ⟨loan, _, _⟩ =>
      if loan.status ≠ .open then .raise .conflict
      else
        match normalizeCurrency env.toSettings loan.currency "" with
        | .error e => .raise e
        | .ok currency =>
          .statement (.writeoffLoan loan currency) fun _ => .ret (.loan loanId)) .ret

structure LoanAction where
  loanId : Option ℕ
  action : String
  amount : Option ℤ := none

def planLoanActions (env : Env) (b : Books) (subscriberId : Option ℕ) :
    List LoanAction → List (ℕ × String) → Option ℤ → Except Error (List LoanAction)
  | [], _, _ => .ok []
  | item :: rest, seen, cash =>
    match item.loanId with
    | none => planLoanActions env b subscriberId rest seen cash
    | some loanId =>
      let kind := strip item.action
      match seen.lookup loanId with
      | some first =>
        if first ≠ kind then .error .validation
        else planLoanActions env b subscriberId rest seen cash
      | none =>
        let seen := (loanId, kind) :: seen
        let skip := planLoanActions env b subscriberId rest seen cash
        if kind ≠ "settle" ∧ kind ≠ "writeoff" then skip
        else
          match b.getLoan loanId with
          | none => skip
          | some ⟨loan, _, outstanding⟩ =>
            if subscriberId.any (· ≠ loan.subscriberId) then .error .validation
            else if loan.status ≠ .open then skip
            else if kind = "writeoff" then skip.map (⟨loanId, kind, some 0⟩ :: ·)
            else
              match normalizeCurrency env.toSettings loan.currency "",
                normalizeCurrency env.toSettings env.defaultCurrency "" with
              | .error e, _ => .error e
              | _, .error e => .error e
              | .ok loanCurrency, .ok payCurrency =>
                if loanCurrency ≠ payCurrency then .error .validation
                else
                  let pay := max (match cash with
                    | none => outstanding
                    | some cash => min outstanding cash) 0
                  if pay ≤ 0 ∧ 0 < outstanding then skip
                  else
                    (planLoanActions env b subscriberId rest seen
                      (cash.map fun cash => max (cash - pay) 0)).map
                      (⟨loanId, kind, some pay⟩ :: ·)

def resolveItems (env : Env) (subscriberId paymentId : Option ℕ) :
    List LoanAction → ℤ → List ℕ → List ℕ → Tx
  | [], total, settledIds, writeoffIds => .ret (.resolved total settledIds writeoffIds)
  | item :: rest, total, settledIds, writeoffIds =>
    let skip := resolveItems env subscriberId paymentId rest total settledIds writeoffIds
    match item.loanId with
    | none => skip
    | some loanId =>
      .statement .select fun b =>
        match b.getLoan loanId with
        | none => skip
        | some ⟨loan, _, outstanding⟩ =>
          if loan.status ≠ .open ∨ subscriberId.any (· ≠ loan.subscriberId) then skip
          else
            match normalizeCurrency env.toSettings loan.currency "" with
            | .error e => .raise e
            | .ok currency =>
              if item.action = "settle" then
                let amount := min (item.amount.getD 0) outstanding
                .attempt (.statement (.settleLoan loan amount currency paymentId) fun _ =>
                    .ret .done) fun
                  | .ok _ => resolveItems env subscriberId paymentId rest (total + amount)
                      (settledIds ++ [loanId]) writeoffIds
                  | .error .conflict => skip
                  | .error e => .raise e
              else if item.action = "writeoff" then
                .attempt (.statement (.writeoffLoan loan currency) fun _ => .ret .done) fun
                  | .ok _ => resolveItems env subscriberId paymentId rest total settledIds
                      (writeoffIds ++ [loanId])
                  | .error .conflict => skip
                  | .error e => .raise e
              else skip

/-- `resolve_loan_actions`: actions that all have an amount are a plan already. -/
def resolveLoanActions (env : Env) (actions : List LoanAction)
    (subscriberId : Option ℕ) (cash : Option ℤ) (paymentId : Option ℕ) : Tx :=
  .transaction (
    if actions ≠ [] ∧ actions.all (·.amount.isSome) then
      resolveItems env subscriberId paymentId actions 0 [] []
    else
      .statement .select fun b =>
        match planLoanActions env b subscriberId actions [] (cash.map (max · 0)) with
        | .error e => .raise e
        | .ok plan => resolveItems env subscriberId paymentId plan 0 [] []) .ret

def reverseLoanSettlements : List Settlement → Tx → Tx
  | [], next => next
  | s :: rest, next =>
    .statement .select fun b =>
      match b.getLoan s.loanId with
      | none => reverseLoanSettlements rest next
      | some ⟨loan, _, _⟩ =>
        if loan.status = .voided then reverseLoanSettlements rest next
        else
          .statement (.voidSettlement s.id) fun _ => reverseLoanSettlements rest next

def reverseDebtSettlements : List LedgerEntry → Tx → Tx
  | [], next => next
  | entry :: rest, next =>
    .statement (.voidLedgerEntry entry.id) fun _ =>
      shiftWallet entry (-entry.amount) (reverseDebtSettlements rest next)

def reversePaymentSettlements (paymentId : ℕ) (next : Tx) : Tx :=
  .statement .select fun b =>
    reverseLoanSettlements (b.paymentSettlements paymentId)
      (.statement .select fun b =>
        reverseDebtSettlements (b.paymentDebtSettlements paymentId) next)

def voidPayment (env : Env) (paymentId : ℕ) : Tx :=
  .transaction (.statement .select fun b =>
    match b.payments.get? paymentId with
    | none => .raise .notFound
    | some payment =>
      if payment.status = .voided then .raise .conflict
      else
        .statement (.voidPayment payment) fun b =>
          revokeActivationMinutes env payment.username payment.appliedMinutes
            (.paymentVoid paymentId) payment.wasUnlimited
            (reversePaymentSettlements paymentId (.ret (.entry (b.ledger.next - 1))))) .ret

def voidLoanEntry (env : Env) (original : LedgerEntry) (loanId : ℕ) : Tx :=
  .statement .select fun b =>
    match b.getLoan loanId with
    | none => .raise .notFound
    | some ⟨loan, _, _⟩ =>
      if b.postedSettlements loanId ≠ [] then .raise .conflict
      else if loan.status ≠ .open then .raise .conflict
      else
        .statement (.voidLedgerEntry original.id) fun b =>
          if b.hasStatus loanId .open then
            .statement (.setLoanStatus loanId .voided .open) fun b =>
              revokeActivationMinutes env loan.username loan.appliedMinutes (.loanVoid loanId) false
                (.ret (.entry (b.ledger.next - 1)))
          else .raise .conflict

def voidSettlementEntry (original : LedgerEntry) (settlementId : ℕ) : Tx :=
  .statement .select fun b =>
    match b.settlements.get? settlementId with
    | none => .raise .notFound
    | some s =>
      if s.ledgerEntryId ≠ some original.id then .raise .notFound
      else
        match b.getLoan s.loanId with
        | none => .raise .notFound
        | some ⟨loan, _, _⟩ =>
          if loan.status = .voided then .raise .conflict
          else
            .statement (.voidSettlement settlementId) fun b => .ret (.entry (b.ledger.next - 1))

def voidWriteoffEntry (original : LedgerEntry) (loanId : ℕ) : Tx :=
  .statement .select fun b =>
    match b.getLoan loanId with
    | none => .raise .notFound
    | some ⟨loan, _, _⟩ =>
      if loan.status ≠ .voided ∨ b.reversed (loan.ledgerEntryId.getD 0) then .raise .conflict
      else
        .statement (.voidLedgerEntry original.id) fun b =>
          .statement (.setLoanStatus loanId .open .voided) fun _ =>
            .ret (.entry (b.ledger.next - 1))

/-- `_WALLET_SOURCES` -/
def SourceType.isWallet : SourceType → Bool
  | .subscriber .manualBalance => false
  | .subscriber _ => true
  | _ => false

/-- The rest of `void_ledger`: the entry, and what it did to the account. -/
def voidOtherEntry (env : Env) (original : LedgerEntry) : Tx :=
  .statement (.voidLedgerEntry original.id) fun b =>
    let reply : Reply := .entry (b.ledger.next - 1)
    if original.sourceType.isWallet && (original.username ≠ "" || original.subscriberId.isSome) then
      let delta := if original.direction = .credit then -original.amount else original.amount
      shiftWallet original delta (
        if original.sourceType = .subscriber .timeExtension then
          revokeActivationMinutes env original.username original.minutes
            (.ledgerVoid original.id) false (.ret reply)
        else .ret reply)
    else .ret reply

def Books.paymentOf (b : Books) (entry : LedgerEntry) : Option Payment :=
  if entry.entryType = .payment ∧ entry.sourceType = .payment ∧ entry.isReversal = false then
    (entry.sourceId.bind b.payments.get?).filter fun p => p.ledgerEntryId = some entry.id
  else none

def voidLedger (env : Env) (entryId : ℕ) : Tx :=
  .transaction (.statement .select fun b =>
    match b.ledger.get? entryId with
    | none => .raise .notFound
    | some original =>
      match b.paymentOf original with
      | some payment => voidPayment env payment.id
      | none =>
        if original.isReversal then .raise .validation
        else if b.reversed entryId then .raise .conflict
        else
          match original.sourceType, original.sourceId with
          | .loan, some loanId => voidLoanEntry env original loanId
          | .settlement, some settlementId => voidSettlementEntry original settlementId
          | .loanWriteoff, some loanId => voidWriteoffEntry original loanId
          | _, _ => voidOtherEntry env original) .ret

inductive Posting
  | cashBalance
  | balanceSettlement (paymentId : Option ℕ)
  | timeExtension (onDebt : Bool) (minutes : ℤ)
  | quotaTopup (onDebt : Bool)
  | dailyQuotaReset (onDebt : Bool)
  | planChange
  | manualBalance (direction : Direction)

def Posting.entry (account : Account) (amount : ℤ) (currency : String) (posting : Posting) :
    LedgerEntry :=
  let row (entryType : EntryType) (direction : Direction) (source : SubscriberSource) :
      LedgerEntry :=
    { id := 0
      entryType
      direction
      amount
      currency
      subscriberId := some account.id
      username := account.username
      sourceType := .subscriber source }
  match posting with
  | cashBalance => row .cashBalance .credit .cashBalance
  | balanceSettlement paymentId =>
    { row .debtSettlement .credit .balanceSettlement with paymentId }
  | timeExtension onDebt minutes =>
    { row (if onDebt then .debt else .timeExtension) .debit .timeExtension with minutes }
  | quotaTopup onDebt => row (if onDebt then .debt else .quotaTopup) .debit .quotaTopup
  | dailyQuotaReset onDebt => row (if onDebt then .debt else .quotaTopup) .debit .dailyQuotaReset
  | planChange => row .debt .debit .planChange
  | manualBalance direction => row .cashBalance direction .manualBalance

def recordSubscriberLedger (username : String) (amount : ℤ) (currency : String)
    (posting : Posting) : Tx :=
  .transaction (.statement .select fun b =>
    match b.accounts.get username with
    | none => .raise .notFound
    | some account =>
      .statement (.createLedgerEntry (posting.entry account amount currency)) fun b =>
        .ret (.entry (b.ledger.next - 1))) .ret

inductive Op
  | createPayment (body : PaymentBody)
  | voidPayment (paymentId : ℕ)
  | createLoan (body : LoanBody)
  | settleLoan (loanId : ℕ) (body : SettlementBody) (subscriberId : Option ℕ)
  | writeoffLoan (loanId : ℕ)
  | resolveLoanActions (actions : List LoanAction) (subscriberId : Option ℕ) (cash : Option ℤ)
    (paymentId : Option ℕ)
  | voidLedger (entryId : ℕ)
  | recordSubscriberLedger (username : String) (amount : ℤ) (currency : String)
    (posting : Posting)
  | saveAccount (account : Account)

def Op.program (env : Env) : Op → Tx
  | .createPayment body => Accounting.createPayment env body
  | .voidPayment paymentId => Accounting.voidPayment env paymentId
  | .createLoan body => Accounting.createLoan env body
  | .settleLoan loanId body subscriberId => Accounting.settleLoan env loanId body subscriberId
  | .writeoffLoan loanId => Accounting.writeoffLoan env loanId
  | .resolveLoanActions actions subscriberId cash paymentId =>
    Accounting.resolveLoanActions env actions subscriberId cash paymentId
  | .voidLedger entryId => Accounting.voidLedger env entryId
  | .recordSubscriberLedger username amount currency posting =>
    Accounting.recordSubscriberLedger username amount currency posting
  | .saveAccount account =>
    .transaction (.statement (.upsertAccount account) fun _ => .ret .done) .ret

structure Call where
  op : Op
  env : Env

def execute (b : Books) (c : Call) : Except Error Reply × Books :=
  perform c.env.faults.sqlite (c.op.program c.env) b

def step (b : Books) (c : Call) : Books := (execute b c).2

end RadiusModule.Accounting
