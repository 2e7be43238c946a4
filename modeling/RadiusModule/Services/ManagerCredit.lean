import RadiusModule.Services.BusinessOs.WalletHistory
import Mathlib.Logic.Function.Basic

/-!
# The credit gate of managers

A charge is funded from the manager's wallet first and then as debt within his
cap. `evaluate` reads the balance and the debt in statements of their own, and
`commit` writes later, so requests of one manager may interleave between them.
-/

namespace RadiusModule.ManagerCredit
open Library Connection BusinessOs

inductive Kind
  | debt
  | debtSettle
  | advance
  | advanceSettle
deriving DecidableEq

structure CreditEntry where
  id : ℕ
  tenantId : ℤ
  managerId : ℤ
  kind : Kind
  amountMinor : ℤ

structure Caps where
  debtCapEnabled : Bool := false
  debtCapMinor : ℤ := 0
  loanCapEnabled : Bool := false
  loanCapMinor : ℤ := 0

structure Config where
  isPrimaryOwner : ℤ → Bool
  getAdmin : ℤ → Option Caps
  defaultCurrency : String

def isUncapped (cfg : Config) (managerId : ℤ) : Bool :=
  managerId ≠ 0 && cfg.isPrimaryOwner managerId

def getCaps (cfg : Config) (managerId : ℤ) : Caps :=
  if managerId = 0 then {} else (cfg.getAdmin managerId).getD {}

abbrev CreditLedger := Table CreditEntry CreditEntry.id

def CreditEntry.signed (plus minus : Kind) (e : CreditEntry) : ℤ :=
  if e.kind = plus then e.amountMinor else if e.kind = minus then -e.amountMinor else 0

def ledgerTotal (t : CreditLedger) (tenantId managerId : ℤ) (plus minus : Kind) : ℤ :=
  ((t.select fun e => e.tenantId = tenantId && e.managerId = managerId).map
    (·.signed plus minus)).sum

def ledgerSum (t : CreditLedger) (tenantId managerId : ℤ) (plus minus : Kind) : ℤ :=
  max 0 (ledgerTotal t tenantId managerId plus minus)

def currentDebtMinor (t : CreditLedger) (tenantId managerId : ℤ) : ℤ :=
  ledgerSum t tenantId managerId .debt .debtSettle

def currentAdvancesMinor (t : CreditLedger) (tenantId managerId : ℤ) : ℤ :=
  ledgerSum t tenantId managerId .advance .advanceSettle

def record (t : CreditLedger) (tenantId managerId : ℤ) (kind : Kind) (amountMinor : ℤ) :
    CreditLedger :=
  t.insert (fun id => { id, tenantId, managerId, kind, amountMinor }) fun _ => rfl

inductive Mode
  | wallet
  | debt
  | blocked
deriving DecidableEq

structure SpendDecision where
  ok : Bool
  mode : Mode
  walletDeductMinor : ℤ := 0
  debtMinor : ℤ := 0
  advanceMinor : ℤ := 0
  costMinor : ℤ := 0
  shortfallMinor : ℤ := 0
  message : String := ""
deriving DecidableEq

def noBalanceMsg : String := "لا يوجد رصيد كافٍ"
def noBalanceOwnMsg : String := "لا يوجد لديك رصيد كافٍ"
def loanExceededMsg : String := "تجاوزت سقف السلف"

/-- `evaluate` on the balance and the debt that it reads. -/
def evaluate (cfg : Config) (managerId costMinor balance debt : ℤ) : SpendDecision :=
  let cost := max 0 costMinor
  if cost ≤ 0 then { ok := true, mode := .wallet }
  else if cost ≤ balance then
    { ok := true, mode := .wallet, walletDeductMinor := cost, costMinor := cost }
  else
    let shortfall := cost - balance
    let onDebt : SpendDecision :=
      { ok := true, mode := .debt, walletDeductMinor := balance, debtMinor := shortfall,
        costMinor := cost, shortfallMinor := shortfall }
    let caps := getCaps cfg managerId
    if isUncapped cfg managerId then onDebt
    else if caps.debtCapEnabled && debt + shortfall ≤ caps.debtCapMinor then onDebt
    else
      { ok := false, mode := .blocked, costMinor := cost, shortfallMinor := shortfall,
        message := noBalanceMsg }

/-- `evaluate_advance`, once the funding is there, on the advances that it reads. -/
def evaluateAdvance (cfg : Config) (managerId advanceMinor : ℤ) (funding : SpendDecision)
    (advances : ℤ) : SpendDecision :=
  let advance := max 0 advanceMinor
  let caps := getCaps cfg managerId
  if !isUncapped cfg managerId &&
      (!caps.loanCapEnabled || decide (caps.loanCapMinor < advances + advance)) then
    { ok := false, mode := .blocked, costMinor := advance, advanceMinor := advance,
      message := loanExceededMsg }
  else { funding with advanceMinor := advance }

structure Request where
  tenantId : ℤ := 1
  managerId : ℤ
  costMinor : ℤ
  kind : String := "generic"
  own : Bool := false
  referenceType : String := ""
  referenceId : Option ℤ := none
deriving DecidableEq

def kindAdvance : String := "advance"

/-- `enforce_manager_spend`: the charge it makes, if any. -/
def enforceManagerSpend (cfg : Config) (tenantId : ℤ) (managerId : Option ℤ) (isSuper : Bool)
    (costMoney : Amount) (kind : String) : Except ServiceError (Option Request) :=
  let tenantId := if tenantId = 0 then 1 else tenantId
  if isSuper || isUncapped cfg (managerId.getD 0) then .ok none
  else
    match moneyToMinor costMoney with
    | .error e => .error e
    | .ok costMinor =>
      if costMinor ≤ 0 then .ok none
      else .ok (some { tenantId, managerId := managerId.getD 0, costMinor, kind, own := true })

/-- Where a `charge` stands: the next statement it runs, and what it has read. -/
inductive Phase
  | reading (req : Request)
  | funding (req : Request) (balance : ℤ)
  | lending (req : Request) (funding : SpendDecision) (debtRead : ℤ)
  | opening (req : Request) (decision : SpendDecision) (debtRead : ℤ)
  | debiting (req : Request) (decision : SpendDecision) (debtRead : ℤ) (walletId : ℕ)
  | recording (req : Request) (decision : SpendDecision) (debtRead : ℤ)
  | advancing (req : Request) (decision : SpendDecision)
  | succeeded (req : Request) (decision : SpendDecision)
  | refused (message : String)
  | failed

inductive Moved
  | deducted (transactionId : ℕ) (amountMinor : ℤ)
  | owed (entryId : ℕ) (amountMinor : ℤ)

def Moved.amountMinor : Moved → ℤ
  | .deducted _ amount => amount
  | .owed _ amount => amount

structure World where
  books : Books
  ledger : CreditLedger
  phase : ℕ → Option Phase
  journal : List (ℕ × Moved)

def World.initial (books : Books) (ledger : CreditLedger) : World :=
  ⟨books, ledger, fun _ => none, []⟩

def World.setPhase (w : World) (r : ℕ) (p : Phase) : World :=
  { w with phase := Function.update w.phase r (some p) }

def wallet (cfg : Config) (faults : Faults) (tenantId managerId : ℤ) (books : Books) :
    Option Wallet × Books :=
  walletOf cfg.defaultCurrency faults tenantId "manager" managerId books

/-- The gate has decided: `charge` goes on to `commit` or raises the message. -/
def afterGate (req : Request) (decision : SpendDecision) (debtRead : ℤ) : Phase :=
  if decision.ok then .opening req decision debtRead
  else
    .refused (if req.own && decision.message = noBalanceMsg then noBalanceOwnMsg
      else decision.message)

def debitOf (req : Request) (decision : SpendDecision) (walletId : ℕ) : Movement where
  tenantId := req.tenantId
  walletId
  amount := minorToMoney decision.walletDeductMinor
  transactionType := .debit
  referenceType := textOr req.referenceType (req.kind ++ "_charge")
  referenceId := req.referenceId
  metadata := [("kind", .str req.kind)]

/-- The next statement of charge `r`. A wallet operation may fail in `faults`; a read or an
INSERT raises when `raises` says so. -/
def World.next (cfg : Config) (w : World) (r : ℕ) (faults : Faults) (raises : Bool) : World :=
  match w.phase r with
  | some (.reading req) =>
    match wallet cfg faults req.tenantId req.managerId w.books with
    | (none, books) => { w with books }.setPhase r .failed
    | (some found, books) => { w with books }.setPhase r (.funding req found.balanceMinor)
  | some (.funding req balance) =>
    if raises then w.setPhase r .failed
    else
      let debt := currentDebtMinor w.ledger req.tenantId req.managerId
      let decision := evaluate cfg req.managerId req.costMinor balance debt
      if req.kind = kindAdvance && decision.ok then w.setPhase r (.lending req decision debt)
      else w.setPhase r (afterGate req decision debt)
  | some (.lending req funding debtRead) =>
    if raises then w.setPhase r .failed
    else
      let advances := currentAdvancesMinor w.ledger req.tenantId req.managerId
      let decision := evaluateAdvance cfg req.managerId req.costMinor funding advances
      w.setPhase r (afterGate req decision debtRead)
  | some (.opening req decision debtRead) =>
    match wallet cfg faults req.tenantId req.managerId w.books with
    | (none, books) => { w with books }.setPhase r .failed
    | (some found, books) => { w with books }.setPhase r (.debiting req decision debtRead found.id)
  | some (.debiting req decision debtRead walletId) =>
    if 0 < decision.walletDeductMinor then
      match perform faults.sqlite
        (changeBalance cfg.defaultCurrency (debitOf req decision walletId)) w.books with
      | (.error _, books) => { w with books }.setPhase r .failed
      | (.ok ids, books) =>
        { w with
          books
          journal := w.journal ++ [(r, Moved.deducted ids.1 decision.walletDeductMinor)] }.setPhase r
          (.recording req decision debtRead)
    else w.setPhase r (.recording req decision debtRead)
  | some (.recording req decision _) =>
    if 0 < decision.debtMinor then
      if raises then w.setPhase r .failed
      else
        { w with
          ledger := record w.ledger req.tenantId req.managerId .debt decision.debtMinor
          journal := w.journal ++ [(r, Moved.owed w.ledger.next decision.debtMinor)] }.setPhase r
          (.advancing req decision)
    else w.setPhase r (.advancing req decision)
  | some (.advancing req decision) =>
    if 0 < decision.advanceMinor then
      if raises then w.setPhase r .failed
      else
        { w with
          ledger := record w.ledger req.tenantId req.managerId .advance decision.advanceMinor
          }.setPhase r (.succeeded req decision)
    else w.setPhase r (.succeeded req decision)
  | _ => w

def settleDebt (t : CreditLedger) (tenantId managerId amountMinor : ℤ) : CreditLedger :=
  let settled := min (max 0 amountMinor) (currentDebtMinor t tenantId managerId)
  if settled ≤ 0 then t else record t tenantId managerId .debtSettle settled

def reverseCharge (t : CreditLedger) (tenantId managerId debtBack advanceBack : ℤ) :
    CreditLedger :=
  let t := if 0 < debtBack then record t tenantId managerId .debtSettle debtBack else t
  if 0 < advanceBack then record t tenantId managerId .advanceSettle advanceBack else t

inductive Event
  | charge (r : ℕ) (req : Request)
  | enforce (r : ℕ) (tenantId : ℤ) (managerId : Option ℤ) (isSuper : Bool) (costMoney : Amount)
    (kind : String)
  | next (r : ℕ) (faults : Faults) (raises : Bool)
  | wallet (call : Call)
  | settle (tenantId managerId amountMinor : ℤ)
  | reverse (tenantId managerId debtBack advanceBack : ℤ)

def World.begin (w : World) (r : ℕ) (req : Request) : World :=
  if (w.phase r).isNone then w.setPhase r (.reading req) else w

def step (cfg : Config) (w : World) : Event → World
  | .charge r req => w.begin r req
  | .enforce r tenantId managerId isSuper costMoney kind =>
    match enforceManagerSpend cfg tenantId managerId isSuper costMoney kind with
    | .ok (some req) => w.begin r req
    | _ => w
  | .next r faults raises => w.next cfg r faults raises
  | .wallet call => { w with books := BusinessOs.step w.books call }
  | .settle tenantId managerId amountMinor =>
    { w with ledger := settleDebt w.ledger tenantId managerId amountMinor }
  | .reverse tenantId managerId debtBack advanceBack =>
    { w with ledger := reverseCharge w.ledger tenantId managerId debtBack advanceBack }

def World.moved (w : World) (r : ℕ) : ℤ :=
  ((w.journal.filter fun p => p.1 = r).map fun p => p.2.amountMinor).sum

end RadiusModule.ManagerCredit
