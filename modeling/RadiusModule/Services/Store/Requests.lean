import RadiusModule.Services.BusinessOs.WalletHistory
import Mathlib.Logic.Function.Basic

/-!
# Deposit and withdrawal requests

`confirm` claims a pending request in a block of its own, moves the money by a
call of the wallet service, and puts the request back when that call raises.
`reject` claims it for good. The two services differ in the direction of the
movement and in what a confirmation may change.
-/

namespace RadiusModule.Store
open Library Connection BusinessOs

/-- `DepositRequestService` and `WithdrawalRequestService`. -/
inductive Desk
  | deposit
  | withdrawal
deriving DecidableEq

inductive Status
  | pending
  | confirmed
  | adjusted
  | rejected
deriving DecidableEq

/-- A row of either table. `amountMinor` is what the customer asked for; only deposits have a
confirmed amount. -/
structure Request where
  id : ℕ
  tenantId : ℤ
  cardUserId : ℤ
  amountMinor : ℤ
  status : Status := .pending
  confirmedAmountMinor : Option ℤ := none
  walletTransactionId : Option ℕ := none
deriving DecidableEq

abbrev Requests := Table Request Request.id

namespace Desk

def referenceType : Desk → String
  | deposit => "store_deposit"
  | withdrawal => "store_withdrawal"

def transactionType : Desk → TransactionType
  | deposit => .credit
  | withdrawal => .debit

/-- What `confirm` goes for: the final status and the amount. -/
def settlement (desk : Desk) (r : Request) (confirmedAmount : Option Amount) :
    Option (Status × ℤ) :=
  match desk, confirmedAmount with
  | deposit, none => if 0 < r.amountMinor then some (.confirmed, r.amountMinor) else none
  | deposit, some amount =>
    match moneyToMinor amount with
    | .ok minor => if 0 < minor then some (.adjusted, minor) else none
    | .error _ => none
  | withdrawal, _ => some (.confirmed, r.amountMinor)

def claimed (desk : Desk) (status : Status) (amountMinor : ℤ) (r : Request) : Request :=
  match desk with
  | deposit => { r with status, confirmedAmountMinor := some amountMinor }
  | withdrawal => { r with status }

/-- The columns that the compensation of `confirm` resets. -/
def reopened (desk : Desk) (r : Request) : Request :=
  match desk with
  | deposit => { r with status := .pending, confirmedAmountMinor := none }
  | withdrawal => { r with status := .pending }

/-- The amount a confirmed request stands for. -/
def settled (desk : Desk) (r : Request) : Option ℤ :=
  match desk with
  | deposit => r.confirmedAmountMinor
  | withdrawal => some r.amountMinor

@[simp] theorem claimed_id (desk : Desk) (status : Status) (amountMinor : ℤ) (r : Request) :
    (desk.claimed status amountMinor r).id = r.id := by
  cases desk <;> rfl

@[simp] theorem claimed_status (desk : Desk) (status : Status) (amountMinor : ℤ) (r : Request) :
    (desk.claimed status amountMinor r).status = status := by
  cases desk <;> rfl

@[simp] theorem claimed_amountMinor (desk : Desk) (status : Status) (amountMinor : ℤ)
    (r : Request) : (desk.claimed status amountMinor r).amountMinor = r.amountMinor := by
  cases desk <;> rfl

@[simp] theorem reopened_id (desk : Desk) (r : Request) : (desk.reopened r).id = r.id := by
  cases desk <;> rfl

@[simp] theorem reopened_status (desk : Desk) (r : Request) :
    (desk.reopened r).status = .pending := by
  cases desk <;> rfl

@[simp] theorem reopened_amountMinor (desk : Desk) (r : Request) :
    (desk.reopened r).amountMinor = r.amountMinor := by
  cases desk <;> rfl

end Desk

/-- Where a `confirm` stands: the next step it takes. From `opening` to `compensating` it has
claimed the request and not yet moved the money or put the request back. -/
inductive Phase
  | reading (desk : Desk) (tenantId : ℤ) (id : ℕ) (confirmedAmount : Option Amount)
  | claiming (desk : Desk) (tenantId : ℤ) (id : ℕ) (cardUserId : ℤ) (status : Status)
    (amountMinor : ℤ)
  | opening (desk : Desk) (tenantId : ℤ) (id : ℕ) (cardUserId : ℤ) (status : Status)
    (amountMinor : ℤ)
  | moving (desk : Desk) (tenantId : ℤ) (id : ℕ) (status : Status) (amountMinor : ℤ)
    (walletId : ℕ)
  | compensating (desk : Desk) (tenantId : ℤ) (id : ℕ)
  | linking (desk : Desk) (tenantId : ℤ) (id : ℕ) (transactionId : ℕ)
  | ended

structure World where
  books : Books
  requests : Desk → Requests
  phase : ℕ → Phase

def World.initial : World := ⟨.empty, fun _ => .empty, fun _ => .ended⟩

namespace World

def setPhase (w : World) (c : ℕ) (p : Phase) : World :=
  { w with phase := Function.update w.phase c p }

def setRequests (w : World) (desk : Desk) (t : Requests) : World :=
  { w with requests := Function.update w.requests desk t }

def request (w : World) (desk : Desk) (id : ℕ) : Option Request := (w.requests desk).get? id

/-- `WHERE tenant_id=? AND id=?` -/
def get (w : World) (desk : Desk) (tenantId : ℤ) (id : ℕ) : Option Request :=
  (w.request desk id).filter fun r => r.tenantId = tenantId

end World

def ofRequest (tenantId : ℤ) (id : ℕ) (r : Request) : Bool :=
  r.tenantId = tenantId && r.id = id

def pendingOf (tenantId : ℤ) (id : ℕ) (r : Request) : Bool :=
  ofRequest tenantId id r && r.status = .pending

def World.updateRequests (w : World) (desk : Desk) (p : Request → Bool) (f : Request → Request)
    (hf : ∀ r, (f r).id = r.id) : World :=
  w.setRequests desk ((w.requests desk).update p f hf)

def wallet (defaultCurrency : String) (faults : Faults) (tenantId cardUserId : ℤ)
    (books : Books) : Option Wallet × Books :=
  walletOf defaultCurrency faults tenantId "card_user" cardUserId books

def Status.text : Status → String
  | .pending => "pending"
  | .confirmed => "confirmed"
  | .adjusted => "adjusted"
  | .rejected => "rejected"

def Desk.metadata (desk : Desk) (id : ℕ) (status : Status) : List (String × Json) :=
  match desk with
  | .deposit => [("deposit_request_id", .number (toString id) (id = 0)),
    ("status", .str status.text)]
  | .withdrawal => [("withdrawal_request_id", .number (toString id) (id = 0))]

def movementOf (desk : Desk) (tenantId : ℤ) (id : ℕ) (status : Status) (amountMinor : ℤ)
    (walletId : ℕ) : Movement where
  tenantId
  walletId
  amount := minorToMoney amountMinor
  transactionType := desk.transactionType
  referenceType := desk.referenceType
  referenceId := some id
  metadata := desk.metadata id status

def createRequest (w : World) (defaultCurrency : String) (faults : Faults) (desk : Desk)
    (tenantId cardUserId : ℤ) (amount : Amount) : World :=
  match moneyToMinor amount with
  | .error _ => w
  | .ok amountMinor =>
    let insert (w : World) : World := w.setRequests desk ((w.requests desk).insert
      (fun id => { id, tenantId, cardUserId, amountMinor }) fun _ => rfl)
    if amountMinor ≤ 0 then w
    else
      match desk with
      | .deposit => insert w
      | .withdrawal =>
        match wallet defaultCurrency faults tenantId cardUserId w.books with
        | (none, books) => { w with books }
        | (some found, books) =>
          if found.balanceMinor < amountMinor then { w with books } else insert { w with books }

def reject (w : World) (desk : Desk) (tenantId : ℤ) (id : ℕ) : World :=
  w.updateRequests desk (pendingOf tenantId id) (fun r => { r with status := .rejected })
    fun _ => rfl

/-- The next step of the `confirm` of call `c`. A wallet call may fail in `faults`; a read, the
claim or the link raises when `raises` says so. -/
def World.next (w : World) (defaultCurrency : String) (c : ℕ) (faults : Faults)
    (raises : Bool) : World :=
  match w.phase c with
  | .reading desk tenantId id confirmedAmount =>
    if raises then w.setPhase c .ended
    else
      match w.get desk tenantId id with
      | none => w.setPhase c .ended
      | some r =>
        if r.status ≠ .pending then w.setPhase c .ended
        else
          match desk.settlement r confirmedAmount with
          | none => w.setPhase c .ended
          | some (status, amountMinor) =>
            w.setPhase c (.claiming desk tenantId id r.cardUserId status amountMinor)
  | .claiming desk tenantId id cardUserId status amountMinor =>
    if raises then w.setPhase c .ended
    else
      let claimed := (w.get desk tenantId id).any fun r => r.status = .pending
      let w := w.updateRequests desk (pendingOf tenantId id) (desk.claimed status amountMinor)
        fun r => desk.claimed_id status amountMinor r
      if claimed then w.setPhase c (.opening desk tenantId id cardUserId status amountMinor)
      else w.setPhase c .ended
  | .opening desk tenantId id cardUserId status amountMinor =>
    match wallet defaultCurrency faults tenantId cardUserId w.books with
    | (none, books) => { w with books }.setPhase c (.compensating desk tenantId id)
    | (some found, books) =>
      { w with books }.setPhase c (.moving desk tenantId id status amountMinor found.id)
  | .moving desk tenantId id status amountMinor walletId =>
    match perform faults.sqlite (changeBalance defaultCurrency
      (movementOf desk tenantId id status amountMinor walletId)) w.books with
    | (.error _, books) => { w with books }.setPhase c (.compensating desk tenantId id)
    | (.ok ids, books) => { w with books }.setPhase c (.linking desk tenantId id ids.1)
  | .compensating desk tenantId id =>
    (w.updateRequests desk (ofRequest tenantId id) desk.reopened desk.reopened_id).setPhase c .ended
  | .linking desk tenantId id transactionId =>
    if raises then w.setPhase c .ended
    else
      (w.updateRequests desk (ofRequest tenantId id)
        (fun r => { r with walletTransactionId := some transactionId }) fun _ => rfl).setPhase c
        .ended
  | .ended => w

/-- What happens next. `wallet` is a call of the wallet service by anyone else, who is free in the
reference that he gives. -/
inductive Event
  | create (desk : Desk) (tenantId cardUserId : ℤ) (amount : Amount) (defaultCurrency : String)
    (faults : Faults)
  | confirm (c : ℕ) (desk : Desk) (tenantId : ℤ) (id : ℕ) (confirmedAmount : Option Amount)
  | next (c : ℕ) (defaultCurrency : String) (faults : Faults) (raises : Bool)
  | reject (desk : Desk) (tenantId : ℤ) (id : ℕ)
  | wallet (call : Call)

def step (w : World) : Event → World
  | .create desk tenantId cardUserId amount defaultCurrency faults =>
    createRequest w defaultCurrency faults desk tenantId cardUserId amount
  | .confirm c desk tenantId id confirmedAmount =>
    match w.phase c with
    | .ended => w.setPhase c (.reading desk tenantId id confirmedAmount)
    | _ => w
  | .next c defaultCurrency faults raises => w.next defaultCurrency c faults raises
  | .reject desk tenantId id => reject w desk tenantId id
  | .wallet call => { w with books := BusinessOs.step w.books call }

end RadiusModule.Store
