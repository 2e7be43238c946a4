import RadiusModule.Services.Accounting.Service
import RadiusModule.Services.Users.Terms

/-!
# The actions that move a subscriber's balance

The actions of `UsersService` as programs over the accounting books, where the
accounts of all subscribers stand beside their ledger, and the two voids of
the accounting service. What an action reads besides is given: the plans, the
names of the cards, the rules of the fields and those of the quotas. The
quotas that it writes, its audit and its notices are left out.
-/

namespace RadiusModule.SubscriberWallet
open Library Connection PyText
open Accounting hiding Env Op Call execute step
open Users (PlanRow ChargeMode Charge ExpiryTerms chargeAmount requirePaidBalance)

structure Draft where
  username : String
  planId : Option ℕ := none
  customPrice : ℚ := 0
  managerId : Option ℕ := none
  status : String := statusEnabled
  expireAt : Option ℤ := none
  balance : ℚ := 0
  deleted : Bool := false
deriving DecidableEq

def Draft.account (d : Draft) : Account where
  id := 0
  username := d.username
  planId := d.planId
  customPrice := d.customPrice
  managerId := d.managerId
  status := d.status
  expireAt := d.expireAt
  balance := roundMoney d.balance
  deleted := d.deleted

def Draft.ofAccount (a : Account) : Draft where
  username := a.username
  planId := a.planId
  customPrice := a.customPrice
  managerId := a.managerId
  status := a.status
  expireAt := a.expireAt
  balance := a.balance / 100
  deleted := a.deleted

structure Topup where
  quotaMb : ℤ
  target : String := "combined"
  window : String := "auto"

/-- The surroundings of one call. `cardNamed` tells the lower-case names of the cards,
`fieldsRefused` the rules of the fields, and the last two what the quotas allow. -/
structure Env where
  cfg : Users.Settings := {}
  now : ℤ
  faults : Accounting.Faults := {}
  cardNamed : String → Bool := fun _ => false
  fieldsRefused : Option Account → Draft → Bool := fun _ _ => false
  dailyResetApplicable : Account → Bool := fun _ => true
  topupRefused : Account → Topup → Bool := fun _ _ => false

def Env.accounting (env : Env) : Accounting.Env where
  toSettings := env.cfg.toSettings
  now := env.now
  expiryLimit := env.cfg.expiryLimit
  faults := env.faults

def getAccount (username : String) (next : Account → Tx) : Tx :=
  .statement .select fun b =>
    match b.accounts.get username with
    | none => .raise .notFound
    | some u => next u

/-- `upsert_account`; a row that is archived by it is not read back, and its caller raises. -/
def upsertAccount (account : Account) (next : Account → Tx) : Tx :=
  .statement (.upsertAccount account) fun b =>
    match b.accounts.get account.username with
    | none => .raise .database
    | some saved => next saved

def orRaise {α : Type} (terms : Except Error α) (next : α → Tx) : Tx :=
  match terms with
  | .error e => .raise e
  | .ok a => next a

/-- `_record_subscriber_ledger` -/
def recordLedger (subscriber : Account) (cents : ℤ) (currency : String) (posting : Posting)
    (next : Tx) : Tx :=
  .transaction (.statement (.createLedgerEntry (posting.entry subscriber cents currency)) fun _ =>
    .ret .done) fun _ => next

def recordManualBalanceChange (env : Env) (old : ℤ) (saved : Account) (next : Tx) : Tx :=
  let delta := saved.balance - old
  if delta = 0 then next
  else recordLedger saved |delta| env.cfg.defaultCurrency
    (.manualBalance (if 0 < delta then .credit else .debit)) next

def allowedChar (c : Char) : Bool :=
  'a' ≤ c && c ≤ 'z' || 'A' ≤ c && c ≤ 'Z' || '0' ≤ c && c ≤ '9' || ['.', '_', '@', '-'].contains c

/-- `_validate_new_username`; the end of the pattern also stands before a line break that ends the
text. -/
def validNewUsername (username : String) : Bool :=
  let cs := username.toList
  let body := if cs.getLast? = some '\n' then cs.dropLast else cs
  body ≠ [] && body.length ≤ 64 && body.all allowedChar && 3 ≤ cs.length

/-- `trim` of the database, which knows only the blank. -/
def trim (text : String) : String :=
  String.ofList ((text.toList.dropWhile (· = ' ')).rdropWhile (· = ' '))

def usernameInUse (env : Env) (b : Books) (username : String) : Bool :=
  let name := lower (strip username)
  name ≠ "" && ((b.accounts.table.rows.any fun a => lower (trim a.username) = name && !a.deleted) ||
    env.cardNamed name)

def usernameArchived (b : Books) (username : String) : Bool :=
  let name := lower (strip username)
  name ≠ "" && b.accounts.table.rows.any fun a => lower (trim a.username) = name && a.deleted

def create (env : Env) (d : Draft) : Tx :=
  if d.username = "" ∨ validNewUsername d.username = false then .raise .validation
  else
    .statement .select fun b =>
      if usernameInUse env b d.username ∨ usernameArchived b d.username then .raise .conflict
      else if env.fieldsRefused none d then .raise .validation
      else upsertAccount d.account fun saved => recordManualBalanceChange env 0 saved (.ret .done)

/-- The row with the fields in which `d` differs from `base`. -/
def rebase (base d row : Draft) : Draft where
  username := row.username
  planId := if base.planId ≠ d.planId then d.planId else row.planId
  customPrice := if base.customPrice ≠ d.customPrice then d.customPrice else row.customPrice
  managerId := if base.managerId ≠ d.managerId then d.managerId else row.managerId
  status := if base.status ≠ d.status then d.status else row.status
  expireAt := if base.expireAt ≠ d.expireAt then d.expireAt else row.expireAt
  balance := if base.balance ≠ d.balance then d.balance else row.balance
  deleted := if base.deleted ≠ d.deleted then d.deleted else row.deleted

/-- What `update` writes; a missing end stays as it is, unless it is cleared. -/
def submitted (existing : Option Account) (base : Option Draft) (d : Draft) (clearExpiry : Bool) :
    Draft :=
  let edited :=
    match existing, base with
    | some row, some base => rebase base d (.ofAccount row)
    | _, _ => d
  { edited with
    expireAt :=
      if clearExpiry then none
      else edited.expireAt <|> existing.bind Account.expireAt }

def expiryEdited (row : Account) (base : Option Draft) (d edit : Draft) : Bool :=
  match base with
  | some base => d.expireAt.isSome && base.expireAt ≠ d.expireAt
  | none => row.expireAt ≠ edit.expireAt

def validateEdit (env : Env) (existing : Option Account) (base : Option Draft) (d edit : Draft) :
    Except Error Unit :=
  if edit.username = "" ∨ env.fieldsRefused existing edit then .error .validation
  else
    match existing, edit.expireAt with
    | some row, some new =>
      if expiryEdited row base d edit then
        Users.validateExpiryJump env.cfg env.now row.expireAt new
      else .ok ()
    | _, _ => .ok ()

/-- `update` after its lookup; `stale` tells the rows of another version than the caller's. -/
def saveEdit (env : Env) (existing : Option Account) (base : Option Draft) (d : Draft)
    (clearExpiry : Bool) (stale : Account → Bool) : Tx :=
  if existing.any stale then .raise .conflict
  else if base.isSome ∧ existing.isNone then .raise .conflict
  else
    let edit := submitted existing base d clearExpiry
    orRaise (validateEdit env existing base d edit) fun _ =>
    upsertAccount edit.account fun saved =>
      match existing with
      | none => .ret .done
      | some row => recordManualBalanceChange env row.balance saved (.ret .done)

/-- `update`; a lookup that fails counts as no row, and the second one stands for the value of the
first. -/
def update (env : Env) (base : Option Draft) (d : Draft) (clearExpiry : Bool)
    (stale : Account → Bool) : Tx :=
  .attempt (.statement .select fun _ => .ret .done) fun
  | .ok _ =>
    .statement .select fun b =>
      saveEdit env (b.accounts.get d.username) base d clearExpiry stale
  | .error _ => saveEdit env none base d clearExpiry stale

def addCashBalance (env : Env) (username : String) (amount : ℚ) (currency : String)
    (settledDeduction : ℚ) : Tx :=
  orRaise (Users.cashTerms env.cfg amount currency settledDeduction) fun terms =>
  getAccount username fun u =>
  upsertAccount { u with balance := u.balance + terms.credit } fun saved =>
  if 0 < terms.credit then recordLedger saved terms.credit terms.currency .cashBalance (.ret .done)
  else .ret .done

/-- `apply_payment_to_balance`: a debt moves towards zero and not beyond. -/
def applyPaymentToBalance (env : Env) (username : String) (amount : ℚ) (paymentId : Option ℕ) :
    Tx :=
  if amount ≤ 0 then .ret .done
  else
    getAccount username fun u =>
    let settle := Binary64.roundHalfEven (min (amount * 100) (max (-u.balance) 0 : ℤ))
    if settle ≤ 0 then .ret .done
    else
      upsertAccount { u with balance := u.balance + settle } fun saved =>
      recordLedger saved settle env.cfg.defaultCurrency (.balanceSettlement paymentId) (.ret .done)

/-- A charge of an action, which is entered under `posting`. -/
def charge (mode : ChargeMode) (cents : ℤ) (currency : String) (posting : Posting)
    (u : Account) : Tx :=
  let charged := mode ≠ .free
  upsertAccount { u with balance := if charged then u.balance - cents else u.balance } fun saved =>
  if charged then recordLedger saved cents currency posting (.ret .done) else .ret .done

def commitExpiry (u : Account) (terms : ExpiryTerms) : Tx :=
  charge terms.mode terms.cents terms.currency (.timeExtension (terms.mode = .debt) terms.minutes)
    { u with expireAt := some terms.newExpire }

def extendTime (env : Env) (username : String) (minutes : ℤ) (c : Charge) : Tx :=
  getAccount username fun u =>
  orRaise (Users.extendTerms env.cfg env.now u.expireAt (u.balance / 100) minutes c) fun terms =>
  commitExpiry u terms

def setExpiry (env : Env) (username : String) (expireAt : ℤ) (c : Charge) : Tx :=
  getAccount username fun u =>
  orRaise (Users.setExpiryTerms env.cfg env.now u.expireAt (u.balance / 100) expireAt c)
    fun terms =>
  commitExpiry u terms

structure QuotaTerms where
  mode : ChargeMode
  cents : ℤ
  currency : String

def quotaTerms (env : Env) (c : Charge) : Except Error QuotaTerms := do
  let currency ← normalizeCurrency env.cfg.toSettings c.currency ""
  let mode ← ChargeMode.ofText c.mode
  let cents ← chargeAmount env.cfg mode c.amount
  pure { mode, cents, currency }

def resetDailyQuota (env : Env) (username : String) (c : Charge) : Tx :=
  orRaise (quotaTerms env c) fun terms =>
  getAccount username fun u =>
  if env.dailyResetApplicable u = false then .raise .validation
  else
    orRaise (requirePaidBalance (u.balance / 100) terms.cents terms.mode) fun _ =>
    charge terms.mode terms.cents terms.currency (.dailyQuotaReset (terms.mode = .debt)) u

def quotaTargets : List String := ["combined", "download", "upload"]
def quotaWindows : List String := ["auto", "total", "monthly", "daily"]

def addQuota (env : Env) (username : String) (topup : Topup) (c : Charge) : Tx :=
  orRaise (quotaTerms env c) fun terms =>
  let window := lower (strip (if topup.window = "" then "auto" else topup.window))
  if topup.quotaMb ≤ 0 ∨ topup.target ∉ quotaTargets ∨ window ∉ quotaWindows then
    .raise .validation
  else
    getAccount username fun u =>
    if env.topupRefused u { topup with window } then .raise .validation
    else
      orRaise (requirePaidBalance (u.balance / 100) terms.cents terms.mode) fun _ =>
      charge terms.mode terms.cents terms.currency (.quotaTopup (terms.mode = .debt)) u

def changePlan (env : Env) (username : String) (planId : ℕ) (policy : String) : Tx :=
  getAccount username fun u =>
  orRaise (Users.planChangeTerms env.cfg env.now u.planId u.expireAt planId policy) fun terms =>
  upsertAccount { u with
      planId := some planId
      expireAt := terms.newExpire
      balance := u.balance - terms.debt } fun saved =>
  if 0 < terms.debt then
    recordLedger saved terms.debt env.cfg.defaultCurrency .planChange (.ret .done)
  else .ret .done

inductive Op
  | create (d : Draft)
  | update (base : Option Draft) (d : Draft) (clearExpiry : Bool) (stale : Account → Bool)
  | changePlan (username : String) (planId : ℕ) (policy : String)
  | resetDailyQuota (username : String) (c : Charge)
  | addQuota (username : String) (topup : Topup) (c : Charge)
  | addCashBalance (username : String) (amount : ℚ) (currency : String) (settledDeduction : ℚ)
  | applyPaymentToBalance (username : String) (amount : ℚ) (paymentId : Option ℕ)
  | extendTime (username : String) (minutes : ℤ) (c : Charge)
  | setExpiry (username : String) (expireAt : ℤ) (c : Charge)
  | voidLedger (entryId : ℕ)
  | voidPayment (paymentId : ℕ)

def Op.body (env : Env) : Op → Tx
  | .create d => SubscriberWallet.create env d
  | .update base d clearExpiry stale => SubscriberWallet.update env base d clearExpiry stale
  | .changePlan username planId policy => SubscriberWallet.changePlan env username planId policy
  | .resetDailyQuota username c => SubscriberWallet.resetDailyQuota env username c
  | .addQuota username topup c => SubscriberWallet.addQuota env username topup c
  | .addCashBalance username amount currency settledDeduction =>
    SubscriberWallet.addCashBalance env username amount currency settledDeduction
  | .applyPaymentToBalance username amount paymentId =>
    SubscriberWallet.applyPaymentToBalance env username amount paymentId
  | .extendTime username minutes c => SubscriberWallet.extendTime env username minutes c
  | .setExpiry username expireAt c => SubscriberWallet.setExpiry env username expireAt c
  | .voidLedger entryId => Accounting.voidLedger env.accounting entryId
  | .voidPayment paymentId => Accounting.voidPayment env.accounting paymentId

structure Call where
  op : Op
  env : Env

def execute (b : Books) (c : Call) : Except Error Reply × Books :=
  perform c.env.faults.sqlite (.transaction (c.op.body c.env) .ret) b

def step (b : Books) (c : Call) : Books := (execute b c).2

end RadiusModule.SubscriberWallet
