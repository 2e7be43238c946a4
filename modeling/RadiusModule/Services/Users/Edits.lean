import RadiusModule.Core.Connection
import RadiusModule.Services.Accounting.Service
import RadiusModule.Services.Users.Rows

/-!
# The actions on one subscriber

Each action of `UsersService` is one block of the connection: it reads the row
under the lock, and writes the whole row or some columns of it. The store has
what the actions read and write of one subscriber.
-/

namespace RadiusModule.Users
open Library PyText Connection
open Accounting (Posting)

structure LedgerRow where
  posting : Posting
  cents : ℤ
  currency : String

structure Store where
  row : Option Row
  quota : Option QuotaPeriod.QuotaState := none
  ledger : List LedgerRow := []
  auditLog : List String := []

def Store.account (st : Store) : Option Subscriber :=
  (st.row.map Row.value).filter fun row => row.deletedAt.isNone

inductive EditError
  | staleEdit
  | attributeError
  | service (e : Accounting.Error)

inductive Statement
  | select
  | upsert (s : Subscriber) (only : Option (Field → Bool)) (newId now : ℤ)
  | restoreQuota (o : QuotaPeriod.Override)
  | saveQuotaState (state : Option QuotaPeriod.QuotaState)
  | createLedgerEntry (row : LedgerRow)
  | audit (action : String)

/-- `upsert_subscriber` -/
def Store.upsert (st : Store) (s : Subscriber) (only : Option (Field → Bool)) (newId now : ℤ) :
    Store :=
  { st with row := some (match st.row with
      | some row => row.overwrite s (only.getD fun _ => true) now
      | none => .insert s newId now) }

def Store.apply (st : Store) : Statement → Store
  | .select => st
  | .upsert s only newId now => st.upsert s only newId now
  | .restoreQuota o => { st with row := st.row.map (·.withQuota o) }
  | .saveQuotaState quota => { st with quota }
  | .createLedgerEntry row => { st with ledger := st.ledger ++ [row] }
  | .audit action => { st with auditLog := st.auditLog ++ [action] }

structure Faults where
  statement : Statement → Store → Option Accounting.Error := fun _ _ => none
  atBegin : Store → Option Accounting.Error := fun _ => none
  atCommit : Store → Option Accounting.Error := fun _ => none

def Faults.sqlite (faults : Faults) : Sqlite Store Statement EditError where
  write w st :=
    match faults.statement w st with
    | some e => .error (.service e)
    | none => .ok (st.apply w)
  beginRaises st := (faults.atBegin st).map .service
  commitRaises st := (faults.atCommit st).map .service

abbrev VersionField := { f : Field // f ∉ Field.versionSkip }

def versioned : (f : Field) → f.kind.Value → f.kind.Value
  | .expireAt, v => Option.map floorSecond v
  | .deletedAt, v => Option.map floorSecond v
  | .balance, v => (Binary64.roundHalfEven (v * 10000) : ℚ) / 10000
  | .customPrice, v => (Binary64.roundHalfEven (v * 10000) : ℚ) / 10000
  | _, v => v

abbrev Snapshot := (f : VersionField) → f.1.kind.Value

def snapshot (s : Subscriber) : Snapshot := fun f => versioned f.1 (s f.1)

/-- The surroundings of a call, which reads the clock once. `digest` is the hash of the version,
and `fieldsRefused` the rules of `validate_subscriber_fields`. -/
structure Env (ν : Type) where
  cfg : Settings := {}
  now : ℤ
  newId : ℤ := 1
  digest : Snapshot → ν
  fieldsRefused : Subscriber → (Field → Bool) → Bool := fun _ _ => false
  radacct : RadacctTable
  faults : Faults := {}

variable {ν : Type} [DecidableEq ν]

inductive Reply
  | account (found : Option Subscriber)
  | done (restored : Option QuotaPeriod.Override)

abbrev Tx := Prog Store Statement Empty EditError Reply

def raise (e : Accounting.Error) : Tx := .raise (.service e)

def orRaise {α : Type} (terms : Except Accounting.Error α) (next : α → Tx) : Tx :=
  match terms with
  | .error e => raise e
  | .ok a => next a

def getAccount (next : Subscriber → Tx) : Tx :=
  .statement .select fun st =>
    match st.account with
    | none => raise .notFound
    | some u => next u

/-- `upsert_account`; a row that is archived by it is not read back. -/
def upsertAccount (env : Env ν) (s : Subscriber) (only : Option (Field → Bool))
    (next : Subscriber → Tx) : Tx :=
  .statement (.upsert s only env.newId env.now) fun st =>
    match st.account with
    | none => .raise .attributeError
    | some saved => next saved

def audited (action : String) (restored : Option QuotaPeriod.Override) : Tx :=
  .attempt (.statement (.audit action) fun _ => .ret (.done none)) fun _ => .ret (.done restored)

def quotaAccount (row : Subscriber) (quota : Option QuotaPeriod.QuotaState) :
    QuotaPeriod.Account where
  tenantId := row .tenantId
  username := row .username
  override := row.quotaOverride
  state := quota

def newPeriod (env : Env ν) (reason : String) : Tx :=
  .statement .select fun st =>
  match st.row.map fun row => quotaAccount row.value st.quota with
  | none => .ret (.done none)
  | some account =>
    let state := (QuotaPeriod.startNewPeriod env.radacct env.now reason account).state
    match QuotaPeriod.restored account with
    | none => .statement (.saveQuotaState state) fun _ => .ret (.done none)
    | some o =>
      .statement (.restoreQuota o) fun _ =>
      .attempt (.statement (.saveQuotaState state) fun _ => .ret (.done none)) fun _ =>
      .ret (.done (some o))

/-- Its failures are only logged; `next` is told of an override that was put back. -/
def startNewPeriod (env : Env ν) (u : Subscriber) (reason : String)
    (next : Option QuotaPeriod.Override → Tx) : Tx :=
  if u.id.all (· = 0) then next none
  else
    .attempt (newPeriod env reason) fun
    | .ok (.done restored) => next restored
    | _ => next none

def planIdOf (u : Subscriber) : Option ℕ := (u.planId.map Int.toNat).filter (0 < ·)

def onTimeAdded (env : Env ν) (before : Subscriber) (newExpire minutes : ℤ) (reason : String)
    (next : Option QuotaPeriod.Override → Tx) : Tx :=
  if before.userType = "card" ∨ before.cardBatchId.any (· ≠ 0) then next none
  else if isRenewal env.now before.expireAt newExpire minutes
      ((planIdOf before).bind env.cfg.plans) then
    startNewPeriod env before reason next
  else next none

def blank (text : String) : Bool := strip text = ""

def changedFields (before after : Subscriber) (f : Field) : Bool :=
  f ∉ Field.notEditable && before f ≠ after f

def subscriberVersion (env : Env ν) (s : Subscriber) : ν := env.digest (snapshot s)

structure Edit where
  sub : Subscriber
  changed : Option (Field → Bool) := none

def Subscriber.pick (changed : Field → Bool) (sub row : Subscriber) : Subscriber :=
  fun f => if changed f then sub f else row f

def rebase (existing base : Option Subscriber) (sub : Subscriber) (clearExpiry : Bool) : Edit :=
  match existing, base with
  | some row, some base =>
    let changed f := changedFields base sub f || clearExpiry && f = .expireAt
    let edited := Subscriber.pick changed sub row
    { sub := if clearExpiry then edited.set .expireAt none else edited
      changed := some changed }
  | _, _ => { sub := if clearExpiry then sub.set .expireAt none else sub }

def Edit.keep (e : Edit) (row : Subscriber) (f : Field) : Edit where
  sub := e.sub.set f (row f)
  changed := e.changed.map fun changed g => changed g && g ≠ f

def keepPassword (existing : Option Subscriber) (e : Edit) : Edit :=
  match existing with
  | some row => if blank e.sub.password ∧ ¬blank row.password then e.keep row .password else e
  | none => e

def keepExpiry (existing : Option Subscriber) (clearExpiry : Bool) (e : Edit) : Edit :=
  match existing with
  | some row =>
    if e.sub.expireAt.isNone ∧ row.expireAt.isSome ∧ ¬clearExpiry then e.keep row .expireAt else e
  | none => e

def submitted (existing base : Option Subscriber) (sub : Subscriber) (clearExpiry : Bool) : Edit :=
  keepExpiry existing clearExpiry (keepPassword existing (rebase existing base sub clearExpiry))

def userTypes : List String := ["subscriber", "card", "trial"]

/-- `_validate`, the rules of the fields, and the jump of the end. -/
def validateEdit (env : Env ν) (existing : Option Subscriber) (e : Edit) :
    Except Accounting.Error Unit :=
  let sub := e.sub
  if sub.userType ∉ userTypes ∨ sub .username = "" then .error .validation
  else
    match existing with
    | none => if env.fieldsRefused sub fun _ => true then .error .validation else .ok ()
    | some row =>
      let fields := e.changed.getD (changedFields row sub)
      if env.fieldsRefused sub fields then .error .validation
      else
        match sub.expireAt with
        | none => .ok ()
        | some new =>
          if fields .expireAt then validateExpiryJump env.cfg env.now row.expireAt new else .ok ()

def recordManualBalanceChange (env : Env ν) (before saved : Subscriber) (next : Tx) : Tx :=
  let delta := Accounting.roundMoney saved.balance - Accounting.roundMoney before.balance
  if delta = 0 then next
  else
    .statement (.createLedgerEntry
      { posting := .manualBalance (if 0 < delta then .credit else .debit)
        cents := |delta|
        currency := env.cfg.defaultCurrency }) fun _ => next

def saveEdit (env : Env ν) (existing base : Option Subscriber) (sub : Subscriber)
    (clearExpiry : Bool) (expectedVersion : Option ν) : Tx :=
  if existing.any fun row => expectedVersion.any (· ≠ subscriberVersion env row) then
    .raise .staleEdit
  else if base.isSome ∧ existing.isNone then raise .conflict
  else
    let edit := submitted existing base sub clearExpiry
    orRaise (validateEdit env existing edit) fun _ =>
    upsertAccount env edit.sub edit.changed fun saved =>
      match existing with
      | none => audited "update" none
      | some row => recordManualBalanceChange env row saved (audited "update" none)

def update (env : Env ν) (base : Option Subscriber) (sub : Subscriber) (clearExpiry : Bool)
    (expectedVersion : Option ν) : Tx :=
  .attempt (.statement .select fun st => .ret (.account st.account)) fun
  | .ok (.account existing) => saveEdit env existing base sub clearExpiry expectedVersion
  | _ => saveEdit env none base sub clearExpiry expectedVersion

def commitExpiry (env : Env ν) (u : Subscriber) (terms : ExpiryTerms) (action : String) : Tx :=
  let charged := terms.mode ≠ .free
  let newBalance := if charged then u.balance - (terms.cents : ℚ) / 100 else u.balance
  upsertAccount env ((u.set .expireAt (some terms.newExpire)).set .balance newBalance) none
    fun _ =>
  onTimeAdded env u terms.newExpire terms.minutes action fun restored =>
  if charged then
    .statement (.createLedgerEntry
      { posting := .timeExtension (terms.mode = .debt) terms.minutes
        cents := terms.cents
        currency := terms.currency }) fun _ => audited action restored
  else audited action restored

def extendTime (env : Env ν) (minutes : ℤ) (charge : Charge) : Tx :=
  getAccount fun u =>
  orRaise (extendTerms env.cfg env.now u.expireAt u.balance minutes charge) fun terms =>
  commitExpiry env u terms "extend_time"

def setExpiry (env : Env ν) (expireAt : ℤ) (charge : Charge) : Tx :=
  getAccount fun u =>
  orRaise (setExpiryTerms env.cfg env.now u.expireAt u.balance expireAt charge) fun terms =>
  commitExpiry env u terms "set_expiry"

def addCashBalance (env : Env ν) (amount : ℚ) (currency : String) (settledDeduction : ℚ) : Tx :=
  orRaise (cashTerms env.cfg amount currency settledDeduction) fun terms =>
  getAccount fun u =>
  upsertAccount env (u.set .balance (u.balance + (terms.credit : ℚ) / 100)) none fun _ =>
  let finish := audited "subscriber.cash_balance_add" none
  if 0 < terms.credit then
    .statement (.createLedgerEntry
      { posting := .cashBalance, cents := terms.credit, currency := terms.currency }) fun _ =>
    finish
  else finish

def changePlan (env : Env ν) (planId : ℕ) (policy : String) : Tx :=
  getAccount fun u =>
  orRaise (planChangeTerms env.cfg env.now (planIdOf u) u.expireAt planId policy) fun terms =>
  upsertAccount env (((u.set .planId (some (planId : ℤ))).set .expireAt terms.newExpire).set
    .balance (u.balance - (terms.debt : ℚ) / 100)) none fun saved =>
  startNewPeriod env saved "plan_change" fun restored =>
  let finish :=
    if 0 < terms.debt then
      .statement (.createLedgerEntry
        { posting := .planChange
          cents := terms.debt
          currency := env.cfg.defaultCurrency }) fun _ => audited "change_plan" restored
    else audited "change_plan" restored
  if restored.isSome then getAccount fun _ => finish else finish

def setStatus (env : Env ν) (status action : String) : Tx :=
  getAccount fun u =>
  upsertAccount env (u.set .status status) (some (· = .status)) fun _ => audited action none

def disable (env : Env ν) : Tx := setStatus env "disabled" "disable"
def enable (env : Env ν) : Tx := setStatus env "enabled" "enable"

inductive Op (ν : Type)
  | update (base sub : Subscriber) (clearExpiry : Bool) (expectedVersion : Option ν)
  | extendTime (minutes : ℤ) (charge : Charge)
  | setExpiry (expireAt : ℤ) (charge : Charge)
  | addCashBalance (amount : ℚ) (currency : String) (settledDeduction : ℚ)
  | changePlan (planId : ℕ) (policy : String)
  | disable
  | enable

def Op.body (env : Env ν) : Op ν → Tx
  | .update base sub clearExpiry expectedVersion =>
    Users.update env (some base) sub clearExpiry expectedVersion
  | .extendTime minutes charge => Users.extendTime env minutes charge
  | .setExpiry expireAt charge => Users.setExpiry env expireAt charge
  | .addCashBalance amount currency settledDeduction =>
    Users.addCashBalance env amount currency settledDeduction
  | .changePlan planId policy => Users.changePlan env planId policy
  | .disable => Users.disable env
  | .enable => Users.enable env

def Op.program (env : Env ν) (op : Op ν) : Tx := .transaction (op.body env) .ret

structure Call (ν : Type) where
  op : Op ν
  env : Env ν

def execute (st : Store) (c : Call ν) : Except EditError Reply × Store :=
  perform c.env.faults.sqlite (c.op.program c.env) st

def step (st : Store) (c : Call ν) : Store := (execute st c).2

end RadiusModule.Users
