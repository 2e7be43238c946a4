import RadiusModule.Library.Run
import RadiusModule.Services.Accounting.Service

/-!
# The currencies of the loans

A loan gets the currency of the system when it is made, and no statement of
the service changes it, so every loan that the service has made has a currency
that it reads again without raising.
-/

namespace RadiusModule.Accounting
open Library Connection PyText

/-- A currency that `normalize_currency` accepts under any settings. -/
def Supported (currency : String) : Prop :=
  upper (strip currency) = "" ∨ upper (strip currency) ∈ currencySymbols

def Statement.supported : Statement → Prop
  | .createLoan l => Supported l.currency
  | _ => True

section
variable {cfg : Settings} {env : Env}

theorem normalizeCurrency_of_supported {currency : String} (h : Supported currency)
    (cfg : Settings) : ∃ code, normalizeCurrency cfg currency "" = .ok code := by
  simp only [normalizeCurrency]
  rcases h with h | h
  · exact ⟨_, if_pos h⟩
  · split_ifs
    · exact ⟨_, rfl⟩
    · exact ⟨_, rfl⟩

theorem upper_strip_symbol {code : String} (h : code ∈ currencySymbols) :
    upper (strip code) = code := by
  simp only [currencySymbols, List.mem_cons, List.not_mem_nil, or_false] at h
  rcases h with rfl | rfl | rfl | rfl | rfl | rfl | rfl | rfl | rfl <;> decide

theorem upper_strip_blank : upper (strip "") = "" := by decide

theorem supported_default {code : String}
    (h : normalizeCurrency cfg cfg.defaultCurrency "" = .ok code) : Supported code := by
  unfold normalizeCurrency at h
  by_cases hblank : upper (strip cfg.defaultCurrency) = ""
  · simp only [hblank, if_true, String.toList_empty, List.take_nil, Except.ok.injEq] at h
    rw [← h]
    exact .inl upper_strip_blank
  · simp only [if_neg hblank] at h
    by_cases hknown : upper (strip cfg.defaultCurrency) ∈ currencySymbols
    · rw [if_pos hknown] at h
      have hcode := Except.ok.inj h
      subst hcode
      exact .inr ((upper_strip_symbol hknown).symm ▸ hknown)
    · rw [if_neg hknown] at h
      cases h

abbrev Quiet (p : Tx) : Prop := p.Only Statement.supported

theorem quiet_audited {record : AuditRecord} {next : Tx} (h : Quiet next) :
    Quiet (audited record next) :=
  ⟨⟨True.intro, fun _ => True.intro⟩, fun _ => h⟩

theorem quiet_applyActivationMinutes {username : String} {minutes : ℤ} {source : ActionSource}
    {dryRun respectUnlimited : Bool} {next : Activation → Tx} (h : ∀ a, Quiet (next a)) :
    Quiet (applyActivationMinutes env username minutes source dryRun respectUnlimited next) := by
  unfold applyActivationMinutes
  split_ifs
  · exact True.intro
  · exact True.intro
  all_goals
    refine ⟨True.intro, fun b => ?_⟩
    dsimp only
    split
    · exact True.intro
    · split_ifs
      · exact h _
      · exact True.intro
      · first
        | exact h _
        | exact ⟨True.intro, fun _ => quiet_audited (h _)⟩

theorem quiet_revokeActivationMinutes {username : String} {minutes : ℤ} {source : ActionSource}
    {restoreUnlimited : Bool} {next : Tx} (h : Quiet next) :
    Quiet (revokeActivationMinutes env username minutes source restoreUnlimited next) := by
  unfold revokeActivationMinutes
  split_ifs
  · exact h
  all_goals
    refine ⟨True.intro, fun b => ?_⟩
    dsimp only
    split
    · exact True.intro
    · split
      · exact h
      · first
        | exact ⟨True.intro, fun _ => quiet_audited h⟩
        | split_ifs
          · exact h
          · exact ⟨True.intro, fun _ => quiet_audited h⟩

theorem quiet_shiftWallet {entry : LedgerEntry} {delta : ℤ} {next : Tx} (h : Quiet next) :
    Quiet (shiftWallet entry delta next) := by
  refine ⟨True.intro, fun b => ?_⟩
  dsimp only
  split
  · exact True.intro
  · exact ⟨True.intro, fun _ => h⟩

theorem quiet_createPayment (body : PaymentBody) : Quiet (createPayment env body) := by
  refine ⟨⟨True.intro, fun b => ?_⟩, fun _ => True.intro⟩
  dsimp only
  split
  · exact True.intro
  split
  · exact True.intro
  split_ifs
  · exact quiet_applyActivationMinutes fun _ => True.intro
  · exact True.intro
  · refine ⟨True.intro, fun b => quiet_applyActivationMinutes fun a => ?_⟩
    split_ifs
    · exact ⟨True.intro, fun _ => True.intro⟩
    · exact True.intro
  · exact ⟨True.intro, fun _ => True.intro⟩

theorem quiet_createLoan (body : LoanBody) : Quiet (createLoan env body) := by
  refine ⟨⟨True.intro, fun b => ?_⟩, fun _ => True.intro⟩
  dsimp only
  split
  · exact True.intro
  split
  · exact True.intro
  · exact True.intro
  · rename_i currency hcurrency
    split_ifs
    · exact quiet_applyActivationMinutes fun _ => True.intro
    · exact True.intro
    · refine ⟨supported_default hcurrency, fun b => quiet_applyActivationMinutes fun a => ?_⟩
      split_ifs
      · exact ⟨True.intro, fun _ => True.intro⟩
      · exact True.intro
    · exact ⟨supported_default hcurrency, fun _ => True.intro⟩

theorem quiet_settleLoan (loanId : ℕ) (body : SettlementBody) (subscriberId : Option ℕ) :
    Quiet (settleLoan env loanId body subscriberId) := by
  refine ⟨⟨True.intro, fun b => ?_⟩, fun _ => True.intro⟩
  dsimp only
  rcases b.getLoan loanId with _ | ⟨loan, settled, outstanding⟩
  · exact True.intro
  dsimp only
  by_cases hforeign : subscriberId.any (· ≠ loan.subscriberId) = true
  · rw [if_pos hforeign]
    exact True.intro
  by_cases hclosed : loan.status ≠ .open
  · rw [if_neg hforeign, if_pos hclosed]
    exact True.intro
  rw [if_neg hforeign, if_neg hclosed]
  rcases toFloat "amount" 0 (body.amount.getD 0) with _ | requested
  · exact True.intro
  dsimp only
  generalize (if roundMoney requested ≤ 0 then outstanding else roundMoney requested) = amount
  by_cases hcents : 0 < requested ∧ roundMoney requested ≤ 0
  · rw [if_pos hcents]
    exact True.intro
  by_cases hfree : loan.amount ≤ 0 ∧ 0 < roundMoney requested
  · rw [if_neg hcents, if_pos hfree]
    exact True.intro
  by_cases hover : outstanding < amount
  · rw [if_neg hcents, if_neg hfree, if_pos hover]
    exact True.intro
  rw [if_neg hcents, if_neg hfree, if_neg hover]
  rcases normalizeCurrency env.toSettings loan.currency "" with _ | loanCurrency
  · exact True.intro
  dsimp only
  rcases normalizeCurrency env.toSettings body.currency loanCurrency with _ | currency
  · exact True.intro
  dsimp only
  by_cases hother : currency ≠ loanCurrency
  · rw [if_pos hother]
    exact True.intro
  · rw [if_neg hother]
    exact ⟨True.intro, fun _ => True.intro⟩

theorem quiet_writeoffLoan (loanId : ℕ) : Quiet (writeoffLoan env loanId) := by
  refine ⟨⟨True.intro, fun b => ?_⟩, fun _ => True.intro⟩
  dsimp only
  split
  · exact True.intro
  split_ifs
  · exact True.intro
  split
  · exact True.intro
  · exact ⟨True.intro, fun _ => True.intro⟩

theorem quiet_resolveItems (subscriberId paymentId : Option ℕ) (items : List LoanAction) :
    ∀ total settledIds writeoffIds,
      Quiet (resolveItems env subscriberId paymentId items total settledIds writeoffIds) := by
  induction items with
  | nil => exact fun _ _ _ => trivial
  | cons item items ih =>
    intro total settledIds writeoffIds
    cases hid : item.loanId with
    | none =>
      simp only [resolveItems, hid]
      exact ih _ _ _
    | some loanId =>
      simp only [resolveItems, hid]
      refine ⟨True.intro, fun b => ?_⟩
      dsimp only
      rcases b.getLoan loanId with _ | ⟨loan, settled, outstanding⟩
      · exact ih _ _ _
      · dsimp only
        by_cases hskip : loan.status ≠ .open ∨ subscriberId.any (· ≠ loan.subscriberId)
        · rw [if_pos hskip]
          exact ih _ _ _
        rw [if_neg hskip]
        cases normalizeCurrency env.toSettings loan.currency "" with
        | error e => exact True.intro
        | ok currency =>
          dsimp only
          by_cases hsettle : item.action = "settle"
          · rw [if_pos hsettle]
            refine ⟨⟨True.intro, fun _ => True.intro⟩, fun r => ?_⟩
            rcases r with e | _
            · cases e <;> first | exact True.intro | exact ih _ _ _
            · exact ih _ _ _
          rw [if_neg hsettle]
          by_cases hwriteoff : item.action = "writeoff"
          · rw [if_pos hwriteoff]
            refine ⟨⟨True.intro, fun _ => True.intro⟩, fun r => ?_⟩
            rcases r with e | _
            · cases e <;> first | exact True.intro | exact ih _ _ _
            · exact ih _ _ _
          · rw [if_neg hwriteoff]
            exact ih _ _ _

theorem quiet_resolveLoanActions (actions : List LoanAction) (subscriberId : Option ℕ)
    (cash : Option ℤ) (paymentId : Option ℕ) :
    Quiet (resolveLoanActions env actions subscriberId cash paymentId) := by
  refine ⟨?_, fun _ => True.intro⟩
  split_ifs
  · exact quiet_resolveItems ..
  · refine ⟨True.intro, fun b => ?_⟩
    dsimp only
    split
    · exact True.intro
    · exact quiet_resolveItems ..

theorem quiet_reverseLoanSettlements (rows : List Settlement) {next : Tx} (h : Quiet next) :
    Quiet (reverseLoanSettlements rows next) := by
  induction rows with
  | nil => exact h
  | cons s rows ih =>
    refine ⟨True.intro, fun b => ?_⟩
    dsimp only
    split
    · exact ih
    split_ifs
    · exact ih
    · exact ⟨True.intro, fun _ => ih⟩

theorem quiet_reverseDebtSettlements (entries : List LedgerEntry) {next : Tx} (h : Quiet next) :
    Quiet (reverseDebtSettlements entries next) := by
  induction entries with
  | nil => exact h
  | cons entry entries ih => exact ⟨True.intro, fun _ => quiet_shiftWallet ih⟩

theorem quiet_voidPayment (paymentId : ℕ) : Quiet (voidPayment env paymentId) := by
  refine ⟨⟨True.intro, fun b => ?_⟩, fun _ => True.intro⟩
  dsimp only
  split
  · exact True.intro
  split_ifs
  · exact True.intro
  · refine ⟨True.intro, fun b => quiet_revokeActivationMinutes ⟨True.intro, fun b => ?_⟩⟩
    exact quiet_reverseLoanSettlements _
      ⟨True.intro, fun b => quiet_reverseDebtSettlements _ True.intro⟩

theorem quiet_voidLoanEntry (original : LedgerEntry) (loanId : ℕ) :
    Quiet (voidLoanEntry env original loanId) := by
  refine ⟨True.intro, fun b => ?_⟩
  dsimp only
  split
  · exact True.intro
  split_ifs
  · exact True.intro
  · exact True.intro
  · refine ⟨True.intro, fun b => ?_⟩
    dsimp only
    split_ifs
    · exact ⟨True.intro, fun _ => quiet_revokeActivationMinutes True.intro⟩
    · exact True.intro

theorem quiet_voidSettlementEntry (original : LedgerEntry) (settlementId : ℕ) :
    Quiet (voidSettlementEntry original settlementId) := by
  refine ⟨True.intro, fun b => ?_⟩
  dsimp only
  split
  · exact True.intro
  split_ifs
  · exact True.intro
  split
  · exact True.intro
  split_ifs
  · exact True.intro
  · exact ⟨True.intro, fun _ => True.intro⟩

theorem quiet_voidWriteoffEntry (original : LedgerEntry) (loanId : ℕ) :
    Quiet (voidWriteoffEntry original loanId) := by
  refine ⟨True.intro, fun b => ?_⟩
  dsimp only
  split
  · exact True.intro
  split_ifs
  · exact True.intro
  · exact ⟨True.intro, fun _ => ⟨True.intro, fun _ => True.intro⟩⟩

theorem quiet_voidOtherEntry (original : LedgerEntry) : Quiet (voidOtherEntry env original) := by
  refine ⟨True.intro, fun b => ?_⟩
  dsimp only
  split_ifs
  any_goals exact True.intro
  · exact quiet_shiftWallet (quiet_revokeActivationMinutes True.intro)
  · exact quiet_shiftWallet True.intro
  · exact quiet_shiftWallet (quiet_revokeActivationMinutes True.intro)
  · exact quiet_shiftWallet True.intro

theorem quiet_voidLedger (entryId : ℕ) : Quiet (voidLedger env entryId) := by
  refine ⟨⟨True.intro, fun b => ?_⟩, fun _ => True.intro⟩
  dsimp only
  split
  · exact True.intro
  split
  · exact quiet_voidPayment _
  split_ifs
  · exact True.intro
  · exact True.intro
  split
  · exact quiet_voidLoanEntry ..
  · exact quiet_voidSettlementEntry ..
  · exact quiet_voidWriteoffEntry ..
  · exact quiet_voidOtherEntry _

theorem quiet_recordSubscriberLedger (username : String) (amount : ℤ) (currency : String)
    (posting : Posting) : Quiet (recordSubscriberLedger username amount currency posting) := by
  refine ⟨⟨True.intro, fun b => ?_⟩, fun _ => True.intro⟩
  dsimp only
  split
  · exact True.intro
  · exact ⟨True.intro, fun _ => True.intro⟩

theorem quiet_program (op : Op) : Quiet (op.program env) := by
  cases op <;> simp only [Op.program]
  case createPayment body => exact quiet_createPayment body
  case voidPayment paymentId => exact quiet_voidPayment paymentId
  case createLoan body => exact quiet_createLoan body
  case settleLoan loanId body subscriberId => exact quiet_settleLoan loanId body subscriberId
  case writeoffLoan loanId => exact quiet_writeoffLoan loanId
  case resolveLoanActions actions subscriberId cash paymentId =>
    exact quiet_resolveLoanActions actions subscriberId cash paymentId
  case voidLedger entryId => exact quiet_voidLedger entryId
  case recordSubscriberLedger username amount currency posting =>
    exact quiet_recordSubscriberLedger username amount currency posting
  case saveAccount account => exact ⟨⟨True.intro, fun _ => True.intro⟩, fun _ => True.intro⟩

end

def Books.LoansSupported (b : Books) : Prop := ∀ l ∈ b.loans.rows, Supported l.currency

theorem LoansSupported.update {b b' : Books} (h : b.LoansSupported) {p : Loan → Bool}
    {f : Loan → Loan} (hrows : b'.loans.rows = b.loans.rows.map fun l => if p l then f l else l)
    (hcurrency : ∀ l, (f l).currency = l.currency) : b'.LoansSupported := by
  intro l hl
  rw [hrows] at hl
  obtain ⟨l₀, hl₀, rfl⟩ := List.mem_map.mp hl
  split_ifs
  · rw [hcurrency]
    exact h l₀ hl₀
  · exact h l₀ hl₀

theorem settleLoan_ok {b b' : Books} {loan : Loan} {amount : ℤ} {currency : String}
    {paymentId : Option ℕ} (h : b.settleLoan loan amount currency paymentId = .ok b') :
    ∃ row status s, row ∈ b.loans.rows ∧ row.id = loan.id ∧ row.status = .open ∧
      amount ≤ row.amount - b.settledAmount loan.id ∧
      b'.loans = (b.updateLoanStatus loan.id status).loans ∧
      b'.settlements.rows = b.settlements.rows ++ [s] ∧
      s.loanId = loan.id ∧ s.status = .posted ∧ s.amount = amount ∧ b'.payments = b.payments := by
  unfold Books.settleLoan at h
  cases hfind : b.loans.rows.find? (b.claims loan.id amount) with
  | none =>
    rw [hfind] at h
    cases h
  | some row =>
    simp only [hfind] at h
    by_cases hpayment : (paymentId.all fun id => (b.payments.get? id).isSome) = true
    · rw [if_pos hpayment] at h
      have hb' := Except.ok.inj h
      subst hb'
      have hclaims := List.find?_some hfind
      simp only [Books.claims, Bool.and_eq_true, decide_eq_true_eq] at hclaims
      exact ⟨row, _, _, List.mem_of_find?_eq_some hfind, hclaims.1.1, hclaims.1.2, hclaims.2,
        rfl, rfl, rfl, rfl, rfl, rfl⟩
    · rw [if_neg hpayment] at h
      cases h

theorem writeoffLoan_ok {b b' : Books} {loan : Loan} {currency : String}
    (h : b.writeoffLoan loan currency = .ok b') :
    b'.loans = (b.updateLoanStatus loan.id .voided).loans ∧ b'.settlements = b.settlements ∧
      b'.payments = b.payments := by
  unfold Books.writeoffLoan at h
  split_ifs at h
  cases h
  exact ⟨rfl, rfl, rfl⟩

theorem loansSupported_apply {w : Statement} {b b' : Books} (hw : w.supported)
    (h : b.LoansSupported) (happly : b.apply w = .ok b') : b'.LoansSupported := by
  cases w <;> simp only [Books.apply] at happly
  case select | createPayment | markPaymentApplied | createLedgerEntry | upsertAccount | audit =>
    cases happly
    exact h
  case createLoan l =>
    cases happly
    intro l' hl'
    rcases List.mem_append.mp hl' with hl' | hl'
    · exact h l' hl'
    · rw [List.mem_singleton.mp hl']
      exact hw
  case markLoanApplied =>
    cases happly
    exact LoansSupported.update h rfl fun _ => rfl
  case setLoanStatus =>
    cases happly
    exact LoansSupported.update h rfl fun _ => rfl
  case settleLoan loan amount currency paymentId =>
    obtain ⟨row, status, s, -, -, -, -, hloans, -⟩ := settleLoan_ok happly
    exact LoansSupported.update h (congrArg Table.rows hloans) fun _ => rfl
  case writeoffLoan loan currency =>
    exact LoansSupported.update h (congrArg Table.rows (writeoffLoan_ok happly).1) fun _ => rfl
  case voidSettlement id =>
    unfold Books.voidSettlement at happly
    split at happly
    · cases happly
    dsimp only at happly
    split at happly
    · cases happly
      exact LoansSupported.update h rfl fun _ => rfl
    · split_ifs at happly <;> cases happly <;>
        exact LoansSupported.update h rfl fun _ => rfl
  case voidPayment payment =>
    unfold Books.voidPayment at happly
    split at happly
    · cases happly
    · split_ifs at happly
      cases happly
      exact h
  case voidLedgerEntry id =>
    unfold Books.voidLedgerEntry at happly
    split at happly
    · cases happly
    · split_ifs at happly
      cases happly
      exact h

theorem program_transaction (env : Env) (op : Op) :
    ∃ body, op.program env = .transaction body .ret := by
  cases op <;> exact ⟨_, rfl⟩

theorem loansSupported_step {b : Books} (c : Call) (h : b.LoansSupported) :
    (step b c).LoansSupported := by
  obtain ⟨body, hbody⟩ := program_transaction c.env c.op
  have hquiet : Quiet (.transaction body .ret) := hbody ▸ quiet_program c.op
  rw [step, execute, hbody, perform_transaction]
  rcases block_cases c.env.faults.sqlite body b with ⟨e, hraised⟩ | ⟨r, b', heval, hdone⟩
  · rw [hraised]
    exact h
  · rw [hdone]
    have hkept : (eval c.env.faults.sqlite body b).2.LoansSupported := by
      refine eval_only (I := Books.LoansSupported) (fun w x y hw hx hwrite => ?_) hquiet.1 h
      simp only [Faults.sqlite] at hwrite
      split at hwrite
      · cases hwrite
      · exact loansSupported_apply hw hx hwrite
    rw [heval] at hkept
    exact hkept

theorem loansSupported_run (accounts : Accounts) (calls : List Call) :
    (Run.run step (.fresh accounts) calls).LoansSupported :=
  Run.run_always (fun _ c h => loansSupported_step c h) (List.forall_mem_nil _)

end RadiusModule.Accounting
