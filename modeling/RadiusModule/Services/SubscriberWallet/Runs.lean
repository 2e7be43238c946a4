import RadiusModule.Library.Run
import RadiusModule.Services.SubscriberWallet.Explained
import RadiusModule.Services.SubscriberWallet.Voids

/-!
# Balances over the actions

An action that moves a balance enters what it has moved. The exceptions are
named by `Kept`, a condition on a call and the books that it meets.
-/

namespace RadiusModule.Accounting
open Library Connection PyText
open SubscriberWallet (getAccount upsertAccount orRaise recordLedger recordManualBalanceChange charge)

section
variable {env : Env} {b b' : Books} {r : Reply}

theorem Runs.account {username : String} {next : Account → Tx}
    (h : Runs env (getAccount username next) b r b') :
    ∃ u, b.accounts.get username = some u ∧ Runs env (next u) b r b' := by
  replace h := h.select
  cases hget : b.accounts.get username with
  | none =>
    rw [hget] at h
    exact h.raise.elim
  | some u =>
    rw [hget] at h
    exact ⟨u, rfl, h⟩

theorem Runs.orRaise {α : Type} {terms : Except Error α} {next : α → Tx}
    (h : Runs env (orRaise terms next) b r b') :
    ∃ a, terms = .ok a ∧ Runs env (next a) b r b' := by
  cases terms with
  | error e => exact h.raise.elim
  | ok a => exact ⟨a, rfl, h⟩

theorem Runs.upserted {account : Account} {next : Account → Tx}
    (h : Runs env (upsertAccount account next) b r b') :
    Runs env (next (b.accounts.savedRow account)) (b.upsertAccount account) r b' := by
  obtain ⟨z, hwrite, h⟩ := h.statement
  cases hwrite
  cases hget : (b.accounts.upsert account).get account.username with
  | none =>
    simp only [Books.upsertAccount, hget] at h
    exact h.raise.elim
  | some saved =>
    obtain ⟨hmem, hname, -⟩ := Accounts.get_mem hget
    obtain rfl := (b.accounts.upsert account).unique saved hmem _
      (b.accounts.savedRow_mem account) hname
    simp only [Books.upsertAccount, hget] at h
    exact h

theorem Runs.recorded {a : Account} {cents : ℤ} {currency : String} {posting : Posting} {next : Tx}
    (h : Runs env (recordLedger a cents currency posting next) b r b') :
    Runs env next
      (b.post (fun id => { posting.entry a cents currency with id }) fun _ => rfl) r b' := by
  obtain ⟨r', z, hbody, hnext⟩ := eval_transaction h
  obtain ⟨z', hwrite, hret⟩ := Runs.statement hbody
  cases hwrite
  cases hret
  exact hnext

theorem stored_of_get {username : String} {u : Account} (hget : b.accounts.get username = some u) :
    u.balance = b.storedBalance u.username :=
  (storedBalance_of_mem (Accounts.get_mem hget).1).symm

theorem Explained.charged (h : Explained b) {mode : Users.ChargeMode} {cents : ℤ}
    {currency : String} {posting : Posting} {u : Account}
    (hside : ∀ a, (posting.entry a cents currency).direction = .debit)
    (hstored : u.balance = b.storedBalance u.username)
    (hrun : Runs env (charge mode cents currency posting u) b r b') : Explained b' := by
  replace hrun := hrun.upserted
  by_cases hfree : mode = .free
  · simp only [hfree, ne_eq, not_true_eq_false, if_false] at hrun
    obtain rfl := hrun.ret
    exact h.kept hstored
  · simp only [hfree, ne_eq, not_false_eq_true, if_true] at hrun
    obtain rfl := hrun.recorded.ret
    refine h.entered ?_
    rw [hside, ← hstored]
    simp only [Direction.sign]
    ring

theorem Explained.moved (h : Explained b) {cents delta : ℤ} {currency : String}
    {posting : Posting} {account : Account} (hcents : 0 ≤ cents)
    (hside : ∀ a, (posting.entry a cents currency).direction.sign * cents = delta)
    (hstored : account.balance = b.storedBalance account.username + delta)
    (hrun : Runs env (upsertAccount account fun saved =>
      if 0 < cents then recordLedger saved cents currency posting (.ret .done) else .ret .done)
      b r b') : Explained b' := by
  replace hrun := hrun.upserted
  by_cases hpos : 0 < cents
  · rw [if_pos hpos] at hrun
    obtain rfl := hrun.recorded.ret
    exact h.entered (by rw [hside, hstored])
  · rw [if_neg hpos] at hrun
    obtain rfl := hrun.ret
    have hzero : delta = 0 := by
      rw [← hside account, le_antisymm (not_lt.mp hpos) hcents, mul_zero]
    exact h.kept (by rw [hstored, hzero, add_zero])

theorem Explained.manual (h : Explained b) {env : SubscriberWallet.Env} {account : Account}
    {old : ℤ} (hstored : b.storedBalance account.username = old)
    (hrun : Runs env.accounting (upsertAccount account fun saved =>
      recordManualBalanceChange env old saved (.ret .done)) b r b') : Explained b' := by
  replace hrun := hrun.upserted
  unfold SubscriberWallet.recordManualBalanceChange at hrun
  have hsaved : (b.accounts.savedRow account).balance = account.balance := rfl
  by_cases hdelta : account.balance - old = 0
  · simp only [hsaved, hdelta, if_true] at hrun
    obtain rfl := hrun.ret
    exact h.kept (by rw [hstored, sub_eq_zero.mp hdelta])
  · simp only [hsaved, hdelta, if_false] at hrun
    obtain rfl := hrun.recorded.ret
    refine h.entered ?_
    rw [hstored]
    change _ = old + (if 0 < account.balance - old then Direction.credit else .debit).sign * _
    split_ifs with hpos
    · rw [abs_of_pos hpos]
      simp [Direction.sign]
    · rw [abs_of_nonpos (not_lt.mp hpos)]
      simp [Direction.sign]

end

end RadiusModule.Accounting

namespace RadiusModule.SubscriberWallet
open Library Connection PyText
open Accounting hiding Env Op Call execute step

theorem isSpace_of_allowed {c : Char} (h : allowedChar c = true) : isSpace c = false := by
  refine Bool.eq_false_iff.mpr fun hspace => ?_
  have hc : c = Char.ofNat c.toNat := (Char.ofNat_toNat c).symm
  have hall : ∀ n ∈ spaces, allowedChar (Char.ofNat n) = false := by decide
  rw [hc, hall _ (List.contains_iff_mem.mp hspace)] at h
  cases h

theorem dropWhile_of_none {p : Char → Bool} {cs : List Char} (h : ∀ c ∈ cs, p c = false) :
    cs.dropWhile p = cs := by
  cases cs with
  | nil => rfl
  | cons c cs => rw [List.dropWhile_cons_of_neg (by simp [h c List.mem_cons_self])]

theorem strip_of_allowed {name : String} (h : ∀ c ∈ name.toList, allowedChar c = true) :
    strip name = name := by
  have hspace : ∀ c ∈ name.toList, isSpace c = false := fun c hc => isSpace_of_allowed (h c hc)
  rw [strip, stripChars, dropWhile_of_none hspace, dropWhile_of_none, List.reverse_reverse,
    String.ofList_toList]
  exact fun c hc => hspace c (List.mem_reverse.mp hc)

theorem trim_of_allowed {name : String} (h : ∀ c ∈ name.toList, allowedChar c = true) :
    trim name = name := by
  have hblank : ∀ c ∈ name.toList, decide (c = ' ') = false := fun c hc => by
    refine decide_eq_false fun hc' => ?_
    have hblank := isSpace_of_allowed (h c hc)
    rw [hc'] at hblank
    cases hblank
  rw [trim, List.rdropWhile, dropWhile_of_none hblank, dropWhile_of_none, List.reverse_reverse,
    String.ofList_toList]
  exact fun c hc => hblank c (List.mem_reverse.mp hc)

def EndsLine (name : String) : Prop := name.toList.getLast? = some '\n'

instance (name : String) : Decidable (EndsLine name) := inferInstanceAs (Decidable (_ = _))

section
variable {env : Env} {b b' : Books} {r : Reply} {d : Draft}

theorem new_of_free (hvalid : validNewUsername d.username = true) (hline : ¬EndsLine d.username)
    (huse : ¬usernameInUse env b d.username = true) (hold : ¬usernameArchived b d.username = true) :
    b.storedBalance d.username = 0 := by
  rw [EndsLine] at hline
  simp only [validNewUsername, if_neg hline, ne_eq, decide_not, Bool.and_eq_true,
    Bool.not_eq_true', decide_eq_false_iff_not, List.all_eq_true] at hvalid
  obtain ⟨⟨⟨hne, -⟩, hallowed⟩, -⟩ := hvalid
  have hname : lower d.username ≠ "" := fun hempty => by
    have hnil := congrArg String.toList hempty
    simp only [lower, String.toList_ofList, String.toList_empty, List.map_eq_nil_iff] at hnil
    exact hne hnil
  have hnone : b.accounts.table.rows.find? (fun a => a.username = d.username) = none := by
    refine List.find?_eq_none.mpr fun a ha hsame => ?_
    have hsame : a.username = d.username := of_decide_eq_true hsame
    have htrim : lower (trim a.username) = lower d.username := by
      rw [hsame, trim_of_allowed hallowed]
    simp only [usernameInUse, usernameArchived, strip_of_allowed hallowed, ne_eq, hname,
      not_false_eq_true, decide_true, Bool.true_and, Bool.or_eq_true, List.any_eq_true,
      Bool.and_eq_true, decide_eq_true_eq, Bool.not_eq_true', not_or, not_exists, not_and]
      at huse hold
    cases hdeleted : a.deleted with
    | false => exact huse.1 a ha htrim hdeleted
    | true => exact hold a ha htrim hdeleted
  rw [Books.storedBalance, hnone]
  rfl

theorem explained_create (h : Explained b)
    (hline : EndsLine d.username → b.storedBalance d.username = 0)
    (hrun : Runs env.accounting (create env d) b r b') : Explained b' := by
  unfold create at hrun
  by_cases hvalid : d.username = "" ∨ validNewUsername d.username = false
  · rw [if_pos hvalid] at hrun
    exact hrun.raise.elim
  rw [if_neg hvalid] at hrun
  replace hrun := hrun.select
  split_ifs at hrun with hfree
  · exact hrun.raise.elim
  · exact hrun.raise.elim
  · simp only [not_or, Bool.not_eq_false] at hvalid hfree
    refine h.manual ?_ hrun
    by_cases hend : EndsLine d.username
    · exact hline hend
    · exact new_of_free hvalid.2 hend hfree.1 hfree.2

theorem submitted_username {existing : Option Account} {base : Option Draft} {clearExpiry : Bool}
    (hname : ∀ row ∈ existing, row.username = d.username) :
    (submitted existing base d clearExpiry).username = d.username := by
  unfold submitted
  cases existing with
  | none => rfl
  | some row =>
    cases base with
    | none => rfl
    | some base => exact hname row rfl

theorem explained_saveEdit (h : Explained b) {existing : Option Account} {base : Option Draft}
    {clearExpiry : Bool} {stale : Account → Bool}
    (hfound : ∀ row ∈ existing, b.accounts.get d.username = some row)
    (hmissing : existing = none → base = none →
      b.storedBalance d.username = roundMoney d.balance)
    (hrun : Runs env.accounting (saveEdit env existing base d clearExpiry stale) b r b') :
    Explained b' := by
  unfold saveEdit at hrun
  split_ifs at hrun with hstale hbase
  · exact hrun.raise.elim
  · exact hrun.raise.elim
  · obtain ⟨-, -, hrun⟩ := hrun.orRaise
    have hname : (submitted existing base d clearExpiry).username = d.username :=
      submitted_username fun row hrow => (Accounts.get_mem (hfound row hrow)).2.1
    cases existing with
    | some row =>
      refine h.manual ?_ hrun
      change b.storedBalance (submitted (some row) base d clearExpiry).username = _
      rw [hname, ← (Accounts.get_mem (hfound row rfl)).2.1]
      exact storedBalance_of_mem (Accounts.get_mem (hfound row rfl)).1
    | none =>
      have hnone : base = none := by simpa using hbase
      obtain rfl := hrun.upserted.ret
      refine h.kept ?_
      change _ = b.storedBalance (submitted none base d clearExpiry).username
      rw [hname, hmissing rfl hnone, hnone]
      rfl

def EditKept (env : Env) (b : Books) (base : Option Draft) (d : Draft) : Prop :=
  base = none → env.faults.statement .select b ≠ none ∨ b.accounts.get d.username = none →
    b.storedBalance d.username = roundMoney d.balance

theorem explained_update (h : Explained b) {base : Option Draft} {clearExpiry : Bool}
    {stale : Account → Bool} (hkept : EditKept env b base d)
    (hrun : Runs env.accounting (update env base d clearExpiry stale) b r b') : Explained b' := by
  cases hlookup : env.faults.statement .select b with
  | some e =>
    have hfailed : Runs env.accounting (saveEdit env none base d clearExpiry stale) b r b' := by
      simpa only [update, Runs, eval, Faults.sqlite, Env.accounting, hlookup] using hrun
    refine explained_saveEdit h (fun _ hrow => ?_) (fun _ hbase => ?_) hfailed
    · cases hrow
    · exact hkept hbase (.inl (by simp [hlookup]))
  | none =>
    have hread : Runs env.accounting (.statement .select fun b =>
        saveEdit env (b.accounts.get d.username) base d clearExpiry stale) b r b' := by
      simpa only [update, Runs, eval, Faults.sqlite, Env.accounting, hlookup, Books.apply]
        using hrun
    exact explained_saveEdit h (fun _ hrow => hrow) (fun hnone hbase => hkept hbase (.inr hnone))
      hread.select

theorem cashTerms_credit_nonneg {cfg : Users.Settings} {amount deduction : ℚ} {currency : String}
    {terms : Users.CashTerms} (h : Users.cashTerms cfg amount currency deduction = .ok terms) :
    0 ≤ terms.credit := by
  simp only [Users.cashTerms, bind, Except.bind, pure, Except.pure, throw, throwThe,
    MonadExceptOf.throw] at h
  repeat' split at h
  all_goals cases h
  exact Binary64.le_roundHalfEven (by
    rw [Int.cast_zero]
    exact le_max_right _ _)

theorem planDebt_nonneg (policy : Users.Policy) (remaining : ℤ) (oldRate newRate : ℚ) :
    0 ≤ Users.planDebt policy remaining oldRate newRate := by
  unfold Users.planDebt
  split_ifs
  · exact Binary64.le_roundHalfEven (by
      rw [Int.cast_zero]
      exact mul_nonneg (le_max_right _ _) (by norm_num))
  · exact le_rfl

theorem planChangeAmounts_debt_nonneg {cfg : Users.Settings} {now : ℤ} {policy : Users.Policy}
    {expireAt : Option ℤ} {oldRate newRate : ℚ} {terms : Users.PlanChangeTerms}
    (h : Users.planChangeAmounts cfg now policy expireAt oldRate newRate = .ok terms) :
    0 ≤ terms.debt := by
  simp only [Users.planChangeAmounts, bind, Except.bind, pure, Except.pure, throw, throwThe,
    MonadExceptOf.throw] at h
  repeat' split at h
  all_goals cases h
  · exact le_rfl
  · exact planDebt_nonneg _ _ _ _

theorem planChangeTerms_debt_nonneg {cfg : Users.Settings} {now : ℤ} {planId : Option ℕ}
    {expireAt : Option ℤ} {newPlanId : ℕ} {policy : String} {terms : Users.PlanChangeTerms}
    (h : Users.planChangeTerms cfg now planId expireAt newPlanId policy = .ok terms) :
    0 ≤ terms.debt := by
  simp only [Users.planChangeTerms, bind, Except.bind, throw, throwThe, MonadExceptOf.throw] at h
  repeat' split at h
  all_goals first | exact planChangeAmounts_debt_nonneg h | cases h

theorem explained_addCashBalance (h : Explained b) {username currency : String}
    {amount deduction : ℚ}
    (hrun : Runs env.accounting (addCashBalance env username amount currency deduction) b r b') :
    Explained b' := by
  obtain ⟨terms, hterms, hrun⟩ := hrun.orRaise
  obtain ⟨u, hget, hrun⟩ := hrun.account
  refine h.moved (cashTerms_credit_nonneg hterms) (fun _ => one_mul _) ?_ hrun
  rw [← stored_of_get hget]

theorem explained_applyPayment (h : Explained b) {username : String} {amount : ℚ}
    {paymentId : Option ℕ}
    (hrun : Runs env.accounting (applyPaymentToBalance env username amount paymentId) b r b') :
    Explained b' := by
  unfold applyPaymentToBalance at hrun
  by_cases hamount : amount ≤ 0
  · rw [if_pos hamount] at hrun
    exact hrun.ret ▸ h
  rw [if_neg hamount] at hrun
  obtain ⟨u, hget, hrun⟩ := hrun.account
  dsimp only at hrun
  split_ifs at hrun
  · exact hrun.ret ▸ h
  · obtain rfl := hrun.upserted.recorded.ret
    refine h.entered ?_
    change _ = b.storedBalance u.username + 1 * _
    rw [← stored_of_get hget, one_mul]

theorem explained_changePlan (h : Explained b) {username : String} {planId : ℕ} {policy : String}
    (hrun : Runs env.accounting (changePlan env username planId policy) b r b') :
    Explained b' := by
  obtain ⟨u, hget, hrun⟩ := hrun.account
  obtain ⟨terms, hterms, hrun⟩ := hrun.orRaise
  refine h.moved (planChangeTerms_debt_nonneg hterms)
    (fun _ => neg_one_mul _) ?_ hrun
  rw [← stored_of_get hget]
  exact sub_eq_add_neg _ _

theorem explained_extendTime (h : Explained b) {username : String} {minutes : ℤ}
    {c : Users.Charge}
    (hrun : Runs env.accounting (extendTime env username minutes c) b r b') : Explained b' := by
  obtain ⟨u, hget, hrun⟩ := hrun.account
  obtain ⟨terms, -, hrun⟩ := hrun.orRaise
  have hstored : u.balance = b.storedBalance u.username := stored_of_get hget
  exact h.charged (u := { u with expireAt := some terms.newExpire }) (fun _ => rfl) hstored hrun

theorem explained_setExpiry (h : Explained b) {username : String} {expireAt : ℤ}
    {c : Users.Charge}
    (hrun : Runs env.accounting (setExpiry env username expireAt c) b r b') : Explained b' := by
  obtain ⟨u, hget, hrun⟩ := hrun.account
  obtain ⟨terms, -, hrun⟩ := hrun.orRaise
  have hstored : u.balance = b.storedBalance u.username := stored_of_get hget
  exact h.charged (u := { u with expireAt := some terms.newExpire }) (fun _ => rfl) hstored hrun

theorem explained_resetDailyQuota (h : Explained b) {username : String} {c : Users.Charge}
    (hrun : Runs env.accounting (resetDailyQuota env username c) b r b') : Explained b' := by
  obtain ⟨terms, -, hrun⟩ := hrun.orRaise
  obtain ⟨u, hget, hrun⟩ := hrun.account
  split_ifs at hrun
  · exact hrun.raise.elim
  · obtain ⟨-, -, hrun⟩ := hrun.orRaise
    exact h.charged (fun _ => rfl) (stored_of_get hget) hrun

theorem explained_addQuota (h : Explained b) {username : String} {topup : Topup} {c : Users.Charge}
    (hrun : Runs env.accounting (addQuota env username topup c) b r b') : Explained b' := by
  obtain ⟨terms, -, hrun⟩ := hrun.orRaise
  dsimp only at hrun
  generalize lower (strip (if topup.window = "" then "auto" else topup.window)) = window at hrun
  split at hrun
  · exact hrun.raise.elim
  · obtain ⟨u, hget, hrun⟩ := hrun.account
    split_ifs at hrun
    · exact hrun.raise.elim
    · obtain ⟨-, -, hrun⟩ := hrun.orRaise
      exact h.charged (fun _ => rfl) (stored_of_get hget) hrun

def Kept (b : Books) (c : Call) : Prop :=
  match c.op with
  | .create d => EndsLine d.username → b.storedBalance d.username = 0
  | .update base d _ _ => EditKept c.env b base d
  | .voidLedger entryId => b.Voidable entryId
  | .voidPayment paymentId => b.DebtsOwned paymentId
  | _ => True

theorem explained_body (h : Explained b) {op : Op} (hkept : Kept b ⟨op, env⟩)
    (hrun : Runs env.accounting (op.body env) b r b') : Explained b' := by
  cases op with
  | create d => exact explained_create h hkept hrun
  | update base d clearExpiry stale => exact explained_update h hkept hrun
  | changePlan username planId policy => exact explained_changePlan h hrun
  | resetDailyQuota username c => exact explained_resetDailyQuota h hrun
  | addQuota username topup c => exact explained_addQuota h hrun
  | addCashBalance username amount currency deduction => exact explained_addCashBalance h hrun
  | applyPaymentToBalance username amount paymentId => exact explained_applyPayment h hrun
  | extendTime username minutes c => exact explained_extendTime h hrun
  | setExpiry username expireAt c => exact explained_setExpiry h hrun
  | voidLedger entryId => exact h.drifts (h.ordered.voidedLedger hkept hrun).toDrifts
  | voidPayment paymentId => exact h.drifts (h.ordered.voidedPayment hkept hrun).toDrifts

theorem execute_error {c : Call} {e : Error} (h : execute b c = (.error e, b')) : b' = b := by
  rw [execute, perform_transaction] at h
  rcases block_cases c.env.faults.sqlite (c.op.body c.env) b with ⟨e', hblock⟩ | ⟨a, y, -, hblock⟩
  · rw [hblock] at h
    exact (congrArg Prod.snd h).symm
  · rw [hblock] at h
    cases h

theorem explained_step {c : Call} (h : Explained b) (hkept : Kept b c) : Explained (step b c) := by
  rw [step, execute, perform_transaction]
  rcases block_cases c.env.faults.sqlite (c.op.body c.env) b with ⟨e, hblock⟩ | ⟨a, y, heval, hblock⟩
  · rw [hblock]
    exact h
  · rw [hblock]
    exact explained_body h hkept heval

/-- In every run whose calls are kept, the ledger explains the balances. A row of the ledger that
takes another back has both the other side and the negative amount, so the sides of the rows give
the balance exactly where the reversals add up to nothing. -/
theorem run_explained {calls : List Call} (h : Explained b) (hkept : Run.Along Kept step b calls) :
    (∀ a ∈ (Run.run step b calls).accounts.table.rows,
      a.balance = (Run.run step b calls).ledgerBalance a.id ∧
        (a.balance = (Run.run step b calls).rowBalance a.id ↔
          (Run.run step b calls).reversalRows a.id = 0)) ∧
      ∀ c e b', execute (Run.run step b calls) c = (.error e, b') → b' = Run.run step b calls := by
  have hrun : Explained (Run.run step b calls) :=
    Run.run_invariant (fun _ _ hb hc => explained_step hb hc) h hkept
  refine ⟨fun a ha => ⟨hrun.balance a ha, ?_⟩, fun c e b' => execute_error⟩
  rw [rowBalance_eq hrun.ordered.ledger, hrun.balance a ha]
  constructor <;> intro hrows <;> omega

def emptyBooks : Books := .fresh ⟨.empty, fun _ ha => (List.not_mem_nil ha).elim⟩

theorem explained_empty : Explained emptyBooks where
  ordered :=
    { ledger := ⟨.empty, fun _ he => (List.not_mem_nil he).elim⟩
      known := fun _ he => (List.not_mem_nil he).elim
      debts := fun _ he => (List.not_mem_nil he).elim
      payments := fun _ hp => (List.not_mem_nil hp).elim
      settlements := fun _ hs => (List.not_mem_nil hs).elim }
  balance _ ha := (List.not_mem_nil ha).elim

def paidAndVoided : List Call :=
  [⟨.create { username := "nour", balance := 5 }, { now := 0 }⟩,
    ⟨.addCashBalance "nour" 10 "" 0, { now := 0 }⟩, ⟨.voidLedger 2, { now := 0 }⟩]

theorem paidAndVoided_kept : Run.Along Kept step emptyBooks paidAndVoided :=
  ⟨fun hline => absurd hline (by decide), trivial,
    ⟨by decide +kernel, by decide +kernel, by decide +kernel⟩, trivial⟩

example : (Run.run step emptyBooks (paidAndVoided.take 2)).accounts.table.rows.map (·.balance) =
    [1500] := by
  decide +kernel

theorem run_explained_voided :
    ∃ a ∈ (Run.run step emptyBooks paidAndVoided).accounts.table.rows, a.balance = 500 ∧
      a.balance = (Run.run step emptyBooks paidAndVoided).ledgerBalance a.id := by
  obtain ⟨a, ha, hbalance⟩ : ∃ a ∈ (Run.run step emptyBooks paidAndVoided).accounts.table.rows,
      a.balance = 500 := by decide +kernel
  exact ⟨a, ha, hbalance, ((run_explained explained_empty paidAndVoided_kept).1 a ha).1⟩

def openingVoided : List Call :=
  [⟨.create { username := "nour", balance := 100 }, { now := 0 }⟩, ⟨.voidLedger 1, { now := 0 }⟩]

example : (Run.run step emptyBooks (openingVoided.take 1)).accounts.table.rows.map (·.balance) =
    [10000] := by
  decide +kernel

theorem opening_balance_stays :
    ∃ a ∈ (Run.run step emptyBooks openingVoided).accounts.table.rows,
      a.balance = 10000 ∧ (Run.run step emptyBooks openingVoided).ledgerBalance a.id = 0 ∧
        (Run.run step emptyBooks openingVoided).rowBalance a.id = 20000 := by
  decide +kernel

end

end RadiusModule.SubscriberWallet
