import RadiusModule.Services.SubscriberWallet.Drift

/-!
# What a void does to the balances

A void takes an entry back and moves the balance back with it, if the account
that is found by the name of the entry is the one that the entry counts for.
-/

namespace RadiusModule.Accounting
open Library PyText

def Books.walletAccount (b : Books) (entry : LedgerEntry) : Option Account :=
  b.accounts.get (if strip entry.username = "" then
    ((entry.subscriberId.bind fun id => b.accounts.resolve (some id) "").map
      Account.username).getD ""
  else strip entry.username)

def Books.Owned (b : Books) (entry : LedgerEntry) : Prop :=
  ∀ account ∈ b.walletAccount entry, entry.subscriberId = some account.id

instance (b : Books) (entry : LedgerEntry) : Decidable (b.Owned entry) :=
  inferInstanceAs (Decidable (∀ account ∈ b.walletAccount entry, _))

section
variable {env : Env} {b b' : Books} {r : Reply}

theorem SameNames.get {as as' : Accounts} (h : as.SameNames as') (username : String) :
    (as'.get username).map Account.nameplate = (as.get username).map Account.nameplate := by
  have hfind : ∀ as : Accounts, (as.get username).map Account.nameplate =
      (as.table.rows.map Account.nameplate).find? fun n => n.2.1 = username && !n.2.2 := by
    intro as
    rw [List.find?_map]
    rfl
  rw [hfind, hfind, h]

theorem SameNames.resolve {as as' : Accounts} (h : as.SameNames as') (id : ℕ) :
    (as'.resolve (some id) "").map Account.nameplate =
      (as.resolve (some id) "").map Account.nameplate := by
  have hfind : ∀ as : Accounts, (as.resolve (some id) "").map Account.nameplate =
      ((as.table.rows.map Account.nameplate).find? fun n => n.1 = id).filter fun n => !n.2.2 := by
    intro as
    rw [List.find?_map]
    change ((as.table.get? id).filter _).map _ = ((as.table.get? id).map _).filter _
    cases as.table.get? id with
    | none => rfl
    | some a =>
      simp only [Option.filter_some, Option.map_some, Account.nameplate]
      split_ifs <;> rfl
  rw [hfind, hfind, h]

theorem walletAccount_same (h : b.accounts.SameNames b'.accounts) (entry : LedgerEntry) :
    (b'.walletAccount entry).map Account.nameplate =
      (b.walletAccount entry).map Account.nameplate := by
  have hname : ((entry.subscriberId.bind fun id => b'.accounts.resolve (some id) "").map
      Account.username) = ((entry.subscriberId.bind fun id =>
        b.accounts.resolve (some id) "").map Account.username) := by
    cases entry.subscriberId with
    | none => rfl
    | some id =>
      have hplates := congrArg (Option.map fun n : ℕ × String × Bool => n.2.1)
        (SameNames.resolve h id)
      rw [Option.map_map, Option.map_map] at hplates
      exact hplates
  rw [Books.walletAccount, Books.walletAccount, hname, SameNames.get h]

theorem Books.Owned.same {entry : LedgerEntry} (howned : b.Owned entry)
    (h : b.accounts.SameNames b'.accounts) : b'.Owned entry := by
  intro account haccount
  have hplates := walletAccount_same h entry
  rw [haccount, Option.map_some] at hplates
  obtain ⟨a, ha, hsame⟩ := Option.map_eq_some_iff.mp hplates.symm
  rw [howned a ha]
  exact congrArg (fun n : ℕ × String × Bool => some n.1) hsame

theorem Ordered.shifted (h : Ordered b) {entry : LedgerEntry} {delta : ℤ} {next : Tx}
    (howned : b.Owned entry) (hrun : Runs env (shiftWallet entry delta next) b r b') :
    ∃ z, Undoes b z (fun id => if entry.subscriberId = some id then delta else 0) ∧
      Runs env next z r b' := by
  replace hrun := hrun.select
  dsimp only at hrun
  split at hrun
  case h_1 => exact hrun.raise.elim
  case h_2 account hfound =>
    have haccount : b.walletAccount entry = some account := hfound
    obtain ⟨z, hupsert, hnext⟩ := hrun.statement
    cases hupsert
    have hmoved : Undoes b (b.upsertAccount { account with balance := account.balance + delta }) _ :=
      h.upsert (Accounts.get_mem haccount).1 rfl rfl
    refine ⟨_, hmoved.congr fun id => ?_, hnext⟩
    rw [howned account haccount]
    by_cases hid : id = account.id
    · simp [hid]
    · simp [hid, Ne.symm hid]

theorem Ordered.revoked (h : Ordered b) {username : String} {minutes : ℤ} {source : ActionSource}
    {restoreUnlimited : Bool} {as : Accounts} {log : List AuditRecord}
    (hrevoked : Revoked env username minutes source restoreUnlimited b.accounts b.auditLog as log) :
    Undoes b { b with accounts := as, auditLog := log } fun _ => 0 := by
  have hupsert : ∀ (account : Account) (expireAt : Option ℤ) (log : List AuditRecord),
      b.accounts.get username = some account →
      Undoes b { b with
        accounts := b.accounts.upsert { account with expireAt }, auditLog := log } fun _ => 0 := by
    intro account expireAt log hget
    have hmoved : Undoes b (b.upsertAccount { account with expireAt }) _ :=
      h.upsert (Accounts.get_mem hget).1 rfl rfl
    have hlog : Undoes (b.upsertAccount { account with expireAt })
        { b.upsertAccount { account with expireAt } with auditLog := log } fun _ => 0 :=
      hmoved.ordered.same rfl rfl (fun p hp => ⟨p, hp, rfl⟩) fun s hs => ⟨s, hs, rfl⟩
    refine (hmoved.trans hlog).congr fun id => ?_
    simp
  cases hrevoked with
  | nothing => exact h.refl
  | skipped => exact h.refl
  | restored account hget hrestore _ _ => exact hupsert account none _ hget
  | reverted account current taken hget hend _ _ => exact hupsert account _ _ hget

theorem Ordered.reversedLoans (h : Ordered b) {settlements : List Settlement} {next : Tx}
    (hrun : Runs env (reverseLoanSettlements settlements next) b r b') :
    ∃ z, Undoes b z (fun _ => 0) ∧ Runs env next z r b' := by
  induction settlements generalizing b with
  | nil => exact ⟨b, h.refl, hrun⟩
  | cons s rest ih =>
    replace hrun := hrun.select
    cases hloan : b.getLoan s.loanId with
    | none =>
      rw [hloan] at hrun
      exact ih h hrun
    | some view =>
      simp only [hloan] at hrun
      split_ifs at hrun
      · exact ih h hrun
      · obtain ⟨z, hvoid, hrest⟩ := hrun.statement
        have hvoided := h.voidSettlement hvoid
        obtain ⟨z', hundone, hnext⟩ := ih hvoided.ordered hrest
        exact ⟨z', (hvoided.trans hundone).congr fun _ => rfl, hnext⟩

theorem Ordered.voidedEntry (h : Ordered b) {o : LedgerEntry} (ho : o ∈ b.ledger.rows)
    (hvoid : b.apply (.voidLedgerEntry o.id) = .ok b') : Undoes b b' o.moved := by
  obtain ⟨o', hget, hvoided⟩ := h.voidLedgerEntry hvoid
  obtain ⟨ho', hkey⟩ := Table.get?_eq_some.mp hget
  obtain rfl := b.ledger.eq_of_key_eq ho' ho hkey
  exact hvoided

theorem Ordered.voidedStill (h : Ordered b) {o : LedgerEntry} (ho : o ∈ b.ledger.rows)
    (hstill : o.sourceType.moves = false) (hvoid : b.apply (.voidLedgerEntry o.id) = .ok b') :
    Undoes b b' fun _ => 0 :=
  (h.voidedEntry ho hvoid).congr fun id => LedgerEntry.moved_of_not_moves hstill id

theorem Ordered.reversedDebts (h : Ordered b) {entries : List LedgerEntry} {next : Tx}
    (hentries : ∀ e ∈ entries, e ∈ b.ledger.rows ∧ e.entryType = .debtSettlement ∧
      e.reversalOf = none ∧ b.Owned e)
    (hrun : Runs env (reverseDebtSettlements entries next) b r b') :
    ∃ z, Undoes b z (fun _ => 0) ∧ Runs env next z r b' := by
  induction entries generalizing b with
  | nil => exact ⟨b, h.refl, hrun⟩
  | cons e rest ih =>
    obtain ⟨hmem, htype, hnone, howned⟩ := hentries e List.mem_cons_self
    obtain ⟨z, hvoid, hshift⟩ := hrun.statement
    have hvoided := h.voidedEntry hmem hvoid
    obtain ⟨z', hshifted, hrest⟩ :=
      hvoided.ordered.shifted (howned.same hvoided.names) hshift
    obtain ⟨hsource, hside⟩ := h.debts e hmem hnone htype
    have hpair := hvoided.trans hshifted
    obtain ⟨z'', hundone, hnext⟩ := ih hpair.ordered (fun e he => by
      obtain ⟨hmem, htype, hnone, howned⟩ := hentries e (List.mem_cons_of_mem _ he)
      exact ⟨hpair.kept e hmem, htype, hnone, howned.same hpair.names⟩) hrest
    refine ⟨z'', (hpair.trans hundone).congr fun id => ?_, hnext⟩
    rw [LedgerEntry.moved, LedgerEntry.signed, hsource, hside]
    by_cases hid : e.subscriberId = some id <;> simp [hid, SourceType.moves, Direction.sign]

def Books.DebtsOwned (b : Books) (paymentId : ℕ) : Prop :=
  ∀ e ∈ b.ledger.rows, e.entryType = .debtSettlement → e.reversalOf = none →
    e.paymentId = some paymentId → b.Owned e

instance (b : Books) (paymentId : ℕ) : Decidable (b.DebtsOwned paymentId) :=
  inferInstanceAs (Decidable (∀ e ∈ b.ledger.rows, _))

theorem Ordered.voidedPayment (h : Ordered b) {paymentId : ℕ} (howned : b.DebtsOwned paymentId)
    (hrun : Runs env (Accounting.voidPayment env paymentId) b r b') :
    Undoes b b' fun _ => 0 := by
  replace hrun := hrun.transaction.select
  cases hpayment : b.payments.get? paymentId with
  | none =>
    rw [hpayment] at hrun
    exact hrun.raise.elim
  | some payment =>
    simp only [hpayment] at hrun
    split_ifs at hrun
    · exact hrun.raise.elim
    · obtain ⟨z, hvoid, hrest⟩ := hrun.statement
      have hvoided := h.voidPayment (Table.get?_eq_some.mp hpayment).1 hvoid
      obtain ⟨as, log, hrevoked, hrest⟩ := hrest.revoked
      have hended := hvoided.ordered.revoked hrevoked
      obtain ⟨z', hloans, hrest⟩ := hended.ordered.reversedLoans hrest.select
      have hbefore := (hvoided.trans hended).trans hloans
      obtain ⟨z'', hdebts, hret⟩ := hloans.ordered.reversedDebts (fun e he => by
        obtain ⟨hmem, hkind⟩ := Table.mem_select.mp he
        simp only [Bool.and_eq_true, decide_eq_true_eq, Option.isNone_iff_eq_none] at hkind
        obtain ⟨⟨⟨htype, hnone⟩, hpaid⟩, -⟩ := hkind
        exact ⟨hmem, htype, hnone,
          (howned e (hbefore.roots e hmem hnone) htype hnone hpaid).same hbefore.names⟩) hrest.select
      obtain rfl := hret.ret
      exact (hbefore.trans hdebts).congr fun _ => rfl

theorem Ordered.setLoanStatus (h : Ordered b) (loanId : ℕ) (status expect : LoanStatus) :
    Undoes b (b.setLoanStatus loanId status expect) fun _ => 0 :=
  h.same rfl rfl (fun p hp => ⟨p, hp, rfl⟩) fun s hs => ⟨s, hs, rfl⟩

theorem Ordered.voidedLoan (h : Ordered b) {o : LedgerEntry} {loanId : ℕ}
    (ho : o ∈ b.ledger.rows) (hstill : o.sourceType.moves = false)
    (hrun : Runs env (voidLoanEntry env o loanId) b r b') : Undoes b b' fun _ => 0 := by
  replace hrun := hrun.select
  cases hloan : b.getLoan loanId with
  | none =>
    rw [hloan] at hrun
    exact hrun.raise.elim
  | some view =>
    simp only [hloan] at hrun
    split_ifs at hrun
    · exact hrun.raise.elim
    · exact hrun.raise.elim
    · obtain ⟨z, hvoid, hrest⟩ := hrun.statement
      have hvoided := h.voidedStill ho hstill hvoid
      split_ifs at hrest
      · obtain ⟨z', hstatus, hrest⟩ := hrest.statement
        cases hstatus
        have hset := hvoided.ordered.setLoanStatus loanId .voided .open
        obtain ⟨as, log, hrevoked, hret⟩ := hrest.revoked
        obtain rfl := hret.ret
        exact ((hvoided.trans hset).trans (hset.ordered.revoked hrevoked)).congr fun _ => rfl
      · exact hrest.raise.elim

theorem Ordered.voidedSettlement (h : Ordered b) {o : LedgerEntry} {settlementId : ℕ}
    (hrun : Runs env (voidSettlementEntry o settlementId) b r b') : Undoes b b' fun _ => 0 := by
  replace hrun := hrun.select
  cases hs : b.settlements.get? settlementId with
  | none =>
    rw [hs] at hrun
    exact hrun.raise.elim
  | some s =>
    simp only [hs] at hrun
    by_cases hentry : s.ledgerEntryId ≠ some o.id
    · rw [if_pos hentry] at hrun
      exact hrun.raise.elim
    rw [if_neg hentry] at hrun
    cases hloan : b.getLoan s.loanId with
    | none =>
      rw [hloan] at hrun
      exact hrun.raise.elim
    | some view =>
      simp only [hloan] at hrun
      split_ifs at hrun
      · exact hrun.raise.elim
      · obtain ⟨z, hvoid, hret⟩ := hrun.statement
        obtain rfl := hret.ret
        exact h.voidSettlement hvoid

theorem Ordered.voidedWriteoff (h : Ordered b) {o : LedgerEntry} {loanId : ℕ}
    (ho : o ∈ b.ledger.rows) (hstill : o.sourceType.moves = false)
    (hrun : Runs env (voidWriteoffEntry o loanId) b r b') : Undoes b b' fun _ => 0 := by
  replace hrun := hrun.select
  cases hloan : b.getLoan loanId with
  | none =>
    rw [hloan] at hrun
    exact hrun.raise.elim
  | some view =>
    simp only [hloan] at hrun
    split_ifs at hrun
    · exact hrun.raise.elim
    · obtain ⟨z, hvoid, hrest⟩ := hrun.statement
      have hvoided := h.voidedStill ho hstill hvoid
      obtain ⟨z', hstatus, hret⟩ := hrest.statement
      cases hstatus
      obtain rfl := hret.ret
      exact (hvoided.trans (hvoided.ordered.setLoanStatus loanId .open .voided)).congr fun _ => rfl

theorem Ordered.voidedOther (h : Ordered b) {o : LedgerEntry} (ho : o ∈ b.ledger.rows)
    (hmanual : o.sourceType = .subscriber .manualBalance → o.amount = 0)
    (howned : o.sourceType.isWallet = true → b.Owned o)
    (hrun : Runs env (voidOtherEntry env o) b r b') : Undoes b b' fun _ => 0 := by
  obtain ⟨z, hvoid, hrest⟩ := hrun.statement
  have hvoided := h.voidedEntry ho hvoid
  by_cases hshift : (o.sourceType.isWallet && (o.username ≠ "" || o.subscriberId.isSome)) = true
  · simp only [hshift, if_true] at hrest
    obtain ⟨z', hshifted, hrest⟩ := hvoided.ordered.shifted
      ((howned (Bool.and_eq_true_iff.mp hshift).1).same hvoided.names) hrest
    have hpair : Undoes b z' fun _ => 0 := (hvoided.trans hshifted).congr fun id => by
      have hmoves : o.sourceType.moves = true := by
        cases hsource : o.sourceType with
        | subscriber _ => rfl
        | _ => simp [hsource, SourceType.isWallet] at hshift
      rw [LedgerEntry.moved, LedgerEntry.signed, hmoves]
      by_cases hid : o.subscriberId = some id <;> cases o.direction <;> simp [hid, Direction.sign]
    split_ifs at hrest
    · obtain ⟨as, log, hrevoked, hret⟩ := hrest.revoked
      obtain rfl := hret.ret
      exact (hpair.trans (hpair.ordered.revoked hrevoked)).congr fun _ => rfl
    · obtain rfl := hrest.ret
      exact hpair
  · simp only [hshift] at hrest
    obtain rfl := hrest.ret
    refine hvoided.congr fun id => ?_
    rw [LedgerEntry.moved, LedgerEntry.signed]
    cases hsource : o.sourceType with
    | subscriber source =>
      cases source with
      | manualBalance => simp [hmanual hsource]
      | _ =>
        have hnone : o.subscriberId = none := by
          simp [hsource, SourceType.isWallet] at hshift
          exact hshift.2
        simp [hnone]
    | _ => rfl

/-- The entry may be voided without a drift: a manual balance would stay as it is, and the
account that is found must be the one that the entry counts for. -/
structure Books.Voidable (b : Books) (entryId : ℕ) : Prop where
  manual : ∀ o ∈ b.ledger.get? entryId, o.sourceType = .subscriber .manualBalance → o.amount = 0
  owned : ∀ o ∈ b.ledger.get? entryId, o.sourceType.isWallet = true → b.Owned o
  debts : ∀ o ∈ b.ledger.get? entryId, ∀ p ∈ b.paymentOf o, b.DebtsOwned p.id

theorem Ordered.voidedLedger (h : Ordered b) {entryId : ℕ} (hvoidable : b.Voidable entryId)
    (hrun : Runs env (Accounting.voidLedger env entryId) b r b') : Undoes b b' fun _ => 0 := by
  replace hrun := hrun.transaction.select
  cases hget : b.ledger.get? entryId with
  | none =>
    rw [hget] at hrun
    exact hrun.raise.elim
  | some o =>
    obtain ⟨ho, -⟩ := Table.get?_eq_some.mp hget
    simp only [hget] at hrun
    cases hpayment : b.paymentOf o with
    | some payment =>
      simp only [hpayment] at hrun
      exact h.voidedPayment (hvoidable.debts o hget payment hpayment) hrun
    | none =>
      simp only [hpayment] at hrun
      by_cases hreversal : o.isReversal = true
      · rw [if_pos hreversal] at hrun
        exact hrun.raise.elim
      rw [if_neg hreversal] at hrun
      by_cases hreversed : b.reversed entryId = true
      · rw [if_pos hreversed] at hrun
        exact hrun.raise.elim
      rw [if_neg hreversed] at hrun
      split at hrun
      · rename_i hsource hid
        exact h.voidedLoan ho (by rw [hsource]; rfl) hrun
      · exact h.voidedSettlement hrun
      · rename_i hsource hid
        exact h.voidedWriteoff ho (by rw [hsource]; rfl) hrun
      · exact h.voidedOther ho (hvoidable.manual o hget) (hvoidable.owned o hget) hrun

end

end RadiusModule.Accounting
