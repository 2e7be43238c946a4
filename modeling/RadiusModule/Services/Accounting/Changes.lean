import RadiusModule.Services.Accounting.Service

/-!
# What an accounting operation can do

An operation that does not raise is read back statement by statement, and a
revocation leaves one of four things.
-/

namespace RadiusModule.Accounting
open Library Connection

def Runs (env : Env) (p : Tx) (b : Books) (r : Reply) (b' : Books) : Prop :=
  eval env.faults.sqlite p b = (.ok r, b')

section
variable {env : Env} {b b' : Books} {r : Reply} {w : Statement} {p : Tx}

theorem Runs.statement {next : Books → Tx} (h : Runs env (.statement w next) b r b') :
    ∃ z, b.apply w = .ok z ∧ Runs env (next z) z r b' := by
  obtain ⟨z, hwrite, hnext⟩ := eval_statement h
  refine ⟨z, ?_, hnext⟩
  simp only [Faults.sqlite] at hwrite
  split at hwrite
  · cases hwrite
  · exact hwrite

theorem Runs.select {next : Books → Tx} (h : Runs env (.statement .select next) b r b') :
    Runs env (next b) b r b' := by
  obtain ⟨z, hselect, hnext⟩ := h.statement
  cases hselect
  exact hnext

theorem Runs.raise {e : Error} (h : Runs env (.raise e) b r b') : False := by
  cases h

theorem Runs.ret {r' : Reply} (h : Runs env (.ret r') b r b') : b' = b := by
  cases h
  rfl

theorem Runs.transaction (h : Runs env (.transaction p .ret) b r b') : Runs env p b r b' := by
  obtain ⟨r', z, hbody, hret⟩ := eval_transaction h
  cases hret
  exact hbody

theorem Runs.attempt {next : Except Error Reply → Tx}
    (h : Runs env (.attempt (.statement w fun _ => .ret .done) next) b r b') :
    (∃ z, b.apply w = .ok z ∧ Runs env (next (.ok .done)) z r b') ∨
      ∃ e, Runs env (next (.error e)) b r b' := by
  simp only [Runs, eval] at h
  cases hwrite : env.faults.sqlite.write w b with
  | error e =>
    rw [hwrite] at h
    exact .inr ⟨e, h⟩
  | ok z =>
    rw [hwrite] at h
    refine .inl ⟨z, ?_, h⟩
    simp only [Faults.sqlite] at hwrite
    split at hwrite
    · cases hwrite
    · exact hwrite

theorem Runs.audited {record : AuditRecord} (h : Runs env (audited record p) b r b') :
    ∃ log, (log = b.auditLog ∨ log = b.auditLog ++ [record]) ∧
      Runs env p { b with auditLog := log } r b' := by
  rcases h.attempt with ⟨z, hwrite, hnext⟩ | ⟨e, hnext⟩
  · cases hwrite
    exact ⟨_, .inr rfl, hnext⟩
  · exact ⟨_, .inl rfl, hnext⟩

end

inductive Revoked (env : Env) (username : String) (minutes : ℤ) (source : ActionSource)
    (restoreUnlimited : Bool) (as : Accounts) (log : List AuditRecord) :
    Accounts → List AuditRecord → Prop
  | nothing (h : username = "" ∨ minutes ≤ 0) :
    Revoked env username minutes source restoreUnlimited as log as log
  | skipped (account : Account) (hget : as.get username = some account)
    (h : ∀ current ∈ account.expireAt, restoreUnlimited = false ∧
      current ≤ max (current - minutes * minute) env.now) :
    Revoked env username minutes source restoreUnlimited as log as log
  | restored (account : Account) (hget : as.get username = some account)
    (h : restoreUnlimited = true) (log' : List AuditRecord)
    (hlog : log' = log ∨ log' = log ++ [⟨username, source, -minutes⟩]) :
    Revoked env username minutes source restoreUnlimited as log
      (as.upsert { account with expireAt := none }) log'
  | reverted (account : Account) (current taken : ℤ) (hget : as.get username = some account)
    (hend : account.expireAt = some current) (log' : List AuditRecord)
    (hlog : log' = log ∨ log' = log ++ [⟨username, source, taken⟩]) :
    Revoked env username minutes source restoreUnlimited as log
      (as.upsert { account with
        expireAt := some (max (current - minutes * minute) env.now) }) log'

section
variable {env : Env} {b b' : Books} {r : Reply}

theorem Runs.revoked {username : String} {minutes : ℤ} {source : ActionSource}
    {restoreUnlimited : Bool} {next : Tx}
    (h : Runs env (revokeActivationMinutes env username minutes source restoreUnlimited next)
      b r b') :
    ∃ as log, Revoked env username minutes source restoreUnlimited b.accounts b.auditLog as log ∧
      Runs env next { b with accounts := as, auditLog := log } r b' := by
  unfold revokeActivationMinutes at h
  by_cases hnone : username = "" ∨ minutes ≤ 0
  · rw [if_pos hnone] at h
    exact ⟨_, _, .nothing hnone, h⟩
  rw [if_neg hnone] at h
  replace h := h.select
  cases hget : b.accounts.get username with
  | none =>
    rw [hget] at h
    exact h.raise.elim
  | some account =>
    simp only [hget] at h
    cases hend : account.expireAt with
    | none =>
      simp only [hend] at h
      exact ⟨_, _, .skipped account hget (by simp [hend]), h⟩
    | some current =>
      simp only [hend] at h
      split_ifs at h with hrestore hpast
      · obtain ⟨z, hupsert, hnext⟩ := h.statement
        cases hupsert
        obtain ⟨log, hlog, hnext⟩ := hnext.audited
        exact ⟨_, log, .restored account hget hrestore log hlog, hnext⟩
      · refine ⟨_, _, .skipped account hget ?_, h⟩
        rw [hend]
        rintro _ ⟨⟩
        exact ⟨by simpa using hrestore, hpast⟩
      · obtain ⟨z, hupsert, hnext⟩ := h.statement
        cases hupsert
        obtain ⟨log, hlog, hnext⟩ := hnext.audited
        exact ⟨_, log, .reverted account current _ hget hend log hlog, hnext⟩

theorem getLoan_spec {id : ℕ} {view : LoanView} (h : b.getLoan id = some view) :
    b.loans.get? id = some view.loan ∧ view.loan.id = id ∧
      (view.loan.status = .open → view.outstanding =
        max (view.loan.amount - b.settledAmount id) 0) := by
  obtain ⟨l, hl, rfl⟩ := Option.map_eq_some_iff.mp h
  exact ⟨hl, (Table.get?_eq_some.mp hl).2, fun hopen => if_pos hopen⟩

end

end RadiusModule.Accounting
