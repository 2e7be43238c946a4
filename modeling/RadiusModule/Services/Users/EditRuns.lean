import RadiusModule.Library.Run
import RadiusModule.Services.Users.Edits

/-!
# No action loses another one's changes

An action that succeeds changes its own fields of the row that it finds under
the lock, and no other. So a run leaves the row that these changes give one
after the other, in the order in which the actions committed.
-/

namespace RadiusModule.Users
open Library Connection

variable {ν : Type}

def Subscriber.stamp (row : Subscriber) (now : ℤ) : Subscriber := row.set .updatedAt (some now)

def Subscriber.withRestored (row : Subscriber) : Option QuotaPeriod.Override → Subscriber
  | none => row
  | some o => row.withQuota o

/-- What the edit changed against its base, and an end that it clears; but not an empty password
over one, nor a missing end over one. -/
def ownField (base sub : Subscriber) (clearExpiry : Bool) (row : Subscriber) (f : Field) : Bool :=
  f ∉ Field.uncolumned && (base f ≠ sub f || clearExpiry && f = .expireAt) &&
    !(f = .password && blank sub.password && !blank row.password) &&
    !(f = .expireAt && sub.expireAt.isNone && row.expireAt.isSome && !clearExpiry)

def submittedValue (sub : Subscriber) (clearExpiry : Bool) : Subscriber :=
  if clearExpiry then sub.set .expireAt none else sub

def ownEdit (base sub : Subscriber) (clearExpiry : Bool) (row : Subscriber) : Subscriber := fun f =>
  if ownField base sub clearExpiry row f then
    stored f (submittedValue sub clearExpiry f)
  else row f

def ownExpiry (env : Env ν) (terms : ExpiryTerms) (restored : Option QuotaPeriod.Override)
    (row : Subscriber) : Subscriber :=
  let newBalance := if terms.mode ≠ .free then row.balance - (terms.cents : ℚ) / 100
    else row.balance
  (((row.set .expireAt (some terms.newExpire)).set .balance (stored .balance newBalance)).stamp
    env.now).withRestored restored

def Op.own (env : Env ν) (restored : Option QuotaPeriod.Override) (row : Subscriber) :
    Op ν → Subscriber
  | .update base sub clearExpiry _ =>
    if Field.all.any (ownField base sub clearExpiry row) then
      (ownEdit base sub clearExpiry row).stamp env.now
    else row
  | .extendTime minutes charge =>
    match extendTerms env.cfg env.now row.expireAt row.balance minutes charge with
    | .ok terms => ownExpiry env terms restored row
    | .error _ => row
  | .setExpiry expireAt charge =>
    match setExpiryTerms env.cfg env.now row.expireAt row.balance expireAt charge with
    | .ok terms => ownExpiry env terms restored row
    | .error _ => row
  | .addCashBalance amount currency settledDeduction =>
    match cashTerms env.cfg amount currency settledDeduction with
    | .ok terms =>
      (row.set .balance (stored .balance (row.balance + (terms.credit : ℚ) / 100))).stamp env.now
    | .error _ => row
  | .changePlan planId policy =>
    match planChangeTerms env.cfg env.now (planIdOf row) row.expireAt planId policy with
    | .ok terms =>
      ((((row.set .planId (some planId)).set .expireAt terms.newExpire).set .balance
        (stored .balance (row.balance - (terms.debt : ℚ) / 100))).stamp env.now).withRestored
        restored
    | .error _ => row
  | .disable => (row.set .status "disabled").stamp env.now
  | .enable => (row.set .status "enabled").stamp env.now

def Subscriber.store (s : Subscriber) : Subscriber := fun f => stored f (s f)

theorem Row.store (row : Row) : row.value.store = row.value := funext row.kept

theorem Subscriber.store_set (s : Subscriber) (g : Field) (v : g.kind.Value) :
    (s.set g v).store = s.store.set g (stored g v) := by
  funext f
  by_cases h : f = g
  · subst h
    rw [Subscriber.set_same]
    exact congrArg (stored f) (s.set_same f v)
  · rw [Subscriber.set_of_ne _ h]
    exact congrArg (stored f) (s.set_of_ne h v)

theorem overwrite_all (row : Row) (s : Subscriber) (now : ℤ)
    (hkeys : ∀ f ∈ Field.uncolumned, s f = row.value f) :
    (row.overwrite s (fun _ => true) now).value = s.store.stamp now := by
  have hany : Field.all.any (columns fun _ => true) = true :=
    List.any_eq_true.mpr ⟨.password, Field.mem_all _, rfl⟩
  have hmerge : row.value.merge s (fun _ => true) = s.store := by
    funext f
    by_cases hf : f ∈ Field.uncolumned
    · simp [Subscriber.merge, Subscriber.store, columns, hf, hkeys f hf, row.kept f]
    · simp [Subscriber.merge, Subscriber.store, columns, hf]
  simp only [Row.overwrite, Subscriber.overwrite, hany, if_true, hmerge, Subscriber.stamp]

theorem set_keys {s row : Subscriber} (hs : ∀ f ∈ Field.uncolumned, s f = row f) {g : Field}
    (hg : g ∉ Field.uncolumned) (v : g.kind.Value) : ∀ f ∈ Field.uncolumned, s.set g v f = row f :=
  fun f hf => (s.set_of_ne (fun h : f = g => hg (h ▸ hf)) v).trans (hs f hf)

theorem overwrite_expiry (row : Row) (e : Option ℤ) (b : ℚ) (now : ℤ) :
    (row.overwrite ((row.value.set .expireAt e).set .balance b) (fun _ => true) now).value =
      ((row.value.set .expireAt e).set .balance (stored .balance b)).stamp now := by
  rw [overwrite_all _ _ _ (set_keys (set_keys (fun _ _ => rfl) (by decide) _) (by decide) _),
    Subscriber.store_set, Subscriber.store_set, row.store]
  rfl

theorem overwrite_balance (row : Row) (b : ℚ) (now : ℤ) :
    (row.overwrite (row.value.set .balance b) (fun _ => true) now).value =
      (row.value.set .balance (stored .balance b)).stamp now := by
  rw [overwrite_all _ _ _ (set_keys (fun _ _ => rfl) (by decide) _), Subscriber.store_set,
    row.store]

theorem overwrite_plan (row : Row) (planId : Option ℤ) (e : Option ℤ) (b : ℚ) (now : ℤ) :
    (row.overwrite (((row.value.set .planId planId).set .expireAt e).set .balance b)
        (fun _ => true) now).value =
      (((row.value.set .planId planId).set .expireAt e).set .balance (stored .balance b)).stamp
        now := by
  rw [overwrite_all _ _ _ (set_keys (set_keys (set_keys (fun _ _ => rfl) (by decide) _)
      (by decide) _) (by decide) _), Subscriber.store_set, Subscriber.store_set,
    Subscriber.store_set, row.store]
  rfl

theorem overwrite_status (row : Row) (status : String) (now : ℤ) :
    (row.overwrite (row.value.set .status status) (· = .status) now).value =
      (row.value.set .status status).stamp now := by
  have hany : Field.all.any (columns (· = .status)) = true :=
    List.any_eq_true.mpr ⟨.status, Field.mem_all _, rfl⟩
  have hmerge : row.value.merge (row.value.set .status status) (· = .status) =
      row.value.set .status status := by
    funext f
    by_cases hf : f = .status
    · subst hf
      simp [Subscriber.merge, columns, Field.uncolumned, stored]
    · simp [Subscriber.merge, columns, hf, Subscriber.set_of_ne]
  simp only [Row.overwrite, Subscriber.overwrite, hany, if_true, hmerge, Subscriber.stamp]

theorem rebase_sub (row base sub : Subscriber) (clearExpiry : Bool) (f : Field) :
    (rebase (some row) (some base) sub clearExpiry).sub f =
      if changedFields base sub f || clearExpiry && f = .expireAt then
        submittedValue sub clearExpiry f
      else row f := by
  unfold rebase submittedValue
  cases clearExpiry with
  | false => simp [Subscriber.pick]
  | true =>
    by_cases hf : f = .expireAt
    · subst hf
      simp
    · simp [hf, Subscriber.set_of_ne, Subscriber.pick]

theorem Edit.keep_sub (e : Edit) (row : Subscriber) (g f : Field) :
    (e.keep row g).sub f = if f = g then row f else e.sub f := by
  by_cases h : f = g
  · subst h
    rw [if_pos rfl]
    exact e.sub.set_same f _
  · rw [if_neg h]
    exact e.sub.set_of_ne h _

/-- The columns that `e` writes, and their values, are those of `own` and `value`. -/
structure Edit.Writes (e : Edit) (row value : Subscriber) (own : Field → Bool) : Prop where
  changed : ∃ changed, e.changed = some changed ∧ ∀ f, columns changed f = own f
  sub : ∀ f ∉ Field.uncolumned, e.sub f = if own f then value f else row f

theorem Edit.Writes.keepIf {e : Edit} {row value : Subscriber} {own : Field → Bool} {g : Field}
    {q : g.kind.Value → Bool} (h : e.Writes row value own) (hg : g ∉ Field.uncolumned)
    (hrow : q (row g) = false) :
    (if q (e.sub g) then e.keep row g else e).Writes row value
      fun f => own f && !(f = g && q (value g)) := by
  obtain ⟨changed, hchanged, hown⟩ := h.changed
  have hsub := h.sub g hg
  by_cases hlost : q (e.sub g) = true
  · have hg' : own g = true ∧ q (value g) = true := by
      by_cases howng : own g = true
      · rw [hsub, if_pos howng] at hlost
        exact ⟨howng, hlost⟩
      · rw [hsub, if_neg howng, hrow] at hlost
        cases hlost
    rw [if_pos hlost]
    refine ⟨⟨_, congrArg (Option.map _) hchanged, fun f => ?_⟩, fun f hf => ?_⟩
    · rw [hg'.2, Bool.and_true, ← hown f]
      simp only [columns, Bool.and_assoc, decide_not]
    · rw [Edit.keep_sub, h.sub f hf, hg'.2]
      by_cases hfg : f = g
      · simp [hfg]
      · simp [hfg]
  · rw [if_neg hlost]
    have hsame : (fun f => own f && !(f = g && q (value g))) = own := by
      funext f
      by_cases hfg : f = g
      · subst hfg
        by_cases howng : own f = true
        · rw [hsub, if_pos howng] at hlost
          simp [howng, hlost]
        · simp [howng]
      · simp [hfg]
    rw [hsame]
    exact h

theorem rebase_writes (row base sub : Subscriber) (clearExpiry : Bool) :
    (rebase (some row) (some base) sub clearExpiry).Writes row (submittedValue sub clearExpiry)
      fun f => f ∉ Field.uncolumned && (base f ≠ sub f || clearExpiry && f = .expireAt) := by
  have hkeys : ∀ f ∉ Field.uncolumned, f ∉ Field.notEditable := by
    intro f hf hkey
    fin_cases hkey <;> exact hf (by decide)
  refine ⟨⟨_, rfl, fun f => ?_⟩, fun f hf => ?_⟩
  · by_cases hf : f ∈ Field.uncolumned
    · simp [columns, hf]
    · simp [columns, changedFields, hf, hkeys f hf]
  · rw [rebase_sub]
    simp [changedFields, hf, hkeys f hf]

theorem keepPassword_eq (row : Subscriber) (e : Edit) : keepPassword (some row) e =
    if (blank (e.sub .password) && !blank row.password) = true then e.keep row .password
    else e := by
  simp [keepPassword, Subscriber.password]

theorem keepExpiry_eq (row : Subscriber) (clearExpiry : Bool) (e : Edit) :
    keepExpiry (some row) clearExpiry e =
      if (Option.isNone (e.sub .expireAt) && row.expireAt.isSome && !clearExpiry) = true then
        e.keep row .expireAt
      else e := by
  simp [keepExpiry, Subscriber.expireAt, and_assoc]

theorem submitted_writes (row base sub : Subscriber) (clearExpiry : Bool) :
    (submitted (some row) (some base) sub clearExpiry).Writes row
      (submittedValue sub clearExpiry) (ownField base sub clearExpiry row) := by
  have hpassword := (rebase_writes row base sub clearExpiry).keepIf (g := .password)
    (q := fun v => blank v && !blank row.password) (by decide) (by simp [Subscriber.password])
  have hexpiry := hpassword.keepIf (g := .expireAt)
    (q := fun v => Option.isNone v && row.expireAt.isSome && !clearExpiry) (by decide)
    (by cases h : row.expireAt <;> simp_all [Subscriber.expireAt])
  rw [submitted, keepPassword_eq, keepExpiry_eq]
  have hvalue : submittedValue sub clearExpiry .password = sub.password := by
    cases clearExpiry
    · rfl
    · exact sub.set_of_ne (show Field.password ≠ .expireAt by decide) (none : Option ℤ)
  have hend : clearExpiry = false → submittedValue sub clearExpiry .expireAt = sub.expireAt := by
    rintro rfl
    rfl
  have hown : ownField base sub clearExpiry row = fun f =>
      (f ∉ Field.uncolumned && (base f ≠ sub f || clearExpiry && f = .expireAt) &&
        !(f = .password && (blank (submittedValue sub clearExpiry .password) &&
          !blank row.password))) &&
      !(f = .expireAt && (Option.isNone (submittedValue sub clearExpiry .expireAt) &&
        row.expireAt.isSome && !clearExpiry)) := by
    funext f
    rw [hvalue, ownField]
    cases clearExpiry with
    | true => simp [Bool.or_assoc]
    | false =>
      rw [hend rfl]
      simp [Bool.and_assoc]
  rw [hown]
  exact hexpiry

theorem overwrite_edit (row : Row) (base sub : Subscriber) (clearExpiry : Bool) (now : ℤ) :
    (row.overwrite (submitted (some row.value) (some base) sub clearExpiry).sub
      ((submitted (some row.value) (some base) sub clearExpiry).changed.getD fun _ => true)
      now).value =
    if Field.all.any (ownField base sub clearExpiry row.value) then
      (ownEdit base sub clearExpiry row.value).stamp now
    else row.value := by
  obtain ⟨⟨changed, hchanged, hown⟩, hsub⟩ := submitted_writes row.value base sub clearExpiry
  have hcolumns : columns changed = ownField base sub clearExpiry row.value := funext hown
  have hmerge : row.value.merge (submitted (some row.value) (some base) sub clearExpiry).sub
      changed = ownEdit base sub clearExpiry row.value := by
    funext f
    simp only [Subscriber.merge, ownEdit, hcolumns]
    split_ifs with hf
    · have hcol : f ∉ Field.uncolumned := by
        intro hmem
        simp [ownField, hmem] at hf
      rw [hsub f hcol, if_pos hf]
    · rfl
  rw [hchanged, Option.getD_some]
  simp only [Row.overwrite, Subscriber.overwrite, hcolumns, hmerge, Subscriber.stamp]

def Runs (env : Env ν) (p : Tx) (st : Store) (r : Reply) (st' : Store) : Prop :=
  eval env.faults.sqlite p st = (.ok r, st')

def Store.rowValue (st : Store) : Option Subscriber := st.row.map Row.value

section
variable {env : Env ν} {st st' : Store} {r : Reply}

theorem Runs.statement {w : Statement} {next : Store → Tx}
    (h : Runs env (.statement w next) st r st') : Runs env (next (st.apply w)) (st.apply w) r st' := by
  obtain ⟨z, hwrite, hnext⟩ := eval_statement h
  simp only [Faults.sqlite] at hwrite
  split at hwrite
  · cases hwrite
  · cases hwrite
    exact hnext

theorem Runs.orRaise {α : Type} {terms : Except Accounting.Error α} {next : α → Tx}
    (h : Runs env (orRaise terms next) st r st') :
    ∃ a, terms = .ok a ∧ Runs env (next a) st r st' := by
  cases terms with
  | error e => cases h
  | ok a => exact ⟨a, rfl, h⟩

theorem Runs.getAccount {next : Subscriber → Tx} (h : Runs env (getAccount next) st r st') :
    ∃ u, st.account = some u ∧ Runs env (next u) st r st' := by
  replace h := h.statement
  cases hu : st.account with
  | none =>
    simp only [Store.apply, hu] at h
    cases h
  | some u =>
    simp only [Store.apply, hu] at h
    exact ⟨u, rfl, h⟩

theorem Runs.upsertAccount {s : Subscriber} {only : Option (Field → Bool)}
    {next : Subscriber → Tx} (h : Runs env (upsertAccount env s only next) st r st') :
    ∃ saved, Runs env (next saved) (st.upsert s only env.newId env.now) r st' := by
  replace h := h.statement
  simp only [Store.apply] at h
  split at h
  · cases h
  · exact ⟨_, h⟩

theorem Runs.audited {action : String} {restored : Option QuotaPeriod.Override}
    (h : Runs env (audited action restored) st r st') :
    r = .done restored ∧ st'.rowValue = st.rowValue := by
  simp only [Runs, Users.audited, eval] at h
  cases h
  refine ⟨rfl, ?_⟩
  simp only [Faults.sqlite]
  cases env.faults.statement (.audit action) st <;> rfl

def restoredRow (restored : Option QuotaPeriod.Override) (row : Option Subscriber) :
    Option Subscriber := row.map (·.withRestored restored)

theorem restoredRow_none (row : Option Subscriber) : restoredRow none row = row := by
  cases row <;> rfl

theorem write_row {env : Env ν} {w : Statement} {st z : Store}
    (h : env.faults.sqlite.write w st = .ok z) : z = st.apply w := by
  simp only [Faults.sqlite] at h
  split at h
  · cases h
  · cases h
    rfl

theorem eval_newPeriod (env : Env ν) (reason : String) (st : Store) :
    (∃ restored z, eval env.faults.sqlite (newPeriod env reason) st = (.ok (.done restored), z) ∧
      z.rowValue = restoredRow restored st.rowValue) ∨
    ∃ e, eval env.faults.sqlite (newPeriod env reason) st = (.error e, st) := by
  unfold newPeriod
  simp only [eval]
  cases hselect : env.faults.sqlite.write .select st with
  | error e => exact .inr ⟨e, rfl⟩
  | ok z =>
    have hsame : st = z := (write_row hselect).symm
    subst hsame
    dsimp only
    cases hrow : st.row with
    | none => exact .inl ⟨none, st, rfl, (restoredRow_none _).symm⟩
    | some row =>
      simp only [Option.map_some]
      generalize (QuotaPeriod.startNewPeriod env.radacct env.now reason
        (quotaAccount row.value st.quota)).state = state
      cases QuotaPeriod.restored (quotaAccount row.value st.quota) with
      | none =>
        simp only [eval]
        cases hsave : env.faults.sqlite.write (.saveQuotaState state) st with
        | error e => exact .inr ⟨e, rfl⟩
        | ok z =>
          obtain rfl := write_row hsave
          exact .inl ⟨none, _, rfl, (restoredRow_none _).symm⟩
      | some o =>
        simp only [eval]
        cases hrestore : env.faults.sqlite.write (.restoreQuota o) st with
        | error e => exact .inr ⟨e, rfl⟩
        | ok z =>
          obtain rfl := write_row hrestore
          have hrestored : (st.apply (.restoreQuota o)).rowValue =
              restoredRow (some o) st.rowValue := by
            simp [Store.apply, Store.rowValue, restoredRow, hrow, Row.withQuota,
              Subscriber.withRestored]
          dsimp only
          cases hsave : env.faults.sqlite.write (.saveQuotaState state)
              (st.apply (.restoreQuota o)) with
          | error e => exact .inl ⟨some o, _, rfl, hrestored⟩
          | ok z =>
            obtain rfl := write_row hsave
            exact .inl ⟨some o, _, rfl, hrestored⟩

theorem Runs.startNewPeriod {u : Subscriber} {reason : String}
    {next : Option QuotaPeriod.Override → Tx}
    (h : Runs env (startNewPeriod env u reason next) st r st') :
    ∃ restored st₁, st₁.rowValue = restoredRow restored st.rowValue ∧
      Runs env (next restored) st₁ r st' := by
  unfold Users.startNewPeriod at h
  split_ifs at h with hid
  · exact ⟨none, st, (restoredRow_none _).symm, h⟩
  · simp only [Runs, eval] at h
    rcases eval_newPeriod env reason st with ⟨restored, z, heval, hrow⟩ | ⟨e, heval⟩
    · rw [heval] at h
      exact ⟨restored, z, hrow, h⟩
    · rw [heval] at h
      exact ⟨none, st, (restoredRow_none _).symm, h⟩

theorem Runs.onTimeAdded {before : Subscriber} {newExpire minutes : ℤ} {reason : String}
    {next : Option QuotaPeriod.Override → Tx}
    (h : Runs env (onTimeAdded env before newExpire minutes reason next) st r st') :
    ∃ restored st₁, st₁.rowValue = restoredRow restored st.rowValue ∧
      Runs env (next restored) st₁ r st' := by
  unfold Users.onTimeAdded at h
  split_ifs at h
  · exact ⟨none, st, (restoredRow_none _).symm, h⟩
  · exact h.startNewPeriod
  · exact ⟨none, st, (restoredRow_none _).symm, h⟩

theorem Store.row_of_account {u : Subscriber} (h : st.account = some u) :
    ∃ row : Row, st.row = some row ∧ row.value = u := by
  obtain ⟨hvalue, -⟩ := Option.filter_eq_some_iff.mp h
  exact Option.map_eq_some_iff.mp hvalue

theorem Store.rowValue_upsert {row : Row} (h : st.row = some row) (s : Subscriber)
    (only : Option (Field → Bool)) (newId now : ℤ) :
    (st.upsert s only newId now).rowValue =
      some (row.overwrite s (only.getD fun _ => true) now).value := by
  simp only [Store.upsert, Store.rowValue, h, Option.map_some]

theorem Runs.ledger {row : LedgerRow} {p : Tx}
    (h : Runs env (.statement (.createLedgerEntry row) fun _ => p) st r st') :
    ∃ st₁, st₁.rowValue = st.rowValue ∧ Runs env p st₁ r st' :=
  ⟨st.apply (.createLedgerEntry row), rfl, h.statement⟩

theorem Runs.commitExpiry {row : Row} {terms : ExpiryTerms} {action : String}
    (hrow : st.row = some row) (h : Runs env (commitExpiry env row.value terms action) st r st') :
    ∃ restored, r = .done restored ∧
      st'.rowValue = some (ownExpiry env terms restored row.value) := by
  obtain ⟨saved, h⟩ := h.upsertAccount
  obtain ⟨restored, st₁, hrestored, h⟩ := h.onTimeAdded
  rw [Store.rowValue_upsert hrow, Option.getD_none, overwrite_expiry] at hrestored
  refine ⟨restored, ?_⟩
  have hfinish : ∃ st₂, st₂.rowValue = st₁.rowValue ∧
      Runs env (Users.audited action restored) st₂ r st' := by
    split_ifs at h
    · exact h.ledger
    · exact ⟨st₁, rfl, h⟩
  obtain ⟨st₂, hsame, haudited⟩ := hfinish
  obtain ⟨hreply, hrow'⟩ := haudited.audited
  exact ⟨hreply, by rw [hrow', hsame, hrestored]; rfl⟩

theorem Runs.setStatus {status action : String}
    (h : Runs env (setStatus env status action) st r st') :
    ∃ row, st.account = some row ∧ r = .done none ∧
      st'.rowValue = some ((row.set .status status).stamp env.now) := by
  obtain ⟨u, hu, h⟩ := h.getAccount
  obtain ⟨row, hrow, rfl⟩ := Store.row_of_account hu
  obtain ⟨saved, h⟩ := h.upsertAccount
  obtain ⟨hreply, hsame⟩ := Runs.audited h
  refine ⟨row.value, hu, hreply, ?_⟩
  rw [hsame, Store.rowValue_upsert hrow]
  exact congrArg some (overwrite_status row status env.now)

theorem Runs.addCashBalance {amount : ℚ}
    {currency : String} {settledDeduction : ℚ}
    (h : Runs env (addCashBalance env amount currency settledDeduction) st r st') :
    ∃ row, st.account = some row ∧ r = .done none ∧
      st'.rowValue = some (Op.own env none row
        (.addCashBalance amount currency settledDeduction)) := by
  obtain ⟨terms, hterms, h⟩ := h.orRaise
  obtain ⟨u, hu, h⟩ := h.getAccount
  obtain ⟨row, hrow, rfl⟩ := Store.row_of_account hu
  obtain ⟨saved, h⟩ := h.upsertAccount
  have hwritten := Store.rowValue_upsert hrow
    (row.value.set .balance (row.value.balance + (terms.credit : ℚ) / 100)) none env.newId env.now
  rw [Option.getD_none, overwrite_balance] at hwritten
  have hfinish : ∃ st₂, st₂.rowValue = some ((row.value.set .balance
      (stored .balance (row.value.balance + (terms.credit : ℚ) / 100))).stamp env.now) ∧
      Runs env (Users.audited "subscriber.cash_balance_add" none) st₂ r st' := by
    by_cases hcredit : 0 < terms.credit
    · simp only [if_pos hcredit] at h
      obtain ⟨st₂, hsame, h⟩ := h.ledger
      exact ⟨st₂, hsame.trans hwritten, h⟩
    · simp only [if_neg hcredit] at h
      exact ⟨_, hwritten, h⟩
  obtain ⟨st₂, hst₂, haudited⟩ := hfinish
  obtain ⟨hreply, hsame⟩ := haudited.audited
  refine ⟨row.value, hu, hreply, ?_⟩
  rw [hsame, hst₂, Op.own, hterms]

theorem Runs.changePlan {planId : ℕ} {policy : String}
    (h : Runs env (changePlan env planId policy) st r st') :
    ∃ row restored, st.account = some row ∧ r = .done restored ∧
      st'.rowValue = some (Op.own env restored row (.changePlan planId policy)) := by
  obtain ⟨u, hu, h⟩ := h.getAccount
  obtain ⟨row, hrow, rfl⟩ := Store.row_of_account hu
  obtain ⟨terms, hterms, h⟩ := h.orRaise
  obtain ⟨saved, h⟩ := h.upsertAccount
  obtain ⟨restored, st₁, hrestored, h⟩ := h.startNewPeriod
  rw [Store.rowValue_upsert hrow, Option.getD_none, overwrite_plan] at hrestored
  have hfinish : ∀ {p : Tx}, Runs env p st₁ r st' →
      (p = .statement (.createLedgerEntry
          ⟨.planChange, terms.debt, env.cfg.defaultCurrency⟩) (fun _ =>
            Users.audited "change_plan" restored) ∨ p = Users.audited "change_plan" restored) →
      r = .done restored ∧ st'.rowValue = st₁.rowValue := by
    rintro p hp (rfl | rfl)
    · obtain ⟨st₂, hsame, hp⟩ := hp.ledger
      exact ⟨hp.audited.1, hp.audited.2.trans hsame⟩
    · exact hp.audited
  have hdone : r = .done restored ∧ st'.rowValue = st₁.rowValue := by
    by_cases hdebt : 0 < terms.debt
    · simp only [if_pos hdebt] at h
      split_ifs at h
      · obtain ⟨-, -, h⟩ := h.getAccount
        exact hfinish h (.inl rfl)
      · exact hfinish h (.inl rfl)
    · simp only [if_neg hdebt] at h
      split_ifs at h
      · obtain ⟨-, -, h⟩ := h.getAccount
        exact hfinish h (.inr rfl)
      · exact hfinish h (.inr rfl)
  refine ⟨row.value, restored, hu, hdone.1, ?_⟩
  rw [hdone.2, hrestored, Op.own, hterms]
  rfl

end

section
variable [DecidableEq ν]

theorem saveEdit_runs {env : Env ν} {st st' : Store} {r : Reply} {row : Row}
    (hrow : st.row = some row) {base sub : Subscriber} {clearExpiry : Bool} {v : Option ν}
    (h : Runs env (saveEdit env (some row.value) (some base) sub clearExpiry v) st r st') :
    r = .done none ∧
      st'.rowValue = some (Op.own env none row.value (.update base sub clearExpiry v)) := by
  unfold saveEdit at h
  split_ifs at h with hstale hgone
  · cases h
  · simp at hgone
  · obtain ⟨-, -, h⟩ := h.orRaise
    obtain ⟨saved, h⟩ := h.upsertAccount
    have hwritten := Store.rowValue_upsert hrow
      (submitted (some row.value) (some base) sub clearExpiry).sub
      (submitted (some row.value) (some base) sub clearExpiry).changed env.newId env.now
    rw [overwrite_edit] at hwritten
    have hfinish : ∃ st₂, st₂.rowValue =
        some (Op.own env none row.value (.update base sub clearExpiry v)) ∧
        Runs env (audited "update" none) st₂ r st' := by
      simp only [recordManualBalanceChange] at h
      by_cases hdelta : Accounting.roundMoney saved.balance -
          Accounting.roundMoney row.value.balance = 0
      · rw [if_pos hdelta] at h
        exact ⟨_, hwritten, h⟩
      · rw [if_neg hdelta] at h
        obtain ⟨st₂, hsame, h⟩ := h.ledger
        exact ⟨st₂, hsame.trans hwritten, h⟩
    obtain ⟨st₂, hst₂, haudited⟩ := hfinish
    obtain ⟨hreply, hsame⟩ := haudited.audited
    exact ⟨hreply, hsame.trans hst₂⟩

theorem Runs.update {env : Env ν} {st st' : Store} {r : Reply} {base sub : Subscriber}
    {clearExpiry : Bool} {v : Option ν}
    (h : Runs env (update env (some base) sub clearExpiry v) st r st') :
    ∃ row, st.account = some row ∧ r = .done none ∧
      st'.rowValue = some (Op.own env none row (.update base sub clearExpiry v)) := by
  have hgone : ∀ {st₁}, ¬Runs env (saveEdit env none (some base) sub clearExpiry v) st₁ r st' := by
    intro st₁ h
    simp only [saveEdit, Option.any_none, Bool.false_eq_true, if_false, Option.isSome_some,
      Option.isNone_none, and_self, if_true] at h
    cases h
  simp only [Runs, Users.update, eval] at h
  cases hselect : env.faults.sqlite.write .select st with
  | error e =>
    rw [hselect] at h
    exact (hgone h).elim
  | ok z =>
    have hsame : st = z := (write_row hselect).symm
    subst hsame
    rw [hselect] at h
    cases hu : st.account with
    | none =>
      simp only [hu] at h
      exact (hgone h).elim
    | some u =>
      simp only [hu] at h
      obtain ⟨row, hrow, rfl⟩ := Store.row_of_account hu
      exact ⟨row.value, rfl, saveEdit_runs hrow h⟩

theorem own_of_runs {env : Env ν} {op : Op ν} {st st' : Store} {r : Reply}
    (h : Runs env (op.body env) st r st') :
    ∃ row restored, st.account = some row ∧ r = .done restored ∧
      st'.rowValue = some (op.own env restored row) := by
  cases op with
  | update base sub clearExpiry v =>
    obtain ⟨row, hu, hreply, hown⟩ := h.update
    exact ⟨row, none, hu, hreply, hown⟩
  | extendTime minutes charge =>
    obtain ⟨u, hu, h⟩ := h.getAccount
    obtain ⟨row, hrow, rfl⟩ := Store.row_of_account hu
    obtain ⟨terms, hterms, h⟩ := h.orRaise
    obtain ⟨restored, hreply, hown⟩ := h.commitExpiry hrow
    refine ⟨row.value, restored, hu, hreply, ?_⟩
    rw [hown, Op.own, hterms]
  | setExpiry expireAt charge =>
    obtain ⟨u, hu, h⟩ := h.getAccount
    obtain ⟨row, hrow, rfl⟩ := Store.row_of_account hu
    obtain ⟨terms, hterms, h⟩ := h.orRaise
    obtain ⟨restored, hreply, hown⟩ := h.commitExpiry hrow
    refine ⟨row.value, restored, hu, hreply, ?_⟩
    rw [hown, Op.own, hterms]
  | addCashBalance amount currency settledDeduction =>
    obtain ⟨row, hu, hreply, hown⟩ := h.addCashBalance
    exact ⟨row, none, hu, hreply, hown⟩
  | changePlan planId policy => exact h.changePlan
  | disable =>
    obtain ⟨row, hu, hreply, hown⟩ := h.setStatus
    exact ⟨row, none, hu, hreply, hown⟩
  | enable =>
    obtain ⟨row, hu, hreply, hown⟩ := h.setStatus
    exact ⟨row, none, hu, hreply, hown⟩

theorem execute_cases (c : Call ν) (st : Store) :
    (∃ e, execute st c = (.error e, st)) ∨
    ∃ row restored, st.account = some row ∧ (execute st c).1 = .ok (.done restored) ∧
      (execute st c).2.rowValue = some (c.op.own c.env restored row) := by
  simp only [execute, Op.program, perform_transaction]
  rcases block_cases c.env.faults.sqlite (c.op.body c.env) st with hraised | ⟨r, st', heval, hdone⟩
  · exact .inl hraised
  · obtain ⟨row, restored, hu, rfl, hown⟩ := own_of_runs heval
    exact .inr ⟨row, restored, hu, by rw [hdone], by rw [hdone]; exact hown⟩

def committed : Store → List (Call ν) → List (Call ν × Option QuotaPeriod.Override)
  | _, [] => []
  | st, c :: calls =>
    match execute st c with
    | (.ok (.done restored), st') => (c, restored) :: committed st' calls
    | (_, st') => committed st' calls

theorem run_row (calls : List (Call ν)) (st : Store) :
    (Run.run step st calls).rowValue = (committed st calls).foldl
      (fun row c => row.map (c.1.op.own c.1.env c.2)) st.rowValue := by
  induction calls generalizing st with
  | nil => rfl
  | cons c calls ih =>
    rw [Run.run, List.foldl_cons, show List.foldl step (step st c) calls =
      Run.run step (step st c) calls from rfl, ih, committed, step]
    rcases execute_cases c st with ⟨e, hraised⟩ | ⟨row, restored, hu, hreply, hown⟩
    · rw [hraised]
    · obtain ⟨row', hrow, rfl⟩ := Store.row_of_account hu
      have hvalue : st.rowValue = some row'.value := by rw [Store.rowValue, hrow, Option.map_some]
      rcases hexecute : execute st c with ⟨r, st'⟩
      rw [hexecute] at hreply hown
      simp only at hreply hown
      subst hreply
      simp only [List.foldl_cons, hvalue, Option.map_some, hown]

end

end RadiusModule.Users
