import RadiusModule.Services.Users.EditRuns

/-!
# What an edit leaves, and when it is stale

The changes of an edit leave the fields that the editor has not touched. The
version of the row that he loaded is compared under the lock, so the edit is
stale when that row had other values, and only then.
-/

namespace RadiusModule.Users
open Library Connection

variable {ν : Type}

theorem own_update (env : Env ν) (restored : Option QuotaPeriod.Override) (row base sub : Subscriber)
    (clearExpiry : Bool) (v : Option ν) {f : Field} (hf : f ≠ .updatedAt) :
    Op.own env restored row (.update base sub clearExpiry v) f =
      if ownField base sub clearExpiry row f then stored f (submittedValue sub clearExpiry f)
      else row f := by
  change (if Field.all.any (ownField base sub clearExpiry row) then
    (ownEdit base sub clearExpiry row).stamp env.now else row) f = _
  split_ifs with hany hown hown
  · rw [Subscriber.stamp, Subscriber.set_of_ne _ hf, ownEdit, if_pos hown]
  · rw [Subscriber.stamp, Subscriber.set_of_ne _ hf, ownEdit, if_neg hown]
  · exact absurd (List.any_eq_true.mpr ⟨f, Field.mem_all f, hown⟩) hany
  · rfl

theorem own_update_untouched {env : Env ν} {restored : Option QuotaPeriod.Override}
    {row base sub : Subscriber} {clearExpiry : Bool} {v : Option ν} {f : Field}
    (hsame : base f = sub f) (hend : ¬(clearExpiry = true ∧ f = .expireAt))
    (hf : f ≠ .updatedAt) :
    Op.own env restored row (.update base sub clearExpiry v) f = row f := by
  rw [own_update _ _ _ _ _ _ _ hf, if_neg]
  simp only [ownField, hsame, ne_eq, not_true_eq_false, decide_false, Bool.false_or,
    Bool.and_eq_true, decide_eq_true_eq]
  exact fun h => hend h.1.1.2

theorem own_update_password {env : Env ν} {restored : Option QuotaPeriod.Override}
    {row base sub : Subscriber} {clearExpiry : Bool} {v : Option ν}
    (hempty : blank sub.password = true) (hkept : blank row.password = false) :
    Op.own env restored row (.update base sub clearExpiry v) .password = row .password := by
  rw [own_update _ _ _ _ _ _ _ (by decide), if_neg]
  simp [ownField, hempty, hkept]

theorem own_update_expireAt {env : Env ν} {restored : Option QuotaPeriod.Override}
    {row base sub : Subscriber} {v : Option ν} (hmissing : sub.expireAt = none) :
    Op.own env restored row (.update base sub false v) .expireAt = row .expireAt := by
  rw [own_update _ _ _ _ _ _ _ (by decide)]
  cases hrow : row.expireAt with
  | some e => simp [ownField, hmissing, hrow]
  | none =>
    have hvalue : stored .expireAt (submittedValue sub false .expireAt) = row .expireAt :=
      hmissing.trans hrow.symm
    rw [hvalue, ite_self]

/-- `a` and `b` differ in a field of the version, beyond the precision of it. -/
def Differ (a b : Subscriber) : Prop :=
  ∃ f ∉ Field.versionSkip, versioned f (a f) ≠ versioned f (b f)

theorem snapshot_eq_iff (a b : Subscriber) : snapshot a = snapshot b ↔ ¬Differ a b := by
  constructor
  · rintro h ⟨f, hf, hne⟩
    exact hne (congrFun h ⟨f, hf⟩)
  · intro h
    funext f
    by_contra hne
    exact h ⟨f.1, f.2, hne⟩

def NeverStale (env : Env ν) (p : Tx) : Prop :=
  ∀ st, (eval env.faults.sqlite p st).1 ≠ .error .staleEdit

section
variable {env : Env ν}

theorem NeverStale.ret (r : Reply) : NeverStale env (.ret r) :=
  fun _ h => nomatch h

theorem NeverStale.raise {e : EditError} (h : e ≠ .staleEdit) : NeverStale env (.raise e) :=
  fun _ heq => h (Except.error.inj heq)

theorem NeverStale.statement {w : Statement} {next : Store → Tx}
    (h : ∀ st, NeverStale env (next st)) : NeverStale env (.statement w next) := by
  intro st
  simp only [eval]
  cases hwrite : env.faults.sqlite.write w st with
  | ok z => exact h z z
  | error e =>
    simp only [Faults.sqlite] at hwrite
    split at hwrite
    · cases hwrite
      intro heq
      cases heq
    · cases hwrite

theorem NeverStale.attempt {body : Tx} {next : Except EditError Reply → Tx}
    (h : ∀ r, NeverStale env (next r)) : NeverStale env (.attempt body next) :=
  fun _ => h _ _

theorem NeverStale.audited (action : String) (restored : Option QuotaPeriod.Override) :
    NeverStale env (audited action restored) :=
  .attempt fun _ => .ret _

theorem NeverStale.upsertAccount {s : Subscriber} {only : Option (Field → Bool)}
    {next : Subscriber → Tx} (h : ∀ saved, NeverStale env (next saved)) :
    NeverStale env (upsertAccount env s only next) := by
  refine .statement fun st => ?_
  cases st.account with
  | none => exact .raise fun h => nomatch h
  | some saved => exact h saved

theorem NeverStale.orRaise {α : Type} {terms : Except Accounting.Error α} {next : α → Tx}
    (h : ∀ a, NeverStale env (next a)) : NeverStale env (orRaise terms next) := by
  cases terms with
  | error e => exact .raise fun h => nomatch h
  | ok a => exact h a

end

section
variable [DecidableEq ν]

theorem stale_refused {st : Store} {c : Call ν} {base sub : Subscriber} {clearExpiry : Bool}
    {v : ν} {row : Subscriber} (hop : c.op = .update base sub clearExpiry (some v))
    (hrow : st.account = some row) (hstale : v ≠ subscriberVersion c.env row) :
    ∃ e, execute st c = (.error e, st) := by
  simp only [execute, Op.program, perform_transaction]
  rcases block_cases c.env.faults.sqlite (c.op.body c.env) st with hraised | ⟨r, st', heval, -⟩
  · exact hraised
  · exfalso
    rw [hop] at heval
    simp only [Op.body, update, eval] at heval
    cases hselect : c.env.faults.sqlite.write .select st with
    | error e =>
      simp only [hselect, saveEdit, Option.any_none, Bool.false_eq_true, if_false,
        Option.isSome_some, Option.isNone_none, and_self, if_true] at heval
      cases heval
    | ok z =>
      have hsame : st = z := (write_row hselect).symm
      subst hsame
      have hraises : saveEdit c.env (some row) (some base) sub clearExpiry (some v) =
          .raise .staleEdit := if_pos (by simpa using hstale)
      simp only [hselect, hrow, hraises] at heval
      cases heval

theorem neverStale_saveEdit {env : Env ν} {existing base : Option Subscriber} {sub : Subscriber}
    {clearExpiry : Bool} {v : Option ν}
    (hfresh : ∀ row ∈ existing, ∀ w ∈ v, w = subscriberVersion env row) :
    NeverStale env (saveEdit env existing base sub clearExpiry v) := by
  have hversion : existing.any (fun row => v.any (· ≠ subscriberVersion env row)) = false := by
    cases existing with
    | none => rfl
    | some row =>
      cases v with
      | none => rfl
      | some w => simpa using hfresh row rfl w rfl
  unfold saveEdit
  rw [hversion]
  simp only [Bool.false_eq_true, if_false]
  split_ifs
  · exact .raise fun h => nomatch h
  · refine .orRaise fun _ => .upsertAccount fun saved => ?_
    cases existing with
    | none => exact .audited _ _
    | some row =>
      dsimp only [recordManualBalanceChange]
      by_cases hdelta : Accounting.roundMoney saved.balance - Accounting.roundMoney row.balance = 0
      · rw [if_pos hdelta]
        exact .audited _ _
      · rw [if_neg hdelta]
        exact .statement fun _ => .audited _ _

theorem fresh_accepted {st : Store} {c : Call ν} {base sub : Subscriber} {clearExpiry : Bool}
    {v : Option ν} (hop : c.op = .update base sub clearExpiry v)
    (hfresh : ∀ row ∈ st.account, ∀ w ∈ v, w = subscriberVersion c.env row) :
    (execute st c).1 ≠ .error .staleEdit := by
  have hnone : ∀ st₁, (eval c.env.faults.sqlite
      (saveEdit c.env none (some base) sub clearExpiry v) st₁).1 ≠ .error .staleEdit :=
    neverStale_saveEdit fun row hrow => nomatch hrow
  have heval : (eval c.env.faults.sqlite (c.op.body c.env) st).1 ≠ .error .staleEdit := by
    rw [hop]
    simp only [Op.body, update, eval]
    cases hselect : c.env.faults.sqlite.write .select st with
    | error e => exact hnone st
    | ok z =>
      have hsame : st = z := (write_row hselect).symm
      subst hsame
      exact neverStale_saveEdit hfresh st
  simp only [execute, Op.program, perform_transaction]
  intro hstale
  rcases hblock : block c.env.faults.sqlite (c.op.body c.env) st with ⟨r, st'⟩
  rw [hblock] at hstale
  simp only at hstale
  subst hstale
  rcases block_error hblock with hbegin | hbody | ⟨z, hcommit⟩
  · simp [Faults.sqlite] at hbegin
  · exact heval hbody
  · simp [Faults.sqlite] at hcommit

structure EditSound (st : Store) (c : Call ν) (base sub : Subscriber) (clearExpiry : Bool)
    (v : Option ν) : Prop where
  untouched : ∀ r, (execute st c).1 = .ok r → ∃ row row', st.account = some row ∧
    (execute st c).2.rowValue = some row' ∧
    (∀ f, base f = sub f → ¬(clearExpiry = true ∧ f = .expireAt) → f ≠ .updatedAt →
      row' f = row f) ∧
    (blank sub.password = true → blank row.password = false → row'.password = row.password) ∧
    (sub.expireAt = none → clearExpiry = false → row'.expireAt = row.expireAt)
  stale : Function.Injective c.env.digest → ∀ loaded row, v = some (subscriberVersion c.env loaded) →
    st.account = some row → Differ loaded row → ∃ e, execute st c = (.error e, st)
  fresh : ∀ loaded row, v = some (subscriberVersion c.env loaded) → st.account = some row →
    ¬Differ loaded row → (execute st c).1 ≠ .error .staleEdit

theorem editSound {st : Store} {c : Call ν} {base sub : Subscriber} {clearExpiry : Bool}
    {v : Option ν} (hop : c.op = .update base sub clearExpiry v) :
    EditSound st c base sub clearExpiry v where
  untouched r hr := by
    rcases execute_cases c st with ⟨e, hraised⟩ | ⟨row, restored, hrow, -, hown⟩
    · rw [hraised] at hr
      cases hr
    · refine ⟨row, _, hrow, hown, ?_, ?_, ?_⟩
      · intro f hsame hend hf
        rw [hop]
        exact own_update_untouched hsame hend hf
      · intro hempty hkept
        rw [hop]
        exact own_update_password hempty hkept
      · rintro hmissing rfl
        rw [hop]
        exact own_update_expireAt hmissing
  stale hdigest loaded row hv hrow hdiffer := by
    refine stale_refused (hv ▸ hop) hrow fun hsame => ?_
    exact (snapshot_eq_iff loaded row).mp (hdigest hsame) hdiffer
  fresh loaded row hv hrow hsame := by
    refine fresh_accepted hop fun row' hrow' w hw => ?_
    obtain rfl : row' = row := Option.some.inj (hrow'.symm.trans hrow)
    rw [hv] at hw
    cases hw
    exact congrArg c.env.digest ((snapshot_eq_iff loaded row').mpr hsame)

/-- Whatever the order of the actions, the row has the changes of each one that committed. -/
theorem edits_lose_nothing (calls : List (Call ν)) (st : Store) :
    (Run.run step st calls).rowValue = (committed st calls).foldl
        (fun row c => row.map (c.1.op.own c.1.env c.2)) st.rowValue ∧
      ∀ c : Call ν, (∀ e, (execute (Run.run step st calls) c).1 = .error e →
          (execute (Run.run step st calls) c).2 = Run.run step st calls) ∧
        ∀ base sub clearExpiry v, c.op = .update base sub clearExpiry v →
          EditSound (Run.run step st calls) c base sub clearExpiry v := by
  refine ⟨run_row calls st, fun c => ⟨fun e he => ?_, fun base sub clearExpiry v => editSound⟩⟩
  rcases execute_cases c (Run.run step st calls) with ⟨e', hraised⟩ | ⟨row, restored, -, hok, -⟩
  · rw [hraised]
  · rw [hok] at he
    cases he

end

instance : DecidableEq Snapshot := fun a b =>
  decidable_of_iff (∀ f ∈ Field.all, ∀ h : f ∉ Field.versionSkip, a ⟨f, h⟩ = b ⟨f, h⟩)
    ⟨fun h => funext fun f => h f.1 (Field.mem_all f.1) f.2, fun h _ _ _ => congrFun h _⟩

def plainEnv : Env Snapshot where
  now := 0
  digest := id
  radacct := .empty

def plainStore (row : Subscriber) : Store := { row := some (.insert row 1 0) }

theorem edits_lose_nothing_disabled :
    let loaded := (Subscriber.new "ali" "1234").inserted 1 0
    let edit : Call Snapshot := ⟨.update loaded (loaded.set .fullName "Ali") false
      (some (subscriberVersion plainEnv loaded)), plainEnv⟩
    let st := Run.run step (plainStore (.new "ali" "1234")) [⟨.disable, plainEnv⟩]
    ∃ e, execute st edit = (.error e, st) := by
  have hdisabled : (Run.run step (plainStore (.new "ali" "1234")) [⟨.disable, plainEnv⟩]).account.map
      Subscriber.status = some "disabled" := by decide +kernel
  obtain ⟨row, hrow, hstatus⟩ := Option.map_eq_some_iff.mp hdisabled
  refine (((edits_lose_nothing [⟨.disable, plainEnv⟩] (plainStore (.new "ali" "1234"))).2 _).2
    _ _ _ _ rfl).stale Function.injective_id _ row rfl hrow ⟨.status, by decide, fun h => ?_⟩
  have henabled : "enabled" = row.status := h
  rw [hstatus] at henabled
  exact absurd henabled (by decide)

/-- A stored password of blanks counts as none, so an edit with an empty one takes its place; and
the transport of an edit has no column. -/
theorem blank_password_replaced :
    let row := (Subscriber.new "ali" "  ").inserted 1 0
    let sub := (row.set .password "").set .transport "vps_accel"
    let edit : Call Snapshot := ⟨.update row sub false none, plainEnv⟩
    let after := (execute (plainStore (.new "ali" "  ")) edit).2.rowValue
    blank sub.password = true ∧ row.password = "  " ∧
      after.map Subscriber.password = some "" ∧ row .transport ≠ sub .transport ∧
      after.map (· .transport) = some "chr_mikrotik" := by
  decide +kernel

end RadiusModule.Users
