import RadiusModule.Services.Users.EditRuns

/-!
# General adjustments

One action on a list of users. `Params` is what `validate_request` lets pass, the
dry run says for each name what the action would do, and the run does it name by
name. A store is the row of one user, so the users of a tenant are a store per name.
-/

namespace RadiusModule.GeneralAdjustments
open Library PyText Connection Users

inductive RawUsernames
  | text (s : String)
  | list (items : List (Option String))
  | other

def cleanNames (seen : List String) : List String → List String
  | [] => []
  | item :: items =>
    let name := strip item
    if name = "" ∨ name ∈ seen then cleanNames seen items
    else name :: cleanNames (name :: seen) items

def parseUsernames : RawUsernames → List String
  | .text s => cleanNames [] ((splitChars '\n' (replaceChar s ',' '\n').toList).map String.ofList)
  | .list items => cleanNames [] (items.filterMap id)
  | .other => []

def minPasswordLength : ℕ := 4

/-- What `validate_new_password` lets pass, where there is a password. -/
def PasswordAllowed (password : String) : Prop :=
  strip password ≠ "" ∧ minPasswordLength ≤ (strip password).length

instance (password : String) : Decidable (PasswordAllowed password) :=
  inferInstanceAs (Decidable (_ ∧ _))

inductive Params (cfg : Settings)
  | disable
  | enable
  | extend (minutes : ℤ) (pos : 0 < minutes) (le : minutes ≤ cfg.maxExtendMinutes)
  | resetPassword (password : String) (allowed : PasswordAllowed password)

inductive ItemStatus
  | notFound
  | ok
  | noChange
  | refused
deriving DecidableEq, Repr

structure Item where
  username : String
  ok : Bool
  status : ItemStatus
  currentStatus : Option String := none
  oldExpireAt : Option ℤ := none
  newExpireAt : Option ℤ := none

def lastInstant : ℤ := 253402300799999999

/-- `date value out of range` -/
inductive PlanError
  | overflow
deriving DecidableEq, Repr

variable {ν : Type}

/-- The end that the action gives; `datetime` addition raises past the last year. -/
def plannedExpiry (env : Env ν) (u : Users.Subscriber) (minutes : ℤ) : Except PlanError ℤ :=
  let new := anchor u.expireAt env.now + minutes * minute
  if lastInstant < new then .error .overflow else .ok new

def planOne (env : Env ν) (params : Params env.cfg) (name : String) (st : Store) :
    Except PlanError Item :=
  match st.account with
  | none => .ok { username := name, ok := false, status := .notFound }
  | some u =>
    let item : Item :=
      { username := name, ok := true, status := .ok, currentStatus := some u.status }
    match params with
    | .disable => .ok (if u.status = "disabled" then { item with status := .noChange } else item)
    | .enable => .ok (if u.status = "enabled" then { item with status := .noChange } else item)
    | .extend minutes _ _ => do
      let new ← plannedExpiry env u minutes
      if env.cfg.expiryLimit ≤ new then
        return { item with ok := false, status := .refused, oldExpireAt := u.expireAt }
      else return { item with oldExpireAt := u.expireAt, newExpireAt := some new }
    | .resetPassword _ _ => .ok item

def plan (env : Env ν) (params : Params env.cfg) (tenant : String → Store) :
    List String → Except PlanError (List Item)
  | [] => .ok []
  | name :: names => do
    let item ← planOne env params name (tenant name)
    let items ← plan env params tenant names
    return item :: items

/-- `reset_password` writes one column; the request has checked the password. -/
def resetPassword (env : Env ν) (password : String) : Tx :=
  if ¬ PasswordAllowed password then raise .validation
  else
    getAccount fun u =>
    .statement (.upsert (u.set .password password) (some (· = .password)) env.newId env.now)
      fun _ => audited "reset_password" none

def Params.body (env : Env ν) : Params env.cfg → Tx
  | .disable => Users.disable env
  | .enable => Users.enable env
  | .extend minutes _ _ => Users.extendTime env minutes {}
  | .resetPassword password _ => GeneralAdjustments.resetPassword env password

def runOne (env : Env ν) (params : Params env.cfg) (st : Store) : Except EditError Reply × Store :=
  perform env.faults.sqlite (.transaction (params.body env) .ret) st

structure Outcome where
  username : String
  ok : Bool
deriving DecidableEq

def run (env : Env ν) (params : Params env.cfg) (tenant : String → Store) :
    List String → List Outcome × (String → Store)
  | [] => ([], tenant)
  | name :: names =>
    let (reply, st) := runOne env params (tenant name)
    let (items, tenant) := run env params (Function.update tenant name st) names
    (⟨name, reply.isOk⟩ :: items, tenant)

/-- Nothing raises but the checks. -/
def calm (env : Env ν) : Env ν := { env with faults := {} }

structure PreviewKept (env : Env ν) (params : Params env.cfg) (tenant : String → Store)
    (names : List String) (items : List Item) : Prop where
  planned : plan env params tenant names = .ok items
  same : (run env params tenant names).1 = items.map fun item => ⟨item.username, item.ok⟩
  expiry : ∀ minutes pos le, params = .extend minutes pos le → ∀ item ∈ items, item.ok = true →
    ∃ u, (((run env params tenant names).2 item.username).rowValue = some u) ∧
      u.expireAt = item.newExpireAt
  unchanged : ∀ item ∈ items, item.ok = false →
    (run env params tenant names).2 item.username = tenant item.username
  alone : ∀ name ∈ names, ∀ other ∈ (run env params tenant names).1, other.username ≠ name →
    other ∈ (run env params tenant (names.erase name)).1 ∧
      (run env params tenant (names.erase name)).2 other.username =
        (run env params tenant names).2 other.username

/-- No extension of the user runs past the last year, and one without an end would be refused for
the limit of the ends anyway. -/
def Predictable (env : Env ν) (params : Params env.cfg) (st : Store) : Prop :=
  match params with
  | .extend minutes _ _ => ∀ u, st.account = some u →
    anchor u.expireAt env.now + minutes * minute ≤ lastInstant ∧
      (u.expireAt = none → env.cfg.expiryLimit ≤ env.now + minutes * minute)
  | _ => True

section
variable {env : Env ν} {st : Store}

def Succeeds (env : Env ν) (p : Tx) (st : Store) : Prop := ∃ r st', Runs env p st r st'

theorem account_of_rowValue {st : Store} {u : Users.Subscriber} (hrow : st.rowValue = some u)
    (hdeleted : u.deletedAt = none) : st.account = some u := by
  rw [Store.account, show st.row.map Row.value = some u from hrow]
  simp [hdeleted]

theorem deletedAt_of_account {u : Users.Subscriber} (h : st.account = some u) :
    u.deletedAt = none := by
  simpa using (Option.filter_eq_some_iff.mp h).2

variable (hcalm : env.faults = {})
include hcalm

theorem succeeds_statement {w : Statement} {next : Store → Tx}
    (h : Succeeds env (next (st.apply w)) (st.apply w)) :
    Succeeds env (.statement w next) st := by
  obtain ⟨r, st', h⟩ := h
  have hwrite : env.faults.sqlite.write w st = .ok (st.apply w) := by
    rw [hcalm]
    rfl
  refine ⟨r, st', ?_⟩
  simp only [Runs, eval, hwrite]
  exact h

theorem succeeds_audited (action : String) (restored : Option QuotaPeriod.Override) :
    Succeeds env (audited action restored) st := by
  refine ⟨.done restored, st.apply (.audit action), ?_⟩
  simp only [Runs, audited, eval, hcalm]
  rfl

theorem succeeds_getAccount {next : Users.Subscriber → Tx} {u : Users.Subscriber}
    (hu : st.account = some u) (h : Succeeds env (next u) st) :
    Succeeds env (getAccount next) st := by
  refine succeeds_statement hcalm ?_
  simpa only [Store.apply, hu] using h

theorem succeeds_upsertAccount {s saved : Users.Subscriber} {only : Option (Field → Bool)}
    {next : Users.Subscriber → Tx}
    (hsaved : (st.upsert s only env.newId env.now).account = some saved)
    (h : Succeeds env (next saved) (st.upsert s only env.newId env.now)) :
    Succeeds env (upsertAccount env s only next) st := by
  refine succeeds_statement hcalm ?_
  simpa only [Store.apply, hsaved] using h

omit hcalm in
theorem succeeds_onTimeAdded {before : Users.Subscriber} {newExpire minutes : ℤ} {reason : String}
    {next : Option QuotaPeriod.Override → Tx} (h : ∀ r st, Succeeds env (next r) st) :
    Succeeds env (onTimeAdded env before newExpire minutes reason next) st := by
  unfold onTimeAdded
  split_ifs
  · exact h _ _
  · unfold startNewPeriod
    split_ifs
    · exact h _ _
    · simp only [Succeeds, Runs, eval]
      split <;> exact h _ _
  · exact h _ _

theorem succeeds_setStatus {u : Users.Subscriber} (hu : st.account = some u)
    (status action : String) : Succeeds env (setStatus env status action) st := by
  obtain ⟨row, hrow, rfl⟩ := Store.row_of_account hu
  refine succeeds_getAccount hcalm hu ?_
  have hsaved := Store.rowValue_upsert hrow (row.value.set .status status)
    (some (· = .status)) env.newId env.now
  rw [Option.getD_some, overwrite_status] at hsaved
  exact succeeds_upsertAccount hcalm (account_of_rowValue hsaved (deletedAt_of_account hu :))
    (succeeds_audited hcalm _ _)

theorem succeeds_extendTime {u : Users.Subscriber} (hu : st.account = some u) {minutes : ℤ}
    {terms : ExpiryTerms}
    (hterms : extendTerms env.cfg env.now u.expireAt u.balance minutes {} = .ok terms)
    (hfree : terms.mode = .free) : Succeeds env (extendTime env minutes {}) st := by
  obtain ⟨row, hrow, rfl⟩ := Store.row_of_account hu
  refine succeeds_getAccount hcalm hu ?_
  simp only [hterms, orRaise, commitExpiry, hfree, ne_eq, not_true_eq_false, if_false]
  have hsaved := Store.rowValue_upsert hrow
    ((row.value.set .expireAt (some terms.newExpire)).set .balance row.value.balance) none env.newId
    env.now
  rw [Option.getD_none, overwrite_expiry] at hsaved
  exact succeeds_upsertAccount hcalm (account_of_rowValue hsaved (deletedAt_of_account hu :))
    (succeeds_onTimeAdded fun r st => succeeds_audited hcalm _ _)

theorem succeeds_resetPassword {u : Users.Subscriber} (hu : st.account = some u)
    {password : String} (hallowed : PasswordAllowed password) :
    Succeeds env (resetPassword env password) st := by
  rw [resetPassword, if_neg (not_not.mpr hallowed)]
  exact succeeds_getAccount hcalm hu (succeeds_statement hcalm (succeeds_audited hcalm _ _))

theorem runOne_of_succeeds (params : Params env.cfg) (h : Succeeds env (params.body env) st) :
    (runOne env params st).1.isOk = true := by
  obtain ⟨r, st', heval⟩ := h
  have hbegin : env.faults.sqlite.beginRaises st = none := by rw [hcalm]; rfl
  have hcommit : env.faults.sqlite.commitRaises st' = none := by rw [hcalm]; rfl
  rw [runOne, perform_transaction, block_of_eval hbegin heval hcommit]
  rfl

omit hcalm

theorem runOne_error {params : Params env.cfg} {st : Store} {e : EditError}
    (h : (runOne env params st).1 = .error e) : (runOne env params st).2 = st := by
  rw [runOne, perform_transaction] at h ⊢
  rcases block_cases env.faults.sqlite (params.body env) st with ⟨e', herror⟩ | ⟨a, y, -, hok⟩
  · rw [herror]
  · rw [hok] at h
    cases h

theorem runs_of_runOne {params : Params env.cfg} {r : Reply} {st' : Store}
    (h : runOne env params st = (.ok r, st')) : Runs env (params.body env) st r st' := by
  rw [runOne, perform_transaction] at h
  rcases block_cases env.faults.sqlite (params.body env) st with ⟨e', herror⟩ | ⟨a, y, heval, hok⟩
  · rw [herror] at h
    cases h
  · rw [hok] at h
    cases h
    exact heval

theorem extendTerms_free (cfg : Settings) (now : ℤ) (expireAt : Option ℤ) (balance : ℚ)
    {minutes : ℤ} (hpos : 0 < minutes) (hle : minutes ≤ cfg.maxExtendMinutes) :
    ∃ currency, extendTerms cfg now expireAt balance minutes {} =
      if expireAt.isNone then .error .validation
      else (addMinutesCapped cfg (anchor expireAt now) minutes).map fun newExpire =>
        { newExpire, minutes, mode := .free, cents := 0, currency } := by
  obtain ⟨currency, hcurrency⟩ : ∃ currency,
      Accounting.normalizeCurrency cfg.toSettings "" "" = .ok currency := ⟨_, rfl⟩
  have hmode : ChargeMode.ofText "free" = .ok .free := rfl
  refine ⟨currency, ?_⟩
  rw [extendTerms, if_neg (not_le.mpr hpos), if_neg (not_lt.mpr hle)]
  simp only [hcurrency, hmode, chargeAmount, requirePaidBalance, bind, Except.bind, pure,
    Except.pure]
  cases expireAt with
  | none => rfl
  | some e =>
    cases addMinutesCapped cfg (anchor (some e) now) minutes <;> rfl

theorem account_of_runs {params : Params env.cfg} {r : Reply} {st' : Store}
    (h : Runs env (params.body env) st r st') : ∃ u, st.account = some u := by
  cases params with
  | disable | enable | extend minutes hpos hle =>
    obtain ⟨u, hu, -⟩ := Runs.getAccount h
    exact ⟨u, hu⟩
  | resetPassword password hallowed =>
    rw [Params.body, resetPassword, if_neg (not_not.mpr hallowed)] at h
    obtain ⟨u, hu, -⟩ := Runs.getAccount h
    exact ⟨u, hu⟩

theorem expireAt_ownExpiry (terms : ExpiryTerms) (restored : Option QuotaPeriod.Override)
    (row : Users.Subscriber) : (ownExpiry env terms restored row).expireAt =
      some terms.newExpire := by
  cases restored <;> rfl

theorem extend_of_runs {minutes : ℤ} {r : Reply} {st' : Store}
    (h : Runs env (extendTime env minutes {}) st r st') :
    ∃ u terms, st.account = some u ∧
      extendTerms env.cfg env.now u.expireAt u.balance minutes {} = .ok terms ∧
        ∃ saved, st'.rowValue = some saved ∧ saved.expireAt = some terms.newExpire := by
  obtain ⟨u, hu, h⟩ := h.getAccount
  obtain ⟨row, hrow, rfl⟩ := Store.row_of_account hu
  obtain ⟨terms, hterms, h⟩ := h.orRaise
  obtain ⟨restored, -, hown⟩ := h.commitExpiry hrow
  exact ⟨row.value, terms, hu, hterms, _, hown, expireAt_ownExpiry terms restored row.value⟩

theorem isOk_cases (params : Params env.cfg) (st : Store) :
    (∃ r, (runOne env params st).1.isOk = true ∧
      Runs env (params.body env) st r (runOne env params st).2) ∨
    ((runOne env params st).1.isOk = false ∧ (runOne env params st).2 = st) := by
  rcases hrun : runOne env params st with ⟨e | r, st'⟩
  · have herror : (runOne env params st).1 = .error e := by rw [hrun]
    have hsame := runOne_error herror
    rw [hrun] at hsame
    exact .inr ⟨rfl, hsame⟩
  · exact .inl ⟨r, rfl, runs_of_runOne hrun⟩

structure Foretold (env : Env ν) (params : Params env.cfg) (name : String) (st : Store)
    (item : Item) : Prop where
  planned : planOne env params name st = .ok item
  username : item.username = name
  same : (runOne env params st).1.isOk = item.ok
  expiry : ∀ minutes pos le, params = .extend minutes pos le → item.ok = true →
    ∃ u, (runOne env params st).2.rowValue = some u ∧ u.expireAt = item.newExpireAt
  unchanged : item.ok = false → (runOne env params st).2 = st

theorem foretold_missing (params : Params env.cfg) (name : String) (hnone : st.account = none) :
    Foretold env params name st { username := name, ok := false, status := .notFound } := by
  have hfails : (runOne env params st).1.isOk = false ∧ (runOne env params st).2 = st := by
    rcases isOk_cases params st with ⟨r, -, hruns⟩ | hfails
    · obtain ⟨u, hu⟩ := account_of_runs hruns
      rw [hnone] at hu
      cases hu
    · exact hfails
  refine ⟨?_, rfl, hfails.1, fun _ _ _ _ h => absurd h (by simp), fun _ => hfails.2⟩
  rw [planOne, hnone]

theorem foretold_of_ok {params : Params env.cfg} {name : String} {item : Item}
    (hcalm : env.faults = {}) (hsucceeds : Succeeds env (params.body env) st)
    (hplanned : planOne env params name st = .ok item) (husername : item.username = name)
    (hok : item.ok = true) (hparams : ∀ minutes pos le, params ≠ .extend minutes pos le) :
    Foretold env params name st item :=
  ⟨hplanned, husername, by rw [runOne_of_succeeds hcalm params hsucceeds, hok],
    fun minutes pos le h => absurd h (hparams minutes pos le), by simp [hok]⟩

theorem foretold_extend (hcalm : env.faults = {}) {u : Users.Subscriber}
    (hu : st.account = some u) (name : String) {minutes : ℤ} (hpos : 0 < minutes)
    (hle : minutes ≤ env.cfg.maxExtendMinutes)
    (hlast : anchor u.expireAt env.now + minutes * minute ≤ lastInstant)
    (hnone : u.expireAt = none → env.cfg.expiryLimit ≤ env.now + minutes * minute) :
    ∃ item, Foretold env (.extend minutes hpos hle) name st item := by
  obtain ⟨currency, hterms⟩ := extendTerms_free env.cfg env.now u.expireAt u.balance hpos hle
  have hplan : plannedExpiry env u minutes =
      .ok (anchor u.expireAt env.now + minutes * minute) := if_neg (not_lt.mpr hlast)
  by_cases hlimit : env.cfg.expiryLimit ≤ anchor u.expireAt env.now + minutes * minute
  · have hrefused : ∃ e, extendTerms env.cfg env.now u.expireAt u.balance minutes {} =
        .error e := by
      rw [hterms, addMinutesCapped, if_pos hlimit]
      split_ifs <;> exact ⟨_, rfl⟩
    have hfails : (runOne env (.extend minutes hpos hle) st).1.isOk = false ∧
        (runOne env (.extend minutes hpos hle) st).2 = st := by
      rcases isOk_cases (.extend minutes hpos hle) st with ⟨r, -, hruns⟩ | hfails
      · obtain ⟨u', terms, hu', hok, -⟩ := extend_of_runs hruns
        obtain rfl : u = u' := Option.some_injective _ (hu.symm.trans hu')
        obtain ⟨e, he⟩ := hrefused
        rw [he] at hok
        cases hok
      · exact hfails
    refine ⟨{ username := name, ok := false, status := .refused, currentStatus := some u.status
              oldExpireAt := u.expireAt }, ?_, rfl, hfails.1, fun _ _ _ _ h => absurd h (by simp),
      fun _ => hfails.2⟩
    simp only [planOne, hu, hplan, bind, Except.bind, if_pos hlimit]
    rfl
  · obtain ⟨e, he⟩ : ∃ e, u.expireAt = some e := by
      refine Option.ne_none_iff_exists'.mp fun hmissing => hlimit ?_
      rw [hmissing]
      exact hnone hmissing
    have hok : extendTerms env.cfg env.now u.expireAt u.balance minutes {} =
        .ok { newExpire := anchor u.expireAt env.now + minutes * minute, minutes, mode := .free
              cents := 0, currency } := by
      rw [hterms, addMinutesCapped, if_neg hlimit, if_neg (by simp [he])]
      rfl
    have hsucceeds := runOne_of_succeeds hcalm (.extend minutes hpos hle)
      (succeeds_extendTime hcalm hu hok rfl)
    refine ⟨{ username := name, ok := true, status := .ok, currentStatus := some u.status
              oldExpireAt := u.expireAt
              newExpireAt := some (anchor u.expireAt env.now + minutes * minute) }, ?_, rfl,
      hsucceeds, ?_, fun h => absurd h (by simp)⟩
    · simp only [planOne, hu, hplan, bind, Except.bind, if_neg hlimit]
      rfl
    · rintro _ _ _ - -
      rcases isOk_cases (.extend minutes hpos hle) st with ⟨r, -, hruns⟩ | ⟨hfails, -⟩
      · obtain ⟨u', terms, hu', hterms', saved, hsaved, hexpiry⟩ := extend_of_runs hruns
        obtain rfl : u = u' := Option.some_injective _ (hu.symm.trans hu')
        rw [hok] at hterms'
        cases hterms'
        exact ⟨saved, hsaved, hexpiry⟩
      · rw [hfails] at hsucceeds
        cases hsucceeds

theorem foretold_of_predictable (hcalm : env.faults = {}) (params : Params env.cfg) (name : String)
    (h : Predictable env params st) : ∃ item, Foretold env params name st item := by
  cases hu : st.account with
  | none => exact ⟨_, foretold_missing params name hu⟩
  | some u =>
    cases params with
    | disable =>
      refine ⟨{ username := name, ok := true, currentStatus := some u.status
                status := if u.status = "disabled" then .noChange else .ok },
        foretold_of_ok hcalm (succeeds_setStatus hcalm hu _ _) ?_ rfl rfl (by simp)⟩
      simp only [planOne, hu]
      split_ifs <;> rfl
    | enable =>
      refine ⟨{ username := name, ok := true, currentStatus := some u.status
                status := if u.status = "enabled" then .noChange else .ok },
        foretold_of_ok hcalm (succeeds_setStatus hcalm hu _ _) ?_ rfl rfl (by simp)⟩
      simp only [planOne, hu]
      split_ifs <;> rfl
    | extend minutes hpos hle =>
      obtain ⟨hlast, hnone⟩ := h u hu
      exact foretold_extend hcalm hu name hpos hle hlast hnone
    | resetPassword password hallowed =>
      refine ⟨{ username := name, ok := true, status := .ok, currentStatus := some u.status },
        foretold_of_ok hcalm (succeeds_resetPassword hcalm hu hallowed) ?_ rfl rfl (by simp)⟩
      rw [planOne, hu]

theorem predictable_of_foretold {params : Params env.cfg} {name : String} {item : Item}
    (hplanned : planOne env params name st = .ok item)
    (hsame : (runOne env params st).1.isOk = item.ok) : Predictable env params st := by
  cases params with
  | disable | enable | resetPassword password hallowed => trivial
  | extend minutes hpos hle =>
    intro u hu
    have hlast : anchor u.expireAt env.now + minutes * minute ≤ lastInstant := by
      by_contra hoverflow
      have hplan : plannedExpiry env u minutes = .error .overflow := if_pos (not_le.mp hoverflow)
      simp only [planOne, hu, hplan, bind, Except.bind] at hplanned
      cases hplanned
    refine ⟨hlast, fun hnone => ?_⟩
    by_contra hlimit
    have hplan : plannedExpiry env u minutes =
        .ok (anchor u.expireAt env.now + minutes * minute) := if_neg (not_lt.mpr hlast)
    have hanchor : ¬ env.cfg.expiryLimit ≤ anchor u.expireAt env.now + minutes * minute := by
      rw [hnone]
      exact hlimit
    simp only [planOne, hu, hplan, bind, Except.bind, if_neg hanchor, pure, Except.pure,
      Except.ok.injEq] at hplanned
    rw [← hplanned] at hsame
    rcases isOk_cases (.extend minutes hpos hle) st with ⟨r, -, hruns⟩ | ⟨hfails, -⟩
    · obtain ⟨u', terms, hu', hterms, -⟩ := extend_of_runs hruns
      obtain rfl : u = u' := Option.some_injective _ (hu.symm.trans hu')
      obtain ⟨currency, hfree⟩ := extendTerms_free env.cfg env.now u.expireAt u.balance hpos hle
      rw [hfree, if_pos (by simp [hnone])] at hterms
      cases hterms
    · rw [hfails] at hsame
      cases hsame

end

section
variable {env : Env ν} {params : Params env.cfg}

theorem cleanNames_nodup (items : List String) : ∀ seen : List String,
    (cleanNames seen items).Nodup ∧ ∀ name ∈ cleanNames seen items, name ∉ seen := by
  induction items with
  | nil => simp [cleanNames]
  | cons item items ih =>
    intro seen
    rw [cleanNames]
    split_ifs with hskip
    · exact ih seen
    · obtain ⟨hnodup, hnew⟩ := ih (strip item :: seen)
      rw [not_or] at hskip
      refine ⟨List.nodup_cons.mpr ⟨fun hmem => hnew _ hmem List.mem_cons_self, hnodup⟩, ?_⟩
      intro name hname
      rcases List.mem_cons.mp hname with rfl | hname
      · exact hskip.2
      · exact fun hseen => hnew name hname (List.mem_cons_of_mem _ hseen)

theorem parseUsernames_nodup (raw : RawUsernames) : (parseUsernames raw).Nodup := by
  cases raw with
  | text s => exact (cleanNames_nodup _ []).1
  | list items => exact (cleanNames_nodup _ []).1
  | other => exact List.nodup_nil

theorem run_eq {names : List String} (hnodup : names.Nodup) : ∀ tenant : String → Store,
    run env params tenant names =
      (names.map fun name => ⟨name, (runOne env params (tenant name)).1.isOk⟩,
        fun name => if name ∈ names then (runOne env params (tenant name)).2
          else tenant name) := by
  induction names with
  | nil =>
    intro tenant
    simp [run]
  | cons first names ih =>
    intro tenant
    obtain ⟨hfirst, hnodup⟩ := List.nodup_cons.mp hnodup
    have hother : ∀ name ∈ names, Function.update tenant first
        (runOne env params (tenant first)).2 name = tenant name := by
      intro name hname
      refine Function.update_of_ne ?_ _ _
      rintro rfl
      exact hfirst hname
    rw [run]
    dsimp only
    rw [ih hnodup]
    refine Prod.ext ?_ (funext fun name => ?_)
    · simp only [List.map_cons, List.cons.injEq, true_and]
      exact List.map_congr_left fun name hname => by rw [hother name hname]
    · dsimp only
      by_cases hname : name ∈ names
      · rw [if_pos hname, if_pos (List.mem_cons_of_mem _ hname), hother name hname]
      · rw [if_neg hname]
        by_cases heq : name = first
        · subst heq
          rw [Function.update_self, if_pos List.mem_cons_self]
        · rw [Function.update_of_ne heq, if_neg (by simp [heq, hname])]

theorem plan_eq_ok_iff {tenant : String → Store} {names : List String} {items : List Item} :
    plan env params tenant names = .ok items ↔
      List.Forall₂ (fun name item => planOne env params name (tenant name) = .ok item) names
        items := by
  induction names generalizing items with
  | nil =>
    rw [plan, List.forall₂_nil_left_iff]
    exact ⟨fun h => (Except.ok.inj h).symm, fun h => h ▸ rfl⟩
  | cons name names ih =>
    rw [plan, List.forall₂_cons_left_iff]
    constructor
    · intro h
      cases hitem : planOne env params name (tenant name) with
      | error e =>
        rw [hitem] at h
        cases h
      | ok item =>
        rw [hitem] at h
        cases hrest : plan env params tenant names with
        | error e =>
          simp only [hrest, bind, Except.bind] at h
          cases h
        | ok rest =>
          simp only [hrest, bind, Except.bind] at h
          cases h
          exact ⟨item, rest, rfl, ih.mp hrest, rfl⟩
    · rintro ⟨item, rest, hitem, hrest, rfl⟩
      rw [hitem, ih.mpr hrest]
      rfl

theorem exists_foretold {tenant : String → Store} {names : List String}
    (h : ∀ name ∈ names, ∃ item, Foretold env params name (tenant name) item) :
    ∃ items, List.Forall₂ (fun name item => Foretold env params name (tenant name) item) names
      items := by
  induction names with
  | nil => exact ⟨[], .nil⟩
  | cons name names ih =>
    obtain ⟨item, hitem⟩ := h name List.mem_cons_self
    obtain ⟨items, hitems⟩ := ih fun name hname => h name (List.mem_cons_of_mem _ hname)
    exact ⟨item :: items, .cons hitem hitems⟩

theorem previewKept_of_foretold {tenant : String → Store} {names : List String}
    (hnodup : names.Nodup) {items : List Item}
    (h : List.Forall₂ (fun name item => Foretold env params name (tenant name) item) names
      items) : PreviewKept env params tenant names items := by
  have hitem : ∀ item ∈ items, item.username ∈ names ∧
      Foretold env params item.username (tenant item.username) item := by
    intro item hmem
    obtain ⟨name, hname, hforetold⟩ : ∃ name ∈ names,
        Foretold env params name (tenant name) item := by
      obtain ⟨hlength, hget⟩ := List.forall₂_iff_get.mp h
      obtain ⟨i, hi, rfl⟩ := List.mem_iff_getElem.mp hmem
      exact ⟨names.get ⟨i, hlength ▸ hi⟩, List.get_mem _ _, hget i (hlength ▸ hi) hi⟩
    obtain rfl := hforetold.username
    exact ⟨hname, hforetold⟩
  refine ⟨plan_eq_ok_iff.mpr (h.imp fun _ _ hforetold => hforetold.planned), ?_, ?_, ?_, ?_⟩
  · rw [run_eq hnodup]
    dsimp only
    clear hitem hnodup
    induction h with
    | nil => rfl
    | cons hforetold _ ih =>
      rw [List.map_cons, List.map_cons, ih, hforetold.username, hforetold.same]
  · intro minutes pos le hparams item hmem hok
    obtain ⟨hname, hforetold⟩ := hitem item hmem
    rw [run_eq hnodup]
    dsimp only
    rw [if_pos hname]
    exact hforetold.expiry minutes pos le hparams hok
  · intro item hmem hfails
    obtain ⟨hname, hforetold⟩ := hitem item hmem
    rw [run_eq hnodup]
    dsimp only
    rw [if_pos hname]
    exact hforetold.unchanged hfails
  · intro name hname other hother hne
    rw [run_eq hnodup] at hother ⊢
    rw [run_eq (hnodup.erase name)]
    obtain ⟨second, hsecond, rfl⟩ := List.mem_map.mp hother
    have hleft : second ∈ names.erase name := (hnodup.mem_erase_iff).mpr ⟨hne, hsecond⟩
    refine ⟨List.mem_map.mpr ⟨second, hleft, rfl⟩, ?_⟩
    dsimp only
    rw [if_pos hleft, if_pos hsecond]

end

theorem predictable_of_previewKept {env : Env ν} {params : Params (calm env).cfg}
    {tenant : String → Store} {names : List String} {items : List Item} (hnodup : names.Nodup)
    (hkept : PreviewKept (calm env) params tenant names items) :
    ∀ name ∈ names, Predictable (calm env) params (tenant name) := by
  intro name hname
  have hplanned := plan_eq_ok_iff.mp hkept.planned
  have hsame := hkept.same
  rw [run_eq hnodup] at hsame
  dsimp only at hsame
  clear hkept hnodup
  induction hplanned with
  | nil => cases hname
  | cons hitem _ ih =>
    rw [List.map_cons, List.map_cons, List.cons.injEq, Outcome.mk.injEq] at hsame
    rcases List.mem_cons.mp hname with rfl | hname
    · exact predictable_of_foretold hitem hsame.1.2
    · exact ih hname hsame.2

/-- The preview is kept exactly where every listed user is predictable: an extension is asked of
no account without an end, and takes no end past the last year. -/
theorem previewKept_iff (env : Env ν) (params : Params (calm env).cfg) (tenant : String → Store)
    (raw : RawUsernames) :
    (∃ items, PreviewKept (calm env) params tenant (parseUsernames raw) items) ↔
      ∀ name ∈ parseUsernames raw, Predictable (calm env) params (tenant name) := by
  have hnodup := parseUsernames_nodup raw
  constructor
  · rintro ⟨items, hkept⟩
    exact predictable_of_previewKept hnodup hkept
  · intro hpredictable
    obtain ⟨items, hitems⟩ := exists_foretold fun name hname =>
      foretold_of_predictable rfl params name (hpredictable name hname)
    exact ⟨items, previewKept_of_foretold hnodup hitems⟩

def afternoon : Env Unit where
  now := 1800000000 * second
  digest := fun _ => ()
  radacct := .empty

def unlimited : Store where
  row := some (.insert (Subscriber.new "u1" "secret") 1 0)

def hourMore : Params (calm afternoon).cfg := .extend 60 (by decide) (by decide)

/-- The preview shows an end an hour from now, and the run refuses. -/
theorem unlimited_previewed : ¬ ∃ items, PreviewKept (calm afternoon) hourMore (fun _ => unlimited)
    (parseUsernames (.text "u1")) items := by
  rintro ⟨items, hkept⟩
  have hpredictable := predictable_of_previewKept (parseUsernames_nodup _) hkept
  have hmem : "u1" ∈ parseUsernames (.text "u1") := by decide
  have hlimit := (hpredictable "u1" hmem _ rfl).2 rfl
  exact absurd hlimit (by decide)

end RadiusModule.GeneralAdjustments
