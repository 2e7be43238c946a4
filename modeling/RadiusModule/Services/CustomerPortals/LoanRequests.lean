import RadiusModule.Library.Table
import RadiusModule.Library.Run
import RadiusModule.Services.Accounting.Changes

/-!
# Loans that subscribers ask for

A request reads the policy, has a loan made where the policy approves of it, and
is then entered. Between these steps other requests and calls of the accounting
service may come.
-/

namespace RadiusModule.LoanRequests
open Library Connection Accounting

structure PortalPlan where
  loanEnabled : ℤ := 0
  maxLoanMinutes : ℤ := 0

def sequenceLimit (openCount : ℕ) : ℤ :=
  if openCount = 0 then 2 * 24 * 60 else if openCount = 1 then 24 * 60 else 0

/-- `enabled` always equals `auto_approve`; the texts are left out. -/
structure LoanPolicy where
  autoApprove : Bool
  allowedMinutes : ℤ
  openLoanCount : ℕ

def loans (b : Books) (subscriberId : ℕ) : List Loan :=
  b.loans.newest (fun l => l.subscriberId = subscriberId) 20

def openIn (loans : List Loan) : ℕ := loans.countP fun l => l.status = .open

def loanPolicy (plan : Option PortalPlan) (loans : List Loan) : LoanPolicy :=
  let plan := plan.getD {}
  if plan.loanEnabled = 0 ∨ plan.maxLoanMinutes ≤ 0 then ⟨false, 0, openIn loans⟩
  else
    let allowed := min plan.maxLoanMinutes (sequenceLimit (openIn loans))
    ⟨0 < allowed, allowed, openIn loans⟩

inductive Stage
  | policyRead
  | decided (loanId : Option ℕ)
  | finished

/-- A call of `submit_loan_request` under way, with the plan and the loans that it has read. -/
structure Submission where
  subscriberId : ℕ
  requestedMinutes : ℤ
  plan : Option PortalPlan
  loans : List Loan
  stage : Stage := .policyRead

def Submission.policy (s : Submission) : LoanPolicy := loanPolicy s.plan s.loans

def Submission.approved (s : Submission) : Bool :=
  s.policy.autoApprove && s.requestedMinutes ≤ s.policy.allowedMinutes

/-- A row of `customer_portal_requests`; it is approved when it names a loan. -/
structure LoanRequest where
  id : ℕ
  subscriberId : ℕ
  requestedMinutes : ℤ
  loanId : Option ℕ

structure Portal where
  books : Books
  submissions : List Submission
  requests : Table LoanRequest LoanRequest.id

inductive Event
  | submit (subscriberId : ℕ) (requestedMinutes : ℤ)
  | advance (i : ℕ) (env : Env)
  | account (call : Call)

def loanBody (subscriberId : ℕ) (requestedMinutes : ℤ) : LoanBody where
  subscriberId := some subscriberId
  durationMinutes := some requestedMinutes

/-- `none` where it raises. -/
def createLoan (env : Env) (s : Submission) (b : Books) : Option (ℕ × Books) :=
  match b.accounts.resolve (some s.subscriberId) "" with
  | none => none
  | some account =>
    match execute b ⟨.createLoan (loanBody account.id s.requestedMinutes), env⟩ with
    | (.ok (.loan id), b') => some (id, b')
    | _ => none

namespace Portal

def setStage (p : Portal) (i : ℕ) (stage : Stage) : Portal :=
  { p with submissions := p.submissions.modify i fun s => { s with stage } }

def submit (plans : ℕ → Option PortalPlan) (p : Portal) (subscriberId : ℕ)
    (requestedMinutes : ℤ) : Portal :=
  match p.books.accounts.resolve (some subscriberId) "" with
  | none => p
  | some account =>
    if requestedMinutes ≤ 0 then p
    else
      { p with
        submissions := p.submissions ++ [⟨subscriberId, requestedMinutes,
          account.planId.bind plans, loans p.books subscriberId, .policyRead⟩] }

def advance (p : Portal) (i : ℕ) (env : Env) : Portal :=
  match p.submissions[i]? with
  | none => p
  | some s =>
    match s.stage with
    | .policyRead =>
      if s.approved then
        match LoanRequests.createLoan env s p.books with
        | some (id, books) => { p with books }.setStage i (.decided (some id))
        | none => p.setStage i .finished
      else p.setStage i (.decided none)
    | .decided loanId =>
      { p with
        requests := p.requests.insert
          (fun id => ⟨id, s.subscriberId, s.requestedMinutes, loanId⟩)
          fun _ => rfl }.setStage i .finished
    | .finished => p

def step (plans : ℕ → Option PortalPlan) (p : Portal) : Event → Portal
  | .submit subscriberId requestedMinutes => p.submit plans subscriberId requestedMinutes
  | .advance i env => p.advance i env
  | .account call => { p with books := Accounting.step p.books call }

def grant (p : Portal) : Event → Option (Submission × Loan)
  | .advance i env =>
    match p.submissions[i]? with
    | none => none
    | some s =>
      match s.stage with
      | .policyRead =>
        if s.approved then
          (LoanRequests.createLoan env s p.books).bind fun (id, b) =>
            (b.loans.get? id).map fun loan => (s, loan)
        else none
      | _ => none
  | _ => none

end Portal

def isOpenOf (subscriberId : ℕ) (l : Loan) : Bool :=
  l.subscriberId = subscriberId && l.status = .open

def openLoans (b : Books) (subscriberId : ℕ) : ℕ := b.loans.count (isOpenOf subscriberId)

structure Portal.Capped (p : Portal) (s : Submission) (loan : Loan) : Prop where
  open_le : openLoans p.books s.subscriberId ≤ 1
  first : openLoans p.books s.subscriberId = 0 → loan.durationMinutes ≤ 2 * 24 * 60
  second : openLoans p.books s.subscriberId = 1 → loan.durationMinutes ≤ 24 * 60
  plan : ∃ plan ∈ s.plan, loan.durationMinutes ≤ plan.maxLoanMinutes

def Portal.EachCapped (p : Portal) (e : Event) : Prop :=
  ∀ s loan, p.grant e = some (s, loan) → p.Capped s loan

def grantedMinutes (plans : ℕ → Option PortalPlan) (subscriberId : ℕ) : Portal → List Event → ℤ
  | _, [] => 0
  | p, e :: es =>
    (match p.grant e with
      | some (s, loan) => if s.subscriberId = subscriberId then loan.durationMinutes else 0
      | none => 0) + grantedMinutes plans subscriberId (p.step plans e) es

def Portal.Unsettled (subscriberId : ℕ) (p : Portal) (e : Event) : Prop :=
  ∀ call, e = .account call →
    openLoans p.books subscriberId ≤ openLoans (Accounting.step p.books call) subscriberId

/-- Every loan of a run keeps to the caps, and without a settlement they come to at most three
days. -/
structure LoansCapped (plans : ℕ → Option PortalPlan) (p : Portal) (es : List Event) : Prop where
  each : Run.Along Portal.EachCapped (Portal.step plans) p es
  total : ∀ subscriberId before between after, es = before ++ between ++ after →
    Run.Along (Portal.Unsettled subscriberId) (Portal.step plans)
      (Run.run (Portal.step plans) p before) between →
    grantedMinutes plans subscriberId (Run.run (Portal.step plans) p before) between ≤ 3 * 24 * 60

/-- The loans that a request has read show as many open ones as there are when its loan is made;
a day or less may also come on top of one open loan. -/
def Portal.Informed (p : Portal) (e : Event) : Prop :=
  ∀ s loan, p.grant e = some (s, loan) → openLoans p.books s.subscriberId ≤ openIn s.loans ∨
    openLoans p.books s.subscriberId = 1 ∧ s.requestedMinutes ≤ 24 * 60

theorem namedMinutes_loanBody {id : ℕ} {minutes named : ℤ}
    (h : namedMinutes (loanBody id minutes) = .ok named) : named = minutes := by
  have hzero : ∀ field, toInt field 0 0 = .ok 0 := fun field => if_neg (lt_irrefl 0)
  have hform : namedMinutes (loanBody id minutes) = (toInt "duration_minutes" 0 minutes).bind
      fun explicit => if explicit = 0 then .ok 0 else .ok explicit := by
    simp [namedMinutes, loanBody, hzero, bind, Except.bind, pure, Except.pure]
  rw [hform, toInt] at h
  split_ifs at h with hneg
  · cases h
  · simp only [Except.bind] at h
    split_ifs at h with hminutes
    · cases h
      exact hminutes.symm
    · cases h
      rfl

theorem loanAmountAndMinutes_loanBody {cfg : Settings} {account : Account} {id : ℕ}
    {minutes amount named : ℤ}
    (h : loanAmountAndMinutes cfg account (loanBody id minutes) = .ok (amount, named)) :
    amount = 0 ∧ named = minutes := by
  have hvalue : toFloat "amount" 0 (loanBody id minutes).amount = .ok 0 :=
    if_neg (by norm_num [loanBody, moneyMax])
  have hround : roundMoney 0 = 0 := by simpa using roundMoney_cents 0
  have hprice : (loanBody id minutes).priceFromDays = false := rfl
  unfold loanAmountAndMinutes at h
  cases hnamed : namedMinutes (loanBody id minutes) with
  | error e =>
    rw [hvalue, hnamed] at h
    cases h
  | ok n =>
    simp only [hvalue, hnamed, hprice, Bool.false_eq_true, false_and, if_false, hround,
      actionAmount] at h
    split_ifs at h
    · cases h
    · cases h
      exact ⟨rfl, namedMinutes_loanBody hnamed⟩

theorem loanTerms_loanBody {cfg : Settings} {account : Account} {id : ℕ} {minutes : ℤ}
    {terms : LoanTerms} (h : loanTerms cfg account (loanBody id minutes) = .ok terms) :
    terms.minutes = minutes := by
  unfold loanTerms at h
  cases hamount : loanAmountAndMinutes cfg account (loanBody id minutes) with
  | error e =>
    rw [hamount] at h
    cases h
  | ok pair =>
    obtain ⟨amount, named⟩ := pair
    obtain ⟨rfl, rfl⟩ := loanAmountAndMinutes_loanBody hamount
    simp only [hamount, lt_irrefl, and_false, if_false] at h
    split_ifs at h
    · cases h
      rfl
    · cases h
      rfl

theorem createLoan_spec {env : Env} {s : Submission} {b b' : Books} {id : ℕ}
    (h : createLoan env s b = some (id, b')) : id = b.loans.next ∧ ∃ l : Loan,
      l.subscriberId = s.subscriberId ∧ l.durationMinutes = s.requestedMinutes ∧
        b' = b.createLoan l := by
  unfold createLoan at h
  cases hfound : b.accounts.resolve (some s.subscriberId) "" with
  | none =>
    rw [hfound] at h
    cases h
  | some account =>
    have hid : account.id = s.subscriberId := by
      obtain ⟨hget, -⟩ := Option.filter_eq_some_iff.mp hfound
      exact (Table.get?_eq_some.mp hget).2
    have hresolve : b.accounts.resolve (some account.id) "" = some account := hid ▸ hfound
    simp only [hfound] at h
    have hblock : execute b ⟨.createLoan (loanBody account.id s.requestedMinutes), env⟩ =
        block env.faults.sqlite _ b := perform_transaction _ _ _
    obtain ⟨e, herror⟩ | ⟨r, y, heval, hok⟩ := block_cases env.faults.sqlite _ b
    · rw [hblock, herror] at h
      cases h
    · rw [hblock, hok] at h
      have hruns : Runs env _ b r y := heval
      replace hruns := hruns.select
      have hstrip : PyText.strip (loanBody account.id s.requestedMinutes).username = "" := rfl
      have hbody : (loanBody account.id s.requestedMinutes).subscriberId = some account.id := rfl
      simp only [hstrip, hbody, hresolve] at hruns
      cases hterms : loanTerms env.toSettings account (loanBody account.id s.requestedMinutes) with
      | error e =>
        simp only [hterms] at hruns
        exact hruns.raise.elim
      | ok terms =>
        cases hcurrency : normalizeCurrency env.toSettings env.defaultCurrency "" with
        | error e =>
          simp only [hterms, hcurrency] at hruns
          exact hruns.raise.elim
        | ok currency =>
          have hplain : (loanBody account.id s.requestedMinutes).dryRun = false ∧
            (loanBody account.id s.requestedMinutes).applyToRadius = false := ⟨rfl, rfl⟩
          simp only [hterms, hcurrency, hplain.1, hplain.2, Bool.false_eq_true, if_false] at hruns
          obtain ⟨z, hmade, hruns⟩ := hruns.statement
          cases hmade
          cases hruns
          cases h
          exact ⟨Nat.succ_sub_one _, _, hid, loanTerms_loanBody hterms, rfl⟩

theorem openLoans_createLoan (b : Books) (l : Loan) (subscriberId : ℕ) :
    openLoans (b.createLoan l) subscriberId =
      openLoans b subscriberId + if l.subscriberId = subscriberId then 1 else 0 := by
  rw [openLoans, openLoans, Books.createLoan, Table.count, Table.select_insert, List.length_append]
  by_cases h : l.subscriberId = subscriberId
  · simp [Table.count, isOpenOf, h]
  · simp [Table.count, isOpenOf, h]

theorem approved_spec {s : Submission} (h : s.approved = true) :
    openIn s.loans ≤ 1 ∧ s.requestedMinutes ≤ sequenceLimit (openIn s.loans) ∧
      ∃ plan ∈ s.plan, s.requestedMinutes ≤ plan.maxLoanMinutes := by
  simp only [Submission.approved, Submission.policy, loanPolicy] at h
  split_ifs at h with hplan
  · simp at h
  · simp only [Bool.and_eq_true, decide_eq_true_eq, lt_min_iff, le_min_iff] at h
    obtain ⟨⟨-, hlimit⟩, hmax, hrequested⟩ := h
    refine ⟨?_, hrequested, ?_⟩
    · by_contra hmany
      rw [sequenceLimit, if_neg (by omega), if_neg (by omega)] at hlimit
      exact lt_irrefl _ hlimit
    · cases hread : s.plan with
      | none => simp [hread] at hplan
      | some plan => exact ⟨plan, rfl, by simpa [hread] using hmax⟩

theorem grant_spec {p : Portal} {e : Event} {s : Submission} {loan : Loan}
    (plans : ℕ → Option PortalPlan) (h : p.grant e = some (s, loan)) :
    s.approved = true ∧ loan.durationMinutes = s.requestedMinutes ∧
      ∃ l : Loan, l.subscriberId = s.subscriberId ∧
        (p.step plans e).books = p.books.createLoan l := by
  cases e with
  | submit subscriberId requestedMinutes => cases h
  | account call => cases h
  | advance i env =>
    simp only [Portal.grant] at h
    cases hi : p.submissions[i]? with
    | none =>
      rw [hi] at h
      cases h
    | some s' =>
      cases hstage : s'.stage with
      | decided loanId =>
        simp only [hi, hstage] at h
        cases h
      | finished =>
        simp only [hi, hstage] at h
        cases h
      | policyRead =>
        simp only [hi, hstage] at h
        split_ifs at h with happroved
        obtain ⟨⟨id, b⟩, hmade, hloan⟩ := Option.bind_eq_some_iff.mp h
        obtain ⟨found, hget, hpair⟩ := Option.map_eq_some_iff.mp hloan
        cases hpair
        obtain ⟨rfl, l, hof, hminutes, rfl⟩ := createLoan_spec hmade
        refine ⟨happroved, ?_, l, hof, ?_⟩
        · rw [Books.createLoan, Table.get?_insert, if_pos rfl] at hget
          cases hget
          exact hminutes
        · simp only [Portal.step, Portal.advance, hi, hstage, happroved, if_true, hmade,
            Portal.setStage]

theorem openLoans_le_step {p : Portal} {e : Event} {subscriberId : ℕ}
    (plans : ℕ → Option PortalPlan) (h : p.Unsettled subscriberId e) :
    openLoans p.books subscriberId ≤ openLoans (p.step plans e).books subscriberId := by
  cases e with
  | account call => exact h call rfl
  | submit subscriberId' requestedMinutes =>
    refine le_of_eq (congrArg (openLoans · subscriberId) ?_)
    simp only [Portal.step, Portal.submit]
    split
    · rfl
    · split_ifs
      · rfl
      · rfl
  | advance i env =>
    simp only [Portal.step, Portal.advance]
    split
    · exact le_rfl
    · split
      · split_ifs
        · split
          · rename_i s _ _ _ id b hmade
            obtain ⟨-, l, -, -, rfl⟩ := createLoan_spec hmade
            simp [Portal.setStage, openLoans_createLoan]
          · exact le_rfl
        · exact le_rfl
      · exact le_rfl
      · exact le_rfl

theorem eachCapped_iff (p : Portal) (e : Event) : p.EachCapped e ↔ p.Informed e := by
  refine forall₃_congr fun s loan hgrant => ?_
  obtain ⟨happroved, hminutes, -⟩ := grant_spec (fun _ => none) hgrant
  obtain ⟨hopen, hlimit, hplan⟩ := approved_spec happroved
  constructor
  · rintro ⟨hle, -, hsecond, -⟩
    by_cases hone : openLoans p.books s.subscriberId = 1
    · exact .inr ⟨hone, hminutes ▸ hsecond hone⟩
    · exact .inl (by omega)
  · intro hinformed
    have hfirst : s.requestedMinutes ≤ 2 * 24 * 60 := by
      unfold sequenceLimit at hlimit
      split_ifs at hlimit <;> omega
    refine ⟨by omega, fun _ => hminutes ▸ hfirst, fun hone => ?_, ?_⟩
    · rw [hminutes]
      obtain hle | ⟨-, hday⟩ := hinformed
      · rwa [show openIn s.loans = 1 by omega] at hlimit
      · exact hday
    · rwa [hminutes]

def leftOver (openCount : ℕ) : ℤ :=
  if openCount = 0 then 3 * 24 * 60 else if openCount = 1 then 24 * 60 else 0

theorem leftOver_antitone : Antitone leftOver := by
  intro m n h
  unfold leftOver
  split_ifs <;> omega

theorem leftOver_le (n : ℕ) : leftOver n ≤ 3 * 24 * 60 := leftOver_antitone (Nat.zero_le n)

theorem granted_step {p : Portal} {e : Event} {subscriberId : ℕ} (plans : ℕ → Option PortalPlan)
    (hcapped : p.EachCapped e) (h : p.Unsettled subscriberId e) :
    (match p.grant e with
      | some (s, loan) => if s.subscriberId = subscriberId then loan.durationMinutes else 0
      | none => 0) + leftOver (openLoans (p.step plans e).books subscriberId) ≤
        leftOver (openLoans p.books subscriberId) := by
  have hmono := leftOver_antitone (openLoans_le_step plans h)
  cases hgrant : p.grant e with
  | none => simpa using hmono
  | some pair =>
    obtain ⟨s, loan⟩ := pair
    obtain ⟨-, -, l, hof, hbooks⟩ := grant_spec plans hgrant
    by_cases howner : s.subscriberId = subscriberId
    · subst howner
      obtain ⟨hle, hfirst, hsecond, -⟩ := hcapped s loan hgrant
      rw [hbooks, openLoans_createLoan, if_pos hof]
      simp only [if_pos]
      obtain hnone | hone : openLoans p.books s.subscriberId = 0 ∨
          openLoans p.books s.subscriberId = 1 := by omega
      · have hminutes := hfirst hnone
        rw [hnone, show leftOver (0 + 1) = 24 * 60 from rfl, show leftOver 0 = 3 * 24 * 60 from rfl]
        omega
      · have hminutes := hsecond hone
        rw [hone, show leftOver (1 + 1) = 0 from rfl, show leftOver 1 = 24 * 60 from rfl]
        omega
    · simpa [howner] using hmono

theorem grantedMinutes_le {p : Portal} {es : List Event} {subscriberId : ℕ}
    (plans : ℕ → Option PortalPlan)
    (hcapped : Run.Along Portal.EachCapped (Portal.step plans) p es)
    (h : Run.Along (Portal.Unsettled subscriberId) (Portal.step plans) p es) :
    grantedMinutes plans subscriberId p es ≤ leftOver (openLoans p.books subscriberId) := by
  induction es generalizing p with
  | nil =>
    rw [grantedMinutes, leftOver]
    split_ifs <;> omega
  | cons e es ih =>
    have hrest := ih hcapped.2 h.2
    have hstep := granted_step plans hcapped.1 h.1
    rw [grantedMinutes]
    omega

/-- The loans of a run keep to the caps if and only if each request has seen what is open when its
loan is made. -/
theorem loansCapped_iff (plans : ℕ → Option PortalPlan) (p : Portal) (es : List Event) :
    LoansCapped plans p es ↔ Run.Along Portal.Informed (Portal.step plans) p es := by
  have heach : Run.Along Portal.EachCapped (Portal.step plans) p es ↔
      Run.Along Portal.Informed (Portal.step plans) p es :=
    Run.along_congr (I := fun _ => True) (fun _ _ _ => trivial) (fun p e _ => eachCapped_iff p e)
      trivial
  constructor
  · intro h
    exact heach.mp h.each
  · intro hinformed
    have hcapped := heach.mpr hinformed
    refine ⟨hcapped, fun subscriberId before between after hes hunsettled => ?_⟩
    subst hes
    have hbetween := (Run.along_append.mp (Run.along_append.mp hcapped).1).2
    exact (grantedMinutes_le plans hbetween hunsettled).trans (leftOver_le _)

def samplePlans (id : ℕ) : Option PortalPlan := if id = 1 then some ⟨1, 10000⟩ else none

def sampleAccounts : Accounts where
  table := Table.empty.insert (fun id => { id, username := "u1", planId := some 1 }) fun _ => rfl
  unique := by decide

def sampleEvents : List Event :=
  [.submit 1 2880, .submit 1 2880, .advance 0 { now := 0 }, .advance 1 { now := 0 }]

theorem both_requests_granted :
    ¬ LoansCapped samplePlans ⟨.fresh sampleAccounts, [], .empty⟩ sampleEvents := by
  intro h
  obtain ⟨-, -, -, hsecond, -⟩ := h.each
  have hgrant : ((Run.run (Portal.step samplePlans) ⟨.fresh sampleAccounts, [], .empty⟩
      (sampleEvents.take 3)).grant (.advance 1 { now := 0 })).map (fun g =>
        (openLoans (Run.run (Portal.step samplePlans) ⟨.fresh sampleAccounts, [], .empty⟩
          (sampleEvents.take 3)).books g.1.subscriberId, g.2.durationMinutes)) =
        some (1, 2880) := by
    decide +kernel
  obtain ⟨⟨s, loan⟩, hmade, hpair⟩ := Option.map_eq_some_iff.mp hgrant
  obtain ⟨hopen, hminutes⟩ := Prod.mk.inj hpair
  have hday := (hsecond s loan hmade).second hopen
  rw [hminutes] at hday
  exact absurd hday (by decide)

end RadiusModule.LoanRequests
