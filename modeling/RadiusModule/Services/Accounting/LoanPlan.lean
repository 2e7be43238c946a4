import RadiusModule.Services.Accounting.Changes
import RadiusModule.Services.Accounting.LoanCurrencies

/-!
# Loans settled from a payment

A dialog first plans what the cash of a payment will settle, without writing.
The payment is then recorded with its time basis reduced by the sum of the
plan, and only after that is the plan carried out, in a block of its own.
-/

namespace RadiusModule.Accounting
open Library Connection PyText

deriving instance DecidableEq for LoanAction

def settleTotal (plan : List LoanAction) : ℤ :=
  ((plan.filter fun item => item.action = "settle").map fun item => item.amount.getD 0).sum

def settlePreviewTotal (env : Env) (b : Books) (actions : List LoanAction)
    (subscriberId : Option ℕ) (cash : Option ℤ) : Except Error ℤ :=
  (planLoanActions env b subscriberId actions [] (cash.map (max · 0))).map settleTotal

def Books.settledTotal (b : Books) : ℤ :=
  ((b.settlements.select fun s => s.status = .posted).map Settlement.amount).sum

def Books.Within (b : Books) (loanId : ℕ) : Prop :=
  ∃ loan, b.loans.get? loanId = some loan ∧ b.settledAmount loanId ≤ loan.amount

def Planned (b : Books) (subscriberId : Option ℕ) (seen : List (ℕ × String))
    (item : LoanAction) : Prop :=
  ∃ loanId view, item.loanId = some loanId ∧ seen.lookup loanId = none ∧
    b.getLoan loanId = some view ∧ view.loan.status = .open ∧
    subscriberId.any (· ≠ view.loan.subscriberId) = false ∧
    (item.action = "settle" ∧
        (∃ amount, item.amount = some amount ∧ 0 ≤ amount ∧ amount ≤ view.outstanding) ∨
      item.action = "writeoff" ∧ item.amount = some 0)

theorem map_eq_ok {ε α β : Type*} {f : α → β} {x : Except ε α} {y : β}
    (h : x.map f = .ok y) : ∃ a, x = .ok a ∧ f a = y := by
  cases x with
  | error e => cases h
  | ok a => exact ⟨a, rfl, Except.ok.inj h⟩

theorem outstanding_nonneg {b : Books} {loanId : ℕ} {view : LoanView}
    (h : b.getLoan loanId = some view) : 0 ≤ view.outstanding := by
  obtain ⟨loan, -, rfl⟩ := Option.map_eq_some_iff.mp h
  dsimp only
  split_ifs
  · exact le_max_right _ _
  · exact le_rfl

@[simp] theorem settleTotal_nil : settleTotal [] = 0 := rfl

theorem settleTotal_cons_settle {item : LoanAction} (h : item.action = "settle")
    (plan : List LoanAction) :
    settleTotal (item :: plan) = item.amount.getD 0 + settleTotal plan := by
  simp [settleTotal, h]

theorem settleTotal_cons_other {item : LoanAction} (h : item.action ≠ "settle")
    (plan : List LoanAction) : settleTotal (item :: plan) = settleTotal plan := by
  simp [settleTotal, h]

section
variable {env : Env} {b b' : Books} {subscriberId : Option ℕ} {seen : List (ℕ × String)}

theorem Planned.forget {item : LoanAction} {first : ℕ × String}
    (h : Planned b subscriberId (first :: seen) item) : Planned b subscriberId seen item := by
  obtain ⟨loanId, view, hid, hseen, hrest⟩ := h
  refine ⟨loanId, view, hid, ?_, hrest⟩
  rw [List.lookup_cons] at hseen
  split at hseen
  · cases hseen
  · exact hseen

theorem Planned.loanId_ne {item : LoanAction} {loanId : ℕ} {kind : String}
    (h : Planned b subscriberId ((loanId, kind) :: seen) item) : item.loanId ≠ some loanId := by
  obtain ⟨loanId', view, hid, hseen, -⟩ := h
  rintro he
  cases hid.symm.trans he
  simp at hseen

structure Sound (b : Books) (subscriberId : Option ℕ) (seen : List (ℕ × String))
    (cash : Option ℤ) (plan : List LoanAction) : Prop where
  planned : ∀ item ∈ plan, Planned b subscriberId seen item
  once : (plan.map LoanAction.loanId).Nodup
  within : ∀ c ∈ cash, 0 ≤ c → settleTotal plan ≤ c

theorem Sound.forget {cash : Option ℤ} {plan : List LoanAction} {first : ℕ × String}
    (h : Sound b subscriberId (first :: seen) cash plan) : Sound b subscriberId seen cash plan :=
  ⟨fun item hitem => (h.planned item hitem).forget, h.once, h.within⟩

theorem Sound.cons {cash cash' : Option ℤ} {plan : List LoanAction} {item : LoanAction}
    {loanId : ℕ} {kind : String} (h : Sound b subscriberId ((loanId, kind) :: seen) cash' plan)
    (hid : item.loanId = some loanId) (hitem : Planned b subscriberId seen item)
    (hcash : ∀ c ∈ cash, 0 ≤ c → settleTotal (item :: plan) ≤ c) :
    Sound b subscriberId seen cash (item :: plan) := by
  refine ⟨?_, ?_, hcash⟩
  · rintro item' (_ | ⟨_, hmem⟩)
    · exact hitem
    · exact (h.planned item' hmem).forget
  · refine List.nodup_cons.mpr ⟨fun hmem => ?_, h.once⟩
    obtain ⟨item', hmem', he⟩ := List.mem_map.mp hmem
    exact (h.planned item' hmem').loanId_ne (he.trans hid)

theorem planLoanActions_sound (actions : List LoanAction) : ∀ seen cash plan,
    planLoanActions env b subscriberId actions seen cash = .ok plan →
    Sound b subscriberId seen cash plan := by
  induction actions with
  | nil =>
    rintro seen cash plan ⟨⟩
    exact ⟨by simp, List.nodup_nil, fun c _ hc => hc⟩
  | cons item actions ih =>
    intro seen cash plan h
    unfold planLoanActions at h
    cases hid : item.loanId with
    | none =>
      simp only [hid] at h
      exact ih _ _ _ h
    | some loanId =>
      simp only [hid] at h
      cases hseen : seen.lookup loanId with
      | some first =>
        simp only [hseen] at h
        split_ifs at h
        exact ih _ _ _ h
      | none =>
        simp only [hseen] at h
        by_cases hkind : strip item.action ≠ "settle" ∧ strip item.action ≠ "writeoff"
        · rw [if_pos hkind] at h
          exact (ih _ _ _ h).forget
        rw [if_neg hkind] at h
        cases hloan : b.getLoan loanId with
        | none =>
          simp only [hloan] at h
          exact (ih _ _ _ h).forget
        | some view =>
          obtain ⟨loan, settled, outstanding⟩ := view
          simp only [hloan] at h
          by_cases hforeign : subscriberId.any (· ≠ loan.subscriberId) = true
          · rw [if_pos hforeign] at h
            cases h
          by_cases hclosed : loan.status ≠ .open
          · rw [if_neg hforeign, if_pos hclosed] at h
            exact (ih _ _ _ h).forget
          rw [if_neg hforeign, if_neg hclosed] at h
          have hopen : loan.status = .open := not_not.mp hclosed
          have hmine := Bool.eq_false_iff.mpr hforeign
          by_cases hwriteoff : strip item.action = "writeoff"
          · rw [if_pos hwriteoff] at h
            obtain ⟨plan', hplan', rfl⟩ := map_eq_ok h
            refine (ih _ _ _ hplan').cons rfl
              ⟨loanId, _, rfl, hseen, hloan, hopen, hmine, .inr ⟨hwriteoff, rfl⟩⟩ ?_
            intro c hc hpos
            rw [settleTotal_cons_other (by simp [hwriteoff])]
            exact (ih _ _ _ hplan').within c hc hpos
          rw [if_neg hwriteoff] at h
          have hsettle : strip item.action = "settle" := by
            by_contra hne
            exact hkind ⟨hne, hwriteoff⟩
          split at h
          · cases h
          · cases h
          · split_ifs at h with hcurrency hnothing
            · exact (ih _ _ _ h).forget
            · obtain ⟨plan', hplan', rfl⟩ := map_eq_ok h
              have hleft : 0 ≤ outstanding := outstanding_nonneg hloan
              refine (ih _ _ _ hplan').cons rfl ⟨loanId, _, rfl, hseen, hloan, hopen, hmine,
                .inl ⟨hsettle, _, rfl, le_max_right _ _, max_le ?_ hleft⟩⟩ ?_
              · cases cash
                · exact le_rfl
                · exact min_le_left _ _
              · rintro c rfl hc
                have hrest := (ih _ _ _ hplan').within _ rfl (le_max_right _ _)
                rw [settleTotal_cons_settle hsettle]
                dsimp only [Option.getD_some] at hrest ⊢
                omega

end

/-- The loans of the list have taken the total, none more than its amount, and no other loan has
taken anything. -/
structure Took (b b' : Books) (total : ℤ) (ids : List ℕ) : Prop where
  total : b'.settledTotal = b.settledTotal + total
  within : ∀ id ∈ ids, b'.Within id
  others : ∀ id ∉ ids, b'.settledAmount id = b.settledAmount id
  kept : ∀ id, b.Within id → b'.Within id

section
variable {b b' : Books}

theorem Took.refl (b : Books) : Took b b 0 [] :=
  ⟨(add_zero _).symm, fun _ h => (List.not_mem_nil h).elim, fun _ _ => rfl, fun _ h => h⟩

theorem Took.trans {b'' : Books} {total total' : ℤ} {ids ids' : List ℕ}
    (h : Took b b' total ids) (h' : Took b' b'' total' ids') :
    Took b b'' (total + total') (ids ++ ids') := by
  refine ⟨?_, fun id hid => ?_, fun id hid => ?_, fun id hid => h'.kept id (h.kept id hid)⟩
  · rw [h'.total, h.total, add_assoc]
  · rcases List.mem_append.mp hid with hid | hid
    · exact h'.kept id (h.within id hid)
    · exact h'.within id hid
  · rw [List.mem_append, not_or] at hid
    rw [h'.others id hid.2, h.others id hid.1]

theorem settledAmount_entered {s : Settlement}
    (hrows : b'.settlements.rows = b.settlements.rows ++ [s]) (hposted : s.status = .posted) (loanId : ℕ) :
    b'.settledAmount loanId =
      b.settledAmount loanId + if s.loanId = loanId then s.amount else 0 := by
  simp only [Books.settledAmount, Books.postedSettlements, Table.select, hrows,
    List.filter_append, List.map_append, List.sum_append, List.filter_cons, List.filter_nil,
    hposted]
  split_ifs <;> simp_all

theorem get?_updateLoanStatus (b : Books) (loanId id : ℕ) (status : LoanStatus) :
    (b.updateLoanStatus loanId status).loans.get? id =
      (b.loans.get? id).map fun l => if l.id = loanId then { l with status } else l := by
  simp [Books.updateLoanStatus, Table.get?_update]

theorem Books.Within.of_loans {loanId id : ℕ} {status : LoanStatus}
    (hloans : b'.loans = (b.updateLoanStatus loanId status).loans) (h : b.Within id)
    (hamount : b'.settledAmount id = b.settledAmount id) : b'.Within id := by
  obtain ⟨loan, hloan, hwithin⟩ := h
  rw [Books.Within, hloans, get?_updateLoanStatus, hloan, hamount]
  refine ⟨_, rfl, ?_⟩
  dsimp only
  split_ifs <;> exact hwithin

theorem Took.settled {loan : Loan} {amount : ℤ} {currency : String} {paymentId : Option ℕ}
    (h : b.settleLoan loan amount currency paymentId = .ok b') :
    Took b b' amount [loan.id] := by
  obtain ⟨row, status, s, hrow, hid, hopen, hleft, hloans, hrows, hsid, hposted, hamount, -⟩ :=
    settleLoan_ok h
  have hentered := settledAmount_entered hrows hposted
  have hget : b.loans.get? loan.id = some row := Table.get?_eq_some.mpr ⟨hrow, hid⟩
  have hmine : b'.Within loan.id := by
    rw [Books.Within, hloans, get?_updateLoanStatus, hget]
    refine ⟨_, rfl, ?_⟩
    rw [hentered, if_pos hsid, hamount]
    dsimp only
    rw [if_pos hid]
    dsimp only
    omega
  have hothers : ∀ id ∉ [loan.id], b'.settledAmount id = b.settledAmount id := by
    intro id hid
    rw [hentered, if_neg fun he => hid (List.mem_singleton.mpr (he.symm.trans hsid)), add_zero]
  refine ⟨?_, fun id hid => List.mem_singleton.mp hid ▸ hmine, hothers, fun id hwithin => ?_⟩
  · simp [Books.settledTotal, Table.select, hrows, hposted, hamount]
  · by_cases he : id = loan.id
    · exact he ▸ hmine
    · exact hwithin.of_loans hloans (hothers id (by simpa using he))

theorem Took.writtenOff {loan : Loan} {currency : String}
    (h : b.writeoffLoan loan currency = .ok b') : Took b b' 0 [] := by
  obtain ⟨hloans, hsettlements, -⟩ := writeoffLoan_ok h
  have hamount : ∀ id, b'.settledAmount id = b.settledAmount id := fun id => by
    rw [Books.settledAmount, Books.postedSettlements, hsettlements]
    rfl
  refine ⟨?_, fun _ h => (List.not_mem_nil h).elim, fun id _ => hamount id,
    fun id hwithin => hwithin.of_loans hloans (hamount id)⟩
  rw [Books.settledTotal, hsettlements, add_zero]
  rfl

end

section
variable {env : Env} {subscriberId paymentId : Option ℕ}

theorem resolveItems_took (items : List LoanAction)
    (hitems : ∀ item ∈ items, item.action = "settle" → 0 ≤ item.amount.getD 0) :
    ∀ {b b' : Books} {total : ℤ} {settledIds writeoffIds : List ℕ} {r : Reply},
      Runs env (resolveItems env subscriberId paymentId items total settledIds writeoffIds)
        b r b' →
      ∃ taken ids writtenOff, r = .resolved (total + taken) (settledIds ++ ids) writtenOff ∧
        0 ≤ taken ∧ taken ≤ settleTotal items ∧ Took b b' taken ids := by
  induction items with
  | nil =>
    intro b b' total settledIds writeoffIds r h
    simp only [resolveItems] at h
    cases h
    exact ⟨0, [], writeoffIds, by simp, le_rfl, le_rfl, .refl b⟩
  | cons item items ih =>
    intro b b' total settledIds writeoffIds r h
    have ih := @ih fun item' hmem => hitems item' (List.mem_cons_of_mem _ hmem)
    have hle : settleTotal items ≤ settleTotal (item :: items) := by
      by_cases hsettle : item.action = "settle"
      · rw [settleTotal_cons_settle hsettle]
        exact le_add_of_nonneg_left (hitems item List.mem_cons_self hsettle)
      · rw [settleTotal_cons_other hsettle]
    have hskip : ∀ {b : Books}, Runs env
        (resolveItems env subscriberId paymentId items total settledIds writeoffIds) b r b' →
        ∃ taken ids writtenOff, r = .resolved (total + taken) (settledIds ++ ids) writtenOff ∧
          0 ≤ taken ∧ taken ≤ settleTotal (item :: items) ∧ Took b b' taken ids := by
      intro b h
      obtain ⟨taken, ids, writtenOff, hr, hpos, htotal, htook⟩ := ih h
      exact ⟨taken, ids, writtenOff, hr, hpos, htotal.trans hle, htook⟩
    unfold resolveItems at h
    cases hid : item.loanId with
    | none =>
      simp only [hid] at h
      exact hskip h
    | some loanId =>
      simp only [hid] at h
      replace h := h.select
      cases hloan : b.getLoan loanId with
      | none =>
        simp only [hloan] at h
        exact hskip h
      | some view =>
        obtain ⟨loan, settled, outstanding⟩ := view
        have hkey : loan.id = loanId := (getLoan_spec hloan).2.1
        have hleft : 0 ≤ outstanding := outstanding_nonneg hloan
        simp only [hloan] at h
        by_cases hout : loan.status ≠ .open ∨ subscriberId.any (· ≠ loan.subscriberId) = true
        · rw [if_pos hout] at h
          exact hskip h
        rw [if_neg hout] at h
        cases hcurrency : normalizeCurrency env.toSettings loan.currency "" with
        | error e =>
          simp only [hcurrency] at h
          exact h.raise.elim
        | ok currency =>
          simp only [hcurrency] at h
          by_cases hsettle : item.action = "settle"
          · rw [if_pos hsettle] at h
            have hamount := hitems item List.mem_cons_self hsettle
            rcases h.attempt with ⟨z, hwrite, hnext⟩ | ⟨e, hnext⟩
            · have htook := Took.settled hwrite
              rw [hkey] at htook
              obtain ⟨taken, ids, writtenOff, hr, hpos, htotal, hrest⟩ := ih hnext
              refine ⟨_, _, writtenOff, ?_, ?_, ?_, htook.trans hrest⟩
              · rw [hr, add_assoc, List.append_assoc]
              · exact add_nonneg (le_min hamount hleft) hpos
              · rw [settleTotal_cons_settle hsettle]
                exact add_le_add (min_le_left _ _) htotal
            · cases e
              case conflict => exact hskip hnext
              all_goals exact hnext.raise.elim
          · rw [if_neg hsettle] at h
            by_cases hwriteoff : item.action = "writeoff"
            · rw [if_pos hwriteoff] at h
              rcases h.attempt with ⟨z, hwrite, hnext⟩ | ⟨e, hnext⟩
              · obtain ⟨taken, ids, writtenOff, hr, hpos, htotal, hrest⟩ := ih hnext
                refine ⟨taken, ids, writtenOff, hr, hpos, htotal.trans hle, ?_⟩
                simpa using (Took.writtenOff hwrite).trans hrest
              · cases e
                case conflict => exact hskip hnext
                all_goals exact hnext.raise.elim
            · rw [if_neg hwriteoff] at h
              exact hskip h

theorem getLoan_other {b b' : Books} {loanId id : ℕ} {status : LoanStatus}
    (hloans : b'.loans = (b.updateLoanStatus loanId status).loans)
    (hamount : b'.settledAmount id = b.settledAmount id) (hne : id ≠ loanId) :
    b'.getLoan id = b.getLoan id := by
  have hget : b'.loans.get? id = b.loans.get? id := by
    rw [hloans, get?_updateLoanStatus]
    cases hloan : b.loans.get? id with
    | none => rfl
    | some l =>
      have hkey : l.id = id := (Table.get?_eq_some.mp hloan).2
      simp [hkey, hne]
  rw [Books.getLoan, Books.getLoan, hget, hamount]

theorem settleLoan_of_open {b : Books} {loan : Loan} {amount : ℤ} (currency : String)
    (hget : b.loans.get? loan.id = some loan) (hopen : loan.status = .open)
    (hleft : amount ≤ loan.amount - b.settledAmount loan.id)
    (hpayment : ∀ id ∈ paymentId, (b.payments.get? id).isSome) :
    ∃ b', b.settleLoan loan amount currency paymentId = .ok b' := by
  have hfound : (b.loans.rows.find? (b.claims loan.id amount)).isSome :=
    List.find?_isSome.mpr ⟨loan, (Table.get?_eq_some.mp hget).1,
      by simp [Books.claims, hopen, hleft]⟩
  obtain ⟨row, hrow⟩ := Option.isSome_iff_exists.mp hfound
  have hall : (paymentId.all fun id => (b.payments.get? id).isSome) = true := by
    cases paymentId with
    | none => rfl
    | some id => exact hpayment id rfl
  simp only [Books.settleLoan, hrow, if_pos hall]
  exact ⟨_, rfl⟩

theorem settleLoan_conflict {b : Books} {loan : Loan} {amount : ℤ} {currency : String}
    (hget : b.loans.get? loan.id = some loan)
    (hover : ¬amount ≤ loan.amount - b.settledAmount loan.id) :
    b.settleLoan loan amount currency paymentId = .error .conflict := by
  have hnone : b.loans.rows.find? (b.claims loan.id amount) = none := by
    refine List.find?_eq_none.mpr fun row hrow hclaims => ?_
    simp only [Books.claims, Bool.and_eq_true, decide_eq_true_eq] at hclaims
    obtain ⟨hmem, -⟩ := Table.get?_eq_some.mp hget
    have hsame := b.loans.eq_of_key_eq hrow hmem hclaims.1.1
    exact hover (hsame ▸ hclaims.2)
  simp only [Books.settleLoan, hnone]

theorem writeoffLoan_of_open {b : Books} {loan : Loan} (currency : String)
    (hget : b.loans.get? loan.id = some loan) (hopen : loan.status = .open) :
    ∃ b', b.writeoffLoan loan currency = .ok b' := by
  have hany : (b.loans.rows.any fun l => l.id = loan.id && l.status = .open) = true :=
    List.any_eq_true.mpr ⟨loan, (Table.get?_eq_some.mp hget).1, by simp [hopen]⟩
  simp only [Books.writeoffLoan, if_pos hany]
  exact ⟨_, rfl⟩

theorem Planned.of_getLoan {b b' : Books} {item : LoanAction}
    (h : Planned b subscriberId [] item)
    (hsame : ∀ id, item.loanId = some id → b'.getLoan id = b.getLoan id) :
    Planned b' subscriberId [] item := by
  obtain ⟨loanId, view, hid, hseen, hloan, hrest⟩ := h
  exact ⟨loanId, view, hid, hseen, (hsame loanId hid).trans hloan, hrest⟩

section
variable {b b' z : Books} {r : Reply} {w : Statement}

theorem write_eq_apply (hfaults : env.faults = {}) (w : Statement) (b : Books) :
    env.faults.sqlite.write w b = b.apply w := by
  rw [hfaults]
  rfl

theorem Runs.selecting (hfaults : env.faults = {}) {next : Books → Tx}
    (h : Runs env (next b) b r b') : Runs env (.statement .select next) b r b' := by
  rw [Runs, eval, write_eq_apply hfaults]
  exact h

theorem Runs.attempted (hfaults : env.faults = {}) {next : Except Error Reply → Tx}
    (hw : b.apply w = .ok z) (h : Runs env (next (.ok .done)) z r b') :
    Runs env (.attempt (.statement w fun _ => .ret .done) next) b r b' := by
  rw [Runs, eval, eval, write_eq_apply hfaults, hw]
  exact h

theorem Runs.refused (hfaults : env.faults = {}) {next : Except Error Reply → Tx} {e : Error}
    (hw : b.apply w = .error e) (h : Runs env (next (.error e)) b r b') :
    Runs env (.attempt (.statement w fun _ => .ret .done) next) b r b' := by
  rw [Runs, eval, eval, write_eq_apply hfaults, hw]
  exact h

end

theorem resolveItems_exact (hfaults : env.faults = {}) (items : List LoanAction) :
    ∀ {b : Books} (total : ℤ) (settledIds writeoffIds : List ℕ),
      (∀ item ∈ items, Planned b subscriberId [] item) → (items.map LoanAction.loanId).Nodup →
      b.LoansSupported → (∀ id ∈ paymentId, (b.payments.get? id).isSome) →
      ∃ ids writtenOff b', Runs env
        (resolveItems env subscriberId paymentId items total settledIds writeoffIds) b
        (.resolved (total + settleTotal items) ids writtenOff) b' := by
  induction items with
  | nil =>
    intro b total settledIds writeoffIds _ _ _ _
    exact ⟨settledIds, writeoffIds, b, by simp [Runs, resolveItems, eval]⟩
  | cons item items ih =>
    intro b total settledIds writeoffIds hplanned hnodup hsupported hpayment
    obtain ⟨loanId, ⟨loan, settled, outstanding⟩, hid, -, hloan, hopen, hmine, hkind⟩ :=
      hplanned item List.mem_cons_self
    obtain ⟨hget, hkey, hleft⟩ := getLoan_spec hloan
    dsimp only at hget hkey hleft hopen hmine hkind
    subst hkey
    obtain ⟨currency, hcurrency⟩ := normalizeCurrency_of_supported
      (hsupported loan (Table.get?_eq_some.mp hget).1) env.toSettings
    have hin : ¬(loan.status ≠ .open ∨ subscriberId.any (· ≠ loan.subscriberId) = true) :=
      not_or.mpr ⟨not_not.mpr hopen, Bool.eq_false_iff.mp hmine⟩
    obtain ⟨hfresh, hnodup⟩ := List.nodup_cons.mp hnodup
    have hrest : ∀ {b' : Books} {status : LoanStatus},
        b'.loans = (b.updateLoanStatus loan.id status).loans →
        (∀ id ≠ loan.id, b'.settledAmount id = b.settledAmount id) →
        ∀ item' ∈ items, Planned b' subscriberId [] item' := by
      intro b' status hloans hamount item' hmem
      refine (hplanned item' (List.mem_cons_of_mem _ hmem)).of_getLoan fun id hid' => ?_
      have hne : id ≠ loan.id := by
        rintro rfl
        exact hfresh (List.mem_map.mpr ⟨item', hmem, hid'.trans hid.symm⟩)
      exact getLoan_other hloans (hamount id hne) hne
    simp only [resolveItems, hid]
    rcases hkind with ⟨hsettle, amount, hamount, hpos, hle⟩ | ⟨hwriteoff, -⟩
    · rw [settleTotal_cons_settle hsettle, hamount, Option.getD_some, ← add_assoc]
      by_cases hguard : amount ≤ loan.amount - b.settledAmount loan.id
      · obtain ⟨z, hz⟩ := settleLoan_of_open currency hget hopen hguard hpayment
        obtain ⟨row, status, s, -, -, -, -, hloans, hrows, hsid, hposted, -, hpayments⟩ :=
          settleLoan_ok hz
        have hsupported' := loansSupported_apply (w := .settleLoan loan amount currency paymentId)
          trivial hsupported hz
        have hothers : ∀ id ≠ loan.id, z.settledAmount id = b.settledAmount id := fun id hne =>
          (Took.settled hz).others id (by simpa using hne)
        obtain ⟨ids, writtenOff, b', hruns⟩ := ih (total + amount) (settledIds ++ [loan.id])
          writeoffIds (hrest hloans hothers) hnodup hsupported' (hpayments ▸ hpayment)
        refine ⟨ids, writtenOff, b', .selecting hfaults ?_⟩
        simp only [hloan, if_neg hin, hcurrency, if_pos hsettle, min_eq_left hle]
        exact .attempted hfaults hz hruns
      · have hzero : amount = 0 := by
          rcases le_max_iff.mp (hle.trans_eq (hleft hopen)) with h | h
          · exact absurd h hguard
          · exact le_antisymm h hpos
        obtain ⟨ids, writtenOff, b', hruns⟩ := ih total settledIds writeoffIds
          (fun item' hmem => hplanned item' (List.mem_cons_of_mem _ hmem)) hnodup hsupported
          hpayment
        refine ⟨ids, writtenOff, b', .selecting hfaults ?_⟩
        simp only [hloan, if_neg hin, hcurrency, if_pos hsettle, min_eq_left hle]
        refine .refused hfaults (settleLoan_conflict hget hguard) ?_
        rw [hzero, add_zero]
        exact hruns
    · rw [settleTotal_cons_other (by simp [hwriteoff])]
      obtain ⟨z, hz⟩ := writeoffLoan_of_open currency hget hopen
      obtain ⟨hloans, hsettlements, hpayments⟩ := writeoffLoan_ok hz
      have hsupported' := loansSupported_apply (w := .writeoffLoan loan currency)
        trivial hsupported hz
      have hothers : ∀ id ≠ loan.id, z.settledAmount id = b.settledAmount id := fun id _ =>
        (Took.writtenOff hz).others id (List.not_mem_nil)
      obtain ⟨ids, writtenOff, b', hruns⟩ := ih total settledIds (writeoffIds ++ [loan.id])
        (hrest hloans hothers) hnodup hsupported' (hpayments ▸ hpayment)
      refine ⟨ids, writtenOff, b', .selecting hfaults ?_⟩
      have hnot : ¬item.action = "settle" := by simp [hwriteoff]
      simp only [hloan, if_neg hin, hcurrency, if_neg hnot, if_pos hwriteoff]
      exact .attempted hfaults hz hruns

/-- The block of `resolve_loan_actions` on a plan; without items it plans once more, for
nothing. -/
def planBody (env : Env) (plan : List LoanAction) (subscriberId : Option ℕ) (cash : Option ℤ)
    (paymentId : Option ℕ) : Tx :=
  if plan ≠ [] ∧ plan.all (·.amount.isSome) then
    resolveItems env subscriberId paymentId plan 0 [] []
  else
    .statement .select fun b =>
      match planLoanActions env b subscriberId plan [] (cash.map (max · 0)) with
      | .error e => .raise e
      | .ok plan => resolveItems env subscriberId paymentId plan 0 [] []

theorem planBody_nil {cash : Option ℤ} : planBody env [] subscriberId cash paymentId =
    .statement .select fun _ => .ret (.resolved 0 [] []) := rfl

theorem planBody_of_planned {b : Books} {plan : List LoanAction} {cash : Option ℤ}
    (hplanned : ∀ item ∈ plan, Planned b subscriberId [] item) (hne : plan ≠ []) :
    planBody env plan subscriberId cash paymentId =
      resolveItems env subscriberId paymentId plan 0 [] [] := by
  have hall : plan.all (·.amount.isSome) = true := by
    refine List.all_eq_true.mpr fun item hitem => ?_
    obtain ⟨loanId, view, -, -, -, -, -, hkind⟩ := hplanned item hitem
    rcases hkind with ⟨-, amount, hamount, -⟩ | ⟨-, hamount⟩ <;> simp [hamount]
  exact if_pos ⟨hne, hall⟩

end

theorem Planned.amount_nonneg {b : Books} {subscriberId : Option ℕ} {seen : List (ℕ × String)}
    {item : LoanAction} (h : Planned b subscriberId seen item) : 0 ≤ item.amount.getD 0 := by
  obtain ⟨loanId, view, -, -, -, -, -, hkind⟩ := h
  rcases hkind with ⟨-, amount, hamount, hpos, -⟩ | ⟨-, hamount⟩
  · rw [hamount]
    exact hpos
  · rw [hamount]
    exact le_rfl

section
variable {env : Env} {b : Books} {plan : List LoanAction} {subscriberId : Option ℕ}

theorem planBody_took (hplanned : ∀ item ∈ plan, Planned b subscriberId [] item)
    {b' b'' : Books} {cash : Option ℤ} {paymentId : Option ℕ} {r : Reply}
    (h : Runs env (planBody env plan subscriberId cash paymentId) b' r b'') :
    ∃ taken ids writtenOff, r = .resolved taken ids writtenOff ∧ 0 ≤ taken ∧
      taken ≤ settleTotal plan ∧ Took b' b'' taken ids := by
  by_cases hnil : plan = []
  · subst hnil
    rw [planBody_nil] at h
    cases h.select
    exact ⟨0, [], [], rfl, le_rfl, le_rfl, .refl b'⟩
  · rw [planBody_of_planned hplanned hnil] at h
    obtain ⟨taken, ids, writtenOff, hr, hpos, hle, htook⟩ :=
      resolveItems_took plan (fun item hitem _ => (hplanned item hitem).amount_nonneg) h
    exact ⟨taken, ids, writtenOff, by simpa using hr, hpos, hle, htook⟩

theorem planBody_exact (hfaults : env.faults = {})
    (hplanned : ∀ item ∈ plan, Planned b subscriberId [] item)
    (honce : (plan.map LoanAction.loanId).Nodup) (hsupported : b.LoansSupported)
    {cash : Option ℤ} {paymentId : Option ℕ}
    (hpayment : ∀ id ∈ paymentId, (b.payments.get? id).isSome) :
    ∃ ids writtenOff b', Runs env (planBody env plan subscriberId cash paymentId) b
      (.resolved (settleTotal plan) ids writtenOff) b' := by
  by_cases hnil : plan = []
  · subst hnil
    exact ⟨[], [], b, planBody_nil ▸ .selecting hfaults rfl⟩
  · rw [planBody_of_planned hplanned hnil]
    obtain ⟨ids, writtenOff, b', hruns⟩ :=
      resolveItems_exact hfaults plan 0 [] [] hplanned honce hsupported hpayment
    exact ⟨ids, writtenOff, b', by rwa [zero_add] at hruns⟩

end

/-- A plan names each loan once and settles no more than is left of it and no more than the
cash. Carried out while the loans are as they were it takes exactly the total of the preview, and
in any other state no more than that, and from no loan more than its amount. -/
theorem plan_settles (accounts : Accounts) (calls : List Call) (env : Env)
    (actions : List LoanAction) (subscriberId : Option ℕ) (cash : Option ℤ)
    (plan : List LoanAction)
    (hplan : planLoanActions env (Run.run step (.fresh accounts) calls) subscriberId actions []
      (cash.map (max · 0)) = .ok plan) :
    let b := Run.run step (.fresh accounts) calls
    (plan.map LoanAction.loanId).Nodup ∧
    (∀ item ∈ plan, item.action = "settle" → ∃ view amount,
      item.loanId.bind b.getLoan = some view ∧ item.amount = some amount ∧
      0 ≤ amount ∧ amount ≤ view.outstanding) ∧
    (∀ c ∈ cash, settleTotal plan ≤ max c 0) ∧
    settlePreviewTotal env b actions subscriberId cash = .ok (settleTotal plan) ∧
    (∀ (b' : Books) (env' : Env) (cash' : Option ℤ) (paymentId : Option ℕ),
      b'.loans = b.loans → b'.settlements = b.settlements →
      (∀ id ∈ paymentId, (b'.payments.get? id).isSome) → env'.faults = {} →
      ∃ ids writtenOff b'',
        execute b' ⟨.resolveLoanActions plan subscriberId cash' paymentId, env'⟩ =
          (.ok (.resolved (settleTotal plan) ids writtenOff), b'') ∧
        Took b' b'' (settleTotal plan) ids) ∧
    ∀ (b' : Books) (env' : Env) (cash' : Option ℤ) (paymentId : Option ℕ),
      match execute b' ⟨.resolveLoanActions plan subscriberId cash' paymentId, env'⟩ with
      | (.error _, b'') => b'' = b'
      | (.ok r, b'') => ∃ taken ids writtenOff, r = .resolved taken ids writtenOff ∧
          0 ≤ taken ∧ taken ≤ settleTotal plan ∧ Took b' b'' taken ids := by
  intro b
  have hsound := planLoanActions_sound actions _ _ _ hplan
  have hexecute : ∀ b' env' cash' paymentId,
      execute b' ⟨.resolveLoanActions plan subscriberId cash' paymentId, env'⟩ =
        block env'.faults.sqlite (planBody env' plan subscriberId cash' paymentId) b' :=
    fun b' env' cash' paymentId => perform_transaction _ _ _
  refine ⟨hsound.once, fun item hitem hsettle => ?_, fun c hc => ?_, ?_,
    fun b' env' cash' paymentId hloans hsettlements hpayment hfaults => ?_,
    fun b' env' cash' paymentId => ?_⟩
  · obtain ⟨loanId, view, hid, -, hloan, -, -, hkind⟩ := hsound.planned item hitem
    rcases hkind with ⟨-, amount, hamount, hpos, hle⟩ | ⟨hwriteoff, -⟩
    · exact ⟨view, amount, by rw [hid]; exact hloan, hamount, hpos, hle⟩
    · exact absurd (hwriteoff.symm.trans hsettle) (by decide)
  · cases hc
    exact hsound.within _ rfl (le_max_right _ _)
  · rw [settlePreviewTotal, hplan]
    rfl
  · have hsame : ∀ id, b'.getLoan id = b.getLoan id := fun id => by
      simp only [Books.getLoan, Books.settledAmount, Books.postedSettlements, hloans, hsettlements]
    have hplanned : ∀ item ∈ plan, Planned b' subscriberId [] item := fun item hitem =>
      (hsound.planned item hitem).of_getLoan fun id _ => hsame id
    have hsupported : b'.LoansSupported := fun l hl =>
      loansSupported_run accounts calls l (hloans ▸ hl)
    obtain ⟨ids, writtenOff, b'', hruns⟩ : ∃ ids writtenOff b'', Runs env'
        (planBody env' plan subscriberId cash' paymentId) b'
        (.resolved (settleTotal plan) ids writtenOff) b'' :=
      planBody_exact hfaults hplanned hsound.once hsupported hpayment
    obtain ⟨taken, ids', writtenOff', hr, -, -, htook⟩ := planBody_took hplanned hruns
    obtain ⟨rfl, rfl, -⟩ := Reply.resolved.inj hr
    refine ⟨ids, writtenOff, b'', ?_, htook⟩
    rw [hexecute]
    exact block_of_eval (by rw [hfaults]; rfl) hruns (by rw [hfaults]; rfl)
  · rw [hexecute]
    rcases block_cases env'.faults.sqlite (planBody env' plan subscriberId cash' paymentId) b'
      with ⟨e, hraised⟩ | ⟨r, b'', hruns, hdone⟩
    · rw [hraised]
    · rw [hdone]
      exact planBody_took hsound.planned hruns

def borrower : Accounts where
  table :=
    { rows := [{ id := 1, username := "sub" }]
      next := 2
      sorted := List.pairwise_singleton _ _
      below := by decide }
  unique := by decide

theorem plan_settles_part :
    let calls : List Call :=
      [⟨.createLoan { username := "sub", amount := 30, durationMinutes := some 60 },
        { now := 0 }⟩]
    let plan : List LoanAction := [⟨some 1, "settle", some 1000⟩]
    ∃ ids writtenOff b,
      execute (Run.run step (.fresh borrower) calls)
        ⟨.resolveLoanActions plan none none none, { now := 0 }⟩ =
        (.ok (.resolved 1000 ids writtenOff), b) ∧
      Took (Run.run step (.fresh borrower) calls) b 1000 ids := by
  intro calls plan
  exact (plan_settles borrower calls { now := 0 }
    [⟨some 1, "settle", none⟩, ⟨some 1, " settle", none⟩] none (some 1000) plan
    (by decide +kernel)).2.2.2.2.1 _ { now := 0 } none none rfl rfl (by simp) rfl

end RadiusModule.Accounting
