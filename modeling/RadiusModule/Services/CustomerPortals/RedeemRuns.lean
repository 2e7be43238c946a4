import RadiusModule.Services.BusinessOs.WalletHistory
import RadiusModule.Services.CustomerPortals.Redeem

/-!
# Runs of redemptions

The pay step and the mark step of a call are apart. As long as every payment
finds the card unused and nobody else's payment open, and nothing comes between
a payment and its mark, a card is paid once and by the call that uses it.
-/

namespace RadiusModule.CustomerPortals
open Library Connection BusinessOs

def credits (w : World) (k : ℕ) : List WalletTransaction :=
  w.books.transactions.select fun t => t.transactionType = .credit &&
    t.referenceType = redeemReference && t.referenceId = some (k : ℤ)

def balance (b : Books) (id : ℕ) : ℤ :=
  ((b.wallets.rows.find? fun w => w.id = id).map Wallet.balanceMinor).getD 0

def Phase.paidFor : Phase → Option ℕ
  | .marking _ card => some card
  | .returned card => some card
  | _ => none

def Phase.Over : Phase → Prop
  | .idle | .returned _ | .raised => True
  | _ => False

def Owed (w : World) (k : ℕ) : Prop := ∃ c t, w.phase c = .marking t k

structure Fresh (w : World) : Prop where
  idle : ∀ c, w.phase c = .idle
  unpaid : ∀ k, credits w k = []
  unset : ∀ k, w.usedBy k = none

section
variable (decimal : ℚ → Amount) (defaultCurrency : String)

/-- A payment finds the card unused and owed to nobody, the mark that follows does not raise, and
no login and no revocation comes between the two. -/
def Clean (w : World) : Event → Prop
  | .next c faults raises _ =>
    match w.phase c with
    | .paying tenantId _ card batch number amount wallet =>
      ∀ ids books, perform faults.sqlite (changeBalance defaultCurrency
          (redeemMovement decimal tenantId card batch number amount wallet)) w.books =
            (.ok ids, books) →
        w.cards.rows.any (unusedOf tenantId card) = true ∧ ¬ Owed w card
    | .marking _ _ => raises = false
    | _ => True
  | .login tenantId username _ =>
    ∀ k ∈ w.cards.rows, k.tenantId = tenantId → k.username = username → ¬ Owed w k.id
  | .revoke id => ¬ Owed w id
  | _ => True

/-- Every card is credited at most once; when no call is under way, once exactly when a call
returned, the one that set `used`; and no step of a call that raised moved a balance or a card. -/
structure RedeemedOnce (w : World) (es : List Event) : Prop where
  atMostOnce : ∀ k, (credits (Run.run (step decimal defaultCurrency) w es) k).length ≤ 1
  paid_iff : (∀ c, ((Run.run (step decimal defaultCurrency) w es).phase c).Over) → ∀ k,
    (credits (Run.run (step decimal defaultCurrency) w es) k).length = 1 ↔
      ∃ c, (Run.run (step decimal defaultCurrency) w es).phase c = .returned k ∧
        (Run.run (step decimal defaultCurrency) w es).usedBy k = some c
  untouched : ∀ c, (Run.run (step decimal defaultCurrency) w es).phase c = .raised →
    ∀ pre e post, es = pre ++ e :: post → e.caller = some c →
      let before := Run.run (step decimal defaultCurrency) w pre
      let after := step decimal defaultCurrency before e
      after.cards = before.cards ∧ ∀ id, balance after.books id = balance before.books id

end

structure Quiet (w w' : World) : Prop where
  cards : w'.cards = w.cards
  usedBy : w'.usedBy = w.usedBy
  transactions : w'.books.transactions = w.books.transactions
  balance : ∀ id, balance w'.books id = balance w.books id
  phase : ∀ c, w'.phase c = w.phase c ∨
    (w.phase c).paidFor = none ∧ (w'.phase c).paidFor = none

theorem balance_insertWallet (b : Books) (tenantId : ℤ) (ownerType : String) (ownerId : Option ℤ)
    (currency : String) (id : ℕ) :
    balance (b.insertWallet tenantId ownerType ownerId currency) id = balance b id := by
  simp only [balance, Books.insertWallet, Table.rows_insert, List.find?_append, List.find?_cons,
    List.find?_nil]
  cases hfound : b.wallets.rows.find? fun w => w.id = id with
  | some w => rfl
  | none => split <;> rfl

theorem balance_walletOf (defaultCurrency : String) (faults : Faults) (tenantId : ℤ)
    (ownerType : String) (ownerId : ℤ) (b : Books) (id : ℕ) :
    balance (walletOf defaultCurrency faults tenantId ownerType ownerId b).2 id =
      balance b id := by
  rw [walletOf]
  cases ownersWallet b tenantId ownerType ownerId with
  | some w => rfl
  | none =>
    rcases perform_createWallet faults defaultCurrency tenantId ownerType (some ownerId) "" b with
      ⟨e, hmade⟩ | ⟨event, hmade⟩
    · simp only [hmade]
    · simp only [hmade]
      exact balance_insertWallet b _ _ _ _ id

theorem Quiet.refl (w : World) : Quiet w w := ⟨rfl, rfl, rfl, fun _ => rfl, fun _ => .inl rfl⟩

theorem quiet_setPhase {w : World} {b : Books} {c : ℕ} {p : Phase}
    (htransactions : b.transactions = w.books.transactions)
    (hbalance : ∀ id, balance b id = balance w.books id)
    (hold : (w.phase c).paidFor = none) (hp : p.paidFor = none) :
    Quiet w ({ w with books := b }.setPhase c p) := by
  refine ⟨rfl, rfl, htransactions, hbalance, fun c' => ?_⟩
  by_cases hc : c' = c
  · subst hc
    exact .inr ⟨hold, by simp [World.setPhase, hp]⟩
  · exact .inl (by simp [World.setPhase, hc])

structure Pays (w : World) (c : ℕ) (t : ℤ) (k : ℕ) (w' : World) : Prop where
  unused : w.cards.rows.any (unusedOf t k) = true
  unowed : ¬ Owed w k
  paying : (w.phase c).paidFor = none
  phase : w'.phase = Function.update w.phase c (.marking t k)
  cards : w'.cards = w.cards
  usedBy : w'.usedBy = w.usedBy
  credit : ∃ row, credits w' k = credits w k ++ [row]
  others : ∀ k', k' ≠ k → credits w' k' = credits w k'

theorem id_markUsed (now : ℤ) (k : Card) :
    ({ k with used := true, firstUsedAt := some now } : Card).id = k.id := rfl

def World.marked (w : World) (c : ℕ) (t : ℤ) (k : ℕ) (now : ℤ) : World :=
  { w.updateCards (unusedOf t k) (fun k => { k with used := true, firstUsedAt := some now })
      (id_markUsed now) with
    usedBy := Function.update w.usedBy k (some c) }.setPhase c (.returned k)

@[simp] theorem phase_marked (w : World) (c : ℕ) (t : ℤ) (k : ℕ) (now : ℤ) :
    (w.marked c t k now).phase = Function.update w.phase c (.returned k) := rfl

/-- A step of others on the cards, which leaves a card that is owed unused and a used one used. -/
structure Outside (w w' : World) : Prop where
  books : w'.books = w.books
  phase : w'.phase = w.phase
  usedBy : w'.usedBy = w.usedBy
  unused : ∀ t k, Owed w k → w.cards.rows.any (unusedOf t k) = true →
    w'.cards.rows.any (unusedOf t k) = true
  used : ∀ k, (∀ r ∈ w.cards.rows, r.id = k → r.used = true) →
    ∀ r ∈ w'.cards.rows, r.id = k → r.used = true

structure Inv (w : World) : Prop where
  marking : ∀ c t k, w.phase c = .marking t k → w.cards.rows.any (unusedOf t k) = true
  returned : ∀ c k, w.phase c = .returned k →
    w.usedBy k = some c ∧ ∀ r ∈ w.cards.rows, r.id = k → r.used = true
  alone : ∀ c c' k, (w.phase c).paidFor = some k → (w.phase c').paidFor = some k → c = c'
  unpaid : ∀ k, (∀ c, (w.phase c).paidFor ≠ some k) → credits w k = []
  once : ∀ c k, (w.phase c).paidFor = some k → (credits w k).length = 1

theorem outside_updateCards {w : World} (p : Card → Bool) (f : Card → Card)
    (hf : ∀ k, (f k).id = k.id)
    (howed : ∀ r ∈ w.cards.rows, p r = true → Owed w r.id → ∀ t k, unusedOf t k (f r) = unusedOf t k r)
    (hused : ∀ r, r.used = true → (f r).used = true) : Outside w (w.updateCards p f hf) := by
  refine ⟨rfl, rfl, rfl, fun t k hk hany => ?_, fun k hall r hr hid => ?_⟩
  · obtain ⟨r, hr, hunused⟩ := List.any_eq_true.mp hany
    refine List.any_eq_true.mpr ⟨_, List.mem_map_of_mem hr, ?_⟩
    have hid : r.id = k := by
      simp only [unusedOf, Bool.and_eq_true, decide_eq_true_eq] at hunused
      exact hunused.1.1.2
    cases hp : p r
    · simpa [hp] using hunused
    · rw [if_pos rfl, howed r hr hp (hid ▸ hk) t k]
      exact hunused
  · obtain ⟨q, hq, rfl⟩ := List.mem_map.mp hr
    cases hp : p q
    · simp only [hp, Bool.false_eq_true, if_false] at hid ⊢
      exact hall q hq hid
    · simp only [hp, if_true, hf] at hid ⊢
      exact hused q (hall q hq hid)

section
variable {decimal : ℚ → Amount} {defaultCurrency : String}

theorem pays_of_ok {w : World} {c : ℕ} {t : ℤ} {card batch wallet : ℕ} {u : ℤ} {number : String}
    {amount : ℚ} {faults : Faults} {ids : ℕ × ℕ} {books : Books}
    (hphase : w.phase c = .paying t u card batch number amount wallet)
    (hok : perform faults.sqlite (changeBalance defaultCurrency
      (redeemMovement decimal t card batch number amount wallet)) w.books = (.ok ids, books))
    (hunused : w.cards.rows.any (unusedOf t card) = true) (howed : ¬ Owed w card) :
    Pays w c t card ({ w with books }.setPhase c (.marking t card)) := by
  rcases perform_changeBalance faults defaultCurrency
    (redeemMovement decimal t card batch number amount wallet) w.books with
    ⟨e, herror⟩ | ⟨minor, found, -, -, -, hmade⟩
  · rw [herror] at hok
    cases hok
  · rw [hmade] at hok
    obtain ⟨-, rfl⟩ := Prod.mk.inj hok
    let row := movementRow (redeemMovement decimal t card batch number amount wallet) minor
      found.balanceMinor (textOr found.currency defaultCurrency)
    have hselect := fun p => Table.select_insert w.books.transactions
      (fun id => { row with id }) (fun _ => rfl) p
    refine ⟨hunused, howed, by rw [hphase]; rfl, rfl, rfl, rfl,
      ⟨{ row with id := w.books.transactions.next }, ?_⟩, fun k' hk' => ?_⟩
    · refine (hselect _).trans ?_
      simp [row, movementRow, redeemMovement, credits]
    · refine (hselect _).trans ?_
      simp [row, movementRow, redeemMovement, credits, hk'.symm]

theorem step_cases {w : World} (hinv : Inv w) {e : Event}
    (hclean : Clean decimal defaultCurrency w e) :
    Quiet w (step decimal defaultCurrency w e) ∨
    (∃ c t k, e.caller = some c ∧ Pays w c t k (step decimal defaultCurrency w e)) ∨
    (∃ c t k now, e.caller = some c ∧ w.phase c = .marking t k ∧
      step decimal defaultCurrency w e = w.marked c t k now) ∨
    e.caller = none ∧ Outside w (step decimal defaultCurrency w e) := by
  cases e with
  | redeem c tenantId cardUserId cardNumber cardPassword =>
    refine .inl ?_
    simp only [step]
    split
    case h_1 hphase => exact quiet_setPhase rfl (fun _ => rfl) (by rw [hphase]; rfl) rfl
    case h_2 => exact Quiet.refl w
  | next c faults raises now =>
    simp only [step, World.next, Clean] at hclean ⊢
    cases hphase : w.phase c with
    | idle => exact .inl (Quiet.refl w)
    | returned card => exact .inl (Quiet.refl w)
    | raised => exact .inl (Quiet.refl w)
    | reading tenantId cardUserId cardNumber cardPassword =>
      have hquiet : ∀ p : Phase, p.paidFor = none → Quiet w (w.setPhase c p) := fun p hp =>
        quiet_setPhase rfl (fun _ => rfl) (by rw [hphase]; rfl) hp
      refine .inl ?_
      simp only
      split_ifs
      · exact hquiet _ rfl
      · split
        · exact hquiet _ rfl
        · split_ifs
          · exact hquiet _ rfl
          · exact hquiet _ rfl
    | opening tenantId cardUserId card batch number amount =>
      refine .inl ?_
      have htransactions := transactions_walletOf defaultCurrency faults tenantId "card_user"
        cardUserId w.books
      have hbalance := balance_walletOf defaultCurrency faults tenantId "card_user" cardUserId
        w.books
      simp only
      generalize walletOf defaultCurrency faults tenantId "card_user" cardUserId w.books = opened
        at htransactions hbalance
      obtain ⟨found, books⟩ := opened
      cases found with
      | none => exact quiet_setPhase htransactions hbalance (by rw [hphase]; rfl) rfl
      | some wallet => exact quiet_setPhase htransactions hbalance (by rw [hphase]; rfl) rfl
    | paying tenantId cardUserId card batch number amount wallet =>
      simp only [hphase] at hclean ⊢
      cases hmade : perform faults.sqlite (changeBalance defaultCurrency
        (redeemMovement decimal tenantId card batch number amount wallet)) w.books with
      | mk result books =>
        cases result with
        | error err =>
          rcases perform_changeBalance faults defaultCurrency
            (redeemMovement decimal tenantId card batch number amount wallet) w.books with
            ⟨e, herror⟩ | ⟨minor, found, -, -, -, hok⟩
          · obtain ⟨-, rfl⟩ := Prod.mk.inj (hmade.symm.trans herror)
            exact .inl (quiet_setPhase rfl (fun _ => rfl) (by rw [hphase]; rfl) rfl)
          · cases (Prod.mk.inj (hmade.symm.trans hok)).1
        | ok ids =>
          obtain ⟨hunused, howed⟩ := hclean ids books hmade
          exact .inr (.inl ⟨c, tenantId, card, rfl, pays_of_ok hphase hmade hunused howed⟩)
    | marking tenantId card =>
      simp only [hphase] at hclean ⊢
      subst hclean
      simp only [Bool.false_eq_true, if_false, hinv.marking c tenantId card hphase, if_true]
      exact .inr (.inr (.inl ⟨c, tenantId, card, now, rfl, hphase, rfl⟩))
  | login tenantId username now =>
    refine .inr (.inr (.inr ⟨rfl, outside_updateCards _ _ _ (fun r hr hp howed => ?_)
      fun _ _ => rfl⟩))
    simp only [Bool.and_eq_true, decide_eq_true_eq] at hp
    exact absurd howed (hclean r hr hp.1 hp.2)
  | revoke id =>
    refine .inr (.inr (.inr ⟨rfl, outside_updateCards _ _ _ (fun r hr hp howed => ?_)
      fun _ h => h⟩))
    exact absurd (of_decide_eq_true hp ▸ howed) hclean
  | delete id now =>
    exact .inr (.inr (.inr ⟨rfl, outside_updateCards _ _ _ (fun _ _ _ _ _ _ => rfl)
      fun _ h => h⟩))

end

theorem Quiet.paidFor {w w' : World} (h : Quiet w w') (c : ℕ) :
    (w'.phase c).paidFor = (w.phase c).paidFor := by
  rcases h.phase c with hsame | ⟨hold, hnew⟩
  · rw [hsame]
  · rw [hold, hnew]

theorem Quiet.phase_of_paid {w w' : World} (h : Quiet w w') {c k : ℕ}
    (hpaid : (w'.phase c).paidFor = some k) : w'.phase c = w.phase c := by
  rcases h.phase c with hsame | ⟨-, hnew⟩
  · exact hsame
  · rw [hnew] at hpaid
    cases hpaid

theorem credits_congr {w w' : World} (h : w'.books.transactions = w.books.transactions) (k : ℕ) :
    credits w' k = credits w k := by
  rw [credits, h, credits]

theorem Inv.quiet {w w' : World} (hinv : Inv w) (h : Quiet w w') : Inv w' := by
  have hcredits := credits_congr h.transactions
  refine ⟨fun c t k hc => ?_, fun c k hc => ?_, fun c c' k hc hc' => ?_, fun k hk => ?_,
    fun c k hc => ?_⟩
  · rw [h.cards]
    exact hinv.marking c t k (h.phase_of_paid (by rw [hc]; rfl) ▸ hc)
  · rw [h.cards, h.usedBy]
    exact hinv.returned c k (h.phase_of_paid (by rw [hc]; rfl) ▸ hc)
  · rw [h.paidFor] at hc hc'
    exact hinv.alone c c' k hc hc'
  · rw [hcredits]
    exact hinv.unpaid k fun c hc => hk c ((h.paidFor c).trans hc)
  · rw [hcredits]
    exact hinv.once c k ((h.paidFor c).symm.trans hc)

theorem Inv.outside {w w' : World} (hinv : Inv w) (h : Outside w w') : Inv w' := by
  have hcredits := credits_congr (congrArg Books.transactions h.books)
  refine ⟨fun c t k hc => ?_, fun c k hc => ?_, fun c c' k hc hc' => ?_, fun k hk => ?_,
    fun c k hc => ?_⟩
  · rw [h.phase] at hc
    exact h.unused t k ⟨c, t, hc⟩ (hinv.marking c t k hc)
  · rw [h.phase] at hc
    obtain ⟨hby, hused⟩ := hinv.returned c k hc
    exact ⟨h.usedBy ▸ hby, h.used k hused⟩
  · rw [h.phase] at hc hc'
    exact hinv.alone c c' k hc hc'
  · rw [hcredits]
    exact hinv.unpaid k fun c hc => hk c (h.phase ▸ hc)
  · rw [hcredits]
    exact hinv.once c k (h.phase ▸ hc)

theorem Inv.not_paid {w : World} (hinv : Inv w) {t : ℤ} {k : ℕ}
    (hunused : w.cards.rows.any (unusedOf t k) = true) (howed : ¬ Owed w k) (c : ℕ) :
    (w.phase c).paidFor ≠ some k := by
  intro hpaid
  obtain ⟨r, hr, hr'⟩ := List.any_eq_true.mp hunused
  simp only [unusedOf, Bool.and_eq_true, decide_eq_true_eq, Bool.not_eq_true'] at hr'
  cases hphase : w.phase c with
  | marking t' k' =>
    rw [hphase] at hpaid
    obtain rfl : k' = k := Option.some_inj.mp hpaid
    exact howed ⟨c, t', hphase⟩
  | returned k' =>
    rw [hphase] at hpaid
    obtain rfl : k' = k := Option.some_inj.mp hpaid
    have hused := (hinv.returned c k' hphase).2 r hr hr'.1.1.2
    rw [hused] at hr'
    cases hr'.1.2
  | _ =>
    rw [hphase] at hpaid
    cases hpaid

theorem Inv.pays {w w' : World} (hinv : Inv w) {c : ℕ} {t : ℤ} {k : ℕ} (h : Pays w c t k w') :
    Inv w' := by
  have hnot := hinv.not_paid h.unused h.unowed
  have hself : (w'.phase c).paidFor = some k := by rw [h.phase]; simp [Phase.paidFor]
  have hother : ∀ c', c' ≠ c → w'.phase c' = w.phase c' := fun c' hc' => by
    rw [h.phase, Function.update_of_ne hc']
  refine ⟨fun c' t' k' hc' => ?_, fun c' k' hc' => ?_, fun c₁ c₂ k' h₁ h₂ => ?_, fun k' hk' => ?_,
    fun c' k' hc' => ?_⟩
  · rw [h.cards]
    by_cases hcc : c' = c
    · subst hcc
      rw [h.phase, Function.update_self] at hc'
      cases hc'
      exact h.unused
    · exact hinv.marking c' t' k' (hother c' hcc ▸ hc')
  · rw [h.cards, h.usedBy]
    by_cases hcc : c' = c
    · subst hcc
      rw [h.phase, Function.update_self] at hc'
      cases hc'
    · exact hinv.returned c' k' (hother c' hcc ▸ hc')
  · by_cases hc₁ : c₁ = c <;> by_cases hc₂ : c₂ = c
    · rw [hc₁, hc₂]
    · rw [hc₁, hself, Option.some_inj] at h₁
      exact absurd (h₁ ▸ hother c₂ hc₂ ▸ h₂) (hnot c₂)
    · rw [hc₂, hself, Option.some_inj] at h₂
      exact absurd (h₂ ▸ hother c₁ hc₁ ▸ h₁) (hnot c₁)
    · exact hinv.alone c₁ c₂ k' (hother c₁ hc₁ ▸ h₁) (hother c₂ hc₂ ▸ h₂)
  · have hne : k' ≠ k := by
      rintro rfl
      exact hk' c hself
    rw [h.others k' hne]
    refine hinv.unpaid k' fun c' hc' => ?_
    by_cases hcc : c' = c
    · rw [hcc, h.paying] at hc'
      cases hc'
    · exact hk' c' ((hother c' hcc).symm ▸ hc')
  · by_cases hk : k' = k
    · obtain ⟨row, hrow⟩ := h.credit
      rw [hk, hrow, hinv.unpaid k hnot]
      rfl
    · rw [h.others k' hk]
      refine hinv.once c' k' ?_
      have hcc : c' ≠ c := by
        rintro rfl
        exact hk (Option.some_inj.mp (hc'.symm.trans hself))
      exact hother c' hcc ▸ hc'

theorem Inv.marked {w : World} (hinv : Inv w) {c : ℕ} {t : ℤ} {k : ℕ} (now : ℤ)
    (h : w.phase c = .marking t k) : Inv (w.marked c t k now) := by
  have hpaid : (w.phase c).paidFor = some k := by rw [h]; rfl
  have hself : (w.marked c t k now).phase c = .returned k := Function.update_self ..
  have hother : ∀ c', c' ≠ c → (w.marked c t k now).phase c' = w.phase c' := fun c' hc' =>
    Function.update_of_ne hc' ..
  have hsame : ∀ c', ((w.marked c t k now).phase c').paidFor = (w.phase c').paidFor := by
    intro c'
    by_cases hcc : c' = c
    · rw [hcc, hself, hpaid]
      rfl
    · rw [hother c' hcc]
  have hne : ∀ c' k', c' ≠ c → (w.phase c').paidFor = some k' → k' ≠ k := by
    rintro c' k' hcc hc' rfl
    exact hcc (hinv.alone c' c k' hc' hpaid)
  obtain ⟨r₀, hr₀, hunused⟩ := List.any_eq_true.mp (hinv.marking c t k h)
  have hid₀ : r₀.id = k := by
    simp only [unusedOf, Bool.and_eq_true, decide_eq_true_eq] at hunused
    exact hunused.1.1.2
  refine ⟨fun c' t' k' hc' => ?_, fun c' k' hc' => ?_, fun c₁ c₂ k' h₁ h₂ => ?_, fun k' hk' => ?_,
    fun c' k' hc' => ?_⟩
  · have hcc : c' ≠ c := by
      rintro rfl
      rw [hself] at hc'
      cases hc'
    rw [hother c' hcc] at hc'
    have hk' := hne c' k' hcc (by rw [hc']; rfl)
    obtain ⟨r, hr, hr'⟩ := List.any_eq_true.mp (hinv.marking c' t' k' hc')
    refine List.any_eq_true.mpr ⟨_, List.mem_map_of_mem hr, ?_⟩
    have hnot : unusedOf t k r = false := by
      simp only [unusedOf, Bool.and_eq_true, decide_eq_true_eq] at hr'
      simp [unusedOf, hr'.1.1.2, hk']
    rw [hnot]
    exact hr'
  · by_cases hcc : c' = c
    · subst hcc
      rw [hself] at hc'
      cases hc'
      refine ⟨Function.update_self .., fun r hr hid => ?_⟩
      obtain ⟨q, hq, rfl⟩ := List.mem_map.mp hr
      cases hq' : unusedOf t k q
      · simp only [hq', Bool.false_eq_true, if_false] at hid
        rw [w.cards.eq_of_key_eq hq hr₀ (hid.trans hid₀.symm), hunused] at hq'
        cases hq'
      · rw [if_pos rfl]
    · rw [hother c' hcc] at hc'
      have hk' := hne c' k' hcc (by rw [hc']; rfl)
      obtain ⟨hby, hused⟩ := hinv.returned c' k' hc'
      refine ⟨(Function.update_of_ne hk' ..).trans hby, fun r hr hid => ?_⟩
      obtain ⟨q, hq, rfl⟩ := List.mem_map.mp hr
      split_ifs at hid ⊢
      · rfl
      · exact hused q hq hid
  · rw [hsame] at h₁ h₂
    exact hinv.alone c₁ c₂ k' h₁ h₂
  · exact hinv.unpaid k' fun c' hc' => hk' c' ((hsame c').trans hc')
  · exact hinv.once c' k' ((hsame c').symm.trans hc')

section
variable {decimal : ℚ → Amount} {defaultCurrency : String}

theorem inv_step {w : World} (hinv : Inv w) (e : Event)
    (hclean : Clean decimal defaultCurrency w e) : Inv (step decimal defaultCurrency w e) := by
  rcases step_cases hinv hclean with
    hquiet | ⟨c, t, k, -, hpays⟩ | ⟨c, t, k, now, -, hphase, hstep⟩ | ⟨-, houtside⟩
  · exact hinv.quiet hquiet
  · exact hinv.pays hpays
  · exact hstep ▸ hinv.marked now hphase
  · exact hinv.outside houtside

theorem inv_run {w : World} (hinv : Inv w) {es : List Event}
    (hclean : Run.Along (Clean decimal defaultCurrency) (step decimal defaultCurrency) w es) :
    Inv (Run.run (step decimal defaultCurrency) w es) :=
  Run.run_invariant (I := Inv) (fun _ e hs hok => inv_step hs e hok) hinv hclean

theorem paidFor_step {w : World} (hinv : Inv w) {e : Event}
    (hclean : Clean decimal defaultCurrency w e) {c k : ℕ} (h : (w.phase c).paidFor = some k) :
    ((step decimal defaultCurrency w e).phase c).paidFor = some k := by
  rcases step_cases hinv hclean with
    hquiet | ⟨c', t, k', -, hpays⟩ | ⟨c', t, k', now, -, hphase, hstep⟩ | ⟨-, houtside⟩
  · exact (hquiet.paidFor c).trans h
  · have hc : c ≠ c' := by
      rintro rfl
      rw [hpays.paying] at h
      cases h
    rwa [hpays.phase, Function.update_of_ne hc]
  · rw [hstep]
    rw [phase_marked]
    by_cases hc : c = c'
    · subst hc
      rw [hphase] at h
      rw [Function.update_self]
      exact h
    · rwa [Function.update_of_ne hc]
  · rwa [houtside.phase]

theorem untouched_step {w : World} (hinv : Inv w) {e : Event}
    (hclean : Clean decimal defaultCurrency w e) {c : ℕ} (hcaller : e.caller = some c)
    (hunpaid : ((step decimal defaultCurrency w e).phase c).paidFor = none) :
    (step decimal defaultCurrency w e).cards = w.cards ∧
      ∀ id, balance (step decimal defaultCurrency w e).books id = balance w.books id := by
  rcases step_cases hinv hclean with
    hquiet | ⟨c', t, k, hc', hpays⟩ | ⟨c', t, k, now, hc', -, hstep⟩ | ⟨hnone, -⟩
  · exact ⟨hquiet.cards, hquiet.balance⟩
  · obtain rfl : c' = c := Option.some_inj.mp (hc'.symm.trans hcaller)
    rw [hpays.phase, Function.update_self] at hunpaid
    cases hunpaid
  · obtain rfl : c' = c := Option.some_inj.mp (hc'.symm.trans hcaller)
    rw [hstep, phase_marked, Function.update_self] at hunpaid
    cases hunpaid
  · rw [hcaller] at hnone
    cases hnone

theorem Fresh.inv {w : World} (h : Fresh w) : Inv w := by
  have hnone : ∀ c, (w.phase c).paidFor = none := fun c => by rw [h.idle]; rfl
  exact ⟨fun c t k hc => by simp [h.idle] at hc, fun c k hc => by simp [h.idle] at hc,
    fun c c' k hc => by simp [hnone] at hc, fun k _ => h.unpaid k,
    fun c k hc => by simp [hnone] at hc⟩

/-- In every clean run a card is redeemed at most once, whole or not at all. -/
theorem redeemed_once_of_clean {w : World} (hfresh : Fresh w) {es : List Event}
    (hclean : Run.Along (Clean decimal defaultCurrency) (step decimal defaultCurrency) w es) :
    RedeemedOnce decimal defaultCurrency w es := by
  have hinv := inv_run hfresh.inv hclean
  refine ⟨fun k => ?_, fun hover k => ?_, ?_⟩
  · by_cases hpaid : ∃ c, ((Run.run (step decimal defaultCurrency) w es).phase c).paidFor = some k
    · obtain ⟨c, hc⟩ := hpaid
      exact (hinv.once c k hc).le
    · rw [hinv.unpaid k fun c hc => hpaid ⟨c, hc⟩]
      exact Nat.zero_le _
  · constructor
    · intro hone
      by_contra hnot
      refine absurd (hinv.unpaid k fun c hc => hnot ⟨c, ?_⟩) (List.ne_nil_of_length_pos (by omega))
      have hc' := hover c
      cases hphase : (Run.run (step decimal defaultCurrency) w es).phase c with
      | returned k' =>
        rw [hphase] at hc
        obtain rfl : k' = k := Option.some_inj.mp hc
        exact ⟨rfl, (hinv.returned c k' hphase).1⟩
      | marking t k' =>
        rw [hphase] at hc'
        cases hc'
      | _ =>
        rw [hphase] at hc
        cases hc
    · rintro ⟨c, hc, -⟩
      exact hinv.once c k (by rw [hc]; rfl)
  · rintro c hraised pre e post rfl hcaller
    obtain ⟨hpre, hok, hpost⟩ := Run.along_append.mp hclean
    have hbefore := inv_run hfresh.inv hpre
    refine untouched_step hbefore hok hcaller ?_
    cases hpaid : ((step decimal defaultCurrency
      (Run.run (step decimal defaultCurrency) w pre) e).phase c).paidFor with
    | none => rfl
    | some k =>
      have hstays : ∀ v e', (Inv v ∧ (v.phase c).paidFor = some k) →
          Clean decimal defaultCurrency v e' →
          Inv (step decimal defaultCurrency v e') ∧
            ((step decimal defaultCurrency v e').phase c).paidFor = some k :=
        fun v e' hv hok' => ⟨inv_step hv.1 e' hok', paidFor_step hv.1 hok' hv.2⟩
      have hend := (Run.run_invariant (I := fun v => Inv v ∧ (v.phase c).paidFor = some k) hstays
        ⟨inv_step hbefore e hok, hpaid⟩ hpost).2
      rw [Run.run, List.foldl_append, List.foldl_cons] at hraised
      rw [hraised] at hend
      cases hend

end

section alone
variable {decimal : ℚ → Amount} {defaultCurrency : String}

/-- A step moves the phase of its own call only. -/
theorem phase_step (w : World) {e : Event} {c : ℕ} (h : e.caller ≠ some c) :
    (step decimal defaultCurrency w e).phase c = w.phase c := by
  cases e with
  | redeem c' tenantId cardUserId cardNumber cardPassword =>
    have hne : c ≠ c' := fun heq => h (congrArg some heq.symm)
    simp only [step]
    split
    · exact Function.update_of_ne hne _ _
    · rfl
  | next c' faults raises now =>
    have hne : c ≠ c' := fun heq => h (congrArg some heq.symm)
    simp only [step, World.next]
    repeat' split
    all_goals first | rfl | exact Function.update_of_ne hne _ _
  | login tenantId username now => rfl
  | revoke id => rfl
  | delete id now => rfl

/-- What `Clean` asks of a step while call `c` is the only one. -/
def cleanAlone (c : ℕ) (w : World) (e : Event) : Bool :=
  match e, w.phase c with
  | .redeem c' .., _ => c' = c
  | .next c' _ _ _, .paying tenantId _ card .. =>
    c' = c && w.cards.rows.any (unusedOf tenantId card)
  | .next c' _ raises _, .marking .. => c' = c && !raises
  | .next c' .., _ => c' = c
  | .login .., .marking .. | .revoke _, .marking .. => false
  | _, _ => true

theorem clean_of_alone {c : ℕ} {w : World} {e : Event} (h : cleanAlone c w e = true)
    (hothers : ∀ c', c' ≠ c → (w.phase c').paidFor = none) :
    Clean decimal defaultCurrency w e ∧ ∀ c', e.caller = some c' → c' = c := by
  have howed : ∀ {k : ℕ}, (∀ t, w.phase c ≠ .marking t k) → ¬Owed w k := by
    rintro k hc ⟨c', t, hmarking⟩
    by_cases heq : c' = c
    · exact hc t (heq ▸ hmarking)
    · have hnone := hothers c' heq
      rw [hmarking] at hnone
      cases hnone
  unfold cleanAlone at h
  cases e with
  | redeem c' tenantId cardUserId cardNumber cardPassword =>
    exact ⟨trivial, fun c' heq => Option.some.inj heq ▸ of_decide_eq_true h⟩
  | next c' faults raises now =>
    cases hphase : w.phase c with
    | paying tenantId cardUserId card batch number amount wallet =>
      rw [hphase, Bool.and_eq_true, decide_eq_true_eq] at h
      obtain ⟨rfl, hunused⟩ := h
      refine ⟨?_, fun c heq => (Option.some.inj heq).symm⟩
      simp only [Clean, hphase]
      exact fun _ _ _ => ⟨hunused, howed fun t => by rw [hphase]; exact Phase.noConfusion⟩
    | marking tenantId card =>
      rw [hphase, Bool.and_eq_true, decide_eq_true_eq] at h
      obtain ⟨rfl, hraises⟩ := h
      refine ⟨?_, fun c heq => (Option.some.inj heq).symm⟩
      simp only [Clean, hphase]
      simpa using hraises
    | idle | reading | opening | returned | raised =>
      rw [hphase] at h
      obtain rfl := of_decide_eq_true h
      refine ⟨?_, fun c heq => (Option.some.inj heq).symm⟩
      simp only [Clean, hphase]
  | login tenantId username now =>
    refine ⟨fun k _ _ _ => howed fun t hmarking => ?_, fun c' heq => by cases heq⟩
    rw [hmarking] at h
    cases h
  | revoke id =>
    refine ⟨howed fun t hmarking => ?_, fun c' heq => by cases heq⟩
    rw [hmarking] at h
    cases h
  | delete id now => exact ⟨trivial, fun c' heq => by cases heq⟩

theorem along_clean_of_alone {c : ℕ} {w : World} {es : List Event}
    (hothers : ∀ c', c' ≠ c → (w.phase c').paidFor = none)
    (h : Run.Along (fun w e => cleanAlone c w e = true) (step decimal defaultCurrency) w es) :
    Run.Along (Clean decimal defaultCurrency) (step decimal defaultCurrency) w es := by
  induction es generalizing w with
  | nil => trivial
  | cons e es ih =>
    obtain ⟨hclean, hcaller⟩ := clean_of_alone h.1 hothers
    refine ⟨hclean, ih (fun c' hc' => ?_) h.2⟩
    rw [phase_step w fun heq => hc' (hcaller c' heq)]
    exact hothers c' hc'

end alone

def oneCard : World where
  books := .empty
  cards := Table.empty.insert (fun id => { id, username := "4711", batchId := 1, walletValue := 10 })
    fun _ => rfl
  batches := [{ id := 1 }]
  phase _ := .idle
  usedBy _ := none

def tenInCents : ℚ → Amount := fun q => if q = 10 then some (.finite false 1000 (-2)) else none

def bothRedeem : List Event :=
  [.redeem 0 1 7 "4711" "", .redeem 1 1 8 "4711" "", .next 0 {} false 1, .next 1 {} false 1,
    .next 0 {} false 2, .next 0 {} false 3, .next 1 {} false 4, .next 1 {} false 5,
    .next 0 {} false 6, .next 1 {} false 7]

theorem fresh_oneCard : Fresh oneCard := ⟨fun _ => rfl, fun _ => rfl, fun _ => rfl⟩

/-- The card is paid for and marked, and then it logs in. -/
def redeemAndLogin : List Event :=
  [.redeem 0 1 7 "4711" "", .next 0 {} false 5, .next 0 {} false 6, .next 0 {} false 7,
    .next 0 {} false 8, .login 1 "4711" 9]

theorem redeemed_once_login : RedeemedOnce tenInCents "ILS" oneCard redeemAndLogin :=
  redeemed_once_of_clean fresh_oneCard
    (along_clean_of_alone (c := 0) (fun _ _ => rfl) (by decide +kernel))

example : (credits (Run.run (step tenInCents "ILS") oneCard redeemAndLogin) 1).length = 1 := by
  decide +kernel

theorem both_redeemers_paid :
    (credits (Run.run (step tenInCents "ILS") oneCard bothRedeem) 1).length = 2 ∧
      ¬ ∀ (w : World) (es : List Event), Fresh w → RedeemedOnce tenInCents "ILS" w es := by
  have htwo : (credits (Run.run (step tenInCents "ILS") oneCard bothRedeem) 1).length = 2 := by
    decide +kernel
  refine ⟨htwo, fun h => ?_⟩
  have hle := (h oneCard bothRedeem fresh_oneCard).atMostOnce 1
  omega

end RadiusModule.CustomerPortals
