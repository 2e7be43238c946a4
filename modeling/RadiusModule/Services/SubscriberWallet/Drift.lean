import RadiusModule.Services.SubscriberWallet.Balances

/-!
# The drift of a balance

The drift of a subscriber is what his balance has more than the ledger says.
Each statement moves it by an amount of its own; over an action the amounts
cancel.
-/

namespace RadiusModule.Accounting
open Library

def Books.drift (b : Books) (id : ℕ) : ℤ := b.accounts.balanceOf id - b.ledgerBalance id

def Books.Still (b : Books) (k : ℕ) : Prop :=
  ∃ e ∈ b.ledger.rows, e.id = k ∧ e.sourceType.moves = false ∧ e.reversalOf = none

/-- The entries that move a balance name a subscriber that has been there, a settled debt is
entered by `apply_payment_to_balance`, and payments and settlements are entered without moving a
balance. -/
structure Ordered (b : Books) : Prop where
  ledger : Ledger.Sound b.ledger
  known : ∀ e ∈ b.ledger.rows, e.sourceType.moves = true → ∀ id ∈ e.subscriberId,
    id < b.accounts.table.next
  debts : ∀ e ∈ b.ledger.rows, e.reversalOf = none → e.entryType = .debtSettlement →
    e.sourceType = .subscriber .balanceSettlement ∧ e.direction = .credit
  payments : ∀ p ∈ b.payments.rows, ∀ k ∈ p.ledgerEntryId, b.Still k
  settlements : ∀ s ∈ b.settlements.rows, ∀ k ∈ s.ledgerEntryId, b.Still k

def Account.nameplate (a : Account) : ℕ × String × Bool := (a.id, a.username, a.deleted)

def Accounts.SameNames (as as' : Accounts) : Prop :=
  as'.table.rows.map Account.nameplate = as.table.rows.map Account.nameplate

/-- The books are in order and every drift has moved by `d`; no one has another name. -/
structure Drifts (b b' : Books) (d : ℕ → ℤ) : Prop where
  ordered : Ordered b'
  drift : ∀ id, b'.drift id = b.drift id + d id
  names : b.accounts.SameNames b'.accounts

structure Undoes (b b' : Books) (d : ℕ → ℤ) : Prop extends Drifts b b' d where
  kept : ∀ e ∈ b.ledger.rows, e ∈ b'.ledger.rows
  roots : ∀ e ∈ b'.ledger.rows, e.reversalOf = none → e ∈ b.ledger.rows

section
variable {b b' b'' : Books} {d d' : ℕ → ℤ}

theorem Drifts.trans (h : Drifts b b' d) (h' : Drifts b' b'' d') :
    Drifts b b'' fun id => d id + d' id where
  ordered := h'.ordered
  drift id := by rw [h'.drift, h.drift, add_assoc]
  names := h'.names.trans h.names

theorem Drifts.congr (h : Drifts b b' d) (hd : ∀ id, d id = d' id) : Drifts b b' d' :=
  ⟨h.ordered, fun id => by rw [h.drift, hd], h.names⟩

theorem Undoes.trans (h : Undoes b b' d) (h' : Undoes b' b'' d') :
    Undoes b b'' fun id => d id + d' id where
  toDrifts := h.toDrifts.trans h'.toDrifts
  kept e he := h'.kept e (h.kept e he)
  roots e he hnone := h.roots e (h'.roots e he hnone) hnone

theorem Undoes.congr (h : Undoes b b' d) (hd : ∀ id, d id = d' id) : Undoes b b' d' :=
  ⟨h.toDrifts.congr hd, h.kept, h.roots⟩

end

section
variable {b b' : Books}

theorem Ordered.refl (h : Ordered b) : Undoes b b fun _ => 0 where
  ordered := h
  drift _ := (add_zero _).symm
  names := rfl
  kept _ he := he
  roots _ he _ := he

theorem Ordered.keep (h : Ordered b) (hledger : b'.ledger = b.ledger)
    (hnext : b.accounts.table.next ≤ b'.accounts.table.next)
    (hpayments : ∀ p ∈ b'.payments.rows, ∃ p' ∈ b.payments.rows, p.ledgerEntryId = p'.ledgerEntryId)
    (hsettlements : ∀ s ∈ b'.settlements.rows, ∃ s' ∈ b.settlements.rows,
      s.ledgerEntryId = s'.ledgerEntryId) : Ordered b' where
  ledger := hledger ▸ h.ledger
  known e he hmoves id hid := (h.known e (hledger ▸ he) hmoves id hid).trans_le hnext
  debts e he := h.debts e (hledger ▸ he)
  payments p hp k hk := by
    obtain ⟨p', hp', hsame⟩ := hpayments p hp
    obtain ⟨e, he, hstill⟩ := h.payments p' hp' k (hsame ▸ hk)
    exact ⟨e, hledger ▸ he, hstill⟩
  settlements s hs k hk := by
    obtain ⟨s', hs', hsame⟩ := hsettlements s hs
    obtain ⟨e, he, hstill⟩ := h.settlements s' hs' k (hsame ▸ hk)
    exact ⟨e, hledger ▸ he, hstill⟩

variable {entry : ℕ → LedgerEntry} {hentry : ∀ id, (entry id).id = id}

theorem Ordered.grow (h : Ordered b) (hsound : Ledger.Sound (b.post entry hentry).ledger)
    (hknown : (entry b.ledger.next).sourceType.moves = true →
      ∀ id ∈ (entry b.ledger.next).subscriberId, id < b.accounts.table.next)
    (hdebt : (entry b.ledger.next).reversalOf = none →
      (entry b.ledger.next).entryType = .debtSettlement →
      (entry b.ledger.next).sourceType = .subscriber .balanceSettlement ∧
        (entry b.ledger.next).direction = .credit) : Ordered (b.post entry hentry) where
  ledger := hsound
  known e he := by
    rcases List.mem_append.mp he with he | he
    · exact h.known e he
    · rw [List.mem_singleton.mp he]
      exact hknown
  debts e he := by
    rcases List.mem_append.mp he with he | he
    · exact h.debts e he
    · rw [List.mem_singleton.mp he]
      exact hdebt
  payments p hp k hk := by
    obtain ⟨e, he, hstill⟩ := h.payments p hp k hk
    exact ⟨e, List.mem_append_left _ he, hstill⟩
  settlements s hs k hk := by
    obtain ⟨e, he, hstill⟩ := h.settlements s hs k hk
    exact ⟨e, List.mem_append_left _ he, hstill⟩

theorem Ordered.upsert (h : Ordered b) {u account : Account} (hu : u ∈ b.accounts.table.rows)
    (hname : account.username = u.username) (hdeleted : account.deleted = u.deleted) :
    Undoes b (b.upsertAccount account)
      fun id => if id = u.id then account.balance - u.balance else 0 where
  kept _ he := he
  roots _ he _ := he
  ordered := by
    refine h.keep rfl ?_ (fun p hp => ⟨p, hp, rfl⟩) fun s hs => ⟨s, hs, rfl⟩
    rw [Books.upsertAccount, Accounts.upsert_of_mem hu hname]
    exact le_rfl
  drift id := by
    change (b.accounts.upsert account).balanceOf id - b.ledgerBalance id = _
    rw [Accounts.balanceOf_upsert hu hname, Books.drift]
    ring
  names := by
    change (b.accounts.upsert account).table.rows.map _ = _
    rw [Accounts.upsert_of_mem hu hname]
    change (b.accounts.table.rows.map fun a =>
      if decide (a.username = account.username) = true then { account with id := a.id } else a).map
        Account.nameplate = _
    rw [List.map_map]
    refine List.map_congr_left fun a ha => ?_
    simp only [Function.comp]
    split_ifs with hsame
    · have hself := b.accounts.unique a ha u hu ((of_decide_eq_true hsame).trans hname)
      subst hself
      simp [Account.nameplate, hname, hdeleted]
    · rfl

theorem posting_moved (a : Account) (cents : ℤ) (currency : String) (posting : Posting) (n id : ℕ) :
    ({ posting.entry a cents currency with id := n } : LedgerEntry).moved id =
      if id = a.id then (posting.entry a cents currency).direction.sign * cents else 0 := by
  have hshape : (posting.entry a cents currency).sourceType.moves = true ∧
      (posting.entry a cents currency).subscriberId = some a.id ∧
        (posting.entry a cents currency).amount = cents := by
    cases posting <;> exact ⟨rfl, rfl, rfl⟩
  obtain ⟨hmoves, hsubscriber, hamount⟩ := hshape
  rw [LedgerEntry.moved, LedgerEntry.signed]
  by_cases hid : id = a.id
  · simp [hmoves, hsubscriber, hamount, hid]
  · simp [hsubscriber, hid, Ne.symm hid]

theorem Ordered.posting (h : Ordered b) {a : Account} (ha : a.id < b.accounts.table.next)
    (cents : ℤ) (currency : String) (posting : Posting) :
    Drifts b (b.post (fun id => { posting.entry a cents currency with id }) fun _ => rfl)
      fun id => if id = a.id then -((posting.entry a cents currency).direction.sign * cents)
        else 0 := by
  have hnone : (posting.entry a cents currency).reversalOf = none := by cases posting <;> rfl
  refine ⟨h.grow (h.ledger.post hnone) (fun _ id hid => ?_) (fun _ htype => ?_), fun id => ?_, rfl⟩
  · have hself : (posting.entry a cents currency).subscriberId = some a.id := by
      cases posting <;> rfl
    obtain rfl := Option.some.inj (hself.symm.trans hid)
    exact ha
  · cases posting with
    | balanceSettlement paymentId => exact ⟨rfl, rfl⟩
    | cashBalance | planChange => cases htype
    | manualBalance direction => cases htype
    | timeExtension onDebt minutes => cases onDebt <;> cases htype
    | quotaTopup onDebt => cases onDebt <;> cases htype
    | dailyQuotaReset onDebt => cases onDebt <;> cases htype
  · change b.accounts.balanceOf id - (b.post _ _).ledgerBalance id = _
    rw [ledgerBalance_post h.ledger hnone, posting_moved, Books.drift]
    split_ifs <;> ring

theorem Ordered.reverse (h : Ordered b) {o : LedgerEntry} (ho : o ∈ b.ledger.rows)
    (hnone : o.reversalOf = none) (hlive : b.reversed o.id = false)
    (hrev : (entry b.ledger.next).reversalOf = some o.id)
    (hamount : (entry b.ledger.next).amount = -o.amount)
    (hside : (entry b.ledger.next).direction = o.direction.flip)
    (hstill : (entry b.ledger.next).sourceType.moves = false) :
    Undoes b (b.post entry hentry) o.moved where
  kept _ he := List.mem_append_left _ he
  roots e he hroot := by
    rcases List.mem_append.mp he with he | he
    · exact he
    · rw [List.mem_singleton.mp he, hrev] at hroot
      cases hroot
  ordered := h.grow (h.ledger.reverse ho hnone hlive hrev hamount hside)
    (fun hmoves => by rw [hstill] at hmoves; cases hmoves)
    (fun hroot => by rw [hrev] at hroot; cases hroot)
  drift id := by
    change b.accounts.balanceOf id - (b.post entry hentry).ledgerBalance id = _
    rw [ledgerBalance_reverse h.ledger ho hnone hlive hrev hamount hside, Books.drift]
    ring
  names := rfl

theorem Ordered.voidLedgerEntry (h : Ordered b) {entryId : ℕ}
    (hvoid : b.voidLedgerEntry entryId = .ok b') :
    ∃ o, b.ledger.get? entryId = some o ∧ Undoes b b' o.moved := by
  unfold Books.voidLedgerEntry at hvoid
  cases hget : b.ledger.get? entryId with
  | none =>
    rw [hget] at hvoid
    cases hvoid
  | some o =>
    obtain ⟨ho, rfl⟩ := Table.get?_eq_some.mp hget
    simp only [hget] at hvoid
    split_ifs at hvoid with hreversal hreversed
    obtain rfl := (Except.ok.inj hvoid).symm
    have hnone : o.reversalOf = none := by
      simp only [LedgerEntry.isReversal, Bool.or_eq_true, not_or, Bool.not_eq_true] at hreversal
      simpa using hreversal.1.1.1
    exact ⟨o, rfl, h.reverse ho hnone (by simpa using hreversed) rfl rfl rfl rfl⟩

theorem entries_kept {α : Type} {rows : List α} {p : α → Bool} {f : α → α} {entryOf : α → Option ℕ}
    (hentry : ∀ r, entryOf (f r) = entryOf r) :
    ∀ r ∈ rows.map fun r => if p r then f r else r, ∃ r' ∈ rows, entryOf r = entryOf r' := by
  intro r hr
  obtain ⟨r', hr', rfl⟩ := List.mem_map.mp hr
  refine ⟨r', hr', ?_⟩
  split_ifs
  · exact hentry r'
  · rfl

theorem Ordered.same (h : Ordered b) (hledger : b'.ledger = b.ledger)
    (haccounts : b'.accounts = b.accounts)
    (hpayments : ∀ p ∈ b'.payments.rows, ∃ p' ∈ b.payments.rows, p.ledgerEntryId = p'.ledgerEntryId)
    (hsettlements : ∀ s ∈ b'.settlements.rows, ∃ s' ∈ b.settlements.rows,
      s.ledgerEntryId = s'.ledgerEntryId) : Undoes b b' fun _ => 0 where
  kept _ he := hledger ▸ he
  roots _ he _ := hledger ▸ he
  ordered := h.keep hledger (by rw [haccounts]) hpayments hsettlements
  drift id := by
    rw [Books.drift, Books.drift, haccounts, ledgerBalance_live (hledger ▸ h.ledger),
      ledgerBalance_live h.ledger, hledger, add_zero]
  names := by rw [haccounts]; rfl

theorem Ordered.reverseStill (h : Ordered b) {o : LedgerEntry} (ho : b.Still o.id)
    (hmem : o ∈ b.ledger.rows) (hlive : b.reversed o.id = false)
    (hrev : (entry b.ledger.next).reversalOf = some o.id)
    (hamount : (entry b.ledger.next).amount = -o.amount)
    (hside : (entry b.ledger.next).direction = o.direction.flip)
    (hstill : (entry b.ledger.next).sourceType.moves = false) :
    Undoes b (b.post entry hentry) fun _ => 0 := by
  obtain ⟨e, he, hkey, hmoves, hnone⟩ := ho
  obtain rfl := b.ledger.eq_of_key_eq he hmem hkey
  exact (h.reverse hmem hnone hlive hrev hamount hside hstill).congr
    fun id => LedgerEntry.moved_of_not_moves hmoves id

theorem Ordered.voidSettlement (h : Ordered b) {settlementId : ℕ}
    (hvoid : b.voidSettlement settlementId = .ok b') : Undoes b b' fun _ => 0 := by
  unfold Books.voidSettlement at hvoid
  cases hfind : b.settlements.rows.find? fun s => s.id = settlementId && s.status = .posted with
  | none =>
    simp only [hfind] at hvoid
    cases hvoid
  | some s =>
    simp only [hfind] at hvoid
    set voided : Books := { b with
      settlements := b.settlements.update (fun s => s.id = settlementId)
        (fun s => { s with status := .voided }) fun _ => rfl
      loans := b.loans.update (fun l => l.id = s.loanId && l.status = .settled)
        (fun l => { l with status := .open }) fun _ => rfl } with hvoided
    have hsame : Undoes b voided fun _ => 0 :=
      h.same rfl rfl (fun p hp => ⟨p, hp, rfl⟩) (entries_kept fun _ => rfl)
    cases horiginal : s.ledgerEntryId.bind b.ledger.get? with
    | none =>
      simp only [horiginal] at hvoid
      exact (Except.ok.inj hvoid) ▸ hsame
    | some original =>
      simp only [horiginal] at hvoid
      split_ifs at hvoid with hreversed
      · exact (Except.ok.inj hvoid) ▸ hsame
      · obtain ⟨k, hk, hget⟩ := Option.bind_eq_some_iff.mp horiginal
        obtain ⟨hmem, rfl⟩ := Table.get?_eq_some.mp hget
        have hstill := h.settlements s (List.mem_of_find?_eq_some hfind) _ hk
        rw [← Except.ok.inj hvoid]
        exact (hsame.trans (hsame.ordered.reverseStill hstill hmem (Bool.eq_false_iff.mpr hreversed)
          rfl rfl rfl rfl)).congr fun _ => rfl

theorem Ordered.voidPayment (h : Ordered b) {payment : Payment}
    (hpayment : payment ∈ b.payments.rows) (hvoid : b.voidPayment payment = .ok b') :
    Undoes b b' fun _ => 0 := by
  unfold Books.voidPayment at hvoid
  cases horiginal : payment.ledgerEntryId.bind b.ledger.get? with
  | none =>
    rw [horiginal] at hvoid
    cases hvoid
  | some original =>
    simp only [horiginal] at hvoid
    split_ifs at hvoid with hrow hreversed
    obtain ⟨k, hk, hget⟩ := Option.bind_eq_some_iff.mp horiginal
    obtain ⟨hmem, rfl⟩ := Table.get?_eq_some.mp hget
    set voided : Books := { b with
      payments := b.payments.update
        (fun p => p.id = payment.id && p.status ≠ PaymentStatus.voided)
        (fun p => { p with status := .voided }) fun _ => rfl }
    have hsame : Undoes b voided fun _ => 0 :=
      h.same rfl rfl (entries_kept fun _ => rfl) fun s hs => ⟨s, hs, rfl⟩
    rw [← Except.ok.inj hvoid]
    exact (hsame.trans (hsame.ordered.reverseStill (h.payments payment hpayment _ hk) hmem
      (Bool.eq_false_iff.mpr hreversed) rfl rfl rfl rfl)).congr fun _ => rfl

end

end RadiusModule.Accounting
