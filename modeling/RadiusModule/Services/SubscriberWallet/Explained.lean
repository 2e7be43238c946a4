import RadiusModule.Services.SubscriberWallet.Drift

/-!
# Balances that the ledger explains

A row of an account is written with the balance that stands under its name,
or with what is entered on top of it; a new name starts from nothing, in the
accounts and in the ledger.
-/

namespace RadiusModule.Accounting
open Library

section
variable {b b' : Books}

structure Explained (b : Books) : Prop where
  ordered : Ordered b
  balance : ∀ a ∈ b.accounts.table.rows, a.balance = b.ledgerBalance a.id

theorem Accounts.balanceOf_row {as : Accounts} {a : Account} (ha : a ∈ as.table.rows) :
    as.balanceOf a.id = a.balance := by
  rw [balanceOf, Table.get?_eq_some.mpr ⟨ha, rfl⟩]
  rfl

theorem explained_iff (h : Ordered b) :
    Explained b ↔ ∀ a ∈ b.accounts.table.rows, b.drift a.id = 0 := by
  have hrow : ∀ a ∈ b.accounts.table.rows,
      (b.drift a.id = 0 ↔ a.balance = b.ledgerBalance a.id) := fun a ha => by
    rw [Books.drift, Accounts.balanceOf_row ha, sub_eq_zero]
  exact ⟨fun hb a ha => (hrow a ha).mpr (hb.balance a ha),
    fun hb => ⟨h, fun a ha => (hrow a ha).mp (hb a ha)⟩⟩

theorem Explained.drifts (h : Explained b) (hd : Drifts b b' fun _ => 0) : Explained b' := by
  refine (explained_iff hd.ordered).mpr fun a ha => ?_
  have hplate : a.nameplate ∈ b.accounts.table.rows.map Account.nameplate :=
    hd.names ▸ List.mem_map_of_mem ha
  obtain ⟨a', ha', hsame⟩ := List.mem_map.mp hplate
  have hid : a'.id = a.id := congrArg Prod.fst hsame
  rw [hd.drift, add_zero, ← hid]
  exact (explained_iff h.ordered).mp h a' ha'

def Books.storedBalance (b : Books) (username : String) : ℤ :=
  ((b.accounts.table.rows.find? fun a => a.username = username).map Account.balance).getD 0

theorem storedBalance_of_mem {u : Account} (hu : u ∈ b.accounts.table.rows) :
    b.storedBalance u.username = u.balance := by
  rw [Books.storedBalance]
  cases hfind : b.accounts.table.rows.find? fun a => a.username = u.username with
  | none => simpa using List.find?_eq_none.mp hfind u hu
  | some a =>
    rw [b.accounts.unique a (List.mem_of_find?_eq_some hfind) u hu (by
      simpa using List.find?_some hfind)]
    rfl

def Accounts.savedRow (as : Accounts) (account : Account) : Account :=
  { account with
    id := ((as.table.rows.find? fun a => a.username = account.username).map Account.id).getD
      as.table.next }

theorem Accounts.savedRow_of_mem {as : Accounts} {u account : Account} (hu : u ∈ as.table.rows)
    (hname : account.username = u.username) :
    as.savedRow account = { account with id := u.id } := by
  rw [savedRow]
  cases hfind : as.table.rows.find? fun a => a.username = account.username with
  | none =>
    have hnone := List.find?_eq_none.mp hfind u hu
    simp [hname] at hnone
  | some a =>
    rw [as.unique a (List.mem_of_find?_eq_some hfind) u hu (by
      simpa [hname] using List.find?_some hfind)]
    rfl

theorem Accounts.savedRow_of_new {as : Accounts} {account : Account}
    (hnew : ∀ a ∈ as.table.rows, a.username ≠ account.username) :
    as.savedRow account = { account with id := as.table.next } := by
  rw [savedRow, List.find?_eq_none.mpr fun a ha => by simpa using hnew a ha]
  rfl

theorem Accounts.savedRow_mem (as : Accounts) (account : Account) :
    as.savedRow account ∈ (as.upsert account).table.rows := by
  by_cases hnew : ∀ a ∈ as.table.rows, a.username ≠ account.username
  · rw [upsert, dif_pos hnew, savedRow_of_new hnew]
    exact List.mem_append_right _ (List.mem_singleton_self _)
  · push Not at hnew
    obtain ⟨u, hu, hname⟩ := hnew
    rw [upsert_of_mem hu hname.symm, savedRow_of_mem hu hname.symm]
    exact List.mem_map.mpr ⟨u, hu, by rw [if_pos (decide_eq_true hname)]⟩

theorem Ordered.written (h : Ordered b) (account : Account) :
    Ordered (b.upsertAccount account) ∧
      (b.accounts.savedRow account).id < (b.accounts.upsert account).table.next ∧
      ∀ id, (b.upsertAccount account).drift id = b.drift id +
        if id = (b.accounts.savedRow account).id then
          account.balance - b.storedBalance account.username else 0 := by
  have hbelow := (b.accounts.upsert account).table.below _ (b.accounts.savedRow_mem account)
  by_cases hnew : ∀ a ∈ b.accounts.table.rows, a.username ≠ account.username
  · have hupsert : b.accounts.upsert account = b.accounts.insert account hnew := dif_pos hnew
    refine ⟨h.keep rfl ?_ (fun p hp => ⟨p, hp, rfl⟩) fun s hs => ⟨s, hs, rfl⟩, hbelow, fun id => ?_⟩
    · rw [Books.upsertAccount, hupsert]
      exact Nat.le_succ _
    · have hstored : b.storedBalance account.username = 0 := by
        rw [Books.storedBalance, List.find?_eq_none.mpr fun a ha => by simpa using hnew a ha]
        rfl
      change (b.accounts.upsert account).balanceOf id - b.ledgerBalance id = _
      rw [hupsert, Accounts.savedRow_of_new hnew, hstored, Books.drift, Accounts.balanceOf,
        Accounts.insert, Table.get?_insert, Accounts.balanceOf]
      split_ifs with hid
      · rw [hid, Table.get?_next]
        simp only [Option.map_some, Option.map_none, Option.getD_some, Option.getD_none]
        ring
      · ring
  · push Not at hnew
    obtain ⟨u, hu, hname⟩ := hnew
    refine ⟨h.keep rfl ?_ (fun p hp => ⟨p, hp, rfl⟩) fun s hs => ⟨s, hs, rfl⟩, hbelow, fun id => ?_⟩
    · rw [Books.upsertAccount, Accounts.upsert_of_mem hu hname.symm]
      exact le_rfl
    · change (b.accounts.upsert account).balanceOf id - b.ledgerBalance id = _
      rw [Accounts.balanceOf_upsert hu hname.symm, Accounts.savedRow_of_mem hu hname.symm, ← hname,
        storedBalance_of_mem hu, Books.drift]
      ring

theorem Accounts.id_upsert {as : Accounts} {account a : Account}
    (ha : a ∈ (as.upsert account).table.rows) :
    a.id = (as.savedRow account).id ∨ ∃ a' ∈ as.table.rows, a'.id = a.id := by
  by_cases hnew : ∀ a ∈ as.table.rows, a.username ≠ account.username
  · rw [upsert, dif_pos hnew] at ha
    rcases List.mem_append.mp ha with ha | ha
    · exact .inr ⟨a, ha, rfl⟩
    · rw [savedRow_of_new hnew, List.mem_singleton.mp ha]
      exact .inl rfl
  · push Not at hnew
    obtain ⟨u, hu, hname⟩ := hnew
    rw [upsert_of_mem hu hname.symm] at ha
    obtain ⟨a', ha', rfl⟩ := List.mem_map.mp ha
    refine .inr ⟨a', ha', ?_⟩
    split_ifs <;> rfl

theorem Explained.saved (h : Explained b) (account : Account) :
    b.drift (b.accounts.savedRow account).id = 0 := by
  by_cases hnew : ∀ a ∈ b.accounts.table.rows, a.username ≠ account.username
  · rw [Accounts.savedRow_of_new hnew, Books.drift, Accounts.balanceOf, Table.get?_next,
      ledgerBalance_live h.ordered.ledger, Journal.live, Table.select,
      List.filter_eq_nil_iff.mpr]
    · rfl
    · intro e he hlive
      simp only [Bool.and_eq_true, decide_eq_true_eq] at hlive
      exact (h.ordered.known e he hlive.1.1.1 _ hlive.1.1.2).ne rfl
  · push Not at hnew
    obtain ⟨u, hu, hname⟩ := hnew
    rw [Accounts.savedRow_of_mem hu hname.symm]
    exact (explained_iff h.ordered).mp h u hu

theorem Explained.upsert (h : Explained b) {account : Account} (hordered : Ordered b')
    (haccounts : b'.accounts = b.accounts.upsert account)
    (hdrift : ∀ id, b'.drift id = b.drift id) : Explained b' := by
  refine (explained_iff hordered).mpr fun a ha => ?_
  rw [hdrift]
  rcases Accounts.id_upsert (haccounts ▸ ha) with hid | ⟨a', ha', hid⟩
  · rw [hid]
    exact h.saved account
  · rw [← hid]
    exact (explained_iff h.ordered).mp h a' ha'

theorem Explained.kept (h : Explained b) {account : Account}
    (hbalance : account.balance = b.storedBalance account.username) :
    Explained (b.upsertAccount account) := by
  obtain ⟨hordered, -, hdrift⟩ := h.ordered.written account
  refine h.upsert hordered rfl fun id => ?_
  rw [hdrift, hbalance]
  simp

theorem Explained.entered (h : Explained b) {account : Account} {cents : ℤ} {currency : String}
    {posting : Posting}
    (hbalance : account.balance = b.storedBalance account.username +
      (posting.entry (b.accounts.savedRow account) cents currency).direction.sign * cents) :
    Explained ((b.upsertAccount account).post (fun id =>
      { posting.entry (b.accounts.savedRow account) cents currency with id }) fun _ => rfl) := by
  obtain ⟨hordered, hbelow, hdrift⟩ := h.ordered.written account
  have hposted := hordered.posting hbelow cents currency posting
  refine h.upsert hposted.ordered rfl fun id => ?_
  rw [hposted.drift, hdrift, hbalance]
  split_ifs <;> ring

end

end RadiusModule.Accounting
