import RadiusModule.Services.Accounting.Changes
import RadiusModule.Services.SubscriberWallet.Actions

/-!
# What the ledger says of a balance

The balances and the ledger move together: an entry that moves a balance adds
its amount to what the ledger says of its subscriber, and a reversal takes it
away again.
-/

namespace RadiusModule.Accounting
open Library

def SourceType.moves : SourceType → Bool
  | .subscriber _ => true
  | _ => false

def Direction.sign : Direction → ℤ
  | .credit => 1
  | .debit => -1

abbrev Books.original (b : Books) (e : LedgerEntry) : LedgerEntry :=
  Journal.root LedgerEntry.reversalOf b.ledger e

def Books.walletEntries (b : Books) (id : ℕ) : List LedgerEntry :=
  b.ledger.select fun e =>
    (b.original e).sourceType.moves && (b.original e).subscriberId = some id

/-- Credits minus debits; a reversal, whose amount is negative, stands on the side of the entry
that it takes back. -/
def Books.ledgerBalance (b : Books) (id : ℕ) : ℤ :=
  ((b.walletEntries id).map fun e => (b.original e).direction.sign * e.amount).sum

def Books.rowBalance (b : Books) (id : ℕ) : ℤ :=
  ((b.walletEntries id).map fun e => e.direction.sign * e.amount).sum

def Books.reversalRows (b : Books) (id : ℕ) : ℤ :=
  (((b.walletEntries id).filter fun e => e.reversalOf.isSome).map fun e =>
    e.direction.sign * e.amount).sum

structure Ledger.Sound (t : Ledger) : Prop where
  journal : Journal.Sound LedgerEntry.reversalOf LedgerEntry.amount t
  flipped : ∀ e ∈ t.rows, ∀ k ∈ e.reversalOf, ∀ o ∈ t.rows, o.id = k →
    e.direction = o.direction.flip

def LedgerEntry.signed (e : LedgerEntry) : ℤ := e.direction.sign * e.amount

theorem Direction.sign_flip (d : Direction) : d.flip.sign = -d.sign := by
  cases d <;> rfl

section
variable {b : Books}

theorem ledgerBalance_live (h : Ledger.Sound b.ledger) (id : ℕ) :
    b.ledgerBalance id = ((Journal.live LedgerEntry.reversalOf b.ledger fun e =>
      e.sourceType.moves && e.subscriberId = some id).map LedgerEntry.signed).sum :=
  h.journal.sum_root (fun e => e.sourceType.moves && e.subscriberId = some id) fun e =>
    e.direction.sign

theorem rowBalance_eq (h : Ledger.Sound b.ledger) (id : ℕ) :
    b.rowBalance id = b.ledgerBalance id + 2 * b.reversalRows id := by
  have hrow : ∀ e ∈ b.walletEntries id, e.direction.sign * e.amount =
      (b.original e).direction.sign * e.amount +
        2 * (if e.reversalOf.isSome then e.direction.sign * e.amount else 0) := by
    intro e he
    have hmem := (Table.mem_select.mp he).1
    cases hrev : e.reversalOf with
    | none =>
      rw [Books.original, Journal.root_of_none hrev]
      simp
    | some k =>
      obtain ⟨o, ho, hkey, -⟩ := h.journal.known e hmem k hrev
      rw [Books.original, Journal.root_of_some ho (hrev.trans (congrArg some hkey.symm)),
        h.flipped e hmem k hrev o ho hkey, Direction.sign_flip]
      simp
      ring
  have hfilter : ∀ l : List LedgerEntry,
      ((l.filter fun e => e.reversalOf.isSome).map fun e => e.direction.sign * e.amount).sum =
        (l.map fun e => if e.reversalOf.isSome then e.direction.sign * e.amount else 0).sum := by
    intro l
    induction l with
    | nil => rfl
    | cons e l ih =>
      rw [List.filter_cons, List.map_cons, List.sum_cons, ← ih]
      split_ifs <;> simp
  rw [Books.rowBalance, List.map_congr_left hrow, List.sum_map_add, List.sum_map_mul_left,
    Books.ledgerBalance, Books.reversalRows, hfilter]

def LedgerEntry.moved (e : LedgerEntry) (id : ℕ) : ℤ :=
  if e.sourceType.moves && e.subscriberId = some id then e.signed else 0

theorem LedgerEntry.moved_of_not_moves {e : LedgerEntry} (h : e.sourceType.moves = false) (id : ℕ) :
    e.moved id = 0 := by
  rw [moved, h]
  rfl

theorem Ledger.Sound.post (h : Ledger.Sound b.ledger) {entry : ℕ → LedgerEntry}
    {hentry : ∀ id, (entry id).id = id} (hnone : (entry b.ledger.next).reversalOf = none) :
    Ledger.Sound (b.post entry hentry).ledger where
  journal := show Journal.Sound _ _ (b.ledger.insert entry hentry) from h.journal.post hnone
  flipped e he k hk o ho hkey := by
    rcases List.mem_append.mp he with he | he
    · obtain ⟨o', ho', hkey', -⟩ := h.journal.known e he k hk
      rcases List.mem_append.mp ho with ho | ho
      · exact h.flipped e he k hk o ho hkey
      · rw [List.mem_singleton.mp ho, hentry] at hkey
        exact absurd (hkey'.trans hkey.symm) (b.ledger.below o' ho').ne
    · rw [List.mem_singleton.mp he, hnone] at hk
      cases hk

theorem ledgerBalance_post (h : Ledger.Sound b.ledger) {entry : ℕ → LedgerEntry}
    {hentry : ∀ id, (entry id).id = id} (hnone : (entry b.ledger.next).reversalOf = none) (id : ℕ) :
    (b.post entry hentry).ledgerBalance id =
      b.ledgerBalance id + (entry b.ledger.next).moved id := by
  rw [ledgerBalance_live (h.post hnone), ledgerBalance_live h, Books.post,
    Journal.live_post h.journal hnone, List.map_append, List.sum_append, LedgerEntry.moved]
  split_ifs <;> simp

variable {o : LedgerEntry}

theorem Ledger.Sound.reverse (h : Ledger.Sound b.ledger) (ho : o ∈ b.ledger.rows)
    (hnone : o.reversalOf = none) (hlive : b.reversed o.id = false) {entry : ℕ → LedgerEntry}
    {hentry : ∀ id, (entry id).id = id} (hrev : (entry b.ledger.next).reversalOf = some o.id)
    (hamount : (entry b.ledger.next).amount = -o.amount)
    (hside : (entry b.ledger.next).direction = o.direction.flip) :
    Ledger.Sound (b.post entry hentry).ledger where
  journal := show Journal.Sound _ _ (b.ledger.insert entry hentry) from
    h.journal.reverse ho hnone hlive hrev hamount
  flipped e he k hk r hr hkey := by
    rcases List.mem_append.mp he with he | he
    · obtain ⟨o', ho', hkey', -⟩ := h.journal.known e he k hk
      rcases List.mem_append.mp hr with hr | hr
      · exact h.flipped e he k hk r hr hkey
      · rw [List.mem_singleton.mp hr, hentry] at hkey
        exact absurd (hkey'.trans hkey.symm) (b.ledger.below o' ho').ne
    · rw [List.mem_singleton.mp he] at hk ⊢
      rw [hrev] at hk
      obtain rfl : o.id = k := Option.some.inj hk
      rcases List.mem_append.mp hr with hr | hr
      · rw [b.ledger.eq_of_key_eq hr ho hkey, hside]
      · rw [List.mem_singleton.mp hr, hentry] at hkey
        exact absurd hkey.symm (b.ledger.below o ho).ne

theorem ledgerBalance_reverse (h : Ledger.Sound b.ledger) (ho : o ∈ b.ledger.rows)
    (hnone : o.reversalOf = none) (hlive : b.reversed o.id = false) {entry : ℕ → LedgerEntry}
    {hentry : ∀ id, (entry id).id = id} (hrev : (entry b.ledger.next).reversalOf = some o.id)
    (hamount : (entry b.ledger.next).amount = -o.amount)
    (hside : (entry b.ledger.next).direction = o.direction.flip) (id : ℕ) :
    (b.post entry hentry).ledgerBalance id = b.ledgerBalance id - o.moved id := by
  rw [ledgerBalance_live (h.reverse ho hnone hlive hrev hamount hside), ledgerBalance_live h,
    Books.post, Journal.sum_live_reverse ho hnone hlive hrev]
  rfl

end

def Accounts.balanceOf (as : Accounts) (id : ℕ) : ℤ :=
  ((as.table.get? id).map Account.balance).getD 0

section
variable {as : Accounts} {u account : Account} {username : String}

theorem Accounts.get_mem (h : as.get username = some u) :
    u ∈ as.table.rows ∧ u.username = username ∧ u.deleted = false := by
  have hfound := List.find?_some h
  simp only [Bool.and_eq_true, decide_eq_true_eq, Bool.not_eq_true'] at hfound
  exact ⟨List.mem_of_find?_eq_some h, hfound⟩

theorem Accounts.upsert_of_mem (hu : u ∈ as.table.rows) (hname : account.username = u.username) :
    as.upsert account = as.replace account := by
  rw [Accounts.upsert, dif_neg]
  exact fun hnew => hnew u hu hname.symm

theorem Accounts.replace_get? (hu : u ∈ as.table.rows) (hname : account.username = u.username)
    (id : ℕ) : (as.replace account).table.get? id =
      if id = u.id then some { account with id := u.id } else as.table.get? id := by
  rw [Accounts.replace, Table.get?_update]
  by_cases hid : id = u.id
  · subst hid
    rw [if_pos rfl, Table.get?_eq_some.mpr ⟨hu, rfl⟩, Option.map_some,
      if_pos (decide_eq_true hname.symm)]
  · rw [if_neg hid]
    cases hget : as.table.get? id with
    | none => rfl
    | some a =>
      obtain ⟨ha, rfl⟩ := Table.get?_eq_some.mp hget
      rw [Option.map_some, if_neg]
      intro hsame
      exact hid (congrArg Account.id
        (as.unique a ha u hu ((of_decide_eq_true hsame).trans hname)))

theorem Accounts.balanceOf_upsert (hu : u ∈ as.table.rows) (hname : account.username = u.username)
    (id : ℕ) : (as.upsert account).balanceOf id =
      as.balanceOf id + if id = u.id then account.balance - u.balance else 0 := by
  rw [Accounts.upsert_of_mem hu hname, Accounts.balanceOf, Accounts.replace_get? hu hname,
    Accounts.balanceOf]
  by_cases hid : id = u.id
  · subst hid
    rw [if_pos rfl, if_pos rfl, Table.get?_eq_some.mpr ⟨hu, rfl⟩]
    simp
  · rw [if_neg hid, if_neg hid, add_zero]

end

end RadiusModule.Accounting
