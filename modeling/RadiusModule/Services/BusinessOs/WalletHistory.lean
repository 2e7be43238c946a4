import RadiusModule.Services.BusinessOs.Finance
import RadiusModule.Library.Balance
import RadiusModule.Library.Run

/-!
# The history of a wallet

A movement that is not refused changes one wallet, and adds one row and one
ledger entry. So over any run the rows of a wallet are a chain from 0 to its
balance, and its ledger entries stand beside them one by one.
-/

namespace RadiusModule.BusinessOs
open Library Connection

/-- The books after a movement of `amountMinor` on a wallet that is there. -/
def Books.moved (b : Books) (defaultCurrency : String) (m : Movement) (wallet : Wallet)
    (amountMinor : ℤ) : Books :=
  let currency := textOr wallet.currency defaultCurrency
  let before := wallet.balanceMinor
  (((b.updateBalance m.tenantId m.walletId (before + m.transactionType.signed amountMinor)
    ).insertTransaction (movementRow m amountMinor before currency)
    ).insertEntry { movementEntry m wallet currency b.transactions.next with amountMinor }
    ).recordEvent ⟨"wallet." ++ m.transactionType.name, wallet.ownerType, wallet.ownerId,
      some m.walletId, some b.ledger.next⟩

theorem write_ok {faults : Faults} {w : Statement} {b b' : Books}
    (h : faults.sqlite.write w b = .ok b') : b.apply w = .ok b' := by
  simp only [Faults.sqlite] at h
  cases hf : faults.statement w b with
  | some e =>
    rw [hf] at h
    cases h
  | none =>
    rw [hf] at h
    exact h

theorem perform_changeBalance (faults : Faults) (defaultCurrency : String) (m : Movement)
    (b : Books) :
    (∃ e, perform faults.sqlite (changeBalance defaultCurrency m) b = (.error e, b)) ∨
    ∃ amountMinor wallet, positiveMinor m.amount = .ok amountMinor ∧
      b.wallet m.tenantId m.walletId = some wallet ∧
      0 ≤ wallet.balanceMinor + m.transactionType.signed amountMinor ∧
      perform faults.sqlite (changeBalance defaultCurrency m) b =
        (.ok (b.transactions.next, b.ledger.next),
          b.moved defaultCurrency m wallet amountMinor) := by
  unfold changeBalance
  cases hamount : positiveMinor m.amount with
  | error e => exact .inl ⟨e, rfl⟩
  | ok amountMinor =>
    simp only [perform_transaction]
    rcases block_cases faults.sqlite _ b with herror | ⟨ids, b', heval, hblock⟩
    · exact .inl herror
    · refine .inr ⟨amountMinor, ?_⟩
      rw [hblock]
      obtain ⟨b₁, hselect, heval⟩ := eval_statement heval
      cases write_ok hselect
      cases hwallet : b.wallet m.tenantId m.walletId with
      | none =>
        rw [hwallet] at heval
        cases heval
      | some wallet =>
        simp only [hwallet] at heval
        split_ifs at heval with hneg
        · cases heval
        obtain ⟨b₂, hupdate, heval⟩ := eval_statement heval
        cases write_ok hupdate
        obtain ⟨b₃, hinsert, heval⟩ := eval_statement heval
        cases write_ok hinsert
        simp only [writeEntry, hamount] at heval
        obtain ⟨b₄, hentry, heval⟩ := eval_statement heval
        cases write_ok hentry
        obtain ⟨b₅, hevent, heval⟩ := eval_statement heval
        cases write_ok hevent
        cases heval
        exact ⟨wallet, rfl, rfl, not_lt.mp hneg, rfl⟩

theorem perform_changeBalance_ok (defaultCurrency : String) (m : Movement) {b : Books}
    {amountMinor : ℤ} {wallet : Wallet} (hamount : positiveMinor m.amount = .ok amountMinor)
    (hwallet : b.wallet m.tenantId m.walletId = some wallet)
    (hafter : 0 ≤ wallet.balanceMinor + m.transactionType.signed amountMinor) :
    perform ({} : Faults).sqlite (changeBalance defaultCurrency m) b =
      (.ok (b.transactions.next, b.ledger.next),
        b.moved defaultCurrency m wallet amountMinor) := by
  simp only [changeBalance, hamount, perform_transaction]
  refine block_of_eval rfl ?_ rfl
  simp only [eval, Faults.sqlite, Books.apply, hwallet, if_neg (not_lt.mpr hafter), writeEntry,
    hamount]
  rfl

theorem perform_ledgerWriteEntry (faults : Faults) (amount : Amount) (row : LedgerEntry)
    (b : Books) :
    (∃ e, perform faults.sqlite (ledgerWriteEntry amount row) b = (.error e, b)) ∨
    ∃ amountMinor event, positiveMinor amount = .ok amountMinor ∧
      perform faults.sqlite (ledgerWriteEntry amount row) b =
        (.ok b.ledger.next, (b.insertEntry { row with amountMinor }).recordEvent event) := by
  unfold ledgerWriteEntry
  rw [perform_transaction]
  rcases block_cases faults.sqlite _ b with herror | ⟨id, b', heval, hblock⟩
  · exact .inl herror
  · right
    rw [hblock]
    unfold writeEntry at heval
    cases hamount : positiveMinor amount with
    | error e =>
      rw [hamount] at heval
      cases heval
    | ok amountMinor =>
      simp only [hamount] at heval
      obtain ⟨b₁, hentry, heval⟩ := eval_statement heval
      cases write_ok hentry
      obtain ⟨b₂, hevent, heval⟩ := eval_statement heval
      cases write_ok hevent
      cases heval
      exact ⟨amountMinor, _, rfl, rfl⟩

theorem perform_createWallet (faults : Faults) (defaultCurrency : String) (tenantId : ℤ)
    (ownerType : String) (ownerId : Option ℤ) (currency : String) (b : Books) :
    let made := perform faults.sqlite
      (createWallet defaultCurrency tenantId ownerType ownerId currency) b
    (∃ e, made = (.error e, b)) ∨ ∃ event, made = (.ok b.wallets.next,
      (b.insertWallet tenantId (PyText.strip ownerType) ownerId
        (textOr currency defaultCurrency)).recordEvent event) := by
  simp only [createWallet]
  generalize textOr currency defaultCurrency = currency
  generalize PyText.strip ownerType = owner
  split_ifs with hid howner
  · exact .inl ⟨_, rfl⟩
  · rw [perform_transaction]
    rcases block_cases faults.sqlite _ b with herror | ⟨id, b', heval, hblock⟩
    · exact .inl herror
    · refine .inr ⟨⟨"wallet.created", owner, ownerId, b.wallets.next, none⟩, ?_⟩
      rw [hblock]
      obtain ⟨b₁, hinsert, heval⟩ := eval_statement heval
      have hinsert := write_ok hinsert
      simp only [Books.apply] at hinsert
      split_ifs at hinsert
      cases hinsert
      obtain ⟨b₂, hevent, heval⟩ := eval_statement heval
      cases write_ok hevent
      cases heval
      rfl
  · exact .inl ⟨_, rfl⟩

def Books.history (b : Books) (w : Wallet) : List WalletTransaction :=
  b.transactions.select fun t => t.tenantId = w.tenantId && t.walletId = w.id

def Books.entriesOf (b : Books) (w : Wallet) : List LedgerEntry :=
  b.ledger.select fun e => e.tenantId = w.tenantId &&
    (e.debitAccount = .wallet w.id || e.creditAccount = .wallet w.id)

def WalletTransaction.signed (t : WalletTransaction) : ℤ := t.transactionType.signed t.amountMinor

structure Records (t : WalletTransaction) (e : LedgerEntry) : Prop where
  amount : e.amountMinor = t.amountMinor
  accounts : (e.debitAccount, e.creditAccount) = match t.transactionType with
    | .credit => (.cash, .wallet t.walletId)
    | .debit => (.wallet t.walletId, .cash)
  names : t.metadata.lookup walletTransactionIdKey = none →
    e.metadata.lookup walletTransactionIdKey = some (.number (toString t.id) (t.id = 0))

structure SoundWallet (b : Books) (w : Wallet) : Prop where
  chain : RunningBalance WalletTransaction.beforeBalanceMinor WalletTransaction.afterBalanceMinor
    WalletTransaction.signed 0 (b.history w) w.balanceMinor
  balance_nonneg : 0 ≤ w.balanceMinor
  row : ∀ t ∈ b.history w, 0 < t.amountMinor ∧ 0 ≤ t.afterBalanceMinor
  recorded : List.Forall₂ Records (b.history w) (b.entriesOf w)

theorem SoundWallet.balance_eq {b : Books} {w : Wallet} (h : SoundWallet b w) :
    w.balanceMinor = ((b.history w).map WalletTransaction.signed).sum := by
  rw [h.chain.total, zero_add]

structure Sound (b : Books) : Prop where
  wallet : ∀ w ∈ b.wallets.rows, SoundWallet b w
  transaction : ∀ t ∈ b.transactions.rows, t.walletId < b.wallets.next
  entry : ∀ e ∈ b.ledger.rows, ∀ id, e.debitAccount = .wallet id ∨ e.creditAccount = .wallet id →
    id < b.wallets.next

theorem Books.wallet_found {b : Books} {tenantId : ℤ} {walletId : ℕ} {w : Wallet}
    (h : b.wallet tenantId walletId = some w) :
    w ∈ b.wallets.rows ∧ w.tenantId = tenantId ∧ w.id = walletId := by
  have hmatch := List.find?_some h
  simp only [ofWallet, Bool.and_eq_true, decide_eq_true_eq] at hmatch
  exact ⟨List.mem_of_find?_eq_some h, hmatch⟩

theorem Books.wallet_of_mem {b : Books} {w : Wallet} (h : w ∈ b.wallets.rows) :
    b.wallet w.tenantId w.id = some w := by
  have hsome : (b.wallet w.tenantId w.id).isSome :=
    List.find?_isSome.mpr ⟨w, h, by simp [ofWallet]⟩
  obtain ⟨found, hfound⟩ := Option.isSome_iff_exists.mp hsome
  obtain ⟨hmem, -, hid⟩ := Books.wallet_found hfound
  rw [hfound, b.wallets.eq_of_key_eq hmem h hid]

theorem ownersWallet_inserted (b : Books) (tenantId ownerId : ℤ) (ownerType currency : String)
    (event : BusinessEvent) :
    ownersWallet ((b.insertWallet tenantId ownerType (some ownerId) currency).recordEvent event)
      tenantId ownerType ownerId =
      some ⟨b.wallets.next, tenantId, ownerType, some ownerId, 0, currency⟩ := by
  simp [ownersWallet, Books.insertWallet, Books.recordEvent, Table.select_insert]

theorem createWallet_eq (defaultCurrency : String) (tenantId ownerId : ℤ) {ownerType : String}
    (hstrip : PyText.strip ownerType = ownerType) (hkind : ownerType ∈ ownerTypes) :
    createWallet defaultCurrency tenantId ownerType (some ownerId) "" =
      .transaction (.statement (.insertWallet tenantId ownerType (some ownerId) defaultCurrency)
        fun b => .statement (.recordEvent ⟨"wallet.created", ownerType, some ownerId,
          some (b.wallets.next - 1), none⟩) fun _ => .ret (b.wallets.next - 1)) .ret := by
  simp only [createWallet, hstrip]
  rw [if_neg (not_not.mpr hkind), if_neg (by simp)]
  rfl

/-- Without a fault a wallet is made unless the index is in the way. -/
theorem perform_createWallet_iff (b : Books) (defaultCurrency : String) (tenantId ownerId : ℤ)
    {ownerType : String} (hstrip : PyText.strip ownerType = ownerType)
    (hkind : ownerType ∈ ownerTypes) :
    let made := perform ({} : Faults).sqlite
      (createWallet defaultCurrency tenantId ownerType (some ownerId) "") b
    (b.ownerTaken tenantId ownerType (some ownerId) defaultCurrency = true ∧
        ∃ e, made = (.error e, b)) ∨
      b.ownerTaken tenantId ownerType (some ownerId) defaultCurrency = false ∧
        ∃ event, made = (.ok b.wallets.next,
          (b.insertWallet tenantId ownerType (some ownerId) defaultCurrency).recordEvent event) := by
  rw [createWallet_eq defaultCurrency tenantId ownerId hstrip hkind, perform_transaction]
  cases htaken : b.ownerTaken tenantId ownerType (some ownerId) defaultCurrency with
  | true =>
    refine .inl ⟨rfl, .database "UNIQUE constraint failed", block_of_eval_error rfl ?_⟩
    simp [eval, Faults.sqlite, Books.apply, htaken]
  | false =>
    refine .inr ⟨rfl, ⟨"wallet.created", ownerType, some ownerId, some b.wallets.next, none⟩,
      block_of_eval rfl ?_ rfl⟩
    simp only [eval, Faults.sqlite, Books.apply, htaken]
    rfl

theorem ownersWallet_moved (b : Books) (tenantId ownerId : ℤ) (ownerType defaultCurrency : String)
    (m : Movement) (found : Wallet) (amountMinor : ℤ) :
    ownersWallet (b.moved defaultCurrency m found amountMinor) tenantId ownerType ownerId =
      (ownersWallet b tenantId ownerType ownerId).map fun w =>
        if ofWallet m.tenantId m.walletId w then
          { w with balanceMinor := found.balanceMinor + m.transactionType.signed amountMinor }
        else w := by
  let after (w : Wallet) : Wallet :=
    { w with balanceMinor := found.balanceMinor + m.transactionType.signed amountMinor }
  have hselect := b.wallets.select_update (ofWallet m.tenantId m.walletId) after (fun _ => rfl)
    (fun w => w.tenantId = tenantId && w.ownerType = ownerType) fun _ => rfl
  have hmoved : ownersWallet (b.moved defaultCurrency m found amountMinor) tenantId ownerType
      ownerId = (((b.wallets.update (ofWallet m.tenantId m.walletId) after fun _ => rfl).select
        fun w => w.tenantId = tenantId && w.ownerType = ownerType).reverse.take 500).find?
          fun w => w.ownerId.getD 0 = ownerId := rfl
  rw [hmoved, hselect, ← List.map_reverse, ← List.map_take, List.find?_map, ownersWallet]
  congr 2
  funext w
  simp only [Function.comp]
  split_ifs <;> rfl

section
variable {b : Books} {defaultCurrency : String} {m : Movement} {wallet w : Wallet}
  {amountMinor : ℤ}

theorem history_moved :
    (b.moved defaultCurrency m wallet amountMinor).history w = b.history w ++
      if ofWallet m.tenantId m.walletId w then
        [{ movementRow m amountMinor wallet.balanceMinor (textOr wallet.currency defaultCurrency)
          with id := b.transactions.next }]
      else [] := by
  have hsame : (decide (m.tenantId = w.tenantId) && decide (m.walletId = w.id)) =
      ofWallet m.tenantId m.walletId w := by
    simp only [ofWallet, eq_comm]
  simp only [Books.history, Books.moved, Books.recordEvent, Books.insertEntry,
    Books.insertTransaction, Books.updateBalance, Table.select_insert, movementRow, hsame]

theorem entriesOf_moved :
    (b.moved defaultCurrency m wallet amountMinor).entriesOf w = b.entriesOf w ++
      if ofWallet m.tenantId m.walletId w then
        [{ movementEntry m wallet (textOr wallet.currency defaultCurrency) b.transactions.next
          with id := b.ledger.next, amountMinor }]
      else [] := by
  have hsame : (decide (m.tenantId = w.tenantId) && (decide ((movementEntry m wallet
      (textOr wallet.currency defaultCurrency) b.transactions.next).debitAccount = .wallet w.id) ||
      decide ((movementEntry m wallet (textOr wallet.currency defaultCurrency)
        b.transactions.next).creditAccount = .wallet w.id))) = ofWallet m.tenantId m.walletId w := by
    cases hkind : m.transactionType <;> simp [movementEntry, hkind, ofWallet, eq_comm]
  simp only [Books.entriesOf, Books.moved, Books.recordEvent, Books.insertEntry,
    Books.insertTransaction, Books.updateBalance, Table.select_insert]
  rw [← hsame]
  rfl

theorem records_moved (txId entryId : ℕ) (currency : String) :
    Records { movementRow m amountMinor wallet.balanceMinor currency with id := txId }
      { movementEntry m wallet currency txId with id := entryId, amountMinor } where
  amount := rfl
  accounts := by cases hkind : m.transactionType <;> simp [movementRow, movementEntry, hkind]
  names h := by
    have habsent : m.metadata.lookup walletTransactionIdKey = none := h
    simp [movementEntry, List.lookup_append, habsent]

theorem soundWallet_moved (hsound : SoundWallet b wallet)
    (hwallet : b.wallet m.tenantId m.walletId = some wallet) (hpos : 0 < amountMinor)
    (hafter : 0 ≤ wallet.balanceMinor + m.transactionType.signed amountMinor) :
    SoundWallet (b.moved defaultCurrency m wallet amountMinor)
      { wallet with balanceMinor := wallet.balanceMinor + m.transactionType.signed amountMinor } := by
  obtain ⟨-, htenant, hid⟩ := Books.wallet_found hwallet
  have hrows : (b.moved defaultCurrency m wallet amountMinor).history
      { wallet with balanceMinor := wallet.balanceMinor + m.transactionType.signed amountMinor } =
      b.history wallet ++ [{ movementRow m amountMinor wallet.balanceMinor
        (textOr wallet.currency defaultCurrency) with id := b.transactions.next }] := by
    rw [history_moved, if_pos (by simp [ofWallet, htenant, hid])]
    rfl
  have hentries : (b.moved defaultCurrency m wallet amountMinor).entriesOf
      { wallet with balanceMinor := wallet.balanceMinor + m.transactionType.signed amountMinor } =
      b.entriesOf wallet ++ [{ movementEntry m wallet (textOr wallet.currency defaultCurrency)
        b.transactions.next with id := b.ledger.next, amountMinor }] := by
    rw [entriesOf_moved, if_pos (by simp [ofWallet, htenant, hid])]
    rfl
  refine ⟨?_, hafter, ?_, ?_⟩
  · rw [hrows]
    exact hsound.chain.snoc rfl rfl
  · intro t ht
    rw [hrows] at ht
    rcases List.mem_append.mp ht with ht | ht
    · exact hsound.row t ht
    · obtain rfl := List.mem_singleton.mp ht
      exact ⟨hpos, hafter⟩
  · rw [hrows, hentries]
    exact List.rel_append hsound.recorded (.cons (records_moved _ _ _) .nil)

theorem soundWallet_other (hsound : SoundWallet b w)
    (hother : ofWallet m.tenantId m.walletId w = false) :
    SoundWallet (b.moved defaultCurrency m wallet amountMinor) w := by
  have hrows : (b.moved defaultCurrency m wallet amountMinor).history w = b.history w := by
    rw [history_moved, hother, if_neg Bool.false_ne_true, List.append_nil]
  have hentries : (b.moved defaultCurrency m wallet amountMinor).entriesOf w = b.entriesOf w := by
    rw [entriesOf_moved, hother, if_neg Bool.false_ne_true, List.append_nil]
  refine ⟨?_, hsound.balance_nonneg, ?_, ?_⟩
  · rw [hrows]
    exact hsound.chain
  · rw [hrows]
    exact hsound.row
  · rw [hrows, hentries]
    exact hsound.recorded

theorem sound_moved (hsound : Sound b) (hwallet : b.wallet m.tenantId m.walletId = some wallet)
    (hpos : 0 < amountMinor)
    (hafter : 0 ≤ wallet.balanceMinor + m.transactionType.signed amountMinor) :
    Sound (b.moved defaultCurrency m wallet amountMinor) := by
  obtain ⟨hmem, htenant, hid⟩ := Books.wallet_found hwallet
  have hfresh : m.walletId < b.wallets.next := hid ▸ b.wallets.below _ hmem
  refine ⟨?_, ?_, ?_⟩
  · intro w' hw'
    obtain ⟨w, hw, rfl⟩ := List.mem_map.mp hw'
    by_cases hsame : ofWallet m.tenantId m.walletId w = true
    · have hkey : w.id = wallet.id := by
        simp only [ofWallet, Bool.and_eq_true, decide_eq_true_eq] at hsame
        rw [hsame.2, hid]
      obtain rfl := b.wallets.eq_of_key_eq hw hmem hkey
      simp only [hsame, if_true]
      exact soundWallet_moved (hsound.wallet w hw) hwallet hpos hafter
    · have hother : ofWallet m.tenantId m.walletId w = false := by simpa using hsame
      simp only [hother, Bool.false_eq_true, if_false]
      exact soundWallet_other (hsound.wallet w hw) hother
  · intro t ht
    rcases List.mem_append.mp ht with ht | ht
    · exact hsound.transaction t ht
    · obtain rfl := List.mem_singleton.mp ht
      exact hfresh
  · intro e he id haccount
    rcases List.mem_append.mp he with he | he
    · exact hsound.entry e he id haccount
    · obtain rfl := List.mem_singleton.mp he
      have hid : id = m.walletId := by
        cases hkind : m.transactionType <;> simp [movementEntry, hkind] at haccount <;> omega
      exact hid ▸ hfresh

end

theorem sound_insertWallet {b : Books} (hsound : Sound b) (tenantId : ℤ) (ownerType : String)
    (ownerId : Option ℤ) (currency : String) :
    Sound (b.insertWallet tenantId ownerType ownerId currency) := by
  have hnext : (b.insertWallet tenantId ownerType ownerId currency).wallets.next =
      b.wallets.next + 1 := rfl
  refine ⟨?_, ?_, ?_⟩
  · intro w hw
    rcases List.mem_append.mp hw with hw | hw
    · obtain ⟨hchain, hnonneg, hrow, hrecorded⟩ := hsound.wallet w hw
      exact ⟨hchain, hnonneg, hrow, hrecorded⟩
    · obtain rfl := List.mem_singleton.mp hw
      have hrows : b.history ⟨b.wallets.next, tenantId, ownerType, ownerId, 0, currency⟩ = [] := by
        refine List.filter_eq_nil_iff.mpr fun t ht => ?_
        have hlt := hsound.transaction t ht
        simp only [Bool.and_eq_true, decide_eq_true_eq, not_and]
        omega
      have hentries : b.entriesOf ⟨b.wallets.next, tenantId, ownerType, ownerId, 0, currency⟩ =
          [] := by
        refine List.filter_eq_nil_iff.mpr fun e he => ?_
        have hlt := hsound.entry e he b.wallets.next
        simp only [Bool.and_eq_true, Bool.or_eq_true, decide_eq_true_eq, not_and]
        exact fun _ haccount => (hlt haccount).false
      refine ⟨?_, le_rfl, ?_, ?_⟩
      · exact hrows ▸ RunningBalance.refl 0
      · exact fun t ht => absurd (hrows ▸ ht) List.not_mem_nil
      · change List.Forall₂ Records (b.history _) (b.entriesOf _)
        rw [hrows, hentries]
        exact .nil
  · intro t ht
    rw [hnext]
    exact (hsound.transaction t ht).trans (Nat.lt_succ_self _)
  · intro e he id haccount
    rw [hnext]
    exact (hsound.entry e he id haccount).trans (Nat.lt_succ_self _)

theorem sound_recordEvent {b : Books} (hsound : Sound b) (event : BusinessEvent) :
    Sound (b.recordEvent event) :=
  ⟨fun w hw => ⟨(hsound.wallet w hw).chain, (hsound.wallet w hw).balance_nonneg,
    (hsound.wallet w hw).row, (hsound.wallet w hw).recorded⟩, hsound.transaction, hsound.entry⟩

theorem sound_walletOf (defaultCurrency : String) (faults : Faults) (tenantId : ℤ)
    (ownerType : String) (ownerId : ℤ) {books : Books} (h : Sound books) :
    Sound (walletOf defaultCurrency faults tenantId ownerType ownerId books).2 ∧
      ∀ found ∈ (walletOf defaultCurrency faults tenantId ownerType ownerId books).1,
        0 ≤ found.balanceMinor := by
  unfold walletOf
  cases hfound : ownersWallet books tenantId ownerType ownerId with
  | some found =>
    refine ⟨h, fun w hw => ?_⟩
    obtain rfl := Option.some.inj hw
    have hmem := List.mem_of_mem_take (List.mem_of_find?_eq_some hfound)
    exact (h.wallet _ (Table.mem_select.mp (List.mem_reverse.mp hmem)).1).balance_nonneg
  | none =>
    rcases perform_createWallet faults defaultCurrency tenantId ownerType (some ownerId) "" books
      with ⟨e, herror⟩ | ⟨event, hmade⟩
    · simp only [herror]
      exact ⟨h, fun w hw => by cases hw⟩
    · simp only [hmade]
      have hsound := sound_recordEvent (sound_insertWallet h tenantId (PyText.strip ownerType)
        (some ownerId) (textOr "" defaultCurrency)) event
      exact ⟨hsound, fun w hw => (hsound.wallet _ (Books.wallet_found hw).1).balance_nonneg⟩

theorem transactions_walletOf (defaultCurrency : String) (faults : Faults) (tenantId : ℤ)
    (ownerType : String) (ownerId : ℤ) (books : Books) :
    (walletOf defaultCurrency faults tenantId ownerType ownerId books).2.transactions =
      books.transactions := by
  unfold walletOf
  cases ownersWallet books tenantId ownerType ownerId with
  | some found => rfl
  | none =>
    rcases perform_createWallet faults defaultCurrency tenantId ownerType (some ownerId) "" books
      with ⟨e, herror⟩ | ⟨event, hmade⟩
    · simp only [herror]
    · simp only [hmade]
      rfl

theorem sound_changeBalance (faults : Faults) (defaultCurrency : String) (m : Movement)
    {books : Books} (h : Sound books) :
    Sound (perform faults.sqlite (changeBalance defaultCurrency m) books).2 := by
  rcases perform_changeBalance faults defaultCurrency m books with
    ⟨e, herror⟩ | ⟨amount, found, hamount, hfound, hafter, hmade⟩
  · rw [herror]
    exact h
  · rw [hmade]
    exact sound_moved h hfound (positiveMinor_pos hamount) hafter

inductive Op
  | createWallet (tenantId : ℤ) (ownerType : String) (ownerId : Option ℤ) (currency : String)
  | changeBalance (m : Movement)

structure Call where
  op : Op
  defaultCurrency : String
  faults : Faults

def Call.perform (c : Call) (b : Books) : Except ServiceError Unit × Books :=
  match c.op with
  | .createWallet tenantId ownerType ownerId currency =>
    let made := Connection.perform c.faults.sqlite
      (BusinessOs.createWallet c.defaultCurrency tenantId ownerType ownerId currency) b
    (made.1.map fun _ => (), made.2)
  | .changeBalance m =>
    let made := Connection.perform c.faults.sqlite
      (BusinessOs.changeBalance c.defaultCurrency m) b
    (made.1.map fun _ => (), made.2)

def step (b : Books) (c : Call) : Books := (c.perform b).2

theorem perform_error {c : Call} {b : Books} {e : ServiceError} (h : (c.perform b).1 = .error e) :
    step b c = b := by
  rcases c with ⟨op, defaultCurrency, faults⟩
  cases op with
  | createWallet tenantId ownerType ownerId currency =>
    rcases perform_createWallet faults defaultCurrency tenantId ownerType ownerId currency b with
      ⟨_, herror⟩ | ⟨_, hmade⟩
    · simp only [step, Call.perform, herror]
    · simp only [Call.perform, hmade, Except.map] at h
      cases h
  | changeBalance m =>
    rcases perform_changeBalance faults defaultCurrency m b with ⟨_, herror⟩ | ⟨_, _, _, _, _, hmade⟩
    · simp only [step, Call.perform, herror]
    · simp only [Call.perform, hmade, Except.map] at h
      cases h

theorem sound_step {b : Books} (c : Call) (hsound : Sound b) : Sound (step b c) := by
  rcases c with ⟨op, defaultCurrency, faults⟩
  cases op with
  | createWallet tenantId ownerType ownerId currency =>
    rcases perform_createWallet faults defaultCurrency tenantId ownerType ownerId currency b with
      ⟨_, herror⟩ | ⟨_, hmade⟩
    · simpa only [step, Call.perform, herror] using hsound
    · simp only [step, Call.perform, hmade]
      exact sound_recordEvent (sound_insertWallet hsound _ _ _ _) _
  | changeBalance m =>
    rcases perform_changeBalance faults defaultCurrency m b with
      ⟨_, herror⟩ | ⟨_, _, hamount, hwallet, hafter, hmade⟩
    · simpa only [step, Call.perform, herror] using hsound
    · simp only [step, Call.perform, hmade]
      exact sound_moved hsound hwallet (positiveMinor_pos hamount) hafter

theorem transactions_step (b : Books) (c : Call) :
    b.transactions.rows ⊆ (step b c).transactions.rows := by
  rcases c with ⟨op, defaultCurrency, faults⟩
  cases op with
  | createWallet tenantId ownerType ownerId currency =>
    rcases perform_createWallet faults defaultCurrency tenantId ownerType ownerId currency b with
      ⟨_, herror⟩ | ⟨_, hmade⟩
    · simp only [step, Call.perform, herror]
      exact List.Subset.refl _
    · simp only [step, Call.perform, hmade]
      exact List.Subset.refl _
  | changeBalance m =>
    rcases perform_changeBalance faults defaultCurrency m b with
      ⟨_, herror⟩ | ⟨_, _, _, _, _, hmade⟩
    · simp only [step, Call.perform, herror]
      exact List.Subset.refl _
    · simp only [step, Call.perform, hmade]
      exact List.subset_append_left _ _

theorem sound_empty : Sound .empty :=
  ⟨fun _ h => absurd h List.not_mem_nil, fun _ h => absurd h List.not_mem_nil,
    fun _ h => absurd h List.not_mem_nil⟩

/-- In every state that calls lead to, every wallet's rows are a chain from 0 to its balance with
one entry each, and a call that is rejected changes nothing. -/
theorem wallet_history_sound (calls : List Call) :
    (∀ w ∈ (Run.run step Books.empty calls).wallets.rows,
      SoundWallet (Run.run step Books.empty calls) w) ∧
    ∀ c e, (c.perform (Run.run step Books.empty calls)).1 = .error e →
      step (Run.run step Books.empty calls) c = Run.run step Books.empty calls := by
  have hsound : Sound (Run.run step Books.empty calls) :=
    Run.run_always (fun _ c h => sound_step c h) sound_empty
  exact ⟨hsound.wallet, fun _ _ => perform_error⟩

end RadiusModule.BusinessOs
