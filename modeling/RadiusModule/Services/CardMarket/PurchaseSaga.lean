import RadiusModule.Services.CardMarket.Purchase

/-!
# One purchase from its beginning to its end

A purchase that runs alone either returns with its one row, or raises with the
wallet and the stock as it found them. What it has done so far is said of each
phase, so each step is checked on its own.
-/

namespace RadiusModule.CardMarket
open Library Connection BusinessOs

section wallet
variable {tenantId : ℤ} {ownerId : ℤ} {b : Books} {w : Wallet}

theorem ownersWallet_found {ownerType : String}
    (h : ownersWallet b tenantId ownerType ownerId = some w) :
    b.wallet tenantId w.id = some w := by
  have hmem := List.mem_of_mem_take (List.mem_of_find?_eq_some h)
  obtain ⟨hrow, hmatch⟩ := Table.mem_select.mp (List.mem_reverse.mp hmem)
  simp only [Bool.and_eq_true, decide_eq_true_eq] at hmatch
  cases hfound : b.wallet tenantId w.id with
  | none =>
    have hnone := List.find?_eq_none.mp hfound w hrow
    simp [ofWallet, hmatch.1] at hnone
  | some w' =>
    obtain ⟨hrow', -, hid⟩ := Books.wallet_found hfound
    rw [b.wallets.eq_of_key_eq hrow' hrow hid]

end wallet

def buyerBalance (tenantId : ℤ) (b : Books) (cardUserId : ℤ) : ℤ :=
  ((ownersWallet b tenantId "card_user" cardUserId).map Wallet.balanceMinor).getD 0

def sales (b : Books) : List LedgerEntry := b.ledger.select fun e => e.entryType = cardSale

theorem sales_moved (b : Books) (defaultCurrency : String) (m : Movement) (found : Wallet)
    (amountMinor : ℤ) : sales (b.moved defaultCurrency m found amountMinor) = sales b := by
  simp only [sales, Books.moved, Books.recordEvent, Books.insertEntry, Table.select_insert]
  rw [if_neg, List.append_nil]
  · rfl
  · cases hkind : m.transactionType <;> simp [movementEntry, hkind, cardSale]

theorem sales_insertEntry (b : Books) (row : LedgerEntry) (event : BusinessEvent)
    (h : row.entryType = cardSale) :
    sales ((b.insertEntry row).recordEvent event) =
      sales b ++ [{ row with id := b.ledger.next }] := by
  simp only [sales, Books.recordEvent, Books.insertEntry, Table.select_insert, h, decide_true,
    if_true]

theorem walletOf_buyer (defaultCurrency : String) (faults : Faults) (tenantId cardUserId : ℤ)
    (b : Books) :
    let opened := walletOf defaultCurrency faults tenantId "card_user" cardUserId b
    sales opened.2 = sales b ∧
      buyerBalance tenantId opened.2 cardUserId = buyerBalance tenantId b cardUserId ∧
      ∀ w ∈ opened.1, ownersWallet opened.2 tenantId "card_user" cardUserId = some w := by
  simp only [walletOf]
  cases hfound : ownersWallet b tenantId "card_user" cardUserId with
  | some w =>
    refine ⟨rfl, rfl, fun w' hw' => ?_⟩
    rw [hfound]
    exact hw'
  | none =>
    rcases perform_createWallet faults defaultCurrency tenantId "card_user" (some cardUserId) "" b
      with ⟨e, herror⟩ | ⟨event, hmade⟩
    · simp only [herror]
      exact ⟨trivial, trivial, fun w hw => by cases hw⟩
    · have hstrip : PyText.strip "card_user" = "card_user" := by decide
      rw [hstrip] at hmade
      simp only [hmade]
      have hnew := ownersWallet_inserted b tenantId cardUserId "card_user"
        (textOr "" defaultCurrency) event
      refine ⟨rfl, ?_, fun w hw => ?_⟩
      · simp only [buyerBalance, hnew, hfound, Option.map_some, Option.map_none, Option.getD]
      · have hthere := ownersWallet_found hnew
        simp only [Books.wallet] at hthere hw
        rw [hnew, ← hthere]
        exact hw

structure Funds (tenantId : ℤ) (before : Market) (o : Order) (paid : ℤ) (books : Books) : Prop where
  wallet : ownersWallet books tenantId "card_user" o.cardUserId =
    some { o.wallet with balanceMinor := o.wallet.balanceMinor - paid }
  balance : buyerBalance tenantId before.books o.cardUserId = o.wallet.balanceMinor
  enough : o.package.priceMinor ≤ o.wallet.balanceMinor

section funds
variable {tenantId : ℤ} {before : Market} {o : Order} {paid : ℤ} {b : Books}

theorem Funds.buyerBalance (h : Funds tenantId before o paid b) :
    buyerBalance tenantId b o.cardUserId =
      CardMarket.buyerBalance tenantId before.books o.cardUserId - paid := by
  rw [h.balance, CardMarket.buyerBalance, h.wallet]
  rfl

theorem Funds.books {b' : Books} (h : Funds tenantId before o paid b)
    (hwallets : b'.wallets = b.wallets) : Funds tenantId before o paid b' :=
  ⟨by rw [← h.wallet, ownersWallet, ownersWallet, hwallets], h.balance, h.enough⟩

theorem Funds.moved (h : Funds tenantId before o paid b) (m : Movement) {found : Wallet}
    (defaultCurrency : String) (amountMinor : ℤ) (htenant : m.tenantId = tenantId)
    (hid : m.walletId = o.wallet.id) (hfound : b.wallet m.tenantId m.walletId = some found) :
    Funds tenantId before o (paid - m.transactionType.signed amountMinor)
      (b.moved defaultCurrency m found amountMinor) := by
  have hthere := ownersWallet_found h.wallet
  have htenant' := (Books.wallet_found hthere).2.1
  rw [htenant, hid] at hfound
  obtain rfl := Option.some.inj (hthere.symm.trans hfound)
  refine ⟨?_, h.balance, h.enough⟩
  rw [ownersWallet_moved, h.wallet, Option.map_some, if_pos]
  · simp only [sub_sub_eq_add_sub, sub_add_eq_add_sub]
  · simp only [ofWallet, htenant, hid, Bool.and_eq_true, decide_eq_true_eq]
    exact ⟨htenant', trivial⟩

theorem Funds.debit (h : Funds tenantId before o 0 b) (faults : Faults)
    (defaultCurrency : String) :
    (∃ e, perform faults.sqlite (changeBalance defaultCurrency (debitOf tenantId o)) b =
      (.error e, b)) ∨
    ∃ ids b', perform faults.sqlite (changeBalance defaultCurrency (debitOf tenantId o)) b =
        (.ok ids, b') ∧ sales b' = sales b ∧ Funds tenantId before o o.package.priceMinor b' ∧
      positiveMinor (minorToMoney o.package.priceMinor) = .ok ↑o.package.priceMinor := by
  rcases perform_changeBalance faults defaultCurrency (debitOf tenantId o) b with
    herror | ⟨amountMinor, found, hamount, hfound, -, hmade⟩
  · exact .inl herror
  · obtain rfl := positiveMinor_minorToMoney hamount
    refine .inr ⟨_, _, hmade, sales_moved _ _ _ _ _, ?_, hamount⟩
    have hmoved := h.moved (debitOf tenantId o) defaultCurrency o.package.priceMinor rfl rfl hfound
    simpa only [debitOf, TransactionType.signed, sub_neg_eq_add, zero_add] using hmoved

theorem Funds.refund (h : Funds tenantId before o o.package.priceMinor b)
    (hpayable : positiveMinor (minorToMoney o.package.priceMinor) = .ok ↑o.package.priceMinor)
    (defaultCurrency : String) :
    ∃ b', (perform ({} : Faults).sqlite (changeBalance defaultCurrency (refundOf tenantId o)) b).2 =
      b' ∧ sales b' = sales b ∧ Funds tenantId before o 0 b' := by
  have hthere := ownersWallet_found h.wallet
  have hafter : 0 ≤ o.wallet.balanceMinor - (o.package.priceMinor : ℤ) +
      TransactionType.credit.signed o.package.priceMinor := by
    have := h.enough
    simp only [TransactionType.signed]
    omega
  have hmade := perform_changeBalance_ok defaultCurrency (refundOf tenantId o) hpayable hthere hafter
  refine ⟨_, congrArg Prod.snd hmade, sales_moved _ _ _ _ _, ?_⟩
  have hmoved := h.moved (refundOf tenantId o) defaultCurrency o.package.priceMinor rfl rfl hthere
  simpa only [refundOf, TransactionType.signed, sub_self] using hmoved

end funds

structure Kept (before : Market) (packages : Packages) (shop : Shop) : Prop where
  packages : packages.rows = before.packages.rows
  cards : shop.cards.rows = before.shop.cards.rows
  batch : ∀ card ∈ before.shop.cards.rows, shop.batch card = before.shop.batch card

/-- A card of the stock stands at `purchaseId`, and is counted as sold. -/
structure Reserved (before : Market) (packageId : ℕ) (card : Card) (purchaseId : Option ℤ)
    (packages : Packages) (shop : Shop) : Prop where
  packages : packages.rows = before.packages.rows.map fun p =>
    if p.id = packageId then { p with inventorySold := p.inventorySold + 1 } else p
  cards : shop.cards.rows = before.shop.cards.rows.map fun r =>
    if r.id = card.id then { r with purchaseId } else r
  free : ∀ r ∈ before.shop.cards.rows, r.id = card.id → r.purchaseId = none
  present : ∃ r ∈ before.shop.cards.rows, r.id = card.id
  batch : ∀ card ∈ before.shop.cards.rows, shop.batch card = before.shop.batch card

structure Minted (before : Market) (card : Card) (purchaseId : Option ℤ) (packages : Packages)
    (shop : Shop) : Prop where
  packages : packages.rows = before.packages.rows
  cards : shop.cards.rows = before.shop.cards.rows ++ [{ card with purchaseId }]
  fresh : ∀ r ∈ before.shop.cards.rows, r.id ≠ card.id
  batch : ∀ card ∈ before.shop.cards.rows, shop.batch card = before.shop.batch card

def Held (before : Market) (o : Order) (card : Card) (purchaseId : Option ℤ) (packages : Packages)
    (shop : Shop) : Prop :=
  match o.package.saleMode with
  | .inventory => Reserved before o.package.id card purchaseId packages shop
  | .instant => Minted before card purchaseId packages shop

section stock
variable {before m : Market} {o : Order} {card : Card} {purchaseId : Option ℤ}

theorem Kept.stock {packages : Packages} {shop : Shop} (h : Kept before packages shop)
    (packageId : ℕ) : shop.stock packageId = before.shop.stock packageId := by
  simp only [Shop.stock, Table.select, h.cards]
  refine List.filter_congr fun r hr => ?_
  simp only [Shop.sellable, h.batch r hr]

theorem batch_insertBatch (s : Shop) (code : BatchCode) {r : Card} (hr : r ∈ s.cards.rows) :
    (s.insertBatch code).batch r = s.batch r := by
  have hlt := s.placed r hr
  simp only [Shop.batch, Shop.insertBatch, Table.get?_insert]
  rw [if_neg (by omega)]

theorem Kept.storeBatch {packages : Packages} {shop : Shop} (h : Kept before packages shop)
    (packageId : ℕ) : Kept before packages (shop.storeBatch packageId).2 := by
  simp only [Shop.storeBatch]
  split
  · exact h
  · exact ⟨h.packages, h.cards, fun r hr =>
      (batch_insertBatch shop _ (h.cards ▸ hr)).trans (h.batch r hr)⟩

theorem Kept.claim (h : Kept before m.packages m.shop) {packageId : ℕ} {m' : Market}
    (hclaim : m.claimInventoryCard packageId = some (card, m')) :
    Reserved before packageId card (some reserved) m'.packages m'.shop := by
  unfold Market.claimInventoryCard at hclaim
  cases hhead : (m.shop.stock packageId).head? with
  | none =>
    rw [hhead] at hclaim
    cases hclaim
  | some q =>
    simp only [hhead, Shop.link] at hclaim
    split_ifs at hclaim
    simp only [Option.some.injEq, Prod.mk.injEq] at hclaim
    obtain ⟨rfl, rfl⟩ := hclaim
    obtain ⟨hq, hsellable⟩ := Table.mem_select.mp (List.mem_of_mem_head? hhead)
    have hfree : q.purchaseId = none := by
      simp only [Shop.sellable, Bool.and_eq_true, Option.isNone_iff_eq_none] at hsellable
      exact hsellable.1.1.1.2
    refine ⟨?_, ?_, fun r hr hid => ?_, ⟨q, h.cards ▸ hq, rfl⟩, h.batch⟩
    · simp only [Market.updatePackage, Table.rows_update, h.packages, decide_eq_true_eq]
    · simp only [Market.updatePackage, Shop.updateCards, Table.rows_update, h.cards,
        decide_eq_true_eq]
    · rw [m.shop.cards.eq_of_key_eq (h.cards.symm ▸ hr) hq hid]
      exact hfree

theorem Kept.mint (h : Kept before m.packages m.shop) {batchId : ℕ} {username : String}
    {shop : Shop} (hadd : m.shop.addCard batchId username = some shop) :
    Minted before { id := m.shop.cards.next, batchId, username } none m.packages shop := by
  unfold Shop.addCard at hadd
  split_ifs at hadd
  cases hadd
  refine ⟨h.packages, ?_, fun r hr => ?_, h.batch⟩
  · simp only [Shop.insertCard, Table.rows_insert, h.cards]
  · exact (m.shop.cards.below r (h.cards.symm ▸ hr)).ne

theorem Held.shop {packages : Packages} {shop shop' : Shop}
    (h : Held before o card purchaseId packages shop) (hcards : shop'.cards = shop.cards)
    (hbatches : shop'.batches = shop.batches) :
    Held before o card purchaseId packages shop' := by
  have hbatch : ∀ r, shop'.batch r = shop.batch r := fun r => by rw [Shop.batch, hbatches]; rfl
  unfold Held at h ⊢
  cases hmode : o.package.saleMode with
  | inventory =>
    simp only [hmode] at h
    exact ⟨h.packages, hcards ▸ h.cards, h.free, h.present, fun r hr =>
      (hbatch r).trans (h.batch r hr)⟩
  | instant =>
    simp only [hmode] at h
    exact ⟨h.packages, hcards ▸ h.cards, h.fresh, fun r hr => (hbatch r).trans (h.batch r hr)⟩

theorem claimInventoryCard_frame {packageId : ℕ} {out : Card × Market}
    (h : m.claimInventoryCard packageId = some out) :
    out.2.books = m.books ∧ out.2.revenues.rows = m.revenues.rows ∧
      out.2.shop.purchases.rows = m.shop.purchases.rows := by
  unfold Market.claimInventoryCard at h
  cases hhead : (m.shop.stock packageId).head? with
  | none =>
    rw [hhead] at h
    cases h
  | some q =>
    simp only [hhead, Shop.link] at h
    split_ifs at h
    cases h
    exact ⟨rfl, rfl, rfl⟩

theorem addCard_purchases {s shop : Shop} {batchId : ℕ} {username : String}
    (h : s.addCard batchId username = some shop) : shop.purchases.rows = s.purchases.rows := by
  unfold Shop.addCard at h
  split_ifs at h
  cases h
  rfl

theorem link_purchases {s shop : Shop} {cardId : ℕ} {purchaseId : ℤ}
    (h : s.link cardId purchaseId = some shop) : shop.purchases.rows = s.purchases.rows := by
  unfold Shop.link at h
  split_ifs at h
  cases h
  rfl

theorem Held.link (h : Held before o card purchaseId m.packages m.shop) {p : ℕ} {shop : Shop}
    (hlink : m.shop.link card.id p = some shop) :
    Held before o card (some ↑p) m.packages shop ∧
      ∀ r ∈ shop.cards.rows, r.purchaseId = some ↑p → r.id = card.id := by
  unfold Shop.link at hlink
  split_ifs at hlink with hany
  cases hlink
  have hcards : (m.shop.updateCards (fun r => decide (r.id = card.id)) (some ↑p)).cards.rows =
      m.shop.cards.rows.map fun r =>
        if r.id = card.id then { r with purchaseId := some ↑p } else r := by
    simp only [Shop.updateCards, Table.rows_update, decide_eq_true_eq]
  refine ⟨?_, fun r hr hp => ?_⟩
  · unfold Held at h ⊢
    cases hmode : o.package.saleMode with
    | inventory =>
      simp only [hmode] at h
      refine ⟨h.packages, ?_, h.free, h.present, h.batch⟩
      rw [hcards, h.cards, List.map_map]
      refine List.map_congr_left fun r _ => ?_
      simp only [Function.comp]
      split_ifs <;> rfl
    | instant =>
      simp only [hmode] at h
      refine ⟨h.packages, ?_, h.fresh, h.batch⟩
      rw [hcards, h.cards, List.map_append, List.map_singleton, if_pos rfl]
      congr 1
      refine (List.map_congr_left fun r hr => ?_).trans (List.map_id _)
      rw [if_neg (h.fresh r hr), id]
  · rw [hcards] at hr
    obtain ⟨q, hq, rfl⟩ := List.mem_map.mp hr
    by_contra hid
    split_ifs at hid hp with hsame
    · exact hid hsame
    · exact hany (List.any_eq_true.mpr ⟨q, hq, by simp [hsame, hp]⟩)

theorem Held.release (hmode : o.package.saleMode = .inventory)
    (h : Held before o card purchaseId m.packages m.shop) :
    Kept before (m.releaseInventoryCard card o.package.id).packages
      (m.releaseInventoryCard card o.package.id).shop := by
  simp only [Held, hmode] at h
  refine ⟨?_, ?_, h.batch⟩
  · simp only [Market.releaseInventoryCard, Market.updatePackage, Table.rows_update, h.packages,
      List.map_map, decide_eq_true_eq]
    refine (List.map_congr_left fun p _ => ?_).trans (List.map_id _)
    simp only [Function.comp]
    split_ifs <;> rfl
  · simp only [Market.releaseInventoryCard, Market.updatePackage, Shop.release, Shop.updateCards,
      Table.rows_update, h.cards, List.map_map, decide_eq_true_eq]
    refine (List.map_congr_left fun r hr => ?_).trans (List.map_id _)
    simp only [Function.comp]
    split_ifs with hid
    · rw [id, ← h.free r hr hid]
    · rfl

theorem Held.discard (hmode : o.package.saleMode = .instant)
    (h : Held before o card purchaseId m.packages m.shop) :
    Kept before (m.discardMintedCard card).packages (m.discardMintedCard card).shop := by
  simp only [Held, hmode] at h
  refine ⟨h.packages, ?_, h.batch⟩
  simp only [Market.discardMintedCard, Shop.deleteCard, Table.delete, h.cards, List.filter_append,
    List.filter_singleton, decide_true, Bool.not_true, cond_false, List.append_nil]
  refine List.filter_eq_self.mpr fun r hr => ?_
  simpa using h.fresh r hr

end stock

structure Unsold (before m : Market) : Prop where
  revenues : m.revenues.rows = before.revenues.rows
  sales : sales m.books = sales before.books

structure Unrecorded (before m : Market) : Prop extends Unsold before m where
  purchases : m.shop.purchases.rows = before.shop.purchases.rows

structure Recorded (before m : Market) (row : Purchase) : Prop where
  rows : m.shop.purchases.rows = before.shop.purchases.rows ++ [row]
  fresh : ∀ r ∈ before.shop.purchases.rows, r.id ≠ row.id

/-- What a completed purchase of a package leaves: the price is paid, there is one row with its one
card, and one entry and one revenue record for it when it has a price. -/
structure Whole (tenantId : ℤ) (before m : Market) (cardUserId : ℤ) (package : Package)
    (purchaseId : ℕ) : Prop where
  balance : buyerBalance tenantId m.books cardUserId =
    buyerBalance tenantId before.books cardUserId - package.priceMinor
  row : ∃ row card, m.shop.purchases.rows = before.shop.purchases.rows ++ [row] ∧
    row.id = purchaseId ∧ row.cardUserId = cardUserId ∧ row.packageId = package.id ∧
    row.amountMinor = package.priceMinor ∧ row.cardId = some card.id ∧
    m.shop.cards.rows.filter (fun r => r.purchaseId = some (purchaseId : ℤ)) = [card]
  priced : 0 < package.priceMinor →
    (∃ e : LedgerEntry, sales m.books = sales before.books ++ [e] ∧ e.referenceType = "card_user_purchase" ∧
      e.referenceId = some (purchaseId : ℤ) ∧ e.amountMinor = (package.priceMinor : ℤ)) ∧
    ∃ v, m.revenues.rows = before.revenues.rows ++ [v] ∧ v.sourceId = purchaseId ∧
      v.amountMinor = package.priceMinor
  free : package.priceMinor = 0 → sales m.books = sales before.books ∧
    m.revenues.rows = before.revenues.rows

structure Traceless (tenantId : ℤ) (before m : Market) (cardUserId : ℤ) : Prop where
  balance : buyerBalance tenantId m.books cardUserId =
    buyerBalance tenantId before.books cardUserId
  kept : Kept before m.packages m.shop

section saga
variable (tenantId : ℤ) (before : Market) (cardUserId : ℤ) (packageId : ℕ) (m : Market)

structure Reads (o : Order) : Prop where
  buyer : o.cardUserId = cardUserId
  package : before.package packageId = some o.package

structure Paid (o : Order) : Prop extends Reads before cardUserId packageId o where
  funds : Funds tenantId before o o.package.priceMinor m.books
  payable : o.free = false →
    positiveMinor (minorToMoney o.package.priceMinor) = .ok (o.package.priceMinor : ℤ)

structure Linked (o : Order) (card : Card) (purchaseId : ℕ) (entryId revenueId : Option ℕ) :
    Prop extends Paid tenantId before cardUserId packageId m o where
  held : Held before o card (some (purchaseId : ℤ)) m.packages m.shop
  only : ∀ r ∈ m.shop.cards.rows, r.purchaseId = some (purchaseId : ℤ) → r.id = card.id
  recorded : ∃ paid, Recorded before m { purchaseRow o paid card purchaseId with
    ledgerEntryId := entryId, revenueRecordId := revenueId }

def Sold (o : Order) (purchaseId entryId : ℕ) : Prop :=
  ∃ e : LedgerEntry, sales m.books = sales before.books ++ [e] ∧ e.id = entryId ∧
    e.referenceType = "card_user_purchase" ∧ e.referenceId = some (purchaseId : ℤ) ∧
    e.amountMinor = (o.package.priceMinor : ℤ)

def Earned (o : Order) (purchaseId entryId revenueId : ℕ) : Prop :=
  m.revenues.rows = before.revenues.rows ++ [revenueRow o purchaseId entryId revenueId]

def Saga : Phase → Prop
  | .reading cardUserId' packageId' => cardUserId' = cardUserId ∧ packageId' = packageId ∧
    m.books = before.books ∧ Kept before m.packages m.shop ∧ Unrecorded before m
  | .opening cardUserId' package => cardUserId' = cardUserId ∧
    before.package packageId = some package ∧ m.books = before.books ∧
    Kept before m.packages m.shop ∧ Unrecorded before m
  | .debiting o => Reads before cardUserId packageId o ∧ Funds tenantId before o 0 m.books ∧
    Kept before m.packages m.shop ∧ Unrecorded before m
  | .claiming o _ => o.package.saleMode = .inventory ∧
    Paid tenantId before cardUserId packageId m o ∧ Kept before m.packages m.shop ∧
    Unrecorded before m
  | .housing o _ => o.package.saleMode = .instant ∧
    Paid tenantId before cardUserId packageId m o ∧ Kept before m.packages m.shop ∧
    Unrecorded before m
  | .minting o _ _ => o.package.saleMode = .instant ∧
    Paid tenantId before cardUserId packageId m o ∧ Kept before m.packages m.shop ∧
    Unrecorded before m
  | .recording o _ card => Paid tenantId before cardUserId packageId m o ∧
    (∃ v, Held before o card v m.packages m.shop) ∧ Unrecorded before m
  | .linking o card purchaseId => Paid tenantId before cardUserId packageId m o ∧
    (∃ v, Held before o card v m.packages m.shop) ∧
    (∃ paid, Recorded before m (purchaseRow o paid card purchaseId)) ∧ Unsold before m
  | .posting o card purchaseId => o.free = false ∧
    Linked tenantId before cardUserId packageId m o card purchaseId none none ∧ Unsold before m
  | .earning o card purchaseId entryId => o.free = false ∧
    Linked tenantId before cardUserId packageId m o card purchaseId none none ∧
    Sold before m o purchaseId entryId ∧ m.revenues.rows = before.revenues.rows
  | .tying o card purchaseId entryId revenueId => o.free = false ∧
    Linked tenantId before cardUserId packageId m o card purchaseId none none ∧
    Sold before m o purchaseId entryId ∧ Earned before m o purchaseId entryId revenueId
  | .announcing o card purchaseId => ∃ entryId revenueId,
    Linked tenantId before cardUserId packageId m o card purchaseId entryId revenueId ∧
    if o.free then Unsold before m
    else ∃ e v, Sold before m o purchaseId e ∧ Earned before m o purchaseId e v
  | .refunding o card written => o.free = false ∧
    Paid tenantId before cardUserId packageId m o ∧
    (match card with
      | none => Kept before m.packages m.shop
      | some card => ∃ v, Held before o card v m.packages m.shop) ∧
    (written = none → Unrecorded before m)
  | .undoing o card written => Reads before cardUserId packageId o ∧
    Funds tenantId before o 0 m.books ∧ (∃ v, Held before o card v m.packages m.shop) ∧
    (written = none → Unrecorded before m)
  | .returned purchaseId => ∃ package, before.package packageId = some package ∧
    Whole tenantId before m cardUserId package purchaseId
  | .raised written => Traceless tenantId before m cardUserId ∧
    (written = none → Unrecorded before m)
  | _ => False

end saga

section steps
variable {tenantId : ℤ} {before m : Market} {cardUserId : ℤ} {packageId : ℕ} {o : Order}
  {t : Turn} {paid : Option ℕ} {card : Card} {purchaseId entryId revenueId : ℕ}

theorem free_iff : o.free = true ↔ o.package.priceMinor = 0 := by
  simp only [Order.free, decide_eq_true_eq]

theorem saga_failed (hpaid : Paid tenantId before cardUserId packageId m o) (card : Option Card)
    (written : Option ℕ)
    (hstock : match card with
      | none => Kept before m.packages m.shop
      | some card => ∃ v, Held before o card v m.packages m.shop)
    (hwritten : written = none → Unrecorded before m) :
    Saga tenantId before cardUserId packageId m (.failed o card written) := by
  unfold Phase.failed
  by_cases hfree : o.free = true
  · have hprice := free_iff.mp hfree
    have hfunds : Funds tenantId before o 0 m.books := by
      simpa only [hprice, Nat.cast_zero] using hpaid.funds
    rw [if_pos hfree]
    cases card with
    | none =>
      refine ⟨⟨?_, hstock⟩, hwritten⟩
      rw [← hpaid.buyer, hfunds.buyerBalance, sub_zero]
    | some card => exact ⟨hpaid.toReads, hfunds, hstock, hwritten⟩
  · rw [if_neg hfree]
    exact ⟨by simpa using hfree, hpaid, hstock, hwritten⟩

theorem saga_reading {cardUserId' : ℤ} {packageId' : ℕ}
    (h : Saga tenantId before cardUserId packageId m (.reading cardUserId' packageId')) :
    Saga tenantId before cardUserId packageId (act tenantId t m (.reading cardUserId' packageId')).1
      (act tenantId t m (.reading cardUserId' packageId')).2 := by
  obtain ⟨rfl, rfl, hbooks, hkept, hrecords⟩ := h
  have hraised : Saga tenantId before cardUserId' packageId' m (.raised none) :=
    ⟨⟨by rw [hbooks], hkept⟩, fun _ => hrecords⟩
  simp only [act]
  cases hpackage : m.package packageId' with
  | none => exact hraised
  | some package =>
    dsimp only
    split_ifs
    · exact hraised
    · refine ⟨rfl, ?_, hbooks, hkept, hrecords⟩
      rw [← hpackage, Market.package, Market.package, Table.get?, Table.get?, hkept.packages]

/-- Of an offer that is not there nothing is sold. -/
example : (act 1 {} .empty (.reading 7 1)).1.shop.purchases.rows.length = 0 := by
  decide +kernel

theorem saga_opening {cardUserId' : ℤ} {package : Package}
    (h : Saga tenantId before cardUserId packageId m (.opening cardUserId' package)) :
    Saga tenantId before cardUserId packageId (act tenantId t m (.opening cardUserId' package)).1
      (act tenantId t m (.opening cardUserId' package)).2 := by
  obtain ⟨rfl, hpackage, hbooks, hkept, hrecords⟩ := h
  obtain ⟨hsales, hbalance, hwallet⟩ := walletOf_buyer t.defaultCurrency t.faults tenantId
    cardUserId' m.books
  rw [hbooks] at hsales hbalance hwallet
  simp only [act, hbooks]
  generalize walletOf t.defaultCurrency t.faults tenantId "card_user" cardUserId' before.books =
    opened at hsales hbalance hwallet ⊢
  rcases opened with ⟨found, books⟩
  have hrecords' : Unrecorded before { m with books } :=
    ⟨⟨hrecords.revenues, hsales⟩, hrecords.purchases⟩
  cases found with
  | none => exact ⟨⟨hbalance, hkept⟩, fun _ => hrecords'⟩
  | some wallet =>
    dsimp only
    split_ifs with hrefused
    · exact ⟨⟨hbalance, hkept⟩, fun _ => hrecords'⟩
    · refine ⟨⟨rfl, hpackage⟩, ⟨?_, ?_, ?_⟩, hkept, hrecords'⟩
      · rw [sub_zero]
        exact hwallet wallet rfl
      · rw [← hbalance, buyerBalance, hwallet wallet rfl]
        rfl
      · exact not_lt.mp fun hlt => hrefused (.inl hlt)

theorem saga_debiting (h : Saga tenantId before cardUserId packageId m (.debiting o)) :
    Saga tenantId before cardUserId packageId (act tenantId t m (.debiting o)).1
      (act tenantId t m (.debiting o)).2 := by
  obtain ⟨hreads, hfunds, hkept, hrecords⟩ := h
  have hobtaining : ∀ m' paid, Paid tenantId before cardUserId packageId m' o →
      Kept before m'.packages m'.shop → Unrecorded before m' →
      Saga tenantId before cardUserId packageId m' (match o.package.saleMode with
        | .inventory => .claiming o paid
        | .instant => .housing o paid) := by
    intro m' paid hpaid hkept hrecords
    cases hmode : o.package.saleMode with
    | inventory => exact ⟨hmode, hpaid, hkept, hrecords⟩
    | instant => exact ⟨hmode, hpaid, hkept, hrecords⟩
  simp only [act]
  split_ifs with hfree
  · refine hobtaining m none ⟨hreads, ?_, fun hpriced => ?_⟩ hkept hrecords
    · simpa only [free_iff.mp hfree, Nat.cast_zero] using hfunds
    · rw [hfree] at hpriced
      cases hpriced
  · rcases hfunds.debit t.faults t.defaultCurrency with
      ⟨e, herror⟩ | ⟨ids, b', hmade, hsales, hfunds', hpayable⟩
    · simp only [herror]
      refine ⟨⟨?_, hkept⟩, fun _ => ⟨⟨hrecords.revenues, hrecords.sales⟩, hrecords.purchases⟩⟩
      rw [← hreads.buyer, hfunds.buyerBalance, sub_zero]
    · simp only [hmade]
      exact hobtaining _ _ ⟨hreads, hfunds', fun _ => hpayable⟩ hkept
        ⟨⟨hrecords.revenues, hsales.trans hrecords.sales⟩, hrecords.purchases⟩

theorem saga_claiming (h : Saga tenantId before cardUserId packageId m (.claiming o paid)) :
    Saga tenantId before cardUserId packageId (act tenantId t m (.claiming o paid)).1
      (act tenantId t m (.claiming o paid)).2 := by
  obtain ⟨hmode, hpaid, hkept, hrecords⟩ := h
  have hfailed := saga_failed hpaid none none hkept fun _ => hrecords
  simp only [act]
  split_ifs
  · exact hfailed
  · cases hclaim : m.claimInventoryCard o.package.id with
    | none => exact hfailed
    | some out =>
      obtain ⟨hbooks, hrevenues, hpurchases⟩ := claimInventoryCard_frame hclaim
      refine ⟨⟨hpaid.toReads, hbooks ▸ hpaid.funds, hpaid.payable⟩, ⟨some reserved, ?_⟩, ?_⟩
      · simp only [Held, hmode]
        exact hkept.claim hclaim
      · exact ⟨⟨hrevenues.trans hrecords.revenues, hbooks ▸ hrecords.sales⟩,
          hpurchases.trans hrecords.purchases⟩

theorem saga_housing (h : Saga tenantId before cardUserId packageId m (.housing o paid)) :
    Saga tenantId before cardUserId packageId (act tenantId t m (.housing o paid)).1
      (act tenantId t m (.housing o paid)).2 := by
  obtain ⟨hmode, hpaid, hkept, hrecords⟩ := h
  simp only [act]
  split_ifs
  · exact saga_failed hpaid none none hkept fun _ => hrecords
  · refine ⟨hmode, ⟨hpaid.toReads, hpaid.funds, hpaid.payable⟩, hkept.storeBatch _,
      ⟨⟨hrecords.revenues, hrecords.sales⟩, ?_⟩⟩
    simp only [Shop.storeBatch]
    split
    · exact hrecords.purchases
    · exact hrecords.purchases

theorem saga_minting {batchId : ℕ}
    (h : Saga tenantId before cardUserId packageId m (.minting o paid batchId)) :
    Saga tenantId before cardUserId packageId (act tenantId t m (.minting o paid batchId)).1
      (act tenantId t m (.minting o paid batchId)).2 := by
  obtain ⟨hmode, hpaid, hkept, hrecords⟩ := h
  have hfailed := saga_failed hpaid none none hkept fun _ => hrecords
  simp only [act]
  split_ifs
  · exact hfailed
  · cases hadd : m.shop.addCard batchId t.username with
    | none => exact hfailed
    | some shop =>
      refine ⟨⟨hpaid.toReads, hpaid.funds, hpaid.payable⟩, ⟨none, ?_⟩,
        ⟨⟨hrecords.revenues, hrecords.sales⟩, ?_⟩⟩
      · simp only [Held, hmode]
        exact hkept.mint hadd
      · exact (addCard_purchases hadd).trans hrecords.purchases

theorem saga_recording (h : Saga tenantId before cardUserId packageId m (.recording o paid card)) :
    Saga tenantId before cardUserId packageId (act tenantId t m (.recording o paid card)).1
      (act tenantId t m (.recording o paid card)).2 := by
  obtain ⟨hpaid, ⟨v, hheld⟩, hrecords⟩ := h
  have hfailed := saga_failed hpaid (some card) none ⟨v, hheld⟩
    fun _ => hrecords
  simp only [act, Market.createPurchase]
  split_ifs
  · exact hfailed
  · refine ⟨⟨hpaid.toReads, hpaid.funds, hpaid.payable⟩, ⟨v, hheld.shop rfl rfl⟩,
      ⟨paid, ?_, fun r hr => ?_⟩, ⟨hrecords.revenues, hrecords.sales⟩⟩
    · exact congrArg (· ++ [purchaseRow o paid card m.shop.purchases.next]) hrecords.purchases
    · exact (m.shop.purchases.below r (hrecords.purchases.symm ▸ hr)).ne
  · exact hfailed

theorem saga_linking (h : Saga tenantId before cardUserId packageId m (.linking o card purchaseId)) :
    Saga tenantId before cardUserId packageId (act tenantId t m (.linking o card purchaseId)).1
      (act tenantId t m (.linking o card purchaseId)).2 := by
  obtain ⟨hpaid, ⟨v, hheld⟩, ⟨paid, hrecorded⟩, hunsold⟩ := h
  have hfailed := saga_failed hpaid (some card) (some purchaseId) ⟨v, hheld⟩
    fun hnone => by cases hnone
  simp only [act]
  split_ifs with hraises hfree
  · exact hfailed
  · cases hlink : m.shop.link card.id purchaseId with
    | none => exact hfailed
    | some shop =>
      obtain ⟨hheld', honly⟩ := hheld.link hlink
      have hrows := (link_purchases hlink).trans hrecorded.rows
      refine ⟨none, none, ⟨⟨hpaid.toReads, hpaid.funds, hpaid.payable⟩, hheld', honly,
        paid, hrows, hrecorded.fresh⟩, ?_⟩
      rw [if_pos hfree]
      exact ⟨hunsold.revenues, hunsold.sales⟩
  · cases hlink : m.shop.link card.id purchaseId with
    | none => exact hfailed
    | some shop =>
      obtain ⟨hheld', honly⟩ := hheld.link hlink
      have hrows := (link_purchases hlink).trans hrecorded.rows
      exact ⟨by simpa using hfree, ⟨⟨hpaid.toReads, hpaid.funds, hpaid.payable⟩, hheld', honly,
        paid, hrows, hrecorded.fresh⟩, hunsold.revenues, hunsold.sales⟩

theorem Linked.failed {e v : Option ℕ}
    (h : Linked tenantId before cardUserId packageId m o card purchaseId e v) :
    Saga tenantId before cardUserId packageId m (.failed o (some card) (some purchaseId)) :=
  saga_failed h.toPaid _ _ ⟨_, h.held⟩ fun hnone => by cases hnone

theorem saga_posting (h : Saga tenantId before cardUserId packageId m (.posting o card purchaseId)) :
    Saga tenantId before cardUserId packageId (act tenantId t m (.posting o card purchaseId)).1
      (act tenantId t m (.posting o card purchaseId)).2 := by
  obtain ⟨hfree, hlinked, hunsold⟩ := h
  simp only [act]
  rcases perform_ledgerWriteEntry t.faults (minorToMoney o.package.priceMinor)
    (saleEntry tenantId t.defaultCurrency o card purchaseId) m.books with
    ⟨e, herror⟩ | ⟨amountMinor, event, hamount, hmade⟩
  · simp only [herror]
    exact hlinked.failed
  · obtain rfl := positiveMinor_minorToMoney hamount
    simp only [hmade]
    obtain ⟨paid, hrecorded⟩ := hlinked.recorded
    have hsales := sales_insertEntry m.books { saleEntry tenantId t.defaultCurrency o card
      purchaseId with amountMinor := (o.package.priceMinor : ℤ) } event rfl
    rw [hunsold.sales] at hsales
    exact ⟨hfree, ⟨⟨hlinked.toReads, hlinked.funds.books rfl, hlinked.payable⟩, hlinked.held,
      hlinked.only, paid, hrecorded.rows, hrecorded.fresh⟩, ⟨_, hsales, rfl, rfl, rfl, rfl⟩,
      hunsold.revenues⟩

theorem saga_earning
    (h : Saga tenantId before cardUserId packageId m (.earning o card purchaseId entryId)) :
    Saga tenantId before cardUserId packageId
      (act tenantId t m (.earning o card purchaseId entryId)).1
      (act tenantId t m (.earning o card purchaseId entryId)).2 := by
  obtain ⟨hfree, hlinked, hsold, hrevenues⟩ := h
  simp only [act]
  split_ifs
  · exact hlinked.failed
  · obtain ⟨paid, hrecorded⟩ := hlinked.recorded
    refine ⟨hfree, ⟨⟨hlinked.toReads, hlinked.funds, hlinked.payable⟩, hlinked.held,
      hlinked.only, paid, hrecorded.rows, hrecorded.fresh⟩, hsold, ?_⟩
    exact congrArg (· ++ [revenueRow o purchaseId entryId m.revenues.next]) hrevenues

theorem saga_tying
    (h : Saga tenantId before cardUserId packageId m
      (.tying o card purchaseId entryId revenueId)) :
    Saga tenantId before cardUserId packageId
      (act tenantId t m (.tying o card purchaseId entryId revenueId)).1
      (act tenantId t m (.tying o card purchaseId entryId revenueId)).2 := by
  obtain ⟨hfree, hlinked, hsold, hearned⟩ := h
  simp only [act]
  split_ifs
  · exact hlinked.failed
  · obtain ⟨paid, hrecorded⟩ := hlinked.recorded
    refine ⟨some entryId, some revenueId, ⟨⟨hlinked.toReads, hlinked.funds, hlinked.payable⟩,
      hlinked.held.shop rfl rfl, hlinked.only, paid, ?_, hrecorded.fresh⟩, ?_⟩
    · have hfresh : (before.shop.purchases.rows.map fun r => if r.id = purchaseId then
          { r with ledgerEntryId := some entryId, revenueRecordId := some revenueId } else r) =
          before.shop.purchases.rows := by
        refine (List.map_congr_left fun r hr => ?_).trans (List.map_id _)
        have hother : r.id ≠ purchaseId := hrecorded.fresh r hr
        rw [if_neg hother, id]
      simp only [Shop.tie, Table.rows_update, decide_eq_true_eq, hrecorded.rows, List.map_append,
        hfresh, List.map_singleton, purchaseRow, if_true]
    · rw [hfree, if_neg Bool.false_ne_true]
      exact ⟨entryId, revenueId, hsold, hearned⟩

theorem Linked.oneCard {e v : Option ℕ}
    (h : Linked tenantId before cardUserId packageId m o card purchaseId e v) :
    ∃ linked, m.shop.cards.rows.filter (fun r => r.purchaseId = some (purchaseId : ℤ)) = [linked] ∧
      linked.id = card.id := by
  have hthere : ∃ linked ∈ m.shop.cards.rows, linked.id = card.id ∧
      linked.purchaseId = some (purchaseId : ℤ) := by
    have hheld := h.held
    unfold Held at hheld
    cases hmode : o.package.saleMode with
    | inventory =>
      simp only [hmode] at hheld
      obtain ⟨r, hr, hid⟩ := hheld.present
      refine ⟨{ r with purchaseId := some (purchaseId : ℤ) }, ?_, hid, rfl⟩
      rw [hheld.cards]
      exact List.mem_map.mpr ⟨r, hr, if_pos hid⟩
    | instant =>
      simp only [hmode] at hheld
      refine ⟨{ card with purchaseId := some (purchaseId : ℤ) }, ?_, rfl, rfl⟩
      rw [hheld.cards]
      exact List.mem_append_right _ (List.mem_singleton.mpr rfl)
  obtain ⟨linked, hlinked, hid, hpurchase⟩ := hthere
  refine ⟨linked, ?_, hid⟩
  have hsame : m.shop.cards.rows.filter (fun r => r.purchaseId = some (purchaseId : ℤ)) =
      m.shop.cards.rows.filter fun r => r.id = linked.id := by
    refine List.filter_congr fun r hr => decide_eq_decide.mpr ⟨fun hp => ?_, fun hsame => ?_⟩
    · rw [h.only r hr hp, hid]
    · rw [m.shop.cards.eq_of_key_eq hr hlinked hsame, hpurchase]
  rw [hsame]
  exact m.shop.cards.filter_key_eq hlinked

theorem saga_announcing
    (h : Saga tenantId before cardUserId packageId m (.announcing o card purchaseId)) :
    Saga tenantId before cardUserId packageId (act tenantId t m (.announcing o card purchaseId)).1
      (act tenantId t m (.announcing o card purchaseId)).2 := by
  obtain ⟨e, v, hlinked, hmoney⟩ := h
  simp only [act]
  split_ifs
  · exact hlinked.failed
  · obtain ⟨linked, hcard, hid⟩ := hlinked.oneCard
    obtain ⟨paid, hrecorded⟩ := hlinked.recorded
    refine ⟨o.package, hlinked.package, ?_, ⟨_, linked, hrecorded.rows, rfl, hlinked.buyer, rfl,
      rfl, ?_, hcard⟩, fun hpriced => ?_, fun hprice => ?_⟩
    · rw [← hlinked.buyer]
      exact (hlinked.funds.books rfl).buyerBalance
    · simp only [purchaseRow, hid]
    · have hfree : ¬o.free = true := fun hfree => hpriced.ne' (free_iff.mp hfree)
      rw [if_neg hfree] at hmoney
      obtain ⟨entryId, revenueId, ⟨entry, hsales, -, htype, href, hamount⟩, hearned⟩ := hmoney
      exact ⟨⟨entry, hsales, htype, href, hamount⟩, _, hearned, rfl, rfl⟩
    · rw [if_pos (free_iff.mpr hprice)] at hmoney
      exact ⟨hmoney.sales, hmoney.revenues⟩

theorem saga_refunding {written : Option ℕ} {held : Option Card}
    (h : Saga tenantId before cardUserId packageId m (.refunding o held written))
    (hquiet : t.faults = {}) :
    Saga tenantId before cardUserId packageId (act tenantId t m (.refunding o held written)).1
      (act tenantId t m (.refunding o held written)).2 := by
  obtain ⟨hfree, hpaid, hstock, hwritten⟩ := h
  obtain ⟨b', hmade, hsales, hfunds⟩ := hpaid.funds.refund (hpaid.payable hfree)
    t.defaultCurrency
  have hwritten' : written = none → Unrecorded before { m with books := b' } := fun hnone =>
    ⟨⟨(hwritten hnone).revenues, hsales.trans (hwritten hnone).sales⟩, (hwritten hnone).purchases⟩
  simp only [act, hquiet, hmade]
  cases held with
  | none =>
    refine ⟨⟨?_, hstock⟩, hwritten'⟩
    rw [← hpaid.buyer, hfunds.buyerBalance, sub_zero]
  | some card => exact ⟨hpaid.toReads, hfunds, hstock, hwritten'⟩

theorem saga_undoing {written : Option ℕ}
    (h : Saga tenantId before cardUserId packageId m (.undoing o card written))
    (hquiet : t.raises = false) :
    Saga tenantId before cardUserId packageId (act tenantId t m (.undoing o card written)).1
      (act tenantId t m (.undoing o card written)).2 := by
  obtain ⟨hreads, hfunds, ⟨v, hheld⟩, hwritten⟩ := h
  have hbalance : buyerBalance tenantId m.books cardUserId =
      buyerBalance tenantId before.books cardUserId := by
    rw [← hreads.buyer, hfunds.buyerBalance, sub_zero]
  simp only [act, hquiet, Bool.false_eq_true, if_false]
  cases hmode : o.package.saleMode with
  | inventory =>
    exact ⟨⟨hbalance, hheld.release hmode⟩, fun hnone => ⟨⟨(hwritten hnone).revenues,
      (hwritten hnone).sales⟩, (hwritten hnone).purchases⟩⟩
  | instant =>
    refine ⟨⟨hbalance, hheld.discard hmode⟩, fun hnone => ⟨⟨(hwritten hnone).revenues,
      (hwritten hnone).sales⟩, ?_⟩⟩
    simp only [Held, hmode] at hheld
    have hrows := (hwritten hnone).purchases
    simp only [Market.discardMintedCard, Shop.deleteCard, Table.rows_update, decide_eq_true_eq,
      hrows]
    -- the foreign key: an older purchase is of an older card
    refine (List.map_congr_left fun r hr => ?_).trans (List.map_id _)
    rw [if_neg, id]
    intro hcard
    obtain ⟨old, hold, hid⟩ := before.shop.bought r hr card.id hcard
    exact hheld.fresh old hold hid

end steps

def Undisturbed (s : Market × Phase) (t : Turn) : Prop :=
  match s.2 with
  | .refunding _ _ _ => t.faults = {}
  | .undoing _ _ _ => t.raises = false
  | _ => True

def alone (tenantId : ℤ) (s : Market × Phase) (t : Turn) : Market × Phase :=
  act tenantId t s.1 s.2

theorem saga_alone {tenantId : ℤ} {before : Market} {cardUserId : ℤ} {packageId : ℕ}
    (s : Market × Phase) (t : Turn) (h : Saga tenantId before cardUserId packageId s.1 s.2)
    (hquiet : Undisturbed s t) :
    Saga tenantId before cardUserId packageId (alone tenantId s t).1 (alone tenantId s t).2 := by
  rcases s with ⟨m, p⟩
  cases p with
  | reading cardUserId' packageId' => exact saga_reading h
  | opening cardUserId' package => exact saga_opening h
  | debiting o => exact saga_debiting h
  | claiming o paid => exact saga_claiming h
  | housing o paid => exact saga_housing h
  | minting o paid batchId => exact saga_minting h
  | recording o paid card => exact saga_recording h
  | linking o card purchaseId => exact saga_linking h
  | posting o card purchaseId => exact saga_posting h
  | earning o card purchaseId entryId => exact saga_earning h
  | tying o card purchaseId entryId revenueId => exact saga_tying h
  | announcing o card purchaseId => exact saga_announcing h
  | refunding o card written => exact saga_refunding h hquiet
  | undoing o card written => exact saga_undoing h hquiet
  | returned purchaseId => exact h
  | raised written => exact h
  | stocking packageId' stamp upload usernames => exact h.elim
  | filling packageId' batchId usernames added => exact h.elim
  | totalling packageId' added => exact h.elim
  | stocked => exact h.elim

def Phase.left : Phase → ℕ
  | .reading _ _ => 13
  | .opening _ _ => 12
  | .debiting _ => 11
  | .claiming _ _ => 10
  | .housing _ _ => 10
  | .minting _ _ _ => 9
  | .recording _ _ _ => 8
  | .linking _ _ _ => 7
  | .posting _ _ _ => 6
  | .earning _ _ _ _ => 5
  | .tying _ _ _ _ _ => 4
  | .announcing _ _ _ => 3
  | .refunding _ _ _ => 2
  | .undoing _ _ _ => 1
  | _ => 0

theorem left_failed (o : Order) (card : Option Card) (written : Option ℕ) :
    (Phase.failed o card written).left ≤ 2 := by
  unfold Phase.failed
  cases card <;> split_ifs <;> simp [Phase.left]

theorem left_alone (tenantId : ℤ) (s : Market × Phase) (t : Turn) :
    (alone tenantId s t).2.left ≤ s.2.left - 1 := by
  rcases s with ⟨m, p⟩
  have hfailed : ∀ o card written n, 2 ≤ n → (Phase.failed o card written).left ≤ n :=
    fun o card written n hn => (left_failed o card written).trans hn
  cases p with
  | reading cardUserId packageId =>
    simp only [alone, act]
    split
    · simp [Phase.left]
    · split_ifs <;> simp [Phase.left]
  | opening cardUserId package =>
    simp only [alone, act]
    split
    · simp [Phase.left]
    · split_ifs <;> simp [Phase.left]
  | debiting o =>
    simp only [alone, act]
    split_ifs
    · cases o.package.saleMode <;> simp [Phase.left]
    · split
      · simp [Phase.left]
      · cases o.package.saleMode <;> simp [Phase.left]
  | claiming o paid =>
    simp only [alone, act]
    split_ifs
    · exact hfailed _ _ _ _ (by simp [Phase.left])
    · split
      · exact hfailed _ _ _ _ (by simp [Phase.left])
      · simp [Phase.left]
  | housing o paid =>
    simp only [alone, act]
    split_ifs
    · exact hfailed _ _ _ _ (by simp [Phase.left])
    · simp [Phase.left]
  | minting o paid batchId =>
    simp only [alone, act]
    split_ifs
    · exact hfailed _ _ _ _ (by simp [Phase.left])
    · split
      · exact hfailed _ _ _ _ (by simp [Phase.left])
      · simp [Phase.left]
  | recording o paid card =>
    simp only [alone, act]
    split_ifs
    · exact hfailed _ _ _ _ (by simp [Phase.left])
    · split
      · exact hfailed _ _ _ _ (by simp [Phase.left])
      · simp [Phase.left]
  | linking o card purchaseId =>
    simp only [alone, act]
    split_ifs
    · exact hfailed _ _ _ _ (by simp [Phase.left])
    · split
      · exact hfailed _ _ _ _ (by simp [Phase.left])
      · simp [Phase.left]
    · split
      · exact hfailed _ _ _ _ (by simp [Phase.left])
      · simp [Phase.left]
  | posting o card purchaseId =>
    simp only [alone, act]
    split
    · exact hfailed _ _ _ _ (by simp [Phase.left])
    · simp [Phase.left]
  | earning o card purchaseId entryId =>
    simp only [alone, act]
    split_ifs
    · exact hfailed _ _ _ _ (by simp [Phase.left])
    · simp [Phase.left]
  | tying o card purchaseId entryId revenueId =>
    simp only [alone, act]
    split_ifs
    · exact hfailed _ _ _ _ (by simp [Phase.left])
    · simp [Phase.left]
  | announcing o card purchaseId =>
    simp only [alone, act]
    split_ifs
    · exact hfailed _ _ _ _ (by simp [Phase.left])
    · simp [Phase.left]
  | refunding o card written => cases card <;> simp [alone, act, Phase.left]
  | undoing o card written =>
    simp only [alone, act]
    split_ifs
    · simp [Phase.left]
    · cases o.package.saleMode <;> simp [Phase.left]
  | returned purchaseId => simp [alone, act, Phase.left]
  | raised written => simp [alone, act, Phase.left]
  | stocking packageId stamp upload usernames =>
    simp only [alone, act]
    split_ifs <;> simp [Phase.left]
  | filling packageId batchId usernames added =>
    simp only [alone, act]
    split
    · simp [Phase.left]
    · split
      · simp [Phase.left]
      · split_ifs <;> simp [Phase.left]
  | totalling packageId added =>
    simp only [alone, act]
    split_ifs <;> simp [Phase.left]
  | stocked => simp [alone, act, Phase.left]

theorem left_run (tenantId : ℤ) (s : Market × Phase) (turns : List Turn) :
    (Run.run (alone tenantId) s turns).2.left ≤ s.2.left - turns.length := by
  induction turns generalizing s with
  | nil => exact le_of_eq (Nat.sub_zero _).symm
  | cons t turns ih =>
    have hstep := left_alone tenantId s t
    have hrest := ih (alone tenantId s t)
    simp only [Run.run, List.foldl_cons, List.length_cons] at hrest ⊢
    omega

/-- `purchase_package`, as far as it gets in these turns. -/
def purchasePackage (tenantId : ℤ) (m : Market) (cardUserId : ℤ) (packageId : ℕ)
    (turns : List Turn) : Market × Phase :=
  Run.run (alone tenantId) (m, .reading cardUserId packageId) turns

theorem saga_run (tenantId : ℤ) (m : Market) (cardUserId : ℤ) (packageId : ℕ)
    {turns : List Turn}
    (hquiet : Run.Along Undisturbed (alone tenantId) (m, .reading cardUserId packageId) turns) :
    Saga tenantId m cardUserId packageId (purchasePackage tenantId m cardUserId packageId turns).1
      (purchasePackage tenantId m cardUserId packageId turns).2 := by
  have hbegin : Saga tenantId m cardUserId packageId m (.reading cardUserId packageId) :=
    ⟨rfl, rfl, rfl, ⟨rfl, rfl, fun _ _ => rfl⟩, ⟨rfl, rfl⟩, rfl⟩
  exact Run.run_invariant (I := fun s => Saga tenantId m cardUserId packageId s.1 s.2)
    (fun s t h hq => saga_alone s t h hq) hbegin hquiet

/-- Whatever write of a purchase raises, the call ends. When it has raised, the buyer's balance, the
packages with their counts and the cards are what they were, and before its purchase row there is
no row of it at all. When it has returned, it has left exactly what it should. -/
theorem purchase_traceless_or_whole (tenantId : ℤ) (m : Market) (cardUserId : ℤ) (packageId : ℕ)
    (turns : List Turn)
    (hquiet : Run.Along Undisturbed (alone tenantId) (m, .reading cardUserId packageId) turns) :
    let out := purchasePackage tenantId m cardUserId packageId turns
    (13 ≤ turns.length → (∃ written, out.2 = .raised written) ∨ ∃ p, out.2 = .returned p) ∧
    (∀ written, out.2 = .raised written →
      buyerBalance tenantId out.1.books cardUserId = buyerBalance tenantId m.books cardUserId ∧
      out.1.packages.rows = m.packages.rows ∧
      out.1.shop.cards.rows = m.shop.cards.rows ∧
      (∀ packageId', out.1.shop.stock packageId' = m.shop.stock packageId') ∧
      (written = none → out.1.shop.purchases.rows = m.shop.purchases.rows ∧
        sales out.1.books = sales m.books ∧ out.1.revenues.rows = m.revenues.rows)) ∧
    ∀ p, out.2 = .returned p → ∃ package, m.package packageId = some package ∧
      Whole tenantId m out.1 cardUserId package p := by
  have hsaga := saga_run tenantId m cardUserId packageId hquiet
  have hleft := left_run tenantId (m, .reading cardUserId packageId) turns
  simp only [purchasePackage] at hsaga ⊢
  generalize Run.run (alone tenantId) (m, .reading cardUserId packageId) turns = out at *
  rcases out with ⟨m', p⟩
  refine ⟨fun hlong => ?_, fun written hraised => ?_, fun purchaseId hreturned => ?_⟩
  · have hzero : p.left = 0 := by
      have hle : p.left ≤ 13 - turns.length := hleft
      omega
    cases p <;> simp [Phase.left] at hzero <;> simp_all [Saga]
  · dsimp only at hraised hsaga
    subst hraised
    obtain ⟨⟨hbalance, hkept⟩, hunrecorded⟩ := hsaga
    exact ⟨hbalance, hkept.packages, hkept.cards, hkept.stock, fun hnone =>
      ⟨(hunrecorded hnone).purchases, (hunrecorded hnone).sales, (hunrecorded hnone).revenues⟩⟩
  · dsimp only at hreturned hsaga
    subst hreturned
    exact hsaga

theorem quiet_along (tenantId : ℤ) (s : Market × Phase) (username : String) (n : ℕ) :
    Run.Along Undisturbed (alone tenantId) s (List.replicate n { username }) := by
  have hquiet : ∀ s, Undisturbed s { username } := by
    rintro ⟨m, p⟩
    cases p <;> first | exact rfl | exact trivial
  have hsame : Run.Along (fun _ t => t = { username }) (alone tenantId) s
      (List.replicate n { username }) := Run.along_of_forall fun t ht => List.eq_of_mem_replicate ht
  exact hsame.mono fun s t ht => ht ▸ hquiet s

def Phase.returnedId : Phase → Option ℕ
  | .returned purchaseId => some purchaseId
  | _ => none

theorem returned_of_returnedId {p : Phase} {purchaseId : ℕ}
    (h : p.returnedId = some purchaseId) : p = .returned purchaseId := by
  cases p <;> simp_all [Phase.returnedId]

/-- An offer at `priceMinor`, and a buyer with 10 in his wallet. -/
def oneOffer (priceMinor : ℕ) : Market :=
  let recharge : Movement :=
    { walletId := 1
      amount := some (.finite false 10 0)
      transactionType := .credit }
  (Run.run (step 1) World.initial [.createPackage priceMinor "ILS" true .instant,
    .wallet ⟨.createWallet 1 "card_user" (some 7) "", "ILS", {}⟩,
    .wallet ⟨.changeBalance recharge, "ILS", {}⟩]).market

theorem purchase_of_five :
    let out := purchasePackage 1 (oneOffer 500) 7 1 (List.replicate 13 { username := "481516" })
    out.2 = .returned 1 ∧ buyerBalance 1 out.1.books 7 = 500 := by
  have hwhole := (purchase_traceless_or_whole 1 (oneOffer 500) 7 1 _
    (quiet_along 1 _ "481516" 13)).2.2 1
  have hreturned : (purchasePackage 1 (oneOffer 500) 7 1
      (List.replicate 13 { username := "481516" })).2 = .returned 1 :=
    returned_of_returnedId (by decide +kernel)
  obtain ⟨package, hpackage, hout⟩ := hwhole hreturned
  have hprice : ((oneOffer 500).package 1).map Package.priceMinor = some 500 := by decide
  rw [hpackage, Option.map_some] at hprice
  have hbefore : buyerBalance 1 (oneOffer 500).books 7 = 1000 := by decide +kernel
  refine ⟨hreturned, ?_⟩
  rw [hout.balance, hbefore, Option.some.inj hprice]
  rfl

/-- A free package is sold without an entry in the ledger. -/
theorem free_purchase_without_entry :
    ¬∀ m cardUserId packageId turns p,
      Run.Along Undisturbed (alone 1) (m, .reading cardUserId packageId) turns →
      (purchasePackage 1 m cardUserId packageId turns).2 = .returned p →
        ∃ e, sales (purchasePackage 1 m cardUserId packageId turns).1.books =
          sales m.books ++ [e] := by
  intro h
  obtain ⟨e, he⟩ := h (oneOffer 0) 7 1 _ 1 (quiet_along 1 _ "481516" 13)
    (returned_of_returnedId (by decide +kernel))
  have hlength := congrArg List.length he
  rw [List.length_append, List.length_singleton] at hlength
  revert hlength
  decide +kernel

end RadiusModule.CardMarket
