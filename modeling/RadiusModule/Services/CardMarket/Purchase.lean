import RadiusModule.Services.BusinessOs.WalletHistory
import Mathlib.Logic.Function.Basic

/-!
# Purchases in the card market

`purchase_package` debits the buyer, gets a card from the stock of the offer or
mints one, and writes its records, each in a commit of its own. When a write
raises it refunds the buyer and undoes the card. The rows are those of one
tenant; the wallets are everybody's.
-/

namespace RadiusModule.CardMarket
open Library Connection BusinessOs

inductive SaleMode
  | instant
  | inventory
deriving DecidableEq

structure Package where
  id : ℕ
  priceMinor : ℕ
  currency : String
  active : Bool := true
  saleMode : SaleMode := .instant
  inventoryTotal : ℕ := 0
  inventorySold : ℕ := 0
deriving DecidableEq

/-- The texts `MP-OFFER-<id>` and `INV-<id>-<stamp>`, and those of the batches made elsewhere. -/
inductive BatchCode
  | offer (packageId : ℕ)
  | stock (packageId : ℕ) (stamp : String)
  | other (text : String)
deriving DecidableEq

def BatchCode.packageId : BatchCode → Option ℕ
  | offer packageId => some packageId
  | stock packageId _ => some packageId
  | other _ => none

structure Batch where
  id : ℕ
  code : BatchCode
  packageId : Option ℕ
  linked : packageId = code.packageId

def Batch.isStock (b : Batch) : Bool :=
  match b.code with
  | .stock _ _ => true
  | _ => false

/-- `purchaseId` is null while the card is free and -1 while it is reserved. -/
structure Card where
  id : ℕ
  batchId : ℕ
  username : String
  used : Bool := false
  revoked : Bool := false
  deleted : Bool := false
  purchaseId : Option ℤ := none
deriving DecidableEq

def reserved : ℤ := -1

/-- A row of `card_user_purchases`; the only status it gets is `completed`. -/
structure Purchase where
  id : ℕ
  cardUserId : ℤ
  packageId : ℕ
  cardId : Option ℕ
  walletId : ℕ
  walletTransactionId : Option ℕ
  ledgerEntryId : Option ℕ := none
  revenueRecordId : Option ℕ := none
  amountMinor : ℕ
  currency : String
deriving DecidableEq

structure Revenue where
  id : ℕ
  sourceId : ℕ
  amountMinor : ℕ
  currency : String
  ledgerEntryId : ℕ
deriving DecidableEq

abbrev Packages := Table Package Package.id
abbrev Batches := Table Batch Batch.id
abbrev Cards := Table Card Card.id
abbrev Purchases := Table Purchase Purchase.id
abbrev Revenues := Table Revenue Revenue.id

structure Shop where
  batches : Batches
  cards : Cards
  purchases : Purchases
  placed : ∀ card ∈ cards.rows, card.batchId < batches.next
  bought : ∀ r ∈ purchases.rows, ∀ cardId ∈ r.cardId, ∃ card ∈ cards.rows, card.id = cardId

namespace Shop

def empty : Shop := ⟨.empty, .empty, .empty, by simp, by simp⟩

def insertBatch (s : Shop) (code : BatchCode) : Shop where
  batches := s.batches.insert (fun id => ⟨id, code, code.packageId, rfl⟩) fun _ => rfl
  cards := s.cards
  purchases := s.purchases
  placed card hcard := (s.placed card hcard).trans (Nat.lt_succ_self _)
  bought := s.bought

def batch (s : Shop) (card : Card) : Option Batch := s.batches.get? card.batchId

def updateCards (s : Shop) (p : Card → Bool) (purchaseId : Option ℤ) : Shop where
  batches := s.batches
  cards := s.cards.update p (fun card => { card with purchaseId }) fun _ => rfl
  purchases := s.purchases
  placed card hcard := by
    obtain ⟨q, hq, rfl⟩ := List.mem_map.mp hcard
    have := s.placed q hq
    split_ifs
    · exact this
    · exact this
  bought r hr cardId hcardId := by
    obtain ⟨card, hcard, hid⟩ := s.bought r hr cardId hcardId
    refine ⟨_, List.mem_map_of_mem hcard, ?_⟩
    split_ifs
    · exact hid
    · exact hid

def deleteCard (s : Shop) (id : ℕ) : Shop where
  batches := s.batches
  cards := s.cards.delete fun card => card.id = id
  purchases := s.purchases.update (fun r => r.cardId = some id)
    (fun r => { r with cardId := none }) fun _ => rfl
  placed card hcard := s.placed card (List.mem_filter.mp hcard).1
  bought r hr cardId hcardId := by
    obtain ⟨q, hq, rfl⟩ := List.mem_map.mp hr
    split_ifs at hcardId with hsame
    · cases hcardId
    · obtain ⟨card, hcard, hid⟩ := s.bought q hq cardId hcardId
      refine ⟨card, List.mem_filter.mpr ⟨hcard, ?_⟩, hid⟩
      have hne : card.id ≠ id := by
        rintro rfl
        exact hsame (by simpa [hid] using hcardId)
      simpa using hne

def insertCard (s : Shop) (batchId : ℕ) (username : String) (h : batchId < s.batches.next) :
    Shop where
  batches := s.batches
  cards := s.cards.insert (fun id => { id, batchId, username }) fun _ => rfl
  purchases := s.purchases
  placed card hcard := by
    rcases List.mem_append.mp hcard with hcard | hcard
    · exact s.placed card hcard
    · rw [List.mem_singleton.mp hcard]
      exact h
  bought r hr cardId hcardId := by
    obtain ⟨card, hcard, hid⟩ := s.bought r hr cardId hcardId
    exact ⟨card, List.mem_append_left _ hcard, hid⟩

def insertPurchase (s : Shop) (row : ℕ → Purchase) (hrow : ∀ id, (row id).id = id)
    (h : ∀ id, ∀ cardId ∈ (row id).cardId, ∃ card ∈ s.cards.rows, card.id = cardId) : Shop where
  batches := s.batches
  cards := s.cards
  purchases := s.purchases.insert row hrow
  placed := s.placed
  bought r hr cardId hcardId := by
    rcases List.mem_append.mp hr with hr | hr
    · exact s.bought r hr cardId hcardId
    · exact h _ cardId (List.mem_singleton.mp hr ▸ hcardId)

def tie (s : Shop) (purchaseId entryId revenueId : ℕ) : Shop where
  batches := s.batches
  cards := s.cards
  purchases := s.purchases.update (fun r => r.id = purchaseId)
    (fun r => { r with ledgerEntryId := some entryId, revenueRecordId := some revenueId })
    fun _ => rfl
  placed := s.placed
  bought r hr cardId hcardId := by
    obtain ⟨q, hq, rfl⟩ := List.mem_map.mp hr
    refine s.bought q hq cardId ?_
    split_ifs at hcardId
    · exact hcardId
    · exact hcardId

def taken (s : Shop) (username : String) : Bool := s.cards.rows.any (·.username = username)

def addCard (s : Shop) (batchId : ℕ) (username : String) : Option Shop :=
  if h : batchId < s.batches.next then
    if s.taken username then none else some (s.insertCard batchId username h)
  else none

/-- `UPDATE cards SET purchase_id=? WHERE id=?`, under the unique index on `purchase_id`. -/
def link (s : Shop) (cardId : ℕ) (purchaseId : ℤ) : Option Shop :=
  if s.cards.rows.any fun card => card.id ≠ cardId && card.purchaseId = some purchaseId then none
  else some (s.updateCards (fun card => card.id = cardId) (some purchaseId))

def release (s : Shop) (cardId : ℕ) : Shop :=
  s.updateCards (fun card => card.id = cardId) none

def sellable (s : Shop) (packageId : ℕ) (card : Card) : Bool :=
  ((s.batch card).any fun b => b.packageId = some packageId) && card.purchaseId.isNone &&
    !card.used && !card.revoked && !card.deleted

def stock (s : Shop) (packageId : ℕ) : List Card := s.cards.select (s.sellable packageId)

/-- `_store_batch_for_offer` -/
def storeBatch (s : Shop) (packageId : ℕ) : ℕ × Shop :=
  match s.batches.rows.find? fun b => b.code = .offer packageId with
  | some b => (b.id, s)
  | none => (s.batches.next, s.insertBatch (.offer packageId))

end Shop

structure Order where
  cardUserId : ℤ
  package : Package
  wallet : Wallet

def Order.free (o : Order) : Bool := o.package.priceMinor = 0

/-- Where a call stands: the next write it makes. A call that fails keeps the purchase row that it
had written. The last four are `add_inventory_stock`. -/
inductive Phase
  | reading (cardUserId : ℤ) (packageId : ℕ)
  | opening (cardUserId : ℤ) (package : Package)
  | debiting (o : Order)
  | claiming (o : Order) (paid : Option ℕ)
  | housing (o : Order) (paid : Option ℕ)
  | minting (o : Order) (paid : Option ℕ) (batchId : ℕ)
  | recording (o : Order) (paid : Option ℕ) (card : Card)
  | linking (o : Order) (card : Card) (purchaseId : ℕ)
  | posting (o : Order) (card : Card) (purchaseId : ℕ)
  | earning (o : Order) (card : Card) (purchaseId entryId : ℕ)
  | tying (o : Order) (card : Card) (purchaseId entryId revenueId : ℕ)
  | announcing (o : Order) (card : Card) (purchaseId : ℕ)
  | refunding (o : Order) (card : Option Card) (written : Option ℕ)
  | undoing (o : Order) (card : Card) (written : Option ℕ)
  | returned (purchaseId : ℕ)
  | raised (written : Option ℕ)
  | stocking (packageId : ℕ) (stamp : String) (upload : Bool) (usernames : List String)
  | filling (packageId batchId : ℕ) (usernames : List String) (added : ℕ)
  | totalling (packageId added : ℕ)
  | stocked

structure Market where
  books : Books
  packages : Packages
  shop : Shop
  revenues : Revenues

def Market.empty : Market := ⟨.empty, .empty, .empty, .empty⟩

def Package.inventoryRemaining (p : Package) : ℕ := p.inventoryTotal - p.inventorySold

def debitOf (tenantId : ℤ) (o : Order) : Movement where
  tenantId
  walletId := o.wallet.id
  amount := minorToMoney o.package.priceMinor
  transactionType := .debit
  referenceType := "card_marketplace_purchase"
  metadata := [("package_id", .number (toString o.package.id) (o.package.id = 0)),
    ("sale_mode", .str (match o.package.saleMode with
      | .instant => "instant"
      | .inventory => "inventory"))]

def refundOf (tenantId : ℤ) (o : Order) : Movement where
  tenantId
  walletId := o.wallet.id
  amount := minorToMoney o.package.priceMinor
  transactionType := .credit
  referenceType := "card_marketplace_refund"
  metadata := [("package_id", .number (toString o.package.id) (o.package.id = 0))]

def cardSale : String := "card_sale"

def saleEntry (tenantId : ℤ) (defaultCurrency : String) (o : Order) (card : Card)
    (purchaseId : ℕ) : LedgerEntry where
  id := 0
  tenantId
  entryType := cardSale
  debitAccount := .other ("wallet:card_user:" ++ toString o.cardUserId)
  creditAccount := .other "card_marketplace_revenue"
  amountMinor := 0
  currency := textOr o.package.currency defaultCurrency
  targetType := "card_user"
  targetId := some o.cardUserId
  referenceType := "card_user_purchase"
  referenceId := some purchaseId
  metadata := [("package_id", .number (toString o.package.id) (o.package.id = 0)),
    ("card_id", .number (toString card.id) (card.id = 0))]

def purchaseRow (o : Order) (paid : Option ℕ) (card : Card) (id : ℕ) : Purchase where
  id
  cardUserId := o.cardUserId
  packageId := o.package.id
  cardId := some card.id
  walletId := o.wallet.id
  walletTransactionId := paid
  amountMinor := o.package.priceMinor
  currency := o.package.currency

def revenueRow (o : Order) (purchaseId entryId id : ℕ) : Revenue where
  id
  sourceId := purchaseId
  amountMinor := o.package.priceMinor
  currency := o.package.currency
  ledgerEntryId := entryId

namespace Market
variable (m : Market)

def package (packageId : ℕ) : Option Package := m.packages.get? packageId

def updatePackage (packageId : ℕ) (f : Package → Package) (hf : ∀ p, (f p).id = p.id) : Market :=
  { m with packages := m.packages.update (fun p => p.id = packageId) f hf }

/-- `_create_purchase`; the foreign key refuses a card that is not there. -/
def createPurchase (o : Order) (paid : Option ℕ) (card : Card) : Option Market :=
  if h : ∃ r ∈ m.shop.cards.rows, r.id = card.id then
    some { m with
      shop := m.shop.insertPurchase (purchaseRow o paid card) (fun _ => rfl)
        fun _ _ hcardId => Option.some.inj hcardId ▸ h }
  else none

def createRevenueRecord (o : Order) (purchaseId entryId : ℕ) : Market :=
  { m with revenues := m.revenues.insert (revenueRow o purchaseId entryId) fun _ => rfl }

/-- `_claim_inventory_card`: the free card with the lowest id. -/
def claimInventoryCard (packageId : ℕ) : Option (Card × Market) :=
  match (m.shop.stock packageId).head? with
  | none => none
  | some card =>
    match m.shop.link card.id reserved with
    | none => none
    | some shop =>
      some ({ card with purchaseId := some reserved }, { m with shop }.updatePackage packageId
        (fun p => { p with inventorySold := p.inventorySold + 1 }) fun _ => rfl)

def releaseInventoryCard (card : Card) (packageId : ℕ) : Market :=
  { m with shop := m.shop.release card.id }.updatePackage packageId
    (fun p => { p with inventorySold := p.inventorySold - 1 }) fun _ => rfl

def discardMintedCard (card : Card) : Market :=
  { m with shop := m.shop.deleteCard card.id }

end Market

/-- The handler of `purchase_package` begins with the refund of a priced package. -/
def Phase.failed (o : Order) (card : Option Card) (written : Option ℕ) : Phase :=
  if o.free then
    match card with
    | none => .raised written
    | some card => .undoing o card written
  else .refunding o card written

/-- What the surroundings decide at one step: the currency setting, what fails in a wallet or
ledger call, whether any other write raises, and what the generator of usernames comes up with. -/
structure Turn where
  defaultCurrency : String := "ILS"
  faults : Faults := {}
  raises : Bool := false
  username : String := ""

def act (tenantId : ℤ) (t : Turn) (m : Market) : Phase → Market × Phase
  | .reading cardUserId packageId =>
    match m.package packageId with
    | none => (m, .raised none)
    | some package =>
      if t.raises ∨ !package.active then (m, .raised none) else (m, .opening cardUserId package)
  | .opening cardUserId package =>
    match walletOf t.defaultCurrency t.faults tenantId "card_user" cardUserId m.books with
    | (none, books) => ({ m with books }, .raised none)
    | (some wallet, books) =>
      if wallet.balanceMinor < package.priceMinor ∨
        package.saleMode = .inventory ∧ package.inventoryRemaining = 0 then
        ({ m with books }, .raised none)
      else ({ m with books }, .debiting ⟨cardUserId, package, wallet⟩)
  | .debiting o =>
    let obtaining (paid : Option ℕ) : Phase :=
      match o.package.saleMode with
      | .inventory => .claiming o paid
      | .instant => .housing o paid
    if o.free then (m, obtaining none)
    else
      match perform t.faults.sqlite (changeBalance t.defaultCurrency (debitOf tenantId o))
        m.books with
      | (.error _, books) => ({ m with books }, .raised none)
      | (.ok ids, books) => ({ m with books }, obtaining (some ids.1))
  | .claiming o paid =>
    if t.raises then (m, .failed o none none)
    else
      match m.claimInventoryCard o.package.id with
      | none => (m, .failed o none none)
      | some (card, m) => (m, .recording o paid card)
  | .housing o paid =>
    if t.raises then (m, .failed o none none)
    else
      let (batchId, shop) := m.shop.storeBatch o.package.id
      ({ m with shop }, .minting o paid batchId)
  | .minting o paid batchId =>
    if t.raises then (m, .failed o none none)
    else
      match m.shop.addCard batchId t.username with
      | none => (m, .failed o none none)
      | some shop =>
        ({ m with shop },
          .recording o paid { id := m.shop.cards.next, batchId, username := t.username })
  | .recording o paid card =>
    if t.raises then (m, .failed o (some card) none)
    else
      match m.createPurchase o paid card with
      | none => (m, .failed o (some card) none)
      | some m' => (m', .linking o card m.shop.purchases.next)
  | .linking o card purchaseId =>
    if t.raises then (m, .failed o (some card) (some purchaseId))
    else
      match m.shop.link card.id purchaseId with
      | none => (m, .failed o (some card) (some purchaseId))
      | some shop =>
        ({ m with shop },
          if o.free then .announcing o card purchaseId else .posting o card purchaseId)
  | .posting o card purchaseId =>
    match perform t.faults.sqlite (ledgerWriteEntry (minorToMoney o.package.priceMinor)
      (saleEntry tenantId t.defaultCurrency o card purchaseId)) m.books with
    | (.error _, books) => ({ m with books }, .failed o (some card) (some purchaseId))
    | (.ok entryId, books) => ({ m with books }, .earning o card purchaseId entryId)
  | .earning o card purchaseId entryId =>
    if t.raises then (m, .failed o (some card) (some purchaseId))
    else (m.createRevenueRecord o purchaseId entryId,
      .tying o card purchaseId entryId m.revenues.next)
  | .tying o card purchaseId entryId revenueId =>
    if t.raises then (m, .failed o (some card) (some purchaseId))
    else ({ m with shop := m.shop.tie purchaseId entryId revenueId },
      .announcing o card purchaseId)
  | .announcing o card purchaseId =>
    if t.raises then (m, .failed o (some card) (some purchaseId))
    else
      ({ m with
          books := m.books.recordEvent ⟨"card_user.card_purchased", "card_user",
            some o.cardUserId, none, none⟩ }, .returned purchaseId)
  | .refunding o card written =>
    -- a refund that raises is swallowed
    let books := (perform t.faults.sqlite (changeBalance t.defaultCurrency (refundOf tenantId o))
      m.books).2
    match card with
    | none => ({ m with books }, .raised written)
    | some card => ({ m with books }, .undoing o card written)
  | .undoing o card written =>
    -- and so is what the undoing raises
    if t.raises then (m, .raised written)
    else
      match o.package.saleMode with
      | .inventory => (m.releaseInventoryCard card o.package.id, .raised written)
      | .instant => (m.discardMintedCard card, .raised written)
  | .stocking packageId stamp upload usernames =>
    if t.raises ∨ (m.package packageId).isNone ∨ usernames = [] ∨ 5000 < usernames.length ∨
      m.shop.batches.rows.any (fun b => b.code = .stock packageId stamp) then (m, .stocked)
    else
      let batchId := m.shop.batches.next
      let shop := m.shop.insertBatch (.stock packageId stamp)
      if upload then
        -- a username that is taken is skipped
        let filled := usernames.foldl (fun (s : Shop × ℕ) username =>
          match s.1.addCard batchId username with
          | none => s
          | some shop => (shop, s.2 + 1)) (shop, 0)
        ({ m with shop := filled.1 }, .totalling packageId filled.2)
      else ({ m with shop }, .filling packageId batchId usernames 0)
  | .filling packageId batchId usernames added =>
    match usernames with
    | [] => (m, .totalling packageId added)
    | _ =>
      let chunk := usernames.take 100
      match chunk.foldlM (fun s username => s.addCard batchId username) m.shop with
      | none => (m, .stocked)
      | some shop =>
        if t.raises then (m, .stocked)
        else ({ m with shop },
          .filling packageId batchId (usernames.drop 100) (added + chunk.length))
  | .totalling packageId added =>
    if t.raises then (m, .stocked)
    else (m.updatePackage packageId
      (fun p => { p with inventoryTotal := p.inventoryTotal + added }) fun _ => rfl, .stocked)
  | .returned purchaseId => (m, .returned purchaseId)
  | .raised written => (m, .raised written)
  | .stocked => (m, .stocked)

def Phase.over : Phase → Bool
  | .returned _ => true
  | .raised _ => true
  | .stocked => true
  | _ => false

structure World where
  market : Market
  phase : ℕ → Phase

def World.initial : World := ⟨.empty, fun _ => .raised none⟩

def World.setPhase (w : World) (c : ℕ) (p : Phase) : World :=
  { w with phase := Function.update w.phase c p }

inductive Event
  | createPackage (priceMinor : ℕ) (currency : String) (active : Bool) (saleMode : SaleMode)
  | updatePackage (packageId priceMinor : ℕ) (currency : String) (active : Bool)
    (saleMode : SaleMode)
  | setPackageSaleMode (packageId : ℕ) (saleMode : SaleMode)
  | purchase (c : ℕ) (cardUserId : ℤ) (packageId : ℕ)
  | addInventoryStock (c packageId : ℕ) (stamp : String) (upload : Bool) (usernames : List String)
  | next (c : ℕ) (turn : Turn)
  | wallet (call : Call)

def step (tenantId : ℤ) (w : World) : Event → World
  | .createPackage priceMinor currency active saleMode =>
    { w with
      market := { w.market with
        packages := w.market.packages.insert
          (fun id => { id, priceMinor, currency, active, saleMode }) fun _ => rfl } }
  | .updatePackage packageId priceMinor currency active saleMode =>
    { w with
      market := w.market.updatePackage packageId
        (fun p => { p with priceMinor, currency, active, saleMode }) fun _ => rfl }
  | .setPackageSaleMode packageId saleMode =>
    { w with
      market := w.market.updatePackage packageId (fun p => { p with saleMode }) fun _ => rfl }
  | .purchase c cardUserId packageId =>
    if (w.phase c).over then w.setPhase c (.reading cardUserId packageId) else w
  | .addInventoryStock c packageId stamp upload usernames =>
    if (w.phase c).over then w.setPhase c (.stocking packageId stamp upload usernames) else w
  | .next c turn =>
    let (market, phase) := act tenantId turn w.market (w.phase c)
    { market, phase := Function.update w.phase c phase }
  | .wallet call =>
    { w with market := { w.market with books := BusinessOs.step w.market.books call } }

end RadiusModule.CardMarket
