import RadiusModule.Library.Binary64
import RadiusModule.Services.BusinessOs.Finance

/-!
# Redeeming a card into a wallet

`redeem_card_to_wallet` reads the card, opens the wallet, pays the value of the
card into it and marks the card as used: four steps, each committed by itself,
between which other calls, logins and revocations may come.
-/

namespace RadiusModule.CustomerPortals
open Library Connection BusinessOs PyText

structure Card where
  id : ℕ
  tenantId : ℤ := 1
  username : String
  password : String := ""
  batchId : ℕ
  used : Bool := false
  firstUsedAt : Option ℤ := none
  revoked : Bool := false
  deletedAt : Option ℤ := none
  rechargeOnly : Bool := false
  walletValue : ℚ := 0

structure Batch where
  id : ℕ
  tenantId : ℤ := 1
  pricePerCard : ℚ := 0
  priceBulk : ℚ := 0
  count : ℤ := 0

def price (c : Card) (b : Batch) : ℚ :=
  if 0 < c.walletValue then c.walletValue
  else if 0 < b.pricePerCard then b.pricePerCard
  else if 0 < b.count ∧ 0 < b.priceBulk then Binary64.fl (b.priceBulk / b.count)
  else 0

def redeemable (c : Card) (b : Batch) (password : String) : Bool :=
  let storedPin := strip c.password
  if c.revoked then false
  else if c.used then false
  else if (c.rechargeOnly || storedPin ≠ "") && (password = "" || password ≠ storedPin) then false
  else 0 < price c b

inductive Phase
  | idle
  | reading (tenantId cardUserId : ℤ) (cardNumber cardPassword : String)
  | opening (tenantId cardUserId : ℤ) (card batch : ℕ) (number : String) (amount : ℚ)
  | paying (tenantId cardUserId : ℤ) (card batch : ℕ) (number : String) (amount : ℚ)
    (wallet : ℕ)
  | marking (tenantId : ℤ) (card : ℕ)
  | returned (card : ℕ)
  | raised

/-- `usedBy` is no column: it remembers the call that set `used`, if a call did. -/
structure World where
  books : Books
  cards : Table Card Card.id
  batches : List Batch
  phase : ℕ → Phase
  usedBy : ℕ → Option ℕ

namespace World

def setPhase (w : World) (c : ℕ) (p : Phase) : World :=
  { w with phase := Function.update w.phase c p }

def joined (w : World) (tenantId : ℤ) (number : String) : Option (Card × Batch) :=
  w.cards.rows.findSome? fun k =>
    if k.tenantId = tenantId ∧ k.username = number then
      (w.batches.find? fun b => b.tenantId = k.tenantId && b.id = k.batchId).map fun b => (k, b)
    else none

def updateCards (w : World) (p : Card → Bool) (f : Card → Card) (hf : ∀ k, (f k).id = k.id) :
    World :=
  { w with cards := w.cards.update p f hf }

end World

/-- `WHERE tenant_id=? AND id=? AND used=0 AND revoked=0` -/
def unusedOf (tenantId : ℤ) (id : ℕ) (k : Card) : Bool :=
  k.tenantId = tenantId && k.id = id && !k.used && !k.revoked

def redeemReference : String := "card_portal_redeem"

/-- The wallet credit. `decimal` is `Decimal(str(amount))`. -/
def redeemMovement (decimal : ℚ → Amount) (tenantId : ℤ) (card batch : ℕ) (number : String)
    (amount : ℚ) (wallet : ℕ) : Movement where
  tenantId
  walletId := wallet
  amount := decimal amount
  transactionType := .credit
  referenceType := redeemReference
  referenceId := some card
  metadata := [("card_id", .number (toString card) (card = 0)), ("card_username", .str number),
    ("batch_id", .number (toString batch) (batch = 0))]

section
variable (decimal : ℚ → Amount) (defaultCurrency : String)

/-- The next step of call `c`, at `now`. A wallet step may fail in `faults`, a step on the cards
where `raises`. -/
def World.next (w : World) (c : ℕ) (faults : Faults) (raises : Bool) (now : ℤ) : World :=
  match w.phase c with
  | .reading tenantId cardUserId cardNumber cardPassword =>
    let number := strip cardNumber
    if number = "" || raises then w.setPhase c .raised
    else
      match w.joined tenantId number with
      | none => w.setPhase c .raised
      | some (k, b) =>
        if redeemable k b (strip cardPassword) then
          w.setPhase c (.opening tenantId cardUserId k.id b.id number (price k b))
        else w.setPhase c .raised
  | .opening tenantId cardUserId card batch number amount =>
    match walletOf defaultCurrency faults tenantId "card_user" cardUserId w.books with
    | (none, books) => { w with books }.setPhase c .raised
    | (some wallet, books) =>
      { w with books }.setPhase c
        (.paying tenantId cardUserId card batch number amount wallet.id)
  | .paying tenantId _ card batch number amount wallet =>
    match perform faults.sqlite (changeBalance defaultCurrency
      (redeemMovement decimal tenantId card batch number amount wallet)) w.books with
    | (.error _, books) => { w with books }.setPhase c .raised
    | (.ok _, books) => { w with books }.setPhase c (.marking tenantId card)
  | .marking tenantId card =>
    if raises then w.setPhase c .raised
    else if w.cards.rows.any (unusedOf tenantId card) then
      { w.updateCards (unusedOf tenantId card)
          (fun k => { k with used := true, firstUsedAt := some now }) fun _ => rfl with
        usedBy := Function.update w.usedBy card (some c) }.setPhase c (.returned card)
    else w.setPhase c .raised
  | .idle | .returned _ | .raised => w

inductive Event
  | redeem (c : ℕ) (tenantId cardUserId : ℤ) (cardNumber cardPassword : String)
  | next (c : ℕ) (faults : Faults) (raises : Bool) (now : ℤ)
  | login (tenantId : ℤ) (username : String) (now : ℤ)
  | revoke (id : ℕ)
  | delete (id : ℕ) (now : ℤ)

def Event.caller : Event → Option ℕ
  | .redeem c .. | .next c .. => some c
  | _ => none

def step (w : World) : Event → World
  | .redeem c tenantId cardUserId cardNumber cardPassword =>
    match w.phase c with
    | .idle => w.setPhase c (.reading tenantId cardUserId cardNumber cardPassword)
    | _ => w
  | .next c faults raises now => w.next decimal defaultCurrency c faults raises now
  | .login tenantId username now =>
    w.updateCards (fun k => k.tenantId = tenantId && k.username = username)
      (fun k => { k with used := true, firstUsedAt := k.firstUsedAt.or (some now) }) fun _ => rfl
  | .revoke id => w.updateCards (fun k => k.id = id) (fun k => { k with revoked := true })
      fun _ => rfl
  | .delete id now => w.updateCards (fun k => k.id = id)
      (fun k => { k with deletedAt := some now }) fun _ => rfl

end

end RadiusModule.CustomerPortals
