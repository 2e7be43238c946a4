import RadiusModule.Services.CardMarket.Purchase

/-!
# A card of the market is sold once

A call holds the card that it has claimed or minted, and no other call touches
that card while it does. The exception is an instant sale: its fresh card lies
unlinked in a batch of the offer for a moment, where a claim may find it.
-/

namespace RadiusModule.CardMarket
open Library Connection BusinessOs

def Shop.stockSold (s : Shop) (packageId : ℕ) (card : Card) : Bool :=
  ((s.batch card).any fun b => b.isStock && b.packageId = some packageId) &&
    card.purchaseId.isSome

/-- No card has two purchases, a linked card is the card of its purchase, and every offer counts
the cards of its stock that are gone. -/
structure SoldOnce (packages : Packages) (s : Shop) : Prop where
  once : ∀ r ∈ s.purchases.rows, ∀ r' ∈ s.purchases.rows, ∀ cardId ∈ r.cardId,
    cardId ∈ r'.cardId → r = r'
  linked : ∀ card ∈ s.cards.rows, ∀ p ∈ card.purchaseId, 0 < p →
    ∃ r ∈ s.purchases.rows, (r.id : ℤ) = p ∧ r.cardId = some card.id
  counted : ∀ package ∈ packages.rows,
    package.inventorySold = s.cards.rows.countP (s.stockSold package.id)

structure Tidy (packages : Packages) (s : Shop) : Prop extends SoldOnce packages s where
  known : ∀ b ∈ s.batches.rows, b.isStock = true → ∀ packageId ∈ b.packageId,
    packageId < packages.next

def Phase.card : Phase → Option ℕ
  | .recording _ _ card => some card.id
  | .linking _ card _ => some card.id
  | .posting _ card _ => some card.id
  | .earning _ card _ _ => some card.id
  | .tying _ card _ _ _ => some card.id
  | .announcing _ card _ => some card.id
  | .refunding _ card _ => card.map Card.id
  | .undoing _ card _ => some card.id
  | _ => none

def Fits (s : Shop) (o : Order) (card : Card) : Prop :=
  match o.package.saleMode with
  | .inventory => (∃ b, s.batch card = some b ∧ b.isStock = true ∧
      b.packageId = some o.package.id) ∧ card.purchaseId.isSome = true
  | .instant => ∃ b, s.batch card = some b ∧ b.isStock = false

def Holding (s : Shop) (o : Order) (cardId : ℕ) : Prop :=
  ∃ card ∈ s.cards.rows, card.id = cardId ∧ Fits s o card

def Entitled (s : Shop) : Phase → Prop
  | .claiming o _ => o.package.saleMode = .inventory
  | .housing o _ => o.package.saleMode = .instant
  | .minting o _ batchId => o.package.saleMode = .instant ∧
    ∃ b, s.batches.get? batchId = some b ∧ b.isStock = false
  | .recording o _ card => Holding s o card.id ∧
    ∀ r ∈ s.purchases.rows, r.cardId ≠ some card.id
  | .linking o card purchaseId => Holding s o card.id ∧
    ∃ r ∈ s.purchases.rows, r.id = purchaseId ∧ r.cardId = some card.id
  | .posting o card _ => Holding s o card.id
  | .earning o card _ _ => Holding s o card.id
  | .tying o card _ _ _ => Holding s o card.id
  | .announcing o card _ => Holding s o card.id
  | .refunding o card _ => ∀ held ∈ card, Holding s o held.id
  | .undoing o card _ => Holding s o card.id
  | _ => True

structure Frame (s s' : Shop) (touched : Option ℕ) : Prop where
  cards : ∀ card ∈ s.cards.rows, touched ≠ some card.id → card ∈ s'.cards.rows
  batches : ∀ id b, s.batches.get? id = some b → s'.batches.get? id = some b
  kept : ∀ r ∈ s.purchases.rows, ∀ cardId ∈ r.cardId, touched ≠ some cardId →
    ∃ r' ∈ s'.purchases.rows, r'.id = r.id ∧ r'.cardId = r.cardId
  new : ∀ r' ∈ s'.purchases.rows, ∀ cardId ∈ r'.cardId, touched ≠ some cardId →
    ∃ r ∈ s.purchases.rows, r.id = r'.id ∧ r.cardId = r'.cardId

section frame
variable {s s' : Shop} {touched : Option ℕ} {o : Order} {cardId : ℕ}

theorem Frame.refl (s : Shop) (touched : Option ℕ) : Frame s s touched :=
  ⟨fun _ h _ => h, fun _ _ h => h, fun r hr _ _ _ => ⟨r, hr, rfl, rfl⟩,
    fun r hr _ _ _ => ⟨r, hr, rfl, rfl⟩⟩

theorem Frame.trans {s'' : Shop} (h : Frame s s' none) (h' : Frame s' s'' none) :
    Frame s s'' none := by
  refine ⟨fun r hr hother => h'.cards r (h.cards r hr hother) hother,
    fun id b hb => h'.batches id b (h.batches id b hb), fun r hr k hk hother => ?_,
    fun r hr k hk hother => ?_⟩
  · obtain ⟨r', hr', hid', hcard'⟩ := h.kept r hr k hk hother
    obtain ⟨r'', hr'', hid'', hcard''⟩ := h'.kept r' hr' k (by rw [hcard']; exact hk) hother
    exact ⟨r'', hr'', hid''.trans hid', hcard''.trans hcard'⟩
  · obtain ⟨r', hr', hid', hcard'⟩ := h'.new r hr k hk hother
    obtain ⟨r'', hr'', hid'', hcard''⟩ := h.new r' hr' k (by rw [hcard']; exact hk) hother
    exact ⟨r'', hr'', hid''.trans hid', hcard''.trans hcard'⟩

theorem Fits.frame {card : Card} (h : Fits s o card) (hf : Frame s s' touched) :
    Fits s' o card := by
  unfold Fits at h ⊢
  cases hmode : o.package.saleMode with
  | inventory =>
    simp only [hmode] at h
    obtain ⟨⟨b, hb, hstock⟩, hpurchase⟩ := h
    exact ⟨⟨b, hf.batches _ b hb, hstock⟩, hpurchase⟩
  | instant =>
    simp only [hmode] at h
    obtain ⟨b, hb, hstock⟩ := h
    exact ⟨b, hf.batches _ b hb, hstock⟩

theorem Holding.frame (h : Holding s o cardId) (hf : Frame s s' touched)
    (hother : touched ≠ some cardId) : Holding s' o cardId := by
  obtain ⟨card, hcard, hid, hfits⟩ := h
  exact ⟨card, hf.cards card hcard (hid ▸ hother), hid, hfits.frame hf⟩

theorem Entitled.frame {p : Phase} (h : Entitled s p) (hf : Frame s s' touched)
    (hother : ∀ cardId ∈ p.card, touched ≠ some cardId) : Entitled s' p := by
  cases p with
  | claiming o paid => exact h
  | housing o paid => exact h
  | minting o paid batchId =>
    obtain ⟨hmode, b, hb, hstock⟩ := h
    exact ⟨hmode, b, hf.batches _ b hb, hstock⟩
  | recording o paid card =>
    have hcard := hother card.id rfl
    refine ⟨h.1.frame hf hcard, fun r' hr' hsame => ?_⟩
    obtain ⟨r, hr, -, hid⟩ := hf.new r' hr' card.id hsame hcard
    exact h.2 r hr (hid.trans hsame)
  | linking o card purchaseId =>
    have hcard := hother card.id rfl
    obtain ⟨hholding, r, hr, hid, hsame⟩ := h
    obtain ⟨r', hr', hid', hsame'⟩ := hf.kept r hr card.id hsame hcard
    exact ⟨hholding.frame hf hcard, r', hr', hid'.trans hid, hsame'.trans hsame⟩
  | posting o card purchaseId => exact Holding.frame h hf (hother card.id rfl)
  | earning o card purchaseId entryId => exact Holding.frame h hf (hother card.id rfl)
  | tying o card purchaseId entryId revenueId => exact Holding.frame h hf (hother card.id rfl)
  | announcing o card purchaseId => exact Holding.frame h hf (hother card.id rfl)
  | refunding o card written =>
    intro held hheld
    obtain rfl := Option.mem_def.mp hheld
    exact (h held rfl).frame hf (hother held.id rfl)
  | undoing o card written => exact Holding.frame h hf (hother card.id rfl)
  | _ => trivial

theorem Entitled.holding {p : Phase} (h : Entitled s p) (hcard : cardId ∈ p.card) :
    ∃ o, Holding s o cardId := by
  cases p with
  | recording o paid card => exact ⟨o, Option.some.inj hcard ▸ h.1⟩
  | linking o card purchaseId => exact ⟨o, Option.some.inj hcard ▸ h.1⟩
  | posting o card purchaseId => exact ⟨o, Option.some.inj hcard ▸ h⟩
  | earning o card purchaseId entryId => exact ⟨o, Option.some.inj hcard ▸ h⟩
  | tying o card purchaseId entryId revenueId => exact ⟨o, Option.some.inj hcard ▸ h⟩
  | announcing o card purchaseId => exact ⟨o, Option.some.inj hcard ▸ h⟩
  | refunding o card written =>
    obtain ⟨held, rfl, rfl⟩ := Option.map_eq_some_iff.mp hcard
    exact ⟨o, h held rfl⟩
  | undoing o card written => exact ⟨o, Option.some.inj hcard ▸ h⟩
  | _ => cases hcard

end frame

section operations
variable {s : Shop} {packages packages' : Packages} {card : Card} {cardId : ℕ}

theorem countP_updateCards (hcard : card ∈ s.cards.rows) (purchaseId : Option ℤ)
    (packageId : ℕ) :
    (s.updateCards (fun r => r.id = card.id) purchaseId).cards.rows.countP
        (s.stockSold packageId) + (s.stockSold packageId card).toNat =
      s.cards.rows.countP (s.stockSold packageId) +
        (s.stockSold packageId { card with purchaseId }).toNat := by
  simp only [Shop.updateCards, Table.rows_update, decide_eq_true_eq]
  exact s.cards.countP_map_key hcard _ _

theorem frame_updateCards (s : Shop) (cardId : ℕ) (purchaseId : Option ℤ) :
    Frame s (s.updateCards (fun r => r.id = cardId) purchaseId) (some cardId) := by
  refine ⟨fun r hr hother => ?_, fun _ _ h => h, fun r hr _ _ _ => ⟨r, hr, rfl, rfl⟩,
    fun r hr _ _ _ => ⟨r, hr, rfl, rfl⟩⟩
  refine List.mem_map.mpr ⟨r, hr, if_neg ?_⟩
  simpa using fun hid => hother (congrArg some hid.symm)

theorem Tidy.updateCards (h : Tidy packages s) (hcard : card ∈ s.cards.rows)
    (purchaseId : Option ℤ) (hnext : packages'.next = packages.next)
    (hlinked : ∀ p ∈ purchaseId, 0 < p →
      ∃ r ∈ s.purchases.rows, (r.id : ℤ) = p ∧ r.cardId = some card.id)
    (hcounted : ∀ package' ∈ packages'.rows, ∃ package ∈ packages.rows,
      package.id = package'.id ∧
        package'.inventorySold + (s.stockSold package.id card).toNat =
          package.inventorySold + (s.stockSold package.id { card with purchaseId }).toNat) :
    Tidy packages' (s.updateCards (fun r => r.id = card.id) purchaseId) := by
  refine ⟨⟨h.once, fun r hr p hp hpos => ?_, fun package' hpackage' => ?_⟩, hnext ▸ h.known⟩
  · obtain ⟨q, hq, rfl⟩ := List.mem_map.mp hr
    split_ifs at hp ⊢ with hid
    · obtain ⟨row, hrow, hrowid, hrowcard⟩ := hlinked p hp hpos
      exact ⟨row, hrow, hrowid, hrowcard.trans (congrArg some (of_decide_eq_true hid).symm)⟩
    · exact h.linked q hq p hp hpos
  · obtain ⟨package, hpackage, hid, hsold⟩ := hcounted package' hpackage'
    have hcount := countP_updateCards hcard purchaseId package.id
    rw [← h.counted package hpackage] at hcount
    have hsame : package'.inventorySold =
        (s.updateCards (fun r => r.id = card.id) purchaseId).cards.rows.countP
          (s.stockSold package.id) := by omega
    rw [hsame, hid]
    rfl

theorem Tidy.repackaged (h : Tidy packages s) (hnext : packages.next ≤ packages'.next)
    (hcounted : ∀ package' ∈ packages'.rows, ∃ package ∈ packages.rows,
      package.id = package'.id ∧ package'.inventorySold = package.inventorySold) :
    Tidy packages' s := by
  refine ⟨⟨h.once, h.linked, fun package' hpackage' => ?_⟩,
    fun b hb hstock id hid => (h.known b hb hstock id hid).trans_le hnext⟩
  obtain ⟨package, hpackage, hid, hsold⟩ := hcounted package' hpackage'
  rw [hsold, ← hid, h.counted package hpackage]

theorem frame_deleteCard (s : Shop) (cardId : ℕ) :
    Frame s (s.deleteCard cardId) (some cardId) := by
  refine ⟨fun r hr hother => ?_, fun _ _ h => h, fun r hr k hk hother => ?_,
    fun r' hr' k hk hother => ?_⟩
  · refine List.mem_filter.mpr ⟨hr, ?_⟩
    simpa using fun hid => hother (congrArg some hid.symm)
  · refine ⟨r, List.mem_map.mpr ⟨r, hr, if_neg ?_⟩, rfl, rfl⟩
    simpa [Option.mem_def.mp hk] using fun hid => hother (congrArg some hid.symm)
  · obtain ⟨r, hr, rfl⟩ := List.mem_map.mp hr'
    split_ifs at hk ⊢
    · cases hk
    · exact ⟨r, hr, rfl, rfl⟩

theorem Tidy.deleteCard (h : Tidy packages s) (hcard : card ∈ s.cards.rows)
    (hstock : ∃ b, s.batch card = some b ∧ b.isStock = false) :
    Tidy packages (s.deleteCard card.id) := by
  have hfewer : ∀ r' ∈ (s.deleteCard card.id).purchases.rows, ∀ k ∈ r'.cardId,
      r' ∈ s.purchases.rows := by
    intro r' hr' k hk
    obtain ⟨r, hr, rfl⟩ := List.mem_map.mp hr'
    split_ifs at hk ⊢
    · cases hk
    · exact hr
  refine ⟨⟨fun r hr r' hr' k hk hk' => h.once r (hfewer r hr k hk) r' (hfewer r' hr' k hk') k hk hk',
    fun q hq p hp hpos => ?_, fun package hpackage => ?_⟩, h.known⟩
  · obtain ⟨hrow, hother⟩ := List.mem_filter.mp hq
    obtain ⟨r, hr, hid, hcardId⟩ := h.linked q hrow p hp hpos
    refine ⟨r, List.mem_map.mpr ⟨r, hr, if_neg ?_⟩, hid, hcardId⟩
    simpa [hcardId] using hother
  · rw [h.counted package hpackage]
    have hgone : s.stockSold package.id card = false := by
      obtain ⟨b, hb, hstock⟩ := hstock
      simp [Shop.stockSold, hb, hstock]
    simp only [Shop.deleteCard, Table.delete, List.countP_filter]
    refine List.countP_congr fun r hr => ?_
    by_cases hid : r.id = card.id
    · rw [s.cards.eq_of_key_eq hr hcard hid, hgone]
      simp
    · simp only [hid, decide_false, Bool.not_false, Bool.and_true]
      rfl

theorem frame_insertCard (s : Shop) (batchId : ℕ) (username : String) (hbatch) :
    Frame s (s.insertCard batchId username hbatch) none :=
  ⟨fun _ hr _ => List.mem_append_left _ hr, fun _ _ h => h,
    fun r hr _ _ _ => ⟨r, hr, rfl, rfl⟩, fun r hr _ _ _ => ⟨r, hr, rfl, rfl⟩⟩

theorem Tidy.insertCard (h : Tidy packages s) (batchId : ℕ) (username : String) (hbatch) :
    Tidy packages (s.insertCard batchId username hbatch) := by
  refine ⟨⟨h.once, fun r hr p hp hpos => ?_, fun package hpackage => ?_⟩, h.known⟩
  · rcases List.mem_append.mp hr with hr | hr
    · exact h.linked r hr p hp hpos
    · rw [List.mem_singleton.mp hr] at hp
      cases hp
  · have hcount : (s.insertCard batchId username hbatch).cards.rows.countP
        (s.stockSold package.id) = s.cards.rows.countP (s.stockSold package.id) := by
      simp [Shop.insertCard, Shop.stockSold]
    rw [h.counted package hpackage, ← hcount]
    rfl

theorem Tidy.addCard {s' : Shop} (h : Tidy packages s) {batchId : ℕ} {username : String}
    (hadd : s.addCard batchId username = some s') : Tidy packages s' ∧ Frame s s' none := by
  unfold Shop.addCard at hadd
  split_ifs at hadd with hbatch htaken
  cases hadd
  exact ⟨h.insertCard batchId username hbatch, frame_insertCard s batchId username hbatch⟩

theorem Tidy.addCards {s' : Shop} (h : Tidy packages s) {batchId : ℕ} {usernames : List String}
    (hadd : usernames.foldlM (fun s username => s.addCard batchId username) s = some s') :
    Tidy packages s' ∧ Frame s s' none := by
  induction usernames generalizing s with
  | nil =>
    cases hadd
    exact ⟨h, .refl _ none⟩
  | cons username usernames ih =>
    rw [List.foldlM_cons] at hadd
    obtain ⟨next, hnext, hrest⟩ := Option.bind_eq_some_iff.mp hadd
    obtain ⟨htidy, hframe⟩ := h.addCard hnext
    exact ⟨(ih htidy hrest).1, hframe.trans (ih htidy hrest).2⟩

theorem Tidy.fillCards (h : Tidy packages s) (batchId : ℕ) (usernames : List String) (added : ℕ) :
    let filled := usernames.foldl (fun (s : Shop × ℕ) username =>
      match s.1.addCard batchId username with
      | none => s
      | some shop => (shop, s.2 + 1)) (s, added)
    Tidy packages filled.1 ∧ Frame s filled.1 none := by
  induction usernames generalizing s added with
  | nil => exact ⟨h, .refl s none⟩
  | cons username usernames ih =>
    rw [List.foldl_cons]
    dsimp only
    cases hadd : s.addCard batchId username with
    | none => exact ih h added
    | some next =>
      obtain ⟨htidy, hframe⟩ := h.addCard hadd
      have hrest := ih htidy (added + 1)
      exact ⟨hrest.1, hframe.trans hrest.2⟩

theorem frame_insertBatch (s : Shop) (code : BatchCode) : Frame s (s.insertBatch code) none := by
  refine ⟨fun _ hr _ => hr, fun id b hb => ?_, fun r hr _ _ _ => ⟨r, hr, rfl, rfl⟩,
    fun r hr _ _ _ => ⟨r, hr, rfl, rfl⟩⟩
  have hlt := s.batches.below b (Table.get?_eq_some.mp hb).1
  rw [(Table.get?_eq_some.mp hb).2] at hlt
  rw [Shop.insertBatch, Table.get?_insert, if_neg hlt.ne, hb]

theorem Tidy.insertBatch (h : Tidy packages s) (code : BatchCode)
    (hknown : ∀ packageId stamp, code = .stock packageId stamp → packageId < packages.next) :
    Tidy packages (s.insertBatch code) := by
  refine ⟨⟨h.once, h.linked, fun package hpackage => ?_⟩, fun b hb hstock packageId hid => ?_⟩
  · rw [h.counted package hpackage]
    refine List.countP_congr fun r hr => ?_
    have hlt := s.placed r hr
    have hbatch : (s.insertBatch code).batch r = s.batch r := by
      simp only [Shop.batch, Shop.insertBatch, Table.get?_insert]
      rw [if_neg (by omega)]
    rw [Shop.stockSold, Shop.stockSold, hbatch]
  · rcases List.mem_append.mp hb with hb | hb
    · exact h.known b hb hstock packageId hid
    · rw [List.mem_singleton.mp hb] at hstock hid
      cases code with
      | offer packageId' => cases hstock
      | stock packageId' stamp =>
        obtain rfl := Option.some.inj hid
        exact hknown _ stamp rfl
      | other text => cases hstock

theorem frame_insertPurchase (s : Shop) (row : ℕ → Purchase) (hrow) (h)
    (hcard : ∀ id, (row id).cardId = some cardId) :
    Frame s (s.insertPurchase row hrow h) (some cardId) := by
  refine ⟨fun _ hr _ => hr, fun _ _ hb => hb,
    fun r hr _ _ _ => ⟨r, List.mem_append_left _ hr, rfl, rfl⟩, fun r' hr' k hk hother => ?_⟩
  rcases List.mem_append.mp hr' with hr' | hr'
  · exact ⟨r', hr', rfl, rfl⟩
  · rw [List.mem_singleton.mp hr', hcard] at hk
    exact absurd hk hother

theorem Tidy.insertPurchase (h : Tidy packages s) (row : ℕ → Purchase) (hrow) (hthere)
    (hcard : ∀ id, (row id).cardId = some cardId)
    (hnew : ∀ r ∈ s.purchases.rows, r.cardId ≠ some cardId) :
    Tidy packages (s.insertPurchase row hrow hthere) := by
  refine ⟨⟨fun r hr r' hr' k hk hk' => ?_, fun q hq p hp hpos => ?_, h.counted⟩, h.known⟩
  · rcases List.mem_append.mp hr with hr | hr <;> rcases List.mem_append.mp hr' with hr' | hr'
    · exact h.once r hr r' hr' k hk hk'
    · rw [List.mem_singleton.mp hr', hcard] at hk'
      exact absurd (Option.mem_def.mp hk) (Option.some.inj hk' ▸ hnew r hr)
    · rw [List.mem_singleton.mp hr, hcard] at hk
      exact absurd (Option.mem_def.mp hk') (Option.some.inj hk ▸ hnew r' hr')
    · rw [List.mem_singleton.mp hr, List.mem_singleton.mp hr']
  · obtain ⟨r, hr, hid⟩ := h.linked q hq p hp hpos
    exact ⟨r, List.mem_append_left _ hr, hid⟩

theorem frame_tie (s : Shop) (purchaseId entryId revenueId : ℕ) :
    Frame s (s.tie purchaseId entryId revenueId) none := by
  refine ⟨fun _ hr _ => hr, fun _ _ hb => hb, fun r hr _ _ _ => ?_, fun r' hr' _ _ _ => ?_⟩
  · refine ⟨_, List.mem_map_of_mem hr, ?_⟩
    split_ifs <;> exact ⟨rfl, rfl⟩
  · obtain ⟨r, hr, rfl⟩ := List.mem_map.mp hr'
    refine ⟨r, hr, ?_⟩
    split_ifs <;> exact ⟨rfl, rfl⟩

theorem Tidy.tie (h : Tidy packages s) (purchaseId entryId revenueId : ℕ) :
    Tidy packages (s.tie purchaseId entryId revenueId) := by
  refine ⟨⟨fun r hr r' hr' k hk hk' => ?_, fun q hq p hp hpos => ?_, h.counted⟩, h.known⟩
  · obtain ⟨old, hold, rfl⟩ := List.mem_map.mp hr
    obtain ⟨old', hold', rfl⟩ := List.mem_map.mp hr'
    have hcard : ∀ r : Purchase, (if decide (r.id = purchaseId) = true then
        { r with ledgerEntryId := some entryId, revenueRecordId := some revenueId }
        else r).cardId = r.cardId := fun r => by split_ifs <;> rfl
    rw [hcard] at hk hk'
    rw [h.once old hold old' hold' k hk hk']
  · obtain ⟨r, hr, hid, hcard⟩ := h.linked q hq p hp hpos
    refine ⟨_, List.mem_map_of_mem hr, ?_⟩
    split_ifs <;> exact ⟨hid, hcard⟩

end operations

/-- A claim of the offer finds no card, or is refused since another card is reserved, or it finds a
card that came in with the stock and that no purchase has. -/
def Shop.unspoiled (s : Shop) (packageId : ℕ) : Bool :=
  s.cards.rows.any (fun card => card.purchaseId = some reserved) ||
    (s.stock packageId).head?.all fun card =>
      (s.batch card).any Batch.isStock &&
        s.purchases.rows.all fun r => r.cardId ≠ some card.id

def Free (s : Shop) (cardId : ℕ) : Prop := ∀ p, Entitled s p → cardId ∉ p.card

structure Moved (m : Market) (p : Phase) (out : Market × Phase) : Prop where
  tidy : Tidy out.1.packages out.1.shop
  entitled : Entitled out.1.shop out.2
  frame : ∃ touched, Frame m.shop out.1.shop touched ∧
    ∀ cardId ∈ touched, cardId ∈ p.card ∨ Free m.shop cardId
  own : ∀ cardId ∈ out.2.card, cardId ∈ p.card ∨ Free m.shop cardId

section moved
variable {m : Market} {p p' : Phase} {o : Order} {card : Card} {paid : Option ℕ}

theorem Moved.quiet (h : Tidy m.packages m.shop) {m' : Market}
    (hpackages : m'.packages = m.packages) (hshop : m'.shop = m.shop)
    (hentitled : Entitled m.shop p') (hcard : ∀ cardId ∈ p'.card, cardId ∈ p.card) :
    Moved m p (m', p') :=
  ⟨hpackages ▸ hshop ▸ h, hshop ▸ hentitled,
    ⟨none, hshop ▸ .refl _ _, fun _ hk => by cases hk⟩, fun _ hk => .inl (hcard _ hk)⟩

theorem entitled_failed {s : Shop} {held : Option Card} (written : Option ℕ)
    (h : ∀ card ∈ held, Holding s o card.id) : Entitled s (.failed o held written) := by
  unfold Phase.failed
  split_ifs
  · cases held with
    | none => trivial
    | some card => exact h card rfl
  · exact h

theorem card_failed (o : Order) (held : Option Card) (written : Option ℕ) :
    ∀ cardId ∈ (Phase.failed o held written).card, cardId ∈ held.map Card.id := by
  unfold Phase.failed
  split_ifs
  · cases held with
    | none => exact fun _ hk => by cases hk
    | some card => exact fun _ hk => hk
  · exact fun _ hk => hk

theorem Moved.failed (h : Tidy m.packages m.shop) (hholding : Holding m.shop o card.id)
    (hcard : p.card = some card.id) {m' : Market} (hpackages : m'.packages = m.packages)
    (hshop : m'.shop = m.shop) (written : Option ℕ) :
    Moved m p (m', .failed o (some card) written) :=
  .quiet h hpackages hshop (entitled_failed _ fun _ hc => Option.some.inj hc ▸ hholding)
    fun k hk => hcard ▸ card_failed o (some card) written k hk

theorem Moved.failedEmpty (h : Tidy m.packages m.shop) (written : Option ℕ) :
    Moved m p (m, .failed o none written) :=
  .quiet h rfl rfl (entitled_failed _ fun _ hc => by cases hc) fun k hk => by
    cases card_failed o none written k hk

theorem moved_reading (h : Tidy m.packages m.shop) (tenantId : ℤ) (t : Turn) (cardUserId : ℤ)
    (packageId : ℕ) : Moved m p (act tenantId t m (.reading cardUserId packageId)) := by
  have hraised : Moved m p (m, .raised none) := .quiet h rfl rfl trivial fun _ hk => by cases hk
  simp only [act]
  cases m.package packageId with
  | none => exact hraised
  | some package =>
    dsimp only
    split_ifs
    · exact hraised
    · exact .quiet h rfl rfl trivial fun _ hk => by cases hk

theorem moved_opening (h : Tidy m.packages m.shop) (tenantId : ℤ) (t : Turn) (cardUserId : ℤ)
    (package : Package) : Moved m p (act tenantId t m (.opening cardUserId package)) := by
  simp only [act]
  rcases walletOf t.defaultCurrency t.faults tenantId "card_user" cardUserId m.books with
    ⟨found, books⟩
  cases found with
  | none => exact .quiet h rfl rfl trivial fun _ hk => by cases hk
  | some wallet =>
    dsimp only
    split_ifs
    · exact .quiet h rfl rfl trivial fun _ hk => by cases hk
    · exact .quiet h rfl rfl trivial fun _ hk => by cases hk

theorem moved_debiting (h : Tidy m.packages m.shop) (tenantId : ℤ) (t : Turn) (o : Order) :
    Moved m p (act tenantId t m (.debiting o)) := by
  have hobtaining : ∀ m' : Market, ∀ paid, m'.packages = m.packages → m'.shop = m.shop →
      Moved m p (m', match o.package.saleMode with
        | .inventory => .claiming o paid
        | .instant => .housing o paid) := by
    intro m' paid hpackages hshop
    cases hmode : o.package.saleMode with
    | inventory => exact .quiet h hpackages hshop hmode fun _ hk => by cases hk
    | instant => exact .quiet h hpackages hshop hmode fun _ hk => by cases hk
  simp only [act]
  split_ifs
  · exact hobtaining m none rfl rfl
  · rcases perform t.faults.sqlite (changeBalance t.defaultCurrency (debitOf tenantId o))
      m.books with ⟨made, books⟩
    cases made with
    | error e => exact .quiet h rfl rfl trivial fun _ hk => by cases hk
    | ok ids => exact hobtaining _ _ rfl rfl

theorem sellable_spec {s : Shop} {packageId : ℕ} (h : s.sellable packageId card = true) :
    (∃ b, s.batch card = some b ∧ b.packageId = some packageId) ∧ card.purchaseId = none := by
  simp only [Shop.sellable, Bool.and_eq_true, Option.any_eq_true, decide_eq_true_eq,
    Option.isNone_iff_eq_none] at h
  exact ⟨h.1.1.1.1, h.1.1.1.2⟩

theorem stockSold_of_batch {s : Shop} {b : Batch} (card : Card) (hbatch : s.batch card = some b)
    (packageId : ℕ) : s.stockSold packageId card =
      (b.isStock && decide (b.packageId = some packageId) && card.purchaseId.isSome) := by
  simp only [Shop.stockSold, hbatch, Option.any_some]

theorem free_of_stock {s : Shop} {b : Batch} (hcard : card ∈ s.cards.rows)
    (hbatch : s.batch card = some b) (hstock : b.isStock = true)
    (hnone : card.purchaseId = none) : Free s card.id := by
  intro p hp hk
  obtain ⟨o, held, hheld, hid, hfits⟩ := hp.holding hk
  obtain rfl := s.cards.eq_of_key_eq hheld hcard hid
  unfold Fits at hfits
  cases hmode : o.package.saleMode with
  | inventory =>
    simp only [hmode] at hfits
    rw [hnone] at hfits
    cases hfits.2
  | instant =>
    simp only [hmode] at hfits
    obtain ⟨b', hb', hstock'⟩ := hfits
    obtain rfl := Option.some.inj (hb'.symm.trans hbatch)
    rw [hstock] at hstock'
    cases hstock'

theorem moved_claiming (h : Tidy m.packages m.shop) (tenantId : ℤ) (t : Turn)
    (hp : Entitled m.shop (.claiming o paid))
    (hclean : t.raises = false → m.shop.unspoiled o.package.id = true) :
    Moved m (.claiming o paid) (act tenantId t m (.claiming o paid)) := by
  have hmode : o.package.saleMode = .inventory := hp
  simp only [act, Market.claimInventoryCard]
  split_ifs with hraises
  · exact .failedEmpty h none
  · have hclean := hclean (by simpa using hraises)
    cases hhead : (m.shop.stock o.package.id).head? with
    | none => exact .failedEmpty h none
    | some card =>
      obtain ⟨hrow, hsellable⟩ := Table.mem_select.mp (List.mem_of_mem_head? hhead)
      obtain ⟨⟨b, hbatch, hpackage⟩, hnone⟩ := sellable_spec hsellable
      simp only [Shop.link]
      split_ifs with hother
      · exact .failedEmpty h none
      · have hfound : (m.shop.cards.rows.any fun card => card.purchaseId = some reserved) =
            false := by
          simp only [List.any_eq_true, not_exists, not_and, Bool.and_eq_true, decide_eq_true_eq]
            at hother
          refine List.any_eq_false.mpr fun r hr hreserved => ?_
          rw [decide_eq_true_eq] at hreserved
          refine hother r hr (fun hid => ?_) hreserved
          rw [m.shop.cards.eq_of_key_eq hr hrow hid, hnone] at hreserved
          cases hreserved
        simp only [Shop.unspoiled, hfound, Bool.false_or, hhead, Option.all_some, hbatch,
          Option.any_some, Bool.and_eq_true, List.all_eq_true, decide_eq_true_eq] at hclean
        obtain ⟨hstock, hunsold⟩ := hclean
        have hfree := free_of_stock hrow hbatch hstock hnone
        refine ⟨h.updateCards hrow (some reserved) rfl (fun p hp hpos => ?_)
          (fun package' hpackage' => ?_), ⟨⟨{ card with purchaseId := some reserved },
            List.mem_map.mpr ⟨card, hrow, if_pos (decide_eq_true rfl)⟩, rfl, ?_⟩, hunsold⟩,
          ⟨_, frame_updateCards _ card.id _, fun k hk => .inr (Option.some.inj hk ▸ hfree)⟩,
          fun k hk => .inr (Option.some.inj hk ▸ hfree)⟩
        · obtain rfl := Option.some.inj hp
          exact absurd hpos (by decide)
        · obtain ⟨package, hthere, rfl⟩ := List.mem_map.mp hpackage'
          refine ⟨package, hthere, ?_, ?_⟩
          · split_ifs <;> rfl
          · rw [stockSold_of_batch card hbatch,
              stockSold_of_batch { card with purchaseId := some reserved } hbatch]
            simp only [hstock, hpackage, hnone, Option.isSome, Bool.and_false, Bool.toNat_false,
              Bool.and_true, Bool.true_and, Option.some.injEq, decide_eq_true_eq]
            by_cases hid : package.id = o.package.id
            · simp [hid]
            · simp [hid, Ne.symm hid]
        · simp only [Fits, hmode]
          exact ⟨⟨b, hbatch, hstock, hpackage⟩, rfl⟩

theorem moved_housing (h : Tidy m.packages m.shop) (tenantId : ℤ) (t : Turn)
    (hp : Entitled m.shop (.housing o paid)) :
    Moved m (.housing o paid) (act tenantId t m (.housing o paid)) := by
  simp only [act, Shop.storeBatch]
  split_ifs
  · exact .failedEmpty h none
  · cases hfind : m.shop.batches.rows.find? fun b => b.code = .offer o.package.id with
    | some b =>
      refine .quiet h rfl rfl ⟨hp, b, ?_, ?_⟩ fun _ hk => by cases hk
      · exact Table.get?_eq_some.mpr ⟨List.mem_of_find?_eq_some hfind, rfl⟩
      · have hcode := List.find?_some hfind
        simp only [decide_eq_true_eq] at hcode
        rw [Batch.isStock, hcode]
    | none =>
      have hnew : (m.shop.insertBatch (.offer o.package.id)).batches.get? m.shop.batches.next =
          some ⟨m.shop.batches.next, .offer o.package.id, some o.package.id, rfl⟩ := by
        rw [Shop.insertBatch, Table.get?_insert, if_pos rfl]
        rfl
      exact ⟨h.insertBatch _ (fun _ _ hcode => by cases hcode), ⟨hp, _, hnew, rfl⟩,
        ⟨none, frame_insertBatch _ _, fun _ hk => by cases hk⟩, fun _ hk => by cases hk⟩

theorem moved_minting (h : Tidy m.packages m.shop) (tenantId : ℤ) (t : Turn) {batchId : ℕ}
    (hp : Entitled m.shop (.minting o paid batchId)) :
    Moved m (.minting o paid batchId) (act tenantId t m (.minting o paid batchId)) := by
  obtain ⟨hmode, b, hbatch, hstock⟩ := hp
  simp only [act, Shop.addCard]
  split_ifs with hraises hplaced htaken
  · exact .failedEmpty h none
  · exact .failedEmpty h none
  · have hfree : Free m.shop m.shop.cards.next := by
      intro q hq hk
      obtain ⟨o', held, hheld, hid, -⟩ := hq.holding hk
      exact (m.shop.cards.below held hheld).ne hid
    refine ⟨h.insertCard _ _ hplaced,
      ⟨⟨_, List.mem_append_right _ (List.mem_singleton.mpr rfl), rfl, ?_⟩, fun r hr hcard => ?_⟩,
      ⟨none, frame_insertCard _ _ _ hplaced, fun _ hk => by cases hk⟩,
      fun k hk => .inr (Option.some.inj hk ▸ hfree)⟩
    · simp only [Fits, hmode]
      exact ⟨b, hbatch, hstock⟩
    · obtain ⟨card, hthere, hid⟩ := m.shop.bought r hr _ hcard
      exact (m.shop.cards.below card hthere).ne hid
  · exact .failedEmpty h none

theorem moved_recording (h : Tidy m.packages m.shop) (tenantId : ℤ) (t : Turn)
    (hp : Entitled m.shop (.recording o paid card)) :
    Moved m (.recording o paid card) (act tenantId t m (.recording o paid card)) := by
  obtain ⟨hholding, hunsold⟩ := hp
  simp only [act, Market.createPurchase]
  split_ifs with hraises hthere
  · exact .failed h hholding rfl rfl rfl none
  · have hrow : ∀ id, ∀ cardId ∈ (purchaseRow o paid card id).cardId,
        ∃ card ∈ m.shop.cards.rows, card.id = cardId := fun _ _ hk => Option.some.inj hk ▸ hthere
    have hframe := frame_insertPurchase m.shop (purchaseRow o paid card) (fun _ => rfl) hrow
      fun _ => rfl
    refine ⟨h.insertPurchase _ (fun _ => rfl) hrow (fun _ => rfl) hunsold, ⟨?_, ?_⟩,
      ⟨_, hframe, fun k hk => .inl hk⟩, fun k hk => .inl hk⟩
    · obtain ⟨held, hheld, hid, hfits⟩ := hholding
      exact ⟨held, hheld, hid, hfits.frame hframe⟩
    · exact ⟨_, List.mem_append_right _ (List.mem_singleton.mpr rfl), rfl, rfl⟩
  · exact .failed h hholding rfl rfl rfl none

theorem Fits.stockSold {s : Shop} (h : Fits s o card) (purchaseId : ℤ) (packageId : ℕ) :
    s.stockSold packageId { card with purchaseId := some purchaseId } =
      s.stockSold packageId card := by
  unfold Fits at h
  cases hmode : o.package.saleMode with
  | inventory =>
    simp only [hmode] at h
    obtain ⟨⟨b, hbatch, -⟩, hsome⟩ := h
    rw [stockSold_of_batch card hbatch,
      stockSold_of_batch { card with purchaseId := some purchaseId } hbatch, hsome]
    rfl
  | instant =>
    simp only [hmode] at h
    obtain ⟨b, hbatch, hstock⟩ := h
    rw [stockSold_of_batch card hbatch,
      stockSold_of_batch { card with purchaseId := some purchaseId } hbatch, hstock]
    rfl

theorem moved_linking (h : Tidy m.packages m.shop) (tenantId : ℤ) (t : Turn) {purchaseId : ℕ}
    (hp : Entitled m.shop (.linking o card purchaseId)) :
    Moved m (.linking o card purchaseId) (act tenantId t m (.linking o card purchaseId)) := by
  obtain ⟨hholding, row, hrow, hrowid, hrowcard⟩ := hp
  have hfailed : Moved m (.linking o card purchaseId)
      (m, .failed o (some card) (some purchaseId)) := .failed h hholding rfl rfl rfl _
  obtain ⟨held, hheld, hid, hfits⟩ := hholding
  have hown : (Phase.linking o card purchaseId).card = some held.id := congrArg some hid.symm
  have hlinked : ∀ p' : Phase, p'.card = some card.id →
      (Holding (m.shop.updateCards (fun r => r.id = card.id) (some (purchaseId : ℤ))) o card.id →
        Entitled (m.shop.updateCards (fun r => r.id = card.id) (some (purchaseId : ℤ))) p') →
      Moved m (.linking o card purchaseId)
        ({ m with shop := m.shop.updateCards (fun r => r.id = card.id) (some (purchaseId : ℤ)) },
          p') := by
    intro p' hcard hentitled
    rw [← hid] at hentitled hcard hrowcard ⊢
    have hnow : Fits (m.shop.updateCards (fun r => r.id = held.id) (some (purchaseId : ℤ))) o
        { held with purchaseId := some (purchaseId : ℤ) } := by
      unfold Fits at hfits ⊢
      cases hmode : o.package.saleMode with
      | inventory =>
        simp only [hmode] at hfits
        exact ⟨hfits.1, rfl⟩
      | instant =>
        simp only [hmode] at hfits
        exact hfits
    refine ⟨h.updateCards hheld _ rfl (fun p hp _ => ?_) fun package hpackage => ?_,
      hentitled ⟨_, List.mem_map.mpr ⟨held, hheld, if_pos (decide_eq_true rfl)⟩, rfl, hnow⟩,
      ⟨_, frame_updateCards _ held.id _, fun k hk => .inl ?_⟩, fun k hk => .inl ?_⟩
    · obtain rfl := Option.some.inj hp
      exact ⟨row, hrow, congrArg _ hrowid, hrowcard⟩
    · exact ⟨package, hpackage, rfl, by rw [hfits.stockSold]⟩
    · rw [hown]
      exact hk
    · rw [hcard] at hk
      rw [hown]
      exact hk
  simp only [act]
  split_ifs with hraises hfree
  · exact hfailed
  · cases hlink : m.shop.link card.id purchaseId with
    | none => exact hfailed
    | some shop =>
      unfold Shop.link at hlink
      split_ifs at hlink
      cases hlink
      exact hlinked (.announcing o card purchaseId) rfl fun hk => hk
  · cases hlink : m.shop.link card.id purchaseId with
    | none => exact hfailed
    | some shop =>
      unfold Shop.link at hlink
      split_ifs at hlink
      cases hlink
      exact hlinked (.posting o card purchaseId) rfl fun hk => hk

theorem moved_posting (h : Tidy m.packages m.shop) (tenantId : ℤ) (t : Turn) {purchaseId : ℕ}
    (hp : Entitled m.shop (.posting o card purchaseId)) :
    Moved m (.posting o card purchaseId) (act tenantId t m (.posting o card purchaseId)) := by
  have hfailed : ∀ books, Moved m (.posting o card purchaseId)
      ({ m with books }, .failed o (some card) (some purchaseId)) := by
    intro books
    refine .failed h hp ?_ ?_ ?_ _
    · rfl
    · rfl
    · rfl
  simp only [act]
  rcases perform t.faults.sqlite (ledgerWriteEntry (minorToMoney o.package.priceMinor)
    (saleEntry tenantId t.defaultCurrency o card purchaseId)) m.books with ⟨made, books⟩
  cases made with
  | error e => exact hfailed books
  | ok entryId => exact .quiet h rfl rfl hp fun _ hk => hk

theorem moved_earning (h : Tidy m.packages m.shop) (tenantId : ℤ) (t : Turn)
    {purchaseId entryId : ℕ} (hp : Entitled m.shop (.earning o card purchaseId entryId)) :
    Moved m (.earning o card purchaseId entryId)
      (act tenantId t m (.earning o card purchaseId entryId)) := by
  simp only [act]
  split_ifs
  · exact .failed h hp rfl rfl rfl (some purchaseId)
  · exact .quiet h rfl rfl hp fun _ hk => hk

theorem moved_tying (h : Tidy m.packages m.shop) (tenantId : ℤ) (t : Turn)
    {purchaseId entryId revenueId : ℕ}
    (hp : Entitled m.shop (.tying o card purchaseId entryId revenueId)) :
    Moved m (.tying o card purchaseId entryId revenueId)
      (act tenantId t m (.tying o card purchaseId entryId revenueId)) := by
  simp only [act]
  split_ifs
  · exact .failed h hp rfl rfl rfl (some purchaseId)
  · have hframe := frame_tie m.shop purchaseId entryId revenueId
    obtain ⟨held, hheld, hid, hfits⟩ := hp
    exact ⟨h.tie _ _ _, ⟨held, hheld, hid, hfits.frame hframe⟩,
      ⟨none, hframe, fun _ hk => by cases hk⟩, fun k hk => .inl hk⟩

theorem moved_announcing (h : Tidy m.packages m.shop) (tenantId : ℤ) (t : Turn)
    {purchaseId : ℕ} (hp : Entitled m.shop (.announcing o card purchaseId)) :
    Moved m (.announcing o card purchaseId)
      (act tenantId t m (.announcing o card purchaseId)) := by
  simp only [act]
  split_ifs
  · exact .failed h hp rfl rfl rfl (some purchaseId)
  · exact .quiet h rfl rfl trivial fun _ hk => by cases hk

theorem moved_refunding (h : Tidy m.packages m.shop) (tenantId : ℤ) (t : Turn)
    {held : Option Card} {written : Option ℕ} (hp : Entitled m.shop (.refunding o held written)) :
    Moved m (.refunding o held written) (act tenantId t m (.refunding o held written)) := by
  simp only [act]
  cases held with
  | none => exact .quiet h rfl rfl trivial fun _ hk => by cases hk
  | some card => exact .quiet h rfl rfl (hp card rfl) fun _ hk => hk

theorem moved_undoing (h : Tidy m.packages m.shop) (tenantId : ℤ) (t : Turn)
    {written : Option ℕ} (hp : Entitled m.shop (.undoing o card written)) :
    Moved m (.undoing o card written) (act tenantId t m (.undoing o card written)) := by
  obtain ⟨held, hheld, hid, hfits⟩ := hp
  have hown : (Phase.undoing o card written).card = some held.id := congrArg some hid.symm
  simp only [act, Market.releaseInventoryCard, Market.discardMintedCard, Shop.release, ← hid]
  split_ifs
  · exact .quiet h rfl rfl trivial fun _ hk => by cases hk
  · unfold Fits at hfits
    cases hmode : o.package.saleMode with
    | inventory =>
      simp only [hmode] at hfits
      obtain ⟨⟨b, hbatch, hstock, hpackage⟩, hsome⟩ := hfits
      refine ⟨h.updateCards hheld none rfl (fun p hp => by cases hp) fun package' hpackage' => ?_,
        trivial, ⟨_, frame_updateCards _ held.id _, fun k hk => .inl (by rw [hown]; exact hk)⟩,
        fun _ hk => by cases hk⟩
      obtain ⟨package, hthere, rfl⟩ := List.mem_map.mp hpackage'
      refine ⟨package, hthere, ?_, ?_⟩
      · split_ifs <;> rfl
      · have hfree : m.shop.stockSold package.id { held with purchaseId := none } = false := by
          rw [stockSold_of_batch { held with purchaseId := none } hbatch]
          exact Bool.and_false _
        have hin : m.shop.stockSold package.id held = decide (package.id = o.package.id) := by
          rw [stockSold_of_batch held hbatch, hstock, hpackage, hsome]
          simp [eq_comm]
        rw [hfree, hin]
        by_cases hsame : package.id = o.package.id
        · have hpos : 0 < package.inventorySold := h.counted package hthere ▸
            List.countP_pos_iff.mpr ⟨held, hheld, by rw [hin, decide_eq_true hsame]⟩
          simp only [decide_eq_true hsame, if_pos, Bool.toNat_true, Bool.toNat_false]
          omega
        · simp only [decide_eq_false hsame, Bool.false_eq_true, if_false]
    | instant =>
      simp only [hmode] at hfits
      exact ⟨h.deleteCard hheld hfits, trivial,
        ⟨_, frame_deleteCard _ held.id, fun k hk => .inl (by rw [hown]; exact hk)⟩,
        fun _ hk => by cases hk⟩

theorem Moved.stocked {m' : Market} (htidy : Tidy m'.packages m'.shop)
    (hframe : Frame m.shop m'.shop none) (hentitled : Entitled m'.shop p') (hcard : p'.card = none) :
    Moved m p (m', p') :=
  ⟨htidy, hentitled, ⟨none, hframe, fun _ hk => by cases hk⟩, fun _ hk => by rw [hcard] at hk; cases hk⟩

theorem moved_stocking (h : Tidy m.packages m.shop) (tenantId : ℤ) (t : Turn) (packageId : ℕ)
    (stamp : String) (upload : Bool) (usernames : List String) :
    Moved m p (act tenantId t m (.stocking packageId stamp upload usernames)) := by
  have hframe := frame_insertBatch m.shop (.stock packageId stamp)
  have hbatch : ¬(t.raises = true ∨ (m.package packageId).isNone = true ∨ usernames = [] ∨
      5000 < usernames.length ∨ m.shop.batches.rows.any
        (fun b => b.code = .stock packageId stamp) = true) →
      Tidy m.packages (m.shop.insertBatch (.stock packageId stamp)) := by
    intro haccepted
    cases hpackage : m.package packageId with
    | none => exact absurd (.inr (.inl (by rw [hpackage]; rfl))) haccepted
    | some package =>
      obtain ⟨hthere, rfl⟩ := Table.get?_eq_some.mp hpackage
      refine h.insertBatch _ fun _ _ hcode => ?_
      cases hcode
      exact m.packages.below package hthere
  simp only [act]
  split_ifs with hrefused hupload
  · exact .quiet h rfl rfl trivial fun _ hk => by cases hk
  · have hfilled := (hbatch hrefused).fillCards m.shop.batches.next usernames 0
    exact .stocked hfilled.1 (hframe.trans hfilled.2) trivial rfl
  · exact .stocked (hbatch hrefused) hframe trivial rfl

theorem moved_filling (h : Tidy m.packages m.shop) (tenantId : ℤ) (t : Turn)
    (packageId batchId : ℕ) (usernames : List String) (added : ℕ) :
    Moved m p (act tenantId t m (.filling packageId batchId usernames added)) := by
  have hstocked : Moved m p (m, .stocked) := .quiet h rfl rfl trivial fun _ hk => by cases hk
  simp only [act]
  cases usernames with
  | nil => exact .quiet h rfl rfl trivial fun _ hk => by cases hk
  | cons username usernames =>
    dsimp only
    split
    · exact hstocked
    · rename_i shop hadd
      split_ifs
      · exact hstocked
      · exact .stocked (h.addCards hadd).1 (h.addCards hadd).2 trivial rfl

theorem moved_totalling (h : Tidy m.packages m.shop) (tenantId : ℤ) (t : Turn)
    (packageId added : ℕ) : Moved m p (act tenantId t m (.totalling packageId added)) := by
  simp only [act]
  split_ifs
  · exact .quiet h rfl rfl trivial fun _ hk => by cases hk
  · refine .stocked (h.repackaged le_rfl fun package' hpackage' => ?_) (.refl _ _) trivial rfl
    obtain ⟨package, hthere, rfl⟩ := List.mem_map.mp hpackage'
    refine ⟨package, hthere, ?_⟩
    split_ifs <;> exact ⟨rfl, rfl⟩

theorem moved_act (h : Tidy m.packages m.shop) (tenantId : ℤ) (t : Turn)
    (hp : Entitled m.shop p)
    (hclean : ∀ o paid, p = .claiming o paid → t.raises = false →
      m.shop.unspoiled o.package.id = true) : Moved m p (act tenantId t m p) := by
  cases p with
  | reading cardUserId packageId => exact moved_reading h tenantId t cardUserId packageId
  | opening cardUserId package => exact moved_opening h tenantId t cardUserId package
  | debiting o => exact moved_debiting h tenantId t o
  | claiming o paid => exact moved_claiming h tenantId t hp (hclean o paid rfl)
  | housing o paid => exact moved_housing h tenantId t hp
  | minting o paid batchId => exact moved_minting h tenantId t hp
  | recording o paid card => exact moved_recording h tenantId t hp
  | linking o card purchaseId => exact moved_linking h tenantId t hp
  | posting o card purchaseId => exact moved_posting h tenantId t hp
  | earning o card purchaseId entryId => exact moved_earning h tenantId t hp
  | tying o card purchaseId entryId revenueId => exact moved_tying h tenantId t hp
  | announcing o card purchaseId => exact moved_announcing h tenantId t hp
  | refunding o card written => exact moved_refunding h tenantId t hp
  | undoing o card written => exact moved_undoing h tenantId t hp
  | stocking packageId stamp upload usernames =>
    exact moved_stocking h tenantId t packageId stamp upload usernames
  | filling packageId batchId usernames added =>
    exact moved_filling h tenantId t packageId batchId usernames added
  | totalling packageId added => exact moved_totalling h tenantId t packageId added
  | returned purchaseId => exact .quiet h rfl rfl trivial fun _ hk => hk
  | raised written => exact .quiet h rfl rfl trivial fun _ hk => hk
  | stocked => exact .quiet h rfl rfl trivial fun _ hk => hk

end moved

def clean (w : World) : Event → Bool
  | .next c turn =>
    match w.phase c with
    | .claiming o _ => turn.raises || w.market.shop.unspoiled o.package.id
    | _ => true
  | _ => true

structure Fair (w : World) : Prop where
  tidy : Tidy w.market.packages w.market.shop
  entitled : ∀ c, Entitled w.market.shop (w.phase c)
  apart : ∀ c c', ∀ cardId ∈ (w.phase c).card, cardId ∈ (w.phase c').card → c = c'

theorem Fair.initial : Fair .initial := by
  refine ⟨⟨⟨?_, ?_, ?_⟩, ?_⟩, fun _ => trivial, fun _ _ _ h => by cases h⟩
  · exact fun _ hr => by cases hr
  · exact fun _ hr => by cases hr
  · exact fun _ hr => by cases hr
  · exact fun _ hr => by cases hr

section steps
variable {w : World}

theorem Fair.next (h : Fair w) {c : ℕ} {out : Market × Phase}
    (hmoved : Moved w.market (w.phase c) out) :
    Fair { market := out.1, phase := Function.update w.phase c out.2 } := by
  have hforeign : ∀ c', c' ≠ c → ∀ cardId ∈ (w.phase c').card,
      ¬(cardId ∈ (w.phase c).card ∨ Free w.market.shop cardId) := by
    rintro c' hc' cardId hcard (hheld | hfree)
    · exact hc' (h.apart c' c cardId hcard hheld)
    · exact hfree _ (h.entitled c') hcard
  refine ⟨hmoved.tidy, fun c' => ?_, fun c₁ c₂ cardId h₁ h₂ => ?_⟩
  · by_cases hc : c' = c
    · subst hc
      simpa using hmoved.entitled
    · obtain ⟨touched, hframe, htouched⟩ := hmoved.frame
      simp only [Function.update_of_ne hc]
      exact (h.entitled c').frame hframe fun cardId hcard hsame =>
        hforeign c' hc cardId hcard (htouched cardId hsame)
  · by_cases hc₁ : c₁ = c
    · by_cases hc₂ : c₂ = c
      · exact hc₁.trans hc₂.symm
      · subst hc₁
        simp only [Function.update_self, Function.update_of_ne hc₂] at h₁ h₂
        exact absurd (hmoved.own cardId h₁) (hforeign c₂ hc₂ cardId h₂)
    · by_cases hc₂ : c₂ = c
      · subst hc₂
        simp only [Function.update_self, Function.update_of_ne hc₁] at h₁ h₂
        exact absurd (hmoved.own cardId h₂) (hforeign c₁ hc₁ cardId h₁)
      · simp only [Function.update_of_ne hc₁, Function.update_of_ne hc₂] at h₁ h₂
        exact h.apart c₁ c₂ cardId h₁ h₂

theorem Fair.begin (h : Fair w) (c : ℕ) {p : Phase} (hentitled : Entitled w.market.shop p)
    (hcard : p.card = none) : Fair (w.setPhase c p) :=
  have hmoved : Moved w.market (w.phase c) (w.market, p) :=
    .quiet h.tidy rfl rfl hentitled fun _ hk => by
      rw [hcard] at hk
      cases hk
  h.next hmoved

theorem Fair.repackaged (h : Fair w) (packageId : ℕ) (f : Package → Package) (hf)
    (hsold : ∀ p, (f p).inventorySold = p.inventorySold) :
    Fair { w with market := w.market.updatePackage packageId f hf } := by
  refine ⟨h.tidy.repackaged le_rfl fun package' hpackage' => ?_, h.entitled, h.apart⟩
  obtain ⟨package, hthere, rfl⟩ := List.mem_map.mp hpackage'
  refine ⟨package, hthere, ?_⟩
  split_ifs
  · exact ⟨(hf package).symm, hsold package⟩
  · exact ⟨rfl, rfl⟩

theorem Tidy.createPackage {packages : Packages} {s : Shop} (h : Tidy packages s)
    (mk : ℕ → Package) (hmk) (hsold : ∀ id, (mk id).inventorySold = 0) :
    Tidy (packages.insert mk hmk) s := by
  refine ⟨⟨h.once, h.linked, fun package hpackage => ?_⟩, fun b hb hstock packageId hid =>
    (h.known b hb hstock packageId hid).trans (Nat.lt_succ_self _)⟩
  rcases List.mem_append.mp hpackage with hpackage | hpackage
  · exact h.counted package hpackage
  · rw [List.mem_singleton.mp hpackage, hsold, hmk]
    refine (List.countP_eq_zero.mpr fun card hcard hstock => ?_).symm
    simp only [Shop.stockSold, Bool.and_eq_true, Option.any_eq_true, decide_eq_true_eq] at hstock
    obtain ⟨⟨b, hbatch, hisStock, hid⟩, -⟩ := hstock
    exact (h.known b (Table.get?_eq_some.mp hbatch).1 hisStock _ hid).false

theorem Fair.step (h : Fair w) (tenantId : ℤ) (e : Event) (hclean : clean w e = true) :
    Fair (step tenantId w e) := by
  cases e with
  | createPackage priceMinor currency active saleMode =>
    have hnew := h.tidy.createPackage (fun id => { id, priceMinor, currency, active, saleMode })
      (fun _ => rfl) fun _ => rfl
    exact ⟨hnew, h.entitled, h.apart⟩
  | updatePackage packageId priceMinor currency active saleMode =>
    exact h.repackaged packageId _ _ fun _ => rfl
  | setPackageSaleMode packageId saleMode => exact h.repackaged packageId _ _ fun _ => rfl
  | purchase c cardUserId packageId =>
    simp only [CardMarket.step]
    split_ifs
    · exact h.begin c trivial rfl
    · exact h
  | addInventoryStock c packageId stamp upload usernames =>
    simp only [CardMarket.step]
    split_ifs
    · exact h.begin c trivial rfl
    · exact h
  | next c turn =>
    refine h.next (moved_act h.tidy tenantId turn (h.entitled c) fun o paid hphase hraises => ?_)
    simpa only [clean, hphase, hraises, Bool.false_or] using hclean
  | wallet call => exact ⟨h.tidy, h.entitled, h.apart⟩

end steps

/-- Every claim of a run takes a card of the stock that was never sold: then no card is sold
twice. -/
theorem soldOnce_of_clean_claims (tenantId : ℤ) (events : List Event)
    (hclean : Run.Along (fun w e => clean w e = true) (step tenantId) .initial events) :
    let w := Run.run (step tenantId) World.initial events
    SoldOnce w.market.packages w.market.shop :=
  (Run.run_invariant (I := Fair) (fun _ e h hok => h.step tenantId e hok) .initial
    hclean).tidy.toSoldOnce

def recharge (walletId : ℕ) : Movement where
  walletId
  amount := some (.finite false 10 0)
  transactionType := .credit

def twoBuyers (saleMode : SaleMode) : List Event :=
  [.createPackage 500 "ILS" true saleMode,
    .wallet ⟨.createWallet 1 "card_user" (some 7) "", "ILS", {}⟩,
    .wallet ⟨.createWallet 1 "card_user" (some 8) "", "ILS", {}⟩,
    .wallet ⟨.changeBalance (recharge 1), "ILS", {}⟩,
    .wallet ⟨.changeBalance (recharge 2), "ILS", {}⟩]

def oneCard (c : ℕ) : List Event :=
  .addInventoryStock c 1 "20260101000000" true ["2342"] :: List.replicate 2 (.next c {})

def saleFromStock : List Event :=
  twoBuyers .inventory ++ oneCard 3 ++ .purchase 1 7 1 :: List.replicate 10 (.next 1 {})

example : (Run.run (step 1) World.initial saleFromStock).market.shop.purchases.rows.map
    (·.cardUserId) = [7] := by
  decide +kernel

theorem soldOnce_after_sale :
    let w := Run.run (step 1) World.initial saleFromStock
    w.market.shop.cards.rows.map Card.purchaseId = [some 1] ∧
      SoldOnce w.market.packages w.market.shop :=
  ⟨by decide +kernel, soldOnce_of_clean_claims 1 saleFromStock (by decide +kernel)⟩

/-- The first buyer's card is minted but not yet recorded when the offer goes over to its stock; the
second buyer's claim finds it. -/
def saleOfMintedCard : List Event :=
  twoBuyers .instant ++ .purchase 1 7 1 :: List.replicate 5 (.next 1 { username := "481516" }) ++
    .setPackageSaleMode 1 .inventory :: oneCard 3 ++
    .purchase 2 8 1 :: List.replicate 10 (.next 2 {}) ++ List.replicate 6 (.next 1 {})

theorem card_sold_twice :
    ¬∀ events : List Event, SoldOnce (Run.run (step 1) World.initial events).market.packages
      (Run.run (step 1) World.initial events).market.shop := by
  intro h
  have hsold := (h saleOfMintedCard).once
  generalize hrows : (Run.run (step 1) World.initial saleOfMintedCard).market.shop.purchases.rows =
    rows at hsold
  have hcards : rows.map (fun r => (r.cardUserId, r.cardId)) = [(8, some 1), (7, some 1)] := by
    rw [← hrows]
    decide +kernel
  obtain ⟨r, rest, rfl, hr, hrest⟩ := List.map_eq_cons_iff.mp hcards
  obtain ⟨r', rest', rfl, hr', -⟩ := List.map_eq_cons_iff.mp hrest
  rw [Prod.mk.injEq] at hr hr'
  have hsame := hsold r (by simp) r' (by simp) 1 hr.2 hr'.2
  rw [← hsame, hr.1] at hr'
  exact absurd hr'.1 (by decide)

end RadiusModule.CardMarket
