import RadiusModule.Services.PolicyEngine.LoginStamp

/-!
# Time granted to a card

`grant_card_time` adds to the card's extra seconds, starts an ended window
anew and writes the end of the window to the card and to its account. Its own
budget is the one of the batch alone. One call reads the clock once, as
`now`; `limit` is the first instant that no expiry may have.
-/

namespace RadiusModule.CardTime
open Library CardAccounting CardBatchFlags PolicyEngine

def ofMirror (tenantId : ℤ) (username : String) (s : Subscriber) : Bool :=
  s.tenantId = tenantId && s.userType = .card && s.username = username

def cardById (db : Db) (tenantId : ℤ) (id : ℕ) : Option Card :=
  db.cards.find? (ofCardId tenantId id)

def writeEnd (db : Db) (tenantId : ℤ) (id : ℕ) (username : String) (stamp : Stamp) : Db :=
  (db.updateCards (ofCardId tenantId id) fun c => { c with expireAt := stamp }).updateSubscribers
    (ofMirror tenantId username) fun s => { s with expireAt := stamp }

inductive Ending
  | keep
  | clear
  | set (t : ℤ)

structure Write where
  extra : ℤ
  first : Option ℤ
  ending : Ending
  exhausted : Bool

inductive TimeError
  | expiryTooFar

structure GrantReport where
  grantedSeconds : ℤ
  extraSecondsOld : ℤ
  extraSecondsNew : ℤ
  remainingBefore : ℤ
  remainingAfter : ℤ
  expireAtOld : Stamp
  expireAtNew : Stamp
  exhausted : Bool
  baseBudget : ℤ
  budgetAfter : ℤ

section

variable (now : ℤ) (mode : Mode) (base : ℤ) (card : Card) (delta : ℤ)

/-- `base_budget`: that of the batch, without the plan. -/
def baseBudget (batch : Option CardBatch) : ℤ := (batch.map fun b => cardBudget b none).getD 0

def modeOf (batch : Option CardBatch) : Mode :=
  if batch.any CardBatch.countFromFirstConnect then .fromFirstConnect else .bySeconds

/-- `new_first`: a window that has ended starts anew, so that it would end now. -/
def newFirst : Option ℤ :=
  match mode, card.firstUsedAt.time? with
  | .fromFirstConnect, some first =>
    if 0 < delta ∧ afterSeconds first (base + card.extraSeconds) ≤ now then
      some (afterSeconds now (-(base + card.extraSeconds)))
    else none
  | _, _ => none

def newExtra : ℤ := max (card.extraSeconds + delta) (-base)

def shiftedEnd : Ending :=
  match card.expireAt.time? with
  | some e => .set (afterSeconds (if 0 < delta then max e now else e) delta)
  | none => .keep

def newEnding : Ending :=
  if isExhausted base (newExtra base card delta) then .set (afterSeconds now (-1))
  else match mode, (newFirst now mode base card delta).or card.firstUsedAt.time? with
    | .fromFirstConnect, some first =>
      .set (afterSeconds first (base + newExtra base card delta))
    | .fromFirstConnect, none =>
      -- the mark of a deduction that used the card up is taken off
      if isExhausted base card.extraSeconds && !card.expireAt.isOpen then .clear
      else shiftedEnd now card delta
    | .bySeconds, _ => shiftedEnd now card delta

def grantWrite : Write where
  extra := newExtra base card delta
  first := newFirst now mode base card delta
  ending := newEnding now mode base card delta
  exhausted := isExhausted base (newExtra base card delta)

def shownLeft (first : Option ℤ) (extra : ℤ) : ℤ :=
  if isExhausted base extra then 0
  else (remainingSeconds mode (base + extra) now first 0 card.expireAt.time?).getD 0

def grantReport (w : Write) : GrantReport where
  grantedSeconds := delta
  extraSecondsOld := card.extraSeconds
  extraSecondsNew := w.extra
  remainingBefore := shownLeft now mode base card card.firstUsedAt.time? card.extraSeconds
  remainingAfter := shownLeft now mode base card (w.first.or card.firstUsedAt.time?) w.extra
  expireAtOld := card.expireAt
  expireAtNew := match w.ending with
    | .keep => card.expireAt
    | .clear => .null
    | .set t => .instant t
  exhausted := w.exhausted
  baseBudget := base
  budgetAfter := if 0 < base then max 0 (base + w.extra) else 0

end

def Write.potential (w : Write) (now base : ℤ) : ℤ :=
  match w.ending with
  | .set t => t
  | _ => afterSeconds now (max 0 (base + w.extra))

def Write.apply (w : Write) (db : Db) (tenantId : ℤ) (id : ℕ) (username : String) : Db :=
  let granted := db.updateCards (ofCardId tenantId id) fun c =>
    { c with
      extraSeconds := w.extra
      firstUsedAt := (w.first.map Stamp.instant).getD c.firstUsedAt }
  match w.ending with
  | .keep => granted
  | .clear => writeEnd granted tenantId id username .null
  | .set t => writeEnd granted tenantId id username (.instant t)

/-- `grant_card_time`; no report stands for `None`. -/
def grantCardTime (db : Db) (now limit tenantId : ℤ) (id : ℕ) (delta : ℤ) :
    Except TimeError (Db × Option GrantReport) :=
  match cardById db tenantId id with
  | none => .ok (db, none)
  | some card =>
    let batch := db.batch tenantId card.batchId
    let base := baseBudget batch
    let w := grantWrite now (modeOf batch) base card delta
    if delta = 0 then .ok (db, none)
    else if !w.exhausted && 0 < delta && limit ≤ w.potential now base then .error .expiryTooFar
    else .ok (w.apply db tenantId id card.username,
      some (grantReport now (modeOf batch) base card delta w))

def granted (db : Db) (now limit : ℤ) (card : Card) (delta : ℤ) : Option Db :=
  match grantCardTime db now limit card.tenantId card.id delta with
  | .ok (db', some _) => some db'
  | _ => none

theorem grantWrite_open {now base delta : ℤ} {mode : Mode} {card : Card}
    (hstart : mode = .bySeconds ∨ card.firstUsedAt.time? = none) (hend : card.expireAt = .null)
    (hused : isExhausted base (newExtra base card delta) = false) :
    grantWrite now mode base card delta = ⟨newExtra base card delta, none, .keep, false⟩ := by
  have hshift : shiftedEnd now card delta = .keep := by rw [shiftedEnd, hend]; rfl
  have hfirst : newFirst now mode base card delta = none := by
    obtain rfl | hnone := hstart
    · rfl
    · cases mode <;> simp only [newFirst, hnone]
  have hending : newEnding now mode base card delta = .keep := by
    simp only [newEnding, hused, hfirst, Option.none_or, Bool.false_eq_true, if_false, hshift, hend]
    obtain rfl | hnone := hstart
    · rfl
    · rw [hnone]
      cases mode <;> simp [Stamp.isOpen]
  rw [grantWrite, hending, hfirst, hused]

theorem ofSubscriber_of_mirror {tenantId : ℤ} {username : String} {s : Subscriber}
    (h : ofMirror tenantId username s = true) : ofSubscriber tenantId username s = true := by
  simp only [ofMirror, Bool.and_eq_true] at h
  simp only [ofSubscriber, Bool.and_eq_true]
  exact ⟨h.1.1, h.2⟩

theorem updateCards_updateCards (db : Db) {p : Card → Bool} {f g : Card → Card}
    (h : ∀ c, p (f c) = p c) :
    (db.updateCards p f).updateCards p g = db.updateCards p fun c => g (f c) := by
  simp only [Db.updateCards, List.map_map]
  congr 1
  refine List.map_congr_left fun c _ => ?_
  simp only [Function.comp]
  cases hp : p c <;> simp [h, hp]

theorem updateSubscribers_updateSubscribers (db : Db) {p : Subscriber → Bool}
    {f g : Subscriber → Subscriber} (h : ∀ s, p (f s) = p s) :
    (db.updateSubscribers p f).updateSubscribers p g = db.updateSubscribers p fun s => g (f s) := by
  simp only [Db.updateSubscribers, List.map_map]
  congr 1
  refine List.map_congr_left fun s _ => ?_
  simp only [Function.comp]
  cases hp : p s <;> simp [h, hp]

theorem updateSubscribers_self (db : Db) (p : Subscriber → Bool) :
    (db.updateSubscribers p fun s => s) = db := by
  simp [Db.updateSubscribers]

theorem updateSubscribers_updateCards (db : Db) (p : Card → Bool) (f : Card → Card)
    (q : Subscriber → Bool) (g : Subscriber → Subscriber) :
    (db.updateSubscribers q g).updateCards p f = (db.updateCards p f).updateSubscribers q g := rfl

def Ending.stamp (old : Stamp) : Ending → Stamp
  | .keep => old
  | .clear => .null
  | .set t => .instant t

def Write.row (w : Write) (c : Card) : Card :=
  { c with
    extraSeconds := w.extra
    firstUsedAt := (w.first.map Stamp.instant).getD c.firstUsedAt
    expireAt := w.ending.stamp c.expireAt }

def Write.account (w : Write) (s : Subscriber) : Subscriber :=
  { s with expireAt := w.ending.stamp s.expireAt }

section

variable (w : Write) (db : Db) (tenantId : ℤ) (id : ℕ) (username : String)

theorem apply_eq : w.apply db tenantId id username =
    (db.updateCards (ofCardId tenantId id) w.row).updateSubscribers (ofMirror tenantId username)
      w.account := by
  have hcards : ∀ stamp : Stamp, (db.updateCards (ofCardId tenantId id) fun c =>
      { c with
        extraSeconds := w.extra
        firstUsedAt := (w.first.map Stamp.instant).getD c.firstUsedAt }).updateCards
        (ofCardId tenantId id) (fun c => { c with expireAt := stamp }) =
      db.updateCards (ofCardId tenantId id) fun c =>
        { c with
          extraSeconds := w.extra
          firstUsedAt := (w.first.map Stamp.instant).getD c.firstUsedAt
          expireAt := stamp } := fun stamp =>
    updateCards_updateCards db fun _ => rfl
  unfold Write.apply Write.row Write.account
  cases w.ending with
  | keep => exact (updateSubscribers_self _ _).symm
  | clear =>
    simp only [writeEnd, hcards]
    rfl
  | set t =>
    simp only [writeEnd, hcards]
    rfl

def Write.after (w w' : Write) : Write where
  extra := w'.extra
  first := w'.first.or w.first
  ending := match w'.ending with
    | .keep => w.ending
    | ending => ending
  exhausted := w'.exhausted

theorem apply_apply (w' : Write) :
    w'.apply (w.apply db tenantId id username) tenantId id username =
      (w.after w').apply db tenantId id username := by
  have hrow : ∀ c, w'.row (w.row c) = (w.after w').row c := by
    intro c
    unfold Write.row Write.after
    cases w'.first <;> cases w'.ending <;> rfl
  have haccount : ∀ s, w'.account (w.account s) = (w.after w').account s := by
    intro s
    unfold Write.account Write.after
    cases w'.ending <;> rfl
  have hkeys : ∀ c, ofCardId tenantId id (w.row c) = ofCardId tenantId id c := fun _ => rfl
  have hnames : ∀ s, ofMirror tenantId username (w.account s) = ofMirror tenantId username s :=
    fun _ => rfl
  rw [apply_eq, apply_eq, apply_eq, updateSubscribers_updateCards,
    updateCards_updateCards db hkeys, updateSubscribers_updateSubscribers _ hnames]
  simp only [hrow, haccount]

end

section

variable {db : Db} (w : Write)

theorem cardById_updateCards (db : Db) {tenantId : ℤ} {id : ℕ} {f : Card → Card}
    (hf : ∀ c, ofCardId tenantId id (f c) = ofCardId tenantId id c) :
    cardById (db.updateCards (ofCardId tenantId id) f) tenantId id =
      (cardById db tenantId id).map f := by
  have hkey : (ofCardId tenantId id ∘ fun c =>
      if ofCardId tenantId id c = true then f c else c) = ofCardId tenantId id := by
    funext c
    simp only [Function.comp]
    split_ifs
    · exact hf c
    · rfl
  simp only [cardById, Db.updateCards, List.find?_map, hkey]
  cases h : db.cards.find? (ofCardId tenantId id) with
  | none => rfl
  | some c => rw [Option.map_some, Option.map_some, if_pos (List.find?_some h)]

theorem cardById_apply {tenantId : ℤ} {id : ℕ} (username : String) {c : Card}
    (h : cardById db tenantId id = some c) :
    cardById (w.apply db tenantId id username) tenantId id = some (w.row c) := by
  rw [apply_eq]
  refine (cardById_updateCards db (f := w.row) fun _ => rfl).trans ?_
  rw [h, Option.map_some]

theorem card_apply {tenantId : ℤ} {username : String} {c : Card}
    (h : db.card tenantId username = some c) :
    (w.apply db tenantId c.id username).card tenantId username = some (w.row c) := by
  have hself : ofCardId tenantId c.id c = true := by simp [ofCardId, (Db.card_found h).1]
  rw [apply_eq, Db.card_updateSubscribers, Db.card_updateCards_of h (f := w.row) fun _ => ⟨rfl, rfl⟩,
    if_pos hself]

end

end RadiusModule.CardTime
