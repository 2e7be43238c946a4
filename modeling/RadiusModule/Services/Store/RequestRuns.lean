import RadiusModule.Services.Store.Requests

/-!
# The life of a request

A request waits, is held by one call that has claimed it, settled with its one
movement, or closed without any. Every step of the services moves a request
along these stages, and the last two are final.
-/

namespace RadiusModule.Store
open Library Connection BusinessOs

inductive Stage
  | absent
  | waiting
  | held (c : ℕ)
  | settled (status : Status)
  | closed

namespace Stage

inductive Step : Stage → Stage → Prop
  | stay (a : Stage) : Step a a
  | create : Step absent waiting
  | claim (c : ℕ) : Step waiting (held c)
  | putBack (c : ℕ) : Step (held c) waiting
  | move (c : ℕ) (status : Status) : Step (held c) (settled status)
  | reject : Step waiting closed

def Final : Stage → Prop
  | settled _ => True
  | closed => True
  | _ => False

theorem Step.eq_of_final {a b : Stage} (h : Step a b) (ha : a.Final) : b = a := by
  cases h with
  | stay => rfl
  | create => cases ha
  | claim c => cases ha
  | putBack c => cases ha
  | move c status => cases ha
  | reject => cases ha

end Stage

def movements (b : Books) (desk : Desk) (id : ℕ) : List WalletTransaction :=
  b.transactions.select fun t =>
    t.referenceType = desk.referenceType && t.referenceId = some (id : ℤ)

def Phase.Holds (desk : Desk) (id : ℕ) : Phase → Prop
  | .opening desk' _ id' _ _ _ => desk' = desk ∧ id' = id
  | .moving desk' _ id' _ _ _ => desk' = desk ∧ id' = id
  | .compensating desk' _ id' => desk' = desk ∧ id' = id
  | _ => False

def Phase.Carries (desk : Desk) (r : Request) : Phase → Prop
  | .opening _ tenantId _ _ _ amountMinor =>
    tenantId = r.tenantId ∧ desk.settled r = some amountMinor
  | .moving _ tenantId _ _ amountMinor _ =>
    tenantId = r.tenantId ∧ desk.settled r = some amountMinor
  | .compensating _ tenantId _ => tenantId = r.tenantId
  | _ => False

def CallsOther (desk : Desk) (id : ℕ) (call : Call) : Prop :=
  match call.op with
  | .changeBalance m => ¬(m.referenceType = desk.referenceType ∧ m.referenceId = some (id : ℤ))
  | .createWallet _ _ _ _ => True

def Event.Other (desk : Desk) (id : ℕ) : Event → Prop
  | .wallet call => CallsOther desk id call
  | _ => True

def Desk.Resolved : Desk → Status → Prop
  | .deposit, status => status = .confirmed ∨ status = .adjusted
  | .withdrawal, status => status = .confirmed

theorem Desk.not_resolved_pending (desk : Desk) : ¬desk.Resolved .pending := by
  cases desk <;> simp [Desk.Resolved]

theorem Desk.not_resolved_rejected (desk : Desk) : ¬desk.Resolved .rejected := by
  cases desk <;> simp [Desk.Resolved]

section
variable (lone : Prop) (desk : Desk) (id : ℕ) (w : World)

def Nobody : Prop := ∀ c, ¬(w.phase c).Holds desk id

/-- The row, the movements and the calls under way agree on the stage of a request. The movements
do so only as long as no one else uses its reference. -/
def At : Stage → Prop
  | .absent => w.request desk id = none ∧ (lone → movements w.books desk id = []) ∧
    Nobody desk id w
  | .waiting => (∃ r, w.request desk id = some r ∧ r.status = .pending) ∧
    (lone → movements w.books desk id = []) ∧ Nobody desk id w
  | .held c => (∃ r, w.request desk id = some r ∧ desk.Resolved r.status ∧
      (w.phase c).Carries desk r) ∧ (lone → movements w.books desk id = []) ∧
    (w.phase c).Holds desk id ∧ ∀ c', (w.phase c').Holds desk id → c' = c
  | .settled status => (∃ r, w.request desk id = some r ∧ r.status = status ∧
      desk.Resolved status ∧
      (lone → ∃ t, movements w.books desk id = [t] ∧
        t.transactionType = desk.transactionType ∧ desk.settled r = some t.amountMinor)) ∧
    Nobody desk id w
  | .closed => (∃ r, w.request desk id = some r ∧ r.status = .rejected) ∧
    (lone → movements w.books desk id = []) ∧ Nobody desk id w

def ClaimsAsked : Prop :=
  ∀ c desk tenantId id cardUserId status amountMinor,
    w.phase c = .claiming desk tenantId id cardUserId status amountMinor →
      desk.Resolved status ∧ (desk = .withdrawal →
        ∃ r, w.request desk id = some r ∧ r.amountMinor = amountMinor)

end

section
variable {lone : Prop} {desk : Desk} {id : ℕ} {w w' : World} {a : Stage}

/-- A step that leaves the movements and the holders of a request alone, and changes of its row
at most what the stage does not look at. -/
theorem At.frame (h : At lone desk id w a) (f : Request → Request)
    (hf : ∀ r, (f r).status = r.status ∧ (f r).tenantId = r.tenantId ∧
      desk.settled (f r) = desk.settled r)
    (hrequest : w'.request desk id = (w.request desk id).map f)
    (hmovements : lone → movements w'.books desk id = movements w.books desk id)
    (hnew : ∀ c, (w'.phase c).Holds desk id → w'.phase c = w.phase c)
    (hold : ∀ c, (w.phase c).Holds desk id → w'.phase c = w.phase c) : At lone desk id w' a := by
  have hnobody : Nobody desk id w → Nobody desk id w' := fun hn c hc => hn c (hnew c hc ▸ hc)
  cases a with
  | absent =>
    obtain ⟨hr, hm, hn⟩ := h
    exact ⟨by rw [hrequest, hr, Option.map_none], fun hl => (hmovements hl).trans (hm hl), hnobody hn⟩
  | waiting =>
    obtain ⟨⟨r, hr, hstatus⟩, hm, hn⟩ := h
    exact ⟨⟨f r, by rw [hrequest, hr, Option.map_some], (hf r).1.trans hstatus⟩,
      fun hl => (hmovements hl).trans (hm hl), hnobody hn⟩
  | held c =>
    obtain ⟨⟨r, hr, hstatus, hcarries⟩, hm, hholds, halone⟩ := h
    have hsame := hold c hholds
    refine ⟨⟨f r, by rw [hrequest, hr, Option.map_some], (hf r).1 ▸ hstatus, ?_⟩,
      fun hl => (hmovements hl).trans (hm hl), hsame ▸ hholds, fun c' hc' => halone c' (hnew c' hc' ▸ hc')⟩
    rw [hsame]
    cases hphase : w.phase c <;> rw [hphase] at hcarries <;>
      simp_all [Phase.Carries]
  | settled status =>
    obtain ⟨⟨r, hr, hstatus, hresolved, hm⟩, hn⟩ := h
    refine ⟨⟨f r, by rw [hrequest, hr, Option.map_some], (hf r).1.trans hstatus, hresolved,
      fun hl => ?_⟩, hnobody hn⟩
    obtain ⟨t, ht, htype, hamount⟩ := hm hl
    exact ⟨t, (hmovements hl).trans ht, htype, (hf r).2.2.trans hamount⟩
  | closed =>
    obtain ⟨⟨r, hr, hstatus⟩, hm, hn⟩ := h
    exact ⟨⟨f r, by rw [hrequest, hr, Option.map_some], (hf r).1.trans hstatus⟩,
      fun hl => (hmovements hl).trans (hm hl), hnobody hn⟩

theorem At.same (h : At lone desk id w a) (hrequest : w'.request desk id = w.request desk id)
    (hmovements : movements w'.books desk id = movements w.books desk id)
    (hnew : ∀ c, (w'.phase c).Holds desk id → w'.phase c = w.phase c)
    (hold : ∀ c, (w.phase c).Holds desk id → w'.phase c = w.phase c) : At lone desk id w' a :=
  h.frame (fun r => r) (fun _ => ⟨rfl, rfl, rfl⟩) (by simpa using hrequest)
    (fun _ => hmovements) hnew hold

theorem At.of_holds (h : At lone desk id w a) {c : ℕ} (hc : (w.phase c).Holds desk id) :
    a = .held c := by
  cases a with
  | absent => exact absurd hc (h.2.2 c)
  | waiting => exact absurd hc (h.2.2 c)
  | held c' => rw [h.2.2.2 c hc]
  | settled status => exact absurd hc (h.2 c)
  | closed => exact absurd hc (h.2.2 c)

theorem At.of_absent (h : At lone desk id w a) (hr : w.request desk id = none) : a = .absent := by
  have hpresent : ∀ r, w.request desk id ≠ some r := by simp [hr]
  cases a with
  | absent => rfl
  | waiting =>
    obtain ⟨⟨r, hr, -⟩, -⟩ := h
    exact absurd hr (hpresent r)
  | held c =>
    obtain ⟨⟨r, hr, -⟩, -⟩ := h
    exact absurd hr (hpresent r)
  | settled status =>
    obtain ⟨⟨r, hr, -⟩, -⟩ := h
    exact absurd hr (hpresent r)
  | closed =>
    obtain ⟨⟨r, hr, -⟩, -⟩ := h
    exact absurd hr (hpresent r)

theorem At.of_pending (h : At lone desk id w a) {r : Request} (hr : w.request desk id = some r)
    (hpending : r.status = .pending) : a = .waiting := by
  have hunresolved := desk.not_resolved_pending
  cases a with
  | absent =>
    rw [h.1] at hr
    cases hr
  | waiting => rfl
  | held c =>
    obtain ⟨⟨q, hq, hresolved, -⟩, -⟩ := h
    rw [hq] at hr
    obtain rfl := Option.some.inj hr
    exact absurd (hpending ▸ hresolved) hunresolved
  | settled status =>
    obtain ⟨⟨q, hq, hstatus, hresolved, -⟩, -⟩ := h
    rw [hq] at hr
    obtain rfl := Option.some.inj hr
    rw [hpending] at hstatus
    exact absurd (hstatus ▸ hresolved) hunresolved
  | closed =>
    obtain ⟨⟨q, hq, hstatus⟩, -⟩ := h
    rw [hq] at hr
    obtain rfl := Option.some.inj hr
    rw [hpending] at hstatus
    cases hstatus

section phase
variable {c : ℕ} {p : Phase}

theorem At.quiet (h : At lone desk id w a) (f : Request → Request)
    (hf : ∀ r, (f r).status = r.status ∧ (f r).tenantId = r.tenantId ∧
      desk.settled (f r) = desk.settled r)
    (hphase : w'.phase = Function.update w.phase c p) (hc : ¬(w.phase c).Holds desk id)
    (hp : ¬p.Holds desk id) (hrequest : w'.request desk id = (w.request desk id).map f)
    (hmovements : movements w'.books desk id = movements w.books desk id) :
    At lone desk id w' a := by
  refine h.frame f hf hrequest (fun _ => hmovements) (fun c' hc' => ?_) fun c' hc' => ?_
  · by_cases hsame : c' = c
    · subst hsame
      rw [hphase, Function.update_self] at hc'
      exact absurd hc' hp
    · rw [hphase, Function.update_of_ne hsame]
  · by_cases hsame : c' = c
    · exact absurd (hsame ▸ hc') hc
    · rw [hphase, Function.update_of_ne hsame]

theorem nobody_of_letGo (h : ∀ c', (w.phase c').Holds desk id → c' = c)
    (hphase : w'.phase = Function.update w.phase c p) (hp : ¬p.Holds desk id) :
    Nobody desk id w' := by
  intro c' hc'
  by_cases hsame : c' = c
  · subst hsame
    rw [hphase, Function.update_self] at hc'
    exact hp hc'
  · rw [hphase, Function.update_of_ne hsame] at hc'
    exact hsame (h c' hc')

theorem At.holdOn (h : At lone desk id w (.held c)) (hphase : w'.phase = Function.update w.phase c p)
    (hp : p.Holds desk id) (hcarries : ∀ r, (w.phase c).Carries desk r → p.Carries desk r)
    (hrequest : w'.request desk id = w.request desk id)
    (hmovements : movements w'.books desk id = movements w.books desk id) :
    At lone desk id w' (.held c) := by
  obtain ⟨⟨r, hr, hresolved, hrow⟩, hm, -, halone⟩ := h
  have hself : w'.phase c = p := by rw [hphase, Function.update_self]
  refine ⟨⟨r, hrequest.trans hr, hresolved, hself ▸ hcarries r hrow⟩, fun hl => hmovements.trans (hm hl),
    hself ▸ hp, fun c' hc' => ?_⟩
  by_contra hsame
  rw [hphase, Function.update_of_ne hsame] at hc'
  exact hsame (halone c' hc')

end phase

theorem request_updateRequests (w : World) (desk desk' : Desk) (id : ℕ) (p : Request → Bool)
    (f : Request → Request) (hf) :
    (w.updateRequests desk' p f hf).request desk id =
      if desk = desk' then (w.request desk id).map fun r => if p r then f r else r
      else w.request desk id := by
  by_cases hdesk : desk = desk'
  · subst hdesk
    simp only [World.request, World.updateRequests, World.setRequests, Function.update_self,
      if_true, Table.get?_update]
  · simp only [World.request, World.updateRequests, World.setRequests, ne_eq, hdesk,
      not_false_eq_true, Function.update_of_ne, if_false]

theorem request_insert (w : World) (desk desk' : Desk) (id : ℕ) (mk : ℕ → Request) (hmk) :
    (w.setRequests desk' ((w.requests desk').insert mk hmk)).request desk id =
      if desk = desk' ∧ id = (w.requests desk').next then some (mk id)
      else w.request desk id := by
  by_cases hdesk : desk = desk'
  · subst hdesk
    simp only [World.request, World.setRequests, Function.update_self, Table.get?_insert,
      true_and]
    split_ifs with hid
    · rw [hid]
    · rfl
  · simp only [World.request, World.setRequests, ne_eq, hdesk, not_false_eq_true,
      Function.update_of_ne, false_and, if_false]

theorem referenceType_injective : Function.Injective Desk.referenceType := by
  intro desk desk' h
  cases desk <;> cases desk' <;> first | rfl | exact absurd h (by decide)

theorem movements_moved (desk : Desk) (id : ℕ) (b : Books) (defaultCurrency : String) (m : Movement) (found : Wallet)
    (amountMinor : ℤ) :
    movements (b.moved defaultCurrency m found amountMinor) desk id = movements b desk id ++
      if m.referenceType = desk.referenceType ∧ m.referenceId = some (id : ℤ) then
        [{ movementRow m amountMinor found.balanceMinor (textOr found.currency defaultCurrency)
          with id := b.transactions.next }]
      else [] := by
  simp only [movements, Books.moved, Books.recordEvent, Books.insertEntry,
    Books.insertTransaction, Books.updateBalance, Table.select_insert, movementRow,
    Bool.and_eq_true, decide_eq_true_eq]

theorem movements_step (b : Books) (call : Call) (hother : CallsOther desk id call) :
    movements (BusinessOs.step b call) desk id = movements b desk id := by
  rcases call with ⟨op, defaultCurrency, faults⟩
  cases op with
  | createWallet tenantId ownerType ownerId currency =>
    rcases perform_createWallet faults defaultCurrency tenantId ownerType ownerId currency b with
      ⟨_, herror⟩ | ⟨_, hmade⟩
    · simp only [BusinessOs.step, Call.perform, herror]
    · simp only [BusinessOs.step, Call.perform, hmade]
      rfl
  | changeBalance m =>
    rcases perform_changeBalance faults defaultCurrency m b with
      ⟨_, herror⟩ | ⟨amount, found, _, _, _, hmade⟩
    · simp only [BusinessOs.step, Call.perform, herror]
    · simp only [BusinessOs.step, Call.perform, hmade]
      rw [movements_moved, if_neg hother, List.append_nil]

theorem movements_wallet (desk : Desk) (id : ℕ) (defaultCurrency : String) (faults : Faults) (tenantId cardUserId : ℤ)
    (b : Books) :
    movements (wallet defaultCurrency faults tenantId cardUserId b).2 desk id =
      movements b desk id := by
  rw [movements, wallet, transactions_walletOf]
  rfl

theorem request_id {r : Request} (h : w.request desk id = some r) : r.id = id :=
  (Table.get?_eq_some.mp h).2

theorem get_eq_some {tenantId : ℤ} {r : Request} :
    w.get desk tenantId id = some r ↔ w.request desk id = some r ∧ r.tenantId = tenantId := by
  simp only [World.get, Option.filter_eq_some_iff, decide_eq_true_eq]

section update
variable {desk' : Desk} {id' : ℕ} {p : Request → Bool} {f : Request → Request}
  {hf : ∀ r, (f r).id = r.id}

theorem request_updateRequests_other (hp : ∀ r, p r = true → r.id = id')
    (hother : ¬(desk' = desk ∧ id' = id)) :
    (w.updateRequests desk' p f hf).request desk id = w.request desk id := by
  rw [request_updateRequests]
  split_ifs with hdesk
  · cases hr : w.request desk id with
    | none => rfl
    | some r =>
      rw [Option.map_some, if_neg fun hpr => hother ⟨hdesk.symm, ?_⟩]
      rw [← hp r hpr, request_id hr]
  · rfl

theorem request_updateRequests_hit {r : Request} (hr : w.request desk id = some r)
    (hp : p r = true) : (w.updateRequests desk p f hf).request desk id = some (f r) := by
  rw [request_updateRequests, if_pos rfl, hr, Option.map_some, if_pos hp]

theorem request_updateRequests_miss (hp : ∀ r, w.request desk id = some r → p r = false) :
    (w.updateRequests desk p f hf).request desk id = w.request desk id := by
  rw [request_updateRequests, if_pos rfl]
  cases hr : w.request desk id with
  | none => rfl
  | some r => rw [Option.map_some, hp r hr, if_neg Bool.false_ne_true]

end update

theorem ofRequest_id {tenantId : ℤ} {r : Request} (h : ofRequest tenantId id r = true) :
    r.id = id := by
  simp only [ofRequest, Bool.and_eq_true, decide_eq_true_eq] at h
  exact h.2

theorem pendingOf_id {tenantId : ℤ} {r : Request} (h : pendingOf tenantId id r = true) :
    r.id = id := by
  simp only [pendingOf, Bool.and_eq_true] at h
  exact ofRequest_id h.1

theorem pendingOf_iff {tenantId : ℤ} {r : Request} (hr : w.request desk id = some r) :
    pendingOf tenantId id r = true ↔ r.tenantId = tenantId ∧ r.status = .pending := by
  simp only [pendingOf, ofRequest, Bool.and_eq_true, decide_eq_true_eq, request_id hr, and_true]

theorem at_insert (h : At lone desk id w a) (desk' : Desk) (mk : ℕ → Request)
    (hmk : ∀ n, (mk n).id = n) (hpending : ∀ n, (mk n).status = .pending) :
    ∃ a', At lone desk id (w.setRequests desk' ((w.requests desk').insert mk hmk)) a' ∧
      Stage.Step a a' := by
  have hrequest := request_insert w desk desk' id mk hmk
  by_cases hnew : desk = desk' ∧ id = (w.requests desk').next
  · rw [if_pos hnew] at hrequest
    obtain ⟨rfl, rfl⟩ := hnew
    obtain rfl := h.of_absent (Table.get?_next _)
    exact ⟨.waiting, ⟨⟨_, hrequest, hpending _⟩, h.2.1, h.2.2⟩, .create⟩
  · rw [if_neg hnew] at hrequest
    exact ⟨a, h.same hrequest rfl (fun _ _ => rfl) fun _ _ => rfl, .stay a⟩

theorem at_books (h : At lone desk id w a) {books : Books}
    (hmovements : lone → movements books desk id = movements w.books desk id) :
    At lone desk id { w with books } a :=
  h.frame (fun r => r) (fun _ => ⟨rfl, rfl, rfl⟩) (by simp only [World.request, Option.map_id'])
    hmovements (fun _ _ => rfl) fun _ _ => rfl

theorem at_createRequest (h : At lone desk id w a) (defaultCurrency : String) (faults : Faults)
    (desk' : Desk) (tenantId cardUserId : ℤ) (amount : Amount) :
    ∃ a', At lone desk id (createRequest w defaultCurrency faults desk' tenantId cardUserId amount) a' ∧
      Stage.Step a a' := by
  have hbooks := at_books h fun _ => (movements_wallet desk id defaultCurrency faults tenantId cardUserId w.books)
  unfold createRequest
  cases moneyToMinor amount with
  | error e => exact ⟨a, h, .stay a⟩
  | ok amountMinor =>
    dsimp only
    split_ifs
    · exact ⟨a, h, .stay a⟩
    · cases desk' with
      | deposit => exact at_insert h .deposit _ _ fun _ => rfl
      | withdrawal =>
        rcases hwallet : wallet defaultCurrency faults tenantId cardUserId w.books with
          ⟨found, books⟩
        rw [hwallet] at hbooks
        cases found with
        | none => exact ⟨a, hbooks, .stay a⟩
        | some found =>
          dsimp only
          split_ifs
          · exact ⟨a, hbooks, .stay a⟩
          · exact at_insert hbooks .withdrawal _ _ fun _ => rfl

theorem at_reject (h : At lone desk id w a) (desk' : Desk) (tenantId : ℤ) (id' : ℕ) :
    ∃ a', At lone desk id (reject w desk' tenantId id') a' ∧ Stage.Step a a' := by
  by_cases hown : desk' = desk ∧ id' = id
  · obtain ⟨rfl, rfl⟩ := hown
    by_cases hpending : ∃ r, w.request desk' id' = some r ∧ pendingOf tenantId id' r = true
    · obtain ⟨r, hr, hp⟩ := hpending
      obtain rfl := h.of_pending hr ((pendingOf_iff hr).mp hp).2
      exact ⟨.closed, ⟨⟨_, request_updateRequests_hit hr hp, rfl⟩, h.2.1, h.2.2⟩, .reject⟩
    · refine ⟨a, h.same (request_updateRequests_miss fun r hr => ?_) rfl (fun _ _ => rfl)
        fun _ _ => rfl, .stay a⟩
      by_contra hp
      exact hpending ⟨r, hr, by simpa using hp⟩
  · exact ⟨a, h.same (request_updateRequests_other (fun _ => pendingOf_id) hown) rfl
      (fun _ _ => rfl) fun _ _ => rfl, .stay a⟩

section next
variable {c : ℕ} {p : Phase}

theorem at_setPhase (h : At lone desk id w a) {w' : World}
    (hphase : w'.phase = Function.update w.phase c p) (hc : ¬(w.phase c).Holds desk id)
    (hp : ¬p.Holds desk id) (hrequest : w'.request desk id = w.request desk id)
    (hmovements : movements w'.books desk id = movements w.books desk id) :
    ∃ a', At lone desk id w' a' ∧ Stage.Step a a' :=
  ⟨a, h.quiet (fun r => r) (fun _ => ⟨rfl, rfl, rfl⟩) hphase hc hp (by simpa using hrequest)
    hmovements, .stay a⟩

variable {desk' : Desk} {tenantId cardUserId amountMinor : ℤ} {id' : ℕ} {status : Status}

theorem at_reading (h : At lone desk id w a) {confirmedAmount : Option Amount}
    (hphase : w.phase c = .reading desk' tenantId id' confirmedAmount) (defaultCurrency : String)
    (faults : Faults) (raises : Bool) :
    ∃ a', At lone desk id (w.next defaultCurrency c faults raises) a' ∧ Stage.Step a a' := by
  have hc : ¬(w.phase c).Holds desk id := by simp [hphase, Phase.Holds]
  have hquiet : ∀ p : Phase, ¬p.Holds desk id →
      ∃ a', At lone desk id (w.setPhase c p) a' ∧ Stage.Step a a' :=
    fun p hp => at_setPhase h rfl hc hp rfl rfl
  have hended := hquiet .ended fun hp => hp
  simp only [World.next, hphase]
  split_ifs
  · exact hended
  · cases w.get desk' tenantId id' with
    | none => exact hended
    | some r =>
      dsimp only
      split_ifs
      · exact hended
      · cases desk'.settlement r confirmedAmount with
        | none => exact hended
        | some found => exact hquiet _ fun hp => hp

theorem at_claiming (h : At lone desk id w a) (hclaims : ClaimsAsked w)
    (hphase : w.phase c = .claiming desk' tenantId id' cardUserId status amountMinor)
    (defaultCurrency : String) (faults : Faults) (raises : Bool) :
    ∃ a', At lone desk id (w.next defaultCurrency c faults raises) a' ∧ Stage.Step a a' := by
  have hc : ¬(w.phase c).Holds desk id := by simp [hphase, Phase.Holds]
  obtain ⟨hresolved, hasked⟩ := hclaims c desk' tenantId id' cardUserId status amountMinor hphase
  simp only [World.next, hphase, Option.any_eq_true, decide_eq_true_eq]
  split_ifs with hraises hclaimed
  · exact at_setPhase h rfl hc (fun hp => hp) rfl rfl
  · obtain ⟨r, hget, hwaiting⟩ := hclaimed
    obtain ⟨hr, htenant⟩ := get_eq_some.mp hget
    by_cases hown : desk' = desk ∧ id' = id
    · obtain ⟨rfl, rfl⟩ := hown
      obtain rfl := h.of_pending hr hwaiting
      refine ⟨.held c, ⟨⟨desk'.claimed status amountMinor r, request_updateRequests_hit hr
        ((pendingOf_iff hr).mpr ⟨htenant, hwaiting⟩), ?_, ?_⟩, h.2.1, ?_, ?_⟩, .claim c⟩
      · exact (desk'.claimed_status status amountMinor r).symm ▸ hresolved
      · simp only [World.setPhase, Function.update_self, Phase.Carries]
        cases desk' with
        | deposit => exact ⟨htenant.symm, rfl⟩
        | withdrawal =>
          obtain ⟨q, hq, hamount⟩ := hasked rfl
          obtain rfl := Option.some.inj (hr.symm.trans hq)
          exact ⟨htenant.symm, congrArg some hamount⟩
      · simp only [World.setPhase, Function.update_self]
        exact ⟨rfl, rfl⟩
      · intro c' hc'
        by_contra hne
        simp only [World.setPhase, Function.update_of_ne hne] at hc'
        exact h.2.2 c' hc'
    · exact at_setPhase h rfl hc hown (request_updateRequests_other (fun _ => pendingOf_id) hown)
        rfl
  · refine at_setPhase h rfl hc (fun hp => hp) ?_ rfl
    by_cases hown : desk' = desk ∧ id' = id
    · obtain ⟨rfl, rfl⟩ := hown
      refine request_updateRequests_miss fun r hr => ?_
      by_contra hp
      obtain ⟨htenant, hpending⟩ := (pendingOf_iff hr).mp (by simpa using hp)
      exact hclaimed ⟨r, get_eq_some.mpr ⟨hr, htenant⟩, hpending⟩
    · exact request_updateRequests_other (fun _ => pendingOf_id) hown

theorem at_opening (h : At lone desk id w a)
    (hphase : w.phase c = .opening desk' tenantId id' cardUserId status amountMinor)
    (defaultCurrency : String) (faults : Faults) (raises : Bool) :
    ∃ a', At lone desk id (w.next defaultCurrency c faults raises) a' ∧ Stage.Step a a' := by
  have hmovements := movements_wallet desk id defaultCurrency faults tenantId
    cardUserId w.books
  have hgoes : ∀ books p, movements books desk id = movements w.books desk id →
      (p.Holds desk id ↔ desk' = desk ∧ id' = id) →
      (∀ r, (w.phase c).Carries desk r → p.Carries desk r) →
      ∃ a', At lone desk id ({ w with books }.setPhase c p) a' ∧ Stage.Step a a' := by
    intro books p hsame hp hcarries
    by_cases hown : desk' = desk ∧ id' = id
    · obtain rfl := h.of_holds (c := c) (by rw [hphase]; exact hown)
      exact ⟨.held c, h.holdOn rfl (hp.mpr hown) hcarries rfl hsame, .stay _⟩
    · exact at_setPhase h rfl (by rw [hphase]; exact hown) (fun hheld => hown (hp.mp hheld)) rfl
        hsame
  simp only [World.next, hphase]
  rcases hwallet : wallet defaultCurrency faults tenantId cardUserId w.books with ⟨found, books⟩
  rw [hwallet] at hmovements
  cases found with
  | none =>
    refine hgoes books _ hmovements Iff.rfl fun r hr => ?_
    rw [hphase] at hr
    exact hr.1
  | some found =>
    refine hgoes books _ hmovements Iff.rfl fun r hr => ?_
    rw [hphase] at hr
    exact hr

theorem at_moving (h : At lone desk id w a) {walletId : ℕ}
    (hphase : w.phase c = .moving desk' tenantId id' status amountMinor walletId)
    (defaultCurrency : String) (faults : Faults) (raises : Bool) :
    ∃ a', At lone desk id (w.next defaultCurrency c faults raises) a' ∧ Stage.Step a a' := by
  simp only [World.next, hphase]
  rcases perform_changeBalance faults defaultCurrency
      (movementOf desk' tenantId id' status amountMinor walletId) w.books with
    ⟨e, herror⟩ | ⟨moved, found, hamount, -, -, hmade⟩
  · simp only [herror]
    by_cases hown : desk' = desk ∧ id' = id
    · obtain rfl := h.of_holds (c := c) (by rw [hphase]; exact hown)
      refine ⟨.held c, h.holdOn rfl hown (fun r hr => ?_) rfl rfl, .stay _⟩
      rw [hphase] at hr
      exact hr.1
    · exact at_setPhase h rfl (by rw [hphase]; exact hown) hown rfl rfl
  · obtain rfl := positiveMinor_minorToMoney hamount
    simp only [hmade]
    have hmovements := movements_moved desk id w.books defaultCurrency
      (movementOf desk' tenantId id' status moved walletId) found moved
    by_cases hown : desk' = desk ∧ id' = id
    · have hheld : (w.phase c).Holds desk id := by rw [hphase]; exact hown
      obtain rfl := h.of_holds hheld
      obtain ⟨rfl, rfl⟩ := hown
      obtain ⟨⟨r, hr, hresolved, hrow⟩, hm, -, halone⟩ := h
      rw [hphase] at hrow
      rw [if_pos ⟨rfl, rfl⟩] at hmovements
      refine ⟨.settled r.status, ⟨⟨r, hr, rfl, hresolved, fun hl => ?_⟩,
        nobody_of_letGo halone rfl fun hp => hp⟩, .move c r.status⟩
      rw [hm hl, List.nil_append] at hmovements
      exact ⟨_, hmovements, rfl, hrow.2⟩
    · rw [if_neg fun href => hown ⟨referenceType_injective href.1,
        Int.ofNat_inj.mp (Option.some.inj href.2)⟩, List.append_nil] at hmovements
      exact at_setPhase h rfl (by rw [hphase]; exact hown) (fun hp => hp) rfl hmovements

theorem at_compensating (h : At lone desk id w a) (hphase : w.phase c = .compensating desk' tenantId id')
    (defaultCurrency : String) (faults : Faults) (raises : Bool) :
    ∃ a', At lone desk id (w.next defaultCurrency c faults raises) a' ∧ Stage.Step a a' := by
  simp only [World.next, hphase]
  by_cases hown : desk' = desk ∧ id' = id
  · obtain rfl := h.of_holds (c := c) (by rw [hphase]; exact hown)
    obtain ⟨rfl, rfl⟩ := hown
    obtain ⟨⟨r, hr, hresolved, hrow⟩, hm, -, halone⟩ := h
    rw [hphase] at hrow
    have hof : ofRequest tenantId id' r = true := by
      simpa only [ofRequest, Bool.and_eq_true, decide_eq_true_eq] using
        ⟨Eq.symm hrow, request_id hr⟩
    exact ⟨.waiting, ⟨⟨_, request_updateRequests_hit hr hof, desk'.reopened_status r⟩, hm,
      nobody_of_letGo halone rfl fun hp => hp⟩, .putBack c⟩
  · exact at_setPhase h rfl (by rw [hphase]; exact hown) (fun hp => hp)
      (request_updateRequests_other (fun _ => ofRequest_id) hown) rfl

theorem at_linking (h : At lone desk id w a) {transactionId : ℕ}
    (hphase : w.phase c = .linking desk' tenantId id' transactionId)
    (defaultCurrency : String) (faults : Faults) (raises : Bool) :
    ∃ a', At lone desk id (w.next defaultCurrency c faults raises) a' ∧ Stage.Step a a' := by
  have hc : ¬(w.phase c).Holds desk id := by simp [hphase, Phase.Holds]
  simp only [World.next, hphase]
  split_ifs
  · exact at_setPhase h rfl hc (fun hp => hp) rfl rfl
  · by_cases hdesk : desk = desk'
    · subst hdesk
      refine ⟨a, h.quiet (fun r => if ofRequest tenantId id' r then
        { r with walletTransactionId := some transactionId } else r) (fun r => ?_) rfl hc
        (fun hp => hp) ?_ rfl, .stay a⟩
      · split_ifs
        · exact ⟨rfl, rfl, by cases desk <;> rfl⟩
        · exact ⟨rfl, rfl, rfl⟩
      · exact (request_updateRequests w desk desk id _ _ _).trans (if_pos rfl)
    · exact at_setPhase h rfl hc (fun hp => hp)
        ((request_updateRequests w desk desk' id _ _ _).trans (if_neg hdesk)) rfl

theorem at_next (h : At lone desk id w a) (hclaims : ClaimsAsked w) (defaultCurrency : String) (c : ℕ)
    (faults : Faults) (raises : Bool) :
    ∃ a', At lone desk id (w.next defaultCurrency c faults raises) a' ∧ Stage.Step a a' := by
  cases hphase : w.phase c with
  | reading desk' tenantId id' confirmedAmount =>
    exact at_reading h hphase defaultCurrency faults raises
  | claiming desk' tenantId id' cardUserId status amountMinor =>
    exact at_claiming h hclaims hphase defaultCurrency faults raises
  | opening desk' tenantId id' cardUserId status amountMinor =>
    exact at_opening h hphase defaultCurrency faults raises
  | moving desk' tenantId id' status amountMinor walletId =>
    exact at_moving h hphase defaultCurrency faults raises
  | compensating desk' tenantId id' => exact at_compensating h hphase defaultCurrency faults raises
  | linking desk' tenantId id' transactionId =>
    exact at_linking h hphase defaultCurrency faults raises
  | ended =>
    refine ⟨a, ?_, .stay a⟩
    simpa only [World.next, hphase] using h

end next

theorem at_step (h : At lone desk id w a) (hclaims : ClaimsAsked w) (e : Event)
    (hlone : lone → e.Other desk id) :
    ∃ a', At lone desk id (step w e) a' ∧ Stage.Step a a' := by
  cases e with
  | create desk' tenantId cardUserId amount defaultCurrency faults =>
    exact at_createRequest h defaultCurrency faults desk' tenantId cardUserId amount
  | confirm c desk' tenantId id' confirmedAmount =>
    simp only [step]
    cases hphase : w.phase c with
    | ended => exact at_setPhase h rfl (by rw [hphase]; exact fun hp => hp) (fun hp => hp) rfl rfl
    | _ => exact ⟨a, h, .stay a⟩
  | next c defaultCurrency faults raises => exact at_next h hclaims defaultCurrency c faults raises
  | reject desk' tenantId id' => exact at_reject h desk' tenantId id'
  | wallet call =>
    exact ⟨a, at_books h fun hl => movements_step w.books call (hlone hl), .stay a⟩

end

def Keeps (w w' : World) : Prop :=
  ∀ desk id r, w.request desk id = some r →
    ∃ r', w'.request desk id = some r' ∧ r'.amountMinor = r.amountMinor

section
variable {w w' : World} {c : ℕ} {p : Phase}

theorem Keeps.of_requests (h : w'.requests = w.requests) : Keeps w w' :=
  fun _ _ r hr => ⟨r, by rw [World.request, h]; exact hr, rfl⟩

theorem keeps_updateRequests (desk : Desk) (p : Request → Bool) (f : Request → Request) (hf)
    (hamount : ∀ r, (f r).amountMinor = r.amountMinor) :
    Keeps w (w.updateRequests desk p f hf) := by
  intro desk' id r hr
  rw [request_updateRequests, hr]
  split_ifs
  · rw [Option.map_some]
    split_ifs
    · exact ⟨_, rfl, hamount r⟩
    · exact ⟨r, rfl, rfl⟩
  · exact ⟨r, rfl, rfl⟩

theorem keeps_insert (desk : Desk) (mk : ℕ → Request) (hmk) :
    Keeps w (w.setRequests desk ((w.requests desk).insert mk hmk)) := by
  intro desk' id r hr
  refine ⟨r, ?_, rfl⟩
  rw [request_insert, if_neg, hr]
  rintro ⟨rfl, rfl⟩
  rw [World.request, Table.get?_next] at hr
  cases hr

theorem ClaimsAsked.of_keeps (h : ClaimsAsked w) (hkeeps : Keeps w w')
    (hphase : w'.phase = w.phase) : ClaimsAsked w' := by
  intro c desk tenantId id cardUserId status amountMinor hc
  rw [hphase] at hc
  obtain ⟨hresolved, hasked⟩ := h c desk tenantId id cardUserId status amountMinor hc
  refine ⟨hresolved, fun hdesk => ?_⟩
  obtain ⟨r, hr, hamount⟩ := hasked hdesk
  obtain ⟨r', hr', hsame⟩ := hkeeps desk id r hr
  exact ⟨r', hr', hsame.trans hamount⟩

def Phase.Claims : Phase → Prop
  | .claiming _ _ _ _ _ _ => True
  | _ => False

theorem ClaimsAsked.setPhase (h : ClaimsAsked w) (hp : ¬p.Claims) :
    ClaimsAsked (w.setPhase c p) := by
  intro c' desk tenantId id cardUserId status amountMinor hc
  by_cases hsame : c' = c
  · subst hsame
    simp only [World.setPhase, Function.update_self] at hc
    exact absurd (hc ▸ trivial) hp
  · simp only [World.setPhase, Function.update_of_ne hsame] at hc
    exact h c' desk tenantId id cardUserId status amountMinor hc

theorem settlement_spec {desk : Desk} {r : Request} {confirmedAmount : Option Amount}
    {status : Status} {amountMinor : ℤ}
    (h : desk.settlement r confirmedAmount = some (status, amountMinor)) :
    desk.Resolved status ∧ (desk = .withdrawal → r.amountMinor = amountMinor) := by
  cases desk with
  | deposit =>
    refine ⟨?_, fun hdesk => by cases hdesk⟩
    cases confirmedAmount with
    | none =>
      simp only [Desk.settlement] at h
      split_ifs at h
      cases h
      exact .inl rfl
    | some amount =>
      simp only [Desk.settlement] at h
      cases hminor : moneyToMinor amount with
      | error e =>
        rw [hminor] at h
        cases h
      | ok minor =>
        simp only [hminor] at h
        split_ifs at h
        cases h
        exact .inr rfl
  | withdrawal =>
    cases h
    exact ⟨rfl, fun _ => rfl⟩

theorem ClaimsAsked.reading (h : ClaimsAsked w) {desk : Desk} {tenantId : ℤ} {id : ℕ}
    {confirmedAmount : Option Amount} {r : Request} {status : Status} {amountMinor : ℤ}
    (hget : w.get desk tenantId id = some r)
    (hsettlement : desk.settlement r confirmedAmount = some (status, amountMinor)) :
    ClaimsAsked
      (w.setPhase c (.claiming desk tenantId id r.cardUserId status amountMinor)) := by
  intro c' desk' tenantId' id' cardUserId status' amountMinor' hc
  by_cases hsame : c' = c
  · subst hsame
    simp only [World.setPhase, Function.update_self] at hc
    cases hc
    obtain ⟨hresolved, hasked⟩ := settlement_spec hsettlement
    exact ⟨hresolved, fun hdesk => ⟨r, (get_eq_some.mp hget).1, hasked hdesk⟩⟩
  · simp only [World.setPhase, Function.update_of_ne hsame] at hc
    exact h c' desk' tenantId' id' cardUserId status' amountMinor' hc

theorem claimsAsked_next (h : ClaimsAsked w) (defaultCurrency : String) (c : ℕ) (faults : Faults)
    (raises : Bool) : ClaimsAsked (w.next defaultCurrency c faults raises) := by
  have hended : ClaimsAsked (w.setPhase c .ended) := h.setPhase fun hp => hp
  have hbooks : ∀ books, ClaimsAsked { w with books } := fun books =>
    h.of_keeps (.of_requests rfl) rfl
  cases hphase : w.phase c with
  | reading desk tenantId id confirmedAmount =>
    simp only [World.next, hphase]
    split_ifs
    · exact hended
    · cases hget : w.get desk tenantId id with
      | none => exact hended
      | some r =>
        dsimp only
        split_ifs
        · exact hended
        · cases hsettlement : desk.settlement r confirmedAmount with
          | none => exact hended
          | some found => exact h.reading hget hsettlement
  | claiming desk tenantId id cardUserId status amountMinor =>
    simp only [World.next, hphase]
    have hclaimed : ClaimsAsked (w.updateRequests desk (pendingOf tenantId id)
        (desk.claimed status amountMinor) fun r => desk.claimed_id status amountMinor r) :=
      h.of_keeps (keeps_updateRequests _ _ _ _ fun r =>
        desk.claimed_amountMinor status amountMinor r) rfl
    split_ifs
    · exact hended
    · exact hclaimed.setPhase fun hp => hp
    · exact hclaimed.setPhase fun hp => hp
  | opening desk tenantId id cardUserId status amountMinor =>
    simp only [World.next, hphase]
    rcases wallet defaultCurrency faults tenantId cardUserId w.books with ⟨found, books⟩
    cases found with
    | none => exact (hbooks books).setPhase fun hp => hp
    | some found => exact (hbooks books).setPhase fun hp => hp
  | moving desk tenantId id status amountMinor walletId =>
    simp only [World.next, hphase]
    rcases perform faults.sqlite (changeBalance defaultCurrency
      (movementOf desk tenantId id status amountMinor walletId)) w.books with ⟨made, books⟩
    cases made with
    | error e => exact (hbooks books).setPhase fun hp => hp
    | ok ids => exact (hbooks books).setPhase fun hp => hp
  | compensating desk tenantId id =>
    simp only [World.next, hphase]
    have hkept := h.of_keeps (keeps_updateRequests desk (ofRequest tenantId id) desk.reopened
      desk.reopened_id desk.reopened_amountMinor) rfl
    exact hkept.setPhase fun hp => hp
  | linking desk tenantId id transactionId =>
    simp only [World.next, hphase]
    split_ifs
    · exact hended
    · have hkept := h.of_keeps (keeps_updateRequests desk (ofRequest tenantId id)
        (fun r => { r with walletTransactionId := some transactionId }) (fun _ => rfl)
        fun _ => rfl) rfl
      exact hkept.setPhase fun hp => hp
  | ended => simpa only [World.next, hphase] using h

theorem claimsAsked_step (h : ClaimsAsked w) (e : Event) : ClaimsAsked (step w e) := by
  have hbooks : ∀ books, ClaimsAsked { w with books } := fun books =>
    h.of_keeps (.of_requests rfl) rfl
  cases e with
  | create desk tenantId cardUserId amount defaultCurrency faults =>
    simp only [step, createRequest]
    cases moneyToMinor amount with
    | error e => exact h
    | ok amountMinor =>
      dsimp only
      split_ifs
      · exact h
      · cases desk with
        | deposit => exact h.of_keeps (keeps_insert _ _ _) rfl
        | withdrawal =>
          rcases wallet defaultCurrency faults tenantId cardUserId w.books with ⟨found, books⟩
          cases found with
          | none => exact hbooks books
          | some found =>
            dsimp only
            split_ifs
            · exact hbooks books
            · exact (hbooks books).of_keeps (keeps_insert _ _ _) rfl
  | confirm c desk tenantId id confirmedAmount =>
    simp only [step]
    cases w.phase c with
    | ended => exact h.setPhase fun hp => hp
    | _ => exact h
  | next c defaultCurrency faults raises => exact claimsAsked_next h defaultCurrency c faults raises
  | reject desk tenantId id => exact h.of_keeps (keeps_updateRequests _ _ _ _ fun _ => rfl) rfl
  | wallet call => exact hbooks _

end

section
variable {w : World} (h : Sound w.books)
include h

theorem sound_wallet (defaultCurrency : String) (faults : Faults) (tenantId cardUserId : ℤ) :
    Sound (wallet defaultCurrency faults tenantId cardUserId w.books).2 :=
  (sound_walletOf defaultCurrency faults tenantId "card_user" cardUserId h).1

theorem sound_createRequest (defaultCurrency : String) (faults : Faults) (desk : Desk)
    (tenantId cardUserId : ℤ) (amount : Amount) :
    Sound (createRequest w defaultCurrency faults desk tenantId cardUserId amount).books := by
  unfold createRequest
  cases moneyToMinor amount with
  | error e => exact h
  | ok amountMinor =>
    dsimp only
    split_ifs
    · exact h
    · cases desk with
      | deposit => exact h
      | withdrawal =>
        have hbooks := sound_wallet h defaultCurrency faults tenantId cardUserId
        generalize wallet defaultCurrency faults tenantId cardUserId w.books = out at hbooks ⊢
        rcases out with ⟨found, books⟩
        cases found with
        | none => exact hbooks
        | some found =>
          dsimp only
          split_ifs
          · exact hbooks
          · exact hbooks

theorem sound_next (defaultCurrency : String) (c : ℕ) (faults : Faults) (raises : Bool) :
    Sound (w.next defaultCurrency c faults raises).books := by
  cases hphase : w.phase c with
  | reading desk tenantId id confirmedAmount =>
    simp only [World.next, hphase]
    split_ifs
    · exact h
    · cases w.get desk tenantId id with
      | none => exact h
      | some r =>
        dsimp only
        split_ifs
        · exact h
        · cases desk.settlement r confirmedAmount with
          | none => exact h
          | some found => exact h
  | claiming desk tenantId id cardUserId status amountMinor =>
    simp only [World.next, hphase]
    split_ifs
    · exact h
    · exact h
    · exact h
  | opening desk tenantId id cardUserId status amountMinor =>
    have hbooks := sound_wallet h defaultCurrency faults tenantId cardUserId
    simp only [World.next, hphase]
    generalize wallet defaultCurrency faults tenantId cardUserId w.books = out at hbooks ⊢
    rcases out with ⟨found, books⟩
    cases found with
    | none => exact hbooks
    | some found => exact hbooks
  | moving desk tenantId id status amountMinor walletId =>
    have hbooks := sound_changeBalance faults defaultCurrency
      (movementOf desk tenantId id status amountMinor walletId) h
    simp only [World.next, hphase]
    generalize perform faults.sqlite (changeBalance defaultCurrency
      (movementOf desk tenantId id status amountMinor walletId)) w.books = out at hbooks ⊢
    rcases out with ⟨made, books⟩
    cases made with
    | error e => exact hbooks
    | ok ids => exact hbooks
  | compensating desk tenantId id =>
    simp only [World.next, hphase]
    exact h
  | linking desk tenantId id transactionId =>
    simp only [World.next, hphase]
    split_ifs
    · exact h
    · exact h
  | ended =>
    simp only [World.next, hphase]
    exact h

theorem sound_step (e : Event) : Sound (step w e).books := by
  cases e with
  | create desk tenantId cardUserId amount defaultCurrency faults =>
    exact sound_createRequest h defaultCurrency faults desk tenantId cardUserId amount
  | confirm c desk tenantId id confirmedAmount =>
    simp only [step]
    cases w.phase c with
    | ended => exact h
    | _ => exact h
  | next c defaultCurrency faults raises => exact sound_next h defaultCurrency c faults raises
  | reject desk tenantId id => exact h
  | wallet call => exact BusinessOs.sound_step call h

end

/-- What every run keeps; `lone` says of which requests no one else uses the reference. -/
structure Orderly (lone : Desk → ℕ → Prop) (w : World) : Prop where
  stage : ∀ desk id, ∃ a, At (lone desk id) desk id w a
  claims : ClaimsAsked w
  books : Sound w.books

theorem orderly_initial (lone : Desk → ℕ → Prop) : Orderly lone .initial where
  stage _ _ := ⟨.absent, rfl, fun _ => rfl, fun _ hc => hc⟩
  claims := fun _ _ _ _ _ _ _ hc => by cases hc
  books := sound_empty

theorem orderly_step {lone : Desk → ℕ → Prop} {w : World} {e : Event} (h : Orderly lone w)
    (he : ∀ desk id, lone desk id → e.Other desk id) : Orderly lone (step w e) where
  stage desk id := by
    obtain ⟨a, ha⟩ := h.stage desk id
    obtain ⟨a', ha', -⟩ := at_step ha h.claims e (he desk id)
    exact ⟨a', ha'⟩
  claims := claimsAsked_step h.claims e
  books := sound_step h.books e

theorem orderly_run {lone : Desk → ℕ → Prop} {w : World} {events : List Event}
    (h : Orderly lone w) (hlone : ∀ e ∈ events, ∀ desk id, lone desk id → e.Other desk id) :
    Orderly lone (Run.run step w events) :=
  Run.run_invariant (fun _ _ h he => orderly_step h he) h (Run.along_of_forall hlone)

theorem at_run_final {lone : Desk → ℕ → Prop} {desk : Desk} {id : ℕ} {a : Stage} {w : World}
    {events : List Event} (horderly : Orderly lone w) (h : At (lone desk id) desk id w a)
    (hfinal : a.Final) (hlone : ∀ e ∈ events, ∀ desk id, lone desk id → e.Other desk id) :
    At (lone desk id) desk id (Run.run step w events) a := by
  have hkeep : ∀ w e, Orderly lone w ∧ At (lone desk id) desk id w a →
      (∀ desk id, lone desk id → e.Other desk id) →
      Orderly lone (step w e) ∧ At (lone desk id) desk id (step w e) a := by
    intro w e hw he
    obtain ⟨a', ha', hstep⟩ := at_step hw.2 hw.1.claims e (he desk id)
    exact ⟨orderly_step hw.1 he, hstep.eq_of_final hfinal ▸ ha'⟩
  exact (Run.run_invariant hkeep ⟨horderly, h⟩ (Run.along_of_forall hlone)).2

structure Exact (b : Books) (desk : Desk) (r : Request) : Prop where
  resolved : desk.Resolved r.status ↔
    ∃ t, ((movements b desk r.id).filter fun t => t.transactionType = desk.transactionType) = [t] ∧
      desk.settled r = some t.amountMinor
  once : (movements b desk r.id).length ≤ 1
  unresolved : r.status = .pending ∨ r.status = .rejected → movements b desk r.id = []

theorem At.exact {desk : Desk} {id : ℕ} {w : World} {a : Stage} (h : At True desk id w a)
    {r : Request} (hr : w.request desk id = some r) (hn : Nobody desk id w) :
    Exact w.books desk r := by
  obtain rfl := request_id hr
  have hnone : ∀ status, ¬desk.Resolved status → r.status = status →
      movements w.books desk r.id = [] → Exact w.books desk r := by
    intro status hunresolved hstatus hm
    refine ⟨⟨fun hresolved => absurd (hstatus ▸ hresolved) hunresolved, ?_⟩, ?_, fun _ => hm⟩
    · rintro ⟨t, ht, -⟩
      rw [hm] at ht
      cases ht
    · rw [hm]
      exact Nat.zero_le 1
  cases a with
  | absent =>
    rw [h.1] at hr
    cases hr
  | waiting =>
    obtain ⟨⟨q, hq, hstatus⟩, hm, -⟩ := h
    obtain rfl := Option.some.inj (hq.symm.trans hr)
    exact hnone _ desk.not_resolved_pending hstatus (hm trivial)
  | held c => exact absurd h.2.2.1 (hn c)
  | settled status =>
    obtain ⟨⟨q, hq, rfl, hresolved, hm⟩, -⟩ := h
    obtain rfl := Option.some.inj (hq.symm.trans hr)
    obtain ⟨t, ht, htype, hamount⟩ := hm trivial
    refine ⟨⟨fun _ => ⟨t, ?_, hamount⟩, fun _ => hresolved⟩, ?_, ?_⟩
    · rw [ht, List.filter_cons_of_pos (by simpa using htype), List.filter_nil]
    · rw [ht, List.length_singleton]
    · rintro (hpending | hrejected)
      · exact absurd (hpending ▸ hresolved) desk.not_resolved_pending
      · exact absurd (hrejected ▸ hresolved) desk.not_resolved_rejected
  | closed =>
    obtain ⟨⟨q, hq, hstatus⟩, hm, -⟩ := h
    obtain rfl := Option.some.inj (hq.symm.trans hr)
    exact hnone _ desk.not_resolved_rejected hstatus (hm trivial)

theorem At.status_of_final {lone : Prop} {desk : Desk} {id : ℕ} {w w' : World} {a : Stage}
    (h : At lone desk id w a) (h' : At lone desk id w' a) (hfinal : a.Final) {r : Request}
    (hr : w.request desk id = some r) :
    ∃ r', w'.request desk id = some r' ∧ r'.status = r.status := by
  cases a with
  | absent => cases hfinal
  | waiting => cases hfinal
  | held c => cases hfinal
  | settled status =>
    obtain ⟨⟨q, hq, hstatus, -⟩, -⟩ := h
    obtain ⟨⟨q', hq', hstatus', -⟩, -⟩ := h'
    obtain rfl := Option.some.inj (hq.symm.trans hr)
    exact ⟨q', hq', hstatus'.trans hstatus.symm⟩
  | closed =>
    obtain ⟨⟨q, hq, hstatus⟩, -⟩ := h
    obtain ⟨⟨q', hq', hstatus'⟩, -⟩ := h'
    obtain rfl := Option.some.inj (hq.symm.trans hr)
    exact ⟨q', hq', hstatus'.trans hstatus.symm⟩

theorem At.final_of_resolved {lone : Prop} {desk : Desk} {id : ℕ} {w : World} {a : Stage}
    (h : At lone desk id w a) {r : Request} (hr : w.request desk id = some r)
    (hn : Nobody desk id w) (hstatus : r.status ≠ .pending) : a.Final := by
  cases a with
  | absent =>
    rw [h.1] at hr
    cases hr
  | waiting =>
    obtain ⟨⟨q, hq, hpending⟩, -⟩ := h
    obtain rfl := Option.some.inj (hq.symm.trans hr)
    exact absurd hpending hstatus
  | held c => exact absurd h.2.2.1 (hn c)
  | settled status => trivial
  | closed => trivial

/-- Over every run no wallet goes below 0. A request that no call is at work on has the money of
its status, when no one else has used its reference, and keeps that status once it is resolved. -/
theorem requests_move_money_once (events : List Event) :
    (∀ found ∈ (Run.run step World.initial events).books.wallets.rows, 0 ≤ found.balanceMinor) ∧
    ∀ desk id r, (Run.run step World.initial events).request desk id = some r →
      Nobody desk id (Run.run step World.initial events) →
      ((∀ e ∈ events, e.Other desk id) →
        Exact (Run.run step World.initial events).books desk r) ∧
      (r.status ≠ .pending → ∀ more, ∃ r',
        (Run.run step World.initial (events ++ more)).request desk id = some r' ∧
          r'.status = r.status) := by
  have hnone : ∀ es : List Event, ∀ e ∈ es, ∀ (desk : Desk) (id : ℕ), False → e.Other desk id :=
    fun _ _ _ _ _ hf => hf.elim
  have horderly := orderly_run (orderly_initial fun _ _ => False) (hnone events)
  refine ⟨fun found hfound => (horderly.books.wallet found hfound).balance_nonneg,
    fun desk id r hr hn => ⟨fun hother => ?_, fun hstatus more => ?_⟩⟩
  · have hevents : ∀ e ∈ events, ∀ desk' id', desk' = desk ∧ id' = id → e.Other desk' id' := by
      rintro e he desk' id' ⟨rfl, rfl⟩
      exact hother e he
    have hlone := orderly_run (orderly_initial fun desk' id' => desk' = desk ∧ id' = id) hevents
    obtain ⟨a, ha⟩ := hlone.stage desk id
    rw [eq_true (⟨rfl, rfl⟩ : desk = desk ∧ id = id)] at ha
    exact ha.exact hr hn
  · obtain ⟨a, ha⟩ := horderly.stage desk id
    have hfinal := ha.final_of_resolved hr hn hstatus
    have hmore := at_run_final horderly ha hfinal (hnone more)
    rw [Run.run, List.foldl_append]
    exact ha.status_of_final hmore hfinal hr

def operatorCredit : List Event :=
  let ten : Amount := some (.finite false 10 0)
  let credit : Movement :=
    { walletId := 1
      amount := ten
      transactionType := .credit
      referenceType := "store_deposit"
      referenceId := some 1 }
  [.create .deposit 1 7 ten "ILS" {},
    .wallet ⟨.createWallet 1 "card_user" (some 7) "", "ILS", {}⟩,
    .wallet ⟨.changeBalance credit, "ILS", {}⟩]

/-- The reference of an operator's credit is his own choice. -/
theorem operator_credit_of_waiting_request :
    ¬∀ events desk id r, (Run.run step World.initial events).request desk id = some r →
      (∀ c, (Run.run step World.initial events).phase c = .ended) →
        Exact (Run.run step World.initial events).books desk r := by
  intro h
  have hexact := h operatorCredit .deposit 1
    { id := 1, tenantId := 1, cardUserId := 7, amountMinor := 1000 } (by decide)
    fun _ => rfl
  have hnone := congrArg List.length (hexact.unresolved (.inl rfl))
  revert hnone
  decide +kernel

end RadiusModule.Store
