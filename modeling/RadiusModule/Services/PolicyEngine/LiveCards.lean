import RadiusModule.Services.PolicyEngine.RejectedLogin

/-!
# Live cards

A card is dead when it is revoked, deleted, printed only or for recharging
only, or when its batch is dead. The status of the account that stands for the
card at a login knows of two of these five, and a renewal overwrites it.
-/

namespace RadiusModule.PolicyEngine
open Library PyText AccessSchedule CardBatchFlags

/-- What a card and its batch say of whether the card lives, and the flag of the batch that
renews cards. -/
structure Marks where
  revoked : Bool
  deleted : Bool
  printOnly : Bool
  rechargeOnly : Bool
  batchDead : Bool
  autoRenew : Bool
deriving DecidableEq

def marks (db : Db) (card : Card) : Marks where
  revoked := card.revoked
  deleted := card.deletedAt.time?.isSome
  printOnly := card.printOnly
  rechargeOnly := card.rechargeOnly
  batchDead := (db.batch card.tenantId card.batchId).any batchDead
  autoRenew := (db.batch card.tenantId card.batchId).any CardBatch.autoRenewAfterFirstUse

def Marks.live (m : Marks) : Bool :=
  !(m.revoked || m.deleted || m.printOnly || m.rechargeOnly || m.batchDead)

def Marks.shown (m : Marks) : Bool := (m.revoked || m.batchDead) && !m.autoRenew

def loginCard (db : Db) (req : AuthRequest) : Option Card :=
  match findLogin db req with
  | some (req, _, .card) => db.card req.tenantId req.username
  | _ => none

def Env.BlocksReject (env : Env) : Prop :=
  ∀ sub plan req source, ∀ d ∈ env.checkBlocks sub plan req source, d.ok = false

def Accepted (env : Env) (db : Db) (req : AuthRequest) : Prop :=
  ∃ d, (authorize env db req).1 = .ok d ∧ d.ok = true

section
variable {env : Env} {db : Db} {req : AuthRequest} {card : Card}

theorem findLogin_of_loginCard (h : loginCard db req = some card) :
    ∃ req', findLogin db req = some (req', cardToSubscriber db card, .card) ∧
      db.card card.tenantId card.username = some card := by
  unfold loginCard at h
  cases hlogin : findLogin db req with
  | none =>
    rw [hlogin] at h
    cases h
  | some login =>
    obtain ⟨req', sub, source⟩ := login
    rw [hlogin] at h
    cases source with
    | subscriber => cases h
    | card =>
      obtain ⟨htenant, hname⟩ := Db.card_found h
      refine ⟨req', ?_, by rw [htenant, hname]; exact h⟩
      have hcard (name : String) (hfound : ((db.card req.tenantId name).map fun c =>
          ({ req with username := name }, cardToSubscriber db c, Source.card)) =
            some (req', sub, .card)) : sub = cardToSubscriber db card := by
        obtain ⟨c, hc, hpair⟩ := Option.map_eq_some_iff.mp hfound
        simp only [Prod.mk.injEq, and_true] at hpair
        obtain ⟨rfl, rfl⟩ := hpair
        rw [Option.some.inj (hc.symm.trans h)]
      suffices hsub : sub = cardToSubscriber db card by rw [hsub]
      unfold findLogin at hlogin
      dsimp only at hlogin
      cases hmirror : db.subscriber req.tenantId req.username false with
      | some mirror =>
        simp only [hmirror] at hlogin
        split_ifs at hlogin with hkind
        · refine hcard req.username ?_
          cases hdirect : (db.card req.tenantId req.username).map fun c =>
              ({ req with username := req.username }, cardToSubscriber db c, Source.card) with
          | none =>
            rw [hdirect] at hlogin
            simp at hlogin
          | some found =>
            rw [hdirect] at hlogin
            simpa using hlogin
        · simp at hlogin
      | none =>
        simp only [hmirror] at hlogin
        cases hdirect : (db.card req.tenantId req.username).map fun c =>
            ({ req with username := req.username }, cardToSubscriber db c, Source.card) with
        | some found =>
          rw [hdirect] at hlogin
          exact hcard _ (hdirect.trans hlogin)
        | none =>
          rw [hdirect] at hlogin
          split_ifs at hlogin
          · exact hcard _ hlogin
          · cases hlogin

theorem status_cardToSubscriber (db : Db) (card : Card) :
    (cardToSubscriber db card).status =
      if (marks db card).revoked || (marks db card).batchDead then "disabled" else "enabled" := rfl

theorem renewal_of_autoRenew (hcard : db.card card.tenantId card.username = some card)
    (hflag : (marks db card).autoRenew = false) (now : ℤ) (source : Source) :
    renewal db now (cardToSubscriber db card) source = none := by
  unfold renewal
  split_ifs
  · have hname : cardAndBatch db (cardToSubscriber db card).tenantId
        (cardToSubscriber db card).username =
          (db.batch card.tenantId card.batchId).map fun batch => (card, batch) := by
      change (db.card card.tenantId card.username).bind _ = _
      rw [hcard]
      rfl
    rw [hname]
    change (db.batch card.tenantId card.batchId).any CardBatch.autoRenewAfterFirstUse = false
      at hflag
    cases hbatch : db.batch card.tenantId card.batchId with
    | none => rfl
    | some batch =>
      rw [hbatch, Option.any_some] at hflag
      simp [hflag]
  · rfl

theorem disabled_rejected (hblocks : env.BlocksReject) {sub : Subscriber}
    (hstatus : sub.status = "disabled") (plan : Option AccessPlan) (source : Source) :
    ∃ d, (Gate.run (gates env req sub plan source) db).1 = some (.ok d) ∧ d.ok = false := by
  have hfirst : ∃ d, (readingGates env req sub plan source).findSome? (· db) = some (.ok d) ∧
      d.ok = false := by
    unfold readingGates
    cases hblock : env.checkBlocks sub plan req source with
    | some d => exact ⟨d, by simp, hblocks sub plan req source d hblock⟩
    | none =>
      have hcaptive : checkExpiryCaptive env.captive env.now sub = some (reject "disabled") := by
        simp [checkExpiryCaptive, hstatus]
      cases hpassword : (if loginWithoutPassword db req.tenantId req.username then none
          else (checkPassword env.verifyChap sub req).map (Except.ok (ε := ScheduleError))) with
      | none => exact ⟨reject "disabled", by simp [hpassword, hcaptive], rfl⟩
      | some d =>
        split_ifs at hpassword
        obtain ⟨d, hd, rfl⟩ := Option.map_eq_some_iff.mp hpassword
        refine ⟨d, by simp_all, ?_⟩
        unfold checkPassword at hd
        split_ifs at hd <;> exact (Option.some.inj hd) ▸ rfl
  obtain ⟨d, hfound, hreject⟩ := hfirst
  refine ⟨d, ?_, hreject⟩
  rw [gates, Gate.run_append, Gate.run_read, hfound]
  rfl

theorem shown_rejected (hblocks : env.BlocksReject) (hcard : loginCard db req = some card)
    (hshown : (marks db card).shown = true) : ¬Accepted env db req := by
  rintro ⟨d, hd, hok⟩
  obtain ⟨req', hlogin, hself⟩ := findLogin_of_loginCard hcard
  obtain ⟨hdead, hflag⟩ := Bool.and_eq_true_iff.mp hshown
  have hstatus : (cardToSubscriber db card).status = "disabled" := by
    rw [status_cardToSubscriber, if_pos hdead]
  have hrenew : maybeAutoRenew db env.now (cardToSubscriber db card) .card =
      (db, cardToSubscriber db card) := by
    rw [maybeAutoRenew, renewal_of_autoRenew hself (by simpa using hflag)]
  unfold authorize at hd
  split_ifs at hd with hname
  · cases hd
    cases hok
  · simp only [hlogin, hrenew] at hd
    obtain ⟨d', hrun, hreject⟩ := @disabled_rejected env db req' hblocks _ hstatus
      (planOf db req' (cardToSubscriber db card)) .card
    rcases hgates : Gate.run (gates env req' (cardToSubscriber db card)
      (planOf db req' (cardToSubscriber db card)) .card) db with ⟨decision, after⟩
    rw [hgates] at hrun hd
    dsimp only at hrun
    subst hrun
    cases hd
    rw [hreject] at hok
    cases hok

end

def markedCard (m : Marks) : Card where
  id := 1
  batchId := 1
  username := "ab12"
  password := "ab12"
  firstUsedAt := .instant 0
  revoked := m.revoked
  deletedAt := if m.deleted then .instant 0 else .null
  printOnly := m.printOnly
  rechargeOnly := m.rechargeOnly

def markedDb (m : Marks) : Db where
  cards := [markedCard m]
  batches := [{
    id := 1
    validityAfterFirstLoginDays := 1
    autoRenewAfterFirstUse := m.autoRenew
    deletedAt := if m.batchDead then .instant 0 else .null }]

def markedLogin : AuthRequest := { username := "ab12", password := "ab12" }

set_option maxRecDepth 40000 in
theorem marks_markedDb : ∀ m : Marks, loginCard (markedDb m) markedLogin = some (markedCard m) ∧
    marks (markedDb m) (markedCard m) = m := by
  rintro ⟨revoked, deleted, printOnly, rechargeOnly, dead, renew⟩
  revert revoked deleted printOnly rechargeOnly dead renew
  decide

set_option maxRecDepth 40000 in
theorem markedDb_accepted : ∀ m : Marks, m.shown = false →
    (authorize (calmEnv 0) (markedDb m) markedLogin).1 = .ok ⟨true, "", message "ok_welcome"⟩ ∨
      (authorize (calmEnv 0) (markedDb m) markedLogin).1 =
        .ok ⟨true, "", message "ok_card_time_left" ++ " "⟩ := by
  rintro ⟨revoked, deleted, printOnly, rechargeOnly, dead, renew⟩
  revert revoked deleted printOnly rechargeOnly dead renew
  decide

/-- Every card that is admitted is live exactly for the marks that are live or shown. -/
theorem only_live_admitted_iff (m : Marks) :
    (∀ (env : Env) (db : Db) (req : AuthRequest) (card : Card), env.BlocksReject →
      loginCard db req = some card → marks db card = m → Accepted env db req → m.live = true) ↔
      m.live = true ∨ m.shown = true := by
  constructor
  · intro h
    by_contra hnot
    rw [not_or] at hnot
    obtain ⟨hlogin, hmarks⟩ := marks_markedDb m
    refine hnot.1 (h (calmEnv 0) (markedDb m) markedLogin (markedCard m) ?_ hlogin hmarks ?_)
    · rintro _ _ _ _ d ⟨⟩
    · rcases markedDb_accepted m (by simpa using hnot.2) with hd | hd
      · exact ⟨_, hd, rfl⟩
      · exact ⟨_, hd, rfl⟩
  · rintro (hlive | hshown) env db req card hblocks hcard rfl haccepted
    · exact hlive
    · exact absurd haccepted (shown_rejected hblocks hcard hshown)

set_option maxRecDepth 40000 in
/-- A card that exists on paper only logs in. -/
theorem print_only_card_admitted : ¬∀ (env : Env) (db : Db) (req : AuthRequest) (card : Card),
    env.BlocksReject → loginCard db req = some card → Accepted env db req →
      (marks db card).live = true := by
  intro h
  let card : Card := { id := 1, batchId := 1, username := "ab12", password := "1", printOnly := true }
  let db : Db := { cards := [card], batches := [{ id := 1 }] }
  have hlive := h (calmEnv 0) db { username := "ab12", password := "1" } card
    (by rintro _ _ _ _ d ⟨⟩) (by decide)
    ⟨⟨true, "", message "ok_welcome"⟩, by decide, rfl⟩
  revert hlive
  decide

end RadiusModule.PolicyEngine
