import RadiusModule.Library.JsonMembers
import RadiusModule.Services.BatchArchive
import RadiusModule.Services.PolicyEngine.LiveCards

/-!
# The recycle bin of the accounts and the cards

An account and a card go to the bin by hand or by the lifecycle worker and come
back by one restorer each. The status of an account in the bin is disabled; the
one it had is parked in its metadata, where the restorer looks for it.
-/

namespace RadiusModule.RecycleBin
open Library JsonMembers PolicyEngine

structure Bookkeeping where
  deletedBy : String := ""
  deleteReason : String := ""
  archiveSource : String := ""
  archivePolicyId : Option ℕ := none
  retentionExpiresAt : Stamp := .null
  autoArchiveAt : Stamp := .null
deriving DecidableEq, Repr

/-- A row of `subscribers`; no step here touches the columns under `others`. -/
structure SubscriberRow (α : Type) where
  account : Subscriber
  metadata : Option String := none
  updatedAt : Stamp := .null
  bin : Bookkeeping := {}
  others : α

inductive Archiver
  | byHand (actor reason : String)
  | lifecycle (policyId : ℕ) (actor reason : String) (retentionExpiresAt : Stamp)

structure Cycle where
  archiver : Archiver
  archivedAt : ℤ
  restoredAt : ℤ

def statusBeforeArchive : String := "status_before_archive"

def restorable : List String := ["enabled", "disabled", "suspended", "banned"]

section
variable {α : Type} (texts : JsonMembers)

def metaJson (metadata : Option String) : String :=
  if metadata.getD "" = "" then "\x7b\x7d" else metadata.getD ""

/-- `ARCHIVE_REMEMBER_STATUS_SQL` -/
def rememberStatus (metadata : Option String) (status : String) :
    Except Malformed (Option String) :=
  if texts.valid (metaJson metadata) then
    (texts.jsonSet (metaJson metadata) statusBeforeArchive status).map some
  else .ok metadata

/-- What `IN` finds among the texts of `RESTORE_STATUS_SQL`. -/
def priorStatus : Option Json → String
  | some (.str s) => if s ∈ restorable then s else "disabled"
  | _ => "disabled"

def restoreStatus (metadata : Option String) : Except Malformed (String × Option String) :=
  if texts.valid (metaJson metadata) then do
    let prior ← texts.jsonExtract (metaJson metadata) statusBeforeArchive
    let left ← if prior.isSome then
      (texts.jsonRemove (metaJson metadata) statusBeforeArchive).map some else .ok metadata
    return (priorStatus prior, left)
  else .ok ("disabled", metadata)

def Archiver.mark (now : ℤ) (bin : Bookkeeping) : Archiver → Bookkeeping
  | byHand actor reason =>
    { bin with
      deletedBy := if actor = "" then "system" else actor
      deleteReason := String.ofList (reason.toList.take 300) }
  | lifecycle policyId actor reason retentionExpiresAt =>
    { deletedBy := actor
      deleteReason := reason
      archiveSource := "auto"
      archivePolicyId := some policyId
      retentionExpiresAt := retentionExpiresAt
      autoArchiveAt := .instant now }

/-- `archive_subscriber` of the two repositories, on the row the key picks; the flag says whether
a row was written. -/
def archiveSubscriber (archiver : Archiver) (now : ℤ) (row : SubscriberRow α) :
    Except Malformed (SubscriberRow α × Bool) :=
  if row.account.deletedAt.isNull then do
    let metadata ← rememberStatus texts row.metadata row.account.status
    return ({ row with
      account := { row.account with deletedAt := .instant now, status := "disabled" }
      metadata := metadata
      updatedAt := .instant now
      bin := archiver.mark now row.bin }, true)
  else return (row, false)

def restoreSubscriber (now : ℤ) (row : SubscriberRow α) :
    Except Malformed (SubscriberRow α × Bool) :=
  if !row.account.deletedAt.isNull then do
    let (status, metadata) ← restoreStatus texts row.metadata
    return ({ row with
      account := { row.account with deletedAt := .null, status := status }
      metadata := metadata
      updatedAt := .instant now
      bin := { row.bin with deletedBy := "", deleteReason := "" } }, true)
  else return (row, false)

def cycle (row : SubscriberRow α) (c : Cycle) : Except Malformed (SubscriberRow α) := do
  let (archived, _) ← archiveSubscriber texts c.archiver c.archivedAt row
  let (restored, _) ← restoreSubscriber texts c.restoredAt archived
  return restored

def runCycles (cycles : List Cycle) (row : SubscriberRow α) :
    Except Malformed (SubscriberRow α) :=
  cycles.foldlM (cycle texts) row

end

structure CardRow (β : Type) where
  card : Card
  archiveSource : String := ""
  archivePolicyId : Option ℕ := none
  retentionExpiresAt : Stamp := .null
  autoArchiveAt : Stamp := .null
  others : β

section
variable {β : Type}

/-- `soft_delete_card`, and `archive_card` of the lifecycle worker -/
def archiveCard (archiver : Archiver) (now : ℤ) (row : CardRow β) : CardRow β × Bool :=
  if row.card.deletedAt.isNull then
    match archiver with
    | .byHand actor reason =>
      ({ row with
        card := { Card.bin now actor reason row.card with revoked := true }
        archiveSource := "manual"
        archivePolicyId := none
        retentionExpiresAt := .null
        autoArchiveAt := .null }, true)
    | .lifecycle policyId actor reason retentionExpiresAt =>
      ({ row with
        card := { Card.bin now actor reason row.card with revoked := true }
        archiveSource := "auto"
        archivePolicyId := some policyId
        retentionExpiresAt := retentionExpiresAt
        autoArchiveAt := .instant now }, true)
  else (row, false)

def restoreCardFromBin (row : CardRow β) : CardRow β × Bool :=
  if !row.card.deletedAt.isNull then
    ({ row with
      card := Card.unbin row.card
      archiveSource := ""
      archivePolicyId := none
      retentionExpiresAt := .null
      autoArchiveAt := .null }, true)
  else (row, false)

def cardCycle (row : CardRow β) (c : Cycle) : CardRow β :=
  (restoreCardFromBin (archiveCard c.archiver c.archivedAt row).1).1

def CardRow.bin (row : CardRow β) : Bookkeeping where
  deletedBy := row.card.deletedBy
  deleteReason := row.card.deleteReason
  archiveSource := row.archiveSource
  archivePolicyId := row.archivePolicyId
  retentionExpiresAt := row.retentionExpiresAt
  autoArchiveAt := row.autoArchiveAt

def CardRow.revoke (row : CardRow β) : CardRow β :=
  { row with card := { row.card with revoked := true } }

end

section
variable {α β : Type} (texts : JsonMembers)

/-- The JSON value of a metadata text; what is no JSON stands for itself. -/
def metadataValue (metadata : Option String) : Json ⊕ Option String :=
  match texts.read (metaJson metadata) with
  | some v => .inl v
  | none => .inr metadata

/-- Every column but `updated_at` and the bookkeeping is as before. -/
structure Returned (row after : SubscriberRow α) : Prop where
  account : after.account = row.account
  metadata : metadataValue texts after.metadata = metadataValue texts row.metadata
  others : after.others = row.others

/-- The bin loses nothing and lets nobody in: for the row of an account, the row of a card, and
the cards of batches whose renewal flag is `renews`. -/
structure BinKept (row : SubscriberRow α) (card : CardRow β) (renews : Bool) : Prop where
  subscriber : ∀ cycles, ∃ after, runCycles texts cycles row = .ok after ∧
    Returned texts row after
  card : ∀ c cycles, (c :: cycles).foldl cardCycle card = card.revoke
  subscriberShut : ∀ (row : SubscriberRow α) (archiver : Archiver) (now : ℤ)
    (archived : SubscriberRow α), archiveSubscriber texts archiver now row = .ok (archived, true) →
      ∀ (db : Db) (req req' : AuthRequest),
        findLogin db req ≠ some (req', archived.account, .subscriber)
  cardShut : ∀ (row archived : CardRow β) (archiver : Archiver) (now : ℤ),
    archiveCard archiver now row = (archived, true) →
      ∀ (env : Env) (db : Db) (req : AuthRequest), env.BlocksReject →
        (marks db archived.card).autoRenew = renews → loginCard db req = some archived.card →
          ¬Accepted env db req
  total : ∀ (row : SubscriberRow α) (archiver : Archiver) (now : ℤ),
    (∃ result, archiveSubscriber texts archiver now row = .ok result) ∧
      ∃ result, restoreSubscriber texts now row = .ok result

/-- The metadata is an object with room for the status, and the status is one that the restorer
accepts; or there is no such object, and the account was disabled already. -/
def Parked (row : SubscriberRow α) : Prop :=
  match metadataValue texts row.metadata with
  | .inl v =>
    if v.isObject then v.Lacks statusBeforeArchive ∧ row.account.status ∈ restorable
    else row.account.status = "disabled"
  | .inr _ => row.account.status = "disabled"

end

section
variable {α : Type} {texts : JsonMembers}

theorem metaJson_some {text : String} (h : text ≠ "") : metaJson (some text) = text := by
  simp [metaJson, h]

theorem metaJson_of_read {text : String} {v : Json} (h : texts.read text = some v) :
    metaJson (some text) = text := by
  refine metaJson_some fun hblank => ?_
  rw [hblank, texts.read_blank] at h
  cases h

theorem rememberStatus_spec (texts : JsonMembers) (metadata : Option String) (status : String) :
    ∃ parked, rememberStatus texts metadata status = .ok parked ∧
      metadataValue texts parked =
        (metadataValue texts metadata).map (·.setMember statusBeforeArchive (.str status)) id := by
  rw [rememberStatus, valid, metadataValue]
  cases hread : texts.read (metaJson metadata) with
  | none => exact ⟨metadata, rfl, by rw [metadataValue, hread]; rfl⟩
  | some v =>
    have hset := texts.read_set hread statusBeforeArchive status
    refine ⟨some (texts.set (metaJson metadata) statusBeforeArchive status), ?_, ?_⟩
    · simp [jsonSet, valid, hread, Except.map]
    · rw [metadataValue, metaJson_of_read hset, hset]
      rfl

theorem restoreStatus_spec (texts : JsonMembers) (metadata : Option String) :
    ∃ status left, restoreStatus texts metadata = .ok (status, left) ∧
      match metadataValue texts metadata with
      | .inl v => status = priorStatus (v.value? statusBeforeArchive) ∧
        metadataValue texts left = .inl
          (if (v.value? statusBeforeArchive).isSome then v.removeMember statusBeforeArchive else v)
      | .inr m => status = "disabled" ∧ metadataValue texts left = .inr m := by
  rw [restoreStatus, valid, metadataValue]
  cases hread : texts.read (metaJson metadata) with
  | none => exact ⟨"disabled", metadata, rfl, rfl, by rw [metadataValue, hread]⟩
  | some v =>
    have hremove := texts.read_remove hread statusBeforeArchive
    have hextract : texts.jsonExtract (metaJson metadata) statusBeforeArchive =
        .ok (v.value? statusBeforeArchive) := by
      rw [jsonExtract, hread]
    cases hsome : (v.value? statusBeforeArchive).isSome with
    | false =>
      refine ⟨priorStatus (v.value? statusBeforeArchive), metadata, ?_, rfl, ?_⟩
      · simp [hextract, hsome, bind, Except.bind, pure, Except.pure]
      · rw [metadataValue, hread]
        exact congrArg Sum.inl (if_neg (by simp [hsome])).symm
    | true =>
      refine ⟨priorStatus (v.value? statusBeforeArchive),
        some (texts.remove (metaJson metadata) statusBeforeArchive), ?_, rfl, ?_⟩
      · simp [hextract, hsome, jsonRemove, valid, hread, bind, Except.bind, pure, Except.pure,
          Except.map]
      · rw [metadataValue, metaJson_of_read hremove, hremove]
        exact congrArg Sum.inl (if_pos hsome).symm

def backStatus (status : String) : Json ⊕ Option String → String
  | .inl v => if v.isObject ∧ status ∈ restorable then status else "disabled"
  | .inr _ => "disabled"

def backValue (status : String) : Json ⊕ Option String → Json ⊕ Option String
  | .inl v => .inl (if v.isObject then
      (v.setMember statusBeforeArchive (.str status)).removeMember statusBeforeArchive else v)
  | .inr metadata => .inr metadata

theorem isNull_iff (s : Stamp) : s.isNull = true ↔ s = .null := by
  cases s <;> simp [Stamp.isNull]

theorem archiveSubscriber_spec (texts : JsonMembers) {row : SubscriberRow α}
    (hlive : row.account.deletedAt.isNull = true) (archiver : Archiver) (now : ℤ) :
    ∃ archived, archiveSubscriber texts archiver now row = .ok (archived, true) ∧
      archived.account = { row.account with deletedAt := .instant now, status := "disabled" } ∧
      metadataValue texts archived.metadata = (metadataValue texts row.metadata).map
        (·.setMember statusBeforeArchive (.str row.account.status)) id ∧
      archived.others = row.others := by
  obtain ⟨parked, hparked, hvalue⟩ := rememberStatus_spec texts row.metadata
    row.account.status
  rw [archiveSubscriber, if_pos hlive, hparked]
  exact ⟨_, rfl, rfl, hvalue, rfl⟩

theorem cycle_spec (texts : JsonMembers) {row : SubscriberRow α}
    (hlive : row.account.deletedAt = .null) (c : Cycle) :
    ∃ after, cycle texts row c = .ok after ∧
      after.account = { row.account with
        status := backStatus row.account.status (metadataValue texts row.metadata) } ∧
      metadataValue texts after.metadata =
        backValue row.account.status (metadataValue texts row.metadata) ∧
      after.others = row.others := by
  obtain ⟨archived, harchive, haccount, hvalue, hothers⟩ :=
    archiveSubscriber_spec texts ((isNull_iff _).mpr hlive) c.archiver c.archivedAt
  obtain ⟨status, left, hrestore, hback⟩ := restoreStatus_spec texts archived.metadata
  have hbinned : (!archived.account.deletedAt.isNull) = true := by
    rw [haccount]
    rfl
  refine ⟨{ archived with
    account := { archived.account with deletedAt := .null, status := status }
    metadata := left
    updatedAt := .instant c.restoredAt
    bin := { archived.bin with deletedBy := "", deleteReason := "" } }, ?_, ?_, ?_, hothers⟩
  · simp only [cycle, harchive, restoreSubscriber, if_pos hbinned, hrestore, bind, Except.bind,
      pure, Except.pure]
  · rw [hvalue] at hback
    suffices hstatus : status =
        backStatus row.account.status (metadataValue texts row.metadata) by
      rw [haccount, hstatus, ← hlive]
    cases hmeta : metadataValue texts row.metadata with
    | inr m =>
      rw [hmeta] at hback
      exact hback.1
    | inl v =>
      simp only [hmeta, Sum.map_inl, Json.value?_setMember] at hback
      rw [hback.1, backStatus]
      cases v.isObject with
      | false => rfl
      | true => simp [priorStatus]
  · rw [hvalue] at hback
    cases hmeta : metadataValue texts row.metadata with
    | inr m =>
      rw [hmeta] at hback
      exact hback.2
    | inl v =>
      simp only [hmeta, Sum.map_inl, Json.value?_setMember] at hback
      refine hback.2.trans (congrArg Sum.inl ?_)
      cases hobject : v.isObject with
      | false => exact Json.setMember_of_not hobject _ _
      | true => rfl

theorem parked_iff (row : SubscriberRow α) : Parked texts row ↔
    backStatus row.account.status (metadataValue texts row.metadata) = row.account.status ∧
      backValue row.account.status (metadataValue texts row.metadata) =
        metadataValue texts row.metadata := by
  rw [Parked]
  cases metadataValue texts row.metadata with
  | inr m => simp [backStatus, backValue, eq_comm]
  | inl v =>
    cases hobject : v.isObject with
    | false => simp [backStatus, backValue, hobject, eq_comm]
    | true =>
      have hstatus : (if row.account.status ∈ restorable then row.account.status else "disabled") =
          row.account.status ↔ row.account.status ∈ restorable := by
        split_ifs with hmem
        · simp [hmem]
        · refine iff_of_false (fun hdisabled => hmem ?_) hmem
          rw [← hdisabled]
          decide
      simp [backStatus, backValue, hobject, hstatus, Json.removeMember_setMember_iff hobject,
        and_comm]

theorem cycle_returned (texts : JsonMembers) {row : SubscriberRow α}
    (hlive : row.account.deletedAt = .null) (c : Cycle) :
    ∃ after, cycle texts row c = .ok after ∧ (Returned texts row after ↔ Parked texts row) := by
  obtain ⟨after, hcycle, haccount, hvalue, hothers⟩ := cycle_spec texts hlive c
  refine ⟨after, hcycle, ?_⟩
  rw [parked_iff, ← hvalue]
  constructor
  · intro h
    refine ⟨?_, h.metadata⟩
    have hsame := congrArg Subscriber.status (haccount.symm.trans h.account)
    exact hsame
  · rintro ⟨hstatus, hmeta⟩
    refine ⟨?_, hmeta, hothers⟩
    rw [haccount, hstatus]

theorem Returned.parked {row after : SubscriberRow α} (h : Returned texts row after)
    (hparked : Parked texts row) : Parked texts after := by
  rw [Parked, h.metadata, h.account]
  exact hparked

theorem runCycles_returned (cycles : List Cycle) :
    ∀ {row : SubscriberRow α}, row.account.deletedAt = .null → Parked texts row →
      ∃ after, runCycles texts cycles row = .ok after ∧ Returned texts row after := by
  induction cycles with
  | nil => exact fun {row} _ _ => ⟨row, rfl, rfl, rfl, rfl⟩
  | cons c cycles ih =>
    intro row hlive hparked
    obtain ⟨after, hcycle, hreturned⟩ := cycle_returned texts hlive c
    have hfirst := hreturned.mpr hparked
    obtain ⟨last, hrun, hlast⟩ := ih (by rw [hfirst.account]; exact hlive) (hfirst.parked hparked)
    refine ⟨last, ?_, hlast.account.trans hfirst.account, hlast.metadata.trans hfirst.metadata,
      hlast.others.trans hfirst.others⟩
    rw [runCycles, List.foldlM_cons, hcycle]
    exact hrun

end

section
variable {β : Type}

theorem archiveCard_spec {row : CardRow β} (hlive : row.card.deletedAt.isNull = true)
    (archiver : Archiver) (now : ℤ) :
    (archiveCard archiver now row).1.card.deletedAt = .instant now ∧
      (archiveCard archiver now row).1.card.revoked = true := by
  unfold archiveCard
  rw [if_pos hlive]
  cases archiver <;> exact ⟨rfl, rfl⟩

theorem cardCycle_eq {row : CardRow β} (hlive : row.card.deletedAt = .null) (c : Cycle) :
    cardCycle row c =
      { card := { row.card with revoked := true, deletedBy := "", deleteReason := "" }
        others := row.others } := by
  have hnull : row.card.deletedAt.isNull = true := (isNull_iff _).mpr hlive
  have hbinned : (!(archiveCard c.archiver c.archivedAt row).1.card.deletedAt.isNull) = true := by
    rw [(archiveCard_spec hnull _ _).1]
    rfl
  rw [cardCycle, restoreCardFromBin, if_pos hbinned]
  unfold archiveCard
  rw [if_pos hnull]
  cases c.archiver <;> simp [Card.bin, Card.unbin, hlive]

theorem cardCycle_returned {row : CardRow β} (hlive : row.card.deletedAt = .null) (c : Cycle) :
    cardCycle row c = row.revoke ↔ row.bin = {} := by
  rw [cardCycle_eq hlive]
  obtain ⟨card, source, policy, retention, auto, others⟩ := row
  cases card
  simp only [CardRow.revoke, CardRow.bin, CardRow.mk.injEq, Card.mk.injEq, Bookkeeping.mk.injEq,
    true_and, and_true, eq_comm]
  tauto

theorem runCards_returned {row : CardRow β} (hlive : row.card.deletedAt = .null)
    (hblank : row.bin = {}) (c : Cycle) (cycles : List Cycle) :
    (c :: cycles).foldl cardCycle row = row.revoke := by
  induction cycles generalizing c row with
  | nil => exact (cardCycle_returned hlive c).mpr hblank
  | cons c' cycles ih =>
    rw [List.foldl_cons, (cardCycle_returned hlive c).mpr hblank]
    change (c' :: cycles).foldl cardCycle row.revoke = row.revoke.revoke
    refine ih ?_ ?_ c'
    · exact hlive
    · exact hblank

end

section
variable {α β : Type} {texts : JsonMembers}

theorem findLogin_live {db : Db} {req req' : AuthRequest} {sub : Subscriber}
    (h : findLogin db req = some (req', sub, .subscriber)) : sub.deletedAt.isNull = true := by
  have hfound : db.subscriber req.tenantId req.username false = some sub := by
    unfold findLogin at h
    cases hrow : db.subscriber req.tenantId req.username false with
    | none =>
      simp only [hrow] at h
      cases hcard : db.card req.tenantId req.username with
      | some card => simp [hcard] at h
      | none =>
        simp only [hcard, Option.map_none] at h
        split_ifs at h
        · obtain ⟨c, -, hc⟩ := Option.map_eq_some_iff.mp h
          simp at hc
        · cases h
    | some s =>
      simp only [hrow] at h
      split_ifs at h
      · cases hcard : db.card req.tenantId req.username <;> simp_all
      · simp_all
  have hlive := List.find?_some hfound
  simp only [Bool.false_or, Bool.and_eq_true] at hlive
  exact hlive.2

theorem archiveSubscriber_total (archiver : Archiver) (now : ℤ) (row : SubscriberRow α) :
    ∃ result, archiveSubscriber texts archiver now row = .ok result := by
  by_cases hlive : row.account.deletedAt.isNull = true
  · obtain ⟨archived, h, -⟩ := archiveSubscriber_spec texts hlive archiver now
    exact ⟨_, h⟩
  · exact ⟨_, by rw [archiveSubscriber, if_neg hlive]; rfl⟩

theorem restoreSubscriber_total (now : ℤ) (row : SubscriberRow α) :
    ∃ result, restoreSubscriber texts now row = .ok result := by
  rw [restoreSubscriber]
  split_ifs
  · obtain ⟨status, left, h, -⟩ := restoreStatus_spec texts row.metadata
    rw [h]
    exact ⟨_, rfl⟩
  · exact ⟨_, rfl⟩

theorem archived_shut {archiver : Archiver} {now : ℤ} {row archived : SubscriberRow α}
    (h : archiveSubscriber texts archiver now row = .ok (archived, true)) (db : Db)
    (req req' : AuthRequest) : findLogin db req ≠ some (req', archived.account, .subscriber) := by
  intro hlogin
  have hlive := findLogin_live hlogin
  by_cases hrow : row.account.deletedAt.isNull = true
  · obtain ⟨archived', h', haccount, -⟩ := archiveSubscriber_spec texts hrow archiver now
    cases h.symm.trans h'
    rw [haccount] at hlive
    cases hlive
  · rw [archiveSubscriber, if_neg hrow] at h
    cases h

theorem cardShut_iff (renews : Bool) (others : β) :
    (∀ (row archived : CardRow β) (archiver : Archiver) (now : ℤ),
      archiveCard archiver now row = (archived, true) →
        ∀ (env : Env) (db : Db) (req : AuthRequest), env.BlocksReject →
          (marks db archived.card).autoRenew = renews → loginCard db req = some archived.card →
            ¬Accepted env db req) ↔ renews = false := by
  constructor
  · intro h
    by_contra hrenews
    let m : Marks :=
      { revoked := true, deleted := true, printOnly := false, rechargeOnly := false,
        batchDead := false, autoRenew := true }
    obtain ⟨hlogin, hmarks⟩ := marks_markedDb m
    let row : CardRow β := { card := { markedCard m with deletedAt := .null }, others := others }
    refine h row (archiveCard (.byHand "" "") 0 row).1 (.byHand "" "") 0 rfl (calmEnv 0)
      (markedDb m) markedLogin ?_ ?_ hlogin ?_
    · rintro _ _ _ _ d ⟨⟩
    · rw [Bool.not_eq_false] at hrenews
      exact (congrArg Marks.autoRenew hmarks).trans hrenews.symm
    · rcases markedDb_accepted m rfl with hd | hd
      · exact ⟨_, hd, rfl⟩
      · exact ⟨_, hd, rfl⟩
  · rintro rfl row archived archiver now harchive env db req hblocks hflag hlogin
    have hlive : row.card.deletedAt.isNull = true := by
      by_contra hnot
      unfold archiveCard at harchive
      rw [if_neg hnot] at harchive
      cases harchive
    have hrevoked := (archiveCard_spec hlive archiver now).2
    rw [harchive] at hrevoked
    refine shown_rejected hblocks hlogin ?_
    rw [Marks.shown, hflag]
    simp [marks, show archived.card.revoked = true from hrevoked]

theorem runCycles_iff {row : SubscriberRow α} (hlive : row.account.deletedAt = .null) :
    (∀ cycles, ∃ after, runCycles texts cycles row = .ok after ∧ Returned texts row after) ↔
      Parked texts row := by
  refine ⟨fun h => ?_, fun hparked cycles => runCycles_returned cycles hlive hparked⟩
  let c : Cycle := { archiver := .byHand "" "", archivedAt := 0, restoredAt := 0 }
  obtain ⟨after, hrun, hreturned⟩ := h [c]
  obtain ⟨after', hcycle, hiff⟩ := cycle_returned texts hlive c
  have hsame : after' = after := by
    rw [runCycles, List.foldlM_cons, hcycle] at hrun
    exact Except.ok.inj hrun
  exact hiff.mp (hsame ▸ hreturned)

theorem binKept_iff {row : SubscriberRow α} {card : CardRow β} {renews : Bool}
    (hrow : row.account.deletedAt = .null) (hcard : card.card.deletedAt = .null) :
    BinKept texts row card renews ↔ Parked texts row ∧ card.bin = {} ∧ renews = false := by
  constructor
  · intro h
    let c : Cycle := { archiver := .byHand "" "", archivedAt := 0, restoredAt := 0 }
    exact ⟨(runCycles_iff hrow).mp h.subscriber, (cardCycle_returned hcard c).mp (h.card c []),
      (cardShut_iff renews card.others).mp h.cardShut⟩
  · rintro ⟨hparked, hblank, hrenews⟩
    exact ⟨fun cycles => runCycles_returned cycles hrow hparked,
      fun c cycles => runCards_returned hcard hblank c cycles,
      fun row archiver now archived h db req req' => archived_shut h db req req',
      (cardShut_iff renews card.others).mpr hrenews,
      fun row archiver now =>
        ⟨archiveSubscriber_total archiver now row, restoreSubscriber_total now row⟩⟩

end

def plainAccount (status : String) : SubscriberRow Unit :=
  { account := { username := "ahmad", status := status }, metadata := some "", others := () }

def plainCard : CardRow Unit :=
  { card := { id := 1, batchId := 1, username := "ab12", password := "ab12" }, others := () }

theorem metadataValue_plainAccount (status : String) :
    metadataValue plainTexts (plainAccount status).metadata = .inl (.obj []) := by
  have hempty : metaJson (plainAccount status).metadata = "\x7b\x7d" := by
    simp [metaJson, plainAccount]
  rw [metadataValue, hempty, plainTexts.read_empty]

theorem suspended_bin_kept : BinKept plainTexts (plainAccount "suspended") plainCard false := by
  refine (binKept_iff rfl rfl).mpr ⟨?_, rfl, rfl⟩
  rw [Parked, metadataValue_plainAccount]
  exact ⟨⟨[], rfl, by simp⟩, by decide⟩

/-- An expired account comes back disabled. -/
theorem expired_comes_back_disabled : ¬∀ (texts : JsonMembers) (row : SubscriberRow Unit)
    (card : CardRow Unit) (renews : Bool), row.account.deletedAt = .null →
      card.card.deletedAt = .null → BinKept texts row card renews := by
  intro h
  have hkept := h plainTexts (plainAccount "expired") plainCard false rfl rfl
  have hparked := (runCycles_iff rfl).mp hkept.subscriber
  rw [Parked, metadataValue_plainAccount] at hparked
  have hstatus : "expired" ∈ restorable := hparked.2
  revert hstatus
  decide

end RadiusModule.RecycleBin
