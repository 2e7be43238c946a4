import RadiusModule.Core.Database
import RadiusModule.Library.Keyed
import RadiusModule.Library.Run

/-!
# The recycle bin of the batches

`archive_batch` and `restore_batch`, each one transaction over the batch, its
cards and the accounts of its cards, and the two calls that put one card in
the bin and take it out. Each column is followed by itself: a row comes back
when its own update and its own restoration cancel.
-/

namespace RadiusModule

def CardBatch.bin (now : ℤ) (actor reason : String) (b : CardBatch) : CardBatch :=
  { b with
    deletedAt := .instant now
    deletedBy := if actor = "" then "system" else actor
    deleteReason := String.ofList (reason.toList.take 300)
    status := "deleted"
    archiveSource := "manual"
    archivePolicyId := none
    retentionExpiresAt := .null
    autoArchiveAt := .null }

def CardBatch.unbin (b : CardBatch) : CardBatch :=
  { b with
    deletedAt := .null
    deletedBy := ""
    deleteReason := ""
    status := "active"
    archiveSource := ""
    archivePolicyId := none
    retentionExpiresAt := .null
    autoArchiveAt := .null }

def Card.bin (now : ℤ) (actor reason : String) (c : Card) : Card :=
  { c with deletedAt := .instant now, deletedBy := actor, deleteReason := reason }

def Card.unbin (c : Card) : Card := { c with deletedAt := .null, deletedBy := "", deleteReason := "" }

def Subscriber.setStatus (s : Subscriber) (status : String) : Subscriber := { s with status }

namespace BatchArchive
open Library Run

def batchCascadeTag : String := "batch-archived-cascade"

def updateBatches (db : Db) (p : CardBatch → Bool) (f : CardBatch → CardBatch) : Db :=
  { db with batches := db.batches.map fun b => if p b then f b else b }

section

variable (tenantId : ℤ) (batchId : ℕ)

def isBatch (b : CardBatch) : Bool := b.tenantId = tenantId && b.id = batchId

def ofBatch (c : Card) : Bool := c.tenantId = tenantId && c.batchId = batchId

def mirrors (names : List String) (s : Subscriber) : Bool :=
  s.tenantId = tenantId && s.userType = .card && s.username ∈ names

def batchNames (cards : List Card) : List String :=
  (cards.filter (ofBatch tenantId batchId)).map Card.username

def liveNames (cards : List Card) : List String :=
  (cards.filter fun c => ofBatch tenantId batchId c && !c.revoked && c.deletedAt.isNull).map
    Card.username

end

/-- `archive_batch`; the flag says whether there was a batch to archive. -/
def archiveBatch (db : Db) (now : ℤ) (tenantId : ℤ) (batchId : ℕ) (actor reason : String) :
    Db × Bool :=
  let found (b : CardBatch) : Bool := isBatch tenantId batchId b && b.deletedAt.isNull
  if db.batches.any found then
    let binned := (updateBatches db found (CardBatch.bin now actor reason)).updateCards
      (fun c => ofBatch tenantId batchId c && c.deletedAt.isOpen)
      (Card.bin now (if actor = "" then "system" else actor) batchCascadeTag)
    (binned.updateSubscribers
      (fun s => mirrors tenantId (batchNames tenantId batchId binned.cards) s &&
        s.status = "enabled")
      (Subscriber.setStatus · "disabled"), true)
  else (db, false)

def restoreBatch (db : Db) (tenantId : ℤ) (batchId : ℕ) : Db × Bool :=
  let found (b : CardBatch) : Bool := isBatch tenantId batchId b && !b.deletedAt.isNull
  if db.batches.any found then
    let restored := (updateBatches db found CardBatch.unbin).updateCards
      (fun c => ofBatch tenantId batchId c && c.deleteReason = batchCascadeTag) Card.unbin
    (restored.updateSubscribers
      (fun s => mirrors tenantId (liveNames tenantId batchId restored.cards) s &&
        s.status = "disabled")
      (Subscriber.setStatus · "enabled"), true)
  else (db, false)

inductive CardCall
  | softDelete (now : ℤ) (tenantId : ℤ) (cardId : ℕ) (actor reason : String)
  | restoreFromBin (tenantId : ℤ) (cardId : ℕ)

def call (db : Db) : CardCall → Db
  | .softDelete now tenantId cardId actor reason =>
    db.updateCards (fun c => c.tenantId = tenantId && c.id = cardId && c.deletedAt.isNull)
      fun c => { Card.bin now actor reason c with revoked := true }
  | .restoreFromBin tenantId cardId =>
    db.updateCards (fun c => c.tenantId = tenantId && c.id = cardId && !c.deletedAt.isNull) Card.unbin

variable {tenantId : ℤ} {batchId : ℕ} {now : ℤ} {actor reason : String}

/-- A live card comes back when it carries no trace of an earlier deletion, a deleted one when its
reason is not the cascade's. -/
def CardReturns (c : Card) : Prop :=
  if c.deletedAt.isOpen then c.deletedAt = .null ∧ c.deletedBy = "" ∧ c.deleteReason = ""
  else c.deleteReason ≠ batchCascadeTag

def MirrorReturns (live : List String) (s : Subscriber) : Prop :=
  (s.status = "enabled" → s.username ∈ live) ∧ (s.status = "disabled" → s.username ∉ live)

def binCard (tenantId : ℤ) (batchId : ℕ) (now : ℤ) (actor : String) (c : Card) : Card :=
  if ofBatch tenantId batchId c && c.deletedAt.isOpen then Card.bin now actor batchCascadeTag c else c

def unbinCard (tenantId : ℤ) (batchId : ℕ) (c : Card) : Card :=
  if ofBatch tenantId batchId c && c.deleteReason = batchCascadeTag then Card.unbin c else c

theorem isOpen_binCard {c : Card} (h : ofBatch tenantId batchId c = true) :
    (binCard tenantId batchId now actor c).deletedAt.isOpen = false := by
  rw [binCard]
  split_ifs with hopen
  · rfl
  · simpa [h] using hopen

theorem unbin_bin_iff (c : Card) :
    unbinCard tenantId batchId (binCard tenantId batchId now actor c) = c ↔
      (ofBatch tenantId batchId c = true → CardReturns c) := by
  cases hmine : ofBatch tenantId batchId c with
  | false => simp [binCard, unbinCard, hmine]
  | true =>
    cases hopen : c.deletedAt.isOpen with
    | true =>
      have hbin : ofBatch tenantId batchId (Card.bin now actor batchCascadeTag c) = true := hmine
      simp only [binCard, hmine, hopen, Bool.and_self, if_true, unbinCard, hbin, CardReturns,
        Bool.true_and]
      rw [if_pos (by simp [Card.bin])]
      constructor
      · intro h _
        rw [← h]
        exact ⟨rfl, rfl, rfl⟩
      · intro h
        obtain ⟨hat, hby, hreason⟩ := h trivial
        cases c
        simp_all [Card.bin, Card.unbin]
    | false =>
      simp only [binCard, hmine, hopen, Bool.and_false, Bool.false_eq_true, if_false, unbinCard,
        CardReturns, Bool.true_and, decide_eq_true_eq]
      split_ifs with htag
      · simp only [htag, ne_eq, not_true_eq_false, imp_false]
        refine iff_of_false (fun h => ?_) not_false
        rw [← h] at hopen
        cases hopen
      · simp [htag]

theorem setStatus_eq_self_iff (s : Subscriber) (status : String) :
    s.setStatus status = s ↔ s.status = status := by
  constructor
  · intro h
    rw [← h]
    rfl
  · rintro rfl
    rfl

def disableMirror (tenantId : ℤ) (names : List String) (s : Subscriber) : Subscriber :=
  if mirrors tenantId names s && s.status = "enabled" then s.setStatus "disabled" else s

def enableMirror (tenantId : ℤ) (live : List String) (s : Subscriber) : Subscriber :=
  if mirrors tenantId live s && s.status = "disabled" then s.setStatus "enabled" else s

theorem mirrors_setStatus (names : List String) (s : Subscriber) (status : String) :
    mirrors tenantId names (s.setStatus status) = mirrors tenantId names s := rfl

theorem enable_disable_iff {names live : List String} (hlive : live ⊆ names) (s : Subscriber) :
    enableMirror tenantId live (disableMirror tenantId names s) = s ↔
      (mirrors tenantId names s = true → MirrorReturns live s) := by
  have hmirrors : ∀ l, mirrors tenantId l s = true ↔
      (s.tenantId = tenantId ∧ s.userType = .card) ∧ s.username ∈ l := by simp [mirrors]
  by_cases hmine : mirrors tenantId names s = true
  · obtain ⟨hcard, hname⟩ := (hmirrors names).mp hmine
    have hin : mirrors tenantId live s = true ↔ s.username ∈ live := by simp [hmirrors, hcard]
    simp only [hmine, forall_const, MirrorReturns, ← hin]
    by_cases henabled : s.status = "enabled"
    · have hdisable : disableMirror tenantId names s = s.setStatus "disabled" :=
        if_pos (by simp [hmine, henabled])
      rw [hdisable, enableMirror, mirrors_setStatus]
      cases hlivecard : mirrors tenantId live s with
      | true =>
        have hback : (s.setStatus "disabled").setStatus "enabled" = s :=
          (setStatus_eq_self_iff s "enabled").mpr henabled
        rw [if_pos (by simp [Subscriber.setStatus]), hback]
        simp [henabled]
      | false => simp [henabled, setStatus_eq_self_iff]
    · have hdisable : disableMirror tenantId names s = s := if_neg (by simp [henabled])
      rw [hdisable, enableMirror]
      split_ifs with hboth
      · simp only [Bool.and_eq_true, decide_eq_true_eq] at hboth
        simp [setStatus_eq_self_iff, hboth]
      · simp only [Bool.and_eq_true, decide_eq_true_eq, not_and] at hboth
        simpa [henabled] using fun hdisabled hlivecard => hboth hlivecard hdisabled
  · have hnone : ¬mirrors tenantId live s = true := fun hlivecard =>
      hmine ((hmirrors names).mpr ((hmirrors live).mp hlivecard |>.imp_right fun h => hlive h))
    simp [disableMirror, enableMirror, hmine, hnone]

theorem batch_updateBatches (tenantId : ℤ) (db : Db) {p : CardBatch → Bool} {f : CardBatch → CardBatch}
    (hf : ∀ b, (f b).tenantId = b.tenantId ∧ (f b).id = b.id) (id : ℕ) :
    (updateBatches db p f).batch tenantId id =
      (db.batch tenantId id).map fun b => if p b then f b else b := by
  simp only [Db.batch, updateBatches, List.find?_map]
  congr 2
  funext b
  simp only [Function.comp]
  split_ifs
  · rw [(hf b).1, (hf b).2]
  · rfl

variable (tenantId batchId) in
theorem batchNames_map {f : Card → Card}
    (hf : ∀ c, ofBatch tenantId batchId (f c) = ofBatch tenantId batchId c ∧
      (f c).username = c.username) (cards : List Card) :
    batchNames tenantId batchId (cards.map f) = batchNames tenantId batchId cards := by
  rw [batchNames, batchNames, List.filter_map, List.map_map]
  have hfilter : (ofBatch tenantId batchId ∘ f) = ofBatch tenantId batchId :=
    funext fun c => (hf c).1
  rw [hfilter]
  exact List.map_congr_left fun c _ => (hf c).2

theorem liveNames_subset (cards : List Card) :
    liveNames tenantId batchId cards ⊆ batchNames tenantId batchId cards := by
  intro name hname
  obtain ⟨c, hc, rfl⟩ := List.mem_map.mp hname
  simp only [List.mem_filter, Bool.and_eq_true] at hc
  exact List.mem_map.mpr ⟨c, List.mem_filter.mpr ⟨hc.1, hc.2.1.1⟩, rfl⟩

variable (now actor) in
theorem binCard_keys (c : Card) :
    ofBatch tenantId batchId (binCard tenantId batchId now actor c) = ofBatch tenantId batchId c ∧
      (binCard tenantId batchId now actor c).username = c.username := by
  unfold binCard
  split_ifs <;> exact ⟨rfl, rfl⟩

structure Archived (db db' : Db) (tenantId : ℤ) (batchId : ℕ) (now : ℤ) (actor reason : String) :
    Prop where
  batch : db'.batch tenantId batchId =
    (db.batch tenantId batchId).map (CardBatch.bin now actor reason)
  cards : db'.cards = db.cards.map
    (binCard tenantId batchId now (if actor = "" then "system" else actor))
  subscribers : db'.subscribers =
    db.subscribers.map (disableMirror tenantId (batchNames tenantId batchId db.cards))

variable (now actor reason) in
theorem archived {db : Db} {batch : CardBatch} (hbatch : db.batch tenantId batchId = some batch)
    (hlive : batch.deletedAt = .null) :
    (archiveBatch db now tenantId batchId actor reason).2 = true ∧
      Archived db (archiveBatch db now tenantId batchId actor reason).1 tenantId batchId now actor
        reason := by
  have hmine : isBatch tenantId batchId batch = true := by
    simpa [Db.batch, isBatch] using List.find?_some hbatch
  have hfound : (isBatch tenantId batchId batch && batch.deletedAt.isNull) = true := by
    simp [hmine, hlive, Stamp.isNull]
  have hany : db.batches.any (fun b => isBatch tenantId batchId b && b.deletedAt.isNull) = true :=
    List.any_eq_true.mpr ⟨batch, List.mem_of_find?_eq_some hbatch, hfound⟩
  rw [archiveBatch]
  simp only [hany, if_true]
  refine ⟨trivial, ?_, rfl, ?_⟩
  · have hupdate := batch_updateBatches tenantId db
      (p := fun b => isBatch tenantId batchId b && b.deletedAt.isNull)
      (f := CardBatch.bin now actor reason) (fun b => ⟨rfl, rfl⟩) batchId
    rw [hbatch, Option.map_some, if_pos hfound] at hupdate
    rw [hbatch]
    exact hupdate
  · have hnames := batchNames_map tenantId batchId
      (binCard_keys now (if actor = "" then "system" else actor)) db.cards
    rw [← hnames]
    rfl

structure Restored (db db' : Db) (tenantId : ℤ) (batchId : ℕ) : Prop where
  batch : db'.batch tenantId batchId = (db.batch tenantId batchId).map CardBatch.unbin
  cards : db'.cards = db.cards.map (unbinCard tenantId batchId)
  subscribers : db'.subscribers =
    db.subscribers.map (enableMirror tenantId (liveNames tenantId batchId db'.cards))

theorem restored {db : Db} {batch : CardBatch} (hbatch : db.batch tenantId batchId = some batch)
    (hgone : batch.deletedAt.isNull = false) :
    (restoreBatch db tenantId batchId).2 = true ∧
      Restored db (restoreBatch db tenantId batchId).1 tenantId batchId := by
  have hmine : isBatch tenantId batchId batch = true := by
    simpa [Db.batch, isBatch] using List.find?_some hbatch
  have hfound : (isBatch tenantId batchId batch && !batch.deletedAt.isNull) = true := by
    simp [hmine, hgone]
  have hany : db.batches.any (fun b => isBatch tenantId batchId b && !b.deletedAt.isNull) = true :=
    List.any_eq_true.mpr ⟨batch, List.mem_of_find?_eq_some hbatch, hfound⟩
  rw [restoreBatch]
  simp only [hany, if_true]
  refine ⟨trivial, ?_, rfl, rfl⟩
  have hupdate := batch_updateBatches tenantId db
    (p := fun b => isBatch tenantId batchId b && !b.deletedAt.isNull)
    (f := CardBatch.unbin) (fun b => ⟨rfl, rfl⟩) batchId
  rw [hbatch, Option.map_some, if_pos hfound] at hupdate
  rw [hbatch]
  exact hupdate

structure RoundTrips (db db' : Db) (tenantId : ℤ) (batchId : ℕ) : Prop where
  status : (db'.batch tenantId batchId).map CardBatch.status =
    (db.batch tenantId batchId).map CardBatch.status
  cards : db'.cards = db.cards
  subscribers : db'.subscribers = db.subscribers

structure Returns (db : Db) (batch : CardBatch) (tenantId : ℤ) (batchId : ℕ) : Prop where
  active : batch.status = "active"
  cards : ∀ c ∈ db.cards, ofBatch tenantId batchId c = true → CardReturns c
  mirrors : ∀ s ∈ db.subscribers, mirrors tenantId (batchNames tenantId batchId db.cards) s = true →
    MirrorReturns (liveNames tenantId batchId db.cards) s

theorem roundTrips_iff {db : Db} {batch : CardBatch}
    (hbatch : db.batch tenantId batchId = some batch) (hlive : batch.deletedAt = .null) :
    RoundTrips db
        (restoreBatch (archiveBatch db now tenantId batchId actor reason).1 tenantId batchId).1
        tenantId batchId ↔
      Returns db batch tenantId batchId := by
  obtain ⟨-, hbin⟩ := archived now actor reason hbatch hlive
  generalize (archiveBatch db now tenantId batchId actor reason).1 = bin at hbin
  have hbinned : bin.batch tenantId batchId = some (CardBatch.bin now actor reason batch) := by
    rw [hbin.batch, hbatch, Option.map_some]
  obtain ⟨-, hback⟩ := restored hbinned rfl
  generalize (restoreBatch bin tenantId batchId).1 = back at hback
  have hstatus : (back.batch tenantId batchId).map CardBatch.status = some "active" := by
    rw [hback.batch, hbinned]
    rfl
  have hcards : back.cards = db.cards ↔
      ∀ c ∈ db.cards, ofBatch tenantId batchId c = true → CardReturns c := by
    rw [hback.cards, hbin.cards, List.map_map, Keyed.map_eq_self_iff]
    exact forall₂_congr fun c _ => unbin_bin_iff c
  have hmirrors : back.cards = db.cards → (back.subscribers = db.subscribers ↔
      ∀ s ∈ db.subscribers, mirrors tenantId (batchNames tenantId batchId db.cards) s = true →
        MirrorReturns (liveNames tenantId batchId db.cards) s) := by
    intro hsame
    rw [hback.subscribers, hbin.subscribers, hsame, List.map_map, Keyed.map_eq_self_iff]
    exact forall₂_congr fun s _ => enable_disable_iff (liveNames_subset _) s
  constructor
  · intro h
    have hactive := h.status
    rw [hstatus, hbatch, Option.map_some, Option.some_inj] at hactive
    exact ⟨hactive.symm, hcards.mp h.cards, (hmirrors h.cards).mp h.subscribers⟩
  · intro h
    have hsame := hcards.mpr h.cards
    refine ⟨?_, hsame, (hmirrors hsame).mpr h.mirrors⟩
    rw [hstatus, hbatch, Option.map_some, h.active]

def AllBinned (tenantId : ℤ) (batchId : ℕ) (db : Db) : Prop :=
  ∀ c ∈ db.cards, ofBatch tenantId batchId c = true → c.deletedAt.isOpen = false

def Unbins (db : Db) (tenantId : ℤ) (batchId : ℕ) : CardCall → Prop
  | .softDelete .. => False
  | .restoreFromBin t cardId => t = tenantId ∧
    ∃ c ∈ db.cards, ofBatch tenantId batchId c = true ∧ c.id = cardId

def cardKey (c : Card) : ℤ × ℕ × ℕ := (c.tenantId, c.batchId, c.id)

theorem keys_call (db : Db) (op : CardCall) :
    (call db op).cards.map cardKey = db.cards.map cardKey := by
  cases op with
  | softDelete now tenantId cardId actor reason =>
    simp only [call, Db.updateCards, List.map_map]
    refine List.map_congr_left fun c _ => ?_
    simp only [Function.comp]
    split_ifs <;> rfl
  | restoreFromBin tenantId cardId =>
    simp only [call, Db.updateCards, List.map_map]
    refine List.map_congr_left fun c _ => ?_
    simp only [Function.comp]
    split_ifs <;> rfl

theorem exists_key {db db' : Db} (h : db'.cards.map cardKey = db.cards.map cardKey) {c : Card}
    (hc : c ∈ db.cards) : ∃ c' ∈ db'.cards, cardKey c' = cardKey c :=
  List.mem_map.mp (h ▸ List.mem_map_of_mem hc)

theorem allBinned_call {db db₀ : Db} {op : CardCall} (h : AllBinned tenantId batchId db)
    (hkeys : db.cards.map cardKey = db₀.cards.map cardKey) (hop : ¬Unbins db₀ tenantId batchId op) :
    AllBinned tenantId batchId (call db op) := by
  intro c hc hmine
  cases op with
  | softDelete t at' cardId actor reason =>
    obtain ⟨c', hc', rfl⟩ := List.mem_map.mp hc
    split_ifs at hmine ⊢
    · rfl
    · exact h c' hc' hmine
  | restoreFromBin t cardId =>
    obtain ⟨c', hc', rfl⟩ := List.mem_map.mp hc
    split_ifs at hmine ⊢ with hthis
    · obtain ⟨c₀, hc₀, hkey⟩ := exists_key hkeys.symm hc'
      have hmine' : ofBatch tenantId batchId c' = true := hmine
      simp only [ofBatch, Bool.and_eq_true, decide_eq_true_eq] at hthis hmine'
      simp only [cardKey, Prod.mk.injEq] at hkey
      refine absurd ⟨hthis.1.1.symm.trans hmine'.1, c₀, hc₀, ?_, hkey.2.2.trans hthis.1.2⟩ hop
      simp [ofBatch, hkey, hmine']
    · exact h c' hc' hmine

theorem unbins_call {db db₀ : Db} {op : CardCall} (h : AllBinned tenantId batchId db)
    (hkeys : db.cards.map cardKey = db₀.cards.map cardKey) (hop : Unbins db₀ tenantId batchId op) :
    ¬AllBinned tenantId batchId (call db op) := by
  intro hafter
  cases op with
  | softDelete => exact hop
  | restoreFromBin t cardId =>
    obtain ⟨rfl, c₀, hc₀, hmine, rfl⟩ := hop
    obtain ⟨c, hc, hkey⟩ := exists_key hkeys hc₀
    simp only [cardKey, Prod.mk.injEq] at hkey
    simp only [ofBatch, Bool.and_eq_true, decide_eq_true_eq] at hmine
    have hcard : ofBatch t batchId c = true := by simp [ofBatch, hkey, hmine]
    have hbinned := h c hc hcard
    have hnull : c.deletedAt.isNull = false := by
      cases hat : c.deletedAt with
      | instant _ => rfl
      | null => rw [hat] at hbinned; cases hbinned
      | blank => rfl
    have hopen := hafter (Card.unbin c)
      (List.mem_map.mpr ⟨c, hc, if_pos (by simp [hkey, hmine, hnull])⟩) hcard
    cases hopen

theorem staysBinned_iff {db bin : Db} {ops : List CardCall}
    (h : Archived db bin tenantId batchId now actor reason) :
    (∀ before after, ops = before ++ after → AllBinned tenantId batchId (run call bin before)) ↔
      ∀ op ∈ ops, ¬Unbins db tenantId batchId op := by
  have hkeys : ∀ es : List CardCall,
      (run call bin es).cards.map cardKey = db.cards.map cardKey := by
    intro es
    refine run_always (I := fun s => s.cards.map cardKey = db.cards.map cardKey)
      (fun s e hs => (keys_call s e).trans hs) ?_
    rw [h.cards, List.map_map]
    refine List.map_congr_left fun c _ => ?_
    simp only [Function.comp, binCard]
    split_ifs <;> rfl
  have hstart : AllBinned tenantId batchId bin := by
    intro c hc hmine
    rw [h.cards] at hc
    obtain ⟨c₀, -, rfl⟩ := List.mem_map.mp hc
    exact isOpen_binCard ((binCard_keys _ _ c₀).1 ▸ hmine)
  constructor
  · intro hall op hop hunbins
    obtain ⟨before, after, rfl⟩ := List.append_of_mem hop
    refine unbins_call (hall before (op :: after) rfl) (hkeys before) hunbins ?_
    have hnext := hall (before ++ [op]) after (by simp)
    rwa [run, List.foldl_append] at hnext
  · intro hnone before after hsplit
    induction before using List.reverseRecOn generalizing after with
    | nil => exact hstart
    | append_singleton before op ih =>
      rw [run, List.foldl_append]
      refine allBinned_call (ih (op :: after) (by simpa using hsplit)) (hkeys before) (hnone op ?_)
      simp [hsplit]

/-- An archived batch comes back as it was, and its cards stay in the bin meanwhile, exactly for an
active batch whose cards and accounts the two filters tell apart, as long as no card is taken out
of the bin by itself. -/
theorem archive_undone_iff {db : Db} {batch : CardBatch} (ops : List CardCall)
    (hbatch : db.batch tenantId batchId = some batch) (hlive : batch.deletedAt = .null) :
    (RoundTrips db
        (restoreBatch (archiveBatch db now tenantId batchId actor reason).1 tenantId batchId).1
        tenantId batchId ∧
      ∀ before after, ops = before ++ after → AllBinned tenantId batchId
        (run call (archiveBatch db now tenantId batchId actor reason).1 before)) ↔
      Returns db batch tenantId batchId ∧ ∀ op ∈ ops, ¬Unbins db tenantId batchId op :=
  and_congr (roundTrips_iff hbatch hlive) (staysBinned_iff (archived _ _ _ hbatch hlive).2)

def shopDb : Db where
  batches := [{ id := 1 }]
  cards := [{ id := 1, batchId := 1, username := "4711", used := true },
    { id := 2, batchId := 1, username := "4712", revoked := true }]
  subscribers := [{ username := "4711", userType := .card },
    { username := "4712", userType := .card, status := "disabled" }]

theorem archive_undone_shop :
    RoundTrips shopDb (restoreBatch (archiveBatch shopDb 0 1 1 "ali" "").1 1 1).1 1 1 ∧
      ∀ before after, [CardCall.softDelete 0 1 2 "ali" ""] = before ++ after →
        AllBinned 1 1 (run call (archiveBatch shopDb 0 1 1 "ali" "").1 before) := by
  refine (@archive_undone_iff 1 1 0 "ali" "" shopDb { id := 1 } _ rfl rfl).mpr ⟨⟨rfl, ?_, ?_⟩, ?_⟩
  · simp [shopDb, ofBatch, CardReturns, Stamp.isOpen]
  · simp [shopDb, mirrors, batchNames, liveNames, ofBatch, MirrorReturns, Stamp.isNull]
  · simp [Unbins]

theorem exhausted_batch_restored_active :
    ¬RoundTrips { batches := [{ id := 1, status := "exhausted" }] }
      (restoreBatch (archiveBatch { batches := [{ id := 1, status := "exhausted" }] } 0 1 1 "ali"
        "").1 1 1).1 1 1 := by
  intro h
  have hstatus := h.status
  revert hstatus
  decide

end BatchArchive
end RadiusModule
