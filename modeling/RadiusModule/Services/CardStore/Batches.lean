import RadiusModule.Library.PyText
import RadiusModule.Services.CardStore.Tables

/-!
# Creating a batch with its cards

`create_batch_with_cards` writes the row of the batch, its cards and their
accounts in one transaction. A request whose key a live batch carries already
gets that batch. The rows come from a callback that reads the store.
-/

namespace RadiusModule.CardStore
open Library Connection PyText

def clientKey (key : String) : Option String :=
  if strip key = "" then none else some (strip key)

/-- What the rows callback gives: names with passwords, and the count of the batch where some were
left out. -/
abbrev Rows := List (String × String) × Option ℕ

structure Request where
  tenantId : ℤ
  count : ℕ
  metadata : Metadata
  rowsFactory : Store → ℕ → Except Error Rows
  insertAccounts : Bool
  idempotencyKey : String
  keyed : metadata.idempotencyKey = clientKey idempotencyKey

structure Env where
  day : String
  token : String
  faults : Faults := {}

structure Reply where
  batchId : ℕ
  idempotentReplay : Bool
deriving DecidableEq

abbrev Tx := Prog Store Statement Empty Error Reply

def startsLike (text head : String) : Bool := (lower head).toList.isPrefixOf (lower text).toList

/-- `int(tail) if tail.isdigit()` -/
def sequence? (batchCode : String) : Option ℕ :=
  let tail := ((split batchCode '-').getLastD "").toList
  if tail ≠ [] ∧ tail.all fun c => (digit? c).isSome then natChars? tail else none

/-- `f"\x7bn:04d\x7d"` -/
def pad4 (n : ℕ) : String :=
  let digits := Nat.toDigits 10 n
  String.ofList (List.replicate (4 - digits.length) '0' ++ digits)

def codePrefix (env : Env) : String := "B-" ++ env.day ++ "-"

def Store.codeUsed (s : Store) (tenantId : ℤ) (code : String) : Bool :=
  s.batches.rows.any fun b => b.tenantId = tenantId && b.batchCode = code

def buildBatchCode (env : Env) (s : Store) (tenantId : ℤ) : String :=
  let sameDay := s.batches.toTable.select fun b =>
    b.tenantId = tenantId && startsLike b.batchCode (codePrefix env)
  let base := (sameDay.filterMap fun b => sequence? b.batchCode).foldl max 0
  let candidates := (List.range 1000).map fun i => codePrefix env ++ pad4 (base + 1 + i)
  (candidates.find? fun code => !s.codeUsed tenantId code).getD (codePrefix env ++ env.token)

def Batch.carries (b : Batch) (tenantId : ℤ) (key : String) : Bool :=
  b.tenantId = tenantId && !b.deleted && b.metadata.idempotencyKey = some key

def findBatchByIdempotencyKey (s : Store) (tenantId : ℤ) (key : String) : Option Batch :=
  match clientKey key with
  | none => none
  | some key => s.batches.toTable.last? fun b => b.carries tenantId key

/-- The test of `_check_idempotency_fingerprint`: each has a fingerprint, and they differ. -/
def fingerprintsDiffer (old new : Metadata) : Bool :=
  match old.idempotencyFp, new.idempotencyFp with
  | some oldFp, some newFp => newFp ≠ "" && oldFp ≠ "" && oldFp ≠ newFp
  | _, _ => false

/-- `_insert_card_accounts`, of the cards with the newest first. -/
def insertCardAccounts (tenantId : ℤ) (batchId : ℕ) (cards : List Card) (next : Tx) : Tx :=
  .each (cards.map fun c => .insertAccount tenantId batchId c.username c.password)
    (.statement .select fun s =>
      let id? (c : Card) := (s.accounts.rows.find? fun a =>
        a.tenantId = tenantId && a.username = c.username).map Account.id
      .each [.enqueue (cards.map fun c => ⟨tenantId, id? c, c.username⟩)] next)

def writeRows (r : Request) (batchId : ℕ) (rows : Rows) : List Statement :=
  (rows.2.map (.setCount r.tenantId batchId)).toList ++
    (rows.1.map fun row => .insertCard r.tenantId batchId row.1 row.2) ++
    [.addGenerated r.tenantId batchId rows.1.length]

def newBatch (env : Env) (r : Request) (s : Store) : Tx :=
  .statement (.insertBatch r.tenantId (buildBatchCode env s r.tenantId) r.count r.metadata) fun t =>
    let batchId := s.batches.next
    match r.rowsFactory t batchId with
    | .error e => .raise e
    | .ok rows =>
      .each (writeRows r batchId rows) (.statement .select fun u =>
        let cards := (u.cards.toTable.select fun c =>
          c.tenantId = r.tenantId && c.batchId = batchId).reverse
        if r.insertAccounts then
          insertCardAccounts r.tenantId batchId cards (.ret ⟨batchId, false⟩)
        else .ret ⟨batchId, false⟩)

def creation (env : Env) (r : Request) : Tx :=
  .statement .select fun s =>
    match findBatchByIdempotencyKey s r.tenantId r.idempotencyKey with
    | some b =>
      if fingerprintsDiffer b.metadata r.metadata then .raise .idempotencyKeyReused
      else .ret ⟨b.id, true⟩
    | none => newBatch env r s

def createBatchWithCards (env : Env) (r : Request) : Tx := .transaction (creation env r) .ret

section
variable {faults : Faults} {s t : Store} {tenantId : ℤ} {batchId : ℕ}

theorem replay_insertCards {rows : List (String × String)}
    (h : replay faults.sqlite (rows.map fun row => .insertCard tenantId batchId row.1 row.2) s =
      .ok t) :
    ∃ cards, t.cards.rows = s.cards.rows ++ cards ∧
      (cards.map fun c => (c.username, c.password)) = rows ∧
      (∀ c ∈ cards, c.tenantId = tenantId ∧ c.batchId = batchId) ∧
      t.batches = s.batches ∧ t.accounts = s.accounts ∧ t.radcheck = s.radcheck := by
  induction rows generalizing s with
  | nil =>
    cases h
    exact ⟨[], by simp, rfl, by simp, rfl, rfl, rfl⟩
  | cons row rows ih =>
    simp only [List.map_cons, replay] at h
    cases hwrite : faults.sqlite.write (.insertCard tenantId batchId row.1 row.2) s with
    | error e =>
      rw [hwrite] at h
      cases h
    | ok u =>
      rw [hwrite] at h
      obtain ⟨hcards, hbatches, haccounts, hradcheck⟩ :=
        insertCard_ok (show s.insertCard _ _ _ _ = .ok u from Faults.write_ok hwrite)
      obtain ⟨cards, hrows, hpairs, hplaced, hrest⟩ := ih h
      refine ⟨⟨s.cards.next, tenantId, batchId, row.1, row.2⟩ :: cards, ?_, ?_, ?_, ?_⟩
      · rw [hrows, hcards]
        simp
      · simp [hpairs]
      · simpa using hplaced
      · rw [hrest.1, hrest.2.1, hrest.2.2]
        exact ⟨hbatches, haccounts, hradcheck⟩

theorem replay_insertAccounts {cards : List Card}
    (h : replay faults.sqlite
      (cards.map fun c => .insertAccount tenantId batchId c.username c.password) s = .ok t) :
    ∃ mirrors, t.accounts.rows = s.accounts.rows ++ mirrors ∧
      mirrors.map Account.username = cards.map Card.username ∧
      (∀ a ∈ mirrors, a.tenantId = tenantId ∧ a.userType = .card ∧
        a.cardBatchId = some batchId) ∧
      t.batches = s.batches ∧ t.cards = s.cards ∧ t.radcheck = s.radcheck := by
  induction cards generalizing s with
  | nil =>
    cases h
    exact ⟨[], by simp, rfl, by simp, rfl, rfl, rfl⟩
  | cons c cards ih =>
    simp only [List.map_cons, replay] at h
    cases hwrite : faults.sqlite.write (.insertAccount tenantId batchId c.username c.password)
      s with
    | error e =>
      rw [hwrite] at h
      cases h
    | ok u =>
      rw [hwrite] at h
      obtain ⟨haccounts, hbatches, hcards, hradcheck⟩ :=
        insertAccount_ok (show s.insertAccount _ _ _ _ = .ok u from Faults.write_ok hwrite)
      obtain ⟨mirrors, hrows, hnames, hmirrors, hrest⟩ := ih h
      refine ⟨⟨s.accounts.next, tenantId, c.username, c.password, .card, some batchId⟩ :: mirrors,
        ?_, ?_, ?_, ?_⟩
      · rw [hrows, haccounts]
        simp
      · simp [hnames]
      · simpa using hmirrors
      · rw [hrest.1, hrest.2.1, hrest.2.2]
        exact ⟨hbatches, hcards, hradcheck⟩

theorem rows_updateBatch_last {before : List Batch} {batch : Batch} {f : Batch → Batch} {hid hcode}
    (hrows : s.batches.rows = before ++ [batch]) (htenant : batch.tenantId = tenantId) :
    (s.updateBatch tenantId batch.id f hid hcode).batches.rows = before ++ [f batch] := by
  have hbefore : ∀ b ∈ before, b.id ≠ batch.id := by
    intro b hb
    have hsorted := s.batches.sorted
    rw [hrows] at hsorted
    exact ((List.pairwise_append.mp hsorted).2.2 b hb batch (List.mem_singleton_self _)).ne
  have hkept : (before.map fun b => if (b.tenantId = tenantId && b.id = batch.id) = true
      then f b else b) = before := by
    refine (List.map_congr_left fun b hb => ?_).trans (List.map_id before)
    simp [hbefore b hb]
  simp only [Store.updateBatch, Indexed.rows_update, hrows, List.map_append, hkept]
  simp [htenant]

theorem replay_setCount {before : List Batch} {batch : Batch} {n : Option ℕ}
    (hrows : s.batches.rows = before ++ [batch]) (htenant : batch.tenantId = tenantId)
    (h : replay faults.sqlite (n.map (Statement.setCount tenantId batch.id)).toList s = .ok t) :
    t.batches.rows = before ++ [{ batch with count := n.getD batch.count }] ∧
      t.cards = s.cards ∧ t.accounts = s.accounts ∧ t.radcheck = s.radcheck := by
  cases n with
  | none =>
    cases h
    exact ⟨hrows, rfl, rfl, rfl⟩
  | some n =>
    cases Faults.write_ok (replay_singleton h)
    exact ⟨rows_updateBatch_last hrows htenant, rfl, rfl, rfl⟩

end

structure Created (r : Request) (s t : Store) (batch : Batch) (cards : List Card)
    (mirrors : List Account) : Prop where
  batchRows : t.batches.rows = s.batches.rows ++ [batch]
  cardRows : t.cards.rows = s.cards.rows ++ cards
  accountRows : t.accounts.rows = s.accounts.rows ++ mirrors
  radcheck : t.radcheck = s.radcheck
  id : batch.id = s.batches.next
  tenantId : batch.tenantId = r.tenantId
  metadata : batch.metadata = r.metadata
  live : batch.deleted = false
  generated : batch.generated = cards.length
  ofBatch : ∀ c ∈ cards, c.tenantId = r.tenantId ∧ c.batchId = batch.id
  ofCards : ∀ a ∈ mirrors, a.tenantId = r.tenantId ∧ a.userType = .card ∧
    a.cardBatchId = some batch.id
  mirrored : r.insertAccounts = true → ∀ c ∈ cards, ∃ a ∈ mirrors, a.username = c.username
  rows : ∃ u rows, r.rowsFactory u batch.id = .ok rows ∧
    (cards.map fun c => (c.username, c.password)) = rows.1 ∧
    u.cards = s.cards ∧ u.accounts = s.accounts ∧ u.radcheck = s.radcheck

section
variable {env : Env} {r : Request} {s t : Store} {reply : Reply}

theorem insertCardAccounts_ok {cards : List Card} {batchId : ℕ}
    (h : eval env.faults.sqlite (insertCardAccounts r.tenantId batchId cards
      (.ret ⟨batchId, false⟩)) s = (.ok reply, t)) :
    reply = ⟨batchId, false⟩ ∧ ∃ mirrors, t.accounts.rows = s.accounts.rows ++ mirrors ∧
      mirrors.map Account.username = cards.map Card.username ∧
      (∀ a ∈ mirrors, a.tenantId = r.tenantId ∧ a.userType = .card ∧
        a.cardBatchId = some batchId) ∧
      t.batches = s.batches ∧ t.cards = s.cards ∧ t.radcheck = s.radcheck := by
  obtain ⟨u, hinsert, hrest⟩ := eval_each h
  obtain ⟨v, hselect, hrest⟩ := eval_statement hrest
  cases Faults.write_ok hselect
  obtain ⟨w, hjobs, hret⟩ := eval_each hrest
  obtain ⟨mirrors, hrows, hnames, hmirrors, hbatches, hcards, hradcheck⟩ :=
    replay_insertAccounts hinsert
  simp only [eval, Prod.mk.injEq, Except.ok.injEq] at hret
  obtain ⟨rfl, rfl⟩ := hret
  cases Faults.write_ok (replay_singleton hjobs)
  exact ⟨rfl, mirrors, hrows, hnames, hmirrors, hbatches, hcards, hradcheck⟩

theorem writeRows_ok {before : List Batch} {batch : Batch} {rows : Rows}
    (hlast : s.batches.rows = before ++ [batch]) (htenant : batch.tenantId = r.tenantId)
    (h : replay env.faults.sqlite (writeRows r batch.id rows) s = .ok t) :
    ∃ cards, t.cards.rows = s.cards.rows ++ cards ∧
      (cards.map fun c => (c.username, c.password)) = rows.1 ∧
      (∀ c ∈ cards, c.tenantId = r.tenantId ∧ c.batchId = batch.id) ∧
      t.accounts = s.accounts ∧ t.radcheck = s.radcheck ∧
      t.batches.rows = before ++ [{ batch with
        count := rows.2.getD batch.count
        generated := batch.generated + cards.length }] := by
  obtain ⟨v, h, hgenerated⟩ := replay_append_ok h
  obtain ⟨u, hcount, hinsert⟩ := replay_append_ok h
  obtain ⟨hrowsu, hcardsu, haccountsu, hradchecku⟩ := replay_setCount hlast htenant hcount
  obtain ⟨cards, hcards, hpairs, hplaced, hbatches, haccounts, hradcheck⟩ :=
    replay_insertCards hinsert
  cases Faults.write_ok (replay_singleton hgenerated)
  have hlength : cards.length = rows.1.length := by rw [← hpairs, List.length_map]
  refine ⟨cards, hcards.trans (by rw [hcardsu]), hpairs, hplaced, haccounts.trans haccountsu,
    hradcheck.trans hradchecku, ?_⟩
  have hrowsv := (congrArg (fun t : Batches => t.rows) hbatches).trans hrowsu
  rw [hlength]
  exact rows_updateBatch_last hrowsv htenant

theorem newBatch_ok (h : eval env.faults.sqlite (newBatch env r s) s = (.ok reply, t)) :
    ∃ batch cards mirrors, reply = ⟨batch.id, false⟩ ∧ Created r s t batch cards mirrors := by
  obtain ⟨u, hbatch, hrest⟩ := eval_statement h
  obtain ⟨hbatches, hcardsu, haccountsu, hradchecku⟩ := insertBatch_ok (Faults.write_ok hbatch)
  have hlast : u.batches.rows = s.batches.rows ++ [⟨s.batches.next, r.tenantId,
      buildBatchCode env s r.tenantId, r.count, 0, false, r.metadata⟩] := by
    rw [hbatches]
    rfl
  simp only at hrest
  split at hrest
  · cases hrest
  · rename_i rows hrows
    obtain ⟨v, hwrite, hrest⟩ := eval_each hrest
    obtain ⟨cards, hcards, hpairs, hplaced, haccounts, hradcheck, hbatches⟩ :=
      writeRows_ok hlast rfl hwrite
    obtain ⟨w, hselect, hrest⟩ := eval_statement hrest
    cases Faults.write_ok hselect
    obtain ⟨batch, hrowsv, hid, htenant, hmetadata, hlive, hgenerated⟩ : ∃ batch : Batch,
        v.batches.rows = s.batches.rows ++ [batch] ∧ batch.id = s.batches.next ∧
        batch.tenantId = r.tenantId ∧ batch.metadata = r.metadata ∧ batch.deleted = false ∧
        batch.generated = cards.length :=
      ⟨_, hbatches, rfl, rfl, rfl, rfl, Nat.zero_add _⟩
    split at hrest
    · obtain ⟨rfl, mirrors, hmirrorRows, hnames, hmirrors, hbatchest, hcardst, hradcheckt⟩ :=
        insertCardAccounts_ok hrest
      refine ⟨batch, cards, mirrors, by rw [hid], ?_⟩
      exact
        { batchRows := by rw [hbatchest, hrowsv]
          cardRows := by rw [hcardst, hcards, hcardsu]
          accountRows := by rw [hmirrorRows, haccounts, haccountsu]
          radcheck := by rw [hradcheckt, hradcheck, hradchecku]
          id := hid
          tenantId := htenant
          metadata := hmetadata
          live := hlive
          generated := hgenerated
          ofBatch := hid ▸ hplaced
          ofCards := hid ▸ hmirrors
          mirrored := fun _ c hc => by
            have hselected : c ∈ (v.cards.toTable.select fun c =>
                c.tenantId = r.tenantId && c.batchId = s.batches.next).reverse := by
              refine List.mem_reverse.mpr (Table.mem_select.mpr ⟨?_, ?_⟩)
              · rw [hcards]
                exact List.mem_append_right _ hc
              · simpa using hplaced c hc
            have hname := List.mem_map_of_mem hselected (f := Card.username)
            rw [← hnames] at hname
            exact List.mem_map.mp hname
          rows := ⟨u, rows, hid ▸ hrows, hpairs, hcardsu, haccountsu, hradchecku⟩ }
    · rename_i hasked
      cases hrest
      refine ⟨batch, cards, [], by rw [hid], ?_⟩
      exact
        { batchRows := hrowsv
          cardRows := by rw [hcards, hcardsu]
          accountRows := by rw [haccounts, haccountsu, List.append_nil]
          radcheck := by rw [hradcheck, hradchecku]
          id := hid
          tenantId := htenant
          metadata := hmetadata
          live := hlive
          generated := hgenerated
          ofBatch := hid ▸ hplaced
          ofCards := fun a ha => absurd ha List.not_mem_nil
          mirrored := fun hyes => absurd hyes hasked
          rows := ⟨u, rows, hid ▸ hrows, hpairs, hcardsu, haccountsu, hradchecku⟩ }

end
end RadiusModule.CardStore
