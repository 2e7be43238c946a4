import RadiusModule.Library.Run
import RadiusModule.Services.CardStore.Batches

/-!
# Runs of batch creation

Calls of `create_batch_with_cards` one after another, each of which may fail
anywhere. What is left is the batches of the calls that did not raise, whole
and with their accounts, and one batch for each client key.
-/

namespace RadiusModule.CardStore
open Library Connection PyText

def Batch.owns (b : Batch) (c : Card) : Bool := c.tenantId = b.tenantId && c.batchId = b.id

namespace Store

structure Whole (s : Store) : Prop where
  counted : ∀ b ∈ s.batches.rows, b.deleted = false →
    b.generated = s.cards.toTable.count b.owns
  onceAKey : ∀ a ∈ s.batches.rows, ∀ b ∈ s.batches.rows, ∀ tenantId key, key ≠ "" →
    a.carries tenantId key = true → b.carries tenantId key = true → a = b

def CodesDistinct (s : Store) : Prop :=
  ∀ a ∈ s.batches.rows, ∀ b ∈ s.batches.rows, a.tenantId = b.tenantId →
    a.batchCode = b.batchCode → a = b

def Mirrored (s : Store) (batchId : ℕ) : Prop :=
  ∀ c ∈ s.cards.rows, c.batchId = batchId → ∃! a, a ∈ s.accounts.rows ∧
    a.tenantId = c.tenantId ∧ a.username = c.username ∧ a.userType = .card ∧
    a.cardBatchId = some batchId

end Store

structure Call where
  request : Request
  reply : Except Error Reply

def Call.made (c : Call) : Option ℕ :=
  match c.reply with
  | .ok ⟨batchId, false⟩ => some batchId
  | _ => none

structure World where
  store : Store
  log : List Call

def World.made (w : World) : List ℕ := w.log.filterMap Call.made

def step (w : World) (call : Env × Request) : World :=
  let out := perform call.1.faults.sqlite (createBatchWithCards call.1 call.2) w.store
  ⟨out.2, w.log ++ [⟨call.2, out.1⟩]⟩

structure Traced (start : Store) (w : World) : Prop where
  batches : w.store.batches.rows.map Batch.id = start.batches.rows.map Batch.id ++ w.made
  cards : ∀ c ∈ w.store.cards.rows, c ∈ start.cards.rows ∨ c.batchId ∈ w.made

def Answered (env : Env) (r : Request) (b : Batch) (s : Store) : Prop :=
  let out := perform env.faults.sqlite (createBatchWithCards env r) s
  out.2 = s ∧
    (∀ reply, out.1 = .ok reply →
      reply = ⟨b.id, true⟩ ∧ fingerprintsDiffer b.metadata r.metadata = false) ∧
    (env.faults = {} → out.1 = if fingerprintsDiffer b.metadata r.metadata
      then .error .idempotencyKeyReused else .ok ⟨b.id, true⟩)

structure Inv (start : Store) (w : World) : Prop where
  whole : w.store.Whole
  traced : Traced start w
  mirrored : ∀ c ∈ w.log, ∀ batchId, c.made = some batchId → c.request.insertAccounts = true →
    w.store.Mirrored batchId

section
variable {env : Env} {r : Request} {s t : Store} {batch : Batch} {cards : List Card}
  {mirrors : List Account}

theorem clientKey_ne_empty {text key : String} (h : clientKey text = some key) : key ≠ "" := by
  unfold clientKey at h
  split_ifs at h with hempty
  cases h
  exact hempty

theorem perform_cases (env : Env) (r : Request) (s : Store) :
    (∃ reply, perform env.faults.sqlite (createBatchWithCards env r) s = (reply, s) ∧
      Call.made ⟨r, reply⟩ = none) ∨
    ∃ t batch cards mirrors,
      perform env.faults.sqlite (createBatchWithCards env r) s = (.ok ⟨batch.id, false⟩, t) ∧
      findBatchByIdempotencyKey s r.tenantId r.idempotencyKey = none ∧
      Created r s t batch cards mirrors := by
  rw [createBatchWithCards, perform_transaction]
  rcases block_cases env.faults.sqlite (creation env r) s with
    ⟨e, hraised⟩ | ⟨reply, t, heval, hdone⟩
  · exact .inl ⟨.error e, hraised, rfl⟩
  · rw [hdone]
    obtain ⟨u, hselect, hrest⟩ := eval_statement heval
    cases Faults.write_ok hselect
    split at hrest
    · rename_i b hfind
      split at hrest
      · cases hrest
      · cases hrest
        exact .inl ⟨_, rfl, rfl⟩
    · rename_i hfind
      obtain ⟨batch, cards, mirrors, rfl, hcreated⟩ := newBatch_ok hrest
      exact .inr ⟨t, batch, cards, mirrors, rfl, hfind, hcreated⟩

theorem not_carries_of_find_none {key : String}
    (h : findBatchByIdempotencyKey s r.tenantId r.idempotencyKey = none)
    (hkey : clientKey r.idempotencyKey = some key) :
    ∀ b ∈ s.batches.rows, b.carries r.tenantId key = false := by
  simp only [findBatchByIdempotencyKey, hkey] at h
  exact Table.last?_eq_none.mp h

namespace Created

theorem lt_id (h : Created r s t batch cards mirrors) {b : Batch} (hb : b ∈ s.batches.rows) :
    b.id < batch.id := h.id ▸ s.batches.below b hb

theorem carries_batch (h : Created r s t batch cards mirrors) {tenantId : ℤ} {key : String}
    (hcarries : batch.carries tenantId key = true) :
    tenantId = r.tenantId ∧ clientKey r.idempotencyKey = some key := by
  simp only [Batch.carries, Bool.and_eq_true, decide_eq_true_eq, h.tenantId, h.metadata,
    r.keyed] at hcarries
  exact ⟨hcarries.1.1.symm, hcarries.2⟩

theorem count_owns (h : Created r s t batch cards mirrors) (b : Batch) :
    t.cards.toTable.count b.owns = s.cards.toTable.count b.owns + (cards.filter b.owns).length := by
  simp only [Table.count, Table.select, h.cardRows, List.filter_append, List.length_append]

theorem whole (h : Created r s t batch cards mirrors)
    (hfind : findBatchByIdempotencyKey s r.tenantId r.idempotencyKey = none) (hs : s.Whole) :
    t.Whole := by
  have hnew : ∀ a ∈ s.batches.rows, ∀ tenantId key, a.carries tenantId key = true →
      batch.carries tenantId key = true → False := by
    intro a ha tenantId key hcarries hbatch
    obtain ⟨rfl, hkey⟩ := h.carries_batch hbatch
    rw [not_carries_of_find_none hfind hkey a ha] at hcarries
    cases hcarries
  constructor
  · intro b hb hlive
    rw [h.batchRows, List.mem_append, List.mem_singleton] at hb
    rw [h.count_owns]
    rcases hb with hb | rfl
    · have hnone : cards.filter b.owns = [] := by
        refine List.filter_eq_nil_iff.mpr fun c hc => ?_
        have hother : c.batchId ≠ b.id := (h.ofBatch c hc).2 ▸ (h.lt_id hb).ne'
        simp [Batch.owns, hother]
      rw [hnone, hs.counted b hb hlive, List.length_nil, Nat.add_zero]
    · have hall : cards.filter b.owns = cards := by
        refine List.filter_eq_self.mpr fun c hc => ?_
        simp [Batch.owns, h.ofBatch c hc, h.tenantId]
      have hnone : s.cards.toTable.count b.owns = 0 := by
        refine List.length_eq_zero_iff.mpr (List.filter_eq_nil_iff.mpr fun c hc => ?_)
        have hother : c.batchId ≠ b.id := (h.id ▸ s.placed c hc).ne
        simp [Batch.owns, hother]
      rw [hall, hnone, Nat.zero_add, h.generated]
  · intro a ha b hb tenantId key hkey hcarriesa hcarriesb
    rw [h.batchRows, List.mem_append, List.mem_singleton] at ha hb
    rcases ha with ha | rfl
    · rcases hb with hb | rfl
      · exact hs.onceAKey a ha b hb tenantId key hkey hcarriesa hcarriesb
      · exact (hnew a ha tenantId key hcarriesa hcarriesb).elim
    · rcases hb with hb | rfl
      · exact (hnew b hb tenantId key hcarriesb hcarriesa).elim
      · rfl

theorem mirrored_other (h : Created r s t batch cards mirrors) {batchId : ℕ}
    (hlt : batchId < batch.id) (hs : s.Mirrored batchId) : t.Mirrored batchId := by
  intro c hc hbatch
  rw [h.cardRows, List.mem_append] at hc
  rcases hc with hc | hc
  · obtain ⟨a, ⟨ha, hmirror⟩, -⟩ := hs c hc hbatch
    refine ⟨a, ⟨h.accountRows ▸ List.mem_append_left _ ha, hmirror⟩, fun a' ha' => ?_⟩
    refine t.accounts.eq_of_col_eq ha'.1 (h.accountRows ▸ List.mem_append_left _ ha) ?_
    rw [hmirror.1, hmirror.2.1, ha'.2.1, ha'.2.2.1]
  · exact absurd ((h.ofBatch c hc).2.symm.trans hbatch) hlt.ne'

theorem mirrored_batch (h : Created r s t batch cards mirrors)
    (hasked : r.insertAccounts = true) : t.Mirrored batch.id := by
  intro c hc hbatch
  rw [h.cardRows, List.mem_append] at hc
  rcases hc with hc | hc
  · exact absurd hbatch (h.id ▸ s.placed c hc).ne
  · obtain ⟨a, ha, hname⟩ := h.mirrored hasked c hc
    obtain ⟨htenant, htype, hof⟩ := h.ofCards a ha
    have hrow : a ∈ t.accounts.rows := h.accountRows ▸ List.mem_append_right _ ha
    have hsame : a.tenantId = c.tenantId := htenant.trans (h.ofBatch c hc).1.symm
    refine ⟨a, ⟨hrow, hsame, hname, htype, hof⟩, fun a' ha' => ?_⟩
    refine t.accounts.eq_of_col_eq ha'.1 hrow ?_
    rw [hsame, hname, ha'.2.1, ha'.2.2.1]

end Created

theorem Inv.initial {start : Store} (h : start.Whole) : Inv start ⟨start, []⟩ :=
  ⟨h, ⟨by simp [World.made], fun c hc => .inl hc⟩, fun c hc => absurd hc List.not_mem_nil⟩

theorem Inv.lt_next {start : Store} {w : World} (h : Inv start w) {batchId : ℕ}
    (hmade : batchId ∈ w.made) : batchId < w.store.batches.next := by
  have hmem : batchId ∈ w.store.batches.rows.map Batch.id :=
    h.traced.batches ▸ List.mem_append_right _ hmade
  obtain ⟨b, hb, rfl⟩ := List.mem_map.mp hmem
  exact w.store.batches.below b hb

theorem Inv.advance {start : Store} {w : World} (h : Inv start w) (call : Env × Request) :
    Inv start (step w call) := by
  rcases perform_cases call.1 call.2 w.store with ⟨reply, hout, hmade⟩ |
    ⟨t, batch, cards, mirrors, hout, hfind, hcreated⟩
  · have hlog : (step w call).made = w.made := by
      simp [step, World.made, List.filterMap_append, hout, hmade]
    have hstore : (step w call).store = w.store := by simp [step, hout]
    refine ⟨hstore ▸ h.whole, ⟨?_, ?_⟩, ?_⟩
    · rw [hstore, hlog]
      exact h.traced.batches
    · rw [hstore, hlog]
      exact h.traced.cards
    · intro c hc batchId hcmade hasked
      rw [hstore]
      simp only [step, hout, List.mem_append, List.mem_singleton] at hc
      rcases hc with hc | rfl
      · exact h.mirrored c hc batchId hcmade hasked
      · rw [hmade] at hcmade
        cases hcmade
  · have hlog : (step w call).made = w.made ++ [batch.id] := by
      simp [step, World.made, List.filterMap_append, hout, Call.made]
    have hstore : (step w call).store = t := by simp [step, hout]
    refine ⟨hstore ▸ hcreated.whole hfind h.whole, ⟨?_, ?_⟩, ?_⟩
    · rw [hstore, hlog, hcreated.batchRows, List.map_append, h.traced.batches, List.append_assoc]
      rfl
    · intro c hc
      rw [hstore, hcreated.cardRows, List.mem_append] at hc
      rw [hlog, List.mem_append, List.mem_singleton]
      rcases hc with hc | hc
      · exact (h.traced.cards c hc).imp_right .inl
      · exact .inr (.inr (hcreated.ofBatch c hc).2)
    · intro c hc batchId hcmade hasked
      rw [hstore]
      simp only [step, hout, List.mem_append, List.mem_singleton] at hc
      rcases hc with hc | rfl
      · have hlt := h.lt_next (List.mem_filterMap.mpr ⟨c, hc, hcmade⟩)
        exact hcreated.mirrored_other (hcreated.id ▸ hlt) (h.mirrored c hc batchId hcmade hasked)
      · simp only [Call.made, Option.some.injEq] at hcmade
        subst hcmade
        exact hcreated.mirrored_batch hasked

theorem codesDistinct (s : Store) : s.CodesDistinct := by
  intro a ha b hb htenant hcode
  refine s.batches.eq_of_col_eq ha hb ?_
  rw [htenant, hcode]

theorem find_eq_some (hs : s.Whole) {b : Batch} (hb : b ∈ s.batches.rows) {key : String}
    (hkey : clientKey r.idempotencyKey = some key) (hcarries : b.carries r.tenantId key = true) :
    findBatchByIdempotencyKey s r.tenantId r.idempotencyKey = some b := by
  cases hfind : findBatchByIdempotencyKey s r.tenantId r.idempotencyKey with
  | none =>
    rw [not_carries_of_find_none hfind hkey b hb] at hcarries
    cases hcarries
  | some b' =>
    simp only [findBatchByIdempotencyKey, hkey] at hfind
    obtain ⟨hb', hcarries'⟩ := Table.mem_of_last? hfind
    rw [hs.onceAKey b' hb' b hb r.tenantId key (clientKey_ne_empty hkey) hcarries' hcarries]

theorem creation_found {b : Batch} {reply : Reply}
    (hfind : findBatchByIdempotencyKey s r.tenantId r.idempotencyKey = some b)
    (h : eval env.faults.sqlite (creation env r) s = (.ok reply, t)) :
    t = s ∧ reply = ⟨b.id, true⟩ ∧ fingerprintsDiffer b.metadata r.metadata = false := by
  obtain ⟨u, hselect, hrest⟩ := eval_statement h
  cases Faults.write_ok hselect
  simp only [hfind] at hrest
  split_ifs at hrest with hdiffer
  · cases hrest
  · cases hrest
    exact ⟨rfl, rfl, by simpa using hdiffer⟩

theorem creation_found_faultless {b : Batch} (hfaults : env.faults = {})
    (hfind : findBatchByIdempotencyKey s r.tenantId r.idempotencyKey = some b) :
    eval env.faults.sqlite (creation env r) s =
      (if fingerprintsDiffer b.metadata r.metadata then .error .idempotencyKeyReused
        else .ok ⟨b.id, true⟩, s) := by
  rw [hfaults]
  simp only [creation, eval, Faults.sqlite, Store.apply, hfind]
  split_ifs <;> rfl

theorem answered_of_carries (hs : s.Whole) {b : Batch} (hb : b ∈ s.batches.rows) {key : String}
    (hkey : clientKey r.idempotencyKey = some key) (hcarries : b.carries r.tenantId key = true)
    (env : Env) : Answered env r b s := by
  have hfind := find_eq_some hs hb hkey hcarries
  unfold Answered
  rw [createBatchWithCards, perform_transaction]
  refine ⟨?_, ?_, ?_⟩
  · rcases block_cases env.faults.sqlite (creation env r) s with
      ⟨e, hraised⟩ | ⟨reply, t, heval, hdone⟩
    · rw [hraised]
    · rw [hdone]
      exact (creation_found hfind heval).1
  · intro reply hreply
    rcases block_cases env.faults.sqlite (creation env r) s with
      ⟨e, hraised⟩ | ⟨reply', t, heval, hdone⟩
    · rw [hraised] at hreply
      cases hreply
    · rw [hdone] at hreply
      cases hreply
      exact (creation_found hfind heval).2
  · intro hfaults
    have heval := creation_found_faultless hfaults hfind
    have hbegin : env.faults.sqlite.beginRaises s = none := by rw [hfaults]; rfl
    split_ifs at heval ⊢ with hdiffer
    · rw [block_of_eval_error hbegin (congrArg Prod.fst heval)]
    · rw [block_of_eval hbegin heval (by rw [hfaults]; rfl)]

end

/-- After any calls, failed ones among them, the batches are those of the calls that made one,
whole, with their own codes and keys; a later call with one of these keys makes nothing. -/
theorem batches_made_whole_and_once {start : Store} (hstart : start.Whole)
    (calls : List (Env × Request)) :
    let w := Run.run step ⟨start, []⟩ calls
    w.store.Whole ∧ w.store.CodesDistinct ∧ Traced start w ∧
      (∀ c ∈ w.log, ∀ batchId, c.made = some batchId → c.request.insertAccounts = true →
        w.store.Mirrored batchId) ∧
      ∀ env r, ∀ b ∈ w.store.batches.rows, ∀ key, clientKey r.idempotencyKey = some key →
        b.carries r.tenantId key = true → Answered env r b w.store := by
  intro w
  have hinv : Inv start w :=
    Run.run_always (fun _ call h => h.advance call) (Inv.initial hstart)
  exact ⟨hinv.whole, codesDistinct w.store, hinv.traced, hinv.mirrored,
    fun env r b hb key hkey hcarries => answered_of_carries hinv.whole hb hkey hcarries env⟩

theorem whole_empty : Store.empty.Whole :=
  ⟨fun _ hb => absurd hb List.not_mem_nil, fun _ ha => absurd ha List.not_mem_nil⟩

/-- One card under the key `k`; the panel sends no fingerprint. -/
def oneCard (fingerprint : Option String) : Request where
  tenantId := 1
  count := 1
  metadata := ⟨some "k", fingerprint⟩
  rowsFactory := fun _ _ => .ok ([("1001", "77")], none)
  insertAccounts := true
  idempotencyKey := " k"
  keyed := (by decide : some "k" = clientKey " k")

def today : Env := { day := "20260101", token := "00ff00" }

example : (Run.run step ⟨.empty, []⟩ [(today, oneCard none)]).made = [1] := by decide +kernel

theorem batches_made_whole_and_once_retried :
    let w := Run.run step ⟨.empty, []⟩ [(today, oneCard (some "f")), (today, oneCard (some "f"))]
    (w.store.Whole ∧ w.store.Mirrored 1) ∧ w.made = [1] ∧
      w.store.batches.rows.map Batch.batchCode = ["B-20260101-0001"] := by
  have hruns := batches_made_whole_and_once whole_empty
    [(today, oneCard (some "f")), (today, oneCard (some "f"))]
  refine ⟨⟨hruns.1, hruns.2.2.2.1 _ List.mem_cons_self 1 ?_ rfl⟩, ?_⟩
  · decide +kernel
  · decide +kernel

/-- A batch without a fingerprint is given back to a request that has one. -/
theorem fingerprint_of_unmarked_batch_ignored :
    let w := Run.run step ⟨.empty, []⟩ [(today, oneCard none)]
    (w.store.batches.rows.map fun b => b.metadata.idempotencyFp) = [none] ∧
      (oneCard (some "f")).metadata.idempotencyFp = some "f" ∧
      (perform today.faults.sqlite (createBatchWithCards today (oneCard (some "f"))) w.store).1 =
        .ok ⟨1, true⟩ := by
  decide +kernel

end RadiusModule.CardStore
