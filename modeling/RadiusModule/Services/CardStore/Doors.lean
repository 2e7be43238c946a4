import Mathlib.Data.Finset.Card
import RadiusModule.Library.Calls
import RadiusModule.Services.CardStore.Batches

/-!
# The ways of making cards

Generated and imported batches are made in one transaction. Recharge cards,
the stock of an offer and the card minted for a buyer are made by calls of
several transactions, with the transactions of other calls in between.
-/

namespace RadiusModule.CardStore
open Library Connection PyText

def Store.takenLoginNames (s : Store) (tenantId : ℤ) : List String :=
  ((s.cards.toTable.select fun c => c.tenantId = tenantId).map fun c => lower c.username) ++
    ((s.accounts.toTable.select fun a => a.tenantId = tenantId).map fun a => lower a.username) ++
    s.radcheck.map lower

def places : ℕ → ℕ → List Char
  | 0, _ => []
  | n + 1, i => places n (i / 10) ++ [Nat.digitChar (i % 10)]

/-- What the random source gives: the text of `n` digits of each draw, a sample of a list, and the
password of each card. -/
structure Draws where
  digits : ℕ → ℕ → String
  sample : List String → ℕ → List String
  password : ℕ → String
  digits_only : ∀ i n, ∀ c ∈ (digits i n).toList, c.isDigit = true
  sample_subset : ∀ l n, sample l n ⊆ l

def inPattern (pre suf : String) (places : ℕ) (name : String) : Bool :=
  let middle := (name.toList.drop pre.length).take places
  name.length = pre.length + places + suf.length && pre.toList.isPrefixOf name.toList &&
    suf.toList.isSuffixOf name.toList && middle.all Char.isDigit

def denseEnumerationMax : ℕ := 2000000

/-- `CardUsernameSpaceExhausted` -/
structure Exhausted where
  requested : ℤ
  available : ℤ
  space : ℕ
  randomDigits : ℕ
  pre : String
  suf : String
  usernameLength : ℕ
  deriving DecidableEq

inductive PickError
  | usernameSpaceExhausted (e : Exhausted)
  | sampleLargerThanPopulation
  deriving DecidableEq

def PickError.raised : PickError → Error
  | .usernameSpaceExhausted _ => .usernameSpaceExhausted
  | .sampleLargerThanPopulation => .validation

def randLen (pre suf : String) (usernameLength : ℤ) : ℕ :=
  (max 1 (usernameLength - pre.length - suf.length)).toNat

def patternNames (pre suf : String) (n : ℕ) : List String :=
  (List.range (10 ^ n)).map fun i => pre ++ String.ofList (places n i) ++ suf

def available (pre suf : String) (n : ℕ) (taken : Finset String) : ℤ :=
  10 ^ n - (taken.filter fun name => inPattern pre suf n name).card

def drawNames (name : ℕ → String) (count : ℕ) :
    ℕ → Finset String → List String → List String × Finset String
  | 0, taken, out => (out, taken)
  | budget + 1, taken, out =>
    if count ≤ out.length then (out, taken)
    else if name budget ∈ taken then drawNames name count budget taken out
    else drawNames name count budget (insert (name budget) taken) (out ++ [name budget])

section
variable (d : Draws) (count : ℤ)

def spaceExhausted (pre suf : String) (n : ℕ) (left : ℤ) : PickError :=
  .usernameSpaceExhausted ⟨count, max 0 left, 10 ^ n, n, pre, suf, pre.length + n + suf.length⟩

def sampleNames (pre suf : String) (n : ℕ) (taken : Finset String) :
    Except PickError (List String) × Finset String :=
  let free := (patternNames pre suf n).filter fun name => name ∉ taken
  if free.length < count then (.error .sampleLargerThanPopulation, taken)
  else (.ok (d.sample free count.toNat), taken ∪ (d.sample free count.toNat).toFinset)

/-- `pick_unique_usernames`, over any mapping to small letters. It also gives the taken names that it
extends. -/
def pickUniqueUsernames (lower : String → String) (prefixText suffixText : String)
    (usernameLength : ℤ) (taken : Finset String) : Except PickError (List String) × Finset String :=
  let pre := lower prefixText
  let suf := lower suffixText
  let n := randLen pre suf usernameLength
  let left := available pre suf n taken
  if count ≤ 0 then (.ok [], taken)
  else if left < count then (.error (spaceExhausted count pre suf n left), taken)
  else if 10 ^ n ≤ denseEnumerationMax ∧ left < count * 2 then sampleNames d count pre suf n taken
  else
    let drawn := drawNames (fun i => pre ++ d.digits i n ++ suf) count.toNat
      (count * 60 + 1000).toNat taken []
    if drawn.1.length < count then
      (.error (spaceExhausted count pre suf n (left - drawn.1.length)), drawn.2)
    else (.ok drawn.1, drawn.2)

end

def newCardCredentials (d : Draws) (s : Store) (tenantId : ℤ) (count : ℕ) (prefixText suf : String)
    (usernameLength : ℕ) : Except Error (List (String × String)) :=
  ((pickUniqueUsernames d count lower prefixText suf usernameLength
    (s.takenLoginNames tenantId).toFinset).1.mapError PickError.raised).map
      fun names => names.zipIdx.map fun name => (name.1, d.password name.2)

structure ClientKey where
  text : String
  short : text.length ≤ 128

structure GenerateArgs where
  tenantId : ℤ
  count : ℕ
  idempotencyKey : ClientKey
  fingerprint : String
  usernamePrefix : String
  usernameSuffix : String
  usernameLength : ℕ
  includeBatchNumber : Bool
  sqliteAccounts : Bool
  draws : Draws

def cut128 (text : String) : String := String.ofList (text.toList.take 128)

/-- The key and the fingerprint that `generate_batch` adds to the metadata. -/
def clientMetadata (key : ClientKey) (fingerprint : String) : Metadata :=
  if cut128 (strip key.text) = "" then {}
  else ⟨some (cut128 (strip key.text)),
    if fingerprint = "" then none else some (cut128 fingerprint)⟩

theorem cut128_strip (key : ClientKey) : cut128 (strip key.text) = strip key.text := by
  have hshort : (strip key.text).toList.length ≤ 128 :=
    (length_strip_le key.text).trans key.short
  rw [cut128, List.take_of_length_le hshort, String.ofList_toList]

theorem keyed_clientMetadata (key : ClientKey) (fingerprint : String) :
    (clientMetadata key fingerprint).idempotencyKey = clientKey (cut128 (strip key.text)) := by
  rw [clientMetadata, clientKey, cut128_strip, strip_strip]
  split_ifs <;> rfl

/-- The callback of `generate_batch`; a length without room for a digit is refused. -/
def generateRows (args : GenerateArgs) (s : Store) (batchId : ℕ) : Except Error Rows :=
  let pre := if args.includeBatchNumber then args.usernamePrefix ++ toString batchId
    else args.usernamePrefix
  if args.usernameLength ≤ pre.length + args.usernameSuffix.length then .error .validation
  else (newCardCredentials args.draws s args.tenantId args.count pre args.usernameSuffix
    args.usernameLength).map fun rows => (rows, none)

def generateBatch (args : GenerateArgs) : Request where
  tenantId := args.tenantId
  count := args.count
  metadata := clientMetadata args.idempotencyKey args.fingerprint
  rowsFactory := generateRows args
  insertAccounts := args.sqliteAccounts
  idempotencyKey := cut128 (strip args.idempotencyKey.text)
  keyed := keyed_clientMetadata args.idempotencyKey args.fingerprint

def freshRows : List String → List (String × String) → List (String × String)
  | _, [] => []
  | taken, row :: rows =>
    if lower row.1 ∈ taken then freshRows taken rows
    else row :: freshRows (lower row.1 :: taken) rows

/-- The callback of `import_batch`, for the rows that its analysis found valid. -/
def importRows (tenantId : ℤ) (validRows : List (String × String)) (s : Store) (_batchId : ℕ) :
    Except Error Rows :=
  let rows := freshRows (s.takenLoginNames tenantId) validRows
  if rows = [] then .error .validation
  else .ok (rows, if rows.length < validRows.length then some rows.length else none)

/-- `import_batch`; `import_print_only_batch` is the one without accounts. -/
def importBatch (tenantId : ℤ) (validRows : List (String × String)) (sqliteAccounts : Bool) :
    Request where
  tenantId
  count := validRows.length
  metadata := {}
  rowsFactory := importRows tenantId validRows
  insertAccounts := sqliteAccounts
  idempotencyKey := ""
  keyed := (by decide : none = clientKey "")

/-- `create_batch` under a code of its own or a given one. -/
def createBatch (env : Env) (tenantId : ℤ) (code : Option String) (count : ℕ) : Tx :=
  .transaction
    (.statement .select fun s =>
      .statement (.insertBatch tenantId (code.getD (buildBatchCode env s tenantId)) count {})
        fun _ => .ret ⟨s.batches.next, false⟩)
    .ret

def insertSkipping (tenantId : ℤ) (batchId : ℕ) : List (String × String) → ℕ → Tx
  | [], added => .each [.addGenerated tenantId batchId added] (.ret ⟨batchId, false⟩)
  | row :: rows, added =>
    .attempt (.statement (.insertCard tenantId batchId row.1 row.2) fun _ => .ret ⟨batchId, false⟩)
      fun
      | .ok _ => insertSkipping tenantId batchId rows (added + 1)
      | .error _ => insertSkipping tenantId batchId rows added

def uploadStock (tenantId : ℤ) (code : String) (rows : List (String × String)) : Tx :=
  .transaction
    (.statement .select fun s =>
      .statement (.insertBatch tenantId code rows.length {}) fun _ =>
        insertSkipping tenantId s.batches.next rows 0)
    .ret

def insertChunk (tenantId : ℤ) (batchId : ℕ) (rows : List (String × String)) : Tx :=
  .transaction
    (.each (rows.map fun row => .insertCard tenantId batchId row.1 row.2) (.ret ⟨batchId, false⟩))
    .ret

def insertMinted (tenantId : ℤ) (batchId : ℕ) (username password : String) : Tx :=
  .transaction
    (.each [.insertCard tenantId batchId username password, .countCard tenantId batchId]
      (.ret ⟨batchId, false⟩))
    .ret

/-- `update_batch_counters` -/
def countGenerated (tenantId : ℤ) (batchId n : ℕ) : Tx :=
  .transaction (.each [.addGenerated tenantId batchId n] (.ret ⟨batchId, false⟩)) .ret

/-- `_unique_marketplace_username`: the first of the drawn names that nobody has. -/
def Store.uniqueMarketplaceUsername (s : Store) (tenantId : ℤ) (candidates : List String) :
    Option String :=
  (candidates.take 24).find? fun name => name ≠ "" &&
    !(s.accounts.rows.any fun a => a.tenantId = tenantId && a.username = name) &&
    !(s.cards.rows.any fun c => c.tenantId = tenantId && c.username = name)

/-- Where a call stands: a recharge batch with the cards that are still to come and the tries for
the next one, the generated stock before and after its names are picked, a minted card before and
after its batch is found. -/
inductive Phase
  | idle
  | charging (tenantId : ℤ) (batchId left tries : ℕ)
  | stocked (tenantId : ℤ) (batchId count : ℕ)
  | filling (tenantId : ℤ) (batchId : ℕ) (rows : List (String × String)) (inserted : ℕ)
  | minting (tenantId : ℤ) (username password : String)
  | housed (tenantId : ℤ) (username password : String) (batchId : ℕ)

inductive Action
  | generate (env : Env) (args : GenerateArgs)
  | importFile (env : Env) (tenantId : ℤ) (validRows : List (String × String))
      (sqliteAccounts : Bool)
  | recharge (env : Env) (tenantId : ℤ) (count : ℕ)
  | charge (faults : Faults) (code pin : String)
  | upload (faults : Faults) (tenantId : ℤ) (code : String) (rows : List (String × String))
  | stock (env : Env) (tenantId : ℤ) (code : String) (count : ℕ)
  | pick (draws : Draws)
  | fill (faults : Faults)
  | abandon (faults : Faults)
  | mint (tenantId : ℤ) (candidates : List String) (password : String)
  | house (env : Env) (code : String)
  | insert (faults : Faults)

def act : Action → Store → Phase → Store × Phase
  | .generate env args, s, .idle =>
    ((perform env.faults.sqlite (createBatchWithCards env (generateBatch args)) s).2, .idle)
  | .importFile env tenantId validRows sqliteAccounts, s, .idle =>
    ((perform env.faults.sqlite
      (createBatchWithCards env (importBatch tenantId validRows sqliteAccounts)) s).2, .idle)
  | .recharge env tenantId count, s, .idle =>
    let out := perform env.faults.sqlite (createBatch env tenantId none count) s
    match out.1 with
    | .ok reply => (out.2, .charging tenantId reply.batchId count 0)
    | .error _ => (out.2, .idle)
  | .charge faults code pin, s, .charging tenantId batchId (left + 1) tries =>
    match faults.sqlite.write (.insertCard tenantId batchId code pin) s with
    | .ok t => (t, .charging tenantId batchId left 0)
    | .error _ => (s, if 6 < tries + 1 then .idle
        else .charging tenantId batchId (left + 1) (tries + 1))
  | .upload faults tenantId code rows, s, .idle =>
    ((perform faults.sqlite (uploadStock tenantId code rows) s).2, .idle)
  | .stock env tenantId code count, s, .idle =>
    let out := perform env.faults.sqlite (createBatch env tenantId (some code) count) s
    match out.1 with
    | .ok reply => (out.2, .stocked tenantId reply.batchId count)
    | .error _ => (out.2, .idle)
  | .pick draws, s, .stocked tenantId batchId count =>
    match newCardCredentials draws s tenantId count "inv" "" 10 with
    | .ok rows => (s, .filling tenantId batchId rows 0)
    | .error _ => (s, .idle)
  | .fill faults, s, .filling tenantId batchId [] inserted =>
    ((perform faults.sqlite (countGenerated tenantId batchId inserted) s).2, .idle)
  | .fill faults, s, .filling tenantId batchId rows inserted =>
    let out := perform faults.sqlite (insertChunk tenantId batchId (rows.take 100)) s
    match out.1 with
    | .ok _ => (out.2, .filling tenantId batchId (rows.drop 100)
        (inserted + (rows.take 100).length))
    | .error .database => (out.2, .filling tenantId batchId rows inserted)
    | .error _ => (out.2, .filling tenantId batchId [] inserted)
  | .abandon faults, s, .filling tenantId batchId _ inserted =>
    ((perform faults.sqlite (countGenerated tenantId batchId inserted) s).2, .idle)
  | .mint tenantId candidates password, s, .idle =>
    match s.uniqueMarketplaceUsername tenantId candidates with
    | some username => (s, .minting tenantId username password)
    | none => (s, .idle)
  | .house env code, s, .minting tenantId username password =>
    match s.batches.rows.find? fun b => b.tenantId = tenantId && b.batchCode = code with
    | some b => (s, .housed tenantId username password b.id)
    | none =>
      let out := perform env.faults.sqlite (createBatch env tenantId (some code) 0) s
      match out.1 with
      | .ok reply => (out.2, .housed tenantId username password reply.batchId)
      | .error _ => (out.2, .idle)
  | .insert faults, s, .housed tenantId username password batchId =>
    ((perform faults.sqlite (insertMinted tenantId batchId username password) s).2, .idle)
  | _, s, p => (s, p)

end RadiusModule.CardStore
