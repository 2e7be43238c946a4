import RadiusModule.Services.Migration.Committers

/-!
# The import

The tables of a source are imported section by section, parents first. Within a
table only the first candidate of a key is committed, and every candidate
counts once in the report of its section.
-/

namespace RadiusModule.Migration
open Library

def Target.listPlans (db : Target) : List Plan :=
  ((db.plans.rows.filter fun p => !p.deleted).insertionSort
    fun p q => p.priority ≤ q.priority).take 10000

def Target.listBatches (db : Target) : List Batch :=
  (db.batches.rows.filter fun b => !b.deleted).reverse.take 10000

section
variable (r : Readers) (dryRun : Bool)

/-- `_load_existing_keys`: of two rows with one key the later is known. -/
def loadExistingKeys (db : Target) : Section → Keys
  | .roles => .ofPairs ((db.roles.rows.filter fun x => !x.deleted).map
      fun x => (normKey r.toScript x.name, (x.id : ℤ)))
  | .managers => .ofPairs ((db.admins.rows.filter fun x => !x.deleted).map
      fun x => (normKey r.toScript x.username, (x.id : ℤ)))
  | .distributors => .ofPairs (db.distributors.rows.map
      fun x => (normKey r.toScript x.name, (x.id : ℤ)))
  | .plans => .ofPairs (db.listPlans.map fun x => (normKey r.toScript x.name, (x.id : ℤ)))
  | .batches => .ofPairs ((db.listBatches.map fun x => (normKey r.toScript
      (if x.packageName = "" then x.batchCode else x.packageName), (x.id : ℤ))).filter
        fun kv => kv.1 ≠ "")
  | .subscribers => .ofPairs (((db.subscribers.rows.filter fun x => !x.deleted).map
      fun x => (normKey r.toScript x.username, (x.id : ℤ))).filter fun kv => kv.1 ≠ "")
  | .cards => .ofPairs ((db.cards.rows.map
      fun x => (normKey r.toScript x.username, (x.id : ℤ))).filter fun kv => kv.1 ≠ "")

def start (db : Target) : State := ⟨db, ⟨loadExistingKeys r db, none⟩⟩

abbrev Counts := Outcome → ℕ

def Counts.add (n : Counts) (o : Outcome) : Counts := Function.update n o (n o + 1)

abbrev Report := Section → Counts

def commitCandidates (sect : Section) (mode : Mode) :
    List Candidate → List String → State × Counts → State × Counts
  | [], _, acc => acc
  | c :: cs, seen, (s, n) =>
    let key := c.key r.toScript sect
    if key = "" || seen.contains key then
      commitCandidates sect mode cs seen (s, n.add .skipped)
    else
      let (action, s) := commitOne r dryRun sect mode key c s
      commitCandidates sect mode cs (key :: seen) (s, n.add action)

def commitImport (acc : State × Report) (imp : Import) : State × Report :=
  let (s, n) := commitCandidates r dryRun imp.sect imp.mode imp.candidates []
    (acc.1, acc.2 imp.sect)
  (s, Function.update acc.2 imp.sect n)

/-- `imports.sort` by rank, which keeps the tables of a section in their order. -/
def byRank (imports : List Import) : List Import :=
  commitOrder.flatMap fun sect => imports.filter fun imp => imp.sect = sect

def IdMap.batchIds (ids : IdMap) : List ℤ :=
  ((ids.keys .batches).map Prod.snd ++ ids.container.toList.map Prod.fst).filter fun id => 0 < id

def commit (imports : List Import) (db : Target) : Report × Target :=
  let (s, report) := (byRank imports).foldl (commitImport r dryRun)
    (start r db, fun _ _ => 0)
  (report, if dryRun then s.db else s.db.countCards s.ids.batchIds)

end

structure Row where
  mode : Mode
  key : String
  candidate : Candidate

section
variable (r : Readers) (dryRun : Bool) (sect : Section) (mode : Mode)

def committed : List String → List Candidate → List Row
  | _, [] => []
  | seen, c :: cs =>
    let key := c.key r.toScript sect
    if key = "" || seen.contains key then committed seen cs
    else ⟨mode, key, c⟩ :: committed (key :: seen) cs

theorem commitCandidates_fst (cs : List Candidate) (seen : List String) (s : State) (n : Counts) :
    (commitCandidates r dryRun sect mode cs seen (s, n)).1 =
      (committed r sect mode seen cs).foldl
        (fun s row => (commitOne r dryRun sect row.mode row.key row.candidate s).2) s := by
  induction cs generalizing seen s n with
  | nil => rfl
  | cons c cs ih =>
    rw [commitCandidates, committed]
    split_ifs with h
    · rw [ih]
    · simp only [ih, List.foldl_cons]

end
end RadiusModule.Migration
