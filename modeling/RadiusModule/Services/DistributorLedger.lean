import RadiusModule.Core.Connection
import RadiusModule.Library.Binary64
import RadiusModule.Library.Run
import RadiusModule.Library.Table

/-!
# The books of distributors

A posting moves one figure of a distributor, his balance or his debt, and adds
the entry that says so, in one block of the connection. The figures are REAL
columns: every addition and subtraction is rounded to binary64. The callers
bound an amount, so that no figure overflows.
-/

namespace RadiusModule.DistributorLedger
open Library Connection Binary64

def realAdd (x y : ℚ) : ℚ := nearest (x + y)

def realSub (x y : ℚ) : ℚ := nearest (x - y)

structure Distributor where
  id : ℕ
  balance : ℚ := 0
  debtBalance : ℚ := 0
  creditLimit : ℚ := 0

inductive Direction
  | debit
  | credit
deriving DecidableEq

inductive ApplyTo
  | balance
  | debt
deriving DecidableEq

def ApplyTo.ofText? (text : String) : Option ApplyTo :=
  if text = "balance" then some .balance else if text = "debt" then some .debt else none

/-- `DISTRIBUTOR_PAYMENT_ENTRY_TYPES` -/
def ApplyTo.entryType : ApplyTo → String
  | .balance => "payment_to_balance"
  | .debt => "payment_to_debt"

/-- `applyTo` and `applyToDefaulted` stand in the metadata. -/
structure Entry where
  id : ℕ
  distributorId : ℕ
  entryType : String
  direction : Direction
  amount : ℚ
  applyTo : Option ApplyTo := none
  applyToDefaulted : Bool := false

/-- `changes` is the `rowcount` of the last statement. -/
structure Books where
  distributors : Table Distributor Distributor.id
  entries : Table Entry Entry.id
  changes : ℕ := 0

inductive BooksError
  | creditLimit
  | debtExceeded (remaining : ℚ)
  | distributorNotFound
  | database (text : String)

inductive Statement
  | select
  | guardedDebit (distributorId : ℕ) (amount : ℚ)
  | addDebt (distributorId : ℕ) (amount : ℚ)
  | payDebt (distributorId : ℕ) (amount : ℚ)
  | lowerDebt (distributorId : ℕ) (amount : ℚ)
  | addBalance (distributorId : ℕ) (amount : ℚ)
  | insertEntry (row : Entry)

namespace Books
variable (b : Books)

def distributor (id : ℕ) : Option Distributor := b.distributors.rows.find? fun d => d.id = id

def updateWhere (p : Distributor → Bool) (f : Distributor → Distributor)
    (hf : ∀ d, (f d).id = d.id) : Books :=
  { b with distributors := b.distributors.update p f hf, changes := b.distributors.count p }

def apply : Statement → Except BooksError Books
  | .select => .ok b
  | .guardedDebit id amount => .ok (b.updateWhere
      (fun d => d.id = id &&
        (d.creditLimit ≤ 0 ||
          realAdd d.debtBalance amount ≤ realAdd d.creditLimit (nearest (5 / 1000))))
      (fun d => { d with debtBalance := realAdd d.debtBalance amount }) fun _ => rfl)
  | .addDebt id amount => .ok (b.updateWhere (fun d => d.id = id)
      (fun d => { d with debtBalance := realAdd d.debtBalance amount }) fun _ => rfl)
  | .payDebt id amount => .ok (b.updateWhere
      (fun d => d.id = id && realSub amount (nearest (1 / 1000000)) ≤ d.debtBalance)
      (fun d => { d with debtBalance := max (realSub d.debtBalance amount) 0 }) fun _ => rfl)
  | .lowerDebt id amount => .ok (b.updateWhere (fun d => d.id = id)
      (fun d => { d with debtBalance := max (realSub d.debtBalance amount) 0 }) fun _ => rfl)
  | .addBalance id amount => .ok (b.updateWhere (fun d => d.id = id)
      (fun d => { d with balance := realAdd d.balance amount }) fun _ => rfl)
  | .insertEntry row =>
    if (b.distributor row.distributorId).isNone then
      .error (.database "FOREIGN KEY constraint failed")
    else .ok { b with entries := b.entries.insert (fun id => { row with id }) fun _ => rfl }

end Books

/-- What may raise besides the constraints; `readBack` is the read of the entry after the block. -/
structure Faults where
  statement : Statement → Books → Option BooksError := fun _ _ => none
  atBegin : Books → Option BooksError := fun _ => none
  atCommit : Books → Option BooksError := fun _ => none
  readBack : Option BooksError := none

def Faults.sqlite (faults : Faults) : Sqlite Books Statement BooksError where
  write w b :=
    match faults.statement w b with
    | some e => .error e
    | none => b.apply w
  beginRaises := faults.atBegin
  commitRaises := faults.atCommit

abbrev BooksProg (α : Type) := Prog Books Statement Empty BooksError α

/-- What `post_distributor_ledger` is given. Its callers refuse amounts that are not positive. -/
structure Posting where
  distributorId : ℕ
  entryType : String
  direction : Direction
  amount : ℚ
  applyTo : Option String := none
  enforceCreditLimit : Bool := false
  amount_pos : 0 < amount

def defaultPaymentApplyTo (debtBalance : ℚ) : ApplyTo :=
  if nearest (1 / 1000000000) < debtBalance then .debt else .balance

def debtOf (b : Books) (id : ℕ) : ℚ := ((b.distributor id).map Distributor.debtBalance).getD 0

def unnamed (entryType : String) : Bool := ["", "settlement", "payment"].contains entryType

def insertEntry (row : Entry) : BooksProg ℕ :=
  .statement (.insertEntry row) fun b => .ret (b.entries.next - 1)

def debitRow (p : Posting) : Entry where
  id := 0
  distributorId := p.distributorId
  entryType := p.entryType
  direction := p.direction
  amount := p.amount

def creditRow (p : Posting) (applyTo : ApplyTo) (defaulted : Bool) : Entry where
  id := 0
  distributorId := p.distributorId
  entryType := if unnamed p.entryType then applyTo.entryType else p.entryType
  direction := p.direction
  amount := p.amount
  applyTo := some applyTo
  applyToDefaulted := defaulted

def postCredit (p : Posting) (applyTo : ApplyTo) (defaulted : Bool) : BooksProg ℕ :=
  match applyTo with
  | .debt => .statement (.payDebt p.distributorId p.amount) fun b =>
    if b.changes = 0 then
      .statement .select fun b => .raise (.debtExceeded (debtOf b p.distributorId))
    else insertEntry (creditRow p .debt defaulted)
  | .balance => .statement (.addBalance p.distributorId p.amount) fun _ =>
    insertEntry (creditRow p .balance defaulted)

def postBlock (p : Posting) : BooksProg ℕ :=
  match p.direction with
  | .debit =>
    if p.enforceCreditLimit then
      .statement (.guardedDebit p.distributorId p.amount) fun b =>
      if b.changes ≠ 1 then .raise .creditLimit else insertEntry (debitRow p)
    else
      .statement (.insertEntry (debitRow p)) fun b =>
      let entryId := b.entries.next - 1
      .statement (.addDebt p.distributorId p.amount) fun _ => .ret entryId
  | .credit =>
    match p.applyTo.bind ApplyTo.ofText? with
    | some applyTo => postCredit p applyTo false
    | none => .statement .select fun b =>
      postCredit p (defaultPaymentApplyTo (debtOf b p.distributorId)) true

def settleBlock (distributorId : ℕ) (amount : ℚ) : BooksProg ℕ :=
  .statement .select fun b =>
  match b.distributor distributorId with
  | none => .raise .distributorNotFound
  | some d =>
    let settled := min (max 0 amount) (max 0 d.debtBalance)
    .statement (.insertEntry
      { id := 0, distributorId, entryType := "debt_settle", direction := .credit,
        amount := settled }) fun b =>
    let entryId := b.entries.next - 1
    if 0 < settled then .statement (.lowerDebt distributorId settled) fun _ => .ret entryId
    else .ret entryId

inductive Call
  | post (p : Posting)
  | settle (distributorId : ℕ) (amount : ℚ)

def Call.block : Call → BooksProg ℕ
  | .post p => postBlock p
  | .settle distributorId amount => settleBlock distributorId amount

def Call.perform (c : Call) (faults : Faults) (b : Books) : Except BooksError ℕ × Books :=
  match Connection.perform faults.sqlite (.transaction c.block .ret) b with
  | (.error e, b) => (.error e, b)
  | (.ok id, b) =>
    match faults.readBack with
    | some e => (.error e, b)
    | none => (.ok id, b)

def step (b : Books) (c : Call × Faults) : Books := (c.1.perform c.2 b).2

/-- What `distributor_summary` reports of the books; every entry is posted. -/
structure Summary where
  debit : ℚ
  credit : ℚ
  paidToBalance : ℚ
  paidToDebt : ℚ
  entries : ℕ
  balance : ℚ
  debtBalance : ℚ
  creditLimit : ℚ

/-- `SUM(CASE WHEN … THEN amount ELSE 0 END)`, with the `SUM` of the SQLite at hand: whether it
corrects the rounding of its additions depends on the version. -/
def total (sqlSum : List ℚ → ℚ) (ledger : List Entry) (p : Entry → Bool) : ℚ :=
  if ledger.isEmpty then 0 else sqlSum (ledger.map fun e => if p e then e.amount else 0)

def Books.ledger (b : Books) (id : ℕ) : List Entry := b.entries.select fun e => e.distributorId = id

def distributorSummary (sqlSum : List ℚ → ℚ) (b : Books) (id : ℕ) : Option Summary :=
  (b.distributor id).map fun d =>
    let ledger := b.ledger id
    { debit := total sqlSum ledger fun e => e.direction = .debit
      credit := total sqlSum ledger fun e => e.direction = .credit
      paidToBalance := total sqlSum ledger fun e =>
        e.direction = .credit && e.entryType = "payment_to_balance"
      paidToDebt := total sqlSum ledger fun e =>
        e.direction = .credit && ["payment_to_debt", "debt_settle"].contains e.entryType
      entries := ledger.length
      balance := d.balance
      debtBalance := d.debtBalance
      creditLimit := d.creditLimit }

def Entry.wentTo (e : Entry) : Option ApplyTo :=
  e.applyTo.or (if e.entryType = "debt_settle" then some .debt else none)

def Entry.debtAfter (e : Entry) (debt : ℚ) : ℚ :=
  if e.direction = .debit then realAdd debt e.amount
  else if e.wentTo = some .debt ∧ 0 < e.amount then max (realSub debt e.amount) 0
  else debt

def Entry.balanceAfter (e : Entry) (balance : ℚ) : ℚ :=
  if e.direction = .credit ∧ e.wentTo = some .balance then realAdd balance e.amount else balance

/-- The figure that an entry moves. A payment above the debt, by a millionth at most, clears it. -/
inductive Moved (e : Entry) (d : Distributor) : Distributor → Prop
  | debit (h : e.direction = .debit) :
      Moved e d { d with debtBalance := realAdd d.debtBalance e.amount }
  | toBalance (h : e.direction = .credit) (hto : e.wentTo = some .balance) :
      Moved e d { d with balance := realAdd d.balance e.amount }
  | toDebt (h : e.direction = .credit) (hto : e.wentTo = some .debt) (hpos : 0 < e.amount)
      (hdue : e.amount ≤ d.debtBalance ∨
        realSub e.amount (nearest (1 / 1000000)) ≤ d.debtBalance) :
      Moved e d { d with debtBalance := max (realSub d.debtBalance e.amount) 0 }
  | nothingOwed (h : e.direction = .credit) (hto : e.wentTo = some .debt) (hzero : e.amount = 0) :
      Moved e d d

structure Posted (b b' : Books) (e : Entry) : Prop where
  amount_nonneg : 0 ≤ e.amount
  entries : b'.entries.rows = b.entries.rows ++ [e]
  change : ∃ d d', b.distributor e.distributorId = some d ∧ Moved e d d' ∧
    b'.distributors.rows = b.distributors.rows.map fun x => if x.id = d.id then d' else x

theorem Moved.id_eq {e : Entry} {d d' : Distributor} (h : Moved e d d') : d'.id = d.id := by
  cases h <;> rfl

theorem Moved.creditLimit_eq {e : Entry} {d d' : Distributor} (h : Moved e d d') :
    d'.creditLimit = d.creditLimit := by
  cases h <;> rfl

theorem write_ok {faults : Faults} {w : Statement} {b b' : Books}
    (h : faults.sqlite.write w b = .ok b') : b.apply w = .ok b' := by
  simp only [Faults.sqlite] at h
  cases hf : faults.statement w b with
  | some e =>
    rw [hf] at h
    cases h
  | none =>
    rw [hf] at h
    exact h

theorem mem_of_distributor {b : Books} {id : ℕ} {d : Distributor} (h : b.distributor id = some d) :
    d ∈ b.distributors.rows ∧ d.id = id :=
  ⟨List.mem_of_find?_eq_some h, by simpa using List.find?_some h⟩

theorem distributor_of_insert {b b' : Books} {row : Entry}
    (h : b.apply (.insertEntry row) = .ok b') :
    (∃ d, b.distributor row.distributorId = some d) ∧
      b' = { b with entries := b.entries.insert (fun id => { row with id }) fun _ => rfl } := by
  simp only [Books.apply] at h
  cases hd : b.distributor row.distributorId with
  | none =>
    rw [hd] at h
    cases h
  | some d =>
    rw [hd] at h
    cases h
    exact ⟨⟨d, rfl⟩, rfl⟩

theorem eval_insertEntry {faults : Faults} {row : Entry} {b b' : Books} {id : ℕ}
    (h : eval faults.sqlite (insertEntry row) b = (.ok id, b')) :
    id = b.entries.next ∧ (∃ d, b.distributor row.distributorId = some d) ∧
      b' = { b with entries := b.entries.insert (fun id => { row with id }) fun _ => rfl } := by
  obtain ⟨b₁, hinsert, heval⟩ := eval_statement h
  obtain ⟨hd, rfl⟩ := distributor_of_insert (write_ok hinsert)
  cases heval
  exact ⟨rfl, hd, rfl⟩

theorem distributor_updateWhere (b : Books) (p : Distributor → Bool)
    (f : Distributor → Distributor) (hf : ∀ d, (f d).id = d.id) (id : ℕ) :
    (b.updateWhere p f hf).distributor id =
      (b.distributor id).map fun d => if p d then f d else d := by
  simp only [Books.distributor, Books.updateWhere, Table.rows_update, List.find?_map]
  congr 2
  funext d
  simp only [Function.comp]
  split_ifs
  · rw [hf]
  · rfl

theorem exists_of_changes {b : Books} {p : Distributor → Bool} {f : Distributor → Distributor}
    {hf : ∀ d, (f d).id = d.id} (h : (b.updateWhere p f hf).changes ≠ 0) :
    ∃ d ∈ b.distributors.rows, p d = true := by
  obtain ⟨d, hd⟩ := List.exists_mem_of_ne_nil _ (List.ne_nil_of_length_pos (Nat.pos_of_ne_zero h))
  exact ⟨d, Table.mem_select.mp hd⟩

theorem distributor_of_mem {b : Books} {d : Distributor} (hd : d ∈ b.distributors.rows) :
    b.distributor d.id = some d := by
  cases h : b.distributor d.id with
  | none =>
    have := List.find?_eq_none.mp h d hd
    simp at this
  | some d' =>
    obtain ⟨hmem, hid⟩ := mem_of_distributor h
    rw [b.distributors.eq_of_key_eq hmem hd hid]

theorem Posted.of_update {b b' : Books} {e : Entry} {d : Distributor} {p : Distributor → Bool}
    {f : Distributor → Distributor}
    (hupdate : b'.distributors.rows = b.distributors.rows.map fun x => if p x then f x else x)
    (hinsert : b'.entries.rows = b.entries.rows ++ [e]) (hamount : 0 ≤ e.amount)
    (hfound : b.distributor e.distributorId = some d) (hp : p d = true)
    (honly : ∀ x, p x = true → x.id = e.distributorId) (hmoved : Moved e d (f d)) :
    Posted b b' e := by
  obtain ⟨hd, hid⟩ := mem_of_distributor hfound
  refine ⟨hamount, hinsert, d, f d, hfound, hmoved, ?_⟩
  rw [hupdate]
  refine List.map_congr_left fun x hx => ?_
  by_cases hx' : x.id = d.id
  · obtain rfl := b.distributors.eq_of_key_eq hx hd hx'
    rw [if_pos hp, if_pos rfl]
  · rw [if_neg fun hpx => hx' ((honly x hpx).trans hid.symm), if_neg hx']

theorem Posted.found {b b' : Books} {e : Entry} (h : Posted b b' e) :
    ∃ d d', b.distributor e.distributorId = some d ∧ Moved e d d' ∧
      b'.distributor e.distributorId = some d' := by
  obtain ⟨d, d', hfound, hmoved, hrows⟩ := h.change
  obtain ⟨-, hid⟩ := mem_of_distributor hfound
  refine ⟨d, d', hfound, hmoved, ?_⟩
  have hsame : ((fun x : Distributor => decide (x.id = e.distributorId)) ∘
      fun x => if x.id = d.id then d' else x) = fun x => decide (x.id = e.distributorId) := by
    funext x
    simp only [Function.comp]
    split_ifs with hx
    · rw [hmoved.id_eq, hx]
    · rfl
  have hfind : b.distributors.rows.find? (fun x => x.id = e.distributorId) = some d := hfound
  simp only [Books.distributor, hrows, List.find?_map, hsame, hfind, Option.map_some, if_true]

def creditEntry (p : Posting) (applyTo : ApplyTo) (defaulted : Bool) (b : Books) : Entry :=
  { creditRow p applyTo defaulted with id := b.entries.next }

theorem posted_credit {faults : Faults} {p : Posting} (hcredit : p.direction = .credit)
    {applyTo : ApplyTo} {defaulted : Bool} {b b' : Books} {id : ℕ}
    (h : eval faults.sqlite (postCredit p applyTo defaulted) b = (.ok id, b')) :
    id = (creditEntry p applyTo defaulted b).id ∧
      Posted b b' (creditEntry p applyTo defaulted b) := by
  cases applyTo with
  | debt =>
    obtain ⟨b₁, hpay, heval⟩ := eval_statement h
    cases write_ok hpay
    split_ifs at heval with hchanges
    · obtain ⟨b₂, -, heval⟩ := eval_statement heval
      cases heval
    · obtain ⟨rfl, -, rfl⟩ := eval_insertEntry heval
      obtain ⟨d, hd, hp⟩ := exists_of_changes hchanges
      have hdue : d.id = p.distributorId ∧ 
          realSub p.amount (nearest (1 / 1000000)) ≤ d.debtBalance := by
        simpa only [Bool.and_eq_true, decide_eq_true_eq] using hp
      have hfound : b.distributor p.distributorId = some d := hdue.1 ▸ distributor_of_mem hd
      refine ⟨rfl, Posted.of_update rfl rfl p.amount_pos.le hfound hp (fun x hx => ?_)
        (.toDebt hcredit rfl p.amount_pos (.inr hdue.2))⟩
      exact of_decide_eq_true (Bool.and_eq_true_iff.mp hx).1
  | balance =>
    obtain ⟨b₁, hadd, heval⟩ := eval_statement h
    cases write_ok hadd
    obtain ⟨rfl, ⟨d', hd'⟩, rfl⟩ := eval_insertEntry heval
    rw [distributor_updateWhere] at hd'
    obtain ⟨d, hfound, -⟩ := Option.map_eq_some_iff.mp hd'
    obtain ⟨hd, hid⟩ := mem_of_distributor hfound
    exact ⟨rfl, Posted.of_update rfl rfl p.amount_pos.le hfound (decide_eq_true hid)
      (fun x hx => of_decide_eq_true hx) (.toBalance hcredit rfl)⟩

def debitEntry (p : Posting) (b : Books) : Entry := { debitRow p with id := b.entries.next }

theorem Moved.debit_eq {e : Entry} {d d' : Distributor} (h : Moved e d d')
    (hdebit : e.direction = .debit) : d'.debtBalance = realAdd d.debtBalance e.amount := by
  cases h with
  | debit => rfl
  | toBalance hcredit => cases hcredit.symm.trans hdebit
  | toDebt hcredit => cases hcredit.symm.trans hdebit
  | nothingOwed hcredit => cases hcredit.symm.trans hdebit

theorem posted_debit {faults : Faults} {p : Posting} (hdebit : p.direction = .debit)
    {b b' : Books} {id : ℕ} (h : eval faults.sqlite (postBlock p) b = (.ok id, b')) :
    id = (debitEntry p b).id ∧ Posted b b' (debitEntry p b) ∧
      (p.enforceCreditLimit = true → ∀ d, b'.distributor p.distributorId = some d →
        d.creditLimit ≤ 0 ∨ d.debtBalance ≤ realAdd d.creditLimit (nearest (5 / 1000))) := by
  simp only [postBlock, hdebit] at h
  split_ifs at h with henforce
  · obtain ⟨b₁, hguard, heval⟩ := eval_statement h
    cases write_ok hguard
    split_ifs at heval with hchanges
    · cases heval
    obtain ⟨rfl, -, rfl⟩ := eval_insertEntry heval
    obtain ⟨d, hd, hp⟩ := exists_of_changes fun hzero =>
      hchanges (by rw [hzero]; exact Nat.zero_ne_one)
    have hdue : d.id = p.distributorId ∧
        (d.creditLimit ≤ 0 ∨
          realAdd d.debtBalance p.amount ≤ realAdd d.creditLimit (nearest (5 / 1000))) := by
      simpa only [Bool.and_eq_true, Bool.or_eq_true, decide_eq_true_eq] using hp
    have hfound : b.distributor p.distributorId = some d := hdue.1 ▸ distributor_of_mem hd
    refine ⟨rfl, and_iff_left_of_imp (fun hposted => ?_) |>.mpr
      (Posted.of_update rfl rfl p.amount_pos.le hfound hp (fun x hx => ?_) (.debit hdebit))⟩
    · intro _ d₂ hd₂
      obtain ⟨d₁, d', hfound₁, hmoved, hfound'⟩ := hposted.found
      cases hfound.symm.trans hfound₁
      cases hfound'.symm.trans hd₂
      rw [hmoved.creditLimit_eq, hmoved.debit_eq hdebit]
      exact hdue.2
    · exact of_decide_eq_true (Bool.and_eq_true_iff.mp hx).1
  · obtain ⟨b₁, hinsert, heval⟩ := eval_statement h
    obtain ⟨⟨d, hfound⟩, rfl⟩ := distributor_of_insert (write_ok hinsert)
    obtain ⟨b₂, hadd, heval⟩ := eval_statement heval
    cases write_ok hadd
    cases heval
    exact ⟨rfl, Posted.of_update rfl rfl p.amount_pos.le hfound
      (decide_eq_true (mem_of_distributor hfound).2) (fun x hx => of_decide_eq_true hx)
      (.debit hdebit), fun hon => absurd hon henforce⟩

theorem posted_settle {faults : Faults} {distributorId : ℕ} {amount : ℚ} {b b' : Books} {id : ℕ}
    (h : eval faults.sqlite (settleBlock distributorId amount) b = (.ok id, b')) :
    ∃ e : Entry, e.id = id ∧ e.direction = .credit ∧ e.entryType = "debt_settle" ∧
      e.applyTo = none ∧ e.amount ≤ max 0 amount ∧ Posted b b' e := by
  obtain ⟨b₀, hselect, heval⟩ := eval_statement h
  cases write_ok hselect
  cases hfound : b.distributor distributorId with
  | none =>
    rw [hfound] at heval
    cases heval
  | some d =>
    simp only [hfound] at heval
    generalize hsettled : min (max 0 amount) (max 0 d.debtBalance) = settled at heval
    have hnonneg : 0 ≤ settled := hsettled ▸ le_min (le_max_left _ _) (le_max_left _ _)
    have hrequested : settled ≤ max 0 amount := hsettled ▸ min_le_left _ _
    have howed : settled ≤ max 0 d.debtBalance := hsettled ▸ min_le_right _ _
    obtain ⟨b₁, hinsert, heval⟩ := eval_statement heval
    obtain ⟨-, rfl⟩ := distributor_of_insert (write_ok hinsert)
    obtain ⟨hd, hid⟩ := mem_of_distributor hfound
    split_ifs at heval with hpos
    · obtain ⟨b₂, hlower, heval⟩ := eval_statement heval
      cases write_ok hlower
      cases heval
      have hle : settled ≤ d.debtBalance :=
        (le_max_iff.mp howed).resolve_left (not_le.mpr hpos)
      exact ⟨_, rfl, rfl, rfl, rfl, hrequested, Posted.of_update rfl rfl hnonneg hfound
        (decide_eq_true hid) (fun x hx => of_decide_eq_true hx) (.toDebt rfl rfl hpos (.inl hle))⟩
    · cases heval
      refine ⟨_, rfl, rfl, rfl, rfl, hrequested, hnonneg, rfl, d, d, hfound,
        .nothingOwed rfl rfl (le_antisymm (not_lt.mp hpos) hnonneg), ?_⟩
      refine (List.map_id _).symm.trans (List.map_congr_left fun x hx => ?_)
      split_ifs with hx'
      · exact b.distributors.eq_of_key_eq hx hd hx'
      · rfl

inductive Call.Posts : Call → Entry → Prop
  | debit (p : Posting) (e : Entry) (h : p.direction = .debit) (hd : e.direction = .debit)
      (hid : e.distributorId = p.distributorId) (hamount : e.amount = p.amount) : (post p).Posts e
  | credit (p : Posting) (e : Entry) (applyTo : ApplyTo) (h : p.direction = .credit)
      (hd : e.direction = .credit) (hid : e.distributorId = p.distributorId)
      (hamount : e.amount = p.amount) (hto : e.wentTo = some applyTo)
      (hchosen : ∀ chosen, p.applyTo.bind ApplyTo.ofText? = some chosen → applyTo = chosen)
      (htype : unnamed p.entryType = true → e.entryType = applyTo.entryType) : (post p).Posts e
  | settle (distributorId : ℕ) (amount : ℚ) (e : Entry) (hd : e.direction = .credit)
      (htype : e.entryType = "debt_settle") (hto : e.applyTo = none)
      (hamount : e.amount ≤ max 0 amount) : (settle distributorId amount).Posts e

def Call.enforced : Call → Option ℕ
  | .post p => if p.direction = .debit ∧ p.enforceCreditLimit = true then some p.distributorId
    else none
  | .settle _ _ => none

def Call.WithinLimit (c : Call) (b : Books) : Prop :=
  ∀ id, c.enforced = some id → ∀ d, b.distributor id = some d →
    d.creditLimit ≤ 0 ∨ d.debtBalance ≤ realAdd d.creditLimit (nearest (5 / 1000))

theorem posts_of_credit {faults : Faults} {p : Posting} (hcredit : p.direction = .credit)
    {applyTo : ApplyTo} {defaulted : Bool} {b b' : Books} {id : ℕ}
    (hchosen : ∀ chosen, p.applyTo.bind ApplyTo.ofText? = some chosen → applyTo = chosen)
    (h : eval faults.sqlite (postCredit p applyTo defaulted) b = (.ok id, b')) :
    ∃ e, e.id = id ∧ (Call.post p).Posts e ∧ Posted b b' e ∧ (Call.post p).WithinLimit b' := by
  obtain ⟨hid, hposted⟩ := posted_credit hcredit h
  refine ⟨_, hid.symm, .credit p _ applyTo hcredit hcredit rfl rfl rfl hchosen
    (fun hunnamed => if_pos hunnamed), hposted, fun id hon => ?_⟩
  simp [Call.enforced, hcredit] at hon

theorem posted_of_eval {faults : Faults} {c : Call} {b b' : Books} {id : ℕ}
    (h : eval faults.sqlite c.block b = (.ok id, b')) :
    ∃ e, e.id = id ∧ c.Posts e ∧ Posted b b' e ∧ c.WithinLimit b' := by
  cases c with
  | settle distributorId amount =>
    obtain ⟨e, hid, hd, htype, hto, hamount, hposted⟩ := posted_settle h
    exact ⟨e, hid, .settle _ _ e hd htype hto hamount, hposted, fun id hon => by cases hon⟩
  | post p =>
    cases hdirection : p.direction with
    | debit =>
      obtain ⟨hid, hposted, hlimit⟩ := posted_debit hdirection h
      refine ⟨_, hid.symm, .debit p _ hdirection hdirection rfl rfl, hposted, fun id hon => ?_⟩
      simp only [Call.enforced, hdirection, true_and] at hon
      split_ifs at hon with henforce
      cases hon
      exact hlimit henforce
    | credit =>
      simp only [Call.block, postBlock, hdirection] at h
      cases hchosen : p.applyTo.bind ApplyTo.ofText? with
      | some chosen =>
        rw [hchosen] at h
        refine posts_of_credit hdirection (fun _ h' => ?_) h
        exact Option.some_inj.mp (hchosen.symm.trans h')
      | none =>
        rw [hchosen] at h
        obtain ⟨b₁, hselect, heval⟩ := eval_statement h
        cases write_ok hselect
        refine posts_of_credit hdirection (fun _ h' => ?_) heval
        cases hchosen.symm.trans h'

theorem perform_cases (c : Call) (faults : Faults) (b : Books) :
    (∃ e, c.perform faults b = (.error e, b)) ∨
    ∃ entry, c.Posts entry ∧ Posted b (step b (c, faults)) entry ∧
      c.WithinLimit (step b (c, faults)) ∧
      (c.perform faults b).1 = faults.readBack.elim (.ok entry.id) .error := by
  simp only [Call.perform, step, perform_transaction]
  rcases block_cases faults.sqlite c.block b with ⟨e, hraised⟩ | ⟨id, b', heval, hdone⟩
  · rw [hraised]
    exact .inl ⟨e, rfl⟩
  · rw [hdone]
    obtain ⟨entry, rfl, hposts, hposted, hlimit⟩ := posted_of_eval heval
    right
    cases faults.readBack with
    | none => exact ⟨entry, hposts, hposted, hlimit, rfl⟩
    | some e => exact ⟨entry, hposts, hposted, hlimit, rfl⟩

/-- The entries of a distributor account for his row: each figure is what they make of it, one
after another. -/
structure Explains (es : List Entry) (d d' : Distributor) : Prop where
  id : d'.id = d.id
  creditLimit : d'.creditLimit = d.creditLimit
  balance : d'.balance =
    (es.filter (·.distributorId = d.id)).foldl (fun x e => e.balanceAfter x) d.balance
  debtBalance : d'.debtBalance =
    (es.filter (·.distributorId = d.id)).foldl (fun x e => e.debtAfter x) d.debtBalance
  nonneg : 0 ≤ d'.debtBalance

theorem Explains.nil {d : Distributor} (h : 0 ≤ d.debtBalance) : Explains [] d d :=
  ⟨rfl, rfl, rfl, rfl, h⟩

theorem Explains.trans {es es' : List Entry} {d d' d'' : Distributor} (h : Explains es d d')
    (h' : Explains es' d' d'') : Explains (es ++ es') d d'' where
  id := h'.id.trans h.id
  creditLimit := h'.creditLimit.trans h.creditLimit
  balance := by rw [h'.balance, h.balance, h.id, List.filter_append, List.foldl_append]
  debtBalance := by rw [h'.debtBalance, h.debtBalance, h.id, List.filter_append, List.foldl_append]
  nonneg := h'.nonneg

theorem Explains.other {e : Entry} {d : Distributor} (h : 0 ≤ d.debtBalance)
    (hother : d.id ≠ e.distributorId) : Explains [e] d d := by
  have hne : e.distributorId ≠ d.id := hother.symm
  refine ⟨rfl, rfl, ?_, ?_, h⟩ <;> simp [hne]

theorem Moved.explains {e : Entry} {d d' : Distributor} (h : Moved e d d')
    (hid : e.distributorId = d.id) (hamount : 0 ≤ e.amount) (hdebt : 0 ≤ d.debtBalance) :
    Explains [e] d d' := by
  cases h with
  | debit hd =>
    refine ⟨rfl, rfl, ?_, ?_, nearest_nonneg (add_nonneg hdebt hamount)⟩
    · simp [hid, Entry.balanceAfter, hd]
    · simp [hid, Entry.debtAfter, hd]
  | toBalance hd hto =>
    refine ⟨rfl, rfl, ?_, ?_, hdebt⟩
    · simp [hid, Entry.balanceAfter, hd, hto]
    · simp [hid, Entry.debtAfter, hd, hto]
  | toDebt hd hto hpos hdue =>
    refine ⟨rfl, rfl, ?_, ?_, le_max_right _ _⟩
    · simp [hid, Entry.balanceAfter, hto]
    · simp [hid, Entry.debtAfter, hd, hto, hpos]
  | nothingOwed hd hto hzero =>
    refine ⟨rfl, rfl, ?_, ?_, hdebt⟩
    · simp [hid, Entry.balanceAfter, hto]
    · simp [hid, Entry.debtAfter, hd, hzero]

/-- Every row of the books after `es` is explained by them. -/
def Explained (es : List Entry) (b b' : Books) : Prop :=
  List.Forall₂ (Explains es) b.distributors.rows b'.distributors.rows

theorem Posted.explained {b b' : Books} {e : Entry} (h : Posted b b' e)
    (hdebts : ∀ d ∈ b.distributors.rows, 0 ≤ d.debtBalance) : Explained [e] b b' := by
  obtain ⟨d, d', hfound, hmoved, hrows⟩ := h.change
  obtain ⟨hd, hid⟩ := mem_of_distributor hfound
  rw [Explained, hrows, List.forall₂_map_right_iff, List.forall₂_same]
  intro x hx
  split_ifs with hx'
  · obtain rfl := b.distributors.eq_of_key_eq hx hd hx'
    exact hmoved.explains hid.symm h.amount_nonneg (hdebts x hx)
  · exact .other (hdebts x hx) fun hother => hx' (hother.trans hid.symm)

theorem Explained.trans {es es' : List Entry} {b b' b'' : Books} (h : Explained es b b')
    (h' : Explained es' b' b'') : Explained (es ++ es') b b'' := by
  simp only [Explained] at h h' ⊢
  generalize b.distributors.rows = ds, b'.distributors.rows = ds', b''.distributors.rows = ds''
    at h h'
  induction h generalizing ds'' with
  | nil =>
    cases h'
    exact .nil
  | cons hd _ ih =>
    cases h' with
    | cons hd' hrest => exact .cons (hd.trans hd') (ih _ hrest)

theorem Explained.nonneg {es : List Entry} {b b' : Books} (h : Explained es b b') :
    ∀ d ∈ b'.distributors.rows, 0 ≤ d.debtBalance := by
  simp only [Explained] at h
  generalize b.distributors.rows = ds, b'.distributors.rows = ds' at h
  induction h with
  | nil => simp
  | cons hd _ ih => exact List.forall_mem_cons.mpr ⟨hd.nonneg, ih⟩

theorem step_explained (c : Call × Faults) {b : Books}
    (hdebts : ∀ d ∈ b.distributors.rows, 0 ≤ d.debtBalance) :
    ∃ es, (∀ e ∈ es, c.1.Posts e) ∧
      (step b c).entries.rows = b.entries.rows ++ es ∧ Explained es b (step b c) := by
  rcases perform_cases c.1 c.2 b with ⟨e, hraised⟩ | ⟨e, hposts, hposted, -⟩
  · have hsame : step b c = b := congrArg Prod.snd hraised
    rw [hsame]
    exact ⟨[], by simp, (List.append_nil _).symm,
      List.forall₂_same.mpr fun d hd => .nil (hdebts d hd)⟩
  · exact ⟨[e], by simpa using hposts, hposted.entries, hposted.explained hdebts⟩

theorem run_posts (calls : List (Call × Faults)) {b : Books}
    (hdebts : ∀ d ∈ b.distributors.rows, 0 ≤ d.debtBalance) :
    ∃ es, (∀ e ∈ es, ∃ c ∈ calls, c.1.Posts e) ∧
      (Run.run step b calls).entries.rows = b.entries.rows ++ es ∧
      Explained es b (Run.run step b calls) := by
  induction calls generalizing b with
  | nil =>
    exact ⟨[], by simp, (List.append_nil _).symm,
      List.forall₂_same.mpr fun d hd => .nil (hdebts d hd)⟩
  | cons c calls ih =>
    obtain ⟨es, hposts, hentries, hexplained⟩ := step_explained c hdebts
    obtain ⟨es', hposts', hentries', hexplained'⟩ := ih hexplained.nonneg
    refine ⟨es ++ es', fun e he => ?_, ?_, hexplained.trans hexplained'⟩
    · rcases List.mem_append.mp he with he | he
      · exact ⟨c, List.mem_cons_self, hposts e he⟩
      · obtain ⟨c', hc', hposts⟩ := hposts' e he
        exact ⟨c', List.mem_cons_of_mem _ hc', hposts⟩
    · exact hentries'.trans (by rw [hentries, List.append_assoc])

/-- No figure overflows: the callers let no amount above `2 ^ 60` through, and that far from
`2 ^ 115` an addition is lost in the rounding. -/
structure Distributor.Bounded (d : Distributor) : Prop where
  balance : d.balance ≤ 2 ^ (115 : ℤ)
  debtBalance : d.debtBalance ≤ 2 ^ (115 : ℤ)

theorem realAdd_le {x y : ℚ} (hx : x ≤ 2 ^ (115 : ℤ)) (hy : y ≤ 2 ^ 60) :
    realAdd x y ≤ 2 ^ (115 : ℤ) := by
  refine nearest_le_of_lt_pow (by norm_num) ?_
  calc x + y ≤ 2 ^ (115 : ℤ) + 2 ^ 60 := add_le_add hx hy
    _ < 2 ^ (115 : ℤ) + 2 ^ ((115 : ℤ) - 53) := by norm_num

theorem Moved.bounded {e : Entry} {d d' : Distributor} (h : Moved e d d') (hd : d.Bounded)
    (hnonneg : 0 ≤ e.amount) (hamount : e.amount ≤ 2 ^ 60) : d'.Bounded := by
  cases h with
  | debit => exact ⟨hd.balance, realAdd_le hd.debtBalance hamount⟩
  | toBalance => exact ⟨realAdd_le hd.balance hamount, hd.debtBalance⟩
  | toDebt =>
    have hlower : d.debtBalance - e.amount ≤ 2 ^ (115 : ℤ) :=
      (sub_le_self _ hnonneg).trans hd.debtBalance
    exact ⟨hd.balance, max_le (nearest_le_of_pow (by norm_num) hlower) (by positivity)⟩
  | nothingOwed => exact hd

def Call.amount : Call → ℚ
  | .post p => p.amount
  | .settle _ amount => amount

theorem Call.Posts.amount_le {c : Call} {e : Entry} (h : c.Posts e) (hc : c.amount ≤ 2 ^ 60) :
    e.amount ≤ 2 ^ 60 := by
  cases h with
  | debit p e _ _ _ hamount => exact hamount.trans_le hc
  | credit p e _ _ _ _ hamount => exact hamount.trans_le hc
  | settle _ amount e _ _ _ hamount => exact hamount.trans (max_le (by positivity) hc)

theorem step_bounded {c : Call × Faults} (hc : c.1.amount ≤ 2 ^ 60) {b : Books}
    (hb : ∀ d ∈ b.distributors.rows, d.Bounded) :
    ∀ d ∈ (step b c).distributors.rows, d.Bounded := by
  rcases perform_cases c.1 c.2 b with ⟨e, hraised⟩ | ⟨e, hposts, hposted, -⟩
  · have hsame : step b c = b := congrArg Prod.snd hraised
    rwa [hsame]
  · obtain ⟨d, d', hfound, hmoved, hrows⟩ := hposted.change
    have hbounded := hmoved.bounded (hb d (mem_of_distributor hfound).1) hposted.amount_nonneg
      (hposts.amount_le hc)
    rw [hrows]
    intro x hx
    obtain ⟨y, hy, rfl⟩ := List.mem_map.mp hx
    split_ifs
    · exact hbounded
    · exact hb y hy

theorem run_bounded {calls : List (Call × Faults)} (hcalls : ∀ c ∈ calls, c.1.amount ≤ 2 ^ 60)
    {b : Books} (hb : ∀ d ∈ b.distributors.rows, d.Bounded) :
    ∀ d ∈ (Run.run step b calls).distributors.rows, d.Bounded :=
  Run.run_invariant (I := fun b : Books => ∀ d ∈ b.distributors.rows, d.Bounded)
    (fun _ _ hb hc => step_bounded hc hb) hb (Run.along_of_forall hcalls)

def Entry.NamedByEffect (e : Entry) : Prop :=
  e.direction = .credit →
    (e.entryType = "payment_to_balance" ↔ e.wentTo = some .balance) ∧
    (e.entryType = "payment_to_debt" ∨ e.entryType = "debt_settle" ↔ e.wentTo = some .debt)

def Call.LeavesName : Call → Prop
  | .post p => p.direction = .credit → unnamed p.entryType = true
  | .settle _ _ => True

theorem Call.Posts.namedByEffect {c : Call} {e : Entry} (h : c.Posts e) (hname : c.LeavesName) :
    e.NamedByEffect := by
  intro hcredit
  cases h with
  | debit p e h hd => cases hd.symm.trans hcredit
  | credit p e applyTo h hd hid hamount hto hchosen htype =>
    rw [hto, htype (hname h)]
    cases applyTo <;> simp [ApplyTo.entryType]
  | settle distributorId amount e hd htype hto =>
    simp [Entry.wentTo, hto, htype]

theorem total_congr (sqlSum : List ℚ → ℚ) {ledger : List Entry} {p q : Entry → Bool}
    (h : ∀ e ∈ ledger, p e = q e) : total sqlSum ledger p = total sqlSum ledger q := by
  have hcolumn : (ledger.map fun e => if p e then e.amount else 0) =
      ledger.map fun e => if q e then e.amount else 0 :=
    List.map_congr_left fun e he => by rw [h e he]
  rw [total, total, hcolumn]

/-- The sum of the credits whose entry says that they went to `applyTo`. -/
def paid (sqlSum : List ℚ → ℚ) (applyTo : ApplyTo) (ledger : List Entry) : ℚ :=
  total sqlSum ledger fun e => e.direction = .credit && e.wentTo = some applyTo

theorem summary_of_distributor (sqlSum : List ℚ → ℚ) {b : Books} {d : Distributor}
    (hd : d ∈ b.distributors.rows) :
    ∃ s, distributorSummary sqlSum b d.id = some s ∧
      s.balance = d.balance ∧ s.debtBalance = d.debtBalance ∧ s.creditLimit = d.creditLimit ∧
      s.debit = total sqlSum (b.ledger d.id) (·.direction = .debit) ∧
      ((∀ e ∈ b.entries.rows, e.NamedByEffect) →
        s.paidToBalance = paid sqlSum .balance (b.ledger d.id) ∧
        s.paidToDebt = paid sqlSum .debt (b.ledger d.id)) := by
  refine ⟨_, by rw [distributorSummary, distributor_of_mem hd, Option.map_some], rfl, rfl, rfl,
    rfl, fun hnamed => ⟨total_congr sqlSum fun e he => ?_, total_congr sqlSum fun e he => ?_⟩⟩
  all_goals
    have hentry : e ∈ b.entries.rows := (Table.mem_select.mp he).1
    by_cases hcredit : e.direction = .credit
  · simp only [hcredit, decide_true, Bool.true_and, (hnamed e hentry hcredit).1]
  · simp [hcredit]
  · simp [hcredit, ← (hnamed e hentry hcredit).2]
  · simp [hcredit]

/-- The books balance: over every run of postings and settlements, whatever raises, each row is
what it was and what the new entries say of it, a call that its block refuses changes nothing, and
the summary reports the same figures. -/
theorem books_balance (sqlSum : List ℚ → ℚ) (calls : List (Call × Faults)) {b : Books}
    (hdebts : ∀ d ∈ b.distributors.rows, 0 ≤ d.debtBalance) :
    (∃ es, (Run.run step b calls).entries.rows = b.entries.rows ++ es ∧
      Explained es b (Run.run step b calls)) ∧
    (∀ c faults, let b' := Run.run step b calls
      (∃ e, c.perform faults b' = (.error e, b')) ∨
      ∃ entry, c.Posts entry ∧ Posted b' (step b' (c, faults)) entry ∧
        c.WithinLimit (step b' (c, faults)) ∧
        (c.perform faults b').1 = faults.readBack.elim (.ok entry.id) .error) ∧
    let b' := Run.run step b calls
    ∀ d ∈ b'.distributors.rows,
      ∃ s, distributorSummary sqlSum b' d.id = some s ∧
        s.balance = d.balance ∧ s.debtBalance = d.debtBalance ∧ s.creditLimit = d.creditLimit ∧
        s.debit = total sqlSum (b'.ledger d.id) (·.direction = .debit) ∧
        ((∀ e ∈ b.entries.rows, e.NamedByEffect) → (∀ c ∈ calls, c.1.LeavesName) →
          s.paidToBalance = paid sqlSum .balance (b'.ledger d.id) ∧
          s.paidToDebt = paid sqlSum .debt (b'.ledger d.id)) := by
  obtain ⟨es, hposts, hentries, hexplained⟩ := run_posts calls hdebts
  refine ⟨⟨es, hentries, hexplained⟩, fun c faults => perform_cases c faults _, fun d hd => ?_⟩
  obtain ⟨s, hsummary, hbalance, hdebt, hlimit, hdebit, hpaid⟩ :=
    summary_of_distributor sqlSum hd
  refine ⟨s, hsummary, hbalance, hdebt, hlimit, hdebit, fun hold hcalls => hpaid ?_⟩
  rw [hentries]
  intro e he
  rcases List.mem_append.mp he with he | he
  · exact hold e he
  · obtain ⟨c, hc, hpost⟩ := hposts e he
    exact hpost.namedByEffect (hcalls c hc)

def owing : Books where
  distributors := Table.empty.insert (fun id => { id, debtBalance := 10 }) fun _ => rfl
  entries := .empty

def payment (entryType : String) (amount : ℚ) (h : 0 < amount) : Call :=
  .post { distributorId := 1, entryType, direction := .credit, amount, applyTo := some "debt",
          amount_pos := h }

theorem four_pos : (0 : ℚ) < 4 := by norm_num

theorem books_balance_owing :
    ∃ es, (Run.run step owing [(payment "payment" 4 four_pos, {})]).entries.rows = [] ++ es ∧
      Explained es owing (Run.run step owing [(payment "payment" 4 four_pos, {})]) :=
  (books_balance List.sum [(payment "payment" 4 four_pos, {})] (b := owing) (by
    intro d hd
    obtain rfl := List.mem_singleton.mp hd
    norm_num)).1

def credit (amount : ℚ) (h : 0 < amount) : Call :=
  .post { distributorId := 1, entryType := "", direction := .credit, amount,
          applyTo := some "balance", amount_pos := h }

def tenths (n : ℕ) : ℚ := nearest (n / 10)

/-- A payment above the debt by half a millionth is taken whole, and clears the debt; and of 0.1
and 0.2 added to a balance the sum is not that of the two entries. -/
theorem figures_beside_entries :
    (let b' := step owing (payment "" (nearest (100000005 / 10000000)) (by decide +kernel), {})
     debtOf b' 1 = 0 ∧ debtOf b' 1 ≠ debtOf owing 1 - (b'.entries.rows.map Entry.amount).sum) ∧
    let b' := Run.run step owing
      [(credit (tenths 1) (by decide +kernel), {}), (credit (tenths 2) (by decide +kernel), {})]
    (b'.distributors.rows.map Distributor.balance).sum ≠ (b'.entries.rows.map Entry.amount).sum := by
  decide +kernel

end RadiusModule.DistributorLedger
