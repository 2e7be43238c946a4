import Mathlib.Data.List.Sort
import RadiusModule.Library.IsoText
import RadiusModule.Library.Run
import RadiusModule.Library.Table

/-!
# The reclaimer of tentative routers

A sweep finds the tentative registrations whose deadline is past and takes them
down one after the other: it reads the row again, releases its address, marks
it abandoned and deletes its peer file. The operator works on the same rows.
The tenant that every statement names beside a number is the row's own.
-/

namespace RadiusModule.TentativeReclaimer
open Library IsoText Run

def permanentStates : List String :=
  ["vpn_verified", "radius_pending", "api_pending", "api_verified", "fully_onboarded", "retired"]

/-- A row of `router_provisioning_registry`; no time is the empty text. -/
structure Registration where
  id : ℕ
  tenantId : ℤ
  status : String := ""
  lifecycleState : String := ""
  peerName : String := ""
  expiresAt : Option DateTime := none
  reclaimedAt : Option DateTime := none

structure Allocation where
  registryId : ℕ
  status : String

def Registration.lifecycle (r : Registration) : String :=
  if r.lifecycleState ≠ "" then r.lifecycleState
  else if r.status ≠ "" then r.status else "reserved"

def Registration.permanent (r : Registration) : Bool := permanentStates.contains r.lifecycle

def Allocation.isOpen (a : Allocation) : Bool := a.status = "reserved" || a.status = "active"

def iso (t : DateTime) : String := isoformat t ++ "Z"

/-- The files of a peer that `_delete_peer_file` would remove. -/
def peerFiles (peerName : String) : List String :=
  if peerName = "" then []
  else [peerName ++ ".conf", "hr-peer-" ++ peerName ++ ".conf"].filter fun file =>
    "hr-peer-".toList.isPrefixOf file.toList || "hr-router-".toList.isPrefixOf file.toList

inductive Janitor
  | idle
  | reading (todo : List ℕ)
  | releasing (row : Registration) (todo : List ℕ)
  | marking (row : Registration) (todo : List ℕ)
  | deleting (row : Registration) (todo : List ℕ)

structure World where
  now : DateTime
  rows : Table Registration Registration.id
  allocations : List Allocation
  files : List String
  janitor : Janitor := .idle
  reported : List ℕ := []

/-- A step raises, or the file system refuses to remove the file. -/
inductive Outcome
  | done
  | refused
  | raised
deriving DecidableEq

inductive Event
  | sweep (tenantId : Option ℤ)
  | janitor (outcome : Outcome)
  | extend (id : ℕ) (deadline : DateTime)
  | promote (id : ℕ)
  | lifecycle (id : ℕ) (state : String)
  | pass (now : DateTime)

/-- The rows that the query of `find_expired` selects. -/
def overdue (w : World) (tenantId : Option ℤ) (r : Registration) : Bool :=
  r.expiresAt.any (fun deadline => iso deadline < iso w.now) && r.reclaimedAt.isNone &&
    tenantId.all fun t => r.tenantId = t

def findExpired (w : World) (tenantId : Option ℤ) : List ℕ :=
  let rows := (w.rows.select (overdue w tenantId)).mergeSort fun a b =>
    (a.expiresAt.map iso).getD "" ≤ (b.expiresAt.map iso).getD ""
  ((rows.take 500).filter fun r => !r.permanent).map Registration.id

/-- `UPDATE router_provisioning_registry SET … WHERE tenant_id=? AND id=?` -/
def World.edit (w : World) (id : ℕ) (f : Registration → Registration)
    (hf : ∀ r, (f r).id = r.id) : World :=
  { w with rows := w.rows.update (fun r => r.id = id) f hf }

def release (allocations : List Allocation) (id : ℕ) : List Allocation :=
  allocations.map fun a =>
    if a.registryId = id ∧ a.isOpen then { a with status := "released" } else a

/-- `_delete_peer_file` removes the first of the files that is there. -/
def deletePeerFile (files : List String) (peerName : String) : List String :=
  match (peerFiles peerName).find? (files.contains ·) with
  | some file => files.filter (· ≠ file)
  | none => files

def abandon (now : DateTime) (r : Registration) : Registration :=
  { r with reclaimedAt := some now, lifecycleState := "abandoned" }

theorem abandon_id (now : DateTime) (r : Registration) : (abandon now r).id = r.id := rfl

/-- The next statement of `reclaim_one`. A release that raises is passed over, a file that
stays is only logged, and any other exception ends the sweep. -/
def World.reclaim (w : World) (outcome : Outcome) : World :=
  match w.janitor with
  | .idle => w
  | .reading [] => { w with janitor := .idle }
  | .reading (id :: todo) =>
    if outcome ≠ .done then { w with janitor := .idle }
    else match w.rows.get? id with
      | some r =>
        if r.reclaimedAt.isSome || r.permanent then { w with janitor := .reading todo }
        else { w with janitor := .releasing r todo }
      | none => { w with janitor := .reading todo }
  | .releasing row todo =>
    { w with
      allocations := if outcome = .done then release w.allocations row.id else w.allocations
      janitor := .marking row todo }
  | .marking row todo =>
    if outcome ≠ .done then { w with janitor := .idle }
    else { w.edit row.id (abandon w.now) (abandon_id w.now) with janitor := .deleting row todo }
  | .deleting row todo =>
    match outcome with
    | .done =>
      { w with
        files := deletePeerFile w.files row.peerName
        reported := w.reported ++ [row.id], janitor := .reading todo }
    | .refused => { w with reported := w.reported ++ [row.id], janitor := .reading todo }
    | .raised => { w with janitor := .idle }

def extendTentative (deadline : DateTime) (r : Registration) : Registration :=
  if r.reclaimedAt.isNone then { r with expiresAt := some deadline } else r

theorem extendTentative_id (deadline : DateTime) (r : Registration) :
    (extendTentative deadline r).id = r.id := by
  rw [extendTentative]
  split_ifs <;> rfl

def World.step (w : World) : Event → World
  | .sweep tenantId =>
    match w.janitor with
    | .idle => { w with janitor := .reading (findExpired w tenantId) }
    | _ => w
  | .janitor outcome => w.reclaim outcome
  | .extend id deadline => w.edit id (extendTentative deadline) (extendTentative_id deadline)
  | .promote id => w.edit id (fun r => { r with expiresAt := none }) fun _ => rfl
  | .lifecycle id state => w.edit id (fun r => { r with lifecycleState := state }) fun _ => rfl
  | .pass now => if w.now.1 ≤ now.1 then { w with now } else w

def Overdue (w : World) (r : Registration) : Prop := ∃ d ∈ r.expiresAt, d.1 ≤ w.now.1

def InUse (w : World) (r : Registration) : Prop := r.permanent = true ∨ ¬ Overdue w r

def Free (w : World) (id : ℕ) : Prop :=
  ∀ a ∈ w.allocations, a.registryId = id → a.isOpen = false

def NoPeer (w : World) (peerName : String) : Prop :=
  ∀ file ∈ peerFiles peerName, file ∉ w.files

structure Untouched (w w' : World) (r : Registration) : Prop where
  row : w'.rows.get? r.id = some r
  allocations : ∀ a ∈ w.allocations, a.registryId = r.id → a ∈ w'.allocations
  files : ∀ file ∈ peerFiles r.peerName, file ∈ w.files → file ∈ w'.files

structure Reclaimed (w : World) (id : ℕ) : Prop where
  marked : ∃ r ∈ w.rows.get? id, r.reclaimedAt.isSome = true ∧ NoPeer w r.peerName
  free : Free w id

def sweepAlone (w : World) (n : ℕ) : World :=
  run World.step (w.step (.sweep none)) (List.replicate n (.janitor .done))

/-- What is promised of a step: rows in use are spared, reported rows have let go of their
addresses, and after a sweep, however it ended, the next one completes the expired rows. -/
structure StepKept (w : World) (e : Event) : Prop where
  spared : ∀ outcome, e = .janitor outcome → ∀ id, ∀ r ∈ w.rows.get? id, InUse w r →
    Untouched w (w.step e) r
  reported : ∀ id ∈ (w.step e).reported, Free (w.step e) id
  completed : (w.step e).janitor = .idle → ∃ n, (sweepAlone (w.step e) n).janitor = .idle ∧
    ∀ id, ∀ r ∈ (w.step e).rows.get? id, r.permanent = false →
      r.expiresAt.any (fun deadline => iso deadline < iso (w.step e).now) = true →
        Reclaimed (sweepAlone (w.step e) n) id

def Janitor.todo : Janitor → List ℕ
  | idle => []
  | reading todo | releasing _ todo | marking _ todo | deleting _ todo => todo

def Janitor.held : Janitor → Option Registration
  | idle | reading _ => none
  | releasing row _ | marking row _ | deleting row _ => some row

def Janitor.released : Janitor → Option Registration
  | marking row _ | deleting row _ => some row
  | _ => none

def Janitor.marked : Janitor → Option Registration
  | deleting row _ => some row
  | _ => none

def Spared (w : World) : Prop :=
  ∀ id, ∀ r ∈ w.rows.get? id, (id ∈ w.janitor.todo → Overdue w r) ∧
    (∀ row ∈ w.janitor.held, row.id = id → ¬ InUse w r)

structure Tidy (w : World) : Prop where
  few : (w.rows.select (overdue w none)).length ≤ 500
  single : ∀ id, ∀ r ∈ w.rows.get? id, ∀ file ∈ peerFiles r.peerName,
    ∀ file' ∈ peerFiles r.peerName, file ∈ w.files → file' ∈ w.files → file = file'

/-- The operator leaves the rows alone that the sweep has found, the release and the removal
succeed where there is something to release or remove, the texts of the deadlines of a sweep
stand in the order of their times, and no row in use shares a peer file with the row that is
taken down. -/
def Fair (w : World) : Event → Prop
  | .sweep _ => ∀ id, ∀ r ∈ w.rows.get? id, ∀ d ∈ r.expiresAt, iso d < iso w.now → d.1 ≤ w.now.1
  | .janitor outcome =>
    match w.janitor with
    | .releasing row _ => outcome = .done ∨ Free w row.id
    | .deleting row _ => (outcome = .done ∨ NoPeer w row.peerName) ∧
      ∀ id, ∀ r ∈ w.rows.get? id, InUse w r → ∀ file ∈ peerFiles r.peerName,
        file ∉ peerFiles row.peerName
    | _ => True
  | e@(.extend _ _) => Spared (w.step e)
  | e@(.promote _) => Spared (w.step e)
  | e@(.lifecycle _ _) => Spared (w.step e)
  | .pass _ => True

def FairStep (w : World) (e : Event) : Prop := Fair w e ∧ Tidy (w.step e)

structure Guarded (w : World) : Prop where
  spared : Spared w
  tidy : Tidy w
  same : ∀ row ∈ w.janitor.held, ∀ r ∈ w.rows.get? row.id, r.peerName = row.peerName
  released : ∀ row ∈ w.janitor.released, Free w row.id
  reported : ∀ id ∈ w.reported, Free w id
  marked : ∀ id, ∀ r ∈ w.rows.get? id, r.reclaimedAt.isSome = true → Free w id ∧
    ((∀ row ∈ w.janitor.marked, row.id ≠ id) → NoPeer w r.peerName)

@[simp] theorem abandon_permanent (now : DateTime) (r : Registration) :
    (abandon now r).permanent = false := by
  simp [Registration.permanent, Registration.lifecycle, abandon, permanentStates]

theorem id_of_get? {t : Table Registration Registration.id} {id : ℕ} {r : Registration}
    (h : r ∈ t.get? id) : r.id = id := (Table.get?_eq_some.mp h).2

theorem get?_edit (w : World) (id : ℕ) (f : Registration → Registration) (hf) (k : ℕ) :
    (w.edit id f hf).rows.get? k =
      (w.rows.get? k).map fun r => if k = id then f r else r := by
  rw [World.edit, Table.get?_update]
  cases hrow : w.rows.get? k with
  | none => rfl
  | some r => simp [id_of_get? (Option.mem_def.mpr hrow)]

theorem mem_edit {w : World} {id : ℕ} {f : Registration → Registration}
    (hf : ∀ r, (f r).id = r.id) {k : ℕ} {r : Registration} (h : r ∈ (w.edit id f hf).rows.get? k) :
    ∃ q ∈ w.rows.get? k, r = if k = id then f q else q := by
  rw [get?_edit] at h
  obtain ⟨q, hq, rfl⟩ := Option.mem_map.mp h
  exact ⟨q, hq, rfl⟩

theorem mem_release {allocations : List Allocation} {id : ℕ} {a : Allocation}
    (h : a ∈ release allocations id) :
    a ∈ allocations ∨ (a.registryId = id ∧ a.isOpen = false) := by
  obtain ⟨b, hb, rfl⟩ := List.mem_map.mp h
  split_ifs with hopen
  · exact .inr ⟨hopen.1, rfl⟩
  · exact .inl hb

theorem mem_release_of_ne {allocations : List Allocation} {id : ℕ} {a : Allocation}
    (h : a ∈ allocations) (hne : a.registryId ≠ id) : a ∈ release allocations id :=
  List.mem_map.mpr ⟨a, h, if_neg fun hopen => hne hopen.1⟩

theorem not_open_of_release {allocations : List Allocation} {id : ℕ} {a : Allocation}
    (h : a ∈ release allocations id) (hid : a.registryId = id) : a.isOpen = false := by
  obtain ⟨b, hb, rfl⟩ := List.mem_map.mp h
  split_ifs with hopen
  · rfl
  · rw [if_neg hopen] at hid
    simpa [hid] using hopen

theorem mem_deletePeerFile {files : List String} {peerName file : String}
    (h : file ∈ deletePeerFile files peerName) : file ∈ files := by
  rw [deletePeerFile] at h
  split at h
  · exact (List.mem_filter.mp h).1
  · exact h

theorem mem_deletePeerFile_of {files : List String} {peerName file : String} (h : file ∈ files)
    (hother : file ∉ peerFiles peerName) : file ∈ deletePeerFile files peerName := by
  rw [deletePeerFile]
  split
  · rename_i found hfound
    refine List.mem_filter.mpr ⟨h, ?_⟩
    have hmem := List.mem_of_find?_eq_some hfound
    simp only [ne_eq, decide_not, Bool.not_eq_true', decide_eq_false_iff_not]
    rintro rfl
    exact hother hmem
  · exact h

theorem noPeer_deletePeerFile {files : List String} {peerName : String}
    (hsingle : ∀ file ∈ peerFiles peerName, ∀ file' ∈ peerFiles peerName, file ∈ files →
      file' ∈ files → file = file') :
    ∀ file ∈ peerFiles peerName, file ∉ deletePeerFile files peerName := by
  intro file hfile hleft
  have hthere := mem_deletePeerFile hleft
  rw [deletePeerFile] at hleft
  split at hleft
  · rename_i found hfound
    have hmem := List.mem_of_find?_eq_some hfound
    have hfiles : found ∈ files := by simpa using List.find?_some hfound
    have heq := hsingle found hmem file hfile hfiles hthere
    simp [heq] at hleft
  · rename_i hnone
    have := List.find?_eq_none.mp hnone file hfile
    simp [hthere] at this

theorem Overdue.later {w w' : World} {r : Registration} (h : Overdue w r)
    (hnow : w.now.1 ≤ w'.now.1) : Overdue w' r := by
  obtain ⟨d, hd, hle⟩ := h
  exact ⟨d, hd, hle.trans hnow⟩

theorem mem_findExpired {w : World} {tenantId : Option ℤ} {id : ℕ}
    (h : id ∈ findExpired w tenantId) : ∃ r ∈ w.rows.get? id, overdue w tenantId r = true := by
  obtain ⟨r, hr, rfl⟩ := List.mem_map.mp h
  have hrow := List.mem_mergeSort.mp (List.mem_of_mem_take (List.mem_filter.mp hr).1)
  obtain ⟨hmem, hoverdue⟩ := Table.mem_select.mp hrow
  exact ⟨r, Table.get?_eq_some.mpr ⟨hmem, rfl⟩, hoverdue⟩

theorem mem_findExpired_of {w : World} (hfew : (w.rows.select (overdue w none)).length ≤ 500)
    {id : ℕ} {r : Registration} (hr : r ∈ w.rows.get? id) (hoverdue : overdue w none r = true)
    (hpermanent : r.permanent = false) : id ∈ findExpired w none := by
  obtain ⟨hmem, rfl⟩ := Table.get?_eq_some.mp hr
  refine List.mem_map.mpr ⟨r, List.mem_filter.mpr ⟨?_, by simp [hpermanent]⟩, rfl⟩
  rw [List.take_of_length_le (by simpa using hfew), List.mem_mergeSort]
  exact Table.mem_select.mpr ⟨hmem, hoverdue⟩

theorem guarded_edit {w : World} (h : Guarded w) {id : ℕ} {f : Registration → Registration}
    {hf : ∀ r, (f r).id = r.id} (hpeer : ∀ r, (f r).peerName = r.peerName)
    (hmark : ∀ r, (f r).reclaimedAt = r.reclaimedAt) (hspared : Spared (w.edit id f hf))
    (htidy : Tidy (w.edit id f hf)) : Guarded (w.edit id f hf) := by
  refine ⟨hspared, htidy, ?_, h.released, h.reported, ?_⟩
  · intro row hrow r hr
    obtain ⟨q, hq, rfl⟩ := mem_edit hf hr
    have hsame := h.same row hrow q hq
    split_ifs <;> simp [hpeer, hsame]
  · intro k r hr hreclaimed
    obtain ⟨q, hq, rfl⟩ := mem_edit hf hr
    have hq' : q.reclaimedAt.isSome = true := by
      split_ifs at hreclaimed <;> simpa [hmark] using hreclaimed
    obtain ⟨hfree, hfiles⟩ := h.marked k q hq hq'
    refine ⟨hfree, fun hheld => ?_⟩
    have hname : (if k = id then f q else q).peerName = q.peerName := by split_ifs <;> simp [hpeer]
    rw [hname]
    exact hfiles hheld

theorem extendTentative_peerName (deadline : DateTime) (r : Registration) :
    (extendTentative deadline r).peerName = r.peerName := by
  rw [extendTentative]
  split_ifs <;> rfl

theorem extendTentative_reclaimedAt (deadline : DateTime) (r : Registration) :
    (extendTentative deadline r).reclaimedAt = r.reclaimedAt := by
  rw [extendTentative]
  split_ifs <;> rfl

theorem guarded_sweep {w : World} (h : Guarded w) (tenantId : Option ℤ)
    (hfair : Fair w (.sweep tenantId)) (htidy : Tidy (w.step (.sweep tenantId))) :
    Guarded (w.step (.sweep tenantId)) := by
  cases hjanitor : w.janitor with
  | idle =>
    have hstep : w.step (.sweep tenantId) =
        { w with janitor := .reading (findExpired w tenantId) } := by
      simp only [World.step, hjanitor]
    rw [hstep] at htidy ⊢
    refine ⟨?_, htidy, by rintro row ⟨⟩, by rintro row ⟨⟩, h.reported, ?_⟩
    · refine fun id r hr => ⟨fun htodo => ?_, by rintro row ⟨⟩⟩
      obtain ⟨q, hq, hoverdue⟩ := mem_findExpired htodo
      obtain rfl : q = r := Option.some_injective _ (hq.symm.trans hr)
      simp only [overdue, Bool.and_eq_true, Option.any_eq_true, decide_eq_true_eq] at hoverdue
      obtain ⟨⟨⟨d, hd, htext⟩, -⟩, -⟩ := hoverdue
      exact ⟨d, hd, hfair id q hr d hd htext⟩
    · intro id r hr hreclaimed
      obtain ⟨hfree, hfiles⟩ := h.marked id r hr hreclaimed
      exact ⟨hfree, fun _ => hfiles (by simp [hjanitor, Janitor.marked])⟩
  | reading _ | releasing _ _ | marking _ _ | deleting _ _ =>
    have hstep : w.step (.sweep tenantId) = w := by simp only [World.step, hjanitor]
    rwa [hstep]

theorem guarded_pass {w : World} (h : Guarded w) (now : DateTime)
    (htidy : Tidy (w.step (.pass now))) : Guarded (w.step (.pass now)) := by
  rw [World.step] at htidy ⊢
  split_ifs at htidy ⊢ with hle
  · refine ⟨fun id r hr => ?_, htidy, h.same, h.released, h.reported, h.marked⟩
    obtain ⟨htodo, hheld⟩ := h.spared id r hr
    refine ⟨fun hid => (htodo hid).later hle, fun row hrow hid huse => hheld row hrow hid ?_⟩
    exact huse.imp_right fun hnot hoverdue => hnot (hoverdue.later hle)
  · exact h

theorem Guarded.at {w : World} (h : Guarded w) {janitor : Janitor}
    (htodo : ∀ id ∈ janitor.todo, id ∈ w.janitor.todo)
    (hheld : ∀ row ∈ janitor.held, ∀ r ∈ w.rows.get? row.id,
      ¬ InUse w r ∧ r.peerName = row.peerName)
    (hreleased : ∀ row ∈ janitor.released, Free w row.id)
    (hmarked : ∀ id, ∀ r ∈ w.rows.get? id, r.reclaimedAt.isSome = true →
      (∀ row ∈ janitor.marked, row.id ≠ id) → NoPeer w r.peerName) :
    Guarded { w with janitor } := by
  refine ⟨fun id r hr => ⟨fun hid => (h.spared id r hr).1 (htodo id hid), ?_⟩, ⟨h.tidy.1, h.tidy.2⟩,
    fun row hrow r hr => (hheld row hrow r hr).2, hreleased, h.reported,
    fun id r hr hreclaimed => ⟨(h.marked id r hr hreclaimed).1, hmarked id r hr hreclaimed⟩⟩
  rintro row hrow rfl
  exact (hheld row hrow r hr).1

theorem Guarded.noPeer {w : World} (h : Guarded w) (hnone : w.janitor.marked = none) {id : ℕ}
    {r : Registration} (hr : r ∈ w.rows.get? id) (hreclaimed : r.reclaimedAt.isSome = true) :
    NoPeer w r.peerName :=
  (h.marked id r hr hreclaimed).2 (by simp [hnone])

theorem free_release {w : World} {id : ℕ} (rid : ℕ) (h : Free w id) :
    Free { w with allocations := release w.allocations rid } id := by
  intro a ha hid
  rcases mem_release ha with hmem | ⟨-, hclosed⟩
  · exact h a hmem hid
  · exact hclosed

theorem guarded_idle {w : World} (h : Guarded w) (hnone : w.janitor.marked = none) :
    Guarded { w with janitor := .idle } :=
  h.at (by simp [Janitor.todo]) (by rintro row ⟨⟩) (by rintro row ⟨⟩)
    fun id r hr hreclaimed _ => h.noPeer hnone hr hreclaimed

theorem guarded_reading {w : World} {todo : List ℕ} (h : Guarded w) (outcome : Outcome)
    (hjanitor : w.janitor = .reading todo) : Guarded (w.reclaim outcome) := by
  have hnone : w.janitor.marked = none := by rw [hjanitor]; rfl
  cases todo with
  | nil =>
    rw [World.reclaim, hjanitor]
    exact guarded_idle h hnone
  | cons id todo =>
    have hrest : ∀ k ∈ todo, k ∈ w.janitor.todo := by
      rw [hjanitor]
      exact fun k hk => List.mem_cons_of_mem id hk
    have hskip : Guarded { w with janitor := .reading todo } :=
      h.at hrest (by rintro row ⟨⟩) (by rintro row ⟨⟩)
        fun k r hr hreclaimed _ => h.noPeer hnone hr hreclaimed
    simp only [World.reclaim, hjanitor]
    split_ifs with houtcome
    · exact guarded_idle h hnone
    · cases hrow : w.rows.get? id with
      | none => exact hskip
      | some row =>
        dsimp only
        split_ifs with hdone
        · exact hskip
        · rw [Bool.or_eq_true, not_or, Bool.not_eq_true, Bool.not_eq_true] at hdone
          refine h.at hrest ?_ (by rintro row ⟨⟩) fun k r hr hreclaimed _ =>
            h.noPeer hnone hr hreclaimed
          rintro _ ⟨⟩ r hr
          rw [id_of_get? (Option.mem_def.mpr hrow)] at hr
          obtain rfl : row = r := Option.some_injective _ (hrow.symm.trans hr)
          refine ⟨?_, rfl⟩
          rintro (hpermanent | hnot)
          · simp [hpermanent] at hdone
          · refine hnot ((h.spared id row hr).1 ?_)
            rw [hjanitor]
            exact List.mem_cons_self

theorem guarded_releasing {w : World} {row : Registration} {todo : List ℕ} (h : Guarded w)
    (outcome : Outcome) (hjanitor : w.janitor = .releasing row todo)
    (hfair : outcome = .done ∨ Free w row.id) : Guarded (w.reclaim outcome) := by
  have hnone : w.janitor.marked = none := by rw [hjanitor]; rfl
  have hheld : ∀ r ∈ w.rows.get? row.id, ¬ InUse w r ∧ r.peerName = row.peerName := fun r hr =>
    ⟨(h.spared row.id r hr).2 row (by rw [hjanitor]; rfl) rfl,
      h.same row (by rw [hjanitor]; rfl) r hr⟩
  have htodo : ∀ id ∈ todo, id ∈ w.janitor.todo := by
    rw [hjanitor]
    exact fun id hid => hid
  simp only [World.reclaim, hjanitor]
  split_ifs with houtcome
  · have hrelease : Guarded { w with allocations := release w.allocations row.id } :=
      ⟨h.spared, ⟨h.tidy.1, h.tidy.2⟩, h.same, fun r hr => free_release _ (h.released r hr),
        fun id hid => free_release _ (h.reported id hid), fun id r hr hreclaimed =>
          ⟨free_release _ (h.marked id r hr hreclaimed).1, (h.marked id r hr hreclaimed).2⟩⟩
    refine hrelease.at htodo ?_ ?_ fun id r hr hreclaimed _ => hrelease.noPeer hnone hr hreclaimed
    · rintro _ ⟨⟩ r hr
      exact hheld r hr
    · rintro _ ⟨⟩ a ha hid
      exact not_open_of_release ha hid
  · refine h.at htodo ?_ ?_ fun id r hr hreclaimed _ => h.noPeer hnone hr hreclaimed
    · rintro _ ⟨⟩ r hr
      exact hheld r hr
    · rintro _ ⟨⟩
      exact hfair.resolve_left houtcome

theorem guarded_marking {w : World} {row : Registration} {todo : List ℕ} (h : Guarded w)
    (outcome : Outcome) (hjanitor : w.janitor = .marking row todo)
    (htidy : Tidy (w.reclaim outcome)) : Guarded (w.reclaim outcome) := by
  have hnone : w.janitor.marked = none := by rw [hjanitor]; rfl
  have hfree : Free w row.id := h.released row (by rw [hjanitor]; rfl)
  simp only [World.reclaim, hjanitor] at htidy ⊢
  split_ifs at htidy ⊢ with houtcome
  · exact guarded_idle h hnone
  · refine ⟨fun id r hr => ?_, htidy, ?_, ?_, h.reported, ?_⟩
    · obtain ⟨q, hq, rfl⟩ := mem_edit (abandon_id w.now) hr
      obtain ⟨htodo, hheld⟩ := h.spared id q hq
      have hover : id ∈ todo → Overdue w q := fun hid => htodo (by rw [hjanitor]; exact hid)
      refine ⟨fun hid => ?_, ?_⟩
      · split_ifs <;> exact hover hid
      · rintro _ ⟨⟩ hid
        rw [if_pos hid.symm]
        rintro (hpermanent | hnot)
        · simp [abandon_permanent] at hpermanent
        · have huse := hheld row (by rw [hjanitor]; rfl) hid
          exact huse (.inr hnot)
    · rintro _ ⟨⟩ r hr
      obtain ⟨q, hq, rfl⟩ := mem_edit (abandon_id w.now) hr
      have hsame := h.same row (by rw [hjanitor]; rfl) q hq
      split_ifs <;> exact hsame
    · rintro _ ⟨⟩
      exact hfree
    · intro id r hr hreclaimed
      obtain ⟨q, hq, rfl⟩ := mem_edit (abandon_id w.now) hr
      by_cases hid : id = row.id
      · subst hid
        exact ⟨hfree, fun hne => absurd rfl (hne row rfl)⟩
      · rw [if_neg hid] at hreclaimed ⊢
        exact ⟨(h.marked id q hq hreclaimed).1, fun _ => h.noPeer hnone hq hreclaimed⟩

theorem guarded_deleting {w : World} {row : Registration} {todo : List ℕ} (h : Guarded w)
    (outcome : Outcome) (hjanitor : w.janitor = .deleting row todo)
    (hfair : outcome = .done ∨ NoPeer w row.peerName) : Guarded (w.reclaim outcome) := by
  have hfree : Free w row.id := h.released row (by rw [hjanitor]; rfl)
  have hreported : ∀ id ∈ w.reported ++ [row.id], Free w id := by
    intro id hid
    rcases List.mem_append.mp hid with hid | hid
    · exact h.reported id hid
    · rw [List.mem_singleton.mp hid]
      exact hfree
  have htodo : ∀ id, ∀ r ∈ w.rows.get? id, id ∈ todo → Overdue w r := fun id r hr hid =>
    (h.spared id r hr).1 (by rw [hjanitor]; exact hid)
  -- a marked row has no file, or it is the one that is held
  have hpeer : ∀ id, ∀ r ∈ w.rows.get? id, r.reclaimedAt.isSome = true →
      NoPeer w r.peerName ∨ r.peerName = row.peerName := by
    intro id r hr hreclaimed
    by_cases hid : row.id = id
    · subst hid
      exact .inr (h.same row (by rw [hjanitor]; rfl) r hr)
    · refine .inl ((h.marked id r hr hreclaimed).2 ?_)
      rw [hjanitor]
      rintro _ ⟨⟩
      exact hid
  cases outcome with
  | done =>
    simp only [World.reclaim, hjanitor]
    refine ⟨fun id r hr => ⟨htodo id r hr, by rintro _ ⟨⟩⟩, ⟨h.tidy.1, ?_⟩, by rintro _ ⟨⟩,
      by rintro _ ⟨⟩, hreported, fun id r hr hreclaimed =>
        ⟨(h.marked id r hr hreclaimed).1, fun _ file hfile hleft => ?_⟩⟩
    · exact fun id r hr file hfile file' hfile' hthere hthere' => h.tidy.2 id r hr file hfile file'
        hfile' (mem_deletePeerFile hthere) (mem_deletePeerFile hthere')
    · rcases hpeer id r hr hreclaimed with hgone | hsame
      · exact hgone file hfile (mem_deletePeerFile hleft)
      · refine noPeer_deletePeerFile ?_ file (hsame ▸ hfile) hleft
        rw [← hsame]
        exact h.tidy.2 id r hr
  | refused =>
    have hgone := hfair.resolve_left (by decide)
    simp only [World.reclaim, hjanitor]
    exact ⟨fun id r hr => ⟨htodo id r hr, by rintro _ ⟨⟩⟩, ⟨h.tidy.1, h.tidy.2⟩, by rintro _ ⟨⟩,
      by rintro _ ⟨⟩, hreported, fun id r hr hreclaimed => ⟨(h.marked id r hr hreclaimed).1,
        fun _ => (hpeer id r hr hreclaimed).elim (fun hnone => hnone) fun hsame => hsame ▸ hgone⟩⟩
  | raised =>
    have hgone := hfair.resolve_left (by decide)
    simp only [World.reclaim, hjanitor]
    exact ⟨fun id r hr => ⟨by rintro ⟨⟩, by rintro _ ⟨⟩⟩, ⟨h.tidy.1, h.tidy.2⟩, by rintro _ ⟨⟩,
      by rintro _ ⟨⟩, h.reported, fun id r hr hreclaimed => ⟨(h.marked id r hr hreclaimed).1,
        fun _ => (hpeer id r hr hreclaimed).elim (fun hnone => hnone) fun hsame => hsame ▸ hgone⟩⟩

theorem guarded_step {w : World} (e : Event) (h : Guarded w) (hfair : FairStep w e) :
    Guarded (w.step e) := by
  obtain ⟨hfair, htidy⟩ := hfair
  cases e with
  | sweep tenantId => exact guarded_sweep h tenantId hfair htidy
  | janitor outcome =>
    cases hjanitor : w.janitor with
    | idle =>
      have hstep : w.step (.janitor outcome) = w := by
        simp only [World.step, World.reclaim, hjanitor]
      rwa [hstep]
    | reading todo => exact guarded_reading h outcome hjanitor
    | releasing row todo =>
      rw [Fair, hjanitor] at hfair
      exact guarded_releasing h outcome hjanitor hfair
    | marking row todo => exact guarded_marking h outcome hjanitor htidy
    | deleting row todo =>
      rw [Fair, hjanitor] at hfair
      exact guarded_deleting h outcome hjanitor hfair.1
  | extend id deadline =>
    exact guarded_edit h (extendTentative_peerName deadline) (extendTentative_reclaimedAt deadline)
      hfair htidy
  | promote id => exact guarded_edit h (fun _ => rfl) (fun _ => rfl) hfair htidy
  | lifecycle id state => exact guarded_edit h (fun _ => rfl) (fun _ => rfl) hfair htidy
  | pass now => exact guarded_pass h now htidy

theorem untouched_of_same {w w' : World} {id : ℕ} {r : Registration} (hr : r ∈ w.rows.get? id)
    (hrows : w'.rows = w.rows) (hallocations : w'.allocations = w.allocations)
    (hfiles : w'.files = w.files) : Untouched w w' r := by
  refine ⟨?_, fun a ha _ => hallocations ▸ ha, fun file _ hthere => hfiles ▸ hthere⟩
  rw [hrows, id_of_get? hr]
  exact hr

theorem untouched_reclaim {w : World} (h : Guarded w) (outcome : Outcome)
    (hfair : Fair w (.janitor outcome)) {id : ℕ} {r : Registration} (hr : r ∈ w.rows.get? id)
    (huse : InUse w r) : Untouched w (w.reclaim outcome) r := by
  have hid := id_of_get? hr
  have hother : ∀ row ∈ w.janitor.held, r.id ≠ row.id := fun row hrow heq =>
    (h.spared id r hr).2 row hrow (heq.symm.trans hid) huse
  cases hjanitor : w.janitor with
  | idle =>
    simp only [World.reclaim, hjanitor]
    exact untouched_of_same hr rfl rfl rfl
  | reading todo =>
    cases todo with
    | nil =>
      simp only [World.reclaim, hjanitor]
      exact untouched_of_same hr rfl rfl rfl
    | cons k todo =>
      simp only [World.reclaim, hjanitor]
      split_ifs
      · exact untouched_of_same hr rfl rfl rfl
      · cases w.rows.get? k with
        | none => exact untouched_of_same hr rfl rfl rfl
        | some row =>
          dsimp only
          split_ifs <;> exact untouched_of_same hr rfl rfl rfl
  | releasing row todo =>
    have hne := hother row (by rw [hjanitor]; rfl)
    simp only [World.reclaim, hjanitor]
    refine ⟨by rw [hid]; exact hr, fun a ha hown => ?_, fun file _ hthere => hthere⟩
    split_ifs
    · exact mem_release_of_ne ha (hown ▸ hne)
    · exact ha
  | marking row todo =>
    have hne := hother row (by rw [hjanitor]; rfl)
    simp only [World.reclaim, hjanitor]
    split_ifs
    · exact untouched_of_same hr rfl rfl rfl
    · refine ⟨?_, fun a ha _ => ha, fun file _ hthere => hthere⟩
      have hrow : w.rows.get? r.id = some r := by rw [hid]; exact hr
      change (w.edit row.id (abandon w.now) (abandon_id w.now)).rows.get? r.id = some r
      rw [get?_edit, hrow, Option.map_some, if_neg hne]
  | deleting row todo =>
    rw [Fair, hjanitor] at hfair
    have hunshared := hfair.2 id r hr huse
    cases outcome with
    | done =>
      simp only [World.reclaim, hjanitor]
      refine ⟨by rw [hid]; exact hr, fun a ha _ => ha, fun file hfile hthere => ?_⟩
      exact mem_deletePeerFile_of hthere (hunshared file hfile)
    | refused | raised =>
      simp only [World.reclaim, hjanitor]
      exact untouched_of_same hr rfl rfl rfl

def Clean (w : World) : Prop :=
  ∀ id, ∀ r ∈ w.rows.get? id, r.reclaimedAt.isSome = true → Free w id ∧ NoPeer w r.peerName

def Single (w : World) : Prop :=
  ∀ id, ∀ r ∈ w.rows.get? id, ∀ file ∈ peerFiles r.peerName, ∀ file' ∈ peerFiles r.peerName,
    file ∈ w.files → file' ∈ w.files → file = file'

def Marked (w : World) (id : ℕ) : Prop := ∃ r ∈ w.rows.get? id, r.reclaimedAt.isSome = true

def World.taken (w : World) (row : Registration) (todo : List ℕ) : World :=
  { w.edit row.id (abandon w.now) (abandon_id w.now) with
    allocations := release w.allocations row.id
    files := deletePeerFile w.files row.peerName
    janitor := .reading todo
    reported := w.reported ++ [row.id] }

theorem run_taken {w : World} {row : Registration} {id : ℕ} {todo : List ℕ}
    (hjanitor : w.janitor = .reading (id :: todo)) (hrow : w.rows.get? id = some row)
    (hopen : (row.reclaimedAt.isSome || row.permanent) = false) :
    run World.step w (List.replicate 4 (.janitor .done)) = w.taken row todo := by
  simp [run, List.replicate, World.step, World.reclaim, hjanitor, hrow, hopen, World.taken,
    World.edit]

theorem taken_get? (w : World) (row : Registration) (todo : List ℕ) (k : ℕ) :
    (w.taken row todo).rows.get? k =
      (w.rows.get? k).map fun r => if k = row.id then abandon w.now r else r :=
  get?_edit w row.id (abandon w.now) (abandon_id w.now) k

theorem taken_kept {w : World} {row : Registration} (todo : List ℕ) (hclean : Clean w)
    (hsingle : Single w) (hrow : w.rows.get? row.id = some row) :
    Clean (w.taken row todo) ∧ Single (w.taken row todo) := by
  constructor
  · intro id r hr hreclaimed
    rw [taken_get?] at hr
    obtain ⟨q, hq, rfl⟩ := Option.mem_map.mp hr
    by_cases hid : id = row.id
    · subst hid
      obtain rfl : row = q := Option.some_injective _ (hrow.symm.trans hq)
      rw [if_pos rfl]
      exact ⟨fun a ha hown => not_open_of_release ha hown,
        noPeer_deletePeerFile (hsingle row.id row hq)⟩
    · rw [if_neg hid] at hreclaimed ⊢
      obtain ⟨hfree, hgone⟩ := hclean id q hq hreclaimed
      refine ⟨fun a ha hown => ?_, fun file hfile hleft =>
        hgone file hfile (mem_deletePeerFile hleft)⟩
      rcases mem_release ha with hmem | ⟨-, hclosed⟩
      · exact hfree a hmem hown
      · exact hclosed
  · intro id r hr file hfile file' hfile' hthere hthere'
    rw [taken_get?] at hr
    obtain ⟨q, hq, rfl⟩ := Option.mem_map.mp hr
    have hname : (if id = row.id then abandon w.now q else q).peerName = q.peerName := by
      split_ifs <;> rfl
    rw [hname] at hfile hfile'
    exact hsingle id q hq file hfile file' hfile' (mem_deletePeerFile hthere)
      (mem_deletePeerFile hthere')

structure FirstTaken (w w' : World) (id : ℕ) (todo : List ℕ) : Prop where
  janitor : w'.janitor = .reading todo
  clean : Clean w'
  single : Single w'
  rows : ∀ k, Marked w' k ∨ w'.rows.get? k = w.rows.get? k
  first : ∀ r ∈ w.rows.get? id, r.permanent = false → Marked w' id

theorem take_first {w : World} {id : ℕ} {todo : List ℕ}
    (hjanitor : w.janitor = .reading (id :: todo)) (hclean : Clean w) (hsingle : Single w) :
    ∃ k, FirstTaken w (run World.step w (List.replicate k (.janitor .done))) id todo := by
  have hskip (h : w.step (.janitor .done) = { w with janitor := .reading todo })
      (hdone : ∀ r ∈ w.rows.get? id, r.permanent = false → Marked w id) :
      FirstTaken w (run World.step w (List.replicate 1 (.janitor .done))) id todo := by
    have hrun : run World.step w (List.replicate 1 (.janitor .done)) =
        { w with janitor := .reading todo } := h
    rw [hrun]
    exact ⟨rfl, hclean, hsingle, fun k => .inr rfl, hdone⟩
  obtain hrow | ⟨row, hrow⟩ := Option.eq_none_or_eq_some (w.rows.get? id)
  · refine ⟨1, hskip ?_ (by simp [hrow])⟩
    simp [World.step, World.reclaim, hjanitor, hrow]
  cases hopen : row.reclaimedAt.isSome || row.permanent with
  | true =>
    refine ⟨1, hskip ?_ ?_⟩
    · simp [World.step, World.reclaim, hjanitor, hrow, hopen]
    · intro r hr hpermanent
      obtain rfl : row = r := Option.some_injective _ (hrow.symm.trans hr)
      rw [hpermanent, Bool.or_false] at hopen
      exact ⟨row, hr, hopen⟩
  | false =>
    have hid := id_of_get? (Option.mem_def.mpr hrow)
    subst hid
    obtain ⟨hclean', hsingle'⟩ := taken_kept todo hclean hsingle hrow
    have hmarked : Marked (w.taken row todo) row.id :=
      ⟨abandon w.now row, by rw [taken_get?, hrow]; simp, rfl⟩
    refine ⟨4, ?_⟩
    rw [run_taken hjanitor hrow hopen]
    refine ⟨rfl, hclean', hsingle', fun k => ?_, fun _ _ _ => hmarked⟩
    by_cases hk : k = row.id
    · exact .inl (hk ▸ hmarked)
    · right
      rw [taken_get?]
      simp [hk]

structure Drained (w w' : World) (todo : List ℕ) : Prop where
  idle : w'.janitor = .idle
  clean : Clean w'
  marks : ∀ id, Marked w id → Marked w' id
  todo : ∀ id ∈ todo, ∀ r ∈ w.rows.get? id, r.permanent = false → Marked w' id

theorem drain (todo : List ℕ) : ∀ w : World, w.janitor = .reading todo → Clean w → Single w →
    ∃ n, Drained w (run World.step w (List.replicate n (.janitor .done))) todo := by
  induction todo with
  | nil =>
    intro w hjanitor hclean hsingle
    have hstep : run World.step w (List.replicate 1 (.janitor .done)) =
        { w with janitor := .idle } := by
      simp [run, World.step, World.reclaim, hjanitor]
    refine ⟨1, ?_⟩
    rw [hstep]
    exact ⟨rfl, hclean, fun id hmarked => hmarked, by simp⟩
  | cons id todo ih =>
    intro w hjanitor hclean hsingle
    obtain ⟨k, hfirst⟩ := take_first hjanitor hclean hsingle
    obtain ⟨n, hrest⟩ := ih _ hfirst.janitor hfirst.clean hfirst.single
    have hsplit : run World.step w (List.replicate (k + n) (.janitor .done)) =
        run World.step (run World.step w (List.replicate k (.janitor .done)))
          (List.replicate n (.janitor .done)) := by
      rw [List.replicate_add, run, List.foldl_append]
    refine ⟨k + n, ?_⟩
    rw [hsplit]
    refine ⟨hrest.idle, hrest.clean, fun j hj => hrest.marks j ?_, fun j hj r hr hpermanent => ?_⟩
    · rcases hfirst.rows j with hmarked | hsame
      · exact hmarked
      · rwa [Marked, hsame]
    · rcases hfirst.rows j with hmarked | hsame
      · exact hrest.marks j hmarked
      · rcases List.mem_cons.mp hj with rfl | hj
        · exact hrest.marks j (hfirst.first r hr hpermanent)
        · exact hrest.todo j hj r (hsame ▸ hr) hpermanent

theorem completed_of_guarded {w : World} (h : Guarded w) (hidle : w.janitor = .idle) :
    ∃ n, (sweepAlone w n).janitor = .idle ∧ ∀ id, ∀ r ∈ w.rows.get? id, r.permanent = false →
      r.expiresAt.any (fun deadline => iso deadline < iso w.now) = true →
        Reclaimed (sweepAlone w n) id := by
  have hclean : Clean w := fun id r hr hreclaimed =>
    ⟨(h.marked id r hr hreclaimed).1, h.noPeer (by rw [hidle]; rfl) hr hreclaimed⟩
  have hsweep : w.step (.sweep none) = { w with janitor := .reading (findExpired w none) } := by
    simp only [World.step, hidle]
  obtain ⟨n, hdrained⟩ := drain (findExpired w none)
    { w with janitor := .reading (findExpired w none) } rfl hclean h.tidy.single
  rw [← hsweep] at hdrained
  refine ⟨n, hdrained.idle, fun id r hr hpermanent hexpired => ?_⟩
  obtain ⟨q, hq, hreclaimed⟩ : Marked (sweepAlone w n) id := by
    cases hmark : r.reclaimedAt with
    | some t => exact hdrained.marks id (by rw [hsweep]; exact ⟨r, hr, by simp [hmark]⟩)
    | none =>
      have hoverdue : overdue w none r = true := by
        rw [overdue, hexpired, hmark]
        rfl
      exact hdrained.todo id (mem_findExpired_of h.tidy.few hr hoverdue hpermanent) r
        (by rw [hsweep]; exact hr) hpermanent
  obtain ⟨hfree, hgone⟩ := hdrained.clean id q hq hreclaimed
  exact ⟨⟨q, hq, hreclaimed, hgone⟩, hfree⟩

theorem stepKept_of_fair {w : World} (e : Event) (h : Guarded w) (hfair : FairStep w e) :
    StepKept w e := by
  have hnext := guarded_step e h hfair
  refine ⟨?_, hnext.reported, completed_of_guarded hnext⟩
  rintro outcome rfl id r hr huse
  exact untouched_reclaim h outcome hfair.1 hr huse

structure Quiet (w : World) : Prop where
  idle : w.janitor = .idle
  reported : w.reported = []
  tidy : Tidy w
  clean : Clean w

theorem Quiet.guarded {w : World} (h : Quiet w) : Guarded w := by
  obtain ⟨hidle, hreported, htidy, hclean⟩ := h
  refine ⟨fun id r hr => ?_, htidy, ?_, ?_, by simp [hreported], fun id r hr hreclaimed => ?_⟩
  · rw [hidle]
    exact ⟨by rintro ⟨⟩, by rintro _ ⟨⟩⟩
  · rw [hidle]
    rintro _ ⟨⟩
  · rw [hidle]
    rintro _ ⟨⟩
  · obtain ⟨hfree, hgone⟩ := hclean id r hr hreclaimed
    exact ⟨hfree, fun _ => hgone⟩

/-- Along every fair run the reclaimer keeps what it promises. -/
theorem reclaimer_kept_along (w : World) (hquiet : Quiet w) (events : List Event)
    (hfair : Along FairStep World.step w events) : Along StepKept World.step w events :=
  hfair.of_invariant (fun _ e h hfair => guarded_step e h hfair)
    (fun _ e h hfair => stepKept_of_fair e h hfair) hquiet.guarded

def officeRow : Registration where
  id := 1
  tenantId := 1
  status := "reserved"
  peerName := "hr-peer-a"
  expiresAt := some ⟨0, by decide⟩

theorem officeRow_below : ∀ r ∈ [officeRow], r.id < 2 := by
  simp [officeRow]

def officeWorld : World where
  now := ⟨10000000, by decide⟩
  rows := ⟨[officeRow], 2, by simp, officeRow_below⟩
  allocations := [⟨1, "reserved"⟩]
  files := ["hr-peer-a.conf"]

theorem office_found : officeWorld.step (.sweep none) =
    { officeWorld with janitor := .reading [1] } := by
  have htext : iso ⟨0, by decide⟩ < iso officeWorld.now := stamp_lt_iff.mpr (by decide)
  have hoverdue : overdue officeWorld none officeRow = true := by
    rw [overdue, officeRow]
    simp only [Option.any_some, htext, decide_true]
    rfl
  have hselect : officeWorld.rows.select (overdue officeWorld none) = [officeRow] := by
    change [officeRow].filter (overdue officeWorld none) = [officeRow]
    rw [List.filter_cons_of_pos hoverdue, List.filter_nil]
  have hfound : findExpired officeWorld none = [1] := by
    rw [findExpired, hselect, List.mergeSort_singleton]
    decide
  rw [World.step, ← hfound]
  rfl

theorem tidy_of_small {w : World} (hrows : w.rows.rows.length ≤ 500) (hfiles : w.files.length ≤ 1) :
    Tidy w := by
  refine ⟨(List.length_filter_le _ _).trans hrows, ?_⟩
  intro id r _ file _ file' _ hthere hthere'
  match hlist : w.files with
  | [] => simp [hlist] at hthere
  | [only] =>
    rw [hlist, List.mem_singleton] at hthere hthere'
    rw [hthere, hthere']
  | _ :: _ :: _ => simp [hlist] at hfiles

theorem office_reclaimed : Along StepKept World.step officeWorld
    [.sweep none, .janitor .done, .janitor .done, .janitor .done, .janitor .done] := by
  have hquiet : Quiet officeWorld := by
    refine ⟨rfl, rfl, tidy_of_small (by decide) (by decide), fun id r hr hreclaimed => ?_⟩
    have hrow := (Table.get?_eq_some.mp hr).1
    obtain rfl : r = officeRow := List.mem_singleton.mp hrow
    exact absurd hreclaimed (by decide)
  refine reclaimer_kept_along officeWorld hquiet _ ⟨⟨?_, ?_⟩, ?_⟩
  · intro id r hr d hd _
    have hrow := (Table.get?_eq_some.mp hr).1
    obtain rfl : r = officeRow := List.mem_singleton.mp hrow
    obtain rfl : ⟨0, by decide⟩ = d := Option.some_injective _ hd
    decide
  · rw [office_found]
    exact tidy_of_small (by decide) (by decide)
  · rw [office_found]
    refine ⟨⟨trivial, tidy_of_small (by decide) (by decide)⟩,
      ⟨.inl rfl, tidy_of_small (by decide) (by decide)⟩,
      ⟨trivial, tidy_of_small (by decide) (by decide)⟩,
      ⟨⟨.inl rfl, ?_⟩, tidy_of_small (by decide) (by decide)⟩, trivial⟩
    intro id r hr huse
    have hrow := (Table.get?_eq_some.mp hr).1
    obtain rfl : r = abandon officeWorld.now officeRow := List.mem_singleton.mp hrow
    rcases huse with hpermanent | hnot
    · simp at hpermanent
    · exact absurd ⟨⟨0, by decide⟩, rfl, by decide⟩ hnot

/-- The operator finishes the router after the sweep has found it: its address is released. -/
theorem promoted_router_torn_down : ¬ Along StepKept World.step officeWorld
    [.sweep none, .promote 1, .janitor .done, .janitor .done] := by
  rintro ⟨-, h⟩
  rw [office_found] at h
  obtain ⟨-, -, hkept, -⟩ := h
  have hspared := hkept.spared .done rfl 1 { officeRow with expiresAt := none } rfl
    (.inr (by rintro ⟨d, hd, -⟩; exact absurd hd (by simp)))
  have hleft := hspared.allocations ⟨1, "reserved"⟩ (List.mem_singleton.mpr rfl) rfl
  have hreleased : "reserved" = "released" :=
    congrArg Allocation.status (List.mem_singleton.mp hleft)
  exact absurd hreleased (by decide)

end RadiusModule.TentativeReclaimer
