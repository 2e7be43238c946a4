import RadiusModule.Services.Migration.Commit
import RadiusModule.Services.Migration.Pivot
import RadiusModule.Services.Migration.StatusText

/-!
# The status of an account under imports

What any sequence of imports does to the status of one account. A block stays,
and a blocked row of the source blocks. An account is enabled by evidence only,
as long as its status is one of the three that an import knows.
-/

namespace RadiusModule.Migration
open Library PyText

def UniqueNames (db : Target) : Prop := (db.subscribers.rows.map Account.username).Nodup

namespace Target

def statusOf (db : Target) (username : String) : Option String :=
  (db.subscriber username).map Account.status

section
variable {db : Target} {a r : Account} {username status : String}

theorem subscriber_eq_some (hunique : UniqueNames db) : db.subscriber username = some r ↔
    r ∈ db.subscribers.rows ∧ r.username = username ∧ r.deleted = false := by
  constructor
  · intro h
    have hp := List.find?_some h
    simp only [Bool.and_eq_true, decide_eq_true_iff, Bool.not_eq_true'] at hp
    exact ⟨List.mem_of_find?_eq_some h, hp⟩
  · rintro ⟨hmem, hname, hlive⟩
    cases hfind : db.subscriber username with
    | none =>
      have hnot := List.find?_eq_none.mp hfind r hmem
      simp [hname, hlive] at hnot
    | some r' =>
      have hp := List.find?_some hfind
      simp only [Bool.and_eq_true, decide_eq_true_iff] at hp
      have hsame := List.inj_on_of_nodup_map hunique (List.mem_of_find?_eq_some hfind) hmem
        (hp.1.trans hname.symm)
      rw [hsame]

theorem statusOf_eq_some (hunique : UniqueNames db) : db.statusOf username = some status ↔
    ∃ r ∈ db.subscribers.rows, r.username = username ∧ r.deleted = false ∧ r.status = status := by
  rw [statusOf, Option.map_eq_some_iff]
  simp only [subscriber_eq_some hunique, and_assoc]

theorem exists_mem_upsertSubscriber (db : Target) (a : Account) :
    ∃ id, { a with id := id } ∈ (db.upsertSubscriber a).subscribers.rows := by
  unfold upsertSubscriber
  split
  · rename_i existing hfind
    refine ⟨existing.id, List.mem_map.mpr ⟨existing, List.mem_of_find?_eq_some hfind, ?_⟩⟩
    have hname : existing.username = a.username := by simpa using List.find?_some hfind
    rw [if_pos (by simp)]
    simp only [hname]
  · exact ⟨db.subscribers.next, List.mem_append_right _ List.mem_cons_self⟩

theorem mem_upsertSubscriber (h : r ∈ (db.upsertSubscriber a).subscribers.rows) :
    r ∈ db.subscribers.rows ∧ (UniqueNames db → r.username ≠ a.username) ∨
      ∃ id, r = { a with id := id } := by
  unfold upsertSubscriber at h
  split at h
  · rename_i existing hfind
    have hname : existing.username = a.username := by simpa using List.find?_some hfind
    obtain ⟨q, hq, rfl⟩ := List.mem_map.mp h
    by_cases hid : q.id = existing.id
    · have hsame := db.subscribers.eq_of_key_eq hq (List.mem_of_find?_eq_some hfind) hid
      refine .inr ⟨q.id, ?_⟩
      rw [if_pos (by simpa using hid)]
      simp only [hsame, hname]
    · rw [if_neg (by simpa using hid)]
      refine .inl ⟨hq, fun hunique heq => hid ?_⟩
      rw [List.inj_on_of_nodup_map hunique hq (List.mem_of_find?_eq_some hfind)
        (heq.trans hname.symm)]
  · rename_i hnone
    rcases List.mem_append.mp h with hold | hnew
    · refine .inl ⟨hold, fun _ heq => ?_⟩
      have hnot := List.find?_eq_none.mp hnone r hold
      simp [heq] at hnot
    · exact .inr ⟨db.subscribers.next, List.mem_singleton.mp hnew⟩

theorem mem_upsertSubscriber_of_ne (h : r ∈ db.subscribers.rows) (hne : r.username ≠ a.username) :
    r ∈ (db.upsertSubscriber a).subscribers.rows := by
  unfold upsertSubscriber
  split
  · rename_i existing hfind
    have hname : existing.username = a.username := by simpa using List.find?_some hfind
    refine List.mem_map.mpr ⟨r, h, if_neg ?_⟩
    intro hid
    have hsame := db.subscribers.eq_of_key_eq h (List.mem_of_find?_eq_some hfind)
      (by simpa using hid)
    exact hne (by rw [hsame, hname])
  · exact List.mem_append_left _ h

theorem uniqueNames_upsertSubscriber (hunique : UniqueNames db) (a : Account) :
    UniqueNames (db.upsertSubscriber a) := by
  unfold UniqueNames upsertSubscriber
  split
  · have hnames : ∀ rows : List Account, ∀ p : Account → Bool,
        (rows.map fun r => if p r then { a with id := r.id, username := r.username } else r).map
          Account.username = rows.map Account.username := by
      intro rows p
      rw [List.map_map]
      refine List.map_congr_left fun r _ => ?_
      simp only [Function.comp]
      split_ifs <;> rfl
    exact (hnames _ _).symm ▸ hunique
  · rename_i hnone
    have hfresh : a.username ∉ db.subscribers.rows.map Account.username := by
      intro hmem
      obtain ⟨r, hr, heq⟩ := List.mem_map.mp hmem
      have hnot := List.find?_eq_none.mp hnone r hr
      simp [heq] at hnot
    have hnames : (db.subscribers.rows ++ [{ a with id := db.subscribers.next }]).map
        Account.username = db.subscribers.rows.map Account.username ++ [a.username] := by simp
    exact hnames ▸ hunique.append (List.nodup_singleton _) (by simpa using hfresh)

theorem statusOf_upsertSubscriber_self (hunique : UniqueNames db) (hlive : a.deleted = false) :
    (db.upsertSubscriber a).statusOf a.username = some a.status := by
  obtain ⟨id, hmem⟩ := exists_mem_upsertSubscriber db a
  exact (statusOf_eq_some (uniqueNames_upsertSubscriber hunique a)).mpr ⟨_, hmem, rfl, hlive, rfl⟩

theorem statusOf_upsertSubscriber_of_ne (hunique : UniqueNames db) (hne : username ≠ a.username) :
    (db.upsertSubscriber a).statusOf username = db.statusOf username := by
  refine Option.ext fun status => ?_
  rw [statusOf_eq_some hunique, statusOf_eq_some (uniqueNames_upsertSubscriber hunique a)]
  constructor
  · rintro ⟨r, hr, rfl, hrest⟩
    rcases mem_upsertSubscriber hr with ⟨hold, -⟩ | ⟨id, rfl⟩
    · exact ⟨r, hold, rfl, hrest⟩
    · exact absurd rfl hne
  · rintro ⟨r, hr, rfl, hrest⟩
    exact ⟨r, mem_upsertSubscriber_of_ne hr hne, rfl, hrest⟩

end
end Target

section
variable (r : Readers) (dryRun : Bool) (mode : Mode) (key : String) (c : Candidate) (s : State)

theorem commitRole_subscribers :
    (commitRole r dryRun mode key c s).2.db.subscribers = s.db.subscribers := by
  unfold commitRole
  dsimp only
  cases s.db.roleByName (strip (c.text "name")) with
  | some existing =>
    dsimp only
    split_ifs <;> rfl
  | none =>
    dsimp only
    split_ifs <;> rfl

theorem commitManager_subscribers :
    (commitManager r dryRun mode key c s).2.db.subscribers = s.db.subscribers := by
  unfold commitManager
  dsimp only
  cases s.db.adminByUsername (strip (c.text "username")) with
  | some existing =>
    dsimp only
    split_ifs <;> rfl
  | none =>
    dsimp only
    split_ifs <;> rfl

theorem commitDistributor_subscribers :
    (commitDistributor r dryRun mode key c s).2.db.subscribers = s.db.subscribers := by
  unfold commitDistributor
  dsimp only
  cases s.db.distributorByName (strip (c.text "name")) with
  | some row =>
    dsimp only
    split_ifs <;> rfl
  | none =>
    dsimp only
    split_ifs <;> rfl

theorem commitPlan_subscribers :
    (commitPlan r dryRun mode key c s).2.db.subscribers = s.db.subscribers := by
  unfold commitPlan
  dsimp only
  cases planAttrs r c with
  | none => rfl
  | some attrs =>
    cases s.known .plans key with
    | some existingId =>
      dsimp only
      split_ifs
      · rfl
      · cases s.db.plan existingId with
        | none => rfl
        | some p => rfl
    | none =>
      dsimp only
      split_ifs <;> rfl

theorem commitBatch_subscribers :
    (commitBatch r dryRun mode key c s).2.db.subscribers = s.db.subscribers := by
  unfold commitBatch
  dsimp only
  cases toInt? (c.text "time_value") with
  | none => rfl
  | some timeValue =>
    cases s.known .batches key with
    | some existingId =>
      dsimp only
      split_ifs <;> rfl
    | none =>
      cases resolve r s .plans (c.textOr "plan") with
      | none => rfl
      | some planId =>
        cases toInt? (c.text "count") with
        | none => dsimp only; split_ifs <;> rfl
        | some count => dsimp only; split_ifs <;> rfl

theorem ensureImportCardBatch_subscribers :
    (ensureImportCardBatch r dryRun s).2.db.subscribers = s.db.subscribers := by
  have hplan : (defaultPlan r dryRun s).2.db.subscribers = s.db.subscribers := by
    unfold defaultPlan
    split
    · rfl
    · dsimp only
      split_ifs <;> rfl
  unfold ensureImportCardBatch
  cases s.ids.container with
  | some container => rfl
  | none =>
    dsimp only
    cases (defaultPlan r dryRun s).2.known .batches (normKey r.toScript importBatchName) with
    | some existingId => exact hplan
    | none =>
      dsimp only
      split_ifs
      · exact hplan
      · exact hplan

theorem commitCard_subscribers :
    (commitCard r dryRun mode key c s).2.db.subscribers = s.db.subscribers := by
  have hcontainer := ensureImportCardBatch_subscribers r dryRun s
  unfold commitCard
  dsimp only
  generalize ensureImportCardBatch r dryRun s = container at hcontainer ⊢
  generalize resolvePassword c = password
  generalize strip (c.text "username") = username
  cases s.known .cards key with
  | some existingId =>
    dsimp only
    by_cases hpass : (decide (mode = .skip) || dryRun) = true
    · rw [if_pos hpass]
    · rw [if_neg hpass]
      rfl
  | none =>
    cases resolve r s .batches (c.textOr "batch") with
    | none =>
      dsimp only
      split_ifs <;> exact hcontainer
    | some b =>
      cases resolve r s .plans (c.textOr "plan") with
      | none =>
        dsimp only
        split_ifs <;> exact hcontainer
      | some p =>
        dsimp only
        split_ifs <;> rfl

theorem ensureManager_subscribers (rawName : String) :
    (ensureManager r dryRun rawName s).2.db.subscribers = s.db.subscribers := by
  unfold ensureManager
  dsimp only
  cases s.known .managers (normKey r.toScript (strip rawName)) with
  | some hit =>
    dsimp only
    split_ifs
    · rfl
    · rfl
  | none =>
    dsimp only
    split_ifs
    · rfl
    · rfl
    · rfl
    · cases s.db.adminByUsername (strip rawName) with
      | some existing => rfl
      | none => rfl

theorem commitOne_subscribers {sect : Section} (h : sect ≠ .subscribers) :
    (commitOne r dryRun sect mode key c s).2.db.subscribers = s.db.subscribers := by
  cases sect with
  | roles => simp only [commitOne, commitRole_subscribers]
  | managers => simp only [commitOne, commitManager_subscribers]
  | distributors => simp only [commitOne, commitDistributor_subscribers]
  | plans => simp only [commitOne, commitPlan_subscribers]
  | batches => simp only [commitOne, commitBatch_subscribers]
  | subscribers => exact absurd rfl h
  | cards => simp only [commitOne, commitCard_subscribers]

end

theorem Target.subscriber_congr {db db' : Target} (h : db'.subscribers = db.subscribers)
    (username : String) : db'.subscriber username = db.subscriber username := by
  rw [subscriber, subscriber, h]

theorem Target.statusOf_congr {db db' : Target} (h : db'.subscribers = db.subscribers)
    (username : String) : db'.statusOf username = db.statusOf username := by
  rw [statusOf, statusOf, subscriber_congr h]

theorem Target.upsertSubscriber_congr {db db' : Target} (h : db'.subscribers = db.subscribers)
    (a : Account) : (db'.upsertSubscriber a).subscribers = (db.upsertSubscriber a).subscribers := by
  unfold upsertSubscriber
  rw [h]
  split <;> rfl

section
variable (r : Readers) (mode : Mode) (key : String) (c : Candidate) (s : State)

def Candidate.username (c : Candidate) : String := strip (c.text "username")

theorem commitSubscriber_cases {out : Outcome × State}
    (hout : commitSubscriber r false mode key c s = out) :
    (out.2.db.subscribers = s.db.subscribers ∧ out.1 ∉ [Outcome.created, .merged] ∧
      (usedSeconds? (c.textOr "used_time") = none ∨ mode = .skip)) ∨
    ∃ p : Profile, p.signal = r.signal (c.text "status") ∧
      p.expireAt = r.date (c.textOr "expire_at") ∧
      ((∃ old, s.db.subscriber c.username = some old ∧
          mode ≠ .skip ∧ usedSeconds? (c.textOr "used_time") ≠ none ∧
          out.2.db.subscribers = (s.db.upsertSubscriber (p.merge r.now old)).subscribers) ∨
        ∃ metadata, s.db.subscriber c.username = none ∧
          out.2.db.subscribers =
            (s.db.upsertSubscriber (p.account r.now c.username metadata)).subscribers) := by
  have hmanager := ensureManager_subscribers r false s (c.textOr "manager")
  have hname : strip (c.text "username") = c.username := rfl
  unfold commitSubscriber at hout
  rw [hname] at hout
  generalize ensureManager r false (c.textOr "manager") s = manager at hmanager hout
  obtain ⟨managerId, s₁⟩ := manager
  generalize c.username = name at hout ⊢
  generalize resolvePassword c = password at hout
  generalize profileTexts r c = texts at hout
  generalize resolve r s .plans (c.textOr "plan") = planId at hout
  dsimp only at hout hmanager
  cases hused : usedSeconds? (c.textOr "used_time") with
  | none =>
    rw [hused] at hout
    subst hout
    exact .inl ⟨hmanager, by simp, .inl rfl⟩
  | some used =>
    rw [hused] at hout
    dsimp only at hout
    rw [Target.subscriber_congr hmanager] at hout
    set p : Profile := ⟨password, planId, managerId, r.money (c.textOr "balance"),
      r.date (c.textOr "expire_at"), used, r.signal (c.text "status"), texts⟩
    cases hold : s.db.subscriber name with
    | some old =>
      rw [hold] at hout
      dsimp only at hout
      by_cases hmode : mode = .skip
      · rw [if_pos (by simp [hmode])] at hout
        subst hout
        exact .inl ⟨hmanager, by simp [Outcome.found, hmode], .inr hmode⟩
      · rw [if_neg (by simp [hmode])] at hout
        subst hout
        exact .inr ⟨p, rfl, rfl, .inl ⟨old, rfl, hmode, by simp,
          Target.upsertSubscriber_congr hmanager _⟩⟩
    | none =>
      rw [hold] at hout
      dsimp only at hout
      rw [if_neg (by simp)] at hout
      subst hout
      exact .inr ⟨p, rfl, rfl, .inr ⟨_, rfl, Target.upsertSubscriber_congr hmanager _⟩⟩

theorem commitSubscriber_dryRun :
    (commitSubscriber r true mode key c s).2.db.subscribers = s.db.subscribers := by
  have hmanager := ensureManager_subscribers r true s (c.textOr "manager")
  unfold commitSubscriber
  generalize ensureManager r true (c.textOr "manager") s = manager at hmanager ⊢
  obtain ⟨managerId, s₁⟩ := manager
  generalize strip (c.text "username") = name
  generalize resolvePassword c = password
  generalize profileTexts r c = texts
  dsimp only at hmanager ⊢
  cases usedSeconds? (c.textOr "used_time") with
  | none => exact hmanager
  | some used =>
    cases s₁.db.subscriber name with
    | some old =>
      dsimp only
      rw [if_pos (by simp)]
      exact hmanager
    | none => exact hmanager

end

theorem deriveStatus_cases (signal : Signal) (expireAt : Option ℤ) (now : ℤ) :
    deriveStatus signal expireAt now = "disabled" ∧ signal = .disabled ∨
    deriveStatus signal expireAt now = "expired" ∧ signal ≠ .disabled ∨
    deriveStatus signal expireAt now = "enabled" ∧ signal ≠ .disabled := by
  cases signal with
  | disabled => exact .inl ⟨rfl, rfl⟩
  | expired => exact .inr (.inl ⟨rfl, by simp⟩)
  | enabled =>
    unfold deriveStatus
    dsimp only
    split_ifs
    · exact .inr (.inl ⟨rfl, by simp⟩)
    · exact .inr (.inr ⟨rfl, by simp⟩)
  | silent =>
    unfold deriveStatus
    dsimp only
    split_ifs
    · exact .inr (.inl ⟨rfl, by simp⟩)
    · exact .inr (.inr ⟨rfl, by simp⟩)

section
variable (p : Profile) (now : ℤ)

theorem reconciledStatus_disabled : reconciledStatus p now "disabled" = "disabled" := by
  unfold reconciledStatus
  dsimp only
  rcases deriveStatus_cases p.signal p.expireAt now with ⟨h, -⟩ | ⟨h, -⟩ | ⟨h, -⟩ <;>
    rw [h] <;> rfl

theorem reconciledStatus_of_block (h : p.signal = .disabled) (status : String) :
    reconciledStatus p now status = "disabled" := by
  unfold reconciledStatus
  rw [h]
  rfl

theorem evidence_of_reconciledStatus (h : reconciledStatus p now "expired" = "enabled") :
    p.signal = .enabled ∨ ∃ t, p.expireAt = some t ∧ now < t := by
  unfold reconciledStatus at h
  dsimp only at h
  rcases deriveStatus_cases p.signal p.expireAt now with ⟨hd, -⟩ | ⟨hd, -⟩ | ⟨hd, -⟩
  · simp [hd] at h
  · simp [hd] at h
  · by_contra hnone
    obtain ⟨hsignal, hfuture⟩ := not_or.mp hnone
    have hany : p.expireAt.any (fun e => decide (now < e)) = false := by
      cases hp : p.expireAt with
      | none => rfl
      | some t => simpa using fun ht => hfuture ⟨t, hp, ht⟩
    simp [hd, hsignal, hany] at h

theorem reconciledStatus_of_unknown {status : String}
    (h : status ∉ ["enabled", "disabled", "expired"]) :
    reconciledStatus p now status = "enabled" ↔
      deriveStatus p.signal p.expireAt now = "enabled" := by
  simp only [List.mem_cons, List.not_mem_nil, or_false, not_or] at h
  obtain ⟨henabled, hdisabled, hexpired⟩ := h
  have hexisting : (if status = "" then "enabled" else status) ≠ "disabled" ∧
      (if status = "" then "enabled" else status) ≠ "expired" := by
    split_ifs
    · decide
    · exact ⟨hdisabled, hexpired⟩
  unfold reconciledStatus
  dsimp only
  rw [if_neg hexisting.1, if_neg hexisting.2]
  rcases deriveStatus_cases p.signal p.expireAt now with ⟨hd, -⟩ | ⟨hd, -⟩ | ⟨hd, -⟩
  · simp [hd]
  · simp [hd]
  · simp [hd]

end

def Readers.reading (r : Readers) : Readers := { r with signal := statusSignal }

theorem Readers.reading_signal (r : Readers) : r.reading.signal = statusSignal := by
  simp only [reading]

theorem Readers.reading_date (r : Readers) : r.reading.date = r.date := by
  simp only [reading]

theorem Readers.reading_now (r : Readers) : r.reading.now = r.now := by
  simp only [reading]

inductive ImportEvent
  | begin (r : Readers)
  | row (r : Readers) (dryRun : Bool) (sect : Section) (x : Row)
  | finish (dryRun : Bool)

namespace ImportEvent

def apply (s : State) : ImportEvent → State
  | .begin r => start r.reading s.db
  | .row r dryRun sect x => (commitOne r.reading dryRun sect x.mode x.key x.candidate s).2
  | .finish dryRun => if dryRun then s else s.write (s.db.countCards s.ids.batchIds)

def outcome (s : State) : ImportEvent → Option Outcome
  | .row r dryRun sect x => some (commitOne r.reading dryRun sect x.mode x.key x.candidate s).1
  | _ => none

/-- The row of an account: its readers, its mode and its candidate. Other sections and dry runs have
none. -/
def rowOf (u : String) : ImportEvent → Option (Readers × Mode × Candidate)
  | .row r false .subscribers x =>
    if x.candidate.username = u then some (r, x.mode, x.candidate) else none
  | _ => none

end ImportEvent

def importEvents (r : Readers) (dryRun : Bool) (imports : List Import) : List ImportEvent :=
  .begin r :: ((byRank imports).flatMap fun imp =>
    (committed r.reading imp.sect imp.mode [] imp.candidates).map (.row r dryRun imp.sect)) ++
    [.finish dryRun]

theorem foldl_commitImport (r : Readers) (dryRun : Bool) (imports : List Import) (s : State)
    (report : Report) : (imports.foldl (commitImport r.reading dryRun) (s, report)).1 =
      Run.run ImportEvent.apply s (imports.flatMap fun imp =>
        (committed r.reading imp.sect imp.mode [] imp.candidates).map (.row r dryRun imp.sect)) := by
  induction imports generalizing s report with
  | nil => rfl
  | cons imp imports ih =>
    have hstate : (commitImport r.reading dryRun (s, report) imp).1 = Run.run ImportEvent.apply s
        ((committed r.reading imp.sect imp.mode [] imp.candidates).map
          (.row r dryRun imp.sect)) := by
      rw [Run.run, List.foldl_map]
      exact commitCandidates_fst r.reading dryRun imp.sect imp.mode imp.candidates [] s
        (report imp.sect)
    rw [List.foldl_cons, List.flatMap_cons, Run.run, List.foldl_append,
      ← Prod.eta (commitImport r.reading dryRun (s, report) imp), ih, hstate]

theorem commit_eq_run (r : Readers) (dryRun : Bool) (imports : List Import) (s : State) :
    (commit r.reading dryRun imports s.db).2 =
      (Run.run ImportEvent.apply s (importEvents r dryRun imports)).db := by
  have hrows := foldl_commitImport r dryRun (byRank imports) (start r.reading s.db)
    (fun _ _ => 0)
  rw [importEvents, Run.run, List.cons_append, List.foldl_cons, List.foldl_append, List.foldl_cons,
    List.foldl_nil]
  have hstart : ImportEvent.apply s (.begin r) = start r.reading s.db := rfl
  rw [hstart]
  simp only [commit, hrows]
  cases dryRun with
  | true => rfl
  | false => rfl

section
variable (r : Readers) (c : Candidate)

def Evidence : Prop :=
  HasEnableWord (normText (c.text "status")) ∨
    ∃ t, r.date (c.textOr "expire_at") = some t ∧ r.now < t

/-- The row says that the account is blocked, by a word or by the mark of a row of `radcheck`. -/
def BlockedRow : Prop :=
  HasBlockWord (normText (c.text "status")) ∨ Flagged r.toScript c

theorem signal_of_blockedRow (h : BlockedRow r c) : statusSignal (c.text "status") = .disabled := by
  rcases h with hword | hflag
  · exact signalOf_disabled_iff.mpr hword
  · rw [hflag.status]
    decide

end

/-- One event does not open an account that is blocked, and a blocked row that is written blocks. -/
structure KeptBlocked (u : String) (s : State) (e : ImportEvent) : Prop where
  sticky : s.db.statusOf u = some "disabled" → (e.apply s).db.statusOf u = some "disabled"
  evidence : ∀ old, s.db.statusOf u = some old → old ≠ "enabled" →
    (e.apply s).db.statusOf u = some "enabled" →
      old = "expired" ∧ ∃ r mode c, e.rowOf u = some (r, mode, c) ∧ Evidence r c
  block : ∀ r mode c, e.rowOf u = some (r, mode, c) → BlockedRow r c →
    e.outcome s ∈ [some .created, some .merged] → (e.apply s).db.statusOf u = some "disabled"

/-- Where an event merges a row that says nothing against the account, the account's status is one
that an import knows. -/
def KnownStatus (u : String) (s : State) (e : ImportEvent) : Prop :=
  ∀ r mode c old, e.rowOf u = some (r, mode, c) → mode ≠ .skip →
    usedSeconds? (c.textOr "used_time") ≠ none → s.db.statusOf u = some old →
    deriveStatus (statusSignal (c.text "status")) (r.date (c.textOr "expire_at")) r.now =
      "enabled" → old ∈ ["enabled", "disabled", "expired"]

section
variable {u : String} {s : State} {e : ImportEvent}

theorem statusOf_upsert_eq {db : Target} {a : Account} (hunique : UniqueNames s.db)
    (h : db.subscribers = (s.db.upsertSubscriber a).subscribers) (hlive : a.deleted = false)
    {name : String} (hname : a.username = name) : db.statusOf name = some a.status := by
  rw [Target.statusOf_congr h, ← hname, Target.statusOf_upsertSubscriber_self hunique hlive]

theorem statusOf_commitSubscriber_of_ne (hunique : UniqueNames s.db) (r : Readers) (mode : Mode)
    (key : String) {c : Candidate} (h : c.username ≠ u) :
    (commitSubscriber r false mode key c s).2.db.statusOf u = s.db.statusOf u := by
  generalize hcommit : commitSubscriber r false mode key c s = out
  rcases commitSubscriber_cases r mode key c s hcommit with
    ⟨hsame, -⟩ | ⟨p, -, -, ⟨old, hold, -, -, hdb⟩ | ⟨metadata, -, hdb⟩⟩
  · exact Target.statusOf_congr hsame u
  · have hname : old.username = c.username := ((Target.subscriber_eq_some hunique).mp hold).2.1
    rw [Target.statusOf_congr hdb]
    refine Target.statusOf_upsertSubscriber_of_ne hunique fun heq => h ?_
    rw [heq]
    exact hname.symm
  · rw [Target.statusOf_congr hdb]
    exact Target.statusOf_upsertSubscriber_of_ne hunique fun heq => h heq.symm

theorem statusOf_apply_of_rowOf_none (hunique : UniqueNames s.db) (h : e.rowOf u = none) :
    (e.apply s).db.statusOf u = s.db.statusOf u := by
  cases e with
  | begin r => rfl
  | finish dryRun =>
    cases dryRun with
    | true => rfl
    | false => rfl
  | row r dryRun sect x =>
    by_cases hsect : sect = .subscribers
    · subst hsect
      have happly : (ImportEvent.row r dryRun .subscribers x).apply s =
        (commitSubscriber r.reading dryRun x.mode x.key x.candidate s).2 := rfl
      rw [happly]
      cases dryRun with
      | true =>
        have hsame := commitSubscriber_dryRun r.reading x.mode x.key x.candidate s
        exact Target.statusOf_congr hsame u
      | false =>
        have hne : x.candidate.username ≠ u := fun heq => by
          rw [ImportEvent.rowOf, if_pos heq] at h
          cases h
        exact statusOf_commitSubscriber_of_ne hunique r.reading x.mode x.key hne
    · exact Target.statusOf_congr (commitOne_subscribers r.reading dryRun _ _ _ s hsect) u

theorem rowOf_eq_some {r : Readers} {mode : Mode} {c : Candidate}
    (h : e.rowOf u = some (r, mode, c)) :
    ∃ key, e = .row r false .subscribers ⟨mode, key, c⟩ ∧ c.username = u := by
  unfold ImportEvent.rowOf at h
  split at h
  · rename_i r' x
    split_ifs at h with hname
    obtain ⟨rfl, hrest⟩ := Prod.mk.inj (Option.some.inj h)
    obtain ⟨rfl, rfl⟩ := Prod.mk.inj hrest
    exact ⟨x.key, rfl, hname⟩
  · cases h

theorem statusOf_apply_of_rowOf (hunique : UniqueNames s.db) {r : Readers} {mode : Mode}
    {c : Candidate} (h : e.rowOf u = some (r, mode, c)) :
    ((e.apply s).db.statusOf u = s.db.statusOf u ∧ e.outcome s ∉ [some .created, some .merged] ∧
      (usedSeconds? (c.textOr "used_time") = none ∨ mode = .skip)) ∨
    ∃ p : Profile, p.signal = statusSignal (c.text "status") ∧
      p.expireAt = r.date (c.textOr "expire_at") ∧
      ((∃ old, s.db.statusOf u = some old ∧ mode ≠ .skip ∧
          usedSeconds? (c.textOr "used_time") ≠ none ∧
          (e.apply s).db.statusOf u = some (reconciledStatus p r.now old)) ∨
        s.db.statusOf u = none ∧
          (e.apply s).db.statusOf u = some (deriveStatus p.signal p.expireAt r.now)) := by
  obtain ⟨key, rfl, rfl⟩ := rowOf_eq_some h
  have hdb : (ImportEvent.row r false .subscribers ⟨mode, key, c⟩).apply s =
    (commitSubscriber r.reading false mode key c s).2 := rfl
  have hout : (ImportEvent.row r false .subscribers ⟨mode, key, c⟩).outcome s =
    some (commitSubscriber r.reading false mode key c s).1 := rfl
  rw [hdb, hout]
  generalize hcommit : commitSubscriber r.reading false mode key c s = out
  rcases commitSubscriber_cases r.reading mode key c s hcommit with
    ⟨hsame, hpassed, hwhy⟩ | ⟨p, hsignal, hdate, ⟨old, hold, hmode, hused, hsub⟩ |
      ⟨metadata, hnone, hsub⟩⟩
  · refine .inl ⟨Target.statusOf_congr hsame _, fun hmem => hpassed ?_, hwhy⟩
    simpa using hmem
  · rw [Readers.reading_signal] at hsignal
    rw [Readers.reading_date] at hdate
    rw [Readers.reading_now] at hsub
    refine .inr ⟨p, hsignal, hdate, .inl ⟨old.status, ?_, hmode, hused, ?_⟩⟩
    · rw [Target.statusOf, hold]
      rfl
    · obtain ⟨-, hname, hlive⟩ := (Target.subscriber_eq_some hunique).mp hold
      exact statusOf_upsert_eq hunique hsub hlive hname
  · rw [Readers.reading_signal] at hsignal
    rw [Readers.reading_date] at hdate
    rw [Readers.reading_now] at hsub
    refine .inr ⟨p, hsignal, hdate, .inr ⟨?_, ?_⟩⟩
    · rw [Target.statusOf, hnone]
      rfl
    · exact statusOf_upsert_eq hunique hsub rfl rfl

theorem uniqueNames_congr {db db' : Target} (h : db'.subscribers = db.subscribers) :
    UniqueNames db' ↔ UniqueNames db := by
  rw [UniqueNames, UniqueNames, h]

theorem uniqueNames_apply (hunique : UniqueNames s.db) (e : ImportEvent) :
    UniqueNames (e.apply s).db := by
  cases e with
  | begin r => exact hunique
  | finish dryRun =>
    cases dryRun with
    | true => exact hunique
    | false => exact hunique
  | row r dryRun sect x =>
    by_cases hsect : sect = .subscribers
    · subst hsect
      have happly : (ImportEvent.row r dryRun .subscribers x).apply s =
        (commitSubscriber r.reading dryRun x.mode x.key x.candidate s).2 := rfl
      rw [happly]
      cases dryRun with
      | true => exact (uniqueNames_congr (commitSubscriber_dryRun r.reading _ _ _ s)).mpr hunique
      | false =>
        generalize hcommit : commitSubscriber r.reading false x.mode x.key x.candidate s = out
        rcases commitSubscriber_cases r.reading x.mode x.key x.candidate s hcommit with
          ⟨hsame, -⟩ | ⟨p, -, -, ⟨old, -, -, -, hsub⟩ | ⟨metadata, -, hsub⟩⟩
        · exact (uniqueNames_congr hsame).mpr hunique
        · exact (uniqueNames_congr hsub).mpr (Target.uniqueNames_upsertSubscriber hunique _)
        · exact (uniqueNames_congr hsub).mpr (Target.uniqueNames_upsertSubscriber hunique _)
    · have hsame := commitOne_subscribers r.reading dryRun x.mode x.key x.candidate s hsect
      exact (uniqueNames_congr hsame).mpr hunique

theorem keptBlocked_of_rowOf_none (hunique : UniqueNames s.db) (h : e.rowOf u = none) :
    KeptBlocked u s e := by
  have hsame := statusOf_apply_of_rowOf_none hunique h
  refine ⟨fun hblocked => hsame.trans hblocked, fun old hold hne hopen => ?_,
    fun r mode c hrow => ?_⟩
  · rw [hsame, hold] at hopen
    exact absurd (Option.some_inj.mp hopen) hne
  · rw [h] at hrow
    cases hrow

theorem rowOf_inj {r r' : Readers} {mode mode' : Mode} {c c' : Candidate}
    (h : e.rowOf u = some (r, mode, c)) (h' : e.rowOf u = some (r', mode', c')) :
    r' = r ∧ mode' = mode ∧ c' = c := by
  rw [h] at h'
  obtain ⟨hr, hrest⟩ := Prod.mk.inj (Option.some.inj h')
  obtain ⟨hmode, hc⟩ := Prod.mk.inj hrest
  exact ⟨hr.symm, hmode.symm, hc.symm⟩

/-- A row that is merged: its account keeps a block, and is opened by evidence, exactly where its
status is one that an import knows or the source speaks against it. -/
theorem keptBlocked_merge_iff {r : Readers} {mode : Mode} {c : Candidate} {p : Profile}
    {old : String} (hrow : e.rowOf u = some (r, mode, c))
    (hsignal : p.signal = statusSignal (c.text "status"))
    (hdate : p.expireAt = r.date (c.textOr "expire_at")) (hold : s.db.statusOf u = some old)
    (hnew : (e.apply s).db.statusOf u = some (reconciledStatus p r.now old)) :
    KeptBlocked u s e ↔ (deriveStatus p.signal p.expireAt r.now = "enabled" →
      old ∈ ["enabled", "disabled", "expired"]) := by
  constructor
  · intro h henabled
    by_contra hunknown
    have hopen := (reconciledStatus_of_unknown p r.now hunknown).mpr henabled
    have hevidence := h.evidence old hold (fun heq => hunknown (by simp [heq])) (by rw [hnew, hopen])
    exact hunknown (by simp [hevidence.1])
  · intro hknown
    refine ⟨fun hblocked => ?_, fun old' hold' hne hopen => ?_, fun r' mode' c' hrow' hblocked _ => ?_⟩
    · rw [hold] at hblocked
      rw [hnew, Option.some_inj.mp hblocked, reconciledStatus_disabled]
    · rw [hold] at hold'
      obtain rfl := Option.some_inj.mp hold'
      rw [hnew] at hopen
      have hopen := Option.some_inj.mp hopen
      by_cases hin : old ∈ ["enabled", "disabled", "expired"]
      · simp only [List.mem_cons, List.not_mem_nil, or_false] at hin
        rcases hin with rfl | rfl | rfl
        · exact absurd rfl hne
        · rw [reconciledStatus_disabled] at hopen
          exact absurd hopen (by decide)
        · refine ⟨rfl, r, mode, c, hrow, ?_⟩
          rcases evidence_of_reconciledStatus p r.now hopen with hword | ⟨t, ht, hfuture⟩
          · rw [hsignal] at hword
            exact .inl (hasEnableWord_of_signalOf hword)
          · exact .inr ⟨t, by rw [← hdate, ht], hfuture⟩
      · exact absurd (hknown ((reconciledStatus_of_unknown p r.now hin).mp hopen)) hin
    · obtain ⟨rfl, rfl, rfl⟩ := rowOf_inj hrow hrow'
      have hdisabled := hsignal.trans (signal_of_blockedRow _ _ hblocked)
      rw [hnew, reconciledStatus_of_block p _ hdisabled]

theorem keptBlocked_iff (hunique : UniqueNames s.db) : KeptBlocked u s e ↔ KnownStatus u s e := by
  cases hrow : e.rowOf u with
  | none =>
    refine iff_of_true (keptBlocked_of_rowOf_none hunique hrow) fun r mode c old h => ?_
    rw [hrow] at h
    cases h
  | some row =>
    obtain ⟨r, mode, c⟩ := row
    rcases statusOf_apply_of_rowOf hunique hrow with
      ⟨hstatus, hpassed, hwhy⟩ | ⟨p, hsignal, hdate, ⟨old, hold, hmode, hused, hnew⟩ |
        ⟨hnone, hnew⟩⟩
    · refine iff_of_true ⟨fun hblocked => hstatus.trans hblocked, fun old hold hne hopen => ?_,
        fun r' mode' c' _ _ hwritten => absurd hwritten hpassed⟩ fun r' mode' c' old hrow' => ?_
      · rw [hstatus, hold] at hopen
        exact absurd (Option.some_inj.mp hopen) hne
      · obtain ⟨rfl, rfl, rfl⟩ := rowOf_inj hrow hrow'
        intro hmode hused
        rcases hwhy with hwhy | hwhy
        · exact absurd hwhy hused
        · exact absurd hwhy hmode
    · rw [keptBlocked_merge_iff hrow hsignal hdate hold hnew, hsignal, hdate]
      constructor
      · intro h r' mode' c' old' hrow' _ _ hold' henabled
        obtain ⟨rfl, rfl, rfl⟩ := rowOf_inj hrow hrow'
        rw [hold] at hold'
        obtain rfl := Option.some_inj.mp hold'
        exact h henabled
      · exact fun h => h r mode c old hrow hmode hused hold
    · refine iff_of_true ⟨fun hblocked => ?_, fun old hold => ?_, fun r' mode' c' hrow' hblocked _ => ?_⟩
        fun r' mode' c' old _ _ _ hold => ?_
      · rw [hnone] at hblocked
        cases hblocked
      · rw [hnone] at hold
        cases hold
      · obtain ⟨rfl, rfl, rfl⟩ := rowOf_inj hrow hrow'
        rw [hnew, hsignal, signal_of_blockedRow _ _ hblocked]
        rfl
      · rw [hnone] at hold
        cases hold

end

/-- In a run of imports every event keeps a block exactly where every event meets a known status. -/
theorem blocks_kept_iff (u : String) {s : State} (hunique : UniqueNames s.db)
    (es : List ImportEvent) :
    Run.Along (KeptBlocked u) ImportEvent.apply s es ↔
      Run.Along (KnownStatus u) ImportEvent.apply s es :=
  Run.along_congr (fun _ e h => uniqueNames_apply h e) (fun _ _ h => keptBlocked_iff h) hunique

def plainReaders : Readers := { latinReaders with signal := statusSignal }

def oneAccount (status : String) : State where
  db :=
    { roles := .empty, admins := .empty, distributors := .empty, plans := .empty, batches := .empty
      subscribers := Numbered.empty.insert
        (fun n => { id := n, username := "ali", status := status }) (fun _ => rfl)
      cards := .empty }
  ids := ⟨fun _ => [], none⟩

/-- A row of the account of `oneAccount`, with the text of its status. -/
def aliRow (status : String) : ImportEvent :=
  .row plainReaders false .subscribers
    ⟨.merge, "ali", ⟨[("username", .str "ali"), ("status", .str status)]⟩⟩

theorem blocks_kept_enabled_row :
    Run.Along (KeptBlocked "ali") ImportEvent.apply (oneAccount "disabled") [aliRow "enabled"] := by
  have hunique : UniqueNames (oneAccount "disabled").db := by
    unfold UniqueNames
    decide
  have hstatus : (oneAccount "disabled").db.statusOf "ali" = some "disabled" := by decide
  refine (blocks_kept_iff "ali" hunique [aliRow "enabled"]).mpr ⟨?_, trivial⟩
  intro r mode c old _ _ _ hold _
  rw [hstatus] at hold
  rw [← Option.some_inj.mp hold]
  decide

/-- A row without a word of its status enables an account that is suspended. -/
theorem suspended_account_enabled :
    (oneAccount "suspended").db.statusOf "ali" = some "suspended" ∧
      ((aliRow "").apply (oneAccount "suspended")).db.statusOf "ali" = some "enabled" ∧
      ¬KeptBlocked "ali" (oneAccount "suspended") (aliRow "") := by
  have hbefore : (oneAccount "suspended").db.statusOf "ali" = some "suspended" := by decide
  have hafter : ((aliRow "").apply (oneAccount "suspended")).db.statusOf "ali" =
    some "enabled" := by decide
  refine ⟨hbefore, hafter, fun h => ?_⟩
  have hevidence := h.evidence "suspended" hbefore (by decide) hafter
  exact absurd hevidence.1 (by decide)

end RadiusModule.Migration
