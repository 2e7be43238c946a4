import RadiusModule.Library.Run
import RadiusModule.Services.Migration.CardSeries

/-!
# The pivot of radcheck

`radcheck` has a row for each attribute of a user. The rows of a user are
gathered in one bucket of fields, to which the group, the profile and, for a
card, the batch of its series are added.
-/

namespace RadiusModule.Migration
open Library PyText

abbrev Bucket := Dict String String

def frPlainPw : List String :=
  ["cleartext password", "user password", "password", "cleartext_password", "user_password"]

def frHashPw : Dict String String :=
  [("crypt password", "crypt"), ("md5 password", "md5"), ("nt password", "nt"),
    ("sha password", "sha"), ("ssha password", "ssha"), ("sha2 8 password", "sha256"),
    ("crypt_password", "crypt"), ("md5_password", "md5"), ("nt_password", "nt"),
    ("sha_password", "sha"), ("ssha_password", "ssha")]

def frExpire : List String := ["expiration", "expire"]

def frMac : List String := ["calling station id", "calling_station_id", "callingstationid"]

/-- A value that is set and not empty: `bool(bucket.get(name))`. -/
def Bucket.filled (bucket : Bucket) (name : String) : Bool := (bucket.get? name).any fun v => v ≠ ""

def Bucket.addAttribute (bucket : Bucket) (attr val : String) : Bucket :=
  if frPlainPw.contains attr then
    Dict.keep (bucket.put "password" val) fun name => name ≠ "password_scheme"
  else match frHashPw.get? attr with
    | some scheme =>
      if (bucket.get? "password").isNone then
        (bucket.put "password" val).put "password_scheme" scheme
      else bucket
    | none =>
      if frExpire.contains attr then bucket.put "expire_at" val
      else if frMac.contains attr && val ≠ "" && !Bucket.filled bucket "mac" then bucket.put "mac" val
      else bucket

/-- The columns of `radcheck`, and the cards or users that are wanted of it. -/
structure PivotColumns where
  user : String
  attr : String
  val : String
  iscard : String
  iscardWant : String
  framedPool : String
  addressList : String
  aflag : String

namespace PivotColumns

variable (cols : PivotColumns)

def matchIscard (row : Record) : Bool :=
  if cols.iscard = "" || cols.iscardWant = "" then true
  else
    let v := lower (row.text cols.iscard)
    (if ["1", "yes", "true", "y"].contains v then "1" else "0") == cols.iscardWant

def rowBlocked (row : Record) : Bool :=
  (cols.framedPool ≠ "" && lower (row.text cols.framedPool) = "block") ||
  (cols.addressList ≠ "" && lower (row.text cols.addressList) = "block") ||
  (cols.aflag ≠ "" && ["1", "y", "yes", "true"].contains (lower (row.text cols.aflag)))

def ofUser (row : Record) (user : String) : Prop :=
  row.text cols.user = user ∧ user ≠ "" ∧ cols.matchIscard row = true

end PivotColumns

section
variable (script : Script)

/-- In a dump with a column `a` it alone tells who is blocked. -/
def pivotColumns (radcheck : SourceTable) (m : SectionMatch) (isCards : Bool) : PivotColumns :=
  let iscard := m.column "_iscard_col"
  let aflag := if isCards || iscard = "" then "" else findColumn script radcheck.columns ["a"]
  let older (candidates : List String) :=
    if isCards || aflag ≠ "" then "" else findColumn script radcheck.columns candidates
  { user := (m.columnMap.get? "username").getD "username"
    attr := findColumn script radcheck.columns ["attribute", "attr"]
    val := findColumn script radcheck.columns ["value", "val"]
    iscard := iscard
    iscardWant := m.column "_iscard_want"
    framedPool := older ["framed_pool", "framedpool"]
    addressList := older ["address_list_name", "address_list", "addresslist"]
    aflag := aflag }

/-- What a row of `radcheck` adds to the bucket of its user. -/
def pivotBucket (cols : PivotColumns) (row : Record) (bucket : Bucket) : Bucket :=
  Bucket.addAttribute (if cols.rowBlocked row then bucket.put "status" "disabled" else bucket)
    (normKey script (row.get cols.attr)) (row.text cols.val)

def pivotRow (cols : PivotColumns) (acc : Dict String Bucket) (row : Record) : Dict String Bucket :=
  let user := row.text cols.user
  if user = "" || !cols.matchIscard row then acc
  else acc.put user (pivotBucket script cols row ((acc.get? user).getD [("username", user)]))

/-- The columns of `radusergroup`; that of the series is for cards only. -/
structure GroupColumns where
  user : String
  group : String
  idCard : String

def groupColumns (ug : SourceTable) (isCards : Bool) : GroupColumns where
  user := findColumn script ug.columns ["username", "user", "user_name"]
  group := findColumn script ug.columns ["groupname", "group_name", "group"]
  idCard := if isCards then findColumn script ug.columns ["id_card", "idcard"] else ""

def Bucket.keepFirst (bucket : Bucket) (name val : String) : Bucket :=
  if val ≠ "" && (bucket.get? name).isNone then bucket.put name val else bucket

def groupBucket (cols : GroupColumns) (row : Record) (bucket : Bucket) : Bucket :=
  Bucket.keepFirst (Bucket.keepFirst bucket "plan" (row.cell cols.group)) "_id_card"
    (row.cell cols.idCard)

def groupRow (cols : GroupColumns) (acc : Dict String Bucket) (row : Record) : Dict String Bucket :=
  let u := row.text cols.user
  match acc.get? u with
  | none => acc
  | some bucket => if u = "" then acc else acc.put u (groupBucket cols row bucket)

def linkBatch (nameById : Dict String String) (bucket : Bucket) : Bucket :=
  match (bucket.get? "_id_card").bind fun idc => if idc = "" then none else nameById.get? idc with
  | some name => bucket.put "batch" name
  | none => bucket

def fillField (managers : Dict String String) (row : Record) (bucket : Bucket)
    (field : String × String) : Bucket :=
  let val := row.text field.2
  if field.1 = "username" || field.1 = "password" || val = "" || Bucket.filled bucket field.1 then bucket
  else if field.1 = "manager" && isDigitText script val then
    match managers.get? val with
    | some login => if login = "" then bucket else bucket.put "manager" login
    | none => bucket
  else bucket.put field.1 val

def userinfoFields (m : SectionMatch) : Dict String String :=
  m.columnMap.foldl (fun out kv =>
    match kv.1.toList with
    | 'u' :: 'i' :: ':' :: name => out.put (String.ofList name) kv.2
    | _ => out) []

def userinfoRow (managers : Dict String String) (fields : Dict String String) (userCol : String)
    (acc : Dict String Bucket) (row : Record) : Dict String Bucket :=
  let u := row.text userCol
  if u = "" then acc
  else acc.put u
    (fields.foldl (fillField script managers row) ((acc.get? u).getD [("username", u)]))

def mergeUserinfo (dataset : SourceDataset) (m : SectionMatch) (acc : Dict String Bucket) :
    Dict String Bucket :=
  let fields := userinfoFields m
  let userCol := (fields.get? "username").getD ""
  match if m.column "_userinfo_table" = "" then none
      else dataset.table (m.column "_userinfo_table") with
  | none => acc
  | some ui =>
    if userCol = "" then acc
    else ui.rows.foldl (userinfoRow script (sourceManagerMap script dataset) fields userCol) acc

def isCardsMatch (m : SectionMatch) : Bool := m.recognizedAs = "freeradius_cards"

def groupTable (dataset : SourceDataset) (m : SectionMatch) : Option SourceTable :=
  (if m.column "_usergroup_table" = "" then none
    else dataset.table (m.column "_usergroup_table")).filter fun ug =>
      (groupColumns script ug (isCardsMatch m)).user ≠ ""

/-- The buckets of the users of `radcheck`, with their groups. -/
def groupedBuckets (dataset : SourceDataset) (m : SectionMatch) (radcheck : SourceTable) :
    Dict String Bucket :=
  let acc := radcheck.rows.foldl
    (pivotRow script (pivotColumns script radcheck m (isCardsMatch m))) []
  match groupTable script dataset m with
  | none => acc
  | some ug => ug.rows.foldl (groupRow (groupColumns script ug (isCardsMatch m))) acc

def groupMembers (dataset : SourceDataset) (m : SectionMatch) : List String :=
  match groupTable script dataset m with
  | none => []
  | some ug =>
    (ug.rows.map fun row => row.text (groupColumns script ug (isCardsMatch m)).user).filter
      fun u => u ≠ ""

def Bucket.candidate (bucket : Bucket) : Candidate := ⟨bucket.map fun kv => (kv.1, .str kv.2)⟩

def buildFreeradiusPivot (dataset : SourceDataset) (m : SectionMatch) : Option (List Candidate) :=
  match dataset.table m.sourceTable with
  | none => some []
  | some radcheck =>
    let cols := pivotColumns script radcheck m (isCardsMatch m)
    if cols.attr = "" || cols.val = "" then some []
    else
      let acc := groupedBuckets script dataset m radcheck
      if isCardsMatch m then
        (advCardBatchIndex script dataset (m.column "_cardbatch_table")).map fun index =>
          let members := groupMembers script dataset m
          let kept := acc.filter fun kv => members.isEmpty || members.contains kv.1
          kept.map fun kv => (linkBatch index.2 kv.2).candidate
      else some ((mergeUserinfo script dataset m acc).map fun kv => Bucket.candidate kv.2)

end

theorem get?_addAttribute (bucket : Bucket) (attr val : String) {name : String}
    (h : name ∉ ["password", "password_scheme", "expire_at", "mac"]) :
    (bucket.addAttribute attr val).get? name = bucket.get? name := by
  simp only [List.mem_cons, List.not_mem_nil, or_false, not_or] at h
  obtain ⟨hpassword, hscheme, hexpire, hmac⟩ := h
  unfold Bucket.addAttribute
  split
  · rw [Dict.get?_keep (by simpa using hscheme), Dict.get?_put, if_neg (Ne.symm hpassword)]
  split
  · split
    · rw [Dict.get?_put, if_neg (Ne.symm hscheme), Dict.get?_put, if_neg (Ne.symm hpassword)]
    · rfl
  split
  · rw [Dict.get?_put, if_neg (Ne.symm hexpire)]
  split
  · rw [Dict.get?_put, if_neg (Ne.symm hmac)]
  · rfl

structure SoundBuckets (acc : Dict String Bucket) : Prop where
  nodup : (acc.map Prod.fst).Nodup
  named : ∀ u b, acc.get? u = some b → b.get? "username" = some u

def BlockedIn (acc : Dict String Bucket) (user : String) : Prop :=
  ∃ b, acc.get? user = some b ∧ b.get? "status" = some "disabled"

section
variable {acc : Dict String Bucket} {user u : String} {b : Bucket}

theorem SoundBuckets.put (h : SoundBuckets acc) (hb : b.get? "username" = some u) :
    SoundBuckets (acc.put u b) where
  nodup := Dict.nodup_put h.nodup u b
  named v b' hget := by
    rw [Dict.get?_put] at hget
    split_ifs at hget with heq
    · rw [← Option.some_inj.mp hget, hb, heq]
    · exact h.named v b' hget

theorem SoundBuckets.get?_username (h : SoundBuckets acc) (u : String) :
    Dict.get? ((acc.get? u).getD [("username", u)]) "username" = some u := by
  cases hget : acc.get? u with
  | none => simp [Dict.get?]
  | some b => exact h.named u b hget

theorem BlockedIn.put (h : BlockedIn acc user)
    (hb : u = user → ∀ old, acc.get? user = some old → old.get? "status" = some "disabled" →
      b.get? "status" = some "disabled") : BlockedIn (acc.put u b) user := by
  obtain ⟨old, hget, hstatus⟩ := h
  by_cases heq : u = user
  · exact ⟨b, by rw [Dict.get?_put, if_pos heq], hb heq old hget hstatus⟩
  · exact ⟨old, by rw [Dict.get?_put, if_neg heq, hget], hstatus⟩

variable {script : Script} {cols : PivotColumns} {row : Record}

theorem pivotBucket_username (b : Bucket) :
    (pivotBucket script cols row b).get? "username" = b.get? "username" := by
  rw [pivotBucket, get?_addAttribute _ _ _ (by decide)]
  split
  · rw [Dict.get?_put, if_neg (by decide)]
  · rfl

theorem pivotBucket_status (b : Bucket) : (pivotBucket script cols row b).get? "status" =
    if cols.rowBlocked row then some "disabled" else b.get? "status" := by
  rw [pivotBucket, get?_addAttribute _ _ _ (by decide)]
  split
  · rw [Dict.get?_put, if_pos rfl]
  · rfl

theorem pivotRow_sound (h : SoundBuckets acc) : SoundBuckets (pivotRow script cols acc row) := by
  unfold pivotRow
  dsimp only
  split_ifs
  · exact h
  · refine h.put ?_
    rw [pivotBucket_username]
    exact h.get?_username _

theorem pivotRow_blocked (h : BlockedIn acc user) :
    BlockedIn (pivotRow script cols acc row) user := by
  unfold pivotRow
  dsimp only
  split_ifs
  · exact h
  · refine h.put fun heq old hget hstatus => ?_
    rw [pivotBucket_status, heq, hget, Option.getD_some, hstatus, ite_self]

theorem pivotRow_ofUser (huser : cols.ofUser row user) : pivotRow script cols acc row =
    acc.put user (pivotBucket script cols row ((acc.get? user).getD [("username", user)])) := by
  obtain ⟨rfl, hne, hwanted⟩ := huser
  rw [pivotRow, if_neg (by simp [hne, hwanted])]

theorem pivotRow_of_rowBlocked (huser : cols.ofUser row user) (hrow : cols.rowBlocked row = true) :
    BlockedIn (pivotRow script cols acc row) user := by
  rw [pivotRow_ofUser huser]
  exact ⟨_, by rw [Dict.get?_put, if_pos rfl], by rw [pivotBucket_status, if_pos hrow]⟩

theorem get?_keepFirst (b : Bucket) {name key : String} (h : name ≠ key) (val : String) :
    (b.keepFirst name val).get? key = b.get? key := by
  unfold Bucket.keepFirst
  split_ifs
  · rw [Dict.get?_put, if_neg h]
  · rfl

theorem get?_groupBucket {cols : GroupColumns} (b : Bucket) {key : String}
    (hplan : "plan" ≠ key) (hcard : "_id_card" ≠ key) :
    (groupBucket cols row b).get? key = b.get? key := by
  rw [groupBucket, get?_keepFirst _ hcard, get?_keepFirst _ hplan]

theorem groupRow_sound {cols : GroupColumns} (h : SoundBuckets acc) :
    SoundBuckets (groupRow cols acc row) := by
  unfold groupRow
  dsimp only
  split
  · exact h
  · rename_i b hget
    split_ifs
    · exact h
    · refine h.put ?_
      rw [get?_groupBucket _ (by decide) (by decide)]
      exact h.named _ b hget

theorem groupRow_blocked {cols : GroupColumns} (h : BlockedIn acc user) :
    BlockedIn (groupRow cols acc row) user := by
  unfold groupRow
  dsimp only
  split
  · exact h
  · rename_i b hget
    split_ifs
    · exact h
    · refine h.put fun heq old hold hstatus => ?_
      rw [heq, hold] at hget
      obtain rfl := Option.some_inj.mp hget
      rw [get?_groupBucket _ (by decide) (by decide)]
      exact hstatus

theorem get?_fillField {managers : Dict String String} {b : Bucket} {key val : String}
    (hb : b.get? key = some val) (hval : val ≠ "") (field : String × String) :
    (fillField script managers row b field).get? key = some val := by
  have hput : ∀ name v, b.filled name = false → Dict.get? (b.put name v) key = some val := by
    intro name v hfilled
    have hne : name ≠ key := by
      rintro rfl
      simp [Bucket.filled, hb, hval] at hfilled
    rw [Dict.get?_put, if_neg hne, hb]
  unfold fillField
  dsimp only
  split_ifs with hskip hmanager
  · exact hb
  · obtain ⟨hname, -⟩ := Bool.and_eq_true_iff.mp hmanager
    simp only [Bool.or_eq_true, not_or, Bool.not_eq_true] at hskip
    have hfilled : b.filled "manager" = false := by
      rw [← of_decide_eq_true hname]
      exact hskip.2
    split
    · split_ifs
      · exact hb
      · exact hput _ _ hfilled
    · exact hb
  · simp only [Bool.or_eq_true, not_or, Bool.not_eq_true] at hskip
    exact hput _ _ hskip.2

theorem get?_foldl_fillField {managers : Dict String String} {b : Bucket} {key val : String}
    (hb : b.get? key = some val) (hval : val ≠ "") (fields : Dict String String) :
    Dict.get? (fields.foldl (fillField script managers row) b) key = some val :=
  Run.run_always (I := fun b => Dict.get? b key = some val)
    (fun _ field hb => get?_fillField hb hval field) hb

theorem userinfoRow_sound {managers fields : Dict String String} {userCol : String}
    (h : SoundBuckets acc) :
    SoundBuckets (userinfoRow script managers fields userCol acc row) := by
  unfold userinfoRow
  dsimp only
  split_ifs with hu
  · exact h
  · exact h.put (get?_foldl_fillField (h.get?_username _) hu fields)

theorem userinfoRow_blocked {managers fields : Dict String String} {userCol : String}
    (h : BlockedIn acc user) :
    BlockedIn (userinfoRow script managers fields userCol acc row) user := by
  unfold userinfoRow
  dsimp only
  split_ifs
  · exact h
  · refine h.put fun heq old hget hstatus => ?_
    rw [heq, hget, Option.getD_some]
    exact get?_foldl_fillField hstatus (by decide) fields

end

section
variable {script : Script} {dataset : SourceDataset} {m : SectionMatch} {radcheck : SourceTable}
  {acc : Dict String Bucket} {user : String}

theorem groupedBuckets_sound : SoundBuckets (groupedBuckets script dataset m radcheck) := by
  have hempty : SoundBuckets [] := ⟨List.nodup_nil, fun u b h => by cases h⟩
  have hrows : SoundBuckets (radcheck.rows.foldl
      (pivotRow script (pivotColumns script radcheck m (isCardsMatch m))) []) :=
    Run.run_always (fun _ _ h => pivotRow_sound h) hempty
  unfold groupedBuckets
  dsimp only
  split
  · exact hrows
  · exact Run.run_always (fun _ _ h => groupRow_sound h) hrows

theorem mergeUserinfo_sound (h : SoundBuckets acc) :
    SoundBuckets (mergeUserinfo script dataset m acc) := by
  unfold mergeUserinfo
  dsimp only
  split
  · exact h
  · split_ifs
    · exact h
    · exact Run.run_always (fun _ _ h => userinfoRow_sound h) h

theorem mergeUserinfo_blocked (h : BlockedIn acc user) :
    BlockedIn (mergeUserinfo script dataset m acc) user := by
  unfold mergeUserinfo
  dsimp only
  split
  · exact h
  · split_ifs
    · exact h
    · exact Run.run_always (I := fun acc => BlockedIn acc user)
        (fun _ _ h => userinfoRow_blocked h) h

theorem groupedBuckets_blocked {row : Record} (hrow : row ∈ radcheck.rows)
    (huser : (pivotColumns script radcheck m (isCardsMatch m)).ofUser row user)
    (hblocked : (pivotColumns script radcheck m (isCardsMatch m)).rowBlocked row = true) :
    BlockedIn (groupedBuckets script dataset m radcheck) user := by
  set cols := pivotColumns script radcheck m (isCardsMatch m)
  have hrows : BlockedIn (radcheck.rows.foldl (pivotRow script cols) []) user := by
    obtain ⟨before, after, hsplit⟩ := List.append_of_mem hrow
    rw [hsplit, List.foldl_append, List.foldl_cons]
    exact Run.run_always (I := fun acc => BlockedIn acc user) (fun _ _ h => pivotRow_blocked h)
      (pivotRow_of_rowBlocked huser hblocked)
  unfold groupedBuckets
  dsimp only
  split
  · exact hrows
  · exact Run.run_always (I := fun acc => BlockedIn acc user) (fun _ _ h => groupRow_blocked h)
      hrows

theorem lookup_candidate (b : Bucket) (name : String) :
    b.candidate.fields.lookup name = (b.get? name).map Json.str := by
  induction b with
  | nil => rfl
  | cons kv b ih =>
    obtain ⟨k, v⟩ := kv
    change List.lookup name ((k, Json.str v) :: (Bucket.candidate b).fields) = _
    rw [List.lookup_cons, ih, Dict.get?]
    by_cases hk : k = name
    · simp [hk]
    · rw [if_neg hk, beq_false_of_ne (Ne.symm hk)]

theorem Bucket.text_candidate {b : Bucket} {name val : String} (h : b.get? name = some val) :
    b.candidate.text name = val := by
  rw [Candidate.text, Candidate.field, lookup_candidate, h]
  rfl

end

/-- The candidate is of a user with a marked row in `radcheck`. -/
def Flagged (script : Script) (c : Candidate) : Prop :=
  ∃ dataset m radcheck cs, ∃ row ∈ radcheck.rows,
    isCardsMatch m = false ∧ SourceDataset.table dataset m.sourceTable = some radcheck ∧
    buildFreeradiusPivot script dataset m = some cs ∧ c ∈ cs ∧
    (pivotColumns script radcheck m false).ofUser row (c.text "username") ∧
    (pivotColumns script radcheck m false).rowBlocked row = true

theorem Flagged.status {script : Script} {c : Candidate} (h : Flagged script c) :
    c.text "status" = "disabled" := by
  obtain ⟨dataset, m, radcheck, cs, row, hrow, hm, htable, hpivot, hc, huser, hblocked⟩ := h
  simp only [buildFreeradiusPivot, htable, hm, Bool.false_eq_true, if_false] at hpivot
  split_ifs at hpivot with hcols
  · obtain rfl := Option.some_inj.mp hpivot
    cases hc
  · obtain rfl := Option.some_inj.mp hpivot
    set acc := groupedBuckets script dataset m radcheck
    have hsound : SoundBuckets (mergeUserinfo script dataset m acc) :=
      mergeUserinfo_sound groupedBuckets_sound
    obtain ⟨kv, hkv, rfl⟩ := List.mem_map.mp hc
    have hget := Dict.get?_of_mem hsound.nodup hkv
    have hname := Bucket.text_candidate (hsound.named _ _ hget)
    rw [hname] at huser
    rw [← hm] at huser hblocked
    have hin : BlockedIn (mergeUserinfo script dataset m acc) kv.1 :=
      mergeUserinfo_blocked (groupedBuckets_blocked hrow huser hblocked)
    obtain ⟨b, hb, hstatus⟩ := hin
    rw [hget] at hb
    obtain rfl := Option.some_inj.mp hb
    exact Bucket.text_candidate hstatus

end RadiusModule.Migration
