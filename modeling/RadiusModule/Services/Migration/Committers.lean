import RadiusModule.Library.Dict
import RadiusModule.Services.Migration.Sections
import RadiusModule.Services.Migration.Target

/-!
# Committers

Each section has a committer, which writes one candidate or, on a dry run,
only says what it would do. The numbers of parents are kept by normalized key
in a map, where a dry run puts placeholders.
-/

namespace RadiusModule.Migration
open Library PyText

inductive Signal
  | disabled
  | expired
  | enabled
  | silent
deriving DecidableEq

structure PlanAttrs where
  price : Option PyFloat := none
  speedDownKbps : Option ℤ := none
  speedUpKbps : Option ℤ := none
  quotaTotalMb : Option ℤ := none
  validityDays : Option ℤ := none

/-- The readers of single values, the clock, and what an import writes beside the source's values.
A reader of a speed, a size or a duration gives `none` where it raises, `some none` where the text
is not read. -/
structure Readers extends Script where
  money : String → Option PyFloat
  speed : String → Option (Option ℤ)
  dataSize : String → Option (Option ℤ)
  durationDays : String → Option (Option ℤ)
  date : String → Option ℤ
  macs : String → List String
  connectionSchedule : String → String → String → String → String
  workingDays : String → String
  signal : String → Signal
  splitList : Json → List String
  metadata : Candidate → String
  now : ℤ
  token : String
  actor : String

def latinReaders : Readers where
  toScript := latin
  money := fun _ => none
  speed := fun _ => some none
  dataSize := fun _ => some none
  durationDays := fun _ => some none
  date := fun _ => none
  macs := fun _ => []
  connectionSchedule := fun _ _ _ _ => ""
  workingDays := fun _ => ""
  signal := fun _ => .silent
  splitList := fun _ => []
  metadata := fun _ => ""
  now := 0
  token := ""
  actor := "migration"

abbrev Keys := Dict String ℤ

/-- `container` is what `_meta` says of the batch for cards without one: its number, which is -1 on
a dry run, and the plan. -/
structure IdMap where
  keys : Section → Keys
  container : Option (ℤ × ℤ) := none

structure State where
  db : Target
  ids : IdMap

namespace State

def write (s : State) (db : Target) : State := { s with db := db }

def assign (s : State) (sect : Section) (key : String) (id : ℤ) : State :=
  { s with ids := { s.ids with
      keys := Function.update s.ids.keys sect ((s.ids.keys sect).put key id) } }

def placeholder (s : State) (sect : Section) : ℤ := 1000000000 + (s.ids.keys sect).length + 1

def known (s : State) (sect : Section) (key : String) : Option ℤ :=
  ((s.ids.keys sect).get? key).filter fun v => 0 < v

end State

/-- A `_SkipRow` counts as skipped, any other exception as failed. -/
inductive Outcome
  | created
  | merged
  | skipped
  | failed
deriving DecidableEq, Repr

def Outcome.found (mode : Mode) : Outcome := if mode = .skip then .skipped else .merged

section
variable (r : Readers) (dryRun : Bool)

def resolve (s : State) (sect : Section) (rawValue : String) : Option ℤ :=
  let key := normKey r.toScript rawValue
  if key = "" then none else s.known sect key

/-- `_resolve_password`: a hashed password is not stored. -/
def resolvePassword (c : Candidate) : String :=
  if c.has "password_scheme" then "" else c.textOr "password"

/-- `_to_int`; a number past all bounds is an exception. -/
def toInt? (v : String) : Option ℤ :=
  let s := String.ofList ((strip v).toList.filter fun c => c ≠ ',')
  if s = "" then some 0
  else match intOfFloat s with
    | .ok n => some n
    | .error .value => some 0
    | .error .overflow => none

def toFloat (v : String) : PyFloat :=
  let s := String.ofList ((strip v).toList.filter fun c => c ≠ ',')
  (FloatText.float? s).getD (.finite 0)

def commitRole (mode : Mode) (key : String) (c : Candidate) (s : State) : Outcome × State :=
  let name := strip (c.text "name")
  match s.db.roleByName name with
  | some existing =>
    let s := s.assign .roles key existing.id
    if mode = .skip || dryRun then (.found mode, s)
    else
      let perms := r.splitList (c.field "permissions")
      (.merged, if perms = [] then s else s.write (s.db.updateRole existing.id perms))
  | none =>
    if dryRun then (.created, s.assign .roles key (s.placeholder .roles))
    else
      let displayName := if c.has "display_name" then c.text "display_name" else name
      let id := s.db.roles.next
      let db := s.db.createRole name displayName (r.splitList (c.field "permissions"))
      (.created, (s.write db).assign .roles key id)

def Candidate.given (c : Candidate) (name : String) : Option String :=
  if c.has name then some (c.text name) else none

def commitManager (mode : Mode) (key : String) (c : Candidate) (s : State) : Outcome × State :=
  let username := strip (c.text "username")
  let roleId := resolve r s .roles (c.textOr "role")
  match s.db.adminByUsername username with
  | some existing =>
    let s := s.assign .managers key existing.id
    if mode = .skip || dryRun then (.found mode, s)
    else
      let changes : Target.AdminChanges :=
        ⟨c.given "full_name", c.given "email", c.given "mobile", roleId⟩
      (.merged, s.write (s.db.updateAdmin existing.id changes))
  | none =>
    if dryRun then (.created, s.assign .managers key (s.placeholder .managers))
    else
      let pw := c.textOr "password"
      let pw := if pw = "" || c.has "password_scheme" then r.token else pw
      let id := s.db.admins.next
      let db := s.db.createAdmin username pw (c.textOr "full_name") (c.textOr "email")
        (c.textOr "mobile") roleId
      (.created, (s.write db).assign .managers key id)

def commitDistributor (mode : Mode) (key : String) (c : Candidate) (s : State) :
    Outcome × State :=
  let name := strip (c.text "name")
  let mgr := strip (c.textOr "manager")
  let adminId : Option ℤ :=
    if mgr = "" then none else (s.db.adminByUsername mgr).map fun a => (a.id : ℤ)
  match s.db.distributorByName name with
  | some row =>
    let s := s.assign .distributors key row.id
    if mode = .skip || dryRun then (.found mode, s)
    else (.merged, s.write (s.db.updateDistributor row.id (c.textOr "display_name")
      (c.textOr "email") (c.textOr "phone")))
  | none =>
    if dryRun then (.created, s.assign .distributors key (s.placeholder .distributors))
    else
      let d : Distributor := ⟨0, name, adminId, c.textOr "display_name", c.textOr "email",
        c.textOr "phone", toFloat (c.text "balance"), toFloat (c.text "credit_limit"), r.actor⟩
      let id := s.db.distributors.next
      (.created, (s.write (s.db.insertDistributor d)).assign .distributors key id)

def planAttrs (c : Candidate) : Option PlanAttrs := do
  let down ← r.speed (if c.has "speed_down" then c.text "speed_down" else c.textOr "speed")
  let up ← r.speed (c.textOr "speed_up")
  let q ← r.dataSize (c.textOr "data_quota")
  let d ← r.durationDays (c.textOr "validity_days")
  return ⟨r.money (c.textOr "price"), down, up, q, d⟩

def PlanAttrs.apply (attrs : PlanAttrs) (p : Plan) : Plan :=
  { p with
    price := attrs.price.getD p.price
    speedDownKbps := attrs.speedDownKbps.getD p.speedDownKbps
    speedUpKbps := attrs.speedUpKbps.getD p.speedUpKbps
    quotaTotalMb := attrs.quotaTotalMb.getD p.quotaTotalMb
    validityDays := attrs.validityDays.getD p.validityDays }

def commitPlan (mode : Mode) (key : String) (c : Candidate) (s : State) : Outcome × State :=
  let name := strip (c.text "name")
  match planAttrs r c with
  | none => (.failed, s)
  | some attrs =>
    match s.known .plans key with
    | some existingId =>
      if mode = .skip || dryRun then (.found mode, s)
      else match s.db.plan existingId with
        | some p => (.merged, s.write (s.db.updatePlan p.id attrs.apply fun _ => rfl))
        | none => (.merged, s)
    | none =>
      if dryRun then (.created, s.assign .plans key (s.placeholder .plans))
      else
        let id := s.db.plans.next
        let db := s.db.insertPlan (attrs.apply { id := 0, name := name })
        (.created, (s.write db).assign .plans key id)

structure Counting where
  fromFirstConnect : Bool
  bySeconds : Bool
  time : Option (ℤ × String)

def Counting.apply (k : Counting) (b : Batch) : Batch :=
  { b with
    countFromFirstConnect := k.fromFirstConnect
    countBySeconds := k.bySeconds
    timeValue := (k.time.map Prod.fst).getD b.timeValue
    timeUnit := (k.time.map Prod.snd).getD b.timeUnit }

def Candidate.present (c : Candidate) (name : String) : Bool := (c.fields.lookup name).isSome

def Candidate.notNone (c : Candidate) (name : String) : Bool :=
  match c.fields.lookup name with
  | none => false
  | some .null => false
  | some _ => true

/-- `bool(c.fields.get(name, default))` -/
def Candidate.flag (c : Candidate) (name : String) (default : Bool) : Bool :=
  if c.present name then c.has name else default

def timeUnit (c : Candidate) : String :=
  let unit := strip (if c.has "time_unit" then c.text "time_unit" else "days")
  if unit = "" then "days" else unit

def commitBatch (mode : Mode) (key : String) (c : Candidate) (s : State) : Outcome × State :=
  let name := strip (c.text "name")
  let planId := resolve r s .plans (c.textOr "plan")
  match toInt? (c.text "time_value") with
  | none => (.failed, s)
  | some timeValue =>
    let counting : Counting := ⟨c.flag "count_from_first_connect" true,
      c.flag "count_by_seconds" false,
      if c.notNone "time_value" then some (timeValue, timeUnit c) else none⟩
    let hasAccounting := c.present "count_from_first_connect" || c.notNone "time_value"
    match s.known .batches key with
    | some existingId =>
      (.found mode, if mode ≠ .skip && !dryRun && hasAccounting then
        s.write (s.db.updateBatch existingId counting.apply fun _ => rfl) else s)
    | none =>
      match planId with
      | none => (.skipped, s)
      | some planId =>
        if dryRun then (.created, s.assign .batches key (s.placeholder .batches))
        else
          let mgrLogin := strip (c.textOr "manager")
          let manager : Option Admin :=
            if mgrLogin = "" || mgrLogin.toList.all r.isDigit then none
            else s.db.adminByUsername mgrLogin
          match toInt? (c.text "count") with
          | none => (.failed, s)
          | some count =>
            let id := s.db.batches.next
            let batch : Batch := {
              id := 0
              packageName := name
              planId := planId
              count := count
              pricePerCard := toFloat (c.text "price")
              managerId := (manager.map fun a => (a.id : ℤ)).getD 0
              createdBy := if manager.isSome then mgrLogin else r.actor
              countFromFirstConnect := counting.fromFirstConnect
              countBySeconds := counting.bySeconds
              timeValue := timeValue
              timeUnit := timeUnit c }
            (.created, (s.write (s.db.createBatch batch)).assign .batches key id)

/-- `_ensure_manager`: a number is no name of a manager. -/
def ensureManager (rawName : String) (s : State) : Option ℤ × State :=
  let name := strip rawName
  let key := normKey r.toScript name
  if key = "" then (none, s)
  else match s.known .managers key with
    | some hit => (some hit, s)
    | none =>
      if name.toList.all r.isDigit then (none, s)
      else if dryRun then
        (some (s.placeholder .managers), s.assign .managers key (s.placeholder .managers))
      else match s.db.adminByUsername name with
        | some existing => (some existing.id, s.assign .managers key existing.id)
        | none =>
          let id := s.db.admins.next
          let db := s.db.createAdmin name r.token name "" "" none
          (some id, (s.write db).assign .managers key id)

def usedSeconds? (raw : String) : Option ℤ :=
  let s := strip raw
  if s = "" then some 0
  else if s.toList.contains ':' then
    some (match (split s ':').mapM int? with
      | some [h, m, sec] => h * 3600 + m * 60 + sec
      | some [h, m] => h * 3600 + m * 60
      | some [n] => n
      | _ => 0)
  else match intOfFloat s with
    | .ok n => some n
    | .error .value => some 0
    | .error .overflow => none

def deriveStatus (signal : Signal) (expireAt : Option ℤ) (now : ℤ) : String :=
  match signal with
  | .disabled => "disabled"
  | .expired => "expired"
  | _ => if expireAt.any (fun e => e < now) then "expired" else "enabled"

structure Profile where
  password : String
  planId : Option ℤ
  managerId : Option ℤ
  balance : Option PyFloat
  expireAt : Option ℤ
  usedSeconds : ℤ
  signal : Signal
  texts : TextColumn → String

def profileTexts (c : Candidate) : TextColumn → String :=
  let macs := r.macs (c.textOr "mac")
  let csv := String.intercalate "," macs
  let schedule := r.connectionSchedule (c.textOr "sched_days") (c.textOr "sched_by_time")
    (c.textOr "sched_from") (c.textOr "sched_to")
  fun
  | .fullName => c.textOr "full_name"
  | .fatherName => c.textOr "father_name"
  | .mobile => c.textOr "mobile"
  | .email => c.textOr "email"
  | .staticIp => c.textOr "static_ip"
  | .address => c.textOr "address"
  | .callerId => macs.headD ""
  | .macLock => csv
  | .allowedMacs => csv
  | .connectionSchedule => schedule
  | .workingDays => if schedule = "" then "" else r.workingDays schedule
  | .remark => c.textOr "notes"

def reconciledStatus (p : Profile) (now : ℤ) (status : String) : String :=
  let derived := deriveStatus p.signal p.expireAt now
  let existing := if status = "" then "enabled" else status
  if derived = "disabled" then "disabled"
  else if existing = "disabled" then status
  else if derived = "expired" then "expired"
  else if existing = "expired" then
    if p.signal = .enabled || p.expireAt.any (fun e => now < e) then "enabled" else status
  else "enabled"

def Profile.mergedTexts (p : Profile) (old : TextColumn → String) : TextColumn → String
  | .workingDays =>
    if p.texts .connectionSchedule = "" then old .workingDays else p.texts .workingDays
  | column => if p.texts column = "" then old column else p.texts column

def Profile.merge (p : Profile) (now : ℤ) (existing : Account) : Account :=
  { existing with
    password := if p.password = "" then existing.password else p.password
    planId := p.planId.or existing.planId
    managerId := p.managerId.or existing.managerId
    status := reconciledStatus p now existing.status
    balance := p.balance.getD existing.balance
    expireAt := p.expireAt.or existing.expireAt
    usedSeconds := if p.usedSeconds = 0 then existing.usedSeconds else p.usedSeconds
    texts := p.mergedTexts existing.texts }

def Profile.account (p : Profile) (now : ℤ) (username metadata : String) : Account where
  id := 0
  username := username
  password := p.password
  planId := p.planId
  managerId := p.managerId
  status := deriveStatus p.signal p.expireAt now
  balance := p.balance.getD (.finite 0)
  expireAt := p.expireAt
  usedSeconds := p.usedSeconds
  texts := p.texts
  metadata := metadata

def commitSubscriber (mode : Mode) (key : String) (c : Candidate) (s : State) : Outcome × State :=
  let username := strip (c.text "username")
  let planId := resolve r s .plans (c.textOr "plan")
  let (managerId, s) := ensureManager r dryRun (c.textOr "manager") s
  match usedSeconds? (c.textOr "used_time") with
  | none => (.failed, s)
  | some used =>
    let p : Profile := ⟨resolvePassword c, planId, managerId, r.money (c.textOr "balance"),
      r.date (c.textOr "expire_at"), used, r.signal (c.text "status"), profileTexts r c⟩
    match s.db.subscriber username with
    | some existing =>
      let s := s.assign .subscribers key existing.id
      if mode = .skip || dryRun then (.found mode, s)
      else (.merged, s.write (s.db.upsertSubscriber (p.merge r.now existing)))
    | none =>
      if dryRun then (.created, s.assign .subscribers key (s.placeholder .subscribers))
      else
        let s := s.write (s.db.upsertSubscriber (p.account r.now username (r.metadata c)))
        let saved := s.db.subscriber username
        (.created, s.assign .subscribers key ((saved.map fun a => (a.id : ℤ)).getD 0))

def importBatchName : String := "كروت مستورَدة"

def importPlanName : String := "باقة مستورَدة"

def defaultPlan (s : State) : ℤ × State :=
  match (s.ids.keys .plans).find? fun kv => 0 < kv.2 with
  | some kv => (kv.2, s)
  | none =>
    let key := normKey r.toScript importPlanName
    if dryRun then
      let id := s.placeholder .plans
      (id, s.assign .plans key id)
    else
      let id := s.db.plans.next
      (id, (s.write (s.db.insertPlan { id := 0, name := importPlanName })).assign .plans key id)

def ensureImportCardBatch (s : State) : (ℤ × ℤ) × State :=
  match s.ids.container with
  | some container => (container, s)
  | none =>
    let (plan, s) := defaultPlan r dryRun s
    let key := normKey r.toScript importBatchName
    let keep (id : ℤ) (s : State) : (ℤ × ℤ) × State :=
      ((id, plan), { s with ids := { s.ids with container := some (id, plan) } })
    match s.known .batches key with
    | some existingId => keep existingId s
    | none =>
      if dryRun then keep (-1) s
      else
        let id := s.db.batches.next
        let db := s.db.createBatch {
          id := 0, packageName := importBatchName, planId := plan, createdBy := r.actor }
        keep id ((s.write db).assign .batches key id)

def mergeCard (password : String) (planId batchId : Option ℤ) (card : ImportedCard) :
    ImportedCard :=
  { card with
    password := if password = "" then card.password else password
    planId := planId.getD card.planId
    batchId := batchId.getD card.batchId }

def commitCard (mode : Mode) (key : String) (c : Candidate) (s : State) : Outcome × State :=
  let username := strip (c.text "username")
  let password := resolvePassword c
  let planId := resolve r s .plans (c.textOr "plan")
  let realBatch := resolve r s .batches (c.textOr "batch")
  match s.known .cards key with
  | some existingId =>
    if mode = .skip || dryRun then (.found mode, s)
    else (.merged, s.write
      (s.db.updateCard existingId (mergeCard password planId realBatch) fun _ => rfl))
  | none =>
    let ((batchId, cardPlan), s) := match realBatch, planId with
      | some b, some p => ((b, p), s)
      | _, _ =>
        let ((b, p), s) := ensureImportCardBatch r dryRun s
        ((b, planId.getD p), s)
    if batchId = 0 || cardPlan = 0 then (.skipped, s)
    else if dryRun then (.created, s.assign .cards key (s.placeholder .cards))
    else
      let id := s.db.cards.next
      let db := s.db.insertCard
        ⟨0, username, password, cardPlan, batchId, r.date (c.textOr "expire_at"), false⟩
      (.created, (s.write db).assign .cards key id)

def commitOne (sect : Section) : Mode → String → Candidate → State → Outcome × State :=
  match sect with
  | .roles => commitRole r dryRun
  | .managers => commitManager r dryRun
  | .distributors => commitDistributor r dryRun
  | .plans => commitPlan r dryRun
  | .batches => commitBatch r dryRun
  | .subscribers => commitSubscriber r dryRun
  | .cards => commitCard r dryRun

end

end RadiusModule.Migration
