import RadiusModule.Library.FloatText
import RadiusModule.Services.Migration.SourceTables

/-!
# Series of cards

The rows of `card_users` are series of cards that were made together. A series
becomes a batch under a name: the one most of its records carry, or else its
year and number, or else its id. A name whose budget is another's is told apart
by the year and number. A reader that meets an infinite number raises.
-/

namespace RadiusModule.Migration
open Library PyText

abbrev Budget := ℤ × String

/-- `int(float(s))` under an `except (TypeError, ValueError)`; `none` where it raises yet. -/
def amount? (s : String) : Option (Option ℤ) :=
  match intOfFloat s with
  | .ok n => some (some n)
  | .error .value => some none
  | .error .overflow => none

def secondsToValueUnit (s : ℤ) : Budget :=
  if s ≤ 0 then (0, "")
  else if s % 86400 = 0 then (s / 86400, "days")
  else if s % 3600 = 0 then (s / 3600, "hours")
  else if s % 60 = 0 then (s / 60, "minutes")
  else (s, "seconds")

section
variable (script : Script)

def iscardUsernames (dataset : SourceDataset) : List String :=
  let eav (t : SourceTable) : Bool :=
    let cols := t.columns.map (normKey script)
    ["username", "attribute", "value"].all cols.contains &&
      ["is_card", "iscard"].any cols.contains
  match (tableBy script dataset "radcheck").or (dataset.tables.find? eav) with
  | none => []
  | some rc =>
    let ucol := findColumn script rc.columns ["username", "user", "user_name"]
    let icol := findColumn script rc.columns ["is_card", "iscard", "is_voucher"]
    if ucol = "" || icol = "" then []
    else
      let cards := rc.rows.filter fun r => ["1", "yes", "true", "y"].contains (lower (r.text icol))
      (cards.map fun r => r.text ucol).filter fun u => u ≠ ""

/-- `Counter.most_common(1)`: the first of the names that were counted most. -/
def mostCommon : Dict String ℕ → Option (String × ℕ)
  | [] => none
  | kv :: counts =>
    match mostCommon counts with
    | none => some kv
    | some best => if kv.2 < best.2 then some best else some kv

def countName (counts : Dict (String × String) (Dict String ℕ)) (series : String × String)
    (name : String) : Dict (String × String) (Dict String ℕ) :=
  let names := (counts.get? series).getD []
  counts.put series (names.put name ((names.get? name).getD 0 + 1))

def advSeriesNameMap (dataset : SourceDataset) : Dict (String × String) String :=
  match tableBy script dataset "rep_cards" with
  | none => []
  | some rep =>
    let ycol := findColumn script rep.columns ["year"]
    let ncol := findColumn script rep.columns ["num_ser", "numser"]
    let nmcol := findColumn script rep.columns ["name_ser", "nameser", "name"]
    if ycol = "" || ncol = "" || nmcol = "" then []
    else
      let named := rep.rows.filter fun r =>
        r.text nmcol ≠ "" && !isDigitText script (r.text nmcol)
      let counts := named.foldl
        (fun counts r => countName counts (r.text ycol, r.text ncol) (r.text nmcol)) []
      counts.filterMap fun kv => (mostCommon kv.2).map fun best => (kv.1, best.1)

def profileTables : List String := ["profiles", "access_plans", "plans", "packages", "products"]

def sourceProfileMap (dataset : SourceDataset) : Dict String String :=
  (tablesNamed script dataset profileTables).foldl
    (fun out t =>
      let idcol := findColumn script t.columns ["id"]
      let namecol := findColumn script t.columns
        ["profile_name", "name", "plan_name", "package_name", "title"]
      if idcol = "" || namecol = "" then out
      else t.rows.foldl
        (fun out r =>
          let nm := r.text namecol
          if r.text idcol ≠ "" && nm ≠ "" && !isDigitText script nm then
            out.put (r.text idcol) nm
          else out) out) []

def sourceManagerMap (dataset : SourceDataset) : Dict String String :=
  (tablesNamed script dataset ["managers", "a_s_manager", "admins", "manager", "operators"]).foldl
    (fun out t =>
      let idcol := findColumn script t.columns ["id"]
      let logincol := findColumn script t.columns
        ["user_manager", "username", "login", "user", "name", "manager"]
      if idcol = "" || logincol = "" then out
      else t.rows.foldl
        (fun out r =>
          let lg := r.text logincol
          if r.text idcol ≠ "" && lg ≠ "" && !isDigitText script lg then
            out.put (r.text idcol) lg
          else out) out) []

def keepSeconds (out : Dict String ℤ) (key text : String) : Option (Dict String ℤ) :=
  if key = "" || (out.get? key).isSome then some out
  else (amount? text).map fun secs =>
    match secs with
    | some secs => if 0 < secs then out.put key secs else out
    | none => out

def sourceProfileSessionSeconds (dataset : SourceDataset) : Option (Dict String ℤ) :=
  (tablesNamed script dataset profileTables).foldlM
    (fun out t =>
      let idcol := findColumn script t.columns ["id"]
      let scol := findColumn script t.columns
        ["session_time", "session_timeout", "sess_time", "login_time", "time_after_login",
          "usage_time", "first_login_time", "exp_after_login"]
      if idcol = "" || scol = "" then some out
      else t.rows.foldlM (fun out r => keepSeconds out (r.text idcol) (r.text scol)) out) []

def sessionTimeAttrs : List String := ["session timeout", "max all session", "max daily session"]

def sourceGroupSessionSeconds (dataset : SourceDataset) : Option (Dict String ℤ) :=
  match tableBy script dataset "radgroupreply" with
  | none => some []
  | some gr =>
    let gcol := findColumn script gr.columns ["groupname", "group_name", "group"]
    let acol := findColumn script gr.columns ["attribute", "attr"]
    let vcol := findColumn script gr.columns ["value", "val"]
    if gcol = "" || acol = "" || vcol = "" then some []
    else gr.rows.foldlM
      (fun out r =>
        let grp := normKey script (r.get gcol)
        if !sessionTimeAttrs.contains (normKey script (r.get acol)) || grp = "" then some out
        else (amount? (r.text vcol)).map fun secs =>
          match secs with
          | some secs => if 0 < secs && (out.get? grp).isNone then out.put grp secs else out
          | none => out) []

/-- The columns of `card_users`; a column that is not there is empty. -/
structure SeriesColumns where
  id : String
  year : String
  num : String
  profile : String
  price : String
  createdBy : String
  dateEnd : String
  valDate : String
  atFirstLogin : String
  perSecond : String

def seriesColumns (columns : List String) : SeriesColumns where
  id := findColumn script columns ["id"]
  year := findColumn script columns ["year"]
  num := findColumn script columns ["num_ser", "numser"]
  profile := findColumn script columns ["profile", "profile_id"]
  price := findColumn script columns ["price"]
  createdBy := findColumn script columns ["created_by", "createdby", "creation_by"]
  dateEnd := findColumn script columns ["date_end_card"]
  valDate := findColumn script columns ["val_date"]
  atFirstLogin := findColumn script columns ["at_the_first_login"]
  perSecond := findColumn script columns ["per_second"]

structure SeriesSource where
  columns : SeriesColumns
  names : Dict (String × String) String
  profiles : Dict String String
  profileSeconds : Dict String ℤ
  groupSeconds : Dict String ℤ
  managers : Dict String String
  count : String → ℕ

def linkedCards (dataset : SourceDataset) (cid : String) : ℕ :=
  let cards := iscardUsernames script dataset
  match tableBy script dataset "radusergroup" with
  | none => 0
  | some ug =>
    let uu := findColumn script ug.columns ["username", "user", "user_name"]
    let ic := findColumn script ug.columns ["id_card", "idcard"]
    if uu = "" || ic = "" then 0
    else ug.rows.countP fun r => cards.contains (r.text uu) && r.text ic = cid

def seriesSource (dataset : SourceDataset) (cu : SourceTable) : Option SeriesSource := do
  let profileSeconds ← sourceProfileSessionSeconds script dataset
  let groupSeconds ← sourceGroupSessionSeconds script dataset
  return ⟨seriesColumns script cu.columns, advSeriesNameMap script dataset,
    sourceProfileMap script dataset, profileSeconds, groupSeconds,
    sourceManagerMap script dataset, linkedCards script dataset⟩

/-- `_VAL_DATE_UNITS` -/
def valDateUnit : String → Option String
  | "1" => some "days"
  | "2" => some "hours"
  | "3" => some "minutes"
  | _ => none

def cardUsersBudget (row : Record) (decol vdcol : String) : Option Budget :=
  if decol = "" || vdcol = "" then some (0, "")
  else
    (amount? (if row.text decol = "" then "0" else row.text decol)).map fun val =>
      match val, valDateUnit (row.text vdcol) with
      | some val, some unit => if val ≤ 0 then (0, "") else (val, unit)
      | _, _ => (0, "")

/-- `_flag` -/
def flagOf (row : Record) (col : String) (default : Bool) : Bool :=
  if col = "" then default
  else
    let v := lower (row.text col)
    if ["1", "yes", "true", "y"].contains v then true
    else if ["0", "no", "false", "n"].contains v then false
    else default

structure SeriesBatch where
  cuId : String
  name : String
  plan : String
  price : String
  count : ℕ
  manager : String
  budget : Budget
  countFromFirstConnect : Bool
  countBySeconds : Bool
  year : String
  numSer : String

structure SeriesIndex where
  batches : List SeriesBatch
  nameById : Dict String String
  seenBudget : Dict String Budget

namespace SeriesSource

variable (src : SeriesSource) (row : Record)

def cid : String := row.cell src.columns.id

def year : String := row.cell src.columns.year

def num : String := row.cell src.columns.num

def profileId : String := row.cell src.columns.profile

/-- `f"{y}-{ns}" if (y or ns) else cid` -/
def label : String :=
  if src.year row ≠ "" || src.num row ≠ "" then src.year row ++ "-" ++ src.num row
  else src.cid row

def rawName : String := (src.names.get? (src.year row, src.num row)).getD (src.label row)

def apartName : String := src.rawName row ++ " (" ++ src.label row ++ ")"

def budget : Option Budget :=
  (cardUsersBudget row src.columns.dateEnd src.columns.valDate).map fun own =>
    if own.2 ≠ "" then own
    else
      let pid := src.profileId row
      let group := normKey script ((src.profiles.get? pid).getD "")
      secondsToValueUnit (((src.profileSeconds.get? pid).or (src.groupSeconds.get? group)).getD 0)

def batch (name : String) (budget : Budget) : SeriesBatch where
  cuId := src.cid row
  name := name
  plan := (src.profiles.get? (src.profileId row)).getD ""
  price := if src.columns.price = "" then "" else row.get src.columns.price
  count := src.count (src.cid row)
  manager := if src.columns.createdBy = "" then ""
    else (src.managers.get? (row.text src.columns.createdBy)).getD ""
  budget := budget
  countFromFirstConnect := flagOf row src.columns.atFirstLogin true
  countBySeconds := flagOf row src.columns.perSecond false
  year := src.year row
  numSer := src.num row

def addSeries (ix : SeriesIndex) : Option SeriesIndex :=
  if src.cid row = "" then some ix
  else (src.budget script row).map fun budget =>
    let nm := src.rawName row
    let nm := if (ix.seenBudget.get? nm).any fun prev => prev ≠ budget then src.apartName row
      else nm
    ⟨ix.batches ++ [src.batch row nm budget], ix.nameById.put (src.cid row) nm,
      ix.seenBudget.putNew nm budget⟩

end SeriesSource

def seriesTable (dataset : SourceDataset) (cuName : String) : Option SourceTable :=
  (if cuName = "" then none else dataset.table cuName).or (tableBy script dataset "card_users")

def advCardBatchIndex (dataset : SourceDataset) (cuName : String) :
    Option (List SeriesBatch × Dict String String) :=
  match seriesTable script dataset cuName with
  | none => some ([], [])
  | some cu => do
    let src ← seriesSource script dataset cu
    let ix ← cu.rows.foldlM (fun ix row => src.addSeries script row ix) ⟨[], [], []⟩
    return (ix.batches, ix.nameById)

def jsonNumber (n : ℤ) : Json := .number (toString n) (n = 0)

def SeriesBatch.candidate (b : SeriesBatch) : Candidate :=
  ⟨[("name", .str b.name)] ++
    (if b.plan = "" then [] else [("plan", .str b.plan)]) ++
    (if b.price = "" then [] else [("price", .str b.price)]) ++
    (if b.count = 0 then [] else [("count", jsonNumber b.count)]) ++
    (if b.manager = "" then [] else [("manager", .str b.manager)]) ++
    (if b.budget.2 = "" then []
      else [("time_value", jsonNumber b.budget.1), ("time_unit", .str b.budget.2)]) ++
    [("count_from_first_connect", .bool b.countFromFirstConnect),
      ("count_by_seconds", .bool b.countBySeconds),
      ("_series", .str (b.year ++ "-" ++ b.numSer))]⟩

end
end RadiusModule.Migration
