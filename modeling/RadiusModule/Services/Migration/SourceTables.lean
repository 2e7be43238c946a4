import RadiusModule.Library.Dict
import RadiusModule.Services.Migration.Sections

/-!
# The tables of a source

A source is read into tables of texts. Their columns are found by normalized
name, and a cell that is missing reads as empty.
-/

namespace RadiusModule.Migration
open Library PyText

abbrev Record := Dict String String

structure SourceTable where
  name : String
  columns : List String
  rows : List Record

structure SourceDataset where
  tables : List SourceTable

structure SectionMatch where
  sourceTable : String
  columnMap : Dict String String
  recognizedAs : String

/-- `column_map.get(name, "")` -/
def SectionMatch.column (m : SectionMatch) (name : String) : String := (m.columnMap.get? name).getD ""

namespace Record

/-- `row.get(col, "")` -/
def get (row : Record) (col : String) : String := (Dict.get? row col).getD ""

/-- `str(row.get(col, "")).strip()` -/
def text (row : Record) (col : String) : String := strip (row.get col)

/-- `str(row.get(col, "")).strip() if col else ""` -/
def cell (row : Record) (col : String) : String := if col = "" then "" else row.text col

end Record

def SourceDataset.table (dataset : SourceDataset) (name : String) : Option SourceTable :=
  dataset.tables.find? fun t => t.name = name

section
variable (script : Script)

/-- `_find` -/
def findColumn (columns candidates : List String) : String :=
  (columns.find? fun c => (candidates.map (normKey script)).contains (normKey script c)).getD ""

def tableBy (dataset : SourceDataset) (name : String) : Option SourceTable :=
  dataset.tables.find? fun t => normKey script t.name = normKey script name

/-- `str.isdigit` -/
def isDigitText (s : String) : Bool := s ≠ "" && s.toList.all script.isDigit

def tablesNamed (dataset : SourceDataset) (names : List String) : List SourceTable :=
  dataset.tables.filter fun t => names.contains (normKey script t.name)

end

end RadiusModule.Migration
