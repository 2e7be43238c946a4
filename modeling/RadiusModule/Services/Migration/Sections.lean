import RadiusModule.Library.Json
import RadiusModule.Library.PyText

/-!
# Sections and candidates

A source is read into candidates, section by section. A candidate is known by
the normalized text of one of its fields, in which letters of either case and
all punctuation look alike.
-/

namespace RadiusModule.Migration
open Library PyText

inductive Section
  | roles
  | managers
  | distributors
  | plans
  | batches
  | subscribers
  | cards
deriving DecidableEq, Repr

def commitOrder : List Section :=
  [.roles, .managers, .distributors, .plans, .batches, .subscribers, .cards]

def Section.naturalKey : Section → String
  | .managers => "username"
  | .subscribers => "username"
  | .cards => "username"
  | _ => "name"

/-- What Unicode says of texts: `\w`, `str.isdigit` and `str.lower`. -/
structure Script where
  isWord : Char → Bool
  isDigit : Char → Bool
  lower : String → String

def latin : Script where
  isWord c := c.isAlphanum || c = '_'
  isDigit := Char.isDigit
  lower := lower

/-- `re.sub("[…]+", " ", s)` -/
def subRuns (p : Char → Bool) : List Char → List Char
  | [] => []
  | c :: cs =>
    if p c then
      match cs with
      | d :: _ => if p d then subRuns p cs else ' ' :: subRuns p cs
      | [] => [' ']
    else c :: subRuns p cs

/-- `[\w؀-ۿ ]` -/
def Script.kept (script : Script) (c : Char) : Bool :=
  script.isWord c || (0x600 ≤ c.toNat && c.toNat ≤ 0x6ff) || c = ' '

def normKey (script : Script) (value : String) : String :=
  let s := script.lower (strip value)
  let s := subRuns (fun c => !script.kept c) s.toList
  strip (String.ofList (subRuns isSpace s))

inductive Mode
  | merge
  | skip
deriving DecidableEq, Repr

structure Candidate where
  fields : List (String × Json)

namespace Candidate

def field (c : Candidate) (name : String) : Json := (c.fields.lookup name).getD (.str "")

/-- `str(c.fields.get(name, ""))` -/
def text (c : Candidate) (name : String) : String := (c.field name).text

/-- `str(c.fields.get(name) or "")` -/
def textOr (c : Candidate) (name : String) : String :=
  if (c.field name).truthy then c.text name else ""

def has (c : Candidate) (name : String) : Bool := (c.field name).truthy

end Candidate

structure Import where
  sect : Section
  mode : Mode
  candidates : List Candidate

/-- `build_candidates` knows every candidate by the normalized text of this field. -/
def Candidate.key (script : Script) (s : Section) (c : Candidate) : String :=
  normKey script (c.text s.naturalKey)

end RadiusModule.Migration
