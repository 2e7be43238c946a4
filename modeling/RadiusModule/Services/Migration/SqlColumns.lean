import RadiusModule.Library.Lines
import RadiusModule.Services.Migration.Sections

/-!
# The columns of a CREATE TABLE

One function finds the body of the statement and knows about quotes; the next cuts
the body at commas and counts brackets only. The two agree on a definition whose
quoted texts hold no comma and no bracket of their own.
-/

namespace RadiusModule.Migration.SqlDump
open Library PyText

def maxColumns : ℕ := 256

/-- `s.strip(chars)` -/
def stripOf (chars s : List Char) : List Char :=
  (s.dropWhile (· ∈ chars)).rdropWhile (· ∈ chars)

def openingMarks : List Char := ['`', '"', '[']

def closingMarks : List Char := ['`', '"', ']']

def identMarks : List Char := ['`', '"', '[', ']']

def unquoted (tok : List Char) : List Char :=
  if 2 ≤ tok.length ∧ tok.headD ' ' ∈ openingMarks ∧ tok.getLastD ' ' ∈ closingMarks
  then tok.tail.dropLast else tok

/-- `schema.table → table` -/
def lastPart (tok : List Char) : List Char :=
  if '.' ∈ tok then stripOf identMarks ((splitChars '.' tok).getLastD []) else tok

def stripIdent (tok : List Char) : List Char :=
  stripChars (lastPart (unquoted (stripChars tok)))

def sameLetter (letter c : Char) : Bool :=
  c.toUpper = letter || (letter = 'I' && (c = 'İ' || c = 'ı')) || (letter = 'S' && c = 'ſ')

def matchWord : List Char → List Char → Option (List Char)
  | [], s => some s
  | _ :: _, [] => none
  | letter :: word, c :: s => if sameLetter letter c then matchWord word s else none

def matchSpaces : List Char → Option (List Char)
  | [] => none
  | c :: s => if isSpace c then some (s.dropWhile isSpace) else none

def optionalMark (marks : List Char) : List Char → List Char × List Char
  | [] => ([], [])
  | c :: s => if c ∈ marks then ([c], s) else ([], c :: s)

def matchName (script : Script) (s : List Char) : Option (List Char × List Char) :=
  let isNameChar := fun c => script.isWord c || c = '.'
  let opening := optionalMark openingMarks s
  let word := opening.2.takeWhile isNameChar
  let closing := optionalMark closingMarks (opening.2.dropWhile isNameChar)
  if word = [] then none
  else match closing.2.dropWhile isSpace with
    | '(' :: rest => some (opening.1 ++ word ++ closing.1, rest)
    | _ => none

def matchIfNotExists (s : List Char) : Option (List Char) := do
  let s ← matchSpaces (← matchWord "IF".toList s)
  let s ← matchSpaces (← matchWord "NOT".toList s)
  matchSpaces (← matchWord "EXISTS".toList s)

def matchCreateHead (script : Script) (s : List Char) : Option (List Char × List Char) := do
  let s ← matchSpaces (← matchWord "CREATE".toList s)
  let s ← matchSpaces (← matchWord "TABLE".toList s)
  ((matchIfNotExists s).bind (matchName script)).orElse fun _ => matchName script s

def searchCreateHead (script : Script) : List Char → Option (List Char × List Char)
  | [] => none
  | c :: s => (matchCreateHead script (c :: s)).orElse fun _ => searchCreateHead script s

def bodyFrom : ℕ → Option Char → List Char → Option (List Char)
  | _, _, [] => none
  | _, some _, [_] => none
  | depth, some q, c :: d :: s =>
    if c = '\\' ∧ q ≠ '`' then (bodyFrom depth (some q) s).map fun body => c :: d :: body
    else (bodyFrom depth (if c = q then none else some q) (d :: s)).map (c :: ·)
  | depth, none, c :: s =>
    if c ∈ ['\'', '"', '`'] then (bodyFrom depth (some c) s).map (c :: ·)
    else if c = '(' then (bodyFrom (depth + 1) none s).map (c :: ·)
    else if c = ')' then
      if depth = 1 then some [] else (bodyFrom (depth - 1) none s).map (c :: ·)
    else (bodyFrom depth none s).map (c :: ·)

theorem bodyFrom_quote_cons (depth : ℕ) (q c d : Char) (s : List Char) :
    bodyFrom depth (some q) (c :: d :: s) =
      if c = '\\' ∧ q ≠ '`' then (bodyFrom depth (some q) s).map fun body => c :: d :: body
      else (bodyFrom depth (if c = q then none else some q) (d :: s)).map (c :: ·) := rfl

theorem bodyFrom_cons (depth : ℕ) (c : Char) (s : List Char) :
    bodyFrom depth none (c :: s) =
      if c ∈ ['\'', '"', '`'] then (bodyFrom depth (some c) s).map (c :: ·)
      else if c = '(' then (bodyFrom (depth + 1) none s).map (c :: ·)
      else if c = ')' then
        if depth = 1 then some [] else (bodyFrom (depth - 1) none s).map (c :: ·)
      else (bodyFrom depth none s).map (c :: ·) := by
  rw [bodyFrom]

def extractCreate (script : Script) (stmt : List Char) : Option (List Char × List Char) :=
  (searchCreateHead script stmt).map fun (name, rest) =>
    (stripIdent name, (bodyFrom 1 none rest).getD rest)

def bracket (depth : ℤ) (c : Char) : ℤ :=
  if c = '(' then depth + 1 else if c = ')' then depth - 1 else depth

def cutParts (depth : ℤ) (cur : List Char) : List Char → List (List Char)
  | [] => if cur ≠ [] then [cur] else []
  | c :: body =>
    let depth := bracket depth c
    if c = ',' ∧ depth = 0 then cur :: cutParts depth [] body
    else cutParts depth (cur ++ [c]) body

def nonCol : List String :=
  ["primary", "unique", "key", "constraint", "foreign", "index", "check", "fulltext", "spatial"]

/-- `str.lower` as far as a comparison with Latin letters can tell: besides the capital
letters the Kelvin sign has one as its small letter. -/
def lowerLatin (c : Char) : Char := if c = 'K' then 'k' else c.toLower

/-- `first.lower().strip("…") in _NON_COL` -/
def isKeyWord (first : List Char) : Bool :=
  String.ofList (stripOf identMarks (first.map lowerLatin)) ∈ nonCol

/-- The column a part declares: `p.split(None, 1)[0]`, unless it opens a key line. -/
def columnOf (part : List Char) : Option (List Char) :=
  let p := stripChars part
  let first := p.takeWhile fun c => !isSpace c
  if p = [] then none
  else if isKeyWord first then none
  else some (stripIdent first)

def parseCreateColumns (body : List Char) : List (List Char) :=
  ((cutParts 0 [] body).filterMap columnOf).take maxColumns

/-- The columns `_consume_sql_statements` learns from a statement. -/
def createColumns (script : Script) (stmt : List Char) : List (List Char) :=
  match extractCreate script stmt with
  | some (tname, body) => if tname ≠ [] ∧ body ≠ [] then parseCreateColumns body else []
  | none => []

theorem takeWhile_stripChars {c : Char} (hc : isSpace c = false) (s : List Char) :
    (stripChars (c :: s)).takeWhile (fun d => !isSpace d) =
      (c :: s).takeWhile (fun d => !isSpace d) := by
  have hfront : stripChars (c :: s) = (c :: s).rdropWhile isSpace := by
    rw [stripChars, List.dropWhile_cons_of_neg (by simp [hc])]
    rfl
  have hcut : (c :: s).rdropWhile isSpace ++ (c :: s).rtakeWhile isSpace = c :: s :=
    List.rdropWhile_append_rtakeWhile
  have htail : ((c :: s).rtakeWhile isSpace).takeWhile (fun d => !isSpace d) = [] := by
    cases hrest : (c :: s).rtakeWhile isSpace with
    | nil => rfl
    | cons d rest =>
      have hd : isSpace d = true :=
        List.mem_rtakeWhile_imp (by rw [hrest]; exact List.mem_cons_self)
      exact List.takeWhile_cons_of_neg (by simp [hd])
  conv_rhs => rw [← hcut]
  rw [hfront, List.takeWhile_append]
  split_ifs with hall
  · rw [htail, List.append_nil, (List.takeWhile_prefix _).eq_of_length hall]
  · rfl

theorem stripOf_sublist (chars s : List Char) : (stripOf chars s).Sublist s :=
  (List.rdropWhile_prefix _ _).sublist.trans (List.dropWhile_sublist _)

theorem mem_lastPart {tok : List Char} {c : Char} (hc : c ∈ lastPart tok) :
    c ∈ tok ∧ ('.' ∈ tok → c ≠ '.') := by
  rw [lastPart] at hc
  split_ifs at hc with hdot
  · have hne := splitChars_ne_nil '.' tok
    have hlast : (splitChars '.' tok).getLastD [] ∈ splitChars '.' tok := by
      rw [List.getLastD_eq_getLast?, List.getLast?_eq_some_getLast hne, Option.getD_some]
      exact List.getLast_mem hne
    have hpart := mem_splitChars hlast ((stripOf_sublist _ _).mem hc)
    exact ⟨hpart.1, fun _ => hpart.2⟩
  · exact ⟨hc, fun h => absurd h hdot⟩

theorem mem_of_mem_unquoted {tok : List Char} {c : Char} (hc : c ∈ unquoted tok) : c ∈ tok := by
  rw [unquoted] at hc
  split_ifs at hc
  · exact List.mem_of_mem_tail ((List.dropLast_sublist _).mem hc)
  · exact hc

theorem mem_of_mem_stripIdent {tok : List Char} {c : Char} (hc : c ∈ stripIdent tok) :
    c ∈ tok :=
  (stripChars_sublist _).mem
    (mem_of_mem_unquoted (mem_lastPart ((stripChars_sublist _).mem hc)).1)

def depthAfter (depth : ℤ) (s : List Char) : ℤ := s.foldl bracket depth

def NoOuterComma (depth : ℤ) : List Char → Prop
  | [] => True
  | c :: s => (c = ',' → depth ≠ 0) ∧ NoOuterComma (bracket depth c) s

def Uncut : List (List Char) → Prop
  | [] => True
  | [s] => NoOuterComma 0 s
  | s :: t :: rest => NoOuterComma 0 s ∧ depthAfter 0 s = 0 ∧ Uncut (t :: rest)

theorem cutParts_append {depth : ℤ} {s : List Char} (hs : NoOuterComma depth s)
    (cur rest : List Char) :
    cutParts depth cur (s ++ rest) = cutParts (depthAfter depth s) (cur ++ s) rest := by
  induction s generalizing depth cur with
  | nil => rw [List.append_nil]; rfl
  | cons c s ih =>
    have hkeep : ¬(c = ',' ∧ bracket depth c = 0) := by
      rintro ⟨rfl, hzero⟩
      exact hs.1 rfl hzero
    rw [List.cons_append, cutParts]
    simp only [if_neg hkeep]
    rw [ih hs.2, List.append_assoc]
    rfl

end RadiusModule.Migration.SqlDump
