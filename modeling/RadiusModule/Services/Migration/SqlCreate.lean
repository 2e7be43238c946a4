import RadiusModule.Services.Migration.SqlColumns

/-!
# A table read from its dump

A table as `mysqldump` prints it: columns and key lines, one a line. The body is
always found. Its columns are read one for one when the commas outside brackets,
counted blind to quotes, are those between the lines, and every name is one the
reader takes as it stands.
-/

namespace RadiusModule.Migration.SqlDump
open Library PyText

def doubleMark (c : Char) : List Char := if c = '`' then ['`', '`'] else [c]

def quoteName (name : List Char) : List Char := ['`'] ++ name.flatMap doubleMark ++ ['`']

/-- The escapes of a text in `SHOW CREATE TABLE`, where a quote is doubled. -/
def escapeText (c : Char) : List Char :=
  if c = '\\' then ['\\', '\\']
  else if c = '\n' then ['\\', 'n']
  else if c = '\r' then ['\\', 'r']
  else if c = Char.ofNat 0 then ['\\', '0']
  else if c = '\'' then ['\'', '\'']
  else [c]

def quoteText (s : List Char) : List Char := ['\''] ++ s.flatMap escapeText ++ ['\'']

/-- What stands behind a name: words, quoted texts and names, and bracketed lists of the
same. A comma stands in a list only. -/
inductive Clause : Bool → List Char → Prop
  | nil {inList} : Clause inList []
  | char {inList c s} (hc : c ∉ ['\'', '"', '`', '(', ')']) (hcomma : c = ',' → inList = true)
      (hs : Clause inList s) : Clause inList (c :: s)
  | text {inList s} (t : List Char) (hs : Clause inList s) : Clause inList (quoteText t ++ s)
  | name {inList s} (n : List Char) (hs : Clause inList s) : Clause inList (quoteName n ++ s)
  | list {inList inner s} (hinner : Clause true inner) (hs : Clause inList s) :
      Clause inList ('(' :: (inner ++ ')' :: s))

structure Column where
  name : List Char
  definition : List Char
  clause : Clause false definition

structure KeyLine where
  word : String
  isKey : word ∈ ["PRIMARY", "UNIQUE", "KEY", "CONSTRAINT", "FOREIGN", "INDEX", "CHECK",
    "FULLTEXT", "SPATIAL"]
  rest : List Char
  clause : Clause false rest

inductive Line
  | column (c : Column)
  | key (k : KeyLine)

def Line.text : Line → List Char
  | .column c => quoteName c.name ++ ' ' :: c.definition
  | .key k => k.word.toList ++ ' ' :: k.rest

structure CreateTable where
  name : List Char
  lines : List Line
  options : List Char

def CreateTable.body (t : CreateTable) : List Char :=
  "\n  ".toList ++ (",\n  ".toList).intercalate (t.lines.map Line.text) ++ ['\n']

def CreateTable.print (t : CreateTable) : List Char :=
  "CREATE TABLE ".toList ++ (quoteName t.name ++ (" (".toList ++ (t.body ++ ')' :: t.options)))

def Line.name? : Line → Option (List Char)
  | .column c => some c.name
  | .key _ => none

def CreateTable.declared (t : CreateTable) : List (List Char) :=
  (t.lines.filterMap Line.name?).take maxColumns

theorem bodyFrom_escapeText (depth : ℕ) (c d : Char) (s : List Char) :
    bodyFrom depth (some '\'') (escapeText c ++ d :: s) =
      (bodyFrom depth (some '\'') (d :: s)).map (escapeText c ++ ·) := by
  by_cases hback : c = '\\'
  · subst hback; rfl
  by_cases hline : c = '\n'
  · subst hline; rfl
  by_cases hreturn : c = '\r'
  · subst hreturn; rfl
  by_cases hnul : c = Char.ofNat 0
  · subst hnul; rfl
  by_cases hquote : c = '\''
  · subst hquote
    have hpair : bodyFrom depth (some '\'') ('\'' :: '\'' :: d :: s) =
        ((bodyFrom depth (some '\'') (d :: s)).map ('\'' :: ·)).map ('\'' :: ·) := by
      rw [bodyFrom_quote_cons, if_neg (by decide), if_pos rfl, bodyFrom_cons,
        if_pos (by decide)]
    exact hpair.trans (Option.map_map _ _ _)
  have hdump : escapeText c = [c] := by
    simp only [escapeText, if_neg hback, if_neg hline, if_neg hreturn, if_neg hnul, if_neg hquote]
  rw [hdump, List.singleton_append, bodyFrom_quote_cons, if_neg (fun h => hback h.1), if_neg hquote]
  rfl

theorem bodyFrom_doubled (depth : ℕ) (c d : Char) (s : List Char) :
    bodyFrom depth (some '`') (doubleMark c ++ d :: s) =
      (bodyFrom depth (some '`') (d :: s)).map (doubleMark c ++ ·) := by
  by_cases hmark : c = '`'
  · subst hmark
    have hpair : bodyFrom depth (some '`') ('`' :: '`' :: d :: s) =
        ((bodyFrom depth (some '`') (d :: s)).map ('`' :: ·)).map ('`' :: ·) := by
      rw [bodyFrom_quote_cons, if_neg (by decide), if_pos rfl, bodyFrom_cons,
        if_pos (by decide)]
    exact hpair.trans (Option.map_map _ _ _)
  · rw [doubleMark, if_neg hmark, List.singleton_append, bodyFrom_quote_cons,
      if_neg (fun h => h.2 rfl),
      if_neg hmark]
    rfl

theorem exists_cons_append (xs : List Char) (d : Char) (s : List Char) :
    ∃ e more, xs ++ d :: s = e :: more := by
  cases xs with
  | nil => exact ⟨d, s, rfl⟩
  | cons e more => exact ⟨e, more ++ d :: s, rfl⟩

theorem bodyFrom_quoted {depth : ℕ} {q : Char} {escape : Char → List Char}
    (hq : q ∈ ['\'', '"', '`'])
    (hstep : ∀ c d s, bodyFrom depth (some q) (escape c ++ d :: s) =
      (bodyFrom depth (some q) (d :: s)).map (escape c ++ ·))
    (t : List Char) (d : Char) (s : List Char) :
    bodyFrom depth none (([q] ++ t.flatMap escape ++ [q]) ++ d :: s) =
      (bodyFrom depth none (d :: s)).map (([q] ++ t.flatMap escape ++ [q]) ++ ·) := by
  have hinner : ∀ t : List Char, bodyFrom depth (some q) (t.flatMap escape ++ q :: d :: s) =
      (bodyFrom depth none (d :: s)).map (t.flatMap escape ++ [q] ++ ·) := by
    intro t
    induction t with
    | nil =>
      have hback : ¬(q = '\\' ∧ q ≠ '`') := by
        rintro ⟨rfl, -⟩
        exact absurd hq (by decide)
      rw [List.flatMap_nil, List.nil_append, bodyFrom_quote_cons, if_neg hback, if_pos rfl]
      rfl
    | cons c t ih =>
      obtain ⟨e, more, hmore⟩ := exists_cons_append (t.flatMap escape) q (d :: s)
      rw [List.flatMap_cons, List.append_assoc, hmore, hstep, ← hmore, ih, Option.map_map]
      simp only [Function.comp_def, List.append_assoc]
  have hopen : bodyFrom depth none (([q] ++ t.flatMap escape ++ [q]) ++ d :: s) =
      (bodyFrom depth (some q) (t.flatMap escape ++ q :: d :: s)).map (q :: ·) := by
    simp only [List.cons_append, List.append_assoc]
    rw [bodyFrom_cons, if_pos hq]
    rfl
  rw [hopen, hinner, Option.map_map]
  rfl

theorem bodyFrom_clause {inList : Bool} {s : List Char} (hs : Clause inList s) {depth : ℕ}
    (hdepth : 1 ≤ depth) (d : Char) (rest : List Char) :
    bodyFrom depth none (s ++ d :: rest) = (bodyFrom depth none (d :: rest)).map (s ++ ·) := by
  induction hs generalizing depth d rest with
  | nil => exact Option.map_id'.symm
  | @char _ c s hc _ _ ih =>
    have hplain : c ∉ ['\'', '"', '`'] ∧ c ≠ '(' ∧ c ≠ ')' := by
      simp only [List.mem_cons, List.not_mem_nil, or_false, not_or] at hc ⊢
      exact ⟨⟨hc.1, hc.2.1, hc.2.2.1⟩, hc.2.2.2⟩
    rw [List.cons_append, bodyFrom_cons, if_neg hplain.1, if_neg hplain.2.1, if_neg hplain.2.2,
      ih hdepth, Option.map_map]
    rfl
  | @text _ s t _ ih =>
    obtain ⟨e, more, hmore⟩ := exists_cons_append s d rest
    rw [List.append_assoc, hmore, quoteText,
      bodyFrom_quoted (by decide) (bodyFrom_escapeText depth), ← hmore, ih hdepth, Option.map_map]
    simp only [Function.comp_def, List.append_assoc]
  | @name _ s n _ ih =>
    obtain ⟨e, more, hmore⟩ := exists_cons_append s d rest
    rw [List.append_assoc, hmore, quoteName,
      bodyFrom_quoted (by decide) (bodyFrom_doubled depth), ← hmore, ih hdepth, Option.map_map]
    simp only [Function.comp_def, List.append_assoc]
  | @list _ inner s _ _ ihinner ih =>
    have hclose : bodyFrom (depth + 1) none (')' :: (s ++ d :: rest)) =
        (bodyFrom depth none (s ++ d :: rest)).map (')' :: ·) := by
      rw [bodyFrom_cons, if_neg (by decide), if_neg (by decide), if_pos rfl, if_neg (by omega),
        Nat.add_sub_cancel]
    rw [List.cons_append, bodyFrom_cons, if_neg (by decide), if_pos rfl, List.append_assoc,
      List.cons_append, ihinner (by omega), hclose, ih hdepth, Option.map_map, Option.map_map,
      Option.map_map]
    simp only [Function.comp_def, List.append_assoc, List.cons_append]

theorem Clause.append {inList : Bool} {s t : List Char} (hs : Clause inList s)
    (ht : Clause inList t) : Clause inList (s ++ t) := by
  induction hs with
  | nil => exact ht
  | char hc hcomma _ ih => exact .char hc hcomma (ih ht)
  | text u _ ih => rw [List.append_assoc]; exact .text u (ih ht)
  | name n _ ih => rw [List.append_assoc]; exact .name n (ih ht)
  | list hinner _ _ ih =>
    rw [List.cons_append, List.append_assoc, List.cons_append]
    exact .list hinner (ih ht)

theorem Clause.mono {inList : Bool} {s : List Char} (hs : Clause inList s) : Clause true s := by
  induction hs with
  | nil => exact .nil
  | char hc _ _ ih => exact .char hc (fun _ => rfl) ih
  | text u _ ih => exact .text u ih
  | name n _ ih => exact .name n ih
  | list hinner _ _ ih => exact .list hinner ih

theorem Clause.of_chars {inList : Bool} {s : List Char}
    (hs : ∀ c ∈ s, c ∉ ['\'', '"', '`', '(', ')'] ∧ (c = ',' → inList = true)) :
    Clause inList s := by
  induction s with
  | nil => exact .nil
  | cons c s ih =>
    have hc := hs c List.mem_cons_self
    exact .char hc.1 hc.2 (ih fun e he => hs e (List.mem_cons_of_mem _ he))

theorem Line.clause (l : Line) : Clause true l.text := by
  have hword : ∀ w ∈ ["PRIMARY", "UNIQUE", "KEY", "CONSTRAINT", "FOREIGN", "INDEX", "CHECK",
      "FULLTEXT", "SPATIAL"], ∀ c ∈ w.toList, c ∉ ['\'', '"', '`', '(', ')'] := by decide
  have hblank : ∀ {s : List Char}, Clause false s → Clause true (' ' :: s) := fun h =>
    .char (by decide) (fun h => absurd h (by decide)) h.mono
  cases l with
  | column c => exact .name c.name (hblank c.clause)
  | key k => exact (Clause.of_chars fun c hc => ⟨hword k.word k.isKey c hc, fun _ => rfl⟩).append (hblank k.clause)

theorem CreateTable.clause_body (t : CreateTable) : Clause true t.body := by
  have hlines : ∀ lines : List Line,
      Clause true ((",\n  ".toList).intercalate (lines.map Line.text)) := by
    intro lines
    induction lines with
    | nil => exact .nil
    | cons l lines ih =>
      cases lines with
      | nil => rw [List.map_singleton, List.intercalate_singleton]; exact l.clause
      | cons next lines =>
        rw [List.map_cons, List.map_cons, List.intercalate_cons_cons]
        exact (l.clause.append (Clause.of_chars (by decide))).append ih
  exact ((Clause.of_chars (by decide)).append (hlines t.lines)).append
    (Clause.of_chars (by decide))

theorem bodyFrom_body (t : CreateTable) :
    bodyFrom 1 none (t.body ++ ')' :: t.options) = some t.body := by
  have hclose : bodyFrom 1 none (')' :: t.options) = some [] := by
    rw [bodyFrom_cons, if_neg (by decide), if_neg (by decide), if_pos rfl, if_pos rfl]
  rw [bodyFrom_clause t.clause_body le_rfl, hclose, Option.map_some, List.append_nil]

def ReadableName (script : Script) (name : List Char) : Prop :=
  name ≠ [] ∧ (∀ c ∈ name, script.isWord c = true ∨ c = '.') ∧ stripIdent (quoteName name) ≠ []

theorem quoteName_of_noMark {name : List Char} (hname : ∀ c ∈ name, c ≠ '`') :
    quoteName name = '`' :: (name ++ ['`']) := by
  have hflat : name.flatMap doubleMark = name := by
    induction name with
    | nil => rfl
    | cons c name ih =>
      rw [List.flatMap_cons, doubleMark, if_neg (hname c List.mem_cons_self),
        List.singleton_append, ih fun d hd => hname d (List.mem_cons_of_mem _ hd)]
  rw [quoteName, hflat]
  rfl

theorem matchName_quoteName {script : Script} (hmark : script.isWord '`' = false)
    {name : List Char} (hname : ReadableName script name)
    (rest : List Char) :
    matchName script (quoteName name ++ (" (".toList ++ rest)) = some (quoteName name, rest) := by
  have hplain : ∀ c ∈ name, c ≠ '`' := by
    rintro c hc rfl
    rcases hname.2.1 '`' hc with h | h
    · rw [hmark] at h; exact Bool.false_ne_true h
    · exact absurd h (by decide)
  have hword : ∀ c ∈ name, (script.isWord c || decide (c = '.')) = true := fun c hc => by
    simpa using hname.2.1 c hc
  have htake : (name ++ '`' :: (" (".toList ++ rest)).takeWhile
      (fun c => script.isWord c || decide (c = '.')) = name := by
    rw [List.takeWhile_append_of_pos hword, List.takeWhile_cons_of_neg (by simp [hmark]),
      List.append_nil]
  have hdrop : (name ++ '`' :: (" (".toList ++ rest)).dropWhile
      (fun c => script.isWord c || decide (c = '.')) = '`' :: (" (".toList ++ rest) := by
    rw [List.dropWhile_append_of_pos hword, List.dropWhile_cons_of_neg (by simp [hmark])]
  have hopen : optionalMark openingMarks (quoteName name ++ (" (".toList ++ rest)) =
      (['`'], name ++ '`' :: (" (".toList ++ rest)) := by
    rw [quoteName_of_noMark hplain, List.cons_append, optionalMark, if_pos (by decide),
      List.append_assoc]
    rfl
  have hclose : optionalMark closingMarks ('`' :: (" (".toList ++ rest)) =
      (['`'], " (".toList ++ rest) := by
    rw [optionalMark, if_pos (by decide)]
  have hblank : (" (".toList ++ rest).dropWhile isSpace = '(' :: rest := rfl
  rw [matchName]
  simp only [hopen, htake, hdrop, hclose, hblank, if_neg hname.1]
  rw [quoteName_of_noMark hplain]
  rfl

theorem extractCreate_print {script : Script} (hmark : script.isWord '`' = false)
    {t : CreateTable} (hname : ReadableName script t.name) :
    extractCreate script t.print = some (stripIdent (quoteName t.name), t.body) := by
  have hread := matchName_quoteName hmark hname (t.body ++ ')' :: t.options)
  have hhead : searchCreateHead script t.print =
      some (quoteName t.name, t.body ++ ')' :: t.options) := by
    have hmatch : matchCreateHead script t.print =
        matchName script (quoteName t.name ++ (" (".toList ++ (t.body ++ ')' :: t.options))) := rfl
    have hstep : searchCreateHead script t.print =
        (matchCreateHead script t.print).orElse
          fun _ => searchCreateHead script t.print.tail := rfl
    rw [hstep, hmatch, hread]
    rfl
  rw [extractCreate, hhead, Option.map_some]
  simp only [bodyFrom_body, Option.getD_some]

def PlainName (name : List Char) : Prop :=
  (∀ c ∈ name, isSpace c = false ∧ c ≠ '.' ∧ c ≠ '`') ∧ isKeyWord (quoteName name) = false

theorem columnOf_column (c : Column) : columnOf (Line.column c).text =
    let first := (Line.column c).text.takeWhile fun d => !isSpace d
    if isKeyWord first then none else some (stripIdent first) := by
  have htext : ∃ s, (Line.column c).text = '`' :: s := ⟨_, rfl⟩
  obtain ⟨s, hs⟩ := htext
  have hfirst := takeWhile_stripChars (c := '`') (by decide) s
  have hne : stripChars ('`' :: s) ≠ [] := by
    intro hnil
    rw [hnil, List.takeWhile_cons_of_pos (by decide)] at hfirst
    exact List.cons_ne_nil _ _ hfirst.symm
  rw [hs, columnOf]
  simp only [if_neg hne, hfirst]

theorem columnOf_key (k : KeyLine) : columnOf (Line.key k).text = none := by
  have hwords : ∀ w ∈ ["PRIMARY", "UNIQUE", "KEY", "CONSTRAINT", "FOREIGN", "INDEX", "CHECK",
      "FULLTEXT", "SPATIAL"], w.toList ≠ [] ∧ (∀ c ∈ w.toList, (!isSpace c) = true) ∧
        isKeyWord w.toList = true := by decide
  obtain ⟨hne, hword, hkey⟩ := hwords k.word k.isKey
  obtain ⟨c, s, hcs⟩ := List.exists_cons_of_ne_nil hne
  have hc : isSpace c = false := by
    simpa using hword c (by rw [hcs]; exact List.mem_cons_self)
  have htext : (Line.key k).text = c :: (s ++ ' ' :: k.rest) := by
    rw [Line.text, hcs, List.cons_append]
  have hfirst : (stripChars (Line.key k).text).takeWhile (fun d => !isSpace d) =
      k.word.toList := by
    rw [htext, takeWhile_stripChars hc, ← List.cons_append, ← hcs,
      List.takeWhile_append_of_pos hword, List.takeWhile_cons_of_neg (by decide), List.append_nil]
  rw [columnOf]
  simp only [hfirst, hkey, if_true, ite_self]

theorem mem_flatMap_doubleMark {name : List Char} {c : Char} :
    c ∈ name.flatMap doubleMark ↔ c ∈ name := by
  have hone : ∀ d, c ∈ doubleMark d ↔ c = d := by
    intro d
    rw [doubleMark]
    split_ifs with hd
    · simp [hd]
    · exact List.mem_singleton
  rw [List.mem_flatMap]
  simp only [hone]
  exact ⟨fun ⟨d, hd, hcd⟩ => hcd ▸ hd, fun hc => ⟨c, hc, rfl⟩⟩

theorem flatMap_doubleMark_eq {name : List Char} :
    name.flatMap doubleMark = name ↔ ∀ c ∈ name, c ≠ '`' := by
  have hle : ∀ l : List Char, l.length ≤ (l.flatMap doubleMark).length := by
    intro l
    induction l with
    | nil => exact le_rfl
    | cons c l ih =>
      rw [List.flatMap_cons, List.length_append, List.length_cons, doubleMark]
      split_ifs <;> simp only [List.length_cons, List.length_nil] <;> omega
  induction name with
  | nil => exact iff_of_true rfl (fun c hc => absurd hc List.not_mem_nil)
  | cons c name ih =>
    rw [List.flatMap_cons, List.forall_mem_cons]
    by_cases hc : c = '`'
    · refine iff_of_false (fun h => ?_) (fun h => h.1 hc)
      have hlen := congrArg List.length h
      have hrest := hle name
      rw [doubleMark, if_pos hc, List.length_append] at hlen
      simp only [List.length_cons, List.length_nil] at hlen
      omega
    · rw [doubleMark, if_neg hc, List.singleton_append, List.cons_inj_right]
      exact ih.trans ⟨fun h => ⟨hc, h⟩, fun h => h.2⟩

theorem unquoted_quoteName {name : List Char} (hblank : ∀ c ∈ name, isSpace c = false) :
    unquoted (stripChars (quoteName name)) = name.flatMap doubleMark := by
  have hstrip : stripChars (quoteName name) = '`' :: (name.flatMap doubleMark ++ ['`']) := by
    refine stripChars_of_noSpace (s := quoteName name) fun c hc => ?_
    simp only [quoteName, List.mem_append, List.mem_singleton, mem_flatMap_doubleMark] at hc
    rcases hc with (rfl | hc) | rfl
    · decide
    · exact hblank c hc
    · decide
  have hlast : ('`' :: (name.flatMap doubleMark ++ ['`'])).getLastD ' ' = '`' := by
    rw [← List.cons_append, List.getLastD_concat]
  rw [hstrip, unquoted, hlast, if_pos]
  · rw [List.tail_cons, List.dropLast_concat]
  · refine ⟨?_, List.mem_cons_self, by decide⟩
    rw [List.length_cons, List.length_append, List.length_singleton]
    omega

theorem stripIdent_quoteName {name : List Char} (hblank : ∀ c ∈ name, isSpace c = false) :
    stripIdent (quoteName name) = name ↔ ∀ c ∈ name, c ≠ '.' ∧ c ≠ '`' := by
  rw [stripIdent, unquoted_quoteName hblank]
  by_cases hdot : '.' ∈ name
  · refine iff_of_false (fun h => ?_) (fun h => (h '.' hdot).1 rfl)
    have hlast : '.' ∈ lastPart (name.flatMap doubleMark) :=
      (stripChars_sublist _).mem (by rw [h]; exact hdot)
    exact (mem_lastPart hlast).2 (mem_flatMap_doubleMark.mpr hdot) rfl
  · have hwhole : lastPart (name.flatMap doubleMark) = name.flatMap doubleMark :=
      if_neg fun h => hdot (mem_flatMap_doubleMark.mp h)
    rw [hwhole, stripChars_of_noSpace fun c hc => hblank c (mem_flatMap_doubleMark.mp hc),
      flatMap_doubleMark_eq]
    exact ⟨fun h c hc => ⟨fun he => hdot (he ▸ hc), h c hc⟩, fun h c hc => (h c hc).2⟩

theorem columnOf_column_eq (c : Column) :
    columnOf (Line.column c).text = some c.name ↔ PlainName c.name := by
  have hfirst : (∀ d ∈ c.name, isSpace d = false) →
      (Line.column c).text.takeWhile (fun d => !isSpace d) = quoteName c.name := by
    intro hblank
    have hall : ∀ d ∈ quoteName c.name, (!isSpace d) = true := by
      intro d hd
      simp only [quoteName, List.mem_append, List.mem_singleton, mem_flatMap_doubleMark] at hd
      rcases hd with (rfl | hd) | rfl
      · decide
      · rw [hblank d hd]; rfl
      · decide
    rw [Line.text, List.takeWhile_append_of_pos hall, List.takeWhile_cons_of_neg (by decide),
      List.append_nil]
  rw [columnOf_column]
  constructor
  · intro h
    simp only at h
    split_ifs at h with hkey
    have hname := Option.some.inj h
    have hblank : ∀ d ∈ c.name, isSpace d = false := by
      intro d hd
      rw [← hname] at hd
      simpa using List.mem_takeWhile_imp (mem_of_mem_stripIdent hd)
    rw [hfirst hblank] at hname hkey
    have hchars := (stripIdent_quoteName hblank).mp hname
    exact ⟨fun d hd => ⟨hblank d hd, hchars d hd⟩, Bool.eq_false_iff.mpr hkey⟩
  · rintro ⟨hchars, hkey⟩
    have hblank : ∀ d ∈ c.name, isSpace d = false := fun d hd => (hchars d hd).1
    simp only [hfirst hblank, hkey, Bool.false_eq_true, if_false]
    rw [(stripIdent_quoteName hblank).mpr fun d hd => (hchars d hd).2]

theorem columnOf_append {a b : List Char} (ha : ∀ c ∈ a, isSpace c = true)
    (hb : ∀ c ∈ b, isSpace c = true) (s : List Char) : columnOf (a ++ (s ++ b)) = columnOf s := by
  rw [columnOf, columnOf, stripChars_append ha hb]

theorem columns_of_uncut {texts : List (List Char)} (huncut : Uncut texts) :
    (cutParts 0 "\n  ".toList ((",\n  ".toList).intercalate texts ++ ['\n'])).filterMap columnOf =
      texts.filterMap columnOf := by
  have hfront : ∀ c ∈ "\n  ".toList, isSpace c = true := by decide
  induction texts with
  | nil => rfl
  | cons s texts ih =>
    cases texts with
    | nil =>
      have hend : cutParts (depthAfter 0 s) ("\n  ".toList ++ s) ['\n'] =
          ["\n  ".toList ++ (s ++ ['\n'])] := by
        rw [cutParts, if_neg (fun h => absurd h.1 (by decide)), List.append_assoc]
        rfl
      rw [List.intercalate_singleton, cutParts_append huncut, hend, List.filterMap_cons,
        columnOf_append hfront (by decide), List.filterMap_cons]
    | cons t rest =>
      obtain ⟨hs, hdepth, hrest⟩ := huncut
      have hcut : ∀ more, cutParts 0 ("\n  ".toList ++ s) (",\n  ".toList ++ more) =
          ("\n  ".toList ++ (s ++ [])) :: cutParts 0 "\n  ".toList more := by
        intro more
        rw [List.append_nil]
        rfl
      rw [List.intercalate_cons_cons, List.append_assoc, List.append_assoc, cutParts_append hs,
        hdepth, hcut, List.filterMap_cons, columnOf_append hfront (fun c hc => by simp at hc),
        ih hrest, List.filterMap_cons (a := s)]

theorem createColumns_print {script : Script} (hmark : script.isWord '`' = false)
    {t : CreateTable} (hname : ReadableName script t.name)
    (huncut : Uncut (t.lines.map Line.text)) :
    createColumns script t.print =
      (t.lines.filterMap fun l => columnOf l.text).take maxColumns := by
  have hbody : t.body ≠ [] := by
    rw [CreateTable.body, List.append_assoc]
    exact List.cons_ne_nil _ _
  have hparts : cutParts 0 [] t.body = cutParts 0 "\n  ".toList
      ((",\n  ".toList).intercalate (t.lines.map Line.text) ++ ['\n']) := by
    rw [CreateTable.body, List.append_assoc]
    rfl
  rw [createColumns, extractCreate_print hmark hname]
  simp only [if_pos (And.intro hname.2.2 hbody)]
  rw [parseCreateColumns, hparts, columns_of_uncut huncut, List.filterMap_map]
  rfl

theorem filterMap_eq_iff {α β : Type*} {f g : α → Option β} {l : List α}
    (hfg : ∀ x ∈ l, g x = none → f x = none) :
    (l.filterMap f).length ≤ (l.filterMap g).length ∧
      (l.filterMap f = l.filterMap g ↔ ∀ x ∈ l, f x = g x) := by
  induction l with
  | nil => exact ⟨le_rfl, iff_of_true rfl (fun x hx => absurd hx List.not_mem_nil)⟩
  | cons x l ih =>
    obtain ⟨hle, hiff⟩ := ih fun y hy => hfg y (List.mem_cons_of_mem _ hy)
    rw [List.forall_mem_cons]
    cases hg : g x with
    | none =>
      have hf := hfg x List.mem_cons_self hg
      rw [List.filterMap_cons_none hf, List.filterMap_cons_none hg, hiff, hf]
      exact ⟨hle, fun h => ⟨rfl, h⟩, fun h => h.2⟩
    | some y =>
      cases hf : f x with
      | none =>
        rw [List.filterMap_cons_none hf, List.filterMap_cons_some hg, List.length_cons]
        refine ⟨by omega, iff_of_false (fun h => ?_) (fun h => by simp at h)⟩
        have hlen := congrArg List.length h
        rw [List.length_cons] at hlen
        omega
      | some z =>
        rw [List.filterMap_cons_some hf, List.filterMap_cons_some hg, List.length_cons,
          List.length_cons, List.cons_eq_cons, hiff, Option.some.injEq]
        exact ⟨by omega, Iff.rfl⟩

/-- The columns are read as declared when the lines are not cut and the names are plain; of
lines that are not cut, only plain names are read as declared. -/
theorem columns_read_back (script : Script) (hmark : script.isWord '`' = false) (t : CreateTable)
    (hname : ReadableName script t.name) (huncut : Uncut (t.lines.map Line.text)) :
    ((∀ c, Line.column c ∈ t.lines → PlainName c.name) →
        createColumns script t.print = t.declared) ∧
      ((t.lines.filterMap Line.name?).length ≤ maxColumns →
        createColumns script t.print = t.declared →
        ∀ c, Line.column c ∈ t.lines → PlainName c.name) := by
  have hkeys : ∀ l ∈ t.lines, l.name? = none → columnOf l.text = none := by
    intro l _ hnone
    cases l with
    | column c => exact absurd hnone (Option.some_ne_none _)
    | key k => exact columnOf_key k
  obtain ⟨hle, hiff⟩ := filterMap_eq_iff hkeys
  have hread := createColumns_print hmark hname huncut
  refine ⟨fun hplain => ?_, fun hfew heq c hc => ?_⟩
  · have hlines : ∀ l ∈ t.lines, columnOf l.text = l.name? := by
      intro l hl
      cases l with
      | column c => exact (columnOf_column_eq c).mpr (hplain c hl)
      | key k => exact columnOf_key k
    rw [hread, hiff.mpr hlines, CreateTable.declared]
  · rw [hread, CreateTable.declared, List.take_of_length_le (hle.trans hfew),
      List.take_of_length_le hfew, hiff] at heq
    exact (columnOf_column_eq c).mp (heq _ hc)

def commented (name comment : String) : Column where
  name := name.toList
  definition := "int".toList ++ ('(' :: ("11".toList ++ ')' :: (" COMMENT ".toList ++
    (quoteText comment.toList ++ []))))
  clause := (Clause.of_chars (by decide)).append
    (.list (Clause.of_chars (by decide))
      ((Clause.of_chars (by decide)).append (.text _ .nil)))

def primaryKey : KeyLine where
  word := "PRIMARY"
  isKey := by decide
  rest := "KEY ".toList ++ ('(' :: ((quoteName "id".toList ++ []) ++ ')' :: []))
  clause := (Clause.of_chars (by decide)).append (.list (.name _ .nil) .nil)

def cards (comment : String) : CreateTable where
  name := "cards".toList
  lines := [.column (commented "id" comment), .column (commented "serial" ""), .key primaryKey]
  options := " ENGINE=InnoDB;".toList

instance decidableNoOuterComma : ∀ (depth : ℤ) (s : List Char), Decidable (NoOuterComma depth s)
  | _, [] => .isTrue trivial
  | depth, c :: s =>
    have := decidableNoOuterComma (bracket depth c) s
    inferInstanceAs (Decidable ((c = ',' → depth ≠ 0) ∧ NoOuterComma (bracket depth c) s))

theorem columns_read_back_cards :
    createColumns latin (cards "(a, b)").print = (cards "(a, b)").declared := by
  refine (columns_read_back latin (by decide) (cards "(a, b)") ?_ ?_).1 ?_
  · exact ⟨by decide, by decide, by decide⟩
  · refine ⟨by decide, by decide, by decide, by decide, ?_⟩
    exact (by decide : NoOuterComma 0 (Line.key primaryKey).text)
  · intro c hc
    simp only [cards, List.mem_cons, Line.column.injEq, reduceCtorEq, List.not_mem_nil,
      or_false] at hc
    rcases hc with rfl | rfl
    · exact ⟨by decide, by decide⟩
    · exact ⟨by decide, by decide⟩

/-- A comma in a comment shifts every later column. -/
theorem comma_in_comment_shifts :
    ¬ ∀ t : CreateTable, createColumns latin t.print = t.declared := by
  intro h
  have hread : createColumns latin (cards "a, b").print =
      ["id".toList, "b'".toList, "serial".toList] := by decide +kernel
  have hclaim := h (cards "a, b")
  rw [hread] at hclaim
  exact absurd hclaim (by decide)

end RadiusModule.Migration.SqlDump
