import RadiusModule.Library.PyText

/-!
# The values of an INSERT

The tuples behind `VALUES` are read by a scan that knows quotes and two ways to
write one inside a text. The dump writes an escape for each of seven characters;
the scan only drops the backslash.
-/

namespace RadiusModule.Migration.SqlDump
open Library PyText

/-- `MAX_ROWS_PER_TABLE` -/
def maxRows : ℕ := 500000

def maxCellLen : ℕ := 8000

def clip (s : List Char) : List Char := s.take maxCellLen

/-- A cell of a row: blanks cut off, `NULL` the empty text, and no longer than a cell may be. -/
def norm (v : List Char) : List Char :=
  let vs := stripChars v
  clip (if vs.map Char.toUpper = "NULL".toList then [] else vs)

/-- Where the scan stands: between tuples, or in one, with the values read and the
characters of the value being read, outside or inside of a quoted text. -/
inductive Place
  | between
  | tuple (values : List (List Char)) (cur : List Char)
  | quoted (quote : Char) (values : List (List Char)) (cur : List Char)

/-- `if norm: rows.append(norm)` -/
def addRow (rows : List (List (List Char))) (values : List (List Char)) :
    List (List (List Char)) :=
  if values ≠ [] then rows ++ [values.map norm] else rows

/-- The two loops of `_split_sql_values`, with the place the loops are at as an argument. -/
def scan : Place → List (List (List Char)) → List Char → List (List (List Char))
  | .between, rows, [] => rows
  | .between, rows, c :: rest =>
    if maxRows ≤ rows.length then rows
    else if c ∈ [' ', '\t', '\r', '\n', ','] then scan .between rows rest
    else if c = '(' then scan (.tuple [] []) rows rest
    else if c = ';' then rows
    else scan .between rows rest
  | .tuple values _, rows, [] => addRow rows values
  | .tuple values cur, rows, c :: rest =>
    if c = '\'' ∨ c = '"' then scan (.quoted c values cur) rows rest
    else if c = ',' then scan (.tuple (values ++ [stripChars cur]) []) rows rest
    else if c = ')' then scan .between (addRow rows (values ++ [stripChars cur])) rest
    else scan (.tuple values (cur ++ [c])) rows rest
  | .quoted _ values _, rows, [] => addRow rows values
  | .quoted quote values cur, rows, [c] =>
    if c = quote then scan (.tuple values cur) rows []
    else scan (.quoted quote values (cur ++ [c])) rows []
  | .quoted quote values cur, rows, c :: d :: rest =>
    if c = '\\' then scan (.quoted quote values (cur ++ [d])) rows rest
    else if c = quote then
      if d = quote then scan (.quoted quote values (cur ++ [quote])) rows rest
      else scan (.tuple values cur) rows (d :: rest)
    else scan (.quoted quote values (cur ++ [c])) rows (d :: rest)

theorem scan_between_cons (rows : List (List (List Char))) (c : Char) (rest : List Char) :
    scan .between rows (c :: rest) =
      if maxRows ≤ rows.length then rows
      else if c ∈ [' ', '\t', '\r', '\n', ','] then scan .between rows rest
      else if c = '(' then scan (.tuple [] []) rows rest
      else if c = ';' then rows
      else scan .between rows rest := rfl

theorem scan_tuple_cons (values : List (List Char)) (cur : List Char)
    (rows : List (List (List Char))) (c : Char) (rest : List Char) :
    scan (.tuple values cur) rows (c :: rest) =
      if c = '\'' ∨ c = '"' then scan (.quoted c values cur) rows rest
      else if c = ',' then scan (.tuple (values ++ [stripChars cur]) []) rows rest
      else if c = ')' then scan .between (addRow rows (values ++ [stripChars cur])) rest
      else scan (.tuple values (cur ++ [c])) rows rest := rfl

theorem scan_quoted_cons (quote : Char) (values : List (List Char)) (cur : List Char)
    (rows : List (List (List Char))) (c d : Char) (rest : List Char) :
    scan (.quoted quote values cur) rows (c :: d :: rest) =
      if c = '\\' then scan (.quoted quote values (cur ++ [d])) rows rest
      else if c = quote then
        if d = quote then scan (.quoted quote values (cur ++ [quote])) rows rest
        else scan (.tuple values cur) rows (d :: rest)
      else scan (.quoted quote values (cur ++ [c])) rows (d :: rest) := rfl

def splitSqlValues (segment : List Char) : List (List (List Char)) := scan .between [] segment

def Number : Type := { s : List Char // s ≠ [] ∧ ∀ c ∈ s, c ∈ "0123456789+-.eE".toList }

inductive Cell
  | null
  | string (s : List Char)
  | number (n : Number)

def Cell.text : Cell → List Char
  | .null => []
  | .string s => s
  | .number n => n.val

def escapeChar (c : Char) : List Char :=
  if c = '\\' then ['\\', '\\']
  else if c = '\'' then ['\\', '\'']
  else if c = '"' then ['\\', '"']
  else if c = '\n' then ['\\', 'n']
  else if c = '\r' then ['\\', 'r']
  else if c = Char.ofNat 0 then ['\\', '0']
  else if c = Char.ofNat 26 then ['\\', 'Z']
  else [c]

def Cell.dump : Cell → List Char
  | .null => "NULL".toList
  | .string s => ['\''] ++ s.flatMap escapeChar ++ ['\'']
  | .number n => n.val

def dumpTuple (cells : List Cell) : List Char :=
  ['('] ++ [','].intercalate (cells.map Cell.dump) ++ [')']

def dumpValues (tuples : List (List Cell)) : List Char :=
  [' '] ++ [','].intercalate (tuples.map dumpTuple) ++ [';']

def unescaped (c : Char) : Char :=
  if c = '\n' then 'n'
  else if c = '\r' then 'r'
  else if c = Char.ofNat 0 then '0'
  else if c = Char.ofNat 26 then 'Z'
  else c

theorem scan_escapeChar (values : List (List Char)) (cur : List Char)
    (rows : List (List (List Char))) (c d : Char) (rest : List Char) :
    scan (.quoted '\'' values cur) rows (escapeChar c ++ d :: rest) =
      scan (.quoted '\'' values (cur ++ [unescaped c])) rows (d :: rest) := by
  by_cases hback : c = '\\'
  · subst hback; rfl
  by_cases hquote : c = '\''
  · subst hquote; rfl
  by_cases hdouble : c = '"'
  · subst hdouble; rfl
  by_cases hline : c = '\n'
  · subst hline; rfl
  by_cases hreturn : c = '\r'
  · subst hreturn; rfl
  by_cases hnul : c = Char.ofNat 0
  · subst hnul; rfl
  by_cases hsub : c = Char.ofNat 26
  · subst hsub; rfl
  have hdump : escapeChar c = [c] := by
    simp only [escapeChar, if_neg hback, if_neg hquote, if_neg hdouble, if_neg hline,
      if_neg hreturn, if_neg hnul, if_neg hsub]
  have hread : unescaped c = c := by
    simp only [unescaped, if_neg hline, if_neg hreturn, if_neg hnul, if_neg hsub]
  rw [hdump, hread, List.singleton_append, scan_quoted_cons, if_neg hback, if_neg hquote]

theorem scan_escaped (values : List (List Char)) (cur : List Char)
    (rows : List (List (List Char))) (s : List Char) (d : Char) (rest : List Char) :
    scan (.quoted '\'' values cur) rows (s.flatMap escapeChar ++ d :: rest) =
      scan (.quoted '\'' values (cur ++ s.map unescaped)) rows (d :: rest) := by
  induction s generalizing cur with
  | nil => rw [List.map_nil, List.append_nil, List.flatMap_nil, List.nil_append]
  | cons c s ih =>
    obtain ⟨e, more, hmore⟩ : ∃ e more, s.flatMap escapeChar ++ d :: rest = e :: more := by
      cases s.flatMap escapeChar with
      | nil => exact ⟨d, rest, rfl⟩
      | cons e more => exact ⟨e, more ++ d :: rest, rfl⟩
    rw [List.flatMap_cons, List.append_assoc, hmore, scan_escapeChar, ← hmore, ih,
      List.map_cons, List.append_assoc, List.singleton_append]

def structural : List Char := ['\'', '"', ',', ')']

theorem scan_plain {s : List Char} (hs : ∀ c ∈ s, c ∉ structural) (values : List (List Char))
    (cur : List Char) (rows : List (List (List Char))) (rest : List Char) :
    scan (.tuple values cur) rows (s ++ rest) = scan (.tuple values (cur ++ s)) rows rest := by
  induction s generalizing cur with
  | nil => rw [List.append_nil, List.nil_append]
  | cons c s ih =>
    have hc : c ≠ '\'' ∧ c ≠ '"' ∧ c ≠ ',' ∧ c ≠ ')' := by
      simpa [structural] using hs c List.mem_cons_self
    rw [List.cons_append, scan_tuple_cons, if_neg (by simp [hc.1, hc.2.1]), if_neg hc.2.2.1,
      if_neg hc.2.2.2, ih (fun e he => hs e (List.mem_cons_of_mem _ he)), List.append_assoc,
      List.singleton_append]

def Cell.scanned : Cell → List Char
  | .null => "NULL".toList
  | .string s => s.map unescaped
  | .number n => n.val

theorem number_char {c : Char} (hc : c ∈ "0123456789+-.eE".toList) :
    c ∉ structural ∧ isSpace c = false ∧ c.toUpper ≠ 'N' :=
  (by decide : ∀ c ∈ "0123456789+-.eE".toList,
    c ∉ structural ∧ isSpace c = false ∧ c.toUpper ≠ 'N') c hc

theorem scan_cell (cell : Cell) (values : List (List Char)) (rows : List (List (List Char)))
    {d : Char} (hd : d ≠ '\'') (rest : List Char) :
    scan (.tuple values []) rows (cell.dump ++ d :: rest) =
      scan (.tuple values cell.scanned) rows (d :: rest) := by
  cases cell with
  | null => exact scan_plain (by decide) values [] rows (d :: rest)
  | number n =>
    exact scan_plain (fun c hc => (number_char (n.property.2 c hc)).1) values [] rows (d :: rest)
  | string s =>
    have hopen : scan (.tuple values []) rows (Cell.dump (.string s) ++ d :: rest) =
        scan (.quoted '\'' values []) rows (s.flatMap escapeChar ++ '\'' :: d :: rest) := by
      rw [Cell.dump, List.append_assoc, List.append_assoc, List.singleton_append, scan_tuple_cons,
        if_pos (Or.inl rfl), List.singleton_append]
    have hclose : scan (.quoted '\'' values (s.map unescaped)) rows ('\'' :: d :: rest) =
        scan (.tuple values (s.map unescaped)) rows (d :: rest) := by
      rw [scan_quoted_cons, if_neg (by decide), if_pos rfl, if_neg hd]
    rw [hopen, scan_escaped, List.nil_append, hclose]
    rfl

def Cell.decoded (cell : Cell) : List Char := norm (stripChars cell.scanned)

def decodedTuple (cells : List Cell) : List (List Char) :=
  if cells = [] then [[]] else cells.map Cell.decoded

theorem scan_cells {cells : List Cell} (hcells : cells ≠ []) (values : List (List Char))
    (rows : List (List (List Char))) (rest : List Char) :
    scan (.tuple values []) rows ([','].intercalate (cells.map Cell.dump) ++ ')' :: rest) =
      scan .between (addRow rows (values ++ cells.map fun c => stripChars c.scanned)) rest := by
  induction cells generalizing values with
  | nil => exact absurd rfl hcells
  | cons cell cells ih =>
    cases cells with
    | nil =>
      rw [List.map_singleton, List.intercalate_singleton, scan_cell cell values rows (by decide),
        scan_tuple_cons, if_neg (by decide), if_neg (by decide), if_pos rfl, List.map_singleton]
    | cons next cells =>
      rw [List.map_cons, List.map_cons, List.intercalate_cons_cons, List.append_assoc,
        List.append_assoc, List.singleton_append,
        scan_cell cell values rows (by decide), scan_tuple_cons, if_neg (by decide), if_pos rfl,
        ← List.map_cons, ih (List.cons_ne_nil _ _), List.map_cons, List.map_cons, List.append_assoc,
        List.singleton_append]
      rfl

theorem scan_tuple {rows : List (List (List Char))} (hrows : rows.length < maxRows)
    (cells : List Cell) (rest : List Char) :
    scan .between rows (dumpTuple cells ++ rest) =
      scan .between (rows ++ [decodedTuple cells]) rest := by
  have hopen : scan .between rows (dumpTuple cells ++ rest) =
      scan (.tuple [] []) rows ([','].intercalate (cells.map Cell.dump) ++ ')' :: rest) := by
    rw [dumpTuple, List.append_assoc, List.append_assoc, List.singleton_append,
      scan_between_cons,
      if_neg (by omega), if_neg (by decide), if_pos rfl, List.singleton_append]
  rw [hopen]
  by_cases hcells : cells = []
  · subst hcells
    rfl
  · have hmap : (cells.map fun c => stripChars c.scanned) ≠ [] := by simpa using hcells
    rw [scan_cells hcells, List.nil_append, addRow, if_pos hmap, List.map_map, decodedTuple,
      if_neg hcells]
    rfl

theorem scan_tuples {rows : List (List (List Char))} {tuples : List (List Cell)}
    (hrows : rows.length + tuples.length ≤ maxRows) :
    scan .between rows ([','].intercalate (tuples.map dumpTuple) ++ [';']) =
      rows ++ tuples.map decodedTuple := by
  have hclose : ∀ rows : List (List (List Char)), scan .between rows [';'] = rows := by
    intro rows
    by_cases hfull : maxRows ≤ rows.length
    · rw [scan_between_cons, if_pos hfull]
    · rw [scan_between_cons, if_neg hfull, if_neg (by decide), if_neg (by decide), if_pos rfl]
  induction tuples generalizing rows with
  | nil => rw [List.map_nil, List.map_nil, List.append_nil]; exact hclose rows
  | cons cells tuples ih =>
    rw [List.length_cons] at hrows
    cases tuples with
    | nil =>
      rw [List.map_singleton, List.intercalate_singleton, scan_tuple (by simp at hrows; omega),
        hclose, List.map_singleton]
    | cons next tuples =>
      have hlt : (rows ++ [decodedTuple cells]).length < maxRows := by
        simp only [List.length_append, List.length_cons, List.length_nil] at hrows ⊢
        omega
      rw [List.map_cons, List.map_cons, List.intercalate_cons_cons, List.append_assoc,
        List.append_assoc, scan_tuple (by omega), List.singleton_append,
        scan_between_cons,
        if_neg (by omega), if_pos (by decide), ← List.map_cons,
        ih (by simp only [List.length_append, List.length_singleton]; omega), List.append_assoc,
        List.map_cons]
      rfl

theorem splitSqlValues_dumpValues {tuples : List (List Cell)} (hrows : tuples.length ≤ maxRows) :
    splitSqlValues (dumpValues tuples) = tuples.map decodedTuple := by
  have hblank : splitSqlValues (dumpValues tuples) =
      scan .between [] ([','].intercalate (tuples.map dumpTuple) ++ [';']) := by
    rw [splitSqlValues, dumpValues, List.append_assoc, List.singleton_append, scan_between_cons,
      if_neg (by decide), if_pos (by decide)]
  rw [hblank, scan_tuples (by simpa using hrows), List.nil_append]

/-- A text the scan gives back: no character whose escape is a letter, no blank at
its ends, and not the word `NULL`. -/
def Plain (s : List Char) : Prop :=
  (∀ c ∈ s, unescaped c = c) ∧ stripChars s = s ∧ s.map Char.toUpper ≠ "NULL".toList

def Cell.Plain : Cell → Prop
  | .string s => SqlDump.Plain s
  | _ => True

theorem stripChars_map_eq_self {s : List Char} {f : Char → Char}
    (h : stripChars (s.map f) = s) : s.map f = s := by
  have hall : stripChars (s.map f) = s.map f := by
    refine (stripChars_sublist (s.map f)).eq_of_length ?_
    rw [h, List.length_map]
  rw [← hall, h]

theorem map_eq_self {s : List Char} {f : Char → Char} : s.map f = s ↔ ∀ c ∈ s, f c = c := by
  have hinj := List.map_inj_left (l := s) (f := f) (g := id)
  rwa [List.map_id] at hinj

theorem norm_of_length {v : List Char} (hlen : v.length ≤ maxCellLen) :
    norm v = if (stripChars v).map Char.toUpper = "NULL".toList then [] else stripChars v := by
  have hstrip := (stripChars_sublist v).length_le
  rw [norm, clip, List.take_of_length_le]
  split_ifs
  · exact Nat.zero_le _
  · omega

theorem decoded_string {s : List Char} (hlen : s.length ≤ maxCellLen) :
    (Cell.string s).decoded = s ↔ Plain s := by
  have hlong : (stripChars (s.map unescaped)).length ≤ maxCellLen :=
    (stripChars_sublist _).length_le.trans (by rwa [List.length_map])
  have hread : (Cell.string s).decoded =
      if (stripChars (s.map unescaped)).map Char.toUpper = "NULL".toList then []
      else stripChars (s.map unescaped) := by
    rw [Cell.decoded, Cell.scanned, norm_of_length hlong, stripChars_stripChars]
  rw [hread]
  constructor
  · intro h
    by_cases hnull : (stripChars (s.map unescaped)).map Char.toUpper = "NULL".toList
    · rw [if_pos hnull] at h
      rw [← h] at hnull
      exact absurd hnull (by decide)
    · rw [if_neg hnull] at h
      have hmap := stripChars_map_eq_self h
      rw [hmap] at h hnull
      rw [h] at hnull
      exact ⟨map_eq_self.mp hmap, h, hnull⟩
  · rintro ⟨hchars, hstrip, hnull⟩
    have hmap : s.map unescaped = s := map_eq_self.mpr hchars
    rw [hmap, hstrip, if_neg hnull]

theorem decoded_number (n : Number) (hlen : n.val.length ≤ maxCellLen) :
    (Cell.number n).decoded = n.val := by
  have hstrip : stripChars n.val = n.val :=
    stripChars_of_noSpace fun c hc => (number_char (n.property.2 c hc)).2.1
  have hword : n.val.map Char.toUpper ≠ "NULL".toList := by
    intro hnull
    cases hval : n.val with
    | nil => exact n.property.1 hval
    | cons c cs =>
      rw [hval] at hnull
      have hN : c.toUpper = 'N' := (List.cons.inj hnull).1
      exact (number_char (n.property.2 c (by rw [hval]; exact List.mem_cons_self))).2.2 hN
  rw [Cell.decoded, Cell.scanned, hstrip, norm_of_length hlen, hstrip, if_neg hword]

theorem decoded_eq_text {cell : Cell} (hlen : cell.text.length ≤ maxCellLen) :
    cell.decoded = cell.text ↔ cell.Plain := by
  cases cell with
  | null => exact iff_of_true (by decide) trivial
  | string s => exact decoded_string hlen
  | number n => exact iff_of_true (decoded_number n hlen) trivial

theorem decodedTuple_eq_text {cells : List Cell}
    (hlen : ∀ cell ∈ cells, cell.text.length ≤ maxCellLen) :
    decodedTuple cells = cells.map Cell.text ↔ cells ≠ [] ∧ ∀ cell ∈ cells, cell.Plain := by
  by_cases hcells : cells = []
  · subst hcells
    exact iff_of_false (by decide) (fun h => h.1 rfl)
  · rw [decodedTuple, if_neg hcells, List.map_inj_left]
    refine ⟨fun h => ⟨hcells, fun cell hcell => ?_⟩, fun h cell hcell => ?_⟩
    · exact (decoded_eq_text (hlen cell hcell)).mp (h cell hcell)
    · exact (decoded_eq_text (hlen cell hcell)).mpr (h.2 cell hcell)

/-- The rows dumped are the rows read exactly when every tuple has a cell and every text in
them is plain. -/
theorem values_read_back (tuples : List (List Cell)) (hrows : tuples.length ≤ maxRows)
    (hlen : ∀ cells ∈ tuples, ∀ cell ∈ cells, cell.text.length ≤ maxCellLen) :
    splitSqlValues (dumpValues tuples) = tuples.map (List.map Cell.text) ↔
      ∀ cells ∈ tuples, cells ≠ [] ∧ ∀ cell ∈ cells, cell.Plain := by
  rw [splitSqlValues_dumpValues hrows, List.map_inj_left]
  refine forall_congr' fun cells => forall_congr' fun hcells => ?_
  exact decodedTuple_eq_text (hlen cells hcells)

theorem values_read_back_quoted :
    splitSqlValues (dumpValues [[.string "it's (a, b)".toList, .null]]) =
      [["it's (a, b)".toList, []]] := by
  refine (values_read_back [[.string "it's (a, b)".toList, .null]] (by decide) (by decide)).mpr ?_
  intro cells hcells
  obtain rfl := List.mem_singleton.mp hcells
  refine ⟨List.cons_ne_nil _ _, ?_⟩
  simp only [List.forall_mem_cons, List.not_mem_nil, Cell.Plain]
  exact ⟨⟨by decide, by decide, by decide⟩, trivial, fun _ h => h.elim⟩

/-- A note of two lines comes back with a letter in place of the line end. -/
theorem line_end_becomes_letter :
    ¬ ∀ tuples : List (List Cell), tuples.length ≤ maxRows →
      (∀ cells ∈ tuples, ∀ cell ∈ cells, cell.text.length ≤ maxCellLen) →
      splitSqlValues (dumpValues tuples) = tuples.map (List.map Cell.text) := by
  intro h
  have hread : splitSqlValues (dumpValues [[.string "a\nb".toList]]) = [["anb".toList]] := by decide
  have hclaim := h [[.string "a\nb".toList]] (by decide) (by decide)
  rw [hread] at hclaim
  exact absurd hclaim (by decide)

end RadiusModule.Migration.SqlDump
