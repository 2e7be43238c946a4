import Mathlib.Algebra.GroupWithZero.Nat
import RadiusModule.Library.Lines

/-!
# The statements of a dump

A dump is read in pieces of text. A statement is the lines up to one that ends in
a semicolon; the unfinished line and the unfinished statement are carried over to
the next piece.
-/

namespace RadiusModule.Migration.SqlDump
open Library PyText Blocks

/-- `96 << 20` -/
def maxPending : ℕ := 96 <<< 20

/-- `"\n".join(buf).strip()` -/
def statement (buf : List (List Char)) : List Char := stripChars (['\n'].intercalate buf)

/-- `line.rstrip().endswith(";")` -/
def endsStatement (line : List Char) : Bool := (line.rdropWhile isSpace).getLast? = some ';'

/-- The local variables of `_iter_sql_statements` and what it has yielded. -/
structure Splitter where
  buf : List (List Char) := []
  pendingLine : List Char := []
  yielded : List (List Char) := []

def Splitter.flush (s : Splitter) : Splitter :=
  let stmt := statement s.buf
  { s with buf := [], yielded := if stmt ≠ [] then s.yielded ++ [stmt] else s.yielded }

def Splitter.takeLine (s : Splitter) (line : List Char) : Splitter :=
  let s := { s with buf := s.buf ++ [line] }
  if endsStatement line then s.flush else s

def Splitter.bounded (s : Splitter) : Splitter :=
  if (s.buf.map List.length).sum > maxPending then s.flush else s

def Splitter.takeChunk (s : Splitter) (chunk : List Char) : Splitter :=
  let lines := splitChars '\n' (s.pendingLine ++ chunk)
  (lines.dropLast.foldl takeLine { s with pendingLine := lines.getLastD [] }).bounded

def Splitter.finish (s : Splitter) : List (List Char) :=
  let s := if s.pendingLine ≠ [] then { s with buf := s.buf ++ [s.pendingLine] } else s
  s.flush.yielded

def iterSqlStatements (chunks : List (List Char)) : List (List Char) :=
  (chunks.foldl Splitter.takeChunk {}).finish

/-- The lines of each statement of a text, the unfinished one included, stay under the
limit on lines that wait. -/
def BelowGuard (text : List Char) : Prop :=
  ∀ lines ∈ allBlocks endsStatement [] (splitChars '\n' text),
    (lines.map List.length).sum ≤ maxPending

instance (text : List Char) : Decidable (BelowGuard text) := List.decidableBAll _ _

def nonBlank (text : List Char) : List Char := text.filter fun c => !isSpace c

theorem filter_intercalate {p : Char → Bool} {sep : Char} (hp : p sep = false)
    (lines : List (List Char)) :
    ([sep].intercalate lines).filter p = lines.flatten.filter p := by
  induction lines with
  | nil => rfl
  | cons line lines ih =>
    cases lines with
    | nil => simp [List.intercalate]
    | cons next rest =>
      rw [List.intercalate_cons_cons, List.flatten_cons, List.filter_append, List.filter_append,
        List.filter_append, List.filter_cons_of_neg (by simp [hp]), ih]
      simp

theorem nonBlank_statement (buf : List (List Char)) :
    nonBlank (statement buf) = nonBlank buf.flatten := by
  rw [nonBlank, statement, filter_stripChars (fun c hc => by simp [hc]),
    filter_intercalate (by decide), nonBlank]

def yieldOf (buf : List (List Char)) : List (List Char) :=
  if statement buf ≠ [] then [statement buf] else []

theorem flush_eq (s : Splitter) :
    s.flush = { s with buf := [], yielded := s.yielded ++ yieldOf s.buf } := by
  by_cases hstmt : statement s.buf = []
  · simp [Splitter.flush, yieldOf, hstmt]
  · simp [Splitter.flush, yieldOf, hstmt]

theorem takeLine_eq (s : Splitter) (line : List Char) :
    s.takeLine line =
      if endsStatement line then
        { s with buf := [], yielded := s.yielded ++ yieldOf (s.buf ++ [line]) }
      else { s with buf := s.buf ++ [line] } := by
  simp only [Splitter.takeLine, flush_eq]

theorem takeLines_eq (s : Splitter) (lines : List (List Char)) :
    lines.foldl Splitter.takeLine s =
      { s with
        buf := (blocks endsStatement s.buf lines).2
        yielded := s.yielded ++ (blocks endsStatement s.buf lines).1.flatMap yieldOf } := by
  induction lines generalizing s with
  | nil => simp [blocks]
  | cons line lines ih =>
    rw [List.foldl_cons, ih, takeLine_eq]
    by_cases hend : endsStatement line = true
    · simp only [blocks, if_pos hend, List.flatMap_cons, List.append_assoc]
    · simp only [blocks, if_neg hend]

def wholeLines (text : List Char) : List (List Char) := (splitChars '\n' text).dropLast

def lastLine (text : List Char) : List Char := (splitChars '\n' text).getLastD []

theorem wholeLines_append_lastLine (text : List Char) :
    splitChars '\n' text = wholeLines text ++ [lastLine text] := by
  have hne := splitChars_ne_nil '\n' text
  rw [wholeLines, lastLine, List.getLastD_eq_getLast?, List.getLast?_eq_some_getLast hne,
    Option.getD_some, List.dropLast_append_getLast hne]

def stateAfter (text : List Char) : Splitter where
  buf := (blocks endsStatement [] (wholeLines text)).2
  pendingLine := lastLine text
  yielded := (blocks endsStatement [] (wholeLines text)).1.flatMap yieldOf

theorem waiting_le {text more : List Char} (hbelow : BelowGuard (text ++ more)) :
    ((blocks endsStatement [] (wholeLines text)).2.map List.length).sum ≤ maxPending := by
  have hsplit := splitChars_append (wholeLines_append_lastLine text) more
  obtain ⟨lines, hmem, tail, htail⟩ := exists_prefix_of_append endsStatement []
    (wholeLines text) (splitChars '\n' (lastLine text ++ more))
  rw [← hsplit] at hmem
  have hlines := hbelow lines hmem
  rw [← htail, List.map_append, List.sum_append] at hlines
  omega

theorem takeChunk_stateAfter {text chunk more : List Char}
    (hbelow : BelowGuard (text ++ chunk ++ more)) :
    (stateAfter text).takeChunk chunk = stateAfter (text ++ chunk) := by
  have hsplit := splitChars_append (wholeLines_append_lastLine text) chunk
  have hrest := wholeLines_append_lastLine (lastLine text ++ chunk)
  have hwhole : wholeLines (text ++ chunk) =
      wholeLines text ++ wholeLines (lastLine text ++ chunk) := by
    rw [wholeLines, hsplit, hrest, ← List.append_assoc, List.dropLast_concat]
  have hlast : lastLine (text ++ chunk) = lastLine (lastLine text ++ chunk) := by
    rw [lastLine, hsplit, hrest, ← List.append_assoc, List.getLastD_concat]
  have hstate : (wholeLines (lastLine text ++ chunk)).foldl Splitter.takeLine
      { stateAfter text with pendingLine := lastLine (lastLine text ++ chunk) } =
        stateAfter (text ++ chunk) := by
    rw [takeLines_eq]
    simp only [stateAfter, hwhole, hlast, blocks_append, List.flatMap_append]
  have hwait : ((stateAfter (text ++ chunk)).buf.map List.length).sum ≤ maxPending :=
    waiting_le hbelow
  calc (stateAfter text).takeChunk chunk
      = ((wholeLines (lastLine text ++ chunk)).foldl Splitter.takeLine
          { stateAfter text with pendingLine := lastLine (lastLine text ++ chunk) }).bounded := rfl
    _ = (stateAfter (text ++ chunk)).bounded := by rw [hstate]
    _ = stateAfter (text ++ chunk) := if_neg (by omega)

theorem takeChunks_stateAfter {chunks : List (List Char)} {text : List Char}
    (hbelow : BelowGuard (text ++ chunks.flatten)) :
    chunks.foldl Splitter.takeChunk (stateAfter text) = stateAfter (text ++ chunks.flatten) := by
  induction chunks generalizing text with
  | nil => rw [List.foldl_nil, List.flatten_nil, List.append_nil]
  | cons chunk chunks ih =>
    rw [List.flatten_cons, ← List.append_assoc] at hbelow ⊢
    rw [List.foldl_cons, takeChunk_stateAfter hbelow, ih hbelow]

theorem iterSqlStatements_eq {chunks : List (List Char)} (hbelow : BelowGuard chunks.flatten) :
    iterSqlStatements chunks = (stateAfter chunks.flatten).finish :=
  have hempty : BelowGuard ([] ++ chunks.flatten) := hbelow
  congrArg Splitter.finish (takeChunks_stateAfter hempty)

def kept (s : Splitter) : List Char := nonBlank s.yielded.flatten ++ nonBlank s.buf.flatten

theorem nonBlank_append (xs ys : List Char) : nonBlank (xs ++ ys) = nonBlank xs ++ nonBlank ys :=
  List.filter_append xs ys

theorem nonBlank_yieldOf (buf : List (List Char)) :
    nonBlank (yieldOf buf).flatten = nonBlank buf.flatten := by
  by_cases hstmt : statement buf = []
  · have hnone := nonBlank_statement buf
    rw [hstmt] at hnone
    rw [← hnone, yieldOf, if_neg (not_not.mpr hstmt)]
    rfl
  · rw [yieldOf, if_pos hstmt, List.flatten_singleton, nonBlank_statement]

theorem kept_flush (s : Splitter) : kept s.flush = kept s := by
  simp only [kept, flush_eq, List.flatten_append, nonBlank_append, nonBlank_yieldOf]
  exact List.append_nil _

theorem kept_takeLine (s : Splitter) (line : List Char) :
    kept (s.takeLine line) = kept s ++ nonBlank line := by
  have hpush : kept { s with buf := s.buf ++ [line] } = kept s ++ nonBlank line := by
    simp only [kept, List.flatten_append, nonBlank_append, List.flatten_singleton,
      List.append_assoc]
  rw [Splitter.takeLine]
  split_ifs
  · rw [kept_flush, hpush]
  · exact hpush

theorem kept_takeLines (s : Splitter) (lines : List (List Char)) :
    kept (lines.foldl Splitter.takeLine s) = kept s ++ nonBlank lines.flatten := by
  induction lines generalizing s with
  | nil => exact (List.append_nil _).symm
  | cons line lines ih =>
    rw [List.foldl_cons, ih, kept_takeLine, List.flatten_cons, nonBlank_append, List.append_assoc]

theorem kept_bounded (s : Splitter) : kept s.bounded = kept s := by
  rw [Splitter.bounded]
  split_ifs
  · exact kept_flush s
  · rfl

theorem pendingLine_bounded (s : Splitter) : s.bounded.pendingLine = s.pendingLine := by
  rw [Splitter.bounded]
  split_ifs
  · rw [flush_eq]
  · rfl

theorem kept_takeChunk (s : Splitter) (chunk : List Char) :
    kept (s.takeChunk chunk) ++ nonBlank (s.takeChunk chunk).pendingLine =
      kept s ++ nonBlank s.pendingLine ++ nonBlank chunk := by
  have hsplit := wholeLines_append_lastLine (s.pendingLine ++ chunk)
  have hflat : (splitChars '\n' (s.pendingLine ++ chunk)).flatten.filter (fun c => !isSpace c) =
      (s.pendingLine ++ chunk).filter fun c => !isSpace c :=
    filter_splitChars (by decide) _
  rw [hsplit, List.flatten_append, List.flatten_singleton] at hflat
  have hread : s.takeChunk chunk =
      ((wholeLines (s.pendingLine ++ chunk)).foldl Splitter.takeLine
        { s with pendingLine := lastLine (s.pendingLine ++ chunk) }).bounded := rfl
  have hpending : (s.takeChunk chunk).pendingLine = lastLine (s.pendingLine ++ chunk) := by
    rw [hread, pendingLine_bounded, takeLines_eq]
  calc kept (s.takeChunk chunk) ++ nonBlank (s.takeChunk chunk).pendingLine
      = kept s ++ nonBlank (wholeLines (s.pendingLine ++ chunk)).flatten ++
          nonBlank (lastLine (s.pendingLine ++ chunk)) := by
        rw [hpending, hread, kept_bounded, kept_takeLines]
        rfl
    _ = kept s ++ nonBlank (s.pendingLine ++ chunk) := by
        rw [List.append_assoc, ← nonBlank_append, nonBlank, hflat, nonBlank]
    _ = kept s ++ nonBlank s.pendingLine ++ nonBlank chunk := by
        rw [nonBlank_append, List.append_assoc]

theorem nonBlank_finish (s : Splitter) :
    nonBlank s.finish.flatten = kept s ++ nonBlank s.pendingLine := by
  have hend : ∀ t : Splitter, nonBlank t.flush.yielded.flatten = kept t := by
    intro t
    rw [← kept_flush t, kept, flush_eq]
    exact (List.append_nil _).symm
  rw [Splitter.finish]
  split_ifs with hpending
  · rw [hend]
    simp only [kept, List.flatten_append, nonBlank_append, List.flatten_singleton,
      List.append_assoc]
  · rw [hend, not_not.mp hpending]
    exact (List.append_nil _).symm

theorem nonBlank_iterSqlStatements (chunks : List (List Char)) :
    nonBlank (iterSqlStatements chunks).flatten = nonBlank chunks.flatten := by
  have hrun : ∀ s : Splitter, kept (chunks.foldl Splitter.takeChunk s) ++
      nonBlank (chunks.foldl Splitter.takeChunk s).pendingLine =
        kept s ++ nonBlank s.pendingLine ++ nonBlank chunks.flatten := by
    induction chunks with
    | nil => exact fun s => (List.append_nil _).symm
    | cons chunk chunks ih =>
      intro s
      rw [List.foldl_cons, ih, kept_takeChunk, List.flatten_cons, nonBlank_append,
        List.append_assoc]
  rw [iterSqlStatements, nonBlank_finish, hrun]
  rfl

/-- However a text is cut, the same statements are read, and they hold all of it but blanks. -/
theorem pieces_read_as_whole (text : List Char) (chunks : List (List Char))
    (hcut : chunks.flatten = text) (hbelow : BelowGuard text) :
    iterSqlStatements chunks = iterSqlStatements [text] ∧
      nonBlank (iterSqlStatements chunks).flatten = nonBlank text := by
  subst hcut
  have hwhole : BelowGuard [chunks.flatten].flatten := by rwa [List.flatten_singleton]
  refine ⟨?_, nonBlank_iterSqlStatements chunks⟩
  rw [iterSqlStatements_eq hbelow, iterSqlStatements_eq hwhole, List.flatten_singleton]

theorem pieces_cut_in_line :
    iterSqlStatements ["SE".toList, "T a;".toList, "\nSET b".toList] =
        iterSqlStatements ["SET a;\nSET b".toList] ∧
      nonBlank (iterSqlStatements ["SE".toList, "T a;".toList, "\nSET b".toList]).flatten =
        nonBlank "SET a;\nSET b".toList :=
  pieces_read_as_whole "SET a;\nSET b".toList _ (by decide) (by decide)

example : iterSqlStatements ["SE".toList, "T a;".toList, "\nSET b".toList] =
    ["SET a;".toList, "SET b".toList] := by decide

end RadiusModule.Migration.SqlDump
