import RadiusModule.Integration.Mikrotik.Protocol
import RadiusModule.Library.NumberText

/-!
# Sentences over a stream

Any run of sentences is read back sentence by sentence, and the attributes that
a command is sent with are found again in the words that are read. The replies to
a command are read up to the first `!done`, also when one of them is a trap, which
is raised after that: so the next command finds its own replies first.
-/

namespace RadiusModule.Mikrotik

open Library Library.Wire

def attrOf (w : Bytes) : Option (String × String) :=
  match (Utf8.decode w).toList with
  | '=' :: body => some (nameValue body)
  | _ => none

theorem add_attrs (d : Sentence) (w : Bytes) : (d.add w).attrs =
    match attrOf w with
    | some kv => d.attrs.put kv.1 kv.2
    | none => d.attrs := by
  simp only [Sentence.add, attrOf]
  generalize (Utf8.decode w).toList = cs
  rcases cs with _ | ⟨c, body⟩
  · rfl
  by_cases hbang : c = '!'
  · subst hbang
    rfl
  by_cases heq : c = '='
  · subst heq
    rfl
  by_cases hdot : c = '.'
  · subst hdot
    rfl
  simp [*]

theorem foldl_add_attrs (d : Sentence) (words : List Bytes) : (words.foldl Sentence.add d).attrs =
    (words.filterMap attrOf).foldl (fun d kv => d.put kv.1 kv.2) d.attrs := by
  induction words generalizing d with
  | nil => rfl
  | cons w words ih =>
    rw [List.foldl_cons, ih, add_attrs]
    cases hw : attrOf w with
    | none => rw [List.filterMap_cons_none hw]
    | some kv => rw [List.filterMap_cons_some hw, List.foldl_cons]

theorem nameValue_join {key : String} (hkey : '=' ∉ key.toList) (value : String) :
    nameValue (key.toList ++ '=' :: value.toList) = (key, value) := by
  have hall : ∀ c ∈ key.toList, decide (c ≠ '=') = true := by
    intro c hc
    simp only [decide_eq_true_eq]
    rintro rfl
    exact hkey hc
  rw [nameValue, if_pos (by simp), List.takeWhile_append_of_pos hall,
    List.dropWhile_append_of_pos hall]
  simp

theorem attrOf_buildAttr {key : String} (hkey : '=' ∉ key.toList) (value : String) :
    attrOf (Utf8.encode (buildAttr key value)) = some (key, value) := by
  have hchars : (buildAttr key value).toList = '=' :: (key.toList ++ '=' :: value.toList) := by
    simp [buildAttr]
  rw [attrOf, Utf8.decode_encode, hchars]
  simp only [nameValue_join hkey]

theorem attrOf_query {q : String} (hq : ∀ body, q.toList ≠ '=' :: body) :
    attrOf (Utf8.encode q) = none := by
  rw [attrOf, Utf8.decode_encode]
  split
  · exact absurd ‹_› (hq _)
  · rfl

theorem get?_foldl_put_of_mem {d : Dict String String} {pairs : List (String × String)}
    {key value : String} (hkeys : (pairs.map Prod.fst).Nodup) (hmem : (key, value) ∈ pairs) :
    (pairs.foldl (fun d kv => d.put kv.1 kv.2) d).get? key = some value := by
  rw [Dict.get?_foldl_put]
  have hfilter : (key, value) ∈ pairs.filter fun kv => kv.1 = key :=
    List.mem_filter.mpr ⟨hmem, by simp⟩
  obtain ⟨last, hlast⟩ := Option.ne_none_iff_exists'.mp
    (mt List.getLast?_eq_none_iff.mp (List.ne_nil_of_mem hfilter))
  have hin := List.mem_filter.mp (List.mem_of_getLast? hlast)
  have hsame : last = (key, value) :=
    List.inj_on_of_nodup_map hkeys hin.1 hmem (by simpa using hin.2)
  rw [hlast, hsame]
  rfl

section Run

variable {V : Type} (str : V → String)

theorem filterMap_runWords {command : String} {attrs : Dict String V} {queries : List String}
    (heq : ∀ kv ∈ attrs, '=' ∉ kv.1.toList)
    (hqueries : ∀ q ∈ queries, ∀ body, q.toList ≠ '=' :: body) :
    ((runWords str command attrs queries).map Word.raw).filterMap attrOf =
      (attrOf (Utf8.encode command)).toList ++ attrs.map fun kv => (kv.1, str kv.2) := by
  have hnone : (queries.map fun q => Utf8.encode q).filterMap attrOf = [] := by
    rw [List.filterMap_eq_nil_iff]
    rintro w hw
    obtain ⟨q, hq, rfl⟩ := List.mem_map.mp hw
    exact attrOf_query (hqueries q hq)
  have hattrs : (attrs.map fun kv => Utf8.encode (buildAttr kv.1 (str kv.2))).filterMap attrOf =
      attrs.map fun kv => (kv.1, str kv.2) := by
    clear hnone
    induction attrs with
    | nil => rfl
    | cons kv attrs ih =>
      rw [List.map_cons, List.filterMap_cons_some
        (attrOf_buildAttr (heq kv List.mem_cons_self) (str kv.2)),
        ih fun p hp => heq p (List.mem_cons_of_mem _ hp)]
      rfl
  have hwords : (runWords str command attrs queries).map Word.raw =
      Utf8.encode command :: ((attrs.map fun kv => Utf8.encode (buildAttr kv.1 (str kv.2))) ++
        queries.map fun q => Utf8.encode q) := by
    simp only [runWords, List.map_append, List.map_map, List.map_cons, List.cons_append,
      List.nil_append]
    rfl
  rw [hwords, ← List.singleton_append, List.filterMap_append, List.filterMap_append, hattrs, hnone,
    List.append_nil]
  rfl

/-- Whatever follows on the stream, the sentence that `run` sends is read back with every
attribute in it. -/
def Recovers (command : String) (attrs : Dict String V) (queries : List String) : Prop :=
  ∀ sent rest, encodeSentence (runWords str command attrs queries) = .ok sent →
    ∃ words, decodeSentence (sent ++ rest) = .ok (words, rest) ∧
      ∀ key value, (key, value) ∈ attrs →
        (wordsToDict words).attrs.get? key = some (str value)

theorem recovers {command : String} {attrs : Dict String V} {queries : List String}
    (hcommand : command ≠ "") (hkeys : (attrs.map Prod.fst).Nodup)
    (heq : ∀ kv ∈ attrs, '=' ∉ kv.1.toList)
    (hqueries : ∀ q ∈ queries, q ≠ "" ∧ ∀ body, q.toList ≠ '=' :: body) :
    Recovers str command attrs queries := by
  intro sent rest hsent
  have hne : ∀ w ∈ runWords str command attrs queries, w.raw ≠ [] := by
    intro w hw
    rcases List.mem_append.mp hw with hw | hw
    · rcases List.mem_append.mp hw with hw | hw
      · rw [List.mem_singleton.mp hw]
        exact Utf8.encode_ne_nil hcommand
      · obtain ⟨kv, -, rfl⟩ := List.mem_map.mp hw
        refine Utf8.encode_ne_nil fun hempty => ?_
        have hchars := congrArg String.toList hempty
        simp [buildAttr] at hchars
    · obtain ⟨q, hq, rfl⟩ := List.mem_map.mp hw
      exact Utf8.encode_ne_nil (hqueries q hq).1
  obtain ⟨bytes, hbytes, hread⟩ := encodeSentence_reads fun w hw =>
    ⟨hne w hw, lt_of_encodeSentence hsent w hw⟩
  obtain rfl : bytes = sent := by
    rw [hbytes] at hsent
    exact Except.ok.inj hsent
  refine ⟨_, hread rest, fun key value hmem => ?_⟩
  rw [wordsToDict, foldl_add_attrs, filterMap_runWords str heq fun q hq => (hqueries q hq).2,
    List.foldl_append]
  refine get?_foldl_put_of_mem ?_ (List.mem_map.mpr ⟨(key, value), hmem, rfl⟩)
  rwa [List.map_map]

end Run

theorem raw_ne_nil {w : Word} (hstr : w ≠ .str "") (hbytes : w ≠ .bytes []) : w.raw ≠ [] := by
  cases w with
  | str s => exact Utf8.encode_ne_nil fun hs => hstr (congrArg Word.str hs)
  | bytes raw => exact fun hraw => hbytes (congrArg Word.bytes hraw)

theorem mapM_encodeSentence_reads {sentences : List (List Word)}
    (h : ∀ words ∈ sentences, ∀ w ∈ words, w.raw ≠ [] ∧ w.raw.length < 2 ^ 32) :
    ∃ parts, sentences.mapM encodeSentence = .ok parts ∧
      Reads (readTimes decodeSentence sentences.length) parts.flatten
        (sentences.map (List.map Word.raw)) := by
  have hparts : ∃ parts : List (Bytes × List Bytes),
      sentences.mapM encodeSentence = .ok (parts.map Prod.fst) ∧
      parts.map Prod.snd = sentences.map (List.map Word.raw) ∧
      ∀ part ∈ parts, Reads decodeSentence part.1 part.2 := by
    induction sentences with
    | nil => exact ⟨[], rfl, rfl, by simp⟩
    | cons words sentences ih =>
      obtain ⟨parts, hmap, hraw, hread⟩ := ih fun ws hws => h ws (List.mem_cons_of_mem _ hws)
      obtain ⟨bytes, hbytes, hsentence⟩ := encodeSentence_reads (h words List.mem_cons_self)
      refine ⟨(bytes, words.map Word.raw) :: parts, ?_, by simp [hraw], ?_⟩
      · rw [List.mapM_cons, hbytes, hmap]
        rfl
      · rintro part (_ | ⟨_, hpart⟩)
        · exact hsentence
        · exact hread part hpart
  obtain ⟨parts, hmap, hraw, hread⟩ := hparts
  have hlength : parts.length = sentences.length := by
    rw [← List.length_map (f := Prod.snd), hraw, List.length_map]
  refine ⟨parts.map Prod.fst, hmap, ?_⟩
  rw [← List.flatMap_def, ← hraw, ← hlength]
  exact reads_readTimes hread

/-- Sentences of words that are not empty are read back one by one, with what follows them
left on the stream, and a command that is not empty is read back with its attributes. -/
theorem sentences_decode :
    (∀ sentences : List (List Word),
      (∀ words ∈ sentences, ∀ w ∈ words,
        w ≠ .str "" ∧ w ≠ .bytes [] ∧ w.raw.length < 2 ^ 32) →
      ∃ parts, sentences.mapM encodeSentence = .ok parts ∧
        ∀ rest, readTimes decodeSentence sentences.length (parts.flatten ++ rest) =
          .ok (sentences.map (List.map Word.raw), rest)) ∧
    ∀ {V : Type} (str : V → String) (command : String) (attrs : Dict String V)
      (queries : List String), command ≠ "" → (attrs.map Prod.fst).Nodup →
      (∀ kv ∈ attrs, '=' ∉ kv.1.toList) →
      (∀ q ∈ queries, q ≠ "" ∧ ∀ body, q.toList ≠ '=' :: body) →
      Recovers str command attrs queries := by
  refine ⟨fun sentences h => ?_, ?_⟩
  · refine mapM_encodeSentence_reads fun words hwords w hw => ?_
    obtain ⟨hstr, hbytes, hlt⟩ := h words hwords w hw
    exact ⟨raw_ne_nil hstr hbytes, hlt⟩
  · intro V str command attrs queries hcommand hkeys heq hqueries
    exact recovers str hcommand hkeys heq hqueries

theorem sentences_decode_login :
    (∃ parts, [[Word.str "/login", .bytes [0x3d, 0x21]], []].mapM encodeSentence = .ok parts ∧
      ∀ rest, readTimes decodeSentence 2 (parts.flatten ++ rest) =
        .ok ([[Utf8.encode "/login", [0x3d, 0x21]], []], rest)) ∧
    Recovers id "/login" [("name", "a=b"), ("password", "!")] ["?x"] := by
  refine ⟨sentences_decode.1 [[.str "/login", .bytes [0x3d, 0x21]], []] ?_,
    sentences_decode.2 id "/login" [("name", "a=b"), ("password", "!")] ["?x"] ?_ ?_ ?_ ?_⟩
  · decide
  · decide
  · decide
  · decide
  · simp

/-- An empty command word ends the sentence before its attributes. -/
theorem empty_command_loses : ¬ Recovers id "" [("name", "x")] [] := by
  intro hrec
  have hsent : encodeSentence (runWords id "" [("name", "x")] []) =
      .ok [0, 7, 61, 110, 97, 109, 101, 61, 120, 0] := by decide
  obtain ⟨words, hread, hall⟩ := hrec _ [] hsent
  have hend : decodeSentence [0, 7, 61, 110, 97, 109, 101, 61, 120, 0] = .ok ([], _) :=
    readUntil_none _ (reads_end [7, 61, 110, 97, 109, 101, 61, 120, 0])
  rw [List.append_nil] at hread
  rw [hend] at hread
  obtain ⟨rfl, -⟩ := Prod.mk.inj (Except.ok.inj hread)
  have hfound := hall "name" "x" (by simp)
  cases hfound

open PyText

inductive Failure
  | protocol (e : Error)
  | fatal (message : String)
  | noReply (s : Sentence)

/-- `MikrotikTrap` -/
structure Trap where
  message : String
  category : Option ℤ
  sentence : Sentence

structure Connection where
  incoming : Bytes
  sent : Bytes := []

def Sentence.category (s : Sentence) : Option ℤ :=
  match s.attrs.get? "category" with
  | some text =>
    if text ≠ "" ∧ text.toList.all (fun c => (digit? c).isSome) then int? text else none
  | none => none

/-- What the caller of `_exchange` gets for what came in. -/
def settle (out : List Sentence) : Option Sentence → Except Trap (List Sentence)
  | some s => .error ⟨(s.attrs.get? "message").getD "trap", s.category, s⟩
  | none => .ok out

def yielded (out : List Sentence) : List (Dict String String) :=
  (out.filter fun s => s.reply = some "!re").map Sentence.attrs

def lastTrap (trap : Option Sentence) (out : List Sentence) : Option Sentence :=
  out.foldl (fun trap s => if s.reply = some "!trap" then some s else trap) trap

def outcome (reply : List Sentence) : Except Trap (List Sentence) :=
  settle reply (lastTrap none reply)

inductive Answer
  | items (rows : List (Dict String String))
  | refused (message : String) (category : Option ℕ)

namespace Answer

def attrWords (row : Dict String String) : List Word :=
  row.map fun kv => .str (buildAttr kv.1 kv.2)

def refusal (message : String) (category : Option ℕ) : Dict String String :=
  (category.map fun n => ("category", toString (n : ℤ))).toList ++ [("message", message)]

def sentences : Answer → List (List Word)
  | .items rows => rows.map (fun row => .str "!re" :: attrWords row) ++ [[.str "!done"]]
  | .refused message category =>
    [.str "!trap" :: attrWords (refusal message category), [.str "!done"]]

/-- The names of an item are apart and have no `=` in them. -/
def Plain : Answer → Prop
  | .items rows => ∀ row ∈ rows, (row.map Prod.fst).Nodup ∧ ∀ kv ∈ row, '=' ∉ kv.1.toList
  | .refused _ _ => True

instance Plain.decidable : (answer : Answer) → Decidable answer.Plain
  | .items rows => inferInstanceAs (Decidable (∀ row ∈ rows, _))
  | .refused _ _ => inferInstanceAs (Decidable True)

def result : Answer → Except (String × Option ℤ) (List (Dict String String))
  | .items rows => .ok rows
  | .refused message category => .error (message, category.map fun n => (n : ℤ))

end Answer

def printWords (path : String) (proplist queries : List String) : List Word :=
  runWords id path (if proplist = [] then [] else [(".proplist", ",".intercalate proplist)]) queries

/-- A `print_` and what the router answers to it, in words that fit on the wire. -/
structure Call where
  path : String
  proplist : List String
  queries : List String
  answer : Answer
  plain : answer.Plain
  fits : ∀ words ∈ printWords path proplist queries :: answer.sentences, ∀ w ∈ words,
    w.raw ≠ [] ∧ w.raw.length < 2 ^ 32

def Call.words (call : Call) : List Word := printWords call.path call.proplist call.queries

example : ∃ call : Call, call.answer = .items [[("name", "a"), ("ranges", "10.0.0.2=")]] :=
  ⟨⟨"/ip/pool/print", ["name"], [], _, by decide, by decide⟩, rfl⟩

end RadiusModule.Mikrotik
