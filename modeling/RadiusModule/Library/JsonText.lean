import RadiusModule.Library.Dict
import RadiusModule.Library.Json
import Mathlib.Tactic

/-!
# JSON text

`json.dumps(…, ensure_ascii=False, separators=(",", ":"))`, and the reader of
`json.loads`. How a number literal is read is given; half of a surrogate pair
reads as the replacement character. What is written is read back.
-/

namespace RadiusModule.Library.JsonText

def hexChar (n : ℕ) : Char := if n < 10 then Char.ofNat (48 + n) else Char.ofNat (87 + n)

def escapeChar (c : Char) : List Char :=
  if c = '"' then ['\\', '"']
  else if c = '\\' then ['\\', '\\']
  else if c = '\n' then ['\\', 'n']
  else if c = '\r' then ['\\', 'r']
  else if c = '\t' then ['\\', 't']
  else if c = '\x08' then ['\\', 'b']
  else if c = '\x0c' then ['\\', 'f']
  else if c.toNat < 32 then ['\\', 'u', '0', '0', hexChar (c.toNat / 16), hexChar (c.toNat % 16)]
  else [c]

def quote (s : String) : List Char := '"' :: (s.toList.flatMap escapeChar ++ ['"'])

mutual

def writeChars : Json → List Char
  | .null => ['n', 'u', 'l', 'l']
  | .bool true => ['t', 'r', 'u', 'e']
  | .bool false => ['f', 'a', 'l', 's', 'e']
  | .number text _ => text.toList
  | .str s => quote s
  | .arr [] => ['[', ']']
  | .arr (v :: vs) => '[' :: (writeChars v ++ writeItems vs)
  | .obj [] => ['{', '}']
  | .obj ((k, v) :: fields) => '{' :: (quote k ++ ':' :: (writeChars v ++ writeFields fields))

def writeItems : List Json → List Char
  | [] => [']']
  | v :: vs => ',' :: (writeChars v ++ writeItems vs)

def writeFields : List (String × Json) → List Char
  | [] => ['}']
  | (k, v) :: fields => ',' :: (quote k ++ ':' :: (writeChars v ++ writeFields fields))

end

def dumps (v : Json) : String := String.ofList (writeChars v)

def isBlank (c : Char) : Bool := c = ' ' || c = '\t' || c = '\n' || c = '\r'

def skip (cs : List Char) : List Char := cs.dropWhile isBlank

def hexDigit? (c : Char) : Option ℕ :=
  if '0' ≤ c ∧ c ≤ '9' then some (c.toNat - 48)
  else if 'a' ≤ c ∧ c ≤ 'f' then some (c.toNat - 87)
  else if 'A' ≤ c ∧ c ≤ 'F' then some (c.toNat - 55)
  else none

def hex4? (a b c d : Char) : Option ℕ := do
  return 4096 * (← hexDigit? a) + 256 * (← hexDigit? b) + 16 * (← hexDigit? c) + (← hexDigit? d)

def escaped? (c : Char) : Option Char :=
  [('"', '"'), ('\\', '\\'), ('/', '/'), ('b', '\x08'), ('f', '\x0c'), ('n', '\n'), ('r', '\r'),
    ('t', '\t')].lookup c

def stringUnits : List Char → Option (List ℕ × List Char)
  | [] => none
  | '"' :: cs => some ([], cs)
  | '\\' :: 'u' :: a :: b :: c :: d :: cs => do
    let unit ← hex4? a b c d
    let (units, rest) ← stringUnits cs
    return (unit :: units, rest)
  | '\\' :: c :: cs => do
    let e ← escaped? c
    let (units, rest) ← stringUnits cs
    return (e.toNat :: units, rest)
  | c :: cs =>
    if c.toNat < 32 ∨ c = '\\' then none
    else do
      let (units, rest) ← stringUnits cs
      return (c.toNat :: units, rest)

def isHigh (u : ℕ) : Bool := 0xd800 ≤ u && u ≤ 0xdbff

def isLow (u : ℕ) : Bool := 0xdc00 ≤ u && u ≤ 0xdfff

def unitChar (u : ℕ) : Char := if isHigh u || isLow u then '\ufffd' else Char.ofNat u

def joinUnits : List ℕ → List Char
  | [] => []
  | [u] => [unitChar u]
  | u :: v :: us =>
    if isHigh u && isLow v then
      Char.ofNat (0x10000 + (u - 0xd800) * 0x400 + (v - 0xdc00)) :: joinUnits us
    else unitChar u :: joinUnits (v :: us)

def string? (cs : List Char) : Option (String × List Char) :=
  (stringUnits cs).map fun p => (String.ofList (joinUnits p.1), p.2)

def spanDigits (cs : List Char) : List Char × List Char := cs.span fun c => '0' ≤ c && c ≤ '9'

/-- `\.[0-9]+` and then `[eE][-+]?[0-9]+`, each of which may be missing. -/
def fraction (cs : List Char) : List Char × List Char :=
  match cs with
  | '.' :: cs' =>
    let (ds, rest) := spanDigits cs'
    if ds = [] then ([], cs) else ('.' :: ds, rest)
  | _ => ([], cs)

def exponent (cs : List Char) : List Char × List Char :=
  let digits (head : List Char) (cs' : List Char) : List Char × List Char :=
    let (ds, rest) := spanDigits cs'
    if ds = [] then ([], cs) else (head ++ ds, rest)
  match cs with
  | 'e' :: '-' :: cs' => digits ['e', '-'] cs'
  | 'e' :: '+' :: cs' => digits ['e', '+'] cs'
  | 'E' :: '-' :: cs' => digits ['E', '-'] cs'
  | 'E' :: '+' :: cs' => digits ['E', '+'] cs'
  | 'e' :: cs' => digits ['e'] cs'
  | 'E' :: cs' => digits ['E'] cs'
  | _ => ([], cs)

/-- `-?(?:0|[1-9][0-9]*)` -/
def integer? (cs : List Char) : Option (List Char × List Char) :=
  let natural (sign : List Char) : List Char → Option (List Char × List Char)
    | '0' :: cs => some (sign ++ ['0'], cs)
    | cs =>
      let (ds, rest) := spanDigits cs
      if ds = [] then none else some (sign ++ ds, rest)
  match cs with
  | '-' :: cs => natural ['-'] cs
  | cs => natural [] cs

def number? (cs : List Char) : Option (String × List Char) :=
  (integer? cs).map fun (whole, rest) =>
    let (frac, rest) := fraction rest
    let (exp, rest) := exponent rest
    (String.ofList (whole ++ frac ++ exp), rest)

section
variable (number : String → Json)

mutual

def value : ℕ → List Char → Option (Json × List Char)
  | 0, _ => none
  | fuel + 1, cs =>
    match cs with
    | '"' :: cs => (string? cs).map fun p => (.str p.1, p.2)
    | '[' :: cs =>
      match skip cs with
      | ']' :: cs => some (.arr [], cs)
      | cs => (items fuel cs).map fun p => (.arr p.1, p.2)
    | '{' :: cs =>
      match skip cs with
      | '}' :: cs => some (.obj [], cs)
      | cs => (fields fuel cs).map fun p => (.obj (Dict.ofPairs p.1), p.2)
    | 'n' :: 'u' :: 'l' :: 'l' :: cs => some (.null, cs)
    | 't' :: 'r' :: 'u' :: 'e' :: cs => some (.bool true, cs)
    | 'f' :: 'a' :: 'l' :: 's' :: 'e' :: cs => some (.bool false, cs)
    | 'N' :: 'a' :: 'N' :: cs => some (number "NaN", cs)
    | 'I' :: 'n' :: 'f' :: 'i' :: 'n' :: 'i' :: 't' :: 'y' :: cs => some (number "Infinity", cs)
    | '-' :: 'I' :: 'n' :: 'f' :: 'i' :: 'n' :: 'i' :: 't' :: 'y' :: cs =>
      some (number "-Infinity", cs)
    | cs => (number? cs).map fun p => (number p.1, p.2)

def items : ℕ → List Char → Option (List Json × List Char)
  | 0, _ => none
  | fuel + 1, cs => do
    let (v, cs) ← value fuel cs
    match skip cs with
    | ']' :: cs => return ([v], cs)
    | ',' :: cs =>
      let (vs, cs) ← items fuel (skip cs)
      return (v :: vs, cs)
    | _ => none

def fields : ℕ → List Char → Option (List (String × Json) × List Char)
  | 0, _ => none
  | fuel + 1, cs =>
    match cs with
    | '"' :: cs => do
      let (k, cs) ← string? cs
      match skip cs with
      | ':' :: cs =>
        let (v, cs) ← value fuel (skip cs)
        match skip cs with
        | '}' :: cs => return ([(k, v)], cs)
        | ',' :: cs =>
          let (rest, cs) ← fields fuel (skip cs)
          return ((k, v) :: rest, cs)
        | _ => none
      | _ => none
    | _ => none

end

/-- `json.loads`; a nested value has fewer characters than the one around it. -/
def loads (text : String) : Option Json :=
  match value number (2 * text.toList.length + 2) (skip text.toList) with
  | some (v, rest) => if skip rest = [] then some v else none
  | none => none

end

theorem isHigh_toNat (c : Char) : isHigh c.toNat = false ∧ isLow c.toNat = false := by
  have hvalid : c.toNat < 0xd800 ∨ 0xdfff < c.toNat ∧ c.toNat < 0x110000 := c.valid
  simp only [isHigh, isLow, Bool.and_eq_false_iff, decide_eq_false_iff_not]
  omega

theorem joinUnits_toNat (cs : List Char) : joinUnits (cs.map Char.toNat) = cs := by
  have hunit : ∀ c : Char, unitChar c.toNat = c := fun c => by
    simp [unitChar, (isHigh_toNat c).1, (isHigh_toNat c).2, Char.ofNat_toNat]
  induction cs with
  | nil => rfl
  | cons c cs ih =>
    cases cs with
    | nil => simp [joinUnits, hunit]
    | cons d cs =>
      simp only [List.map_cons, joinUnits, (isHigh_toNat c).1, Bool.false_and] at ih ⊢
      rw [if_neg Bool.false_ne_true, hunit, ih]

theorem stringUnits_escaped {c e : Char} {units : List ℕ} {cs rest : List Char} (hu : c ≠ 'u')
    (he : escaped? c = some e) (h : stringUnits cs = some (units, rest)) :
    stringUnits ('\\' :: c :: cs) = some (e.toNat :: units, rest) := by
  rw [stringUnits, he, h]
  · rfl
  · exact fun _ _ _ _ _ hc _ => hu hc

theorem stringUnits_escapeChar {c : Char} {units : List ℕ} {cs rest : List Char}
    (h : stringUnits cs = some (units, rest)) :
    stringUnits (escapeChar c ++ cs) = some (c.toNat :: units, rest) := by
  unfold escapeChar
  split_ifs with h₁ h₂ h₃ h₄ h₅ h₆ h₇ h₈
  · subst h₁
    exact stringUnits_escaped (by decide) (by decide) h
  · subst h₂
    exact stringUnits_escaped (by decide) (by decide) h
  · subst h₃
    exact stringUnits_escaped (by decide) (by decide) h
  · subst h₄
    exact stringUnits_escaped (by decide) (by decide) h
  · subst h₅
    exact stringUnits_escaped (by decide) (by decide) h
  · subst h₆
    exact stringUnits_escaped (by decide) (by decide) h
  · subst h₇
    exact stringUnits_escaped (by decide) (by decide) h
  · have hcode : ∀ n < 32, hex4? '0' '0' (hexChar (n / 16)) (hexChar (n % 16)) = some n := by
      decide
    simp [stringUnits, hcode _ h₈, h]
  · simp [stringUnits, h₂, h₈, h]

theorem string?_quote (s : String) (rest : List Char) :
    string? (s.toList.flatMap escapeChar ++ '"' :: rest) = some (s, rest) := by
  have hunits : ∀ cs : List Char, stringUnits (cs.flatMap escapeChar ++ '"' :: rest) =
      some (cs.map Char.toNat, rest) := by
    intro cs
    induction cs with
    | nil => rfl
    | cons c cs ih =>
      rw [List.flatMap_cons, List.append_assoc]
      exact stringUnits_escapeChar ih
  rw [string?, hunits, Option.map_some, joinUnits_toNat, String.ofList_toList]

mutual

def plain : Json → Bool
  | .number _ _ => false
  | .arr vs => plainItems vs
  | .obj fields => (fields.map Prod.fst).Nodup && plainFields fields
  | _ => true

def plainItems : List Json → Bool
  | [] => true
  | v :: vs => plain v && plainItems vs

def plainFields : List (String × Json) → Bool
  | [] => true
  | (_, v) :: fields => plain v && plainFields fields

end

mutual

def size : Json → ℕ
  | .arr vs => 1 + sizeItems vs
  | .obj fields => 1 + sizeFields fields
  | _ => 1

def sizeItems : List Json → ℕ
  | [] => 0
  | v :: vs => 1 + size v + sizeItems vs

def sizeFields : List (String × Json) → ℕ
  | [] => 0
  | (_, v) :: fields => 1 + size v + sizeFields fields

end

theorem skip_cons {c : Char} (h : isBlank c = false) (cs : List Char) :
    skip (c :: cs) = c :: cs := by
  rw [skip, List.dropWhile_cons_of_neg (by simp [h])]

theorem writeChars_head {v : Json} (h : plain v = true) :
    ∃ c ∈ ['n', 't', 'f', '"', '[', '{'], ∃ cs, writeChars v = c :: cs := by
  cases v with
  | null => exact ⟨'n', by decide, _, by rw [writeChars]⟩
  | bool b =>
    cases b
    · exact ⟨'f', by decide, _, by rw [writeChars]⟩
    · exact ⟨'t', by decide, _, by rw [writeChars]⟩
  | number text zero => simp [plain] at h
  | str s => exact ⟨'"', by decide, _, by rw [writeChars, quote]⟩
  | arr vs => cases vs <;> exact ⟨'[', by decide, _, by rw [writeChars]⟩
  | obj fields =>
    cases fields with
    | nil => exact ⟨'{', by decide, _, by rw [writeChars]⟩
    | cons kv fields =>
      obtain ⟨k, v⟩ := kv
      exact ⟨'{', by decide, _, by rw [writeChars]⟩

theorem skip_writeChars {v : Json} (h : plain v = true) (rest : List Char) :
    skip (writeChars v ++ rest) = writeChars v ++ rest := by
  have hblank : ∀ c ∈ ['n', 't', 'f', '"', '[', '{'], isBlank c = false := by
    simp [isBlank]
  obtain ⟨c, hc, cs, hcs⟩ := writeChars_head h
  rw [hcs, List.cons_append, skip_cons (hblank c hc)]

theorem ofPairs_of_nodup {fields : List (String × Json)} (h : (fields.map Prod.fst).Nodup) :
    Dict.ofPairs fields = fields := by
  have hput : ∀ (d : Dict String Json) (k : String) (v : Json), k ∉ d.map Prod.fst →
      d.put k v = d ++ [(k, v)] := by
    intro d k v hk
    induction d with
    | nil => rfl
    | cons kv d ih =>
      obtain ⟨k', v'⟩ := kv
      simp only [List.map_cons, List.mem_cons, not_or] at hk
      rw [Dict.put, if_neg (Ne.symm hk.1), ih hk.2]
      rfl
  have hfold : ∀ (fields d : List (String × Json)), ((d ++ fields).map Prod.fst).Nodup →
      fields.foldl (fun d kv => Dict.put d kv.1 kv.2) d = d ++ fields := by
    intro fields
    induction fields with
    | nil => exact fun d _ => (List.append_nil d).symm
    | cons kv fields ih =>
      intro d hnodup
      have hk : kv.1 ∉ d.map Prod.fst := by
        rw [List.map_append, List.nodup_append] at hnodup
        exact fun hmem => hnodup.2.2 _ hmem _ List.mem_cons_self rfl
      rw [List.foldl_cons, hput d kv.1 kv.2 hk, ih]
      · rw [List.append_assoc]
        rfl
      · rw [List.append_assoc]
        exact hnodup
  exact hfold fields [] h

theorem read_written (number : String → Json) (fuel : ℕ) :
    (∀ v rest, plain v = true → size v ≤ fuel →
      value number fuel (writeChars v ++ rest) = some (v, rest)) ∧
    (∀ v vs rest, plain v = true → plainItems vs = true → sizeItems (v :: vs) ≤ fuel →
      items number fuel (writeChars v ++ (writeItems vs ++ rest)) = some (v :: vs, rest)) ∧
    ∀ k v kvs rest, plain v = true → plainFields kvs = true → sizeFields ((k, v) :: kvs) ≤ fuel →
      fields number fuel (quote k ++ ':' :: (writeChars v ++ (writeFields kvs ++ rest))) =
        some ((k, v) :: kvs, rest) := by
  induction fuel with
  | zero =>
    refine ⟨fun v _ _ hsize => ?_, fun v vs _ _ _ hsize => ?_, fun k v kvs _ _ _ hsize => ?_⟩
    · cases v <;> simp [size] at hsize
    · simp [sizeItems] at hsize
    · simp [sizeFields] at hsize
  | succ fuel ih =>
    obtain ⟨ihvalue, ihitems, ihfields⟩ := ih
    refine ⟨fun v rest hplain hsize => ?_, fun v vs rest hplain hrest hsize => ?_,
      fun k v kvs rest hplain hrest hsize => ?_⟩
    · cases v with
      | null => rfl
      | bool b => cases b <;> rfl
      | number text zero => simp [plain] at hplain
      | str s =>
        simp only [writeChars, quote, List.cons_append, List.append_assoc, List.nil_append, value,
          string?_quote, Option.map_some]
      | arr vs =>
        cases vs with
        | nil => rfl
        | cons v vs =>
          simp only [plain, plainItems, Bool.and_eq_true, size] at hplain hsize
          have hitems := ihitems v vs rest hplain.1 hplain.2 (by omega)
          obtain ⟨c, hc, cs, hcs⟩ := writeChars_head hplain.1
          have hclose : c ≠ ']' := by
            rintro rfl
            simp at hc
          simp only [writeChars, List.cons_append, List.append_assoc, value]
          rw [skip_writeChars hplain.1]
          rw [hcs] at hitems ⊢
          simp only [List.cons_append] at hitems ⊢
          split
          · rename_i heq
            exact (hclose (List.cons.inj heq).1).elim
          · rw [hitems]
            rfl
      | obj fields =>
        cases fields with
        | nil => rfl
        | cons kv kvs =>
          obtain ⟨k, v⟩ := kv
          simp only [plain, plainFields, Bool.and_eq_true, decide_eq_true_eq, size] at hplain hsize
          have hfields := ihfields k v kvs rest hplain.2.1 hplain.2.2 (by omega)
          have hquote : ∀ cs, skip (quote k ++ cs) = quote k ++ cs := fun cs =>
            skip_cons (by decide) _
          simp only [writeChars, List.cons_append, List.append_assoc, value]
          rw [hquote]
          simp only [quote, List.cons_append] at hfields ⊢
          split
          · rename_i heq
            cases (List.cons.inj heq).1
          · rw [hfields, Option.map_some, ofPairs_of_nodup hplain.1]
    · simp only [sizeItems] at hsize
      rw [items, ihvalue v _ hplain (by omega)]
      cases vs with
      | nil =>
        simp only [writeItems, List.cons_append, List.nil_append]
        rw [Option.bind_eq_bind, Option.bind_some, skip_cons (by decide)]
        rfl
      | cons w vs =>
        simp only [plainItems, Bool.and_eq_true] at hrest
        have hitems := ihitems w vs rest hrest.1 hrest.2 (by omega)
        simp only [writeItems, List.cons_append, List.append_assoc]
        rw [Option.bind_eq_bind, Option.bind_some, skip_cons (by decide)]
        simp only
        rw [skip_writeChars hrest.1, hitems]
        rfl
    · simp only [sizeFields] at hsize
      simp only [quote, List.cons_append, List.append_assoc, List.nil_append, fields, string?_quote]
      rw [Option.bind_eq_bind, Option.bind_some, skip_cons (by decide)]
      simp only
      rw [skip_writeChars hplain, ihvalue v _ hplain (by omega), Option.bind_eq_bind,
        Option.bind_some]
      cases kvs with
      | nil =>
        simp only [writeFields, List.cons_append, List.nil_append]
        rw [skip_cons (by decide)]
        rfl
      | cons kv kvs =>
        obtain ⟨k', v'⟩ := kv
        simp only [plainFields, Bool.and_eq_true] at hrest
        have hfields := ihfields k' v' kvs rest hrest.1 hrest.2 (by omega)
        simp only [writeFields, List.cons_append, List.append_assoc]
        rw [skip_cons (by decide)]
        simp only
        rw [quote, List.cons_append] at hfields ⊢
        rw [skip_cons (by decide), hfields]
        rfl

mutual

theorem size_le : ∀ v : Json, plain v = true → size v ≤ 2 * (writeChars v).length
  | .null, _ | .bool true, _ | .bool false, _ => by simp [size, writeChars]
  | .number _ _, h => by simp [plain] at h
  | .str s, _ => by simp [size, writeChars, quote]; omega
  | .arr [], _ => by simp [size, sizeItems, writeChars]
  | .arr (v :: vs), h => by
    simp only [plain, plainItems, Bool.and_eq_true] at h
    have hv := size_le v h.1
    have hvs := sizeItems_le vs h.2
    simp only [size, sizeItems, writeChars, List.length_cons, List.length_append]
    omega
  | .obj [], _ => by simp [size, sizeFields, writeChars]
  | .obj ((k, v) :: kvs), h => by
    simp only [plain, plainFields, Bool.and_eq_true] at h
    have hv := size_le v h.2.1
    have hkvs := sizeFields_le kvs h.2.2
    simp only [size, sizeFields, writeChars, List.length_cons, List.length_append]
    omega

theorem sizeItems_le : ∀ vs : List Json, plainItems vs = true →
    sizeItems vs ≤ 2 * (writeItems vs).length
  | [], _ => by simp [sizeItems]
  | v :: vs, h => by
    simp only [plainItems, Bool.and_eq_true] at h
    have hv := size_le v h.1
    have hvs := sizeItems_le vs h.2
    simp only [sizeItems, writeItems, List.length_cons, List.length_append]
    omega

theorem sizeFields_le : ∀ kvs : List (String × Json), plainFields kvs = true →
    sizeFields kvs ≤ 2 * (writeFields kvs).length
  | [], _ => by simp [sizeFields]
  | (k, v) :: kvs, h => by
    simp only [plainFields, Bool.and_eq_true] at h
    have hv := size_le v h.1
    have hkvs := sizeFields_le kvs h.2
    simp only [sizeFields, writeFields, List.length_cons, List.length_append]
    omega

end

theorem loads_dumps (number : String → Json) {v : Json} (h : plain v = true) :
    loads number (dumps v) = some v := by
  have hskip : skip (writeChars v) = writeChars v := by
    simpa using skip_writeChars h []
  have hsize := size_le v h
  have hread := (read_written number (2 * (writeChars v).length + 2)).1 v [] h (by omega)
  rw [List.append_nil] at hread
  rw [loads, dumps, String.toList_ofList, hskip, hread]
  rfl

example : (loads (fun text => .number text false) " [1.5e3, \"\\u0041\\n\" , true]").map dumps =
    some "[1.5e3,\"A\\n\",true]" := by
  decide +kernel

end RadiusModule.Library.JsonText
