import RadiusModule.Library.Dict
import RadiusModule.Library.JsonText

/-!
# Members of a JSON text

A database reads and changes one member of an object that is kept as a text.
What is not an object has no members and keeps its value.
-/

namespace RadiusModule.Library

namespace Json

def member? (v : Json) (key : String) : Option Json :=
  match v with
  | obj fields => Dict.get? fields key
  | _ => none

def setMember (v : Json) (key : String) (value : Json) : Json :=
  match v with
  | obj fields => obj (Dict.put fields key value)
  | v => v

def removeMember (v : Json) (key : String) : Json :=
  match v with
  | obj fields => obj (fields.eraseP fun kv => kv.1 = key)
  | v => v

def Lacks (v : Json) (key : String) : Prop :=
  ∃ fields, v = obj fields ∧ ∀ kv ∈ fields, kv.1 ≠ key

def isObject : Json → Bool
  | obj _ => true
  | _ => false

def isValue : Json → Bool
  | null => false
  | _ => true

def value? (v : Json) (key : String) : Option Json := (v.member? key).filter isValue

theorem length_put (d : Dict String Json) (key : String) (value : Json) :
    (d.put key value).length = if key ∈ d.map Prod.fst then d.length else d.length + 1 := by
  rw [← List.length_map (f := Prod.fst), Dict.keys_put]
  split_ifs <;> simp

theorem member?_setMember {v : Json} (h : v.isObject = true) (key : String) (value : Json) :
    (v.setMember key value).member? key = some value := by
  cases v with
  | obj fields =>
    rw [setMember, member?, Dict.get?_put, if_pos rfl]
  | _ => cases h

theorem setMember_of_not {v : Json} (h : v.isObject = false) (key : String) (value : Json) :
    v.setMember key value = v := by
  cases v with
  | obj fields => cases h
  | _ => rfl

theorem member?_of_not {v : Json} (h : v.isObject = false) (key : String) :
    v.member? key = none := by
  cases v with
  | obj fields => cases h
  | _ => rfl

theorem value?_setMember (v : Json) (key s : String) :
    (v.setMember key (.str s)).value? key = if v.isObject then some (.str s) else none := by
  rw [value?]
  cases hobject : v.isObject with
  | false => rw [setMember_of_not hobject, member?_of_not hobject]; rfl
  | true => rw [member?_setMember hobject]; rfl

theorem eraseP_put {d : Dict String Json} {key : String} (h : ∀ kv ∈ d, kv.1 ≠ key)
    (value : Json) : (d.put key value).eraseP (fun kv => kv.1 = key) = d := by
  induction d with
  | nil => simp [Dict.put]
  | cons kv d ih =>
    obtain ⟨k, v⟩ := kv
    obtain ⟨hk, hd⟩ := List.forall_mem_cons.mp h
    rw [Dict.put, if_neg hk, List.eraseP_cons_of_neg (by simpa using hk), ih hd]

theorem removeMember_setMember_iff {v : Json} (h : v.isObject = true) (key : String)
    (value : Json) : (v.setMember key value).removeMember key = v ↔ v.Lacks key := by
  cases v with
  | obj fields =>
    rw [setMember, removeMember, obj.injEq]
    constructor
    · intro herase
      refine ⟨fields, rfl, fun kv hkv hkey => ?_⟩
      have hmem : key ∈ fields.map Prod.fst := List.mem_map.mpr ⟨kv, hkv, hkey⟩
      have hput : (key, value) ∈ Dict.put fields key value := by
        refine Dict.mem_of_get? ?_
        rw [Dict.get?_put, if_pos rfl]
      have hlength := congrArg List.length herase
      rw [List.length_eraseP_of_mem hput (by simp), length_put, if_pos hmem] at hlength
      have := List.length_pos_of_mem hkv
      omega
    · rintro ⟨_, hfields, hkeys⟩
      cases hfields
      exact eraseP_put hkeys value
  | _ => cases h

end Json

/-- What a database documents of its functions on JSON texts: which value a text has, and the
texts in which a member is set to a string or removed. -/
structure JsonMembers where
  read : String → Option Json
  set : String → String → String → String
  remove : String → String → String
  read_blank : read "" = none
  read_empty : read "\x7b\x7d" = some (.obj [])
  read_set : ∀ {text v}, read text = some v → ∀ key value,
    read (set text key value) = some (v.setMember key (.str value))
  read_remove : ∀ {text v}, read text = some v → ∀ key,
    read (remove text key) = some (v.removeMember key)

namespace JsonMembers

/-- `malformed JSON` -/
inductive Malformed
  | malformed
deriving DecidableEq, Repr

variable (texts : JsonMembers)

/-- `json_valid(text)` -/
def valid (text : String) : Bool := (texts.read text).isSome

/-- `json_set(text, '$.key', value)` -/
def jsonSet (text key value : String) : Except Malformed String :=
  if texts.valid text then .ok (texts.set text key value) else .error .malformed

/-- `json_remove(text, '$.key')` -/
def jsonRemove (text key : String) : Except Malformed String :=
  if texts.valid text then .ok (texts.remove text key) else .error .malformed

/-- `json_extract(text, '$.key')`; JSON's null reads as no value. -/
def jsonExtract (text key : String) : Except Malformed (Option Json) :=
  match texts.read text with
  | none => .error .malformed
  | some v => .ok (v.value? key)

theorem plainFields_put {d : Dict String Json} (h : JsonText.plainFields d = true) (key : String)
    {value : Json} (hvalue : JsonText.plain value = true) :
    JsonText.plainFields (d.put key value) = true := by
  induction d with
  | nil => simp [Dict.put, JsonText.plainFields, hvalue]
  | cons kv d ih =>
    obtain ⟨k, v⟩ := kv
    simp only [JsonText.plainFields, Bool.and_eq_true] at h
    rw [Dict.put]
    split_ifs
    · simp [JsonText.plainFields, hvalue, h.2]
    · simp [JsonText.plainFields, h.1, ih h.2]

theorem plainFields_eraseP {d : Dict String Json} (h : JsonText.plainFields d = true)
    (p : String × Json → Bool) : JsonText.plainFields (d.eraseP p) = true := by
  induction d with
  | nil => rfl
  | cons kv d ih =>
    obtain ⟨k, v⟩ := kv
    simp only [JsonText.plainFields, Bool.and_eq_true] at h
    cases hp : p (k, v) with
    | true => rw [List.eraseP_cons_of_pos hp]; exact h.2
    | false =>
      rw [List.eraseP_cons_of_neg (by simp [hp])]
      simp [JsonText.plainFields, h.1, ih h.2]

theorem plain_setMember {v : Json} (h : JsonText.plain v = true) (key value : String) :
    JsonText.plain (v.setMember key (.str value)) = true := by
  cases v with
  | obj fields =>
    simp only [JsonText.plain, Bool.and_eq_true, decide_eq_true_eq] at h
    simp only [Json.setMember, JsonText.plain, Bool.and_eq_true, decide_eq_true_eq]
    exact ⟨Dict.nodup_put h.1 key _, plainFields_put h.2 key rfl⟩
  | _ => exact h

theorem plain_removeMember {v : Json} (h : JsonText.plain v = true) (key : String) :
    JsonText.plain (v.removeMember key) = true := by
  cases v with
  | obj fields =>
    simp only [JsonText.plain, Bool.and_eq_true, decide_eq_true_eq] at h
    simp only [Json.removeMember, JsonText.plain, Bool.and_eq_true, decide_eq_true_eq]
    exact ⟨h.1.sublist (List.eraseP_sublist.map _), plainFields_eraseP h.2 _⟩
  | _ => exact h

def plainRead (text : String) : Option Json :=
  (JsonText.loads (fun text => .number text false) text).filter JsonText.plain

theorem plainRead_dumps {v : Json} (h : JsonText.plain v = true) :
    plainRead (JsonText.dumps v) = some v := by
  rw [plainRead, JsonText.loads_dumps _ h, Option.filter_some_pos h]

def change (text : String) (edit : Json → Json) : String :=
  ((plainRead text).map fun v => JsonText.dumps (edit v)).getD text

theorem plainRead_change {text : String} {v : Json} (h : plainRead text = some v)
    {edit : Json → Json} (hedit : JsonText.plain v = true → JsonText.plain (edit v) = true) :
    plainRead (change text edit) = some (edit v) := by
  rw [change, h]
  exact plainRead_dumps (hedit (Option.filter_eq_some_iff.mp h).2)

def plainTexts : JsonMembers where
  read := plainRead
  set text key value := change text fun v => v.setMember key (.str value)
  remove text key := change text fun v => v.removeMember key
  read_blank := Option.isNone_iff_eq_none.mp (by decide)
  read_empty := plainRead_dumps (v := .obj []) rfl
  read_set h key value := plainRead_change h fun hv => plain_setMember hv key value
  read_remove h key := plainRead_change h fun hv => plain_removeMember hv key

end JsonMembers
end RadiusModule.Library
