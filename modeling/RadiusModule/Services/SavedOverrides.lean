import RadiusModule.Services.ManagerOverrides

/-!
# Saving the page of a manager's overrides

What is read of merged grants depends on the flags, on the fields of the entries
and on the entries that are no objects. A page that is saved as it is shown
leaves these as they were, but for what it does not keep.
-/

namespace RadiusModule.ManagerGrants
open Library

section
variable {ag : Dict String Json}

theorem entry_putEntry (ag : Dict String Json) (ent : String) (fields : Dict String Json)
    (e : String) : entry (putEntry ag ent fields) e = if ent = e then fields else entry ag e := by
  rw [putEntry]
  split_ifs with hempty he he
  · rw [entry, ← he, Dict.get?_keep_of_not (by simp), List.isEmpty_iff.mp hempty]
    rfl
  · rw [entry, Dict.get?_keep (by simpa using Ne.symm he), entry]
  · rw [entry, Dict.get?_put, if_pos he]
    rfl
  · rw [entry, Dict.get?_put, if_neg he, entry]

def hides (ag : Dict String Json) (ent : String) : Bool :=
  match ag.get? ent with
  | some (.obj _) => false
  | some _ => true
  | none => false

theorem hides_putEntry (ag : Dict String Json) (ent : String) (fields : Dict String Json)
    (e : String) : hides (putEntry ag ent fields) e = if ent = e then false else hides ag e := by
  rw [putEntry]
  split_ifs with hempty he he
  · rw [hides, ← he, Dict.get?_keep_of_not (by simp)]
  · rw [hides, Dict.get?_keep (by simpa using Ne.symm he), hides]
  · rw [hides, Dict.get?_put, if_pos he]
  · rw [hides, Dict.get?_put, if_neg he, hides]

theorem nodup_putEntry (h : (ag.map Prod.fst).Nodup) (ent : String) (fields : Dict String Json) :
    ((putEntry ag ent fields).map Prod.fst).Nodup := by
  rw [putEntry]
  split_ifs
  · exact Dict.nodup_keep h _
  · exact Dict.nodup_put h _ _

structure Alike (g g' : Grants) : Prop where
  flags : ∀ flag, g.flags.get? flag = g'.flags.get? flag
  hides : ∀ ent, hides g.actionGrants ent = hides g'.actionGrants ent
  entries : ∀ ent op, (entry g.actionGrants ent).get? op = (entry g'.actionGrants ent).get? op

theorem Alike.trans {a b c : Grants} (h : Alike a b) (h' : Alike b c) : Alike a c where
  flags flag := (h.flags flag).trans (h'.flags flag)
  hides ent := (h.hides ent).trans (h'.hides ent)
  entries ent op := (h.entries ent op).trans (h'.entries ent op)

theorem entry_merge {own : Dict String Json} (houter : (own.map Prod.fst).Nodup)
    (hinner : ∀ ent, ((entry own ent).map Prod.fst).Nodup) (ag : Dict String Json)
    (ent op : String) :
    (entry (own.foldl (fun ag kv => match kv.2 with
      | .obj fields => ag.put kv.1 (.obj (overlaid (dict ((ag.get? kv.1).getD .null)) fields))
      | v => ag.put kv.1 v) ag) ent).get? op =
      if hides own ent then none
      else ((entry own ent).get? op).or ((entry ag ent).get? op) := by
  induction own generalizing ag with
  | nil => rfl
  | cons kv own ih =>
    obtain ⟨key, v⟩ := kv
    obtain ⟨hkey, houter'⟩ := List.nodup_cons.mp houter
    have hnone : Dict.get? own key = none := by
      cases hget : Dict.get? own key with
      | none => rfl
      | some u => exact absurd (List.mem_map.mpr ⟨_, Dict.mem_of_get? hget, rfl⟩) hkey
    have hrest : ∀ e, Dict.get? ((key, v) :: own) e =
        if key = e then some v else Dict.get? own e := fun _ => rfl
    have hinner' : ∀ e, ((entry own e).map Prod.fst).Nodup := by
      intro e
      by_cases he : key = e
      · rw [entry, ← he, hnone]
        exact List.nodup_nil
      · have hsame := hinner e
        rwa [entry, hrest, if_neg he, ← entry] at hsame
    rw [List.foldl_cons, ih houter' hinner']
    by_cases he : key = ent
    · subst he
      have hown : hides own key = false := by rw [hides, hnone]
      have hentry : entry own key = [] := by
        rw [entry, hnone]
        rfl
      have hfields := hinner key
      rw [hown, hentry, hides, entry, entry, hrest, if_pos rfl]
      rw [entry, hrest, if_pos rfl] at hfields
      cases v with
      | obj fields =>
        have hfields' : (fields.map Prod.fst).Nodup := hfields
        simp only [Dict.get?_put, if_true, Option.getD_some, dict, Bool.false_eq_true, if_false,
          overlaid]
        rw [Dict.get?_foldl_put_of_nodup _ hfields']
        rfl
      | _ => simp [Dict.get?_put, dict, Dict.get?]
    · have hhides : hides ((key, v) :: own) ent = hides own ent := by
        rw [hides, hrest, if_neg he, hides]
      have hentry : entry ((key, v) :: own) ent = entry own ent := by
        rw [entry, hrest, if_neg he, entry]
      rw [hhides, hentry]
      congr 2
      cases v <;> simp only [entry, Dict.get?_put, if_neg he]

end

structure SameGrants (g g' : Grants) : Prop where
  flags : ∀ flag, g.flags.get? flag = g'.flags.get? flag
  entries : ∀ ent op, (entry g.actionGrants ent).get? op = (entry g'.actionGrants ent).get? op

theorem entry_mergeGrants (base : Grants) {own : Grants} (hown : own.Loaded) (ent op : String) :
    (entry (mergeGrants base own).actionGrants ent).get? op =
      if hides own.actionGrants ent then none
      else ((entry own.actionGrants ent).get? op).or
        ((entry (mergeGrants base {}).actionGrants ent).get? op) := by
  simp only [mergeGrants, List.foldl_append]
  exact entry_merge hown.outer hown.inner _ ent op

theorem Alike.merge {g g' : Grants} (h : Alike g g') (hg : g.Loaded) (hg' : g'.Loaded)
    (base : Grants) : SameGrants (mergeGrants base g) (mergeGrants base g') where
  flags flag := by
    simp only [mergeGrants, overlaid]
    rw [Dict.get?_foldl_put_of_nodup _ hg.flags, Dict.get?_foldl_put_of_nodup _ hg'.flags,
      h.flags]
  entries ent op := by
    rw [entry_mergeGrants base hg, entry_mergeGrants base hg', h.hides, h.entries]

section
variable {w : World} {admin : ℕ} {g g' : Grants}

end

def settled (w : World) (admin : ℕ) (form : Form) (actor : Actor) (row : TriRow) :
    Option (Option Bool) :=
  (submitted w admin form row).filter fun val => !refused w admin actor row val

section
variable (vals : TriRow → Option (Option Bool))

def Draft.run (d : Draft) (rows : List TriRow) : Draft :=
  rows.foldl (fun d row => (vals row).elim d (d.write row)) d

def setsOf (key? : Place → Option String) (rows : List TriRow) : List (String × Option Json) :=
  rows.filterMap fun row => (key? row.store).bind fun k =>
    (vals row).map fun v => (k, v.map .bool)

theorem Draft.run_flags (d : Draft) (rows : List TriRow) :
    (d.run vals rows).flags = d.flags.assignAll (setsOf vals Place.flag? rows) := by
  induction rows generalizing d with
  | nil => rfl
  | cons row rows ih =>
    rw [Draft.run, List.foldl_cons, ← Draft.run, ih]
    cases hval : vals row with
    | none => cases hstore : row.store <;> simp [setsOf, hval, hstore, Place.flag?]
    | some v =>
      cases hstore : row.store <;>
        simp [setsOf, hval, hstore, Place.flag?, Draft.write, Dict.assignAll]

theorem Draft.run_acts (d : Draft) (rows : List TriRow) :
    (d.run vals rows).acts = d.acts.assignAll (setsOf vals Place.action? rows) := by
  induction rows generalizing d with
  | nil => rfl
  | cons row rows ih =>
    rw [Draft.run, List.foldl_cons, ← Draft.run, ih]
    cases hval : vals row with
    | none => cases hstore : row.store <;> simp [setsOf, hval, hstore, Place.action?]
    | some v =>
      cases hstore : row.store <;>
        simp [setsOf, hval, hstore, Place.action?, Draft.write, Dict.assignAll]

/-- Whether a row writes outside of `_actions` and the flags. -/
def TriRow.touches (row : TriRow) : Bool :=
  match row.store with
  | .flag _ => false
  | .action _ => row.key = "batch.edit"
  | .entity _ _ => true

def TriRow.writeGrants (row : TriRow) (ag : Dict String Json) (val : Option Bool) :
    Dict String Json :=
  match row.store with
  | .flag _ => ag
  | .action _ => dropBatchEdit ag
  | .entity ent op => putEntry ag ent ((entry ag ent).assign op (val.map .bool))

theorem Draft.run_actionGrants (d : Draft) (rows : List TriRow) :
    (d.run vals rows).actionGrants = (rows.filter TriRow.touches).foldl
      (fun ag row => (vals row).elim ag (row.writeGrants ag)) d.actionGrants := by
  induction rows generalizing d with
  | nil => rfl
  | cons row rows ih =>
    rw [Draft.run, List.foldl_cons, ← Draft.run, ih, List.filter_cons]
    cases hval : vals row with
    | none => split_ifs <;> simp [hval]
    | some v =>
      cases hstore : row.store with
      | flag flag => simp [TriRow.touches, hstore, Draft.write]
      | action key =>
        by_cases hkey : row.key = "batch.edit" <;>
          simp [TriRow.touches, TriRow.writeGrants, hstore, Draft.write, hkey, hval]
      | entity ent op =>
        simp [TriRow.touches, TriRow.writeGrants, hstore, Draft.write, hval]

end

def batchEdit : TriRow where
  key := "batch.edit"
  store := .action "batch.edit"
  rbac := ["cards.edit_batch"]

def offerEdit : TriRow where
  key := "offer.edit"
  store := .entity "offer" "edit"
  rbac := []

def offerCreate : TriRow where
  key := "offer.create"
  store := .entity "offer" "create"
  rbac := []

structure RowFacts : Prop where
  touching : triRows.filter TriRow.touches = [batchEdit, offerEdit, offerCreate]
  flagKeys : (keysOf Place.flag?).Nodup
  actionKeys : (keysOf Place.action?).Nodup
  editable : ∀ flag ∈ editableFlagKeys, flag ∈ keysOf Place.flag?
  named : ∀ row ∈ triRows,
    triRows.find? (fun r => triInputName r.key = triInputName row.key) = some row

theorem find?_named {rows : List TriRow} (h : (rows.map TriRow.key).Nodup) {row : TriRow}
    (hrow : row ∈ rows) :
    rows.find? (fun r => triInputName r.key = triInputName row.key) = some row := by
  induction rows with
  | nil => cases hrow
  | cons r rows ih =>
    obtain ⟨hhead, htail⟩ := List.nodup_cons.mp h
    rcases List.mem_cons.mp hrow with rfl | hrow
    · simp
    · have hne : ¬ triInputName r.key = triInputName row.key := fun hname => by
        have hkey : r.key = row.key := (String.append_right_inj _).mp hname
        exact hhead (hkey ▸ List.mem_map_of_mem hrow)
      rw [List.find?_cons_of_neg (by simpa using hne), ih htail hrow]

theorem rowFacts : RowFacts where
  touching := by decide
  flagKeys := by decide
  actionKeys := by
    simp [keysOf, triRows, actionRegistry, scopeFlagRegistry, storeOf, Place.action?]
  editable := by decide
  named := fun _ hrow =>
    find?_named (by simp [triRows, actionRegistry, scopeFlagRegistry]) hrow

example : (triRows.find? fun r => triInputName r.key = "tri_offer.edit") = some offerEdit := by
  decide +kernel

theorem batch_ne_offer : ¬ ("batch" : String) = "offer" := by decide

theorem saveManagerOverrides_eq (w : World) (admin : ℕ) (form : Form) (actor : Actor) :
    saveManagerOverrides w admin form actor =
      ((Draft.start (ownGrants w admin)).run (settled w admin form actor) triRows).save := by
  rw [saveManagerOverrides, Draft.run]
  refine congrArg (fun step => (triRows.foldl step (Draft.start (ownGrants w admin))).save) ?_
  -- The rows are written one after the other; what decides about one row is what is settled for it.
  funext d row
  rw [settled]
  cases submitted w admin form row with
  | none => rfl
  | some val => cases hrefused : refused w admin actor row val <;> simp [Option.filter, hrefused]

section
variable {ag : Dict String Json}

theorem entry_dropBatchEdit (ag : Dict String Json) (e : String) :
    entry (dropBatchEdit ag) e =
      if "batch" = e then (entry ag "batch").keep (fun k => k ≠ "edit") else entry ag e := by
  have hother : ∀ v, ag.get? "batch" = v → (∀ fields, v ≠ some (.obj fields)) →
      (entry ag "batch").keep (fun k => k ≠ "edit") = entry ag "batch" := by
    intro v hget hv
    have hnil : entry ag "batch" = [] := by
      rw [entry, hget]
      cases v with
      | none => rfl
      | some j =>
        cases j with
        | obj fields => exact absurd rfl (hv fields)
        | _ => rfl
    rw [hnil]
    rfl
  rw [dropBatchEdit]
  split
  · next fields hget =>
    rw [entry_putEntry]
    split_ifs
    · rw [entry, hget]
      rfl
    · rfl
  · next hget =>
    split_ifs with he
    · rw [hother _ rfl hget, ← he]
    · rfl

theorem hides_dropBatchEdit (ag : Dict String Json) (e : String) :
    hides (dropBatchEdit ag) e = hides ag e := by
  rw [dropBatchEdit]
  split
  · next fields hget =>
    rw [hides_putEntry]
    split_ifs with he
    · rw [← he, hides, hget]
    · rfl
  · rfl

theorem nodup_dropBatchEdit (h : (ag.map Prod.fst).Nodup) :
    ((dropBatchEdit ag).map Prod.fst).Nodup := by
  rw [dropBatchEdit]
  split
  · exact nodup_putEntry h _ _
  · exact h

end

theorem triValueOf_triStateOf (v : Option Bool) : triValueOf (triStateOf v) = some v := by
  rcases v with _ | _ | _ <;> decide

section
variable {w : World} {admin : ℕ} {form : Form} {actor : Actor} {g : Grants}

theorem settled_displays (hform : Displays form (ownGrants w admin)) {row : TriRow}
    (hrow : row ∈ triRows) :
    settled w admin form actor row = some (triGet (ownGrants w admin) row.store) := by
  have hsubmitted : submitted w admin form row = some (triGet (ownGrants w admin) row.store) := by
    rw [submitted, hform row hrow]
    exact triValueOf_triStateOf _
  have hrefused : refused w admin actor row (triGet (ownGrants w admin) row.store) = false := by
    rw [refused]
    cases htri : triGet (ownGrants w admin) row.store with
    | none => rfl
    | some b => cases b <;> simp
  rw [settled, hsubmitted, Option.filter, hrefused]
  rfl

theorem setsOf_displays (hform : Displays form (ownGrants w admin)) {key? : Place → Option String}
    {place : String → Place} (hplace : ∀ s k, key? s = some k → s = place k) :
    setsOf (settled w admin form actor) key? triRows =
      (keysOf key?).map fun k => (k, (triGet (ownGrants w admin) (place k)).map .bool) := by
  rw [setsOf, keysOf, List.map_filterMap]
  refine List.filterMap_congr fun row hrow => ?_
  rw [settled_displays hform hrow]
  cases hkey : key? row.store with
  | none => rfl
  | some k => rw [hplace _ k hkey]; rfl

theorem get?_boxed (g : Grants) (place : String → Place) {keys : List String} (hkeys : keys.Nodup)
    (stored : Dict String Json) (k : String) : (g.boxed place keys stored).get? k =
      if k ∈ keys then (triGet g (place k)).map .bool else stored.get? k := by
  have hfst : (keys.map fun k => (k, (triGet g (place k)).map Json.bool)).map Prod.fst = keys := by
    rw [List.map_map]
    exact List.map_id keys
  rw [Grants.boxed]
  split_ifs with hk
  · exact Dict.get?_assignAll_of_mem (by rwa [hfst]) (List.mem_map.mpr ⟨k, hk, rfl⟩) _
  · exact Dict.get?_assignAll_of_not_mem (by rwa [hfst]) _

theorem Grants.Loaded.start (hg : g.Loaded) : ((Draft.start g).flags.map Prod.fst).Nodup := by
  have hfst : (Draft.start g).flags.map Prod.fst =
      (g.flags.keep (editableFlagKeys.contains ·)).map Prod.fst := by
    rw [Draft.start, Dict.mapValues, List.map_map]
    rfl
  rw [hfst]
  exact Dict.nodup_keep hg.flags _

theorem Grants.Loaded.kept (hg : g.Loaded) : g.kept.Loaded where
  flags := Dict.nodup_assignAll (d := []) List.nodup_nil _
  outer := nodup_putEntry (nodup_putEntry (nodup_dropBatchEdit hg.outer) _ _) _ _
  inner ent := by
    rw [Grants.kept]
    simp only [entry_putEntry, entry_dropBatchEdit]
    split_ifs
    · exact Dict.nodup_assignAll (hg.inner _) _
    · exact Dict.nodup_assignAll (hg.inner _) _
    · exact Dict.nodup_keep (hg.inner _) _
    · exact hg.inner ent

def Grants.offerWritten (g : Grants) : Dict String Json :=
  let edited := putEntry (dropBatchEdit g.actionGrants) "offer"
    ((entry (dropBatchEdit g.actionGrants) "offer").assign "edit"
      ((triGet g (.entity "offer" "edit")).map .bool))
  putEntry edited "offer"
    ((entry edited "offer").assign "create" ((triGet g (.entity "offer" "create")).map .bool))

theorem saved_displays (hform : Displays form (ownGrants w admin)) :
    saveManagerOverrides w admin form actor =
      { flags := (ownGrants w admin).boxed .flag (keysOf Place.flag?)
          (Draft.start (ownGrants w admin)).flags
        actionGrants := putEntry (ownGrants w admin).offerWritten "_actions"
          ((ownGrants w admin).boxed .action (keysOf Place.action?)
            (entry (ownGrants w admin).actionGrants "_actions")) } := by
  have hflag : ∀ s k, Place.flag? s = some k → s = .flag k := by
    rintro (_ | _ | _) k hk <;> simp_all [Place.flag?]
  have haction : ∀ s k, Place.action? s = some k → s = .action k := by
    rintro (_ | _ | _) k hk <;> simp_all [Place.action?]
  have hmem : ∀ row ∈ [batchEdit, offerEdit, offerCreate], row ∈ triRows := fun row hrow =>
    (List.mem_filter.mp (rowFacts.touching ▸ hrow)).1
  have hsettled : ∀ row ∈ [batchEdit, offerEdit, offerCreate], settled w admin form actor row =
      some (triGet (ownGrants w admin) row.store) := fun row hrow =>
    settled_displays hform (hmem row hrow)
  rw [saveManagerOverrides_eq, Draft.save, Draft.run_flags, Draft.run_acts,
    Draft.run_actionGrants, rowFacts.touching, setsOf_displays hform hflag,
    setsOf_displays hform haction]
  simp only [List.foldl_cons, List.foldl_nil, hsettled batchEdit (by simp),
    hsettled offerEdit (by simp), hsettled offerCreate (by simp), Option.elim_some]
  rfl

theorem Grants.Loaded.saved (hg : (ownGrants w admin).Loaded)
    (hform : Displays form (ownGrants w admin)) :
    (saveManagerOverrides w admin form actor).Loaded := by
  rw [saved_displays hform]
  refine ⟨Dict.nodup_assignAll hg.start _, ?_, fun ent => ?_⟩
  · exact nodup_putEntry
      (nodup_putEntry (nodup_putEntry (nodup_dropBatchEdit hg.outer) _ _) _ _) _ _
  · simp only [Grants.offerWritten, entry_putEntry, entry_dropBatchEdit, if_true,
      if_neg batch_ne_offer]
    split_ifs
    · exact Dict.nodup_assignAll (hg.inner _) _
    · exact Dict.nodup_assign (Dict.nodup_assign (hg.inner _) _ _) _ _
    · exact Dict.nodup_keep (hg.inner _) _
    · exact hg.inner ent

theorem map_triGet_of_bool (g : Grants) (store : Place)
    (hbool : ∀ v, g.placed store = some v → ∃ b, v = .bool b) :
    (triGet g store).map Json.bool = g.placed store := by
  rw [triGet]
  cases hplaced : g.placed store with
  | none => rfl
  | some v =>
    obtain ⟨b, rfl⟩ := hbool v hplaced
    rfl

theorem Grants.Plain.alike (h : g.Plain) : Alike g.kept g where
  flags flag := by
    rw [Grants.kept, get?_boxed _ _ rowFacts.flagKeys]
    split_ifs with hflag
    · exact map_triGet_of_bool g (.flag flag) fun v hv => (h.flags flag v hv).2
    · cases hget : g.flags.get? flag with
      | none => rfl
      | some v => exact absurd (h.flags flag v hget).1 hflag
  hides ent := by
    have hshown : ∀ e, (∀ v, g.actionGrants.get? e = some v → ∃ fields, v = .obj fields) →
        ManagerGrants.hides g.actionGrants e = false := by
      intro e hobj
      rw [ManagerGrants.hides]
      cases hget : g.actionGrants.get? e with
      | none => rfl
      | some v =>
        obtain ⟨fields, rfl⟩ := hobj v hget
        rfl
    simp only [Grants.kept, hides_putEntry, hides_dropBatchEdit]
    split_ifs with hactions hoffer
    · rw [← hactions]
      exact (hshown _ fun v hv => (h.actions v hv).imp fun _ hf => hf.1).symm
    · rw [← hoffer]
      exact (hshown _ fun v hv => (h.offer v hv).imp fun _ hf => hf.1).symm
    · rfl
  entries ent op := by
    have hboxed : ∀ (e : String) (ops : List String), (∀ v, g.actionGrants.get? e = some v →
        ∃ fields, v = .obj fields ∧ ∀ op ∈ ops, ∀ u, Dict.get? fields op = some u →
          ∃ b, u = .bool b) →
        ∀ op ∈ ops, ∀ u, (entry g.actionGrants e).get? op = some u → ∃ b, u = .bool b := by
      intro e ops hobj op hop u hu
      rw [entry] at hu
      cases hget : g.actionGrants.get? e with
      | none =>
        rw [hget] at hu
        cases hu
      | some v =>
        obtain ⟨fields, rfl, hbool⟩ := hobj v hget
        rw [hget] at hu
        exact hbool op hop u hu
    simp only [Grants.kept, entry_putEntry, entry_dropBatchEdit]
    split_ifs with hactions hoffer hbatch
    · rw [get?_boxed _ _ rowFacts.actionKeys, ← hactions]
      split_ifs with hkey
      · exact map_triGet_of_bool g (.action op) (hboxed _ _ h.actions op hkey)
      · rfl
    · rw [get?_boxed _ _ (by decide), ← hoffer]
      split_ifs with hop
      · exact map_triGet_of_bool g (.entity "offer" op) (hboxed _ _ h.offer op hop)
      · rfl
    · rw [← hbatch]
      by_cases hedit : op = "edit"
      · rw [hedit, h.batch]
        exact Dict.get?_keep_of_not (by simp) _
      · exact Dict.get?_keep (by simpa using hedit) _
    · rfl

end

end RadiusModule.ManagerGrants
