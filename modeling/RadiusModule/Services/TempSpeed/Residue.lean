import RadiusModule.Services.TempSpeed

/-!
# What a temporary speed leaves behind

However often a temporary speed is applied, the columns of the first opening
stay in the metadata, and the end of the running window is the one of the last
window that was opened. So a revert restores the columns, where these are ones
that the custom flag speaks for.
-/

namespace RadiusModule.TempSpeed
open Library PyText

def ColumnsExact (row : Row) : Prop :=
  if row.customSpeed then
    row.bandwidthControlEnabled = 1 ∧
      intOrZero (some (ofInt row.downloadSpeedKbps)) = .ok row.downloadSpeedKbps ∧
      intOrZero (some (ofInt row.uploadSpeedKbps)) = .ok row.uploadSpeedKbps
  else row.bandwidthControlEnabled = 0 ∧ row.downloadSpeedKbps = 0 ∧ row.uploadSpeedKbps = 0

/-- A value under `advanced`, which comes before the one that a window writes. -/
def shadowed (m : Meta) (key : String) : Bool := ((advanced m).get? key).any Json.truthy

/-- Nothing under `advanced` hides a window or breaks the reading of its length. -/
structure MetaClean (m : Meta) : Prop where
  started : shadowed m kFrom = false
  ends : shadowed m kTo = false
  duration : shadowed m kDuration = true →
    ∃ n, intOrZero (some (.str (metaValue m kDuration))) = .ok n

def NoLeftover (texts : DateTexts) (m : Meta) (reqs : List Request) : Prop :=
  ∀ ends, parseDt texts (metaValue m kTo) = some ends → ∀ req ∈ reqs,
    req.resetWindow ∨ ends.1 ≤ req.now.1

section

variable {texts : DateTexts}

theorem textOr_str {s : String} : textOr (some (.str s)) = s := by
  by_cases h : s = ""
  · simp [textOr, Json.truthy, h]
  · simp [textOr, Json.truthy, Json.text, h]

theorem isoSeconds_ne_empty (t : DateTime) : isoSeconds texts t ≠ "" :=
  texts.isoformat_ne_empty (wholeSecond t)

theorem strip_isoSeconds (t : DateTime) : strip (isoSeconds texts t) = isoSeconds texts t :=
  texts.strip_isoformat (wholeSecond t)

theorem parseDt_isoSeconds (t : DateTime) :
    parseDt texts (isoSeconds texts t) = some (wholeSecond t) := by
  have hlast : (isoSeconds texts t).toList.getLast? ≠ some 'Z' := fun h =>
    texts.not_mem_isoformat (c := 'Z') (by decide) (by decide) (wholeSecond t)
      (List.mem_of_getLast? h)
  simp only [parseDt, strip_isoSeconds, if_neg (isoSeconds_ne_empty t), if_neg hlast]
  rw [isoSeconds, texts.fromisoformat_isoformat]

end

theorem strip_toString (n : ℕ) : strip (toString n) = toString n := by
  have hchars : stripChars (toString n).toList = (toString n).toList := stripChars_toString n
  rw [strip, hchars]
  exact String.ofList_toList

theorem textOr_ofInt {n : ℕ} (h : n ≠ 0) : textOr (some (ofInt n)) = toString n := by
  have htruthy : Json.truthy (ofInt n) = true := by simp [ofInt, Json.truthy, h]
  rw [textOr, htruthy, if_pos rfl]
  rfl

theorem intOrZero_of_text {n : ℕ} (h : n < 2 ^ 53) {v : Option Json}
    (hv : textOr v = toString n) : intOrZero v = .ok (n : ℤ) := by
  rw [intOrZero, hv, strip_toString, intOfFloat_toString h]

theorem intOrZero_ofInt {n : ℕ} (h : n < 2 ^ 53) : intOrZero (some (ofInt n)) = .ok (n : ℤ) := by
  by_cases hzero : n = 0
  · subst hzero
    rfl
  · exact intOrZero_of_text h (textOr_ofInt hzero)

theorem intOrZero_ofBool (b : Bool) :
    intOrZero (some (ofBool b)) = .ok (if b then 1 else 0) := by
  cases b with
  | false => exact intOrZero_ofInt (n := 0) (by norm_num)
  | true => exact intOrZero_ofInt (n := 1) (by norm_num)

structure Based (row₀ : Row) (m₀ m : Meta) : Prop where
  kept : m.keep isOther = m₀.keep isOther
  prevBwctrl : m.get? kPrevBwctrl = some (ofBool (row₀.bandwidthControlEnabled ≠ 0))
  prevDown : m.get? kPrevDown = some (ofInt row₀.downloadSpeedKbps)
  prevUp : m.get? kPrevUp = some (ofInt row₀.uploadSpeedKbps)
  prevCustom : m.get? kPrevCustom = some (ofBool row₀.customSpeed)

structure Opened (texts : DateTexts) (row₀ : Row) (m₀ : Meta) (e : DateTime) (m : Meta) : Prop
    extends Based row₀ m₀ m where
  started : metaValue m kFrom ≠ ""
  ends : parseDt texts (metaValue m kTo) = some e
  hasStart : (m.get? kFrom).isSome
  hasDuration : (m.get? kDuration).isSome
  duration : ∃ n, intOrZero (some (.str (metaValue m kDuration))) = .ok n

def Request.freshEnd (req : Request) : Option DateTime :=
  (req.now.addSeconds? (60 * req.durationMinutes)).map wholeSecond

def nextEnd (ends : Option DateTime) (req : Request) : Option DateTime :=
  if req.check.isSome ∨ !req.resetWindow ∧ ends.any (req.now.1 < ·.1) then ends
  else req.freshEnd.or ends

def windowEnd (reqs : List Request) : Option DateTime := reqs.foldl nextEnd none

section

variable {texts : DateTexts} {row₀ : Row} {m₀ m : Meta} {req : Request}

theorem advanced_of_kept (h : m.keep isOther = m₀.keep isOther) : advanced m = advanced m₀ := by
  have hkey : isOther "advanced" = true := by decide
  rw [advanced, ← Dict.get?_keep hkey m, h, Dict.get?_keep hkey m₀, ← advanced]

theorem shadowed_of_kept (h : m.keep isOther = m₀.keep isOther) (key : String) :
    shadowed m key = shadowed m₀ key := by
  rw [shadowed, advanced_of_kept h, shadowed]

theorem metaValue_plain {key : String} (h : shadowed m key = false) :
    metaValue m key = strip (textOr (m.get? key)) := by
  rw [metaValue, if_neg]
  rw [← shadowed, h]
  exact Bool.false_ne_true

theorem metaValue_shadowed {key : String} (h : shadowed m key = true) :
    metaValue m key = strip (textOr ((advanced m).get? key)) := by
  rw [metaValue, if_pos]
  rwa [← shadowed]

theorem metaValue_congr (hkept : m.keep isOther = m₀.keep isOther) {key : String}
    (h : shadowed m₀ key = true ∨ m.get? key = m₀.get? key) :
    metaValue m key = metaValue m₀ key := by
  have hsame := shadowed_of_kept hkept key
  cases hshadow : shadowed m₀ key with
  | true =>
    rw [metaValue_shadowed hshadow, metaValue_shadowed (hsame.trans hshadow),
      advanced_of_kept hkept]
  | false =>
    rw [metaValue_plain hshadow, metaValue_plain (hsame.trans hshadow)]
    obtain h | h := h
    · rw [hshadow] at h
      cases h
    · rw [h]

theorem snapshot_based (row₀ : Row) (plan : Option AccessPlan) (m₀ : Meta) :
    Based row₀ m₀ (snapshot row₀ plan m₀) := by
  have hkeys : ∀ key ∈ tempMetaKeys, isOther key = false := by decide
  constructor
  · simp only [snapshot]
    rw [Dict.keep_put (hkeys _ (by decide)), Dict.keep_put (hkeys _ (by decide)),
      Dict.keep_put (hkeys _ (by decide)), Dict.keep_put (hkeys _ (by decide)),
      Dict.keep_put (hkeys _ (by decide))]
  all_goals simp [snapshot, Dict.get?_put, kPrevBwctrl, kPrevDown, kPrevUp, kPrevCustom,
    kRestoreRate]

theorem get?_snapshot_to (plan : Option AccessPlan) :
    (snapshot row₀ plan m₀).get? kTo = m₀.get? kTo := by
  simp [snapshot, Dict.get?_put, kPrevBwctrl, kPrevDown, kPrevUp, kPrevCustom, kRestoreRate, kTo]

theorem Based.put (h : Based row₀ m₀ m) (key : String) (hkey : isOther key = false)
    (hprev : key ∉ [kPrevBwctrl, kPrevDown, kPrevUp, kPrevCustom]) (value : Json) :
    Based row₀ m₀ (m.put key value) := by
  simp only [List.mem_cons, List.not_mem_nil, or_false, not_or] at hprev
  constructor
  · rw [Dict.keep_put hkey, h.kept]
  · rw [Dict.get?_put, if_neg hprev.1, h.prevBwctrl]
  · rw [Dict.get?_put, if_neg hprev.2.1, h.prevDown]
  · rw [Dict.get?_put, if_neg hprev.2.2.1, h.prevUp]
  · rw [Dict.get?_put, if_neg hprev.2.2.2, h.prevCustom]

theorem duration_read (hclean : MetaClean m₀) (hkept : m.keep isOther = m₀.keep isOther)
    (hcheck : req.check = none) (h : m.get? kDuration = some (ofInt req.durationMinutes)) :
    ∃ n, intOrZero (some (.str (metaValue m kDuration))) = .ok n := by
  have hsame := shadowed_of_kept hkept kDuration
  cases hshadow : shadowed m₀ kDuration with
  | true =>
    rw [metaValue_congr hkept (Or.inl hshadow)]
    exact hclean.duration hshadow
  | false =>
    unfold Request.check at hcheck
    split_ifs at hcheck with _ _ _ hduration
    simp only [minMinutes, maxMinutes] at hduration
    obtain ⟨n, hn⟩ : ∃ n : ℕ, req.durationMinutes = n := Int.eq_ofNat_of_zero_le (by omega)
    rw [metaValue_plain (hsame.trans hshadow), h, hn, textOr_ofInt (by omega), strip_toString]
    exact ⟨n, intOrZero_of_text (by omega) textOr_str⟩

theorem opened_fresh (hclean : MetaClean m₀) (hcheck : req.check = none)
    (h : Based row₀ m₀ m) (ends : DateTime) :
    Opened texts row₀ m₀ (wholeSecond ends) ((((m.put kFrom (.str (isoSeconds texts req.now))).put
      kTo (.str (isoSeconds texts ends))).put kDuration (ofInt req.durationMinutes)).put kActive
        (ofInt 1)) := by
  have hbased := (((h.put kFrom (by decide) (by decide) (.str (isoSeconds texts req.now))).put
    kTo (by decide) (by decide) (.str (isoSeconds texts ends))).put kDuration (by decide)
    (by decide) (ofInt req.durationMinutes)).put kActive (by decide) (by decide) (ofInt 1)
  have hduration : ((((m.put kFrom (.str (isoSeconds texts req.now))).put kTo
      (.str (isoSeconds texts ends))).put kDuration (ofInt req.durationMinutes)).put kActive
        (ofInt 1)).get? kDuration = some (ofInt req.durationMinutes) := by
    rw [Dict.get?_put, if_neg (by decide), Dict.get?_put, if_pos rfl]
  refine ⟨hbased, ?_, ?_, ?_, ?_, duration_read hclean hbased.kept hcheck hduration⟩
  · rw [metaValue_plain ((shadowed_of_kept hbased.kept kFrom).trans hclean.started)]
    rw [Dict.get?_put, if_neg (by decide), Dict.get?_put, if_neg (by decide), Dict.get?_put,
      if_neg (by decide), Dict.get?_put, if_pos rfl, textOr_str, strip_isoSeconds]
    exact isoSeconds_ne_empty _
  · rw [metaValue_plain ((shadowed_of_kept hbased.kept kTo).trans hclean.ends)]
    rw [Dict.get?_put, if_neg (by decide), Dict.get?_put, if_neg (by decide), Dict.get?_put,
      if_pos rfl, textOr_str, strip_isoSeconds, parseDt_isoSeconds]
  · rw [Dict.get?_put, if_neg (by decide), Dict.get?_put, if_neg (by decide), Dict.get?_put,
      if_neg (by decide), Dict.get?_put, if_pos rfl]
    rfl
  · rw [hduration]
    rfl

theorem opened_kept {e : DateTime} (h : Opened texts row₀ m₀ e m) :
    Opened texts row₀ m₀ e (((m.putNew kFrom (.str (isoSeconds texts req.now))).putNew kDuration
      (ofInt req.durationMinutes)).put kActive (ofInt 1)) := by
  have hsame : (m.putNew kFrom (.str (isoSeconds texts req.now))).putNew kDuration
      (ofInt req.durationMinutes) = m := by
    rw [Dict.putNew, Dict.putNew, if_pos h.hasStart, if_pos h.hasDuration]
  rw [hsame]
  have hbased := h.toBased.put kActive (by decide) (by decide) (ofInt 1)
  have hget : ∀ key ≠ kActive, (m.put kActive (ofInt 1)).get? key = m.get? key := by
    intro key hkey
    rw [Dict.get?_put, if_neg hkey.symm]
  have hvalue : ∀ key ≠ kActive, metaValue (m.put kActive (ofInt 1)) key = metaValue m key := by
    intro key hkey
    exact metaValue_congr (hbased.kept.trans h.kept.symm) (Or.inr (hget key hkey))
  refine ⟨hbased, ?_, ?_, ?_, ?_, ?_⟩
  · rw [hvalue kFrom (by decide)]
    exact h.started
  · rw [hvalue kTo (by decide)]
    exact h.ends
  · rw [hget kFrom (by decide)]
    exact h.hasStart
  · rw [hget kDuration (by decide)]
    exact h.hasDuration
  · rw [hvalue kDuration (by decide)]
    exact h.duration

end

def Tracks (texts : DateTexts) (row₀ : Row) (m₀ : Meta) (ends : Option DateTime) (row : Row) :
    Prop :=
  match ends with
  | none => row = row₀
  | some e => row.temporarySpeed = true ∧ row.customSpeed = row₀.customSpeed ∧
      ∃ m, row.metadata = some (.obj m) ∧ Opened texts row₀ m₀ e m

section

variable {texts : DateTexts} {row₀ row : Row} {m₀ m : Meta} {req : Request}

theorem nextEnd_fresh {ends : Option DateTime} (hcheck : req.check = none)
    (hfresh : req.resetWindow ∨ !(ends.any (req.now.1 < ·.1))) :
    nextEnd ends req = req.freshEnd.or ends := by
  rw [nextEnd, if_neg]
  rintro (h | ⟨hkeep, hlater⟩)
  · rw [hcheck] at h
    cases h
  · obtain hreset | hover := hfresh
    · simp [hreset] at hkeep
    · rw [hlater] at hover
      cases hover

theorem window_opens (hclean : MetaClean m₀) (hcheck : req.check = none)
    (hbased : Based row₀ m₀ m) (ends : Option DateTime)
    (hfresh : req.resetWindow ∨ !((parseDt texts (metaValue m kTo)).any (req.now.1 < ·.1)))
    (hends : req.resetWindow ∨ !(ends.any (req.now.1 < ·.1))) :
    (window texts req m = none → nextEnd ends req = ends) ∧
      ∀ m', window texts req m = some m' → ∃ e, nextEnd ends req = some e ∧
        Opened texts row₀ m₀ e (m'.put kActive (ofInt 1)) := by
  rw [window, if_pos hfresh, nextEnd_fresh hcheck hends, Request.freshEnd]
  cases req.now.addSeconds? (60 * req.durationMinutes) with
  | none =>
    refine ⟨fun _ => rfl, ?_⟩
    intro m' hm'
    cases hm'
  | some e =>
    constructor
    · intro h
      cases h
    · intro m' hm'
      cases hm'
      exact ⟨wholeSecond e, rfl, opened_fresh hclean hcheck hbased e⟩

theorem window_tracks (hclean : MetaClean m₀) (hcheck : req.check = none) {e : DateTime}
    (h : Opened texts row₀ m₀ e m) :
    (window texts req m = none → nextEnd (some e) req = some e) ∧
      ∀ m', window texts req m = some m' → ∃ e', nextEnd (some e) req = some e' ∧
        Opened texts row₀ m₀ e' (m'.put kActive (ofInt 1)) := by
  by_cases hfresh : req.resetWindow ∨ !((some e).any (req.now.1 < ·.1))
  · have hends : req.resetWindow ∨ !((parseDt texts (metaValue m kTo)).any (req.now.1 < ·.1)) := by
      rwa [h.ends]
    exact window_opens hclean hcheck h.toBased (some e) hends hfresh
  · rw [window, h.ends, if_neg hfresh]
    obtain ⟨hkeep, hlater⟩ := not_or.mp hfresh
    constructor
    · intro h
      cases h
    · intro m' hm'
      cases hm'
      refine ⟨e, ?_, opened_kept h⟩
      rw [nextEnd, if_pos (Or.inr ⟨by simpa using hkeep, by simpa using hlater⟩)]

theorem metaValue_snapshot_to (row₀ : Row) (plan : Option AccessPlan) (m₀ : Meta) :
    metaValue (snapshot row₀ plan m₀) kTo = metaValue m₀ kTo :=
  metaValue_congr (snapshot_based row₀ plan m₀).kept (Or.inr (get?_snapshot_to plan))

theorem step_tracks (hmeta : row₀.metadata = some (.obj m₀)) (hclean : MetaClean m₀)
    (hnone : alreadyTemp m₀ = false) (hleft : NoLeftover texts m₀ [req])
    {ends : Option DateTime} (h : Tracks texts row₀ m₀ ends row) :
    Tracks texts row₀ m₀ (nextEnd ends req) (step texts row req) := by
  cases hcheck : req.check with
  | some err =>
    rw [nextEnd, if_pos (Or.inl (by rw [hcheck]; rfl)), step, applyTempSpeed, hcheck]
    exact h
  | none =>
    cases ends with
    | none =>
      have hrow : row = row₀ := h
      subst hrow
      have hfresh : req.resetWindow ∨ !((parseDt texts
          (metaValue (snapshot row req.plan m₀) kTo)).any (req.now.1 < ·.1)) := by
        rw [metaValue_snapshot_to]
        cases hends : parseDt texts (metaValue m₀ kTo) with
        | none => exact Or.inr rfl
        | some ends =>
          have hpast := hleft ends hends req (List.mem_singleton_self req)
          simpa using hpast
      obtain ⟨hstay, hopen⟩ := window_opens hclean hcheck (snapshot_based row req.plan m₀) none
        hfresh (Or.inr rfl)
      rw [step, applyTempSpeed, hcheck, hmeta, parseMeta]
      simp only [hnone, Bool.false_eq_true, if_false]
      cases hw : window texts req (snapshot row req.plan m₀) with
      | none =>
        rw [hstay hw]
        exact h
      | some m' =>
        obtain ⟨e, hend, hopened⟩ := hopen m' hw
        rw [hend]
        exact ⟨rfl, rfl, _, rfl, hopened⟩
    | some e =>
      obtain ⟨hflag, hcustom, m, hm, hopened⟩ := h
      have halready : alreadyTemp m = true := by simp [alreadyTemp, hopened.started]
      obtain ⟨hstay, hopen⟩ := window_tracks hclean hcheck hopened
      rw [step, applyTempSpeed, hcheck, hm, parseMeta]
      simp only [halready, if_true]
      cases hw : window texts req m with
      | none =>
        rw [hstay hw]
        exact ⟨hflag, hcustom, m, hm, hopened⟩
      | some m' =>
        obtain ⟨e', hend, hopened'⟩ := hopen m' hw
        rw [hend]
        exact ⟨rfl, hcustom, _, rfl, hopened'⟩

theorem run_tracks (hmeta : row₀.metadata = some (.obj m₀)) (hclean : MetaClean m₀)
    (hnone : alreadyTemp m₀ = false) {reqs : List Request} (hleft : NoLeftover texts m₀ reqs)
    {ends : Option DateTime} (h : Tracks texts row₀ m₀ ends row) :
    Tracks texts row₀ m₀ (reqs.foldl nextEnd ends) (reqs.foldl (step texts) row) := by
  induction reqs generalizing ends row with
  | nil => exact h
  | cons req reqs ih =>
    have hhead : NoLeftover texts m₀ [req] := by
      intro t ht r hr
      rw [List.mem_singleton.mp hr]
      exact hleft t ht req List.mem_cons_self
    have htail : NoLeftover texts m₀ reqs := fun t ht r hr =>
      hleft t ht r (List.mem_cons_of_mem req hr)
    exact ih htail (step_tracks hmeta hclean hnone hhead h)

end

def untemp : Option Json → Option Json
  | some (.obj m) => some (.obj (popTemp m))
  | v => v

structure Restored (row r : Row) : Prop where
  flag : r.temporarySpeed = false
  custom : r.customSpeed = row.customSpeed
  bwctrl : r.bandwidthControlEnabled = row.bandwidthControlEnabled
  down : r.downloadSpeedKbps = row.downloadSpeedKbps
  up : r.uploadSpeedKbps = row.uploadSpeedKbps
  others : untemp r.metadata = untemp row.metadata

theorem popTemp_congr {m m' : Meta} (h : m.keep isOther = m'.keep isOther) :
    popTemp m = popTemp m' := by
  rw [popTemp, h, popTemp]

theorem popTemp_of_object {m : Meta} {fields : Dict String Json}
    (h : (m.keep isOther).get? "advanced" = some (.obj fields)) :
    popTemp m = (m.keep isOther).put "advanced" (.obj (Dict.keep fields isOtherAdvanced)) := by
  simp only [popTemp, h]

theorem popTemp_of_other {m : Meta}
    (h : ∀ fields, (m.keep isOther).get? "advanced" ≠ some (.obj fields)) :
    popTemp m = m.keep isOther := by
  simp only [popTemp]

theorem popTemp_popTemp (m : Meta) : popTemp (popTemp m) = popTemp m := by
  by_cases h : ∃ fields, (m.keep isOther).get? "advanced" = some (.obj fields)
  · obtain ⟨fields, hfields⟩ := h
    have hkept : (popTemp m).keep isOther = popTemp m := by
      rw [popTemp_of_object hfields, Dict.keep_put_of_kept (by decide), Dict.keep_keep]
    have hagain : ((popTemp m).keep isOther).get? "advanced" =
        some (.obj (Dict.keep fields isOtherAdvanced)) := by
      rw [hkept, popTemp_of_object hfields, Dict.get?_put, if_pos rfl]
    rw [popTemp_of_object hagain, hkept, popTemp_of_object hfields, Dict.put_put, Dict.keep_keep]
  · have hother := not_exists.mp h
    have hkept : (popTemp m).keep isOther = popTemp m := by
      rw [popTemp_of_other hother, Dict.keep_keep]
    rw [popTemp_of_other (m := popTemp m) (by rwa [hkept, popTemp_of_other hother]), hkept]

section

variable {texts : DateTexts} {row₀ row : Row} {m₀ m : Meta} {e : DateTime}

theorem restoredSpeeds_of_based (hcolumns : ColumnsExact row₀) (h : Based row₀ m₀ m) :
    restoredSpeeds row m = .ok (row₀.bandwidthControlEnabled, row₀.downloadSpeedKbps,
      row₀.uploadSpeedKbps) := by
  have hsnapshot : metaValue m kRestoreRate ≠ "" ∨ (m.get? kPrevCustom).isSome := by
    rw [h.prevCustom]
    exact Or.inr rfl
  rw [restoredSpeeds, if_pos hsnapshot, h.prevCustom, h.prevBwctrl, h.prevDown, h.prevUp,
    intOrZero_ofBool, intOrZero_ofBool]
  cases hcustom : row₀.customSpeed with
  | true =>
    rw [ColumnsExact, hcustom, if_pos rfl] at hcolumns
    obtain ⟨hbwctrl, hdown, hup⟩ := hcolumns
    rw [hdown, hup, hbwctrl]
    rfl
  | false =>
    rw [ColumnsExact, hcustom, if_neg Bool.false_ne_true] at hcolumns
    obtain ⟨hbwctrl, hdown, hup⟩ := hcolumns
    rw [hdown, hup, hbwctrl]
    rfl

theorem revertOne_restores (hmeta : row₀.metadata = some (.obj m₀)) (hcolumns : ColumnsExact row₀)
    (h : Tracks texts row₀ m₀ (some e) row) : ∃ r, revertOne row = .ok r ∧ Restored row₀ r := by
  obtain ⟨-, hcustom, m, hm, hopened⟩ := h
  refine ⟨{ row with
    temporarySpeed := false
    bandwidthControlEnabled := row₀.bandwidthControlEnabled
    downloadSpeedKbps := row₀.downloadSpeedKbps
    uploadSpeedKbps := row₀.uploadSpeedKbps
    metadata := some (.obj (popTemp m)) }, ?_, ⟨rfl, hcustom, rfl, rfl, rfl, ?_⟩⟩
  · rw [revertOne, hm, parseMeta, restoredSpeeds_of_based hcolumns hopened.toBased]
    rfl
  · rw [hmeta, untemp, untemp, popTemp_popTemp, popTemp_congr hopened.kept]

theorem endsAt_of_opened (h : Opened texts row₀ m₀ e m) : endsAt texts m = .ok (some e) := by
  obtain ⟨n, hn⟩ := h.duration
  unfold endsAt
  rw [hn, h.ends]

theorem expireDue_of_flag (h : row.temporarySpeed = false) (now : DateTime) :
    expireDue texts row now = .ok row := by
  rw [expireDue, h]
  rfl

theorem expireDue_early (h : Tracks texts row₀ m₀ (some e) row) {now : DateTime}
    (hnow : now.1 < e.1) : expireDue texts row now = .ok row := by
  obtain ⟨hflag, -, m, hm, hopened⟩ := h
  have hlater : (some e).any (now.1 < ·.1) = true := decide_eq_true hnow
  simp only [expireDue, hflag, hm, parseMeta, endsAt_of_opened hopened, hlater, if_true]
  rfl

theorem expireDue_late (hmeta : row₀.metadata = some (.obj m₀)) (hcolumns : ColumnsExact row₀)
    (h : Tracks texts row₀ m₀ (some e) row) {now : DateTime} (hnow : e.1 ≤ now.1) :
    ∃ r, expireDue texts row now = .ok r ∧ Restored row₀ r := by
  obtain ⟨r, hr, hrestored⟩ := revertOne_restores hmeta hcolumns h
  obtain ⟨hflag, -, m, hm, hopened⟩ := h
  have hover : (some e).any (now.1 < ·.1) = false := decide_eq_false (by omega)
  refine ⟨r, ?_, hrestored⟩
  have hends : endsAt texts (parseMeta row.metadata) = .ok (some e) := by
    rw [hm, parseMeta]
    exact endsAt_of_opened hopened
  simp only [expireDue, hflag, hends, hover, hr]
  rfl

theorem temporarySpeed_of_revertOne {r : Row} (h : revertOne row = .ok r) :
    r.temporarySpeed = false := by
  cases hspeeds : restoredSpeeds row (parseMeta row.metadata) with
  | error e =>
    simp only [revertOne, hspeeds] at h
    cases h
  | ok speeds =>
    simp only [revertOne, hspeeds] at h
    cases h
    rfl

theorem expireDue_expireDue {r : Row} {now : DateTime} (h : expireDue texts row now = .ok r) :
    expireDue texts r now = .ok r := by
  have hcases : row = r ∨ revertOne row = .ok r := by
    simp only [expireDue] at h
    split_ifs at h with hflag
    · exact Or.inl (Except.ok.inj h)
    · split at h
      · cases h
      · split_ifs at h with hover
        · exact Or.inl (Except.ok.inj h)
        · split at h
          · next reverted hreverted =>
            rw [hreverted]
            exact Or.inr h
          · exact Or.inl (Except.ok.inj h)
  obtain rfl | hreverted := hcases
  · exact h
  · exact expireDue_of_flag (temporarySpeed_of_revertOne hreverted) now

theorem hasWindow_eq_false (h : hasWindow row = false) :
    row.temporarySpeed = false ∧ alreadyTemp (parseMeta row.metadata) = false := by
  simp only [hasWindow, Bool.or_eq_false_iff] at h
  obtain ⟨⟨hflag, hfrom⟩, hrate⟩ := h
  exact ⟨hflag, by rw [alreadyTemp, hfrom, hrate]; rfl⟩

theorem cancelTempSpeed_restores (hmeta : row₀.metadata = some (.obj m₀))
    (hcolumns : ColumnsExact row₀) (hwindow : hasWindow row₀ = false) {ends : Option DateTime}
    (h : Tracks texts row₀ m₀ ends row) :
    ∃ r, cancelTempSpeed row = .ok r ∧ Restored row₀ r := by
  cases ends with
  | none =>
    have hrow : row = row₀ := h
    subst hrow
    refine ⟨row, ?_, ⟨(hasWindow_eq_false hwindow).1, rfl, rfl, rfl, rfl, rfl⟩⟩
    rw [cancelTempSpeed, hwindow, if_neg Bool.false_ne_true]
  | some e =>
    have hopen : hasWindow row = true := by
      obtain ⟨hflag, -⟩ := h
      rw [hasWindow, hflag]
      rfl
    rw [cancelTempSpeed, hopen, if_pos rfl]
    exact revertOne_restores hmeta hcolumns h

end

/-- However often a temporary speed is applied to a row without one, what ends it restores the
row, and nothing does before the end. -/
theorem no_residue (texts : DateTexts) {row₀ : Row} {m₀ : Meta} {reqs : List Request}
    (hwindow : hasWindow row₀ = false) (hmeta : row₀.metadata = some (.obj m₀))
    (hcolumns : ColumnsExact row₀) (hclean : MetaClean m₀) (hleft : NoLeftover texts m₀ reqs) :
    (∃ r, cancelTempSpeed (reqs.foldl (step texts) row₀) = .ok r ∧ Restored row₀ r) ∧
      (∀ ends ∈ windowEnd reqs, ∀ now : DateTime,
        (now.1 < ends.1 → expireDue texts (reqs.foldl (step texts) row₀) now =
          .ok (reqs.foldl (step texts) row₀)) ∧
        (ends.1 ≤ now.1 → ∃ r, expireDue texts (reqs.foldl (step texts) row₀) now = .ok r ∧
          Restored row₀ r)) ∧
      (windowEnd reqs = none → reqs.foldl (step texts) row₀ = row₀ ∧
        ∀ now, expireDue texts row₀ now = .ok row₀) ∧
      ∀ now r, expireDue texts (reqs.foldl (step texts) row₀) now = .ok r →
        expireDue texts r now = .ok r := by
  obtain ⟨hflag, hnone⟩ := hasWindow_eq_false hwindow
  rw [hmeta, parseMeta] at hnone
  have hstart : Tracks texts row₀ m₀ none row₀ := rfl
  have htracks := run_tracks hmeta hclean hnone hleft hstart
  refine ⟨cancelTempSpeed_restores hmeta hcolumns hwindow htracks, ?_, ?_, ?_⟩
  · intro ends hends now
    have hopen : Tracks texts row₀ m₀ (some ends) (reqs.foldl (step texts) row₀) := by
      rw [← Option.mem_def.mp hends]
      exact htracks
    exact ⟨expireDue_early hopen, expireDue_late hmeta hcolumns hopen⟩
  · intro hends
    rw [windowEnd] at hends
    rw [hends] at htracks
    exact ⟨htracks, expireDue_of_flag hflag⟩
  · intro now r hr
    exact expireDue_expireDue hr

theorem noon_range :
    -62135596800000000 ≤ (1767268800000000 : ℤ) ∧ (1767268800000000 : ℤ) ≤ 253402300799999999 := by
  decide

theorem halfPast_range :
    -62135596800000000 ≤ (1767270600000000 : ℤ) ∧ (1767270600000000 : ℤ) ≤ 253402300799999999 := by
  decide

def winter : DateTexts.Calendar where
  entries := [(⟨1767268800000000, noon_range⟩, "2026-01-01T12:00:00"),
    (⟨1767270600000000, halfPast_range⟩, "2026-01-01T12:30:00"),
    (⟨1767274200000000, by decide⟩, "2026-01-01T13:30:00")]
  dates := by decide
  texts := by decide
  mark := by decide
  digit := by decide
  chars := DateTexts.Calendar.chars_of_all (by decide)

def halfHour : Request :=
  { downKbps := 512, upKbps := 256, durationMinutes := 30, now := ⟨1767268800000000, noon_range⟩ }

def savedAgain : Request :=
  { downKbps := 1024, upKbps := 0, durationMinutes := 60, resetWindow := false
    now := ⟨1767270600000000, halfPast_range⟩ }

def limited (customSpeed : Bool) : Row :=
  { customSpeed, bandwidthControlEnabled := 1, downloadSpeedKbps := 2048, uploadSpeedKbps := 1024 }

theorem no_residue_own_speed :
    ∃ r, cancelTempSpeed ([halfHour, savedAgain].foldl (step winter.dateTexts) (limited true)) =
      .ok r ∧ Restored (limited true) r := by
  have hcolumns : ColumnsExact (limited true) := by
    have hcustom : (limited true).customSpeed = true := rfl
    rw [ColumnsExact, if_pos hcustom]
    exact ⟨rfl, intOrZero_ofInt (n := 2048) (by norm_num), intOrZero_ofInt (n := 1024)
      (by norm_num)⟩
  have hclean : MetaClean [] := ⟨rfl, rfl, fun h => by cases h⟩
  have hleft : NoLeftover winter.dateTexts [] [halfHour, savedAgain] := by
    intro ends hends
    have hnone : parseDt winter.dateTexts (metaValue [] kTo) = none := by decide
    rw [hnone] at hends
    cases hends
  exact (no_residue winter.dateTexts (by decide) rfl hcolumns hclean hleft).1

/-- Speeds that the custom flag does not speak for are lost. -/
theorem limited_speed_lost : hasWindow (limited false) = false ∧
    ¬ ∃ r, cancelTempSpeed ([halfHour].foldl (step winter.dateTexts) (limited false)) = .ok r ∧
      Restored (limited false) r := by
  refine ⟨by decide, ?_⟩
  rintro ⟨r, hr, hrestored⟩
  have hdown : (cancelTempSpeed ([halfHour].foldl (step winter.dateTexts)
      (limited false))).toOption.map Row.downloadSpeedKbps = some 0 := by decide
  rw [hr] at hdown
  have hzero : r.downloadSpeedKbps = 0 := Option.some_inj.mp hdown
  rw [hrestored.down] at hzero
  cases hzero

end RadiusModule.TempSpeed
