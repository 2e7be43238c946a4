import Mathlib.Data.Finset.Card
import Mathlib.Data.List.ReduceOption
import RadiusModule.Library.Run
import RadiusModule.Services.AccountingEvents
import RadiusModule.Services.MacAddress

/-!
# The provider's cap on active sessions

The contract caps the sessions of a tenant. The gate counts the live rows of
the accounting table, the rows of one device on one NAS once, and lets a user
with a running row pass without counting. An admission is followed by its Start.
-/

namespace RadiusModule.ProviderCap
open Library PyText Run AccountingEvents MacAddress

def defaultIntervalSec : ℤ := 60
def interimGraceSec : ℤ := 30

/-- The environment: `HOBERADIUS_CAP_STALE_SEC` and the live window. -/
structure Settings where
  floor : ℤ := 180
  windowMinutes : ℤ := 15
  window_pos : 1 ≤ windowMinutes := by decide

structure DeviceKey where
  nas : String
  user : String
  device : String
deriving DecidableEq, Repr

def deviceKey (r : Radacct) : Option DeviceKey :=
  let mac := normalizeMac r.callingStationId
  let device := if mac = "" then strip r.framedIpAddress else mac
  if device = "" then none else some ⟨r.nasIpAddress, lower (strip r.username), device⟩

def Settings.interimStaleAfter (s : Settings) (interval : ℤ) : ℤ :=
  max (2 * (if interval ≤ 0 then defaultIntervalSec else interval) + interimGraceSec) s.floor

section
variable (intervals : ℕ → ℤ)

/-- What `interim_nas` holds for one NAS. The interval of a row stands in a column that the
handlers of the panel never write. -/
def interimNas (rows : List Radacct) (nas : String) : Option ℤ :=
  rows.foldl (fun acc r =>
    if r.nasIpAddress = nas ∧ r.acctUpdateTime.time?.isSome then
      some (max (acc.getD 0) (intervals r.radacctid))
    else acc) none

variable (s : Settings)

def live (rows : List Radacct) (now : ℤ) (r : Radacct) : Bool :=
  let update := r.acctUpdateTime.time?
  let start := r.acctStartTime.time?
  !((update.or start).any fun last => last < now - s.windowMinutes * 60 * second) &&
    match update, start, interimNas intervals rows r.nasIpAddress with
    | some update, _, _ =>
      !decide (s.interimStaleAfter (intervals r.radacctid) * second < now - update)
    | none, some start, some interval =>
      !decide (s.interimStaleAfter interval * second < now - start)
    | none, _, _ => true

def openRows (t : RadacctTable) (tenantId : ℤ) : List Radacct :=
  t.select fun r => r.tenantId = tenantId && r.acctStopTime.isOpen

def liveKeys (t : RadacctTable) (tenantId now : ℤ) : List (Option DeviceKey) :=
  let rows := openRows t tenantId
  (rows.filter (live intervals s rows now)).map deviceKey

def countDevices (seen : List DeviceKey) : List (Option DeviceKey) → ℕ
  | [] => 0
  | none :: keys => countDevices seen keys + 1
  | some device :: keys =>
    if device ∈ seen then countDevices seen keys else countDevices (device :: seen) keys + 1

def countActiveSessions (t : RadacctTable) (tenantId now : ℤ) : ℕ :=
  countDevices [] (liveKeys intervals s t tenantId now)

def userHasOpenSession (t : RadacctTable) (tenantId : ℤ) (username : String) : Bool :=
  username ≠ "" &&
    t.rows.any fun r => r.tenantId = tenantId && r.username = username && r.acctStopTime.isNull

def checkProviderActiveCap (cap : Option ℤ) (t : RadacctTable) (tenantId now : ℤ)
    (username : String) : Option String :=
  match cap with
  | none => none
  | some cap =>
    if cap ≤ 0 ∨ userHasOpenSession t tenantId username then none
    else if cap ≤ countActiveSessions intervals s t tenantId now then some "provider_active_cap"
    else none

end

structure Login (tenantId : ℤ) where
  username : String
  event : Event
  own : event.tenantId = tenantId

structure Admission (tenantId : ℤ) where
  event : Event
  own : event.tenantId = tenantId
  before : ℕ

structure World (tenantId : ℤ) where
  table : RadacctTable
  intervals : ℕ → ℤ
  now : ℤ
  inserted : ∀ n, table.next ≤ n → intervals n = 0
  pending : Option (Admission tenantId) := none

inductive Move (tenantId : ℤ)
  | login (l : Login tenantId)
  | started
  | interim (e : Event)
  | stop (e : Event)
  | pass (time : ℕ)

theorem start_next (t : RadacctTable) (now : ℤ) (e : Event) : t.next ≤ (start t now e).1.next := by
  rw [start]
  cases openSession t e.key with
  | some existing => exact le_rfl
  | none => exact Nat.le_succ _

theorem overwriteOpen_next (t : RadacctTable) (now : ℤ) (e : Event) (closed : Bool)
    (f : Radacct → Radacct) (hf) (reply) :
    t.next ≤ (overwriteOpen t now e closed f hf reply).1.next := by
  rw [overwriteOpen]
  split_ifs
  · cases lastSessionRow (t.update (openOfKey e.key) f hf) e.key with
    | some prior => exact le_rfl
    | none => exact Nat.le_succ _
  · exact le_rfl

section
variable {tenantId : ℤ} (cap : ℤ) (s : Settings)

def World.withTable (w : World tenantId) (table : RadacctTable)
    (h : w.table.next ≤ table.next) (pending : Option (Admission tenantId)) : World tenantId :=
  { w with table, pending, inserted := fun n hn => w.inserted n (h.trans hn) }

def World.count (w : World tenantId) : ℕ :=
  countActiveSessions w.intervals s w.table tenantId w.now

def World.keys (w : World tenantId) : List (Option DeviceKey) :=
  liveKeys w.intervals s w.table tenantId w.now

def World.afterStart (w : World tenantId) (e : Event) : World tenantId :=
  w.withTable (start w.table w.now e).1 (start_next _ _ _) none

def World.refuses (w : World tenantId) (l : Login tenantId) : Bool :=
  (checkProviderActiveCap w.intervals s (some cap) w.table tenantId w.now l.username).isSome

def World.move (w : World tenantId) : Move tenantId → World tenantId
  | .login l =>
    if w.pending.isSome ∨ w.refuses cap s l then w
    else { w with pending := some ⟨l.event, l.own, w.count s⟩ }
  | .started =>
    match w.pending with
    | some a => w.afterStart a.event
    | none => w
  | .interim e =>
    w.withTable (interim w.table w.now e).1 (overwriteOpen_next _ _ _ _ _ _ _) w.pending
  | .stop e => w.withTable (stop w.table w.now e).1 (overwriteOpen_next _ _ _ _ _ _ _) w.pending
  | .pass time => { w with now := w.now + time }

def CapKept (w : World tenantId) : Move tenantId → Prop
  | .login l => w.pending = none → w.refuses cap s l = true →
    cap < (w.afterStart l.event).count s
  | .started => ∀ a ∈ w.pending, (a.before : ℤ) ≤ cap → ((w.afterStart a.event).count s : ℤ) ≤ cap
  | _ => True

def World.row (w : World tenantId) (e : Event) : Radacct := e.row w.table.next w.now w.now

def World.Counted (w : World tenantId) (e : Event) : Prop :=
  (deviceKey (w.row e)).isSome ∧ deviceKey (w.row e) ∈ w.keys s

def World.Steady (w : World tenantId) (nas : String) : Prop :=
  ∀ r ∈ openRows w.table tenantId, r.nasIpAddress = nas → r.acctUpdateTime.time? = none →
    interimNas w.intervals (openRows w.table tenantId) nas = none →
      ∀ start ∈ r.acctStartTime.time?, w.now - start ≤ s.interimStaleAfter 0 * second

/-- Where the tenant stands at its cap, a running row exempts the user of a counted device and
no other. Between a login and its Start no packet makes a session count. -/
def Fair (w : World tenantId) : Move tenantId → Prop
  | .login l => w.pending = none →
    if userHasOpenSession w.table tenantId l.username then
      (w.count s : ℤ) = cap → w.Counted s l.event
    else cap ≤ w.count s → w.Steady s l.event.nasIpAddress ∧
      ((w.count s : ℤ) = cap → openSession w.table l.event.key = none ∧ ¬ w.Counted s l.event)
  | .interim e => w.pending.isSome → ((w.move cap s (.interim e)).keys s).Sublist (w.keys s)
  | .stop e => w.pending.isSome → ((w.move cap s (.stop e)).keys s).Sublist (w.keys s)
  | _ => True

end

def seatCount (keys : List (Option DeviceKey)) : ℕ :=
  keys.reduceOption.toFinset.card + keys.count none

theorem countDevices_eq (keys : List (Option DeviceKey)) : ∀ seen : List DeviceKey,
    countDevices seen keys =
      (keys.reduceOption.toFinset \ seen.toFinset).card + keys.count none := by
  induction keys with
  | nil => intro seen; simp [countDevices]
  | cons key keys ih =>
    intro seen
    cases key with
    | none =>
      rw [countDevices, ih, List.reduceOption_cons_of_none, List.count_cons_self]
      omega
    | some device =>
      rw [countDevices, List.reduceOption_cons_of_some, List.toFinset_cons]
      have hnone : (some device :: keys).count none = keys.count none := by simp
      rw [hnone]
      by_cases hseen : device ∈ seen
      · rw [if_pos hseen, ih, Finset.insert_sdiff_of_mem _ (List.mem_toFinset.mpr hseen)]
      · rw [if_neg hseen, ih, List.toFinset_cons,
          Finset.insert_sdiff_of_notMem _ (by simpa using hseen), Finset.sdiff_insert,
          ← Finset.card_erase_add_one (Finset.mem_insert_self device _),
          Finset.erase_insert_eq_erase]
        omega

theorem count_eq_seatCount {tenantId : ℤ} (s : Settings) (w : World tenantId) :
    w.count s = seatCount (w.keys s) := by
  rw [World.count, countActiveSessions, countDevices_eq]
  simp [seatCount, World.keys]

theorem seatCount_mono {keys keys' : List (Option DeviceKey)} (h : keys.Sublist keys') :
    seatCount keys ≤ seatCount keys' := by
  refine Nat.add_le_add (Finset.card_le_card ?_) (h.count_le none)
  intro device hdevice
  simp only [List.mem_toFinset, List.reduceOption_mem_iff] at hdevice ⊢
  exact h.subset hdevice

theorem seatCount_append_of_mem {keys : List (Option DeviceKey)} {key : Option DeviceKey}
    (hsome : key.isSome) (hmem : key ∈ keys) : seatCount (keys ++ [key]) = seatCount keys := by
  obtain ⟨device, rfl⟩ := Option.isSome_iff_exists.mp hsome
  have hdevice : device ∈ keys.reduceOption := List.reduceOption_mem_iff.mpr hmem
  simp [seatCount, List.reduceOption_append, List.count_append, List.toFinset_append, hdevice,
    List.reduceOption_cons_of_some]

theorem seatCount_append_of_new {keys : List (Option DeviceKey)} {key : Option DeviceKey}
    (hnew : ¬ (key.isSome ∧ key ∈ keys)) : seatCount (keys ++ [key]) = seatCount keys + 1 := by
  cases key with
  | none => simp [seatCount, List.reduceOption_append, List.count_append,
      List.reduceOption_cons_of_none]; omega
  | some device =>
    have hdevice : device ∉ keys.reduceOption := fun h =>
      hnew ⟨rfl, List.reduceOption_mem_iff.mp h⟩
    have hcard : ((keys ++ [some device]).reduceOption.toFinset).card =
        keys.reduceOption.toFinset.card + 1 := by
      rw [List.reduceOption_append, List.toFinset_append, List.reduceOption_cons_of_some,
        List.reduceOption_nil, List.toFinset_cons, List.toFinset_nil, Finset.union_insert,
        Finset.union_empty, Finset.card_insert_of_notMem (by simpa using hdevice)]
    have hnone : (keys ++ [some device]).count none = keys.count none := by
      simp [List.count_append]
    rw [seatCount, hcard, hnone, seatCount]
    omega

theorem seatCount_append_le (keys : List (Option DeviceKey)) (key : Option DeviceKey) :
    seatCount (keys ++ [key]) ≤ seatCount keys + 1 := by
  by_cases h : key.isSome ∧ key ∈ keys
  · rw [seatCount_append_of_mem h.1 h.2]
    omega
  · exact (seatCount_append_of_new h).le

section
variable (intervals : ℕ → ℤ) (s : Settings)

theorem interimNas_append (rows : List Radacct) (r : Radacct) (nas : String) :
    interimNas intervals (rows ++ [r]) nas =
      if r.nasIpAddress = nas ∧ r.acctUpdateTime.time?.isSome then
        some (max ((interimNas intervals rows nas).getD 0) (intervals r.radacctid))
      else interimNas intervals rows nas := by
  rw [interimNas, List.foldl_append]
  rfl

theorem interimNas_nonneg (rows : List Radacct) (nas : String) :
    ∀ interval ∈ interimNas intervals rows nas, 0 ≤ interval := by
  induction rows using List.reverseRecOn with
  | nil => simp [interimNas]
  | append_singleton rows r ih =>
    rw [interimNas_append]
    split_ifs with h
    · rintro interval ⟨⟩
      refine le_max_of_le_left ?_
      cases hinterval : interimNas intervals rows nas with
      | none => exact le_rfl
      | some interval => exact ih interval hinterval
    · exact ih

variable {intervals s}

theorem interimStaleAfter_pos (interval : ℤ) : 0 < s.interimStaleAfter interval := by
  rw [Settings.interimStaleAfter]
  refine lt_max_of_lt_left ?_
  simp only [defaultIntervalSec, interimGraceSec]
  split_ifs <;> omega

theorem live_of_later {rows : List Radacct} {now later : ℤ} (hle : now ≤ later) {r : Radacct}
    (h : live intervals s rows later r = true) : live intervals s rows now r = true := by
  simp only [live] at h ⊢
  cases hupdate : r.acctUpdateTime.time? with
  | some update =>
    simp only [hupdate, Option.some_or, Option.any_some, Bool.and_eq_true, Bool.not_eq_true',
      decide_eq_false_iff_not] at h ⊢
    omega
  | none =>
    cases hstart : r.acctStartTime.time? with
    | none => simp
    | some start =>
      cases hinterval : interimNas intervals rows r.nasIpAddress with
      | none =>
        simp only [hupdate, hstart, hinterval, Option.none_or, Option.any_some, Bool.and_true,
          Bool.not_eq_true', decide_eq_false_iff_not] at h ⊢
        omega
      | some interval =>
        simp only [hupdate, hstart, hinterval, Option.none_or, Option.any_some, Bool.and_eq_true,
          Bool.not_eq_true', decide_eq_false_iff_not] at h ⊢
        omega

theorem live_fresh {rows : List Radacct} {now : ℤ} {r : Radacct}
    (hupdate : r.acctUpdateTime = .instant now) : live intervals s rows now r = true := by
  have hpos := interimStaleAfter_pos (s := s) (intervals r.radacctid)
  have hwindow := s.window_pos
  have hlast : ¬ now < now - s.windowMinutes * 60 * second := by
    simp only [second]
    omega
  have hstale : ¬ s.interimStaleAfter (intervals r.radacctid) * second < now - now := by
    simp only [second]
    omega
  simp only [live, hupdate, Stamp.time?, Option.some_or, Option.any_some, Bool.and_eq_true,
    Bool.not_eq_true', decide_eq_false hlast, decide_eq_false hstale, and_self]

theorem live_none_iff {rows : List Radacct} {now : ℤ} {r : Radacct}
    (hupdate : r.acctUpdateTime.time? = none) :
    live intervals s rows now r = true ↔ ∀ start ∈ r.acctStartTime.time?,
      now - s.windowMinutes * 60 * second ≤ start ∧
        ∀ interval ∈ interimNas intervals rows r.nasIpAddress,
          now - start ≤ s.interimStaleAfter interval * second := by
  simp only [live, hupdate]
  cases hstart : r.acctStartTime.time? with
  | none => simp
  | some start =>
    cases hinterval : interimNas intervals rows r.nasIpAddress with
    | none => simp
    | some interval => simp

theorem live_append_of_update {rows : List Radacct} {now : ℤ} {r new : Radacct}
    (hupdate : r.acctUpdateTime.time?.isSome) :
    live intervals s (rows ++ [new]) now r = live intervals s rows now r := by
  obtain ⟨update, hupdate⟩ := Option.isSome_iff_exists.mp hupdate
  simp only [live, hupdate]

theorem mem_interimNas_append {rows : List Radacct} {new : Radacct}
    (hnew : intervals new.radacctid = 0) (hupdate : new.acctUpdateTime.time?.isSome)
    {nas : String} {interval : ℤ} :
    interval ∈ interimNas intervals (rows ++ [new]) nas ↔
      interval ∈ interimNas intervals rows nas ∨
        (new.nasIpAddress = nas ∧ interimNas intervals rows nas = none ∧ interval = 0) := by
  rw [interimNas_append, hnew]
  cases hrows : interimNas intervals rows nas with
  | none =>
    by_cases hnas : new.nasIpAddress = nas
    · simp [hnas, hupdate, eq_comm]
    · simp [hnas]
  | some known =>
    have hknown := interimNas_nonneg intervals rows nas known hrows
    by_cases hnas : new.nasIpAddress = nas
    · simp [hnas, hupdate, max_eq_left hknown]
    · simp [hnas]

theorem live_of_append {rows : List Radacct} {now : ℤ} {r new : Radacct}
    (hnew : intervals new.radacctid = 0) (hupdate : new.acctUpdateTime.time?.isSome)
    (h : live intervals s (rows ++ [new]) now r = true) : live intervals s rows now r = true := by
  cases hr : r.acctUpdateTime.time? with
  | some update => rwa [live_append_of_update (by simp [hr])] at h
  | none =>
    rw [live_none_iff hr] at h ⊢
    intro start hstart
    obtain ⟨hwindow, hstale⟩ := h start hstart
    exact ⟨hwindow, fun interval hinterval =>
      hstale interval ((mem_interimNas_append hnew hupdate).mpr (.inl hinterval))⟩

end

section
variable {tenantId : ℤ} {cap : ℤ} {s : Settings}

theorem openRows_insert (t : RadacctTable) (mk : ℕ → Radacct) (hmk) (hown : (mk t.next).tenantId =
    tenantId) (hopen : (mk t.next).acctStopTime.isOpen = true) :
    openRows (t.insert mk hmk) tenantId = openRows t tenantId ++ [mk t.next] := by
  rw [openRows, Table.select_insert, openRows]
  simp [hown, hopen]

@[simp] theorem keys_withTable_pending (w : World tenantId) (table : RadacctTable) (h)
    (p p' : Option (Admission tenantId)) :
    (w.withTable table h p).keys s = (w.withTable table h p').keys s := rfl

theorem start_cases (w : World tenantId) {e : Event} (hown : e.tenantId = tenantId) :
    (openSession w.table e.key ≠ none ∧ (w.afterStart e).keys s = w.keys s) ∨
      (openSession w.table e.key = none ∧
        (w.afterStart e).keys s =
          ((openRows w.table tenantId).filter fun r =>
            live w.intervals s (openRows w.table tenantId ++ [w.row e]) w.now r).map deviceKey ++
              [deviceKey (w.row e)]) := by
  cases hsession : openSession w.table e.key with
  | some existing =>
    left
    refine ⟨by simp, ?_⟩
    rw [World.keys, World.keys, World.afterStart, World.withTable]
    simp only [start, hsession]
  | none =>
    right
    refine ⟨rfl, ?_⟩
    have hrows : openRows (start w.table w.now e).1 tenantId =
        openRows w.table tenantId ++ [w.row e] := by
      simp only [start, hsession]
      exact openRows_insert _ _ _ hown rfl
    have hfresh : live w.intervals s (openRows w.table tenantId ++ [w.row e]) w.now (w.row e) =
        true := live_fresh rfl
    rw [World.keys, World.afterStart, World.withTable]
    simp only [liveKeys, hrows, List.filter_append, List.map_append]
    simp [hfresh]

theorem start_keys_sublist (w : World tenantId) {e : Event} (hown : e.tenantId = tenantId) :
    ((w.afterStart e).keys s).Sublist (w.keys s ++ [deviceKey (w.row e)]) := by
  rcases start_cases (s := s) w hown with ⟨-, hkeys⟩ | ⟨-, hkeys⟩
  · rw [hkeys]
    exact List.sublist_append_left _ _
  · rw [hkeys]
    refine (List.Sublist.map deviceKey ?_).append (List.Sublist.refl _)
    refine List.monotone_filter_right _ fun r h => ?_
    exact live_of_append (w.inserted _ le_rfl) rfl h

theorem start_keys_eq (w : World tenantId) {e : Event} (hown : e.tenantId = tenantId)
    (hsteady : w.Steady s e.nasIpAddress) (hsession : openSession w.table e.key = none) :
    (w.afterStart e).keys s = w.keys s ++ [deviceKey (w.row e)] := by
  rcases start_cases (s := s) w hown with ⟨hopen, -⟩ | ⟨-, hkeys⟩
  · exact absurd hsession hopen
  rw [hkeys, World.keys, liveKeys]
  congr 2
  refine List.filter_congr fun r hr => ?_
  rw [Bool.eq_iff_iff]
  refine ⟨live_of_append (w.inserted _ le_rfl) rfl, fun h => ?_⟩
  cases hupdate : r.acctUpdateTime.time? with
  | some update => rwa [live_append_of_update (by simp [hupdate])]
  | none =>
    rw [live_none_iff hupdate] at h ⊢
    intro start hstart
    obtain ⟨hwindow, hstale⟩ := h start hstart
    refine ⟨hwindow, fun interval hinterval => ?_⟩
    rcases (mem_interimNas_append (w.inserted _ le_rfl) rfl).mp hinterval with
      hknown | ⟨hnas, hnone, rfl⟩
    · exact hstale interval hknown
    · have hnas : r.nasIpAddress = e.nasIpAddress := hnas.symm
      exact hsteady r hr hnas hupdate (hnas ▸ hnone) start hstart

theorem pass_keys_sublist (w : World tenantId) (time : ℕ) :
    ((w.move cap s (.pass time)).keys s).Sublist (w.keys s) := by
  have hle : w.now ≤ w.now + time := by omega
  exact List.Sublist.map deviceKey (List.monotone_filter_right _ fun r h => live_of_later hle h)

def Room (cap : ℤ) (s : Settings) (w : World tenantId) : Prop :=
  ∀ a ∈ w.pending, (a.before : ℤ) ≤ cap →
    (seatCount (w.keys s ++ [deviceKey (w.row a.event)]) : ℤ) ≤ cap

theorem deviceKey_row (w w' : World tenantId) (e : Event) :
    deviceKey (w.row e) = deviceKey (w'.row e) := rfl

theorem Room.of_sublist {w w' : World tenantId} (h : Room cap s w)
    (hpending : w'.pending = w.pending) (hkeys : (w'.keys s).Sublist (w.keys s)) :
    Room cap s w' := by
  intro a ha hbefore
  have hle := seatCount_mono (hkeys.append_right [deviceKey (w'.row a.event)])
  rw [deviceKey_row w' w] at hle
  have := h a (hpending ▸ ha) hbefore
  rw [deviceKey_row w' w]
  omega

theorem refuses_iff (hcap : 0 < cap) (w : World tenantId) (l : Login tenantId) :
    w.refuses cap s l = true ↔
      userHasOpenSession w.table tenantId l.username = false ∧ cap ≤ w.count s := by
  rw [World.refuses, checkProviderActiveCap, World.count]
  by_cases hexempt : userHasOpenSession w.table tenantId l.username = true
  · simp [hexempt]
  · rw [if_neg (by simp [hexempt, hcap])]
    split_ifs with h <;> simp [hexempt, h]

theorem room_step (hcap : 0 < cap) {w : World tenantId} (m : Move tenantId) (h : Room cap s w)
    (hfair : Fair cap s w m) : Room cap s (w.move cap s m) := by
  cases m with
  | login l =>
    rw [World.move]
    split_ifs with hskip
    · exact h
    rw [not_or, Bool.not_eq_true, Bool.not_eq_true, Option.isSome_eq_false_iff,
      Option.isNone_iff_eq_none] at hskip
    obtain ⟨hpending, hadmitted⟩ := hskip
    rintro a ⟨⟩ hbefore
    change (seatCount (w.keys s ++ [deviceKey (w.row l.event)]) : ℤ) ≤ cap
    have hle := seatCount_append_le (w.keys s) (deviceKey (w.row l.event))
    have hcount := count_eq_seatCount s w
    rcases lt_or_eq_of_le hbefore with hlt | hfull
    · simp only at hlt
      omega
    · have hexempt : userHasOpenSession w.table tenantId l.username = true := by
        by_contra hnone
        rw [Bool.not_eq_true] at hnone
        have hrefused := (refuses_iff hcap w l).mpr ⟨hnone, hfull.ge⟩
        simp [hrefused] at hadmitted
      have hfair := hfair hpending
      rw [if_pos hexempt] at hfair
      obtain ⟨hnamed, hcounted⟩ := hfair hfull
      rw [seatCount_append_of_mem hnamed hcounted]
      simp only at hfull
      omega
  | started =>
    rw [World.move]
    cases hpending : w.pending with
    | none => exact h
    | some a =>
      rintro a' ⟨⟩
  | interim e =>
    cases hpending : w.pending with
    | none =>
      rintro a ha
      simp [World.move, World.withTable, hpending] at ha
    | some a => exact h.of_sublist rfl (hfair (by simp [hpending]))
  | stop e =>
    cases hpending : w.pending with
    | none =>
      rintro a ha
      simp [World.move, World.withTable, hpending] at ha
    | some a => exact h.of_sublist rfl (hfair (by simp [hpending]))
  | pass time => exact h.of_sublist rfl (pass_keys_sublist w time)

theorem capKept_of_fair (hcap : 0 < cap) {w : World tenantId} (m : Move tenantId)
    (h : Room cap s w) (hfair : Fair cap s w m) : CapKept cap s w m := by
  cases m with
  | login l =>
    intro hpending hrefused
    obtain ⟨hexempt, hfull⟩ := (refuses_iff hcap w l).mp hrefused
    have hfair := hfair hpending
    rw [if_neg (by simp [hexempt])] at hfair
    obtain ⟨hsteady, hat⟩ := hfair hfull
    have hcount := count_eq_seatCount s w
    have hafter := count_eq_seatCount s (w.afterStart l.event)
    by_cases hsession : openSession w.table l.event.key = none
    · rw [start_keys_eq w l.own hsteady hsession] at hafter
      by_cases hcounted : w.Counted s l.event
      · rw [seatCount_append_of_mem hcounted.1 hcounted.2] at hafter
        have : (w.count s : ℤ) ≠ cap := fun heq => (hat heq).2 hcounted
        omega
      · rw [seatCount_append_of_new hcounted] at hafter
        omega
    · have : (w.count s : ℤ) ≠ cap := fun heq => hsession (hat heq).1
      rcases start_cases (s := s) w l.own with ⟨-, hkeys⟩ | ⟨hnone, -⟩
      · rw [hkeys] at hafter
        omega
      · exact absurd hnone hsession
  | started =>
    intro a ha hbefore
    have hroom := h a ha hbefore
    have hle := seatCount_mono (start_keys_sublist (s := s) w a.own)
    rw [count_eq_seatCount]
    omega
  | interim e => trivial
  | stop e => trivial
  | pass time => trivial

end

/-- Along every run whose logins and packets are fair, a Start never lifts the count over the
cap and no login is refused that would have stayed under it. -/
theorem capKept_along {tenantId cap : ℤ} (hcap : 0 < cap) (s : Settings) (w : World tenantId)
    (hidle : w.pending = none) (moves : List (Move tenantId))
    (hfair : Along (Fair cap s) (World.move cap s) w moves) :
    Along (CapKept cap s) (World.move cap s) w moves := by
  have hroom : Room cap s w := by simp [Room, hidle]
  exact hfair.of_invariant (fun w m h hfair => room_step hcap m h hfair)
    (fun w m h hfair => capKept_of_fair hcap m h hfair) hroom

def packet (session username mac : String) (h : session ≠ "") : Event where
  tenantId := 1
  username := username
  acctSessionId := session
  acctUniqueSessionId := session
  nasIpAddress := "n"
  callingStationId := mac
  framedIpAddress := ""
  inputOctets := 0
  outputOctets := 0
  sessionTime := 0
  terminateCause := ""
  statusType := .start
  session_ne := fun _ => h
  nas_ne := by decide

def loginOf (session username mac : String) (h : session ≠ "") : Login 1 :=
  ⟨username, packet session username mac h, rfl⟩

def adaIn : Login 1 := loginOf "s3" "ada" "AA" (by decide)
def bobIn : Login 1 := loginOf "s4" "bob" "BB" (by decide)

def quietWorld : World 1 where
  table := .empty
  intervals := fun _ => 0
  now := 0
  inserted := fun _ _ => rfl

theorem quiet_run_kept : Along (CapKept 1 {}) (World.move 1 {}) quietWorld
    [.login adaIn, .started, .pass 1000000, .login bobIn] := by
  refine capKept_along (by decide) {} quietWorld rfl _ ⟨?_, trivial, trivial, ?_, trivial⟩
  · intro _
    rw [if_neg (by decide)]
    intro h
    exact absurd h (by decide)
  · intro _
    rw [if_neg (by decide)]
    intro _
    refine ⟨?_, fun _ => ⟨by decide, fun h => ?_⟩⟩
    · intro r hr _ hupdate
      have hall : ∀ r ∈ openRows
          (World.move 1 {} (World.move 1 {} (World.move 1 {} quietWorld (.login adaIn)) .started)
            (.pass 1000000)).table 1, r.acctUpdateTime.time? ≠ none := by decide
      exact absurd hupdate (hall r hr)
    · exact absurd h.2 (by decide)

def zombieWorld : World 1 where
  table := ⟨[{ radacctid := 1, tenantId := 1, acctSessionId := "s1", username := "ada"
               nasIpAddress := "n", acctStartTime := .instant 0, acctUpdateTime := .instant 0
               callingStationId := "AA" },
      { radacctid := 2, tenantId := 1, acctSessionId := "s2", username := "bob"
        nasIpAddress := "n", acctStartTime := .instant (3600 * second)
        acctUpdateTime := .instant (3600 * second), callingStationId := "BB" }],
    3, by simp, by simp⟩
  intervals := fun _ => 0
  now := 3600 * second
  inserted := fun _ _ => rfl

/-- Ada's row is too old to count and still exempts her. -/
theorem zombie_exempts : ¬ Along (CapKept 1 {}) (World.move 1 {}) zombieWorld
    [.login adaIn, .started] := by
  rintro ⟨-, hstarted, -⟩
  have hkept := hstarted ⟨adaIn.event, adaIn.own, 1⟩ (by rfl) (by decide)
  exact absurd hkept (by decide)

end RadiusModule.ProviderCap
