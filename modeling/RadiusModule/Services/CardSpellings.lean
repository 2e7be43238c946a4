import RadiusModule.Library.Run
import RadiusModule.Services.PolicyEngine.Authorize
import RadiusModule.Services.SessionLife

/-!
# The spellings of a card

A card is let in under its printed name too, but its packets are stored under
the name that the NAS sends, and the readers of `radacct` look for the stored
name of the card. So a spelling is charged to the card when the two names are
one after their white space is cut off, and only then.
-/

namespace RadiusModule.CardSpellings
open Library PyText PolicyEngine CardBatchFlags DeviceLimit AccountingEvents

def under (name : String) (p : Payload) : Payload := ("username", .str name) :: p

inductive Step
  | login (env : Env) (name : String) (req : AuthRequest)
  | packet (debounce now : ℤ) (name : String) (p : Payload)
  | other (f : Db → Db)

/-- The database after a step of the user of `card`, who types `spell name` for `name`. -/
def Step.apply (card : Card) (spell : String → String) (db : Db) : Step → Db
  | .login env name req =>
    (authorize env db { req with username := spell name, tenantId := card.tenantId }).2
  | .packet debounce now name p =>
    { db with
      radacct := SessionLife.Op.apply debounce db.radacct
        (.deliver card.tenantId now (under (spell name) p)) }
  | .other f => f db

def Accepted (db : Db) (card : Card) (name : String) : Prop :=
  name ≠ "" ∧ findLogin db { username := name, tenantId := card.tenantId } =
    some ({ username := card.username, tenantId := card.tenantId }, cardToSubscriber db card, .card)

instance (db : Db) (card : Card) (name : String) : Decidable (Accepted db card name) :=
  inferInstanceAs (Decidable (_ ∧ _))

def Step.Spelled (names : Set String) (card : Card) (db : Db) : Step → Prop
  | .login _ name _ => name ∈ names ∧ Accepted db card name ∧ Accepted db card card.username
  | .packet _ _ name _ => name ∈ names
  | .other _ => True

theorem findLogin_of_accepted {db : Db} {card : Card} {name : String}
    (h : Accepted db card name) (req : AuthRequest) :
    findLogin db { req with username := name, tenantId := card.tenantId } =
      some ({ req with username := card.username, tenantId := card.tenantId },
        cardToSubscriber db card, .card) := by
  obtain ⟨-, h⟩ := h
  simp only [findLogin] at h ⊢
  cases hsub : db.subscriber card.tenantId name false with
  | some sub =>
    rw [hsub] at h
    dsimp only at h ⊢
    by_cases hcard : isCard sub = true
    · rw [if_pos hcard] at h ⊢
      cases hfound : db.card card.tenantId name with
      | none => simp [hfound] at h
      | some c => simp_all
    · simp [hcard] at h
  | none =>
    rw [hsub] at h
    dsimp only at h ⊢
    cases hfound : db.card card.tenantId name with
    | some c => simp_all
    | none =>
      simp only [hfound, Option.map_none] at h ⊢
      split_ifs at h ⊢ with hlower
      · cases hlowered : db.card card.tenantId (lower (strip name)) with
        | none => simp [hlowered] at h
        | some c => simp_all
      · cases h

theorem name_of_findLogin {db : Db} {req req' : AuthRequest} {sub : Subscriber} {source : Source}
    (h : findLogin db req = some (req', sub, source)) : req'.username = req.username ∨
      lower (strip req.username) ≠ "" ∧ req'.username = lower (strip req.username) := by
  have hmap : ∀ {o : Option Card} {name : String}, (o.map fun c =>
      ({ req with username := name }, cardToSubscriber db c, Source.card)) =
        some (req', sub, source) → req'.username = name := by
    intro o name ho
    obtain ⟨c, -, hc⟩ := Option.map_eq_some_iff.mp ho
    cases hc
    rfl
  simp only [findLogin] at h
  cases hsub : db.subscriber req.tenantId req.username false with
  | some found =>
    rw [hsub] at h
    dsimp only at h
    left
    split_ifs at h
    · cases hfound : db.card req.tenantId req.username with
      | none =>
        simp only [hfound, Option.map_none, Option.getD_none, Option.some.injEq] at h
        cases h
        rfl
      | some c =>
        simp only [hfound, Option.map_some, Option.getD_some, Option.some.injEq] at h
        cases h
        rfl
    · cases h
      rfl
  | none =>
    rw [hsub] at h
    dsimp only at h
    cases hfound : db.card req.tenantId req.username with
    | some c =>
      left
      rw [hfound] at h
      cases h
      rfl
    | none =>
      right
      simp only [hfound, Option.map_none] at h
      split_ifs at h with hlower
      · exact ⟨hlower.1, hmap h⟩
      · cases h

theorem Accepted.name_cases {db : Db} {card : Card} {name : String} (h : Accepted db card name) :
    name = card.username ∨ lower (strip name) ≠ "" ∧ card.username = lower (strip name) :=
  (name_of_findLogin h.2).imp_left Eq.symm

theorem Accepted.card_name_ne {db : Db} {card : Card} {name : String} (h : Accepted db card name) :
    card.username ≠ "" := by
  rcases h.name_cases with hname | ⟨hne, hname⟩
  · exact hname ▸ h.1
  · exact hname ▸ hne

theorem Accepted.strip_card_name {db : Db} {card : Card} {name : String}
    (h : Accepted db card name) (hne : name ≠ card.username) :
    strip card.username = card.username := by
  rcases h.name_cases with hname | ⟨-, hname⟩
  · exact absurd hname hne
  · rw [hname, strip_lower, strip_strip]

theorem authorize_of_accepted {db : Db} {card : Card} {name : String} (h : Accepted db card name)
    (hcard : Accepted db card card.username) (env : Env) (req : AuthRequest) :
    authorize env db { req with username := name, tenantId := card.tenantId } =
      authorize env db { req with username := card.username, tenantId := card.tenantId } := by
  unfold authorize
  rw [if_neg h.1, if_neg hcard.1, findLogin_of_accepted h, findLogin_of_accepted hcard]

section
variable {name : String} {p : Payload}

theorem get_under {field : String} (h : field ≠ "username") :
    Payload.get (under name p) field = p.get field := by
  have hfield : (field == "username") = false := by simpa using h
  simp [Payload.get, under, List.lookup_cons, hfield]

theorem first_under {fields : List String} (h : "username" ∉ fields) :
    Payload.first (under name p) fields = p.first fields := by
  induction fields with
  | nil => rfl
  | cons field fields ih =>
    rw [List.mem_cons, not_or] at h
    rw [Payload.first, Payload.first, get_under (Ne.symm h.1), ih h.2]

theorem text_under {fields : List String} (h : "username" ∉ fields) :
    Payload.text (under name p) fields = p.text fields :=
  congrArg Value.text (first_under h)

theorem octets_under {octetNames gigawordNames : List String} (ho : "username" ∉ octetNames)
    (hg : "username" ∉ gigawordNames) :
    octets octetNames gigawordNames (under name p) = octets octetNames gigawordNames p := by
  simp only [octets, first_under ho, first_under hg]

theorem username_under (h : name ≠ "") :
    Payload.text (under name p) ["username", "User-Name"] = name := by
  simp [Payload.text, Payload.first, Payload.get, under, Value.truthy, h, Value.text]

theorem normalize_under {name' : String} (h : name ≠ "") (h' : name' ≠ "")
    (hsame : strip name = strip name') (tenantId : ℤ) :
    AccountingEvents.normalize tenantId (under name p) =
      AccountingEvents.normalize tenantId (under name' p) := by
  have hfirst : ∀ fields, "username" ∉ fields →
      Payload.first (under name p) fields = Payload.first (under name' p) fields :=
    fun fields hfields => (first_under hfields).trans (first_under hfields).symm
  have htext : ∀ fields, "username" ∉ fields →
      Payload.text (under name p) fields = Payload.text (under name' p) fields :=
    fun fields hfields => congrArg Value.text (hfirst fields hfields)
  simp only [AccountingEvents.normalize, octets, username_under h, username_under h', hsame,
    htext ["status_type", "Acct-Status-Type", "acct_status_type"] (by decide),
    htext ["acct_session_id", "Acct-Session-Id"] (by decide),
    htext ["nas_ip_address", "NAS-IP-Address"] (by decide),
    htext ["calling_station_id", "Calling-Station-Id"] (by decide),
    htext ["framed_ip_address", "Framed-IP-Address"] (by decide),
    htext ["terminate_cause", "Acct-Terminate-Cause"] (by decide),
    hfirst ["acct_unique_session_id", "Acct-Unique-Session-Id"] (by decide),
    hfirst ["input_octets", "Acct-Input-Octets"] (by decide),
    hfirst ["input_gigawords", "Acct-Input-Gigawords"] (by decide),
    hfirst ["output_octets", "Acct-Output-Octets"] (by decide),
    hfirst ["output_gigawords", "Acct-Output-Gigawords"] (by decide),
    hfirst ["session_time", "Acct-Session-Time"] (by decide)]

end

def Agree {α : Type} (reading : Db → α) (names : Set String) (db : Db) (card : Card) : Prop :=
  ∀ steps, Run.Along (Step.Spelled names card) (Step.apply card id) db steps →
    reading (Run.run (Step.apply card id) db steps) =
      reading (Run.run (Step.apply card fun _ => card.username) db steps)

def usedSeconds (card : Card) (db : Db) : ℤ := accountedSeconds db card.tenantId card.username

def usedOctets (card : Card) (db : Db) : ℕ × ℕ :=
  ((cardToSubscriber db card).usedBytesIn, (cardToSubscriber db card).usedBytesOut)

def usedDevices (card : Card) (db : Db) (window now : ℤ) (mac : String) (macAware : Bool) : ℕ :=
  (activeOtherDevices db.radacct window now card.tenantId card.username mac macAware).length

theorem agree_of_strip_eq {db : Db} {card : Card} {names : Set String}
    (hnames : ∀ name ∈ names, Accepted db card name)
    (hsame : ∀ name ∈ names, strip name = strip card.username) {α : Type} (reading : Db → α) :
    Agree reading names db card := by
  intro steps hok
  refine congrArg reading (Run.run_congr (fun db' step hstep => ?_) hok)
  cases step with
  | login env name req =>
    obtain ⟨-, hname, hcard⟩ := hstep
    exact congrArg Prod.snd (authorize_of_accepted hname hcard env req)
  | packet debounce now name p =>
    have hname := hnames name hstep
    simp only [Step.apply, id_eq, SessionLife.Op.apply, ingest,
      normalize_under hname.1 hname.card_name_ne (hsame name hstep)]
  | other f => rfl

def session (n : ℕ) : String := String.ofList (List.replicate n 'x')

theorem strip_session (n : ℕ) : strip (session n) = session n := by
  have hdrop : ∀ n, (List.replicate n 'x').dropWhile isSpace = List.replicate n 'x' := by
    intro n
    cases n with
    | zero => rfl
    | succ n => exact List.dropWhile_cons_of_neg (by decide)
  simp only [strip, session, String.toList_ofList, stripChars, hdrop, List.reverse_replicate]

theorem session_ne {n : ℕ} (h : 0 < n) : session n ≠ "" := by
  intro hempty
  have hlength := congrArg String.length hempty
  simp only [session, String.length_ofList, List.length_replicate, String.length_empty] at hlength
  omega

theorem exists_fresh_session (t : RadacctTable) :
    ∃ n, 0 < n ∧ ∀ r ∈ t.rows, r.acctSessionId ≠ session n := by
  refine ⟨(t.rows.map fun r => r.acctSessionId.length).sum + 1, Nat.succ_pos _, fun r hr heq => ?_⟩
  have hle := List.le_sum_of_mem (List.mem_map_of_mem (f := fun r => r.acctSessionId.length) hr)
  simp only [heq, session, String.length_ofList, List.length_replicate] at hle
  omega

def minuteReport (n : ℕ) : Payload :=
  [("status_type", .str "Interim-Update"), ("acct_session_id", .str (session n)),
    ("nas_ip_address", .str "10.0.0.1"), ("session_time", .int 60), ("input_octets", .int 1),
    ("output_octets", .int 1)]

theorem normalize_minuteReport {n : ℕ} (hn : 0 < n) {name : String} (hname : name ≠ "")
    (tenantId : ℤ) : ∃ e : Event,
      AccountingEvents.normalize tenantId (under name (minuteReport n)) = .ok e ∧
      e.tenantId = tenantId ∧ e.username = strip name ∧ e.acctSessionId = session n ∧
      e.statusType = .interimUpdate ∧ e.sessionTime = 60 ∧ e.inputOctets = 1 ∧
      e.outputOctets = 1 ∧ e.callingStationId = "" := by
  have hstatus : Payload.text (under name (minuteReport n))
      ["status_type", "Acct-Status-Type", "acct_status_type"] = "Interim-Update" :=
    text_under (by decide)
  have hsession : Payload.text (under name (minuteReport n))
      ["acct_session_id", "Acct-Session-Id"] = session n := by
    rw [text_under (by decide)]
    simp [Payload.text, Payload.first, Payload.get, minuteReport, List.lookup_cons, Value.truthy,
      session_ne hn, Value.text]
  have hnas : Payload.text (under name (minuteReport n))
      ["nas_ip_address", "NAS-IP-Address"] = "10.0.0.1" := text_under (by decide)
  have hkind : StatusType.ofText? (strip "Interim-Update") = some .interimUpdate := by decide
  have hid : ¬(StatusType.ofSession .interimUpdate = true ∧
      strip (Payload.text (under name (minuteReport n))
        ["acct_session_id", "Acct-Session-Id"]) = "") := by
    rw [hsession, strip_session]
    exact fun h => session_ne hn h.2
  have hip : ¬strip (Payload.text (under name (minuteReport n))
      ["nas_ip_address", "NAS-IP-Address"]) = "" := by
    rw [hnas]
    decide
  unfold AccountingEvents.normalize
  rw [hstatus, hkind]
  dsimp only
  rw [dif_neg hid, dif_neg hip]
  have hnumbers : int (Payload.first (under name (minuteReport n))
      ["session_time", "Acct-Session-Time"]) = 60 ∧
      octets ["input_octets", "Acct-Input-Octets"] ["input_gigawords", "Acct-Input-Gigawords"]
        (under name (minuteReport n)) = 1 ∧
      octets ["output_octets", "Acct-Output-Octets"] ["output_gigawords", "Acct-Output-Gigawords"]
        (under name (minuteReport n)) = 1 ∧
      Payload.text (under name (minuteReport n)) ["calling_station_id", "Calling-Station-Id"] =
        "" := by
    rw [first_under (by decide), octets_under (by decide) (by decide),
      octets_under (by decide) (by decide), text_under (by decide)]
    exact ⟨rfl, rfl, rfl, rfl⟩
  exact ⟨_, rfl, rfl, congrArg strip (username_under hname),
    (congrArg strip hsession).trans (strip_session n), rfl, hnumbers.1, hnumbers.2.1,
    hnumbers.2.2.1, hnumbers.2.2.2⟩

theorem deliver_minuteReport {t : RadacctTable} {n : ℕ} (hn : 0 < n)
    (hfresh : ∀ r ∈ t.rows, r.acctSessionId ≠ session n) {name : String} (hname : name ≠ "")
    (tenantId now : ℤ) (hnow : firstInstant ≤ afterSeconds now (-60)) :
    ∃ row : Radacct, (SessionLife.Op.apply 0 t
        (.deliver tenantId now (under name (minuteReport n)))).rows = t.rows ++ [row] ∧
      row.tenantId = tenantId ∧ row.username = strip name ∧ row.acctSessionTime = 60 ∧
      row.acctInputOctets = 1 ∧ row.callingStationId = "" ∧ row.acctStopTime = .null ∧
      row.acctStartTime = .instant (afterSeconds now (-60)) ∧ row.acctUpdateTime = .instant now := by
  obtain ⟨e, hnormal, htenant, husername, hsession, hstatus, htime, hin, hout, hmac⟩ :=
    normalize_minuteReport hn hname tenantId
  have hother : ∀ r ∈ t.rows, ofKey e.key r = false := by
    intro r hr
    simp only [ofKey, decide_eq_false_iff_not]
    intro hkey
    exact hfresh r hr ((congrArg SessionKey.acctSessionId hkey).trans hsession)
  have hopen : ∀ r ∈ t.rows, openOfKey e.key r = false := fun r hr => by
    simp [openOfKey, hother r hr]
  have hcount : t.count (openOfKey e.key) = 0 :=
    List.length_eq_zero_iff.mpr (List.filter_eq_nil_iff.mpr fun r hr => by simp [hopen r hr])
  have hsame : t.update (openOfKey e.key) (interimRow e now) (interimRow_id e now) = t :=
    Table.update_eq_self t _ _ _ hopen
  have hlast : lastSessionRow t e.key = none := Table.last?_eq_none.mpr hother
  refine ⟨missingStartRow e now false t.next, ?_, ?_⟩
  · simp only [SessionLife.Op.apply, ingest, hnormal, Except.map, ingestEvent, hstatus, interim,
      overwriteOpen, hcount, if_true, hsame, hlast, insertMissingStart, Table.rows_insert]
  · have hbegun : afterSeconds now (-max 0 e.sessionTime) = afterSeconds now (-60) := by
      rw [htime]
      rfl
    simp only [missingStartRow, hbegun, not_lt.mpr hnow, if_false]
    exact ⟨htenant, husername, htime, hin, hmac, rfl, rfl, rfl⟩

theorem readings_minuteReport {db : Db} {card : Card} {t : RadacctTable} {row : Radacct} {now : ℤ}
    (hrows : t.rows = db.radacct.rows ++ [row]) (htenant : row.tenantId = card.tenantId)
    (htime : row.acctSessionTime = 60) (hin : row.acctInputOctets = 1)
    (hstop : row.acctStopTime = .null)
    (hstart : row.acctStartTime = .instant (afterSeconds now (-60)))
    (hupdate : row.acctUpdateTime = .instant now)
    (hsince : ∀ s ∈ cardResetSince db card.tenantId card.username, s ≤ afterSeconds now (-60)) :
    let after := { db with radacct := t }
    let charged := if row.username = card.username then 1 else 0
    usedSeconds card after = usedSeconds card db + 60 * (charged : ℕ) ∧
      (usedOctets card after).1 = (usedOctets card db).1 + charged ∧
      usedDevices card after 15 now "" false = usedDevices card db 15 now "" false + charged := by
  have hselect : ∀ p, t.select p = db.radacct.select p ++ [row].filter p := fun p => by
    simp only [Table.select, hrows, List.filter_append]
  have huser : ofUser card.tenantId card.username row = decide (row.username = card.username) := by
    simp [ofUser, htenant]
  have hstarts : startsSince (cardResetSince db card.tenantId card.username) row = true := by
    cases hs : cardResetSince db card.tenantId card.username with
    | none => simp [startsSince, hstart]
    | some s => simpa [startsSince, hstart, Stamp.notBefore] using hsince s hs
  have hlive : liveSession 15 now card.tenantId card.username row =
      decide (row.username = card.username) := by
    have hfresh : stale (liveCutoff 15 now) row = false := by
      simp only [stale, lastSeen?, hupdate, Stamp.time?, liveCutoff, afterSeconds, second]
      simp
    simp [liveSession, huser, hstop, hfresh, Stamp.isOpen]
  by_cases hname : row.username = card.username
  · rw [decide_eq_true hname] at huser hlive
    simp only [hname, if_true]
    refine ⟨?_, ?_, ?_⟩
    · change ((t.select fun r => ofUser card.tenantId card.username r &&
        startsSince (cardResetSince db card.tenantId card.username) r).map _).sum = _
      rw [hselect]
      simp [huser, hstarts, htime, usedSeconds, accountedSeconds]
    · change ((t.select (ofUser card.tenantId card.username)).map _).sum = _
      rw [hselect]
      simp [huser, hin, usedOctets, cardToSubscriber]
    · simp [usedDevices, activeOtherDevices, hselect, hlive]
  · rw [decide_eq_false hname] at huser hlive
    simp only [hname, if_false]
    refine ⟨?_, ?_, ?_⟩
    · change ((t.select fun r => ofUser card.tenantId card.username r &&
        startsSince (cardResetSince db card.tenantId card.username) r).map _).sum = _
      rw [hselect]
      simp [huser, usedSeconds, accountedSeconds]
    · change ((t.select (ofUser card.tenantId card.username)).map _).sum = _
      rw [hselect]
      simp [huser, usedOctets, cardToSubscriber]
    · simp [usedDevices, activeOtherDevices, hselect, hlive]

theorem exists_uncharged {db : Db} {card : Card} {names : Set String} {name : String}
    (hname : name ∈ names) (haccepted : Accepted db card name)
    (hdiffers : strip name ≠ strip card.username) :
    ∃ steps now, Run.Along (Step.Spelled names card) (Step.apply card id) db steps ∧
      let own := Run.run (Step.apply card id) db steps
      let stored := Run.run (Step.apply card fun _ => card.username) db steps
      usedSeconds card own ≠ usedSeconds card stored ∧ usedOctets card own ≠ usedOctets card stored ∧
        usedDevices card own 15 now "" false ≠ usedDevices card stored 15 now "" false := by
  have hstripped := haccepted.strip_card_name fun h => hdiffers (congrArg strip h)
  obtain ⟨n, hn, hfresh⟩ := exists_fresh_session db.radacct
  set begun := max firstInstant ((cardResetSince db card.tenantId card.username).getD 0) with hbegun
  have hnow : afterSeconds (begun + 60 * second) (-60) = begun := by
    simp only [afterSeconds, second]
    omega
  have hsince : ∀ s ∈ cardResetSince db card.tenantId card.username,
      s ≤ afterSeconds (begun + 60 * second) (-60) := by
    intro s hs
    rw [hnow, hbegun, Option.mem_def.mp hs]
    exact le_max_right _ _
  have hfirst : firstInstant ≤ afterSeconds (begun + 60 * second) (-60) := by
    rw [hnow]
    exact le_max_left _ _
  refine ⟨[.packet 0 (begun + 60 * second) name (minuteReport n)], begun + 60 * second,
    ⟨hname, trivial⟩, ?_⟩
  obtain ⟨row, hrows, htenant, husername, htime, hin, -, hstop, hstart, hupdate⟩ :=
    deliver_minuteReport hn hfresh haccepted.1 card.tenantId (begun + 60 * second) hfirst
  obtain ⟨row', hrows', htenant', husername', htime', hin', -, hstop', hstart', hupdate'⟩ :=
    deliver_minuteReport hn hfresh haccepted.card_name_ne card.tenantId (begun + 60 * second) hfirst
  have hown := readings_minuteReport hrows htenant htime hin hstop hstart hupdate hsince
  have hstored := readings_minuteReport hrows' htenant' htime' hin' hstop' hstart' hupdate' hsince
  rw [husername, if_neg (hstripped ▸ hdiffers)] at hown
  rw [husername', if_pos hstripped] at hstored
  obtain ⟨hseconds, hoctets, hdevices⟩ := hown
  obtain ⟨hseconds', hoctets', hdevices'⟩ := hstored
  simp only [Run.run, List.foldl_cons, List.foldl_nil, Step.apply, id_eq]
  refine ⟨?_, fun h => ?_, ?_⟩
  · rw [hseconds, hseconds']
    omega
  · have hfst := congrArg Prod.fst h
    rw [hoctets, hoctets'] at hfst
    omega
  · rw [hdevices, hdevices']
    omega

/-- Every accepted spelling is charged to the card if and only if the spellings are the stored
one up to white space: for its seconds, for its octets and for its devices alike. -/
theorem spellings_charged_iff {db : Db} {card : Card} {names : Set String}
    (hnames : ∀ name ∈ names, Accepted db card name) :
    (Agree (usedSeconds card) names db card ↔ ∀ name ∈ names, strip name = strip card.username) ∧
      (Agree (usedOctets card) names db card ↔ ∀ name ∈ names, strip name = strip card.username) ∧
      (Agree (usedDevices card) names db card ↔
        ∀ name ∈ names, strip name = strip card.username) := by
  refine ⟨⟨fun h name hname => ?_, fun h => agree_of_strip_eq hnames h _⟩,
    ⟨fun h name hname => ?_, fun h => agree_of_strip_eq hnames h _⟩,
    ⟨fun h name hname => ?_, fun h => agree_of_strip_eq hnames h _⟩⟩
  all_goals
    by_contra hdiffers
    obtain ⟨steps, now, hok, hseconds, hoctets, hdevices⟩ :=
      exists_uncharged hname (hnames name hname) hdiffers
  · exact hseconds (h steps hok)
  · exact hoctets (h steps hok)
  · exact hdevices (congrFun (congrFun (congrFun (congrFun (h steps hok) 15) now) "") false)

def printedCard : Card := { id := 1, batchId := 1, username := "abc12", password := "pp" }

def printedDb : Db where
  cards := [printedCard]
  batches := [{ id := 1, timeValue := 1, timeUnit := "minutes", countBySeconds := true }]

/-- Typed so, it is let in, and neither the minute nor the octets nor the device is charged to
it. -/
theorem printed_name_uncharged :
    let report : Step := .packet 0 (60 * second) "ABC12" (minuteReport 1)
    let own := report.apply printedCard id printedDb
    let stored := report.apply printedCard (fun _ => "abc12") printedDb
    let readings (db : Db) := (usedSeconds printedCard db, usedOctets printedCard db,
      usedDevices printedCard db 15 (60 * second) "" false, checkCardTimeBudget db 1 "abc12" none)
    Accepted printedDb printedCard "ABC12" ∧ Accepted printedDb printedCard "abc12" ∧
      readings own = (0, (0, 0), 0, none) ∧
      readings stored = (60, (1, 1), 1, some "card_time_exhausted") := by
  decide

theorem spellings_charged_spaced :
    Agree (usedSeconds printedCard) {"abc12", " abc12 "} printedDb printedCard := by
  refine (spellings_charged_iff ?_).1.mpr ?_
  · rintro name (rfl | rfl) <;> decide
  · rintro name (rfl | rfl) <;> decide

end RadiusModule.CardSpellings
