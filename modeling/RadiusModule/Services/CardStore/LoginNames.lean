import RadiusModule.Library.Tasks
import RadiusModule.Services.CardStore.BatchRuns
import RadiusModule.Services.CardStore.Doors

/-!
# One login name, one principal

Names are told apart without the case of their letters. What a step of any
way of making cards adds is cards under the names it meant to insert, and
accounts of cards; the two ways that work under the write lock look at every
name first.
-/

namespace RadiusModule.CardStore
open Library Connection PyText Tasks

structure Store.OnePrincipal (s : Store) : Prop where
  cards : ∀ c ∈ s.cards.rows, ∀ d ∈ s.cards.rows, c.tenantId = d.tenantId →
    lower c.username = lower d.username → c = d
  subscribers : ∀ c ∈ s.cards.rows, ∀ a ∈ s.accounts.rows, a.tenantId = c.tenantId →
    a.userType ≠ .card → lower a.username ≠ lower c.username

def Store.ClearFor (s : Store) (tenantId : ℤ) (names : List String) : Prop :=
  ∀ n ∈ names,
    (∀ c ∈ s.cards.rows, c.tenantId = tenantId → lower c.username = lower n → c.username = n) ∧
    (∀ a ∈ s.accounts.rows, a.tenantId = tenantId → a.userType ≠ .card →
      lower a.username ≠ lower n) ∧
    ∀ m ∈ names, lower m = lower n → m = n

instance (s : Store) (tenantId : ℤ) (names : List String) :
    Decidable (s.ClearFor tenantId names) := by
  unfold Store.ClearFor
  infer_instance

def inserted : Action → Phase → Option (ℤ × List String)
  | .charge _ code _, .charging tenantId _ _ _ => some (tenantId, [code])
  | .upload _ tenantId _ rows, .idle => some (tenantId, rows.map Prod.fst)
  | .fill _, .filling tenantId _ rows _ => some (tenantId, (rows.take 100).map Prod.fst)
  | .insert _, .housed tenantId username _ _ => some (tenantId, [username])
  | _, _ => none

abbrev Shop := Tasks.World ℕ Store Phase

def Clear (w : Shop) (e : ℕ × Action) : Prop :=
  ∀ names ∈ inserted e.2 (w.task e.1), w.shared.ClearFor names.1 names.2

def Grown (s t : Store) (tenantId : ℤ) (names : List String) : Prop :=
  ∃ cards mirrors, t.cards.rows = s.cards.rows ++ cards ∧
    (∀ c ∈ cards, c.tenantId = tenantId ∧ c.username ∈ names) ∧
    t.accounts.rows = s.accounts.rows ++ mirrors ∧ ∀ a ∈ mirrors, a.userType = .card

section
variable {s t u : Store} {tenantId : ℤ} {names : List String}

theorem Grown.refl (s : Store) (tenantId : ℤ) (names : List String) : Grown s s tenantId names :=
  ⟨[], [], by simp, by simp, by simp, by simp⟩

theorem Grown.of_same (hcards : t.cards = s.cards) (haccounts : t.accounts = s.accounts) :
    Grown s t tenantId names :=
  ⟨[], [], by simp [hcards], by simp, by simp [haccounts], by simp⟩

theorem Grown.trans (h : Grown s t tenantId names) (h' : Grown t u tenantId names) :
    Grown s u tenantId names := by
  obtain ⟨cards, mirrors, hcards, hnames, haccounts, hmirrors⟩ := h
  obtain ⟨cards', mirrors', hcards', hnames', haccounts', hmirrors'⟩ := h'
  refine ⟨cards ++ cards', mirrors ++ mirrors', ?_, ?_, ?_, ?_⟩
  · rw [hcards', hcards, List.append_assoc]
  · intro c hc
    exact (List.mem_append.mp hc).elim (hnames c) (hnames' c)
  · rw [haccounts', haccounts, List.append_assoc]
  · intro a ha
    exact (List.mem_append.mp ha).elim (hmirrors a) (hmirrors' a)

theorem Grown.mono (h : Grown s t tenantId names) {names' : List String}
    (hsub : ∀ n ∈ names, n ∈ names') : Grown s t tenantId names' := by
  obtain ⟨cards, mirrors, hcards, hnames, hrest⟩ := h
  exact ⟨cards, mirrors, hcards, fun c hc => ⟨(hnames c hc).1, hsub _ (hnames c hc).2⟩, hrest⟩

theorem Grown.accounts (h : Grown s t tenantId names) : s.accounts.rows <+: t.accounts.rows := by
  obtain ⟨-, mirrors, -, -, haccounts, -⟩ := h
  exact ⟨mirrors, haccounts.symm⟩

theorem Store.OnePrincipal.grown (h : s.OnePrincipal) (hclear : s.ClearFor tenantId names)
    (hgrown : Grown s t tenantId names) : t.OnePrincipal := by
  obtain ⟨cards, mirrors, hcards, hnames, haccounts, hmirrors⟩ := hgrown
  have hsame : ∀ c ∈ t.cards.rows, ∀ d ∈ cards, c.tenantId = d.tenantId →
      lower c.username = lower d.username → c = d := by
    intro c hc d hd htenant hlower
    obtain ⟨htenantd, hnamed⟩ := hnames d hd
    have hname : c.username = d.username := by
      have hrow := hc
      rw [hcards, List.mem_append] at hrow
      rcases hrow with hold | hnew
      · exact (hclear _ hnamed).1 c hold (htenant.trans htenantd) hlower
      · exact (hclear _ hnamed).2.2 _ (hnames c hnew).2 hlower
    refine t.cards.eq_of_col_eq hc (hcards ▸ List.mem_append_right _ hd) ?_
    rw [htenant, hname]
  constructor
  · intro c hc d hd htenant hlower
    have hcases := hd
    rw [hcards, List.mem_append] at hcases
    rcases hcases with hold | hnew
    · have hcases' := hc
      rw [hcards, List.mem_append] at hcases'
      rcases hcases' with hold' | hnew'
      · exact h.cards c hold' d hold htenant hlower
      · exact (hsame d hd c hnew' htenant.symm hlower.symm).symm
    · exact hsame c hc d hnew htenant hlower
  · intro c hc a ha htenant htype
    rw [haccounts, List.mem_append] at ha
    rw [hcards, List.mem_append] at hc
    rcases ha with ha | ha
    · rcases hc with hc | hc
      · exact h.subscribers c hc a ha htenant htype
      · obtain ⟨htenantc, hnamec⟩ := hnames c hc
        exact (hclear _ hnamec).2.1 a ha (htenant.trans htenantc) htype
    · exact absurd (hmirrors a ha) htype

theorem clearFor_of_not_taken
    (hfree : ∀ n ∈ names, lower n ∉ s.takenLoginNames tenantId)
    (hapart : ∀ m ∈ names, ∀ n ∈ names, lower m = lower n → m = n) :
    s.ClearFor tenantId names := by
  intro n hn
  have hnot := hfree n hn
  simp only [Store.takenLoginNames, List.mem_append, not_or] at hnot
  refine ⟨fun c hc htenant hlower => ?_, fun a ha htenant _ hlower => ?_, fun m hm =>
    hapart m hm n hn⟩
  · refine absurd (List.mem_map.mpr ⟨c, Table.mem_select.mpr ⟨hc, ?_⟩, hlower⟩) hnot.1.1
    simpa using htenant
  · refine absurd (List.mem_map.mpr ⟨a, Table.mem_select.mpr ⟨ha, ?_⟩, hlower⟩) hnot.1.2
    simpa using htenant

end

theorem drawNames_spec (name : ℕ → String) (count budget : ℕ) (taken : Finset String)
    (out : List String) :
    ∃ drawn : List String, drawNames name count budget taken out =
        (out ++ drawn, taken ∪ drawn.toFinset) ∧ drawn.Nodup ∧
      (∀ x ∈ drawn, x ∉ taken ∧ ∃ i, x = name i) ∧
      (out.length ≤ count → (out ++ drawn).length ≤ count) := by
  induction budget generalizing taken out with
  | zero => exact ⟨[], by simp [drawNames], by simp, by simp, by simp⟩
  | succ budget ih =>
    simp only [drawNames]
    split_ifs with henough htaken
    · exact ⟨[], by simp, by simp, by simp, by simp⟩
    · exact ih taken out
    · obtain ⟨drawn, heq, hnodup, hnew, hlength⟩ :=
        ih (insert (name budget) taken) (out ++ [name budget])
      refine ⟨name budget :: drawn, ?_, ?_, ?_, fun _ => ?_⟩
      · rw [heq, List.append_assoc, List.singleton_append, List.toFinset_cons,
          Finset.insert_union, Finset.union_insert]
      · refine List.nodup_cons.mpr ⟨fun hin => ?_, hnodup⟩
        exact (hnew _ hin).1 (Finset.mem_insert_self _ _)
      · intro x hx
        rcases List.mem_cons.mp hx with rfl | hx
        · exact ⟨htaken, budget, rfl⟩
        · exact ⟨fun hin => (hnew x hx).1 (Finset.mem_insert_of_mem hin), (hnew x hx).2⟩
      · have hmore := hlength (by simp; omega)
        simpa using hmore

theorem isDigit_places {n i : ℕ} : ∀ c ∈ places n i, c.isDigit = true := by
  have hdigits : ∀ d < 10, (Nat.digitChar d).isDigit = true := by decide
  induction n generalizing i with
  | zero => exact fun c hc => absurd hc List.not_mem_nil
  | succ n ih =>
    intro c hc
    rcases List.mem_append.mp hc with hc | hc
    · exact ih c hc
    · rw [List.mem_singleton.mp hc]
      exact hdigits _ (Nat.mod_lt _ (by decide))

theorem mem_pickUniqueUsernames {d : Draws} {count usernameLength : ℤ} {prefixText suf x : String}
    {taken : Finset String} {names : List String}
    (h : (pickUniqueUsernames d count lower prefixText suf usernameLength taken).1 = .ok names)
    (hx : x ∈ names) : lower x = x ∧ x ∉ taken := by
  have hpattern : ∀ text : String, (∀ c ∈ text.toList, c.isDigit = true) →
      lower (lower prefixText ++ text ++ lower suf) = lower prefixText ++ text ++ lower suf := by
    intro text htext
    rw [lower_append, lower_append, lower_lower, lower_lower, lower_of_digits htext]
  simp only [pickUniqueUsernames, sampleNames] at h
  split_ifs at h
  · cases h
    exact absurd hx List.not_mem_nil
  · cases h
    obtain ⟨hmem, hfree⟩ := List.mem_filter.mp (d.sample_subset _ _ hx)
    obtain ⟨i, -, rfl⟩ := List.mem_map.mp hmem
    refine ⟨hpattern _ ?_, by simpa using hfree⟩
    rw [String.toList_ofList]
    exact isDigit_places
  · obtain ⟨drawn, heq, -, hnew, -⟩ := drawNames_spec
      (fun i => lower prefixText ++ d.digits i (randLen (lower prefixText) (lower suf)
        usernameLength) ++ lower suf) count.toNat (count * 60 + 1000).toNat taken []
    rw [heq] at h
    cases h
    obtain ⟨hfree, i, rfl⟩ := hnew x (by simpa using hx)
    exact ⟨hpattern _ (d.digits_only i _), hfree⟩

theorem clearFor_newCardCredentials {d : Draws} {s : Store} {tenantId : ℤ}
    {count usernameLength : ℕ} {prefixText suf : String} {rows : List (String × String)}
    (h : newCardCredentials d s tenantId count prefixText suf usernameLength = .ok rows) :
    s.ClearFor tenantId (rows.map Prod.fst) := by
  unfold newCardCredentials at h
  cases hpick : (pickUniqueUsernames d count lower prefixText suf usernameLength
    (s.takenLoginNames tenantId).toFinset).1 with
  | error e =>
    rw [hpick] at h
    cases h
  | ok names =>
    rw [hpick] at h
    cases h
    have hnames : ∀ n ∈ (names.zipIdx.map fun name => (name.1, d.password name.2)).map Prod.fst,
        lower n = n ∧ n ∉ s.takenLoginNames tenantId := by
      intro n hn
      rw [List.map_map] at hn
      obtain ⟨⟨name, i⟩, hmem, rfl⟩ := List.mem_map.mp hn
      obtain ⟨hlower, hfree⟩ := mem_pickUniqueUsernames hpick (List.fst_mem_of_mem_zipIdx hmem)
      exact ⟨hlower, fun hin => hfree (List.mem_toFinset.mpr hin)⟩
    refine clearFor_of_not_taken (fun n hn => ?_) fun m hm n hn hlower => ?_
    · rw [(hnames n hn).1]
      exact (hnames n hn).2
    · rw [← (hnames m hm).1, hlower, (hnames n hn).1]

theorem freshRows_spec {taken : List String} {rows : List (String × String)} :
    (∀ row ∈ freshRows taken rows, lower row.1 ∉ taken) ∧
      (freshRows taken rows).Pairwise fun a b => lower a.1 ≠ lower b.1 := by
  induction rows generalizing taken with
  | nil => exact ⟨fun row hrow => absurd hrow List.not_mem_nil, List.Pairwise.nil⟩
  | cons row rows ih =>
    unfold freshRows
    split_ifs with htaken
    · exact ih
    · obtain ⟨hfree, hapart⟩ := @ih (lower row.1 :: taken)
      constructor
      · intro r hr
        rcases List.mem_cons.mp hr with rfl | hr
        · exact htaken
        · exact fun hin => hfree r hr (List.mem_cons_of_mem _ hin)
      · refine List.pairwise_cons.mpr ⟨fun r hr hsame => hfree r hr ?_, hapart⟩
        rw [← hsame]
        exact List.mem_cons_self

def Request.Careful (r : Request) : Prop :=
  ∀ s batchId rows, r.rowsFactory s batchId = .ok rows →
    s.ClearFor r.tenantId (rows.1.map Prod.fst)

theorem careful_generateBatch (args : GenerateArgs) : (generateBatch args).Careful := by
  intro s batchId rows hrows
  simp only [generateBatch, generateRows] at hrows
  generalize (if args.includeBatchNumber = true then args.usernamePrefix ++ toString batchId
    else args.usernamePrefix) = prefixText at hrows
  split_ifs at hrows
  cases hnew : newCardCredentials args.draws s args.tenantId args.count prefixText
      args.usernameSuffix args.usernameLength with
  | error e =>
    rw [hnew] at hrows
    cases hrows
  | ok credentials =>
    rw [hnew] at hrows
    cases hrows
    exact clearFor_newCardCredentials hnew

theorem careful_importBatch (tenantId : ℤ) (validRows : List (String × String))
    (sqliteAccounts : Bool) : (importBatch tenantId validRows sqliteAccounts).Careful := by
  intro s batchId rows hrows
  simp only [importBatch, importRows] at hrows
  split_ifs at hrows
  all_goals
    cases hrows
    obtain ⟨hfree, hapart⟩ := @freshRows_spec (s.takenLoginNames tenantId) validRows
    refine clearFor_of_not_taken (fun n hn => ?_) fun m hm n hn hlower => ?_
    · obtain ⟨row, hrow, rfl⟩ := List.mem_map.mp hn
      exact hfree row hrow
    · obtain ⟨a, ha, rfl⟩ := List.mem_map.mp hm
      obtain ⟨b, hb, rfl⟩ := List.mem_map.mp hn
      exact congrArg Prod.fst
        (List.inj_on_of_nodup_map (List.pairwise_map.mpr hapart) ha hb hlower)

section
variable {faults : Faults} {s t : Store} {tenantId : ℤ} {batchId : ℕ} {names : List String}
  {reply : Reply}

theorem Grown.insertCard {username password : String}
    (h : s.insertCard tenantId batchId username password = .ok t) :
    Grown s t tenantId [username] := by
  obtain ⟨hcards, -, haccounts, -⟩ := insertCard_ok h
  refine ⟨[⟨s.cards.next, tenantId, batchId, username, password⟩], [], ?_, ?_, ?_, ?_⟩
  · rw [hcards]
    rfl
  · simp
  · rw [haccounts, List.append_nil]
  · simp

theorem Grown.insertBatch {code : String} {count : ℕ} {metadata : Metadata}
    (h : s.insertBatch tenantId code count metadata = .ok t) : Grown s t tenantId names := by
  obtain ⟨-, hcards, haccounts, -⟩ := insertBatch_ok h
  exact .of_same hcards haccounts

theorem Grown.perform {p : Tx}
    (h : ∀ reply t, eval faults.sqlite p s = (.ok reply, t) → Grown s t tenantId names) :
    Grown s (perform faults.sqlite (.transaction p .ret) s).2 tenantId names := by
  rw [perform_transaction]
  rcases block_cases faults.sqlite p s with ⟨e, hraised⟩ | ⟨reply, t, heval, hdone⟩
  · rw [hraised]
    exact .refl s tenantId names
  · rw [hdone]
    exact h reply t heval

theorem grown_creation {env : Env} {r : Request} (hcareful : r.Careful) :
    ∃ names, Grown s (perform env.faults.sqlite (createBatchWithCards env r) s).2 r.tenantId
      names ∧ s.ClearFor r.tenantId names := by
  rcases perform_cases env r s with ⟨reply, hout, -⟩ |
    ⟨t, batch, cards, mirrors, hout, -, hcreated⟩
  · rw [hout]
    exact ⟨[], .refl s _ _, fun n hn => absurd hn List.not_mem_nil⟩
  · rw [hout]
    obtain ⟨u, rows, hfactory, hpairs, hcards, haccounts, -⟩ := hcreated.rows
    have hclear := hcareful u batch.id rows hfactory
    refine ⟨rows.1.map Prod.fst, ⟨cards, mirrors, hcreated.cardRows, fun c hc =>
      ⟨(hcreated.ofBatch c hc).1, ?_⟩, hcreated.accountRows, fun a ha =>
      (hcreated.ofCards a ha).2.1⟩, ?_⟩
    · rw [← hpairs, List.map_map]
      exact List.mem_map.mpr ⟨c, hc, rfl⟩
    · simpa only [Store.ClearFor, hcards, haccounts] using hclear

theorem grown_createBatch {env : Env} {code : Option String} {count : ℕ} :
    Grown s (perform env.faults.sqlite (createBatch env tenantId code count) s).2 tenantId
      names := by
  refine .perform fun reply t heval => ?_
  obtain ⟨u, hselect, hrest⟩ := eval_statement heval
  cases Faults.write_ok hselect
  obtain ⟨v, hinsert, hret⟩ := eval_statement hrest
  cases hret
  exact .insertBatch (Faults.write_ok hinsert)

theorem grown_insertCards {rows : List (String × String)}
    (h : replay faults.sqlite (rows.map fun row => .insertCard tenantId batchId row.1 row.2) s =
      .ok t) : Grown s t tenantId (rows.map Prod.fst) := by
  obtain ⟨cards, hcards, hpairs, hplaced, -, haccounts, -⟩ := replay_insertCards h
  refine ⟨cards, [], hcards, fun c hc => ⟨(hplaced c hc).1, ?_⟩, ?_, ?_⟩
  · rw [← hpairs, List.map_map]
    exact List.mem_map.mpr ⟨c, hc, rfl⟩
  · rw [haccounts, List.append_nil]
  · simp

theorem grown_insertChunk {rows : List (String × String)} :
    Grown s (perform faults.sqlite (insertChunk tenantId batchId rows) s).2 tenantId
      (rows.map Prod.fst) := by
  refine .perform fun reply t heval => ?_
  obtain ⟨u, hinsert, hret⟩ := eval_each heval
  cases hret
  exact grown_insertCards hinsert

theorem grown_insertMinted {username password : String} :
    Grown s (perform faults.sqlite (insertMinted tenantId batchId username password) s).2 tenantId
      [username] := by
  refine .perform fun reply t heval => ?_
  obtain ⟨u, hwrites, hret⟩ := eval_each heval
  cases hret
  have hsplit : replay faults.sqlite ([.insertCard tenantId batchId username password] ++
    [.countCard tenantId batchId]) s = .ok t := hwrites
  obtain ⟨v, hinsert, hcount⟩ := replay_append_ok hsplit
  cases Faults.write_ok (replay_singleton hcount)
  exact (Grown.insertCard (Faults.write_ok (replay_singleton hinsert))).trans
    (.of_same rfl rfl)

theorem grown_countGenerated {n : ℕ} :
    Grown s (perform faults.sqlite (countGenerated tenantId batchId n) s).2 tenantId names := by
  refine .perform fun reply t heval => ?_
  obtain ⟨u, hcount, hret⟩ := eval_each heval
  cases hret
  cases Faults.write_ok (replay_singleton hcount)
  exact .of_same rfl rfl

theorem grown_insertSkipping {rows : List (String × String)} {added : ℕ}
    (h : eval faults.sqlite (insertSkipping tenantId batchId rows added) s = (.ok reply, t)) :
    Grown s t tenantId (rows.map Prod.fst) := by
  induction rows generalizing s added with
  | nil =>
    obtain ⟨u, hcount, hret⟩ := eval_each h
    cases hret
    cases Faults.write_ok (replay_singleton hcount)
    exact .of_same rfl rfl
  | cons row rows ih =>
    have hrest : ∀ n ∈ rows.map Prod.fst, n ∈ (row :: rows).map Prod.fst := fun n hn =>
      List.mem_cons_of_mem _ hn
    simp only [insertSkipping, eval] at h
    cases hwrite : faults.sqlite.write (.insertCard tenantId batchId row.1 row.2) s with
    | error e =>
      rw [hwrite] at h
      exact (ih h).mono hrest
    | ok u =>
      rw [hwrite] at h
      have hfirst : Grown s u tenantId [row.1] := .insertCard (Faults.write_ok hwrite)
      refine (hfirst.mono fun n hn => ?_).trans ((ih h).mono hrest)
      rw [List.mem_singleton.mp hn]
      exact List.mem_cons_self

theorem grown_uploadStock {code : String} {rows : List (String × String)} :
    Grown s (perform faults.sqlite (uploadStock tenantId code rows) s).2 tenantId
      (rows.map Prod.fst) := by
  refine .perform fun reply t heval => ?_
  obtain ⟨u, hselect, hrest⟩ := eval_statement heval
  cases Faults.write_ok hselect
  obtain ⟨v, hinsert, hrows⟩ := eval_statement hrest
  exact (Grown.insertBatch (Faults.write_ok hinsert)).trans (grown_insertSkipping hrows)

theorem grown_act (a : Action) (p : Phase)
    (hclear : ∀ names ∈ inserted a p, s.ClearFor names.1 names.2) :
    ∃ tenantId names, Grown s (act a s p).1 tenantId names ∧ s.ClearFor tenantId names := by
  have hno : ∀ (t : Store) tenantId, Grown s t tenantId [] →
      ∃ tenantId names, Grown s t tenantId names ∧ s.ClearFor tenantId names :=
    fun t tenantId h => ⟨tenantId, [], h, fun n hn => absurd hn List.not_mem_nil⟩
  have hsame := hno s 0 (.refl s 0 [])
  cases p with
  | idle =>
    cases a with
    | generate env args =>
      obtain ⟨names, h⟩ := @grown_creation s env _ (careful_generateBatch args)
      exact ⟨_, names, h⟩
    | importFile env tenantId validRows sqliteAccounts =>
      obtain ⟨names, h⟩ :=
        @grown_creation s env _ (careful_importBatch tenantId validRows sqliteAccounts)
      exact ⟨_, names, h⟩
    | recharge env tenantId count =>
      simp only [act]
      split <;> exact hno _ _ grown_createBatch
    | upload faults tenantId code rows =>
      exact ⟨tenantId, _, grown_uploadStock, hclear _ rfl⟩
    | stock env tenantId code count =>
      simp only [act]
      split <;> exact hno _ _ grown_createBatch
    | mint tenantId candidates password =>
      simp only [act]
      split <;> exact hsame
    | _ => exact hsame
  | charging tenantId batchId left tries =>
    cases a with
    | charge faults code pin =>
      cases left with
      | zero => exact hsame
      | succ left =>
        simp only [act]
        split
        · rename_i t hwrite
          exact ⟨tenantId, [code], .insertCard (Faults.write_ok hwrite), hclear _ rfl⟩
        · exact hsame
    | _ => exact hsame
  | stocked tenantId batchId count =>
    cases a with
    | pick draws =>
      simp only [act]
      split <;> exact hsame
    | _ => exact hsame
  | filling tenantId batchId rows inserted =>
    cases a with
    | fill faults =>
      cases rows with
      | nil => exact hno _ _ grown_countGenerated
      | cons row rows =>
        simp only [act]
        split
        all_goals exact ⟨tenantId, _, grown_insertChunk, hclear _ rfl⟩
    | abandon faults =>
      exact hno _ _ grown_countGenerated
    | _ => exact hsame
  | minting tenantId username password =>
    cases a with
    | house env code =>
      simp only [act]
      split
      · exact hsame
      · split <;> exact hno _ _ grown_createBatch
    | _ => exact hsame
  | housed tenantId username password batchId =>
    cases a with
    | insert faults => exact ⟨tenantId, _, grown_insertMinted, hclear _ rfl⟩
    | _ => exact hsame

end

def turn (w : Shop) (e : ℕ × Action) : Shop := w.step act e

def quiet (s : Store) : Shop := ⟨s, fun _ => .idle⟩

/-- While every name that is inserted without the check under the lock is clear at that moment, one
name is one principal, and no account that was there is written to. -/
theorem one_principal_of_clear {start : Store} (hstart : start.OnePrincipal)
    (es : List (ℕ × Action)) (hclear : Run.Along Clear turn (quiet start) es) :
    (Run.run turn (quiet start) es).shared.OnePrincipal ∧
      start.accounts.rows <+: (Run.run turn (quiet start) es).shared.accounts.rows := by
  refine Run.run_invariant (I := fun w : Shop => w.shared.OnePrincipal ∧
    start.accounts.rows <+: w.shared.accounts.rows) ?_ ⟨hstart, List.prefix_rfl⟩ hclear
  rintro w e ⟨hone, hkept⟩ hnames
  obtain ⟨tenantId, names, hgrown, hfree⟩ := grown_act e.2 (w.task e.1) hnames
  exact ⟨hone.grown hfree hgrown, hkept.trans hgrown.accounts⟩

def oneSubscriber : Store :=
  { Store.empty with
    accounts := ⟨⟨[⟨1, 1, "ali", "", .subscriber, none⟩], 2, List.pairwise_singleton _ _,
      by simp⟩, List.pairwise_singleton _ _⟩
    placed := Store.empty.placed }

theorem onePrincipal_oneSubscriber : oneSubscriber.OnePrincipal :=
  ⟨fun _ hc => absurd hc List.not_mem_nil, fun _ hc => absurd hc List.not_mem_nil⟩

def upload (username : String) : ℕ × Action :=
  (0, .upload {} 1 "INV-1-00000000" [(username, "1")])

theorem one_principal_of_clear_upload :
    (Run.run turn (quiet oneSubscriber) [upload "bob"]).shared.OnePrincipal ∧
      oneSubscriber.accounts.rows <+:
        (Run.run turn (quiet oneSubscriber) [upload "bob"]).shared.accounts.rows :=
  one_principal_of_clear onePrincipal_oneSubscriber [upload "bob"]
    ⟨fun names hnames => by cases hnames; decide, trivial⟩

/-- A file of cards for the stock of an offer takes the name of a subscriber. -/
theorem uploaded_card_takes_name :
    oneSubscriber.OnePrincipal ∧
      ¬(Run.run turn (quiet oneSubscriber) [upload "ALI"]).shared.OnePrincipal := by
  refine ⟨onePrincipal_oneSubscriber, fun h => ?_⟩
  exact h.subscribers ⟨1, 1, 1, "ALI", "1"⟩ (by decide +kernel)
    ⟨1, 1, "ali", "", .subscriber, none⟩ (by decide +kernel) rfl (by decide) (by decide)

end RadiusModule.CardStore
