import RadiusModule.Services.DomainAnalyzer.HostText

/-!
# What reaches the firewall

An accepted entry is judged by the first address of its network, and a text of
four numbers that is no address is taken for a host name. What an analysis
promises about its entries holds where neither matters, and where no address is
listed both alone and as a network.
-/

namespace RadiusModule.DomainAnalyzer
open Library PyText WgPeers

/-- Networks that together hold the private addresses; two in `192.0.0.0/24` are public. -/
def privateBlocks : List Ipv4Network :=
  [block 0 0 0 0 8, block 10 0 0 0 8, block 100 64 0 0 10, block 127 0 0 0 8,
    block 169 254 0 0 16, block 172 16 0 0 12, block 192 0 0 0 29, block 192 0 0 8 32,
    block 192 0 0 11 32, block 192 0 0 12 30, block 192 0 0 16 28, block 192 0 0 32 27,
    block 192 0 0 64 26, block 192 0 0 128 25, block 192 0 2 0 24, block 192 168 0 0 16,
    block 198 18 0 0 15, block 198 51 100 0 24, block 203 0 113 0 24, block 224 0 0 0 3]

theorem contains_block {w x y z : ℕ} {p : Fin 33} {a : Ipv4} : (block w x y z p).Contains a ↔
    (a : ℕ) / 2 ^ (32 - (p : ℕ)) =
      (w * 2 ^ 24 + x * 2 ^ 16 + y * 2 ^ 8 + z) % 2 ^ 32 / 2 ^ (32 - (p : ℕ)) :=
  Ipv4Network.contains_around

theorem isPrivateIp_eq_true {a : Ipv4} : isPrivateIp a = true ↔
    isPrivate a = true ∨ (block 127 0 0 0 8).Contains a ∨ (block 169 254 0 0 16).Contains a ∨
      (block 224 0 0 0 4).Contains a ∨ a = 0 ∨ (block 240 0 0 0 4).Contains a ∨
      (block 100 64 0 0 10).Contains a := by
  cases hprivate : isPrivate a <;>
    simp [isPrivateIp, isGlobal, isLoopback, isLinkLocal, isMulticast, isUnspecified, isReserved,
      hprivate, or_assoc]

theorem exists_block_of_special {a : Ipv4} (h : (block 192 0 0 0 24).Contains a)
    (hexcept : ∀ net ∈ privateNetworksExceptions, ¬net.Contains a) :
    ∃ b ∈ privateBlocks, b.Contains a := by
  have hparts : (block 192 0 0 0 29).Contains a ∨ (block 192 0 0 8 32).Contains a ∨
      (block 192 0 0 11 32).Contains a ∨ (block 192 0 0 12 30).Contains a ∨
      (block 192 0 0 16 28).Contains a ∨ (block 192 0 0 32 27).Contains a ∨
      (block 192 0 0 64 26).Contains a ∨ (block 192 0 0 128 25).Contains a := by
    simp only [privateNetworksExceptions, List.forall_mem_cons, contains_block] at h hexcept ⊢
    norm_num at h hexcept ⊢
    omega
  rcases hparts with h | h | h | h | h | h | h | h <;> exact ⟨_, by decide, h⟩

theorem isPrivateIp_iff {a : Ipv4} :
    isPrivateIp a = true ↔ ∃ b ∈ privateBlocks, b.Contains a := by
  rw [isPrivateIp_eq_true]
  constructor
  · have hwithin : ∀ net ∈ [block 127 0 0 0 8, block 169 254 0 0 16, block 224 0 0 0 4,
        block 240 0 0 0 4, block 100 64 0 0 10] ++ privateNetworks,
        net = block 192 0 0 0 24 ∨ ∃ b ∈ privateBlocks, net.Within b := by decide
    have hblock : ∀ net ∈ [block 127 0 0 0 8, block 169 254 0 0 16, block 224 0 0 0 4,
        block 240 0 0 0 4, block 100 64 0 0 10] ++ privateNetworks,
        net ≠ block 192 0 0 0 24 → net.Contains a → ∃ b ∈ privateBlocks, b.Contains a := by
      intro net hnet hne hmem
      obtain ⟨b, hb, hinside⟩ := (hwithin net hnet).resolve_left hne
      exact ⟨b, hb, hinside.contains hmem⟩
    rintro (h | h | h | h | h | h | h)
    · simp only [isPrivate, Bool.and_eq_true, List.any_eq_true, List.all_eq_true,
        decide_eq_true_eq] at h
      obtain ⟨⟨net, hnet, hmem⟩, hexcept⟩ := h
      by_cases hspecial : net = block 192 0 0 0 24
      · exact exists_block_of_special (hspecial ▸ hmem) hexcept
      · exact hblock net (List.mem_append_right _ hnet) hspecial hmem
    · exact hblock _ (by decide) (by decide) h
    · exact hblock _ (by decide) (by decide) h
    · exact hblock _ (by decide) (by decide) h
    · exact ⟨block 0 0 0 0 8, by decide, by rw [h]; decide⟩
    · exact hblock _ (by decide) (by decide) h
    · exact hblock _ (by decide) (by decide) h
  · rintro ⟨b, hb, hmem⟩
    have hinside : ∀ b ∈ privateBlocks, b = block 224 0 0 0 3 ∨ b = block 100 64 0 0 10 ∨
        (∃ net ∈ privateNetworks, b.Within net) ∧
          ∀ net ∈ privateNetworksExceptions, ¬b.Contains net.networkAddress := by decide
    rcases hinside b hb with rfl | rfl | ⟨⟨net, hnet, hnested⟩, hexcept⟩
    · have hhalves : (block 224 0 0 0 4).Contains a ∨ (block 240 0 0 0 4).Contains a := by
        simp only [contains_block] at hmem ⊢
        norm_num at hmem ⊢
        omega
      rcases hhalves with h | h
      · exact .inr (.inr (.inr (.inl h)))
      · exact .inr (.inr (.inr (.inr (.inr (.inl h)))))
    · exact .inr (.inr (.inr (.inr (.inr (.inr hmem)))))
    · left
      simp only [isPrivate, Bool.and_eq_true, List.any_eq_true, List.all_eq_true,
        decide_eq_true_eq]
      have hsingle : ∀ e ∈ privateNetworksExceptions,
          e = .around e.networkAddress (Fin.last 32) := by decide
      refine ⟨⟨net, hnet, hnested.contains hmem⟩, fun e he hin => ?_⟩
      rw [hsingle e he, Ipv4Network.contains_around_last] at hin
      exact hexcept e he (hin ▸ hmem)

theorem holds_private_iff {net : Ipv4Network} (hfirst : isPrivateIp net.networkAddress = false) :
    (∃ a, net.Contains a ∧ isPrivateIp a = true) ↔
      ∃ b ∈ privateBlocks, net.Contains b.networkAddress := by
  constructor
  · rintro ⟨a, hnet, hprivate⟩
    obtain ⟨b, hb, hblock⟩ := isPrivateIp_iff.mp hprivate
    rcases Ipv4Network.nested hnet hblock with hinside | hinside
    · rw [isPrivateIp_iff.mpr ⟨b, hb, hinside.2⟩] at hfirst
      cases hfirst
    · exact ⟨b, hb, hinside.2⟩
  · rintro ⟨b, hb, hnet⟩
    exact ⟨b.networkAddress, hnet, isPrivateIp_iff.mpr ⟨b, hb, b.contains_networkAddress⟩⟩

def IsPort (cs : List Char) : Prop :=
  cs = [] ∨ ∃ ds, ds ≠ [] ∧ (∀ d ∈ ds, isDecimal d = true) ∧ cs = ':' :: ds

def IsPath (cs : List Char) : Prop := cs = [] ∨ ∃ rest, '\n' ∉ rest ∧ cs = '/' :: rest

inductive Spells (body : List Char) : List Char → Prop
  | alone : Spells body body
  | url {scheme port path : List Char} : scheme.map Char.toLower ∈ schemes →
      (∀ c ∈ body, isHostChar c = true) → IsPort port → IsPath path →
      Spells body (scheme ++ ("://".toList ++ (body ++ (port ++ path))))

def SpellsLine (body raw : List Char) : Prop :=
  ∃ core before after comment, Spells body core ∧ stripChars core = core ∧ '#' ∉ core ∧
    (∀ c ∈ before, isSpace c = true) ∧ (∀ c ∈ after, isSpace c = true) ∧
    (comment = [] ∨ comment.head? = some '#') ∧ raw = before ++ (core ++ (after ++ comment))

theorem cleanLine_of_parts {core before after comment : List Char} (hcore : stripChars core = core)
    (hhash : '#' ∉ core) (hbefore : ∀ c ∈ before, isSpace c = true)
    (hafter : ∀ c ∈ after, isSpace c = true) (hcomment : comment = [] ∨ comment.head? = some '#') :
    cleanLine (before ++ (core ++ (after ++ comment))) = core := by
  have hspace : ∀ {cs : List Char}, (∀ c ∈ cs, isSpace c = true) →
      ∀ c ∈ cs, decide (c ≠ '#') = true := by
    intro cs hcs c hc
    refine decide_eq_true fun hmark => ?_
    have := hcs c hc
    rw [hmark] at this
    exact absurd this (by decide)
  have hend : comment.takeWhile (fun c => decide (c ≠ '#')) = [] := by
    rcases hcomment with rfl | hmark
    · rfl
    · obtain ⟨rest, rfl⟩ := List.head?_eq_some_iff.mp hmark
      rfl
  have hmark : ∀ c ∈ core, decide (c ≠ '#') = true := fun c hc =>
    decide_eq_true fun hc' : c = '#' => hhash (hc' ▸ hc)
  rw [cleanLine, stripInlineComment, List.takeWhile_append_of_pos (hspace hbefore),
    List.takeWhile_append_of_pos hmark, List.takeWhile_append_of_pos (hspace hafter), hend,
    List.append_nil, stripChars_append hbefore hafter, hcore]

theorem afterScheme {scheme : List Char} (h : scheme.map Char.toLower ∈ schemes)
    (rest : List Char) : schemes.findSome? (fun s =>
      afterWord? (s ++ "://".toList) (scheme ++ ("://".toList ++ rest))) = some rest := by
  have hschemes : schemes =
      [['h', 't', 't', 'p', 's'], ['h', 't', 't', 'p'], ['f', 't', 'p']] := rfl
  have hmarks : "://".toList = [':', '/', '/'] := rfl
  rw [hmarks]
  simp only [hschemes, List.mem_cons, List.not_mem_nil, or_false, List.map_eq_cons_iff,
    List.map_eq_nil_iff] at h
  rcases h with ⟨h, _, rfl, hh, t, _, rfl, ht, t', _, rfl, ht', p, _, rfl, hp, s, _, rfl, hs, rfl⟩ |
      ⟨h, _, rfl, hh, t, _, rfl, ht, t', _, rfl, ht', p, _, rfl, hp, rfl⟩ |
      ⟨f, _, rfl, hf, t, _, rfl, ht, p, _, rfl, hp, rfl⟩
  · simp [hschemes, afterWord?, ignoringCase, hh, ht, ht', hp, hs]
  · simp [hschemes, afterWord?, ignoringCase, hh, ht, ht', hp]
  · simp [hschemes, afterWord?, ignoringCase, hf, ht, hp]

theorem urlHost?_of_url {scheme body port path : List Char}
    (hscheme : scheme.map Char.toLower ∈ schemes) (hbody : ∀ c ∈ body, isHostChar c = true)
    (hne : body ≠ []) (hport : IsPort port) (hpath : IsPath path) :
    urlHost? (scheme ++ ("://".toList ++ (body ++ (port ++ path)))) = some body := by
  have hpathEnd : endsUrl path = true := by
    rcases hpath with rfl | ⟨rest, hrest, rfl⟩
    · rfl
    · have hall : rest.dropWhile (fun c => decide (c ≠ '\n')) = [] :=
        List.dropWhile_eq_nil_iff.mpr fun c hc => decide_eq_true fun hfeed => hrest (hfeed ▸ hc)
      simp only [endsUrl, hall]
      rfl
  have hpathHead : path.takeWhile isHostChar = [] ∧ path.dropWhile isHostChar = path ∧
      path.dropWhile isDecimal = path ∧ afterPort path = path := by
    rcases hpath with rfl | ⟨rest, -, rfl⟩
    · exact ⟨rfl, rfl, rfl, rfl⟩
    · exact ⟨rfl, rfl, rfl, rfl⟩
  obtain ⟨htake, hdrop, hdecimal, hportless⟩ := hpathHead
  have hrest : (port ++ path).takeWhile isHostChar = [] ∧
      (port ++ path).dropWhile isHostChar = port ++ path ∧ afterPort (port ++ path) = path := by
    rcases hport with rfl | ⟨ds, hds, hall, rfl⟩
    · exact ⟨htake, hdrop, hportless⟩
    · refine ⟨rfl, rfl, ?_⟩
      obtain ⟨d, ds, rfl⟩ := List.exists_cons_of_ne_nil hds
      have hd := hall d List.mem_cons_self
      simp only [List.cons_append, afterPort, List.head?_cons, Option.any_some, hd, if_true]
      rw [← List.cons_append, List.dropWhile_append_of_pos hall, hdecimal]
  simp only [urlHost?, afterScheme hscheme, Option.bind_eq_bind, Option.bind_some]
  rw [List.takeWhile_append_of_pos hbody, List.dropWhile_append_of_pos hbody, hrest.1, hrest.2.1,
    hrest.2.2, List.append_nil, if_pos ⟨hne, hpathEnd⟩]

theorem hostText_of_spellsLine {body raw : List Char} (h : SpellsLine body raw) (hne : body ≠ [])
    (hcolon : ':' ∉ body) : hostText raw = body := by
  obtain ⟨core, before, after, comment, hspells, hcore, hhash, hbefore, hafter, hcomment, rfl⟩ := h
  rw [hostText, cleanLine_of_parts hcore hhash hbefore hafter hcomment]
  cases hspells with
  | alone => rw [urlHost?_eq_none hcolon, Option.getD_none]
  | url hscheme hbody hport hpath =>
    rw [urlHost?_of_url hscheme hbody hne hport hpath, Option.getD_some]

def blankLine (line : List Char) : Bool := stripChars line = []

def entries (lines : List (List Char)) : List AnalyzedEntry :=
  (lines.filter fun line => !blankLine line).map classifyOne

def isAccepted (e : AnalyzedEntry) : Bool := e.kind ≠ .invalid

theorem classifyOne_raw (raw : List Char) : (classifyOne raw).raw = raw := by
  have hhost : ∀ line, (classifyHost raw line).raw = raw := by
    intro line
    unfold classifyHost
    split_ifs
    · rfl
    · rfl
    · split
      · rfl
      · split_ifs <;> rfl
    · split
      · split_ifs <;> rfl
      · dsimp only
        split_ifs <;> rfl
  rw [classifyOne]
  split_ifs
  · rfl
  · split
    · dsimp only
      split_ifs <;> rfl
    · exact hhost _

theorem foldl_analyzeLine (lines : List (List Char)) (result : AnalysisResult) :
    lines.foldl analyzeLine result =
      { accepted := result.accepted ++ (entries lines).filter isAccepted
        rejected := result.rejected ++ (entries lines).filter (!isAccepted ·) } := by
  induction lines generalizing result with
  | nil => simp [entries]
  | cons line lines ih =>
    rw [List.foldl_cons, ih]
    by_cases hblank : stripChars line = []
    · simp [analyzeLine, entries, blankLine, hblank]
    · by_cases hkind : (classifyOne line).kind = .invalid <;>
        simp [analyzeLine, entries, blankLine, isAccepted, hblank, hkind]

theorem cleanLine_of_blank {line : List Char} (h : stripChars line = []) : cleanLine line = [] := by
  have hfilter : ∀ cs : List Char, (stripChars cs).filter (fun c => !isSpace c) =
      cs.filter fun c => !isSpace c := filter_stripChars fun c hc => by simp [hc]
  have hline : line.filter (fun c => !isSpace c) = [] := by rw [← hfilter, h, List.filter_nil]
  have hspace : ∀ c ∈ cleanLine line, isSpace c = true := fun c hc => by
    have hmem := (List.takeWhile_sublist _).mem ((stripChars_sublist _).mem hc)
    simpa using List.filter_eq_nil_iff.mp hline c hmem
  have hclean : stripChars (cleanLine line) = cleanLine line := stripChars_stripChars _
  rw [← hclean, ← List.append_nil (cleanLine line), ← List.append_nil (cleanLine line ++ []),
    List.append_assoc, stripChars_append hspace (by simp)]
  rfl

theorem reads_of_accepted {text : List Char} {e : AnalyzedEntry}
    (he : e ∈ (analyzeText text).accepted) :
    e.raw ∈ splitLines text ∧ Reads (hostText e.raw) e.kind e.normalized := by
  rw [analyzeText, analyzeLines, foldl_analyzeLine] at he
  simp only [List.nil_append, entries, List.mem_filter, List.mem_map] at he
  obtain ⟨⟨line, ⟨hline, -⟩, rfl⟩, hkind⟩ := he
  rw [classifyOne_raw]
  exact ⟨hline, (reads_classifyOne line).resolve_left (of_decide_eq_true hkind)⟩

theorem accepted_of_reads {text line n : List Char} {k : Kind} (hline : line ∈ splitLines text)
    (h : Reads (hostText line) k n) :
    ∃ e ∈ (analyzeText text).accepted, e.raw = line ∧ e.kind = k ∧ e.normalized = n := by
  have hblank : stripChars line ≠ [] := fun hnil =>
    h.ne_nil (by rw [hostText, cleanLine_of_blank hnil]; rfl)
  obtain ⟨hkind, hnormalized⟩ := Prod.mk.inj (classifyOne_reads h)
  refine ⟨classifyOne line, ?_, classifyOne_raw line, hkind, hnormalized⟩
  rw [analyzeText, analyzeLines, foldl_analyzeLine]
  simp only [List.nil_append, entries, List.mem_filter, List.mem_map]
  refine ⟨⟨line, ⟨hline, ?_⟩, rfl⟩, ?_⟩
  · simp [blankLine, hblank]
  · simp [isAccepted, hkind, h.accepted]

section
variable (text : List Char)

structure AnalyzerKept : Prop where
  /-- An accepted address or network covers public addresses only. -/
  covers : ∀ e ∈ (analyzeText text).accepted, e.kind = .ip ∨ e.kind = .cidr →
    ∃ net, Ipv4Network.ofChars? e.normalized = some net ∧
      ∀ a, net.Contains a → isPrivateIp a = false
  names : ∀ e ∈ (analyzeText text).accepted, e.kind = .domain → isDottedQuad e.normalized = false
  stable : ∀ e ∈ (analyzeText text).accepted,
    (classifyOne e.normalized).kind = e.kind ∧ (classifyOne e.normalized).normalized = e.normalized
  networks : ∀ e ∈ (analyzeText text).accepted, ∀ e' ∈ (analyzeText text).accepted,
    ∀ body body' net, SpellsLine body e.raw → SpellsLine body' e'.raw →
      Ipv4Network.ofChars? body = some net → Ipv4Network.ofChars? body' = some net →
        e.normalized = e'.normalized
  hosts : ∀ e ∈ (analyzeText text).accepted, ∀ e' ∈ (analyzeText text).accepted,
    ∀ body body', SpellsLine body e.raw → SpellsLine body' e'.raw →
      isHostname (hostName body) = true → hostName body = hostName body' →
        e.normalized = e'.normalized
  /-- The lines that are not blank are those of the entries, in order. -/
  lines : ∃ es : List AnalyzedEntry,
    es.map AnalyzedEntry.raw = (splitLines text).filter (fun line => !blankLine line) ∧
      (analyzeText text).accepted = es.filter isAccepted ∧
        (analyzeText text).rejected = es.filter (!isAccepted ·)

structure Unambiguous : Prop where
  /-- No network begins with a public address and holds a whole private block behind it. -/
  whole : ∀ line ∈ splitLines text, ∀ net, Ipv4Network.ofChars? (hostText line) = some net →
    net.prefixLen ≠ 0 → isPrivateIp net.networkAddress = false →
      ∀ b ∈ privateBlocks, ¬net.Contains b.networkAddress
  /-- Four numbers, without the dots behind them, are an address as they stand. -/
  numbers : ∀ line ∈ splitLines text, isDottedQuad (rstripDots (hostText line)) = true →
    shortLabels (rstripDots (hostText line)) = true → ∃ a, Ipv4.ofChars? (hostText line) = some a
  /-- No public address is listed alone and as a network of its own. -/
  oneForm : ∀ line ∈ splitLines text, ∀ line' ∈ splitLines text, ∀ body body' a,
    SpellsLine body line → SpellsLine body' line' → Ipv4.ofChars? body = some a →
      isPrivateIp a = false → '/' ∈ body' →
        Ipv4Network.ofChars? body' ≠ some (.around a (Fin.last 32))

end

section
variable {text : List Char}

theorem ofChars?_plain {body : List Char} {net : Ipv4Network}
    (h : Ipv4Network.ofChars? body = some net) : body ≠ [] ∧ ':' ∉ body := by
  constructor
  · rintro rfl
    cases h
  · intro hcolon
    rcases Ipv4Network.mem_of_ofChars? h hcolon with hc | hc | hc
    · exact absurd hc (by decide)
    · exact absurd hc (by decide)
    · exact absurd hc (by decide)

theorem isHostname_plain {body : List Char} (h : isHostname (hostName body) = true) :
    body ≠ [] ∧ ':' ∉ body := by
  refine ⟨?_, not_mem_of_hostName h (by decide) (by decide)⟩
  rintro rfl
  exact absurd h (by decide)

theorem unambiguous_of_kept (h : AnalyzerKept text) : Unambiguous text where
  whole := by
    intro line hline net hnet hbits hprivate b hb hcontains
    obtain ⟨a, ha, hprivateA⟩ := (holds_private_iff hprivate).mpr ⟨b, hb, hcontains⟩
    obtain ⟨k, n, hread, hkind, hn⟩ := reads_of_network hnet hbits hprivate
    obtain ⟨e, he, -, rfl, rfl⟩ := accepted_of_reads hline hread
    obtain ⟨net', hnet', hpublic⟩ := h.covers e he hkind
    obtain rfl := Option.some.inj (hn.symm.trans hnet')
    rw [hpublic a ha] at hprivateA
    cases hprivateA
  numbers := by
    intro line hline hquad hshort
    cases haddr : Ipv4.ofChars? (hostText line) with
    | some a => exact ⟨a, rfl⟩
    | none =>
      have hsame := hostName_of_isDottedQuad hquad
      have hname := isHostname_of_isDottedQuad hquad hshort
      rw [← hsame] at hname hquad
      obtain ⟨e, he, -, hkind, hn⟩ := accepted_of_reads hline (.domain haddr hname)
      have hnot := h.names e he hkind
      rw [hn, normalizeDomain_of_isHostname hname, dropLineFeed_of_isDottedQuad hquad,
        hquad] at hnot
      cases hnot
  oneForm := by
    intro line hline line' hline' body body' a hbody hbody' haddr hprivate hslash hnet
    have hnetwork := Ipv4Network.ofChars?_of_ipv4 haddr
    obtain ⟨hne, hcolon⟩ := ofChars?_plain hnetwork
    obtain ⟨hne', hcolon'⟩ := ofChars?_plain hnet
    have hread : Reads (hostText line) .ip a.chars := by
      rw [hostText_of_spellsLine hbody hne hcolon]
      exact .ip haddr hprivate
    have hread' : Reads (hostText line') .cidr (Ipv4Network.around a (Fin.last 32)).chars := by
      rw [hostText_of_spellsLine hbody' hne' hcolon']
      refine .cidr hslash hnet (by simp [Ipv4Network.around]) ?_
      rwa [Ipv4Network.networkAddress_around_last]
    obtain ⟨e, he, rfl, -, hn⟩ := accepted_of_reads hline hread
    obtain ⟨e', he', rfl, -, hn'⟩ := accepted_of_reads hline' hread'
    have hsame := h.networks e he e' he' body body' _ hbody hbody' hnetwork hnet
    rw [hn, hn'] at hsame
    have hmem : '/' ∈ a.chars := by
      rw [hsame]
      simp [Ipv4Network.chars]
    exact Ipv4.not_mem_chars (by decide) (by decide) a hmem

theorem dropLineFeed_hostName {line : List Char} (h : line ∈ splitLines text) :
    dropLineFeed (hostName (hostText line)) = hostName (hostText line) := by
  refine if_neg fun hlast => ?_
  have hmem : '\n' ∈ (hostText line).map lowerChar :=
    (List.rdropWhile_prefix _ _).subset (List.mem_of_getLast? hlast)
  obtain ⟨c, hc, hfeed⟩ := List.mem_map.mp hmem
  obtain rfl := lowerChar_eq hfeed rfl
  have hbreak := noBreak_of_mem_splitLines h _ (mem_of_hostText hc)
  exact absurd hbreak (by decide)

theorem names_of_unambiguous (h : Unambiguous text) {e : AnalyzedEntry}
    (he : e ∈ (analyzeText text).accepted) (hkind : e.kind = .domain) :
    isDottedQuad e.normalized = false := by
  obtain ⟨hline, hread⟩ := reads_of_accepted he
  rw [hkind] at hread
  generalize e.normalized = n at hread ⊢
  cases hread with
  | domain haddr hname =>
    have hshort := shortLabels_of_isHostname hname
    rw [normalizeDomain_of_isHostname hname, dropLineFeed_hostName hline] at *
    refine Bool.eq_false_iff.mpr fun hquad => ?_
    obtain ⟨a, ha⟩ := h.numbers e.raw hline (by rwa [rstripDots_of_hostName hquad])
      (by rwa [rstripDots_of_hostName hquad])
    rw [haddr] at ha
    cases ha

theorem reads_network {body n : List Char} {k : Kind} {net : Ipv4Network} (h : Reads body k n)
    (hnet : Ipv4Network.ofChars? body = some net) : n = net.chars ∧ '/' ∈ body ∨
      ∃ a, Ipv4.ofChars? body = some a ∧ isPrivateIp a = false ∧ net = .around a (Fin.last 32) ∧
        n = a.chars := by
  cases h with
  | cidr hslash hnet' =>
    obtain rfl := Option.some.inj (hnet.symm.trans hnet')
    exact .inl ⟨rfl, hslash⟩
  | ip haddr hprivate =>
    have hsame := Option.some.inj (hnet.symm.trans (Ipv4Network.ofChars?_of_ipv4 haddr))
    exact .inr ⟨_, haddr, hprivate, hsame, rfl⟩
  | domain haddr hname =>
    obtain ⟨a, ha, -⟩ := Ipv4Network.ipv4_of_ofChars? hnet
      (not_mem_of_hostName hname (by decide) (by decide))
    rw [haddr] at ha
    cases ha

theorem networks_of_unambiguous (h : Unambiguous text) {line line' body body' n n' : List Char}
    {k k' : Kind} {net : Ipv4Network} (hline : line ∈ splitLines text)
    (hline' : line' ∈ splitLines text) (hbody : SpellsLine body line)
    (hbody' : SpellsLine body' line') (hnet : Ipv4Network.ofChars? body = some net)
    (hnet' : Ipv4Network.ofChars? body' = some net) (hread : Reads body k n)
    (hread' : Reads body' k' n') : n = n' := by
  rcases reads_network hread hnet with ⟨rfl, hslash⟩ | ⟨a, ha, hprivate, rfl, rfl⟩
  · rcases reads_network hread' hnet' with ⟨rfl, -⟩ | ⟨a', ha', hprivate', rfl, rfl⟩
    · rfl
    · exact absurd hnet
        (h.oneForm line' hline' line hline body' body a' hbody' hbody ha' hprivate' hslash)
  · rcases reads_network hread' hnet' with ⟨rfl, hslash'⟩ | ⟨a', -, -, hsame, rfl⟩
    · exact absurd hnet'
        (h.oneForm line hline line' hline' body body' a hbody hbody' ha hprivate hslash')
    · rw [← Ipv4Network.networkAddress_around_last a, hsame,
        Ipv4Network.networkAddress_around_last]

theorem kept_of_unambiguous (h : Unambiguous text) : AnalyzerKept text where
  covers := by
    intro e he hkind
    obtain ⟨hline, hread⟩ := reads_of_accepted he
    generalize hk : e.kind = k at hread hkind
    generalize e.normalized = n at hread ⊢
    cases hread with
    | cidr hslash hnet hbits hprivate =>
      refine ⟨_, Ipv4Network.ofChars?_chars _, fun a ha => Bool.eq_false_iff.mpr fun hp => ?_⟩
      obtain ⟨b, hb, hcontains⟩ := (holds_private_iff hprivate).mp ⟨a, ha, hp⟩
      exact h.whole e.raw hline _ hnet hbits hprivate b hb hcontains
    | ip haddr hprivate =>
      refine ⟨_, Ipv4Network.ofChars?_of_ipv4 (Ipv4.ofChars?_chars _), fun a ha => ?_⟩
      rwa [Ipv4Network.contains_around_last.mp ha]
    | domain => rcases hkind with hkind | hkind <;> cases hkind
  names := fun e he => names_of_unambiguous h he
  stable := by
    intro e he
    obtain ⟨hline, hread⟩ := reads_of_accepted he
    exact Prod.mk.inj (hread.stable fun hkind => names_of_unambiguous h he hkind)
  networks := by
    intro e he e' he' body body' net hbody hbody' hnet hnet'
    obtain ⟨hline, hread⟩ := reads_of_accepted he
    obtain ⟨hline', hread'⟩ := reads_of_accepted he'
    obtain ⟨hne, hcolon⟩ := ofChars?_plain hnet
    obtain ⟨hne', hcolon'⟩ := ofChars?_plain hnet'
    rw [hostText_of_spellsLine hbody hne hcolon] at hread
    rw [hostText_of_spellsLine hbody' hne' hcolon'] at hread'
    exact networks_of_unambiguous h hline hline' hbody hbody' hnet hnet' hread hread'
  hosts := by
    intro e he e' he' body body' hbody hbody' hname hsame
    obtain ⟨hline, hread⟩ := reads_of_accepted he
    obtain ⟨hline', hread'⟩ := reads_of_accepted he'
    have hname' : isHostname (hostName body') = true := hsame ▸ hname
    obtain ⟨hne, hcolon⟩ := isHostname_plain hname
    obtain ⟨hne', hcolon'⟩ := isHostname_plain hname'
    rw [hostText_of_spellsLine hbody hne hcolon] at hread
    rw [hostText_of_spellsLine hbody' hne' hcolon'] at hread'
    rw [hread.hostName hname, hread'.hostName hname', hsame]
  lines := by
    refine ⟨entries (splitLines text), ?_, ?_, ?_⟩
    · rw [entries, List.map_map]
      exact List.map_id'' classifyOne_raw _
    · simp only [analyzeText, analyzeLines, foldl_analyzeLine, List.nil_append]
    · simp only [analyzeText, analyzeLines, foldl_analyzeLine, List.nil_append]

end

theorem analyzerKept_iff (text : List Char) : AnalyzerKept text ↔ Unambiguous text :=
  ⟨unambiguous_of_kept, kept_of_unambiguous⟩

/-- A network that begins with a public address is accepted, with the private `10.0.0.0/8` in it. -/
theorem private_block_accepted :
    (∃ e ∈ (analyzeText "8.0.0.0/5".toList).accepted, e.normalized = "8.0.0.0/5".toList) ∧
      (block 8 0 0 0 5).Contains (.ofOctets 10 0 0 1) ∧
        isPrivateIp (.ofOctets 10 0 0 1) = true ∧ ¬AnalyzerKept "8.0.0.0/5".toList := by
  have hcontains : (block 8 0 0 0 5).Contains (.ofOctets 10 0 0 1) := by decide
  have hprivate : isPrivateIp (.ofOctets 10 0 0 1) = true := by decide
  have htext : hostText "8.0.0.0/5".toList = "8.0.0.0/5".toList :=
    (hostText_of_plain (by decide) (by decide) (by decide)).2
  have hread : Reads (hostText "8.0.0.0/5".toList) .cidr (block 8 0 0 0 5).chars := by
    rw [htext]
    exact .cidr (by decide) (by decide) (by decide) (by decide)
  have hline : "8.0.0.0/5".toList ∈ splitLines "8.0.0.0/5".toList := by decide
  obtain ⟨e, he, -, hkind, hn⟩ := accepted_of_reads hline hread
  have hchars : (block 8 0 0 0 5).chars = "8.0.0.0/5".toList := by decide
  refine ⟨⟨e, he, hn.trans hchars⟩, hcontains, hprivate, fun h => ?_⟩
  obtain ⟨net, hnet, hpublic⟩ := h.covers e he (.inr hkind)
  rw [hn, Ipv4Network.ofChars?_chars] at hnet
  obtain rfl := Option.some.inj hnet
  rw [hpublic _ hcontains] at hprivate
  cases hprivate

end RadiusModule.DomainAnalyzer
