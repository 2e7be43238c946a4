import RadiusModule.Services.DomainAnalyzer.Entries

/-!
# What a line is read as

The text that decides about a line is the host of a URL or the line itself. It
is a network, an address or a host name, and the three grammars overlap only
where four decimal numbers stand between dots.
-/

namespace RadiusModule.DomainAnalyzer
open Library PyText

def isHostnameChar (c : Char) : Bool := isLabelEnd c || c = '-' || c = '.'

theorem hostnameChar_range {c : Char} (h : isHostnameChar c = true) :
    c.toNat ∈ List.range' 45 78 := by
  simp only [isHostnameChar, isLabelEnd, Bool.or_eq_true, Bool.and_eq_true, decide_eq_true_eq,
    Char.le_def, UInt32.le_iff_toNat_le, Char.isDigit] at h
  rw [List.mem_range'_1]
  rcases h with ((h | h) | rfl) | rfl
  · change 97 ≤ c.toNat ∧ c.toNat ≤ 122 at h
    omega
  · change 48 ≤ c.toNat ∧ c.toNat ≤ 57 at h
    omega
  · decide
  · decide

theorem hostnameChar_fixed {c : Char} (h : isHostnameChar c = true) :
    isSpace c = false ∧ lowerChar c = c := by
  have hall : ∀ n ∈ List.range' 45 78, isHostnameChar (Char.ofNat n) = true →
      isSpace (Char.ofNat n) = false ∧ lowerChar (Char.ofNat n) = Char.ofNat n := by decide
  have hc := hall _ (hostnameChar_range h)
  rw [Char.ofNat_toNat] at hc
  exact hc h

theorem hostnameChar_of_isDigit {c : Char} (h : c.isDigit = true) : isHostnameChar c = true := by
  simp [isHostnameChar, isLabelEnd, h]

theorem lowerChar_eq {c d : Char} (h : lowerChar c = d) (hd : d.isLower = false) : c = d := by
  have hletters : ∀ n ∈ List.range' 65 26, (Char.ofNat n).toLower.isLower = true := by decide
  unfold lowerChar at h
  split_ifs at h with hc
  · subst h
    cases hd
  · rcases toLower_cases c with hlower | ⟨n, hn, rfl⟩
    · rw [← h, hlower]
    · rw [← h, hletters n hn] at hd
      cases hd

theorem isLower_of_isDigit {c : Char} (h : c.isDigit = true) : c.isLower = false := by
  have hall : ∀ n ∈ List.range' 48 10, (Char.ofNat n).isLower = false := by decide
  obtain ⟨n, hn, rfl⟩ := isDigit_cases h
  exact hall n hn

theorem mem_of_dropLineFeed {cs : List Char} {c : Char} (h : c ∈ cs) :
    c ∈ dropLineFeed cs ∨ c = '\n' := by
  unfold dropLineFeed
  split_ifs with hlast
  · rw [← List.dropLast_append_getLast? _ hlast, List.mem_append, List.mem_singleton] at h
    exact h
  · exact .inl h

theorem mem_of_isHostname {cs : List Char} (h : isHostname cs = true) {c : Char}
    (hc : c ∈ dropLineFeed cs) : isHostnameChar c = true := by
  simp only [isHostname, Bool.and_eq_true, List.all_eq_true] at h
  rcases exists_word_of_mem '.' hc with rfl | ⟨w, hw, hcw⟩
  · decide
  · have hlabel := h.2 w hw
    simp only [isLabel, Bool.and_eq_true, List.all_eq_true] at hlabel
    simp only [isHostnameChar, Bool.or_eq_true] at hlabel ⊢
    exact .inl (hlabel.1.2 c hcw)

theorem rstripDots_of_isHostname {cs : List Char} (h : isHostname cs = true) :
    rstripDots (dropLineFeed cs) = dropLineFeed cs := by
  rw [rstripDots, List.rdropWhile_eq_self_iff]
  intro hne hdot
  simp only [isHostname, Bool.and_eq_true, List.all_eq_true] at h
  obtain ⟨whole, rest, hsplit⟩ : ∃ whole rest,
      splitChars '.' (dropLineFeed cs).dropLast = whole ++ [rest] := by
    rcases List.eq_nil_or_concat' (splitChars '.' (dropLineFeed cs).dropLast) with hnil | hconcat
    · exact absurd hnil (splitChars_ne_nil _ _)
    · exact hconcat
  have hrest : '.' ∉ rest := fun hmem =>
    (mem_splitChars (w := rest) (by rw [hsplit]; simp) hmem).2 rfl
  have hempty : [] ∈ splitChars '.' (dropLineFeed cs) := by
    rw [← List.dropLast_append_getLast hne, of_decide_eq_true hdot, splitChars_append hsplit,
      splitChars_word hrest]
    simp [splitChars]
  exact absurd (h.2 [] hempty) (by decide)

theorem normalizeDomain_of_isHostname {cs : List Char} (h : isHostname cs = true) :
    normalizeDomain cs = dropLineFeed cs := by
  have hmem := fun c => mem_of_isHostname h (c := c)
  have hstrip : stripChars cs = dropLineFeed cs := by
    have hclean : stripChars (dropLineFeed cs) = dropLineFeed cs :=
      stripChars_of_noSpace fun c hc => (hostnameChar_fixed (hmem c hc)).1
    by_cases hlast : cs.getLast? = some '\n'
    · have hcs : cs = dropLineFeed cs ++ ['\n'] := by
        rw [dropLineFeed, if_pos hlast, List.dropLast_append_getLast? _ hlast]
      calc stripChars cs
          = stripChars ([] ++ (dropLineFeed cs ++ ['\n'])) := by rw [List.nil_append, ← hcs]
        _ = dropLineFeed cs := by rw [stripChars_append (by simp) (by decide), hclean]
    · rwa [dropLineFeed, if_neg hlast] at hclean ⊢
  rw [normalizeDomain, hstrip, List.map_congr_left fun c hc => (hostnameChar_fixed (hmem c hc)).2,
    List.map_id', rstripDots_of_isHostname h]

theorem dropLineFeed_dropLineFeed {cs : List Char} (h : isHostname cs = true) :
    dropLineFeed (dropLineFeed cs) = dropLineFeed cs := by
  refine if_neg fun hlast => ?_
  have hfeed := mem_of_isHostname h (List.mem_of_getLast? hlast)
  exact absurd hfeed (by decide)

def hostName (cs : List Char) : List Char := rstripDots (cs.map lowerChar)

theorem mem_hostName {cs : List Char} {c : Char} (h : c ∈ cs) :
    lowerChar c ∈ hostName cs ∨ lowerChar c = '.' := by
  have hlower : lowerChar c ∈ cs.map lowerChar := List.mem_map_of_mem h
  rw [← List.rdropWhile_append_rtakeWhile (p := (· = '.')) (l := cs.map lowerChar),
    List.mem_append] at hlower
  rcases hlower with hlower | hlower
  · exact .inl hlower
  · have hdot := List.mem_rtakeWhile_imp hlower
    exact .inr (of_decide_eq_true hdot)

theorem hostName_of_isHostname {cs : List Char} (h : isHostname cs = true) :
    hostName (dropLineFeed cs) = dropLineFeed cs := by
  rw [hostName, List.map_congr_left fun c hc => (hostnameChar_fixed (mem_of_isHostname h hc)).2,
    List.map_id', rstripDots_of_isHostname h]

theorem chars_of_hostName {cs : List Char} (h : isHostname (hostName cs) = true) {c : Char}
    (hc : c ∈ cs) : isHostnameChar (lowerChar c) = true ∨ lowerChar c = '\n' := by
  rcases mem_hostName hc with hmem | hdot
  · exact (mem_of_dropLineFeed hmem).imp_left (mem_of_isHostname h)
  · exact .inl (hdot ▸ by decide)

theorem not_mem_of_hostName {cs : List Char} (h : isHostname (hostName cs) = true) {c : Char}
    (hname : isHostnameChar (lowerChar c) = false) (hfeed : lowerChar c ≠ '\n') : c ∉ cs := by
  intro hc
  rcases chars_of_hostName h hc with hmem | hmem
  · rw [hname] at hmem
    cases hmem
  · exact hfeed hmem

def isDottedQuad (cs : List Char) : Bool :=
  (splitChars '.' cs).length = 4 &&
    (splitChars '.' cs).all fun w => w ≠ [] && w.all Char.isDigit

def shortLabels (cs : List Char) : Bool := (splitChars '.' cs).all (·.length ≤ 63)

theorem mem_of_isDottedQuad {cs : List Char} (h : isDottedQuad cs = true) {c : Char} (hc : c ∈ cs) :
    c.isDigit = true ∨ c = '.' := by
  simp only [isDottedQuad, Bool.and_eq_true, List.all_eq_true] at h
  rcases exists_word_of_mem '.' hc with rfl | ⟨w, hw, hcw⟩
  · exact .inr rfl
  · exact .inl ((h.2 w hw).2 c hcw)

theorem isDottedQuad_of_ipv4 {cs : List Char} {a : Ipv4} (h : Ipv4.ofChars? cs = some a) :
    isDottedQuad cs = true ∧ shortLabels cs = true := by
  obtain ⟨hlength, hwords⟩ := Ipv4.octet?_of_ofChars? h
  have hdigits : ∀ w ∈ splitChars '.' cs, w ≠ [] ∧ w.all Char.isDigit = true ∧ w.length ≤ 3 :=
    fun w hw => Ipv4.octet?_digits (hwords w hw).choose_spec
  constructor
  · simp only [isDottedQuad, Bool.and_eq_true, decide_eq_true_eq,
      List.all_eq_true (l := splitChars _ _)]
    exact ⟨hlength, fun w hw => ⟨(hdigits w hw).1, (hdigits w hw).2.1⟩⟩
  · simp only [shortLabels, List.all_eq_true, decide_eq_true_eq]
    intro w hw
    have := (hdigits w hw).2.2
    omega

theorem dropLineFeed_of_isDottedQuad {cs : List Char} (h : isDottedQuad cs = true) :
    dropLineFeed cs = cs := by
  refine if_neg fun hlast => ?_
  have hfeed := mem_of_isDottedQuad h (List.mem_of_getLast? hlast)
  exact absurd hfeed (by decide)

theorem shortLabels_of_isHostname {cs : List Char} (h : isHostname cs = true) :
    shortLabels (dropLineFeed cs) = true := by
  simp only [isHostname, Bool.and_eq_true, List.all_eq_true] at h
  simp only [shortLabels, List.all_eq_true]
  intro w hw
  have hlabel := h.2 w hw
  simp only [isLabel, Bool.and_eq_true] at hlabel
  exact hlabel.2

theorem isHostname_of_isDottedQuad {cs : List Char} (h : isDottedQuad cs = true)
    (hshort : shortLabels cs = true) : isHostname cs = true := by
  have hfeed := dropLineFeed_of_isDottedQuad h
  simp only [isDottedQuad, shortLabels, Bool.and_eq_true, decide_eq_true_eq,
    List.all_eq_true (l := splitChars _ _)] at h hshort
  simp only [isHostname, hfeed, h.1, Bool.and_eq_true, decide_eq_true_eq, List.all_eq_true]
  refine ⟨by decide, fun w hw => ?_⟩
  obtain ⟨hne, hdigit⟩ := h.2 w hw
  have hend : ∀ c ∈ w, isLabelEnd c = true := fun c hc => by
    simp [isLabelEnd, List.all_eq_true.mp hdigit c hc]
  simp only [isLabel, Bool.and_eq_true, decide_eq_true_eq, List.all_eq_true, Bool.or_eq_true]
  refine ⟨⟨⟨?_, ?_⟩, fun c hc => .inl (hend c hc)⟩, hshort w hw⟩
  · rw [List.head?_eq_some_head hne]
    exact hend _ (List.head_mem hne)
  · rw [List.getLast?_eq_some_getLast hne]
    exact hend _ (List.getLast_mem hne)

theorem rstripDots_map_lowerChar (cs : List Char) :
    (rstripDots cs).map lowerChar = hostName cs := by
  have hdot : (fun c => decide (c = '.')) ∘ lowerChar = fun c => decide (c = '.') := by
    funext c
    refine decide_eq_decide.mpr ⟨fun h => lowerChar_eq h rfl, ?_⟩
    rintro rfl
    decide
  rw [hostName, rstripDots, rstripDots, List.rdropWhile, List.rdropWhile, ← List.map_reverse,
    List.dropWhile_map, hdot, List.map_reverse]

theorem rstripDots_of_hostName {cs : List Char} (h : isDottedQuad (hostName cs) = true) :
    rstripDots cs = hostName cs := by
  rw [← rstripDots_map_lowerChar] at h ⊢
  conv_lhs => rw [← List.map_id (rstripDots cs)]
  refine List.map_congr_left fun c hc => lowerChar_eq rfl ?_
  rcases mem_of_isDottedQuad h (List.mem_map_of_mem hc) with hd | hd
  · exact isLower_of_isDigit hd
  · rw [hd]
    rfl

theorem hostName_of_isDottedQuad {cs : List Char} (h : isDottedQuad (rstripDots cs) = true) :
    hostName cs = rstripDots cs := by
  have hfixed : ∀ c ∈ rstripDots cs, lowerChar c = c := by
    intro c hc
    rcases mem_of_isDottedQuad h hc with hd | rfl
    · exact (hostnameChar_fixed (hostnameChar_of_isDigit hd)).2
    · decide
  rw [← rstripDots_map_lowerChar, List.map_congr_left hfixed, List.map_id']

inductive Reads : List Char → Kind → List Char → Prop
  | cidr {line : List Char} {net : Ipv4Network} : '/' ∈ line →
      Ipv4Network.ofChars? line = some net → net.prefixLen ≠ 0 →
      isPrivateIp net.networkAddress = false → Reads line .cidr net.chars
  | ip {line : List Char} {addr : Ipv4} : Ipv4.ofChars? line = some addr →
      isPrivateIp addr = false → Reads line .ip addr.chars
  | domain {line : List Char} : Ipv4.ofChars? line = none → isHostname (hostName line) = true →
      Reads line .domain (normalizeDomain (hostName line))

theorem Reads.chars {line n : List Char} {k : Kind} (h : Reads line k n) {c : Char}
    (hc : c ∈ line) :
    isHostnameChar (lowerChar c) = true ∨ c = '/' ∨ lowerChar c = '\n' := by
  have hplain : ∀ {d : Char}, d.isDigit = true ∨ d = '.' → isHostnameChar (lowerChar d) = true := by
    rintro d (hd | rfl)
    · have hname := hostnameChar_of_isDigit hd
      rwa [(hostnameChar_fixed hname).2]
    · decide
  cases h with
  | cidr hslash hnet hbits hprivate =>
    rcases Ipv4Network.mem_of_ofChars? hnet hc with hd | hd | hd
    · exact .inl (hplain (.inl hd))
    · exact .inl (hplain (.inr hd))
    · exact .inr (.inl hd)
  | ip haddr hprivate =>
    exact .inl (hplain (Ipv4.mem_chars (by rwa [Ipv4.chars_of_ofChars? haddr])))
  | domain haddr hname =>
    exact (chars_of_hostName hname hc).imp_right .inr

theorem Reads.no_mark {line n : List Char} {k : Kind} (h : Reads line k n) :
    ∀ c ∈ ['*', '?', ':', '#'], c ∉ line := by
  have hmarks : ∀ c ∈ ['*', '?', ':', '#'],
      isHostnameChar (lowerChar c) = false ∧ c ≠ '/' ∧ lowerChar c ≠ '\n' := by decide
  intro c hmark hc
  obtain ⟨hname, hslash, hfeed⟩ := hmarks c hmark
  rcases h.chars hc with h | h | h
  · rw [hname] at h
    cases h
  · exact hslash h
  · exact hfeed h

def AnalyzedEntry.verdict (e : AnalyzedEntry) : Kind × List Char := (e.kind, e.normalized)

theorem classifyHost_reads {line n : List Char} {k : Kind} (h : Reads line k n) (raw : List Char) :
    (classifyHost raw line).verdict = (k, n) := by
  have hmark := h.no_mark
  have hwild : line.any (fun c => c = '*' || c = '?') = false := by
    rw [List.any_eq_false]
    intro c hc hwild
    rcases (Bool.or_eq_true _ _).mp hwild with hwild | hwild
    · exact hmark '*' (by decide) (of_decide_eq_true hwild ▸ hc)
    · exact hmark '?' (by decide) (of_decide_eq_true hwild ▸ hc)
  have hcolon : mayBeIpv6 line = false := by
    have hnot : line.contains ':' = false := by
      rw [Bool.eq_false_iff, Ne, List.contains_iff_mem]
      exact hmark ':' (by decide)
    rw [mayBeIpv6, hnot, Bool.false_and]
  simp only [classifyHost, hwild, hcolon, Bool.false_and, Bool.false_eq_true, if_false]
  cases h with
  | cidr hslash hnet hbits hprivate =>
    simp only [hslash, if_true, hnet, hbits, if_false, hprivate, Bool.false_eq_true]
    rfl
  | ip haddr hprivate =>
    have hslash : '/' ∉ line := by
      rw [← Ipv4.chars_of_ofChars? haddr]
      exact Ipv4.not_mem_chars (by decide) (by decide) _
    simp only [hslash, if_false, haddr, hprivate, Bool.false_eq_true]
    rfl
  | domain haddr hname =>
    have hslash : '/' ∉ line := not_mem_of_hostName hname (by decide) (by decide)
    rw [hostName] at hname
    simp only [hslash, if_false, haddr, hname, if_true]
    rfl

theorem reads_classifyHost (raw line : List Char) :
    (classifyHost raw line).verdict = (.invalid, []) ∨
      Reads line (classifyHost raw line).kind (classifyHost raw line).normalized := by
  unfold classifyHost
  split_ifs with hwild hsix hslash
  · exact .inl rfl
  · exact .inl rfl
  · cases hnet : Ipv4Network.ofChars? line with
    | none => exact .inl rfl
    | some net =>
      dsimp only
      split_ifs with hbits hprivate
      · exact .inl rfl
      · exact .inl rfl
      · exact .inr (.cidr hslash hnet hbits (Bool.eq_false_iff.mpr hprivate))
  · cases haddr : Ipv4.ofChars? line with
    | some addr =>
      dsimp only
      split_ifs with hprivate
      · exact .inl rfl
      · exact .inr (.ip haddr (Bool.eq_false_iff.mpr hprivate))
    | none =>
      dsimp only
      split_ifs with hname
      · exact .inr (.domain haddr hname)
      · exact .inl rfl

def hostText (raw : List Char) : List Char := (urlHost? (cleanLine raw)).getD (cleanLine raw)

theorem urlHost?_eq_none {line : List Char} (h : ':' ∉ line) : urlHost? line = none := by
  cases hurl : urlHost? line with
  | none => rfl
  | some host =>
    obtain ⟨scheme, -, rest, hrest, -⟩ := urlHost?_eq_some hurl
    obtain ⟨word, hword, rfl⟩ := afterWord?_eq_some.mp hrest
    obtain ⟨c, hc, hcolon⟩ : ∃ c ∈ word, ignoringCase ':' c = true := by
      have hat : ':' ∈ scheme ++ "://".toList := by simp
      obtain ⟨i, hi, hget⟩ := List.getElem_of_mem hat
      have hi' : i < word.length := hword.length_eq ▸ hi
      have hmatch := hword.get hi hi'
      simp only [List.get_eq_getElem, hget] at hmatch
      exact ⟨word[i], List.getElem_mem hi', hmatch⟩
    have hletters : ∀ n ∈ List.range' 65 26, (Char.ofNat n).toLower ≠ ':' := by decide
    have hlower : c.toLower = ':' := by simpa [ignoringCase] using hcolon
    rcases toLower_cases c with hsame | ⟨n, hn, rfl⟩
    · rw [hsame] at hlower
      exact absurd (List.mem_append_left rest (hlower ▸ hc)) h
    · exact absurd hlower (hletters n hn)

theorem not_hash_of_cleanLine (raw : List Char) : '#' ∉ cleanLine raw := fun h =>
  absurd (List.mem_takeWhile_imp ((stripChars_sublist _).mem h)) (by decide)

theorem hostText_of_plain {cs : List Char} (hhash : '#' ∉ cs) (hcolon : ':' ∉ cs)
    (hspace : ∀ c ∈ cs, isSpace c = false) : cleanLine cs = cs ∧ hostText cs = cs := by
  have hclean : cleanLine cs = cs := by
    rw [cleanLine, stripInlineComment, List.takeWhile_eq_self_iff.mpr, stripChars_of_noSpace hspace]
    intro c hc
    exact decide_eq_true fun hmark => hhash (hmark ▸ hc)
  exact ⟨hclean, by rw [hostText, hclean, urlHost?_eq_none hcolon, Option.getD_none]⟩

theorem urlHost?_plain {line host : List Char} (h : urlHost? line = some host) :
    host ≠ [] ∧ ':' ∉ host ∧ (∀ c ∈ host, isSpace c = false) ∧ ∀ c ∈ host, c ∈ line := by
  obtain ⟨scheme, -, rest, hrest, rfl, hne⟩ := urlHost?_eq_some h
  obtain ⟨word, -, rfl⟩ := afterWord?_eq_some.mp hrest
  refine ⟨hne, fun hcolon => absurd (List.mem_takeWhile_imp hcolon) (by decide), ?_, ?_⟩
  · intro c hc
    have hhost := List.mem_takeWhile_imp hc
    simp only [isHostChar, Bool.and_eq_true, Bool.not_eq_true'] at hhost
    exact hhost.2
  · intro c hc
    exact List.mem_append_right word ((List.takeWhile_sublist _).mem hc)

theorem mem_of_hostText {raw : List Char} {c : Char} (h : c ∈ hostText raw) : c ∈ raw := by
  have hclean : ∀ c ∈ cleanLine raw, c ∈ raw := fun c hc =>
    (List.takeWhile_sublist _).mem ((stripChars_sublist _).mem hc)
  unfold hostText at h
  cases hurl : urlHost? (cleanLine raw) with
  | none =>
    rw [hurl, Option.getD_none] at h
    exact hclean c h
  | some host =>
    rw [hurl, Option.getD_some] at h
    exact hclean c ((urlHost?_plain hurl).2.2.2 c h)

theorem classifyOne_host {raw host : List Char} (h : urlHost? (cleanLine raw) = some host) :
    classifyOne host = classifyHost host host := by
  obtain ⟨hne, hcolon, hspace, hmem⟩ := urlHost?_plain h
  have hhash : '#' ∉ host := fun hc => not_hash_of_cleanLine raw (hmem _ hc)
  have hclean := (hostText_of_plain hhash hcolon hspace).1
  rw [classifyOne, hclean, if_neg hne]
  split
  · rename_i inner hinner
    rw [urlHost?_eq_none hcolon] at hinner
    cases hinner
  · rfl

theorem Reads.ne_nil {line n : List Char} {k : Kind} (h : Reads line k n) : line ≠ [] := by
  rintro rfl
  cases h with
  | cidr hslash => cases hslash
  | ip haddr => cases haddr
  | domain haddr hname => exact absurd hname (by decide)

theorem Reads.accepted {line n : List Char} {k : Kind} (h : Reads line k n) : k ≠ .invalid := by
  rintro rfl
  cases h

theorem classifyOne_reads {raw n : List Char} {k : Kind} (h : Reads (hostText raw) k n) :
    (classifyOne raw).verdict = (k, n) := by
  have hline : cleanLine raw ≠ [] := fun hnil => h.ne_nil (by rw [hostText, hnil]; rfl)
  rw [classifyOne, if_neg hline]
  split
  · rename_i host hhost
    rw [hostText, hhost, Option.getD_some] at h
    have hinner : (classifyOne host).verdict = (k, n) := by
      rw [classifyOne_host hhost]
      exact classifyHost_reads h host
    have hkind := (Prod.mk.inj hinner).1
    rw [if_pos (by rw [hkind]; exact h.accepted)]
    exact hinner
  · rename_i hnone
    rw [hostText, hnone, Option.getD_none] at h
    exact classifyHost_reads h raw

theorem reads_classifyOne (raw : List Char) : (classifyOne raw).kind = .invalid ∨
    Reads (hostText raw) (classifyOne raw).kind (classifyOne raw).normalized := by
  rw [classifyOne]
  split_ifs with hline
  · exact .inl rfl
  · split
    · rename_i host hhost
      rw [hostText, hhost, Option.getD_some]
      by_cases hkind : (classifyOne host).kind ≠ .invalid
      · right
        simp only [if_pos hkind]
        rw [classifyOne_host hhost] at hkind ⊢
        exact (reads_classifyHost host host).resolve_left fun h => hkind (Prod.mk.inj h).1
      · left
        simp only [if_neg hkind]
        rfl
    · rename_i hnone
      rw [hostText, hnone, Option.getD_none]
      exact (reads_classifyHost raw (cleanLine raw)).imp_left fun h => (Prod.mk.inj h).1

theorem Reads.normalized {line n : List Char} {k : Kind} (h : Reads line k n)
    (hquad : k = .domain → isDottedQuad n = false) :
    Reads n k n ∧ ∀ c ∈ n, isSpace c = false := by
  cases h with
  | cidr hslash hnet hbits hprivate =>
    rename_i net
    refine ⟨.cidr (by simp [Ipv4Network.chars]) (Ipv4Network.ofChars?_chars net) hbits hprivate,
      fun c hc => ?_⟩
    rcases Ipv4Network.mem_of_ofChars? (Ipv4Network.ofChars?_chars net) hc with hd | rfl | rfl
    · exact isSpace_of_isDigit hd
    · decide
    · decide
  | ip haddr hprivate =>
    rename_i addr
    refine ⟨.ip (Ipv4.ofChars?_chars addr) hprivate, fun c hc => ?_⟩
    rcases Ipv4.mem_chars hc with hd | rfl
    · exact isSpace_of_isDigit hd
    · decide
  | domain haddr hname =>
    rw [normalizeDomain_of_isHostname hname] at hquad ⊢
    have hagain : isHostname (dropLineFeed (hostName line)) = true := by
      rw [isHostname, dropLineFeed_dropLineFeed hname]
      exact hname
    have hsame : normalizeDomain (hostName (dropLineFeed (hostName line))) =
        dropLineFeed (hostName line) := by
      rw [hostName_of_isHostname hname, normalizeDomain_of_isHostname hagain,
        dropLineFeed_dropLineFeed hname]
    have haddress : Ipv4.ofChars? (dropLineFeed (hostName line)) = none := by
      cases haddr' : Ipv4.ofChars? (dropLineFeed (hostName line)) with
      | none => rfl
      | some addr =>
        rw [(isDottedQuad_of_ipv4 haddr').1] at hquad
        cases hquad rfl
    have hread : Reads (dropLineFeed (hostName line)) .domain _ :=
      .domain haddress (by rw [hostName_of_isHostname hname]; exact hagain)
    rw [hsame] at hread
    exact ⟨hread, fun c hc => (hostnameChar_fixed (mem_of_isHostname hname hc)).1⟩

theorem Reads.stable {line n : List Char} {k : Kind} (h : Reads line k n)
    (hquad : k = .domain → isDottedQuad n = false) : (classifyOne n).verdict = (k, n) := by
  obtain ⟨hagain, hspace⟩ := h.normalized hquad
  have hmark := hagain.no_mark
  refine classifyOne_reads ?_
  rwa [(hostText_of_plain (hmark '#' (by decide)) (hmark ':' (by decide)) hspace).2]

theorem reads_of_network {line : List Char} {net : Ipv4Network}
    (hnet : Ipv4Network.ofChars? line = some net) (hbits : net.prefixLen ≠ 0)
    (hprivate : isPrivateIp net.networkAddress = false) :
    ∃ k n, Reads line k n ∧ (k = .ip ∨ k = .cidr) ∧ Ipv4Network.ofChars? n = some net := by
  by_cases hslash : '/' ∈ line
  · exact ⟨.cidr, net.chars, .cidr hslash hnet hbits hprivate, .inr rfl,
      Ipv4Network.ofChars?_chars net⟩
  · obtain ⟨addr, haddr, rfl⟩ := Ipv4Network.ipv4_of_ofChars? hnet hslash
    rw [Ipv4Network.networkAddress_around_last] at hprivate
    exact ⟨.ip, addr.chars, .ip haddr hprivate, .inl rfl,
      Ipv4Network.ofChars?_of_ipv4 (Ipv4.ofChars?_chars addr)⟩

theorem Reads.hostName {line n : List Char} {k : Kind} (h : Reads line k n)
    (hname : isHostname (hostName line) = true) : n = normalizeDomain (hostName line) := by
  cases h with
  | cidr hslash => exact absurd hslash (not_mem_of_hostName hname (by decide) (by decide))
  | ip haddr =>
    obtain ⟨hquad, hshort⟩ := isDottedQuad_of_ipv4 haddr
    have hline := isHostname_of_isDottedQuad hquad hshort
    have hsame := hostName_of_isHostname hline
    rw [dropLineFeed_of_isDottedQuad hquad] at hsame
    rw [hsame, normalizeDomain_of_isHostname hline, dropLineFeed_of_isDottedQuad hquad,
      Ipv4.chars_of_ofChars? haddr]
  | domain => rfl

end RadiusModule.DomainAnalyzer
