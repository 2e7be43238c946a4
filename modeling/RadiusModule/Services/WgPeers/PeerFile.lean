import RadiusModule.Library.Dict
import RadiusModule.Library.Ipv4Text

/-!
# Peer files

A router's name becomes the stem of its file, and is written into the file as
well, in a comment. What a file says is read from its lines; a later line for
a key wins over an earlier one.
-/

namespace RadiusModule.WgPeers
open Library PyText

def isLatin (c : Char) : Bool := 'a' ≤ c && c ≤ 'z' || 'A' ≤ c && c ≤ 'Z'

def isNameChar (c : Char) : Bool := isLatin c || c.isDigit || c = '.' || c = '_' || c = '-'

/-- `re.sub(r"\s+", "-", …)` -/
def hyphenate (inSpace : Bool) : List Char → List Char
  | [] => []
  | c :: cs =>
    if isSpace c then if inSpace then hyphenate true cs else '-' :: hyphenate true cs
    else c :: hyphenate false cs

def isEdge (c : Char) : Bool := c = '-' || c = '.' || c = '_'

def cleaned (name : String) : List Char :=
  let cs := (hyphenate false (stripChars name.toList)).filter isNameChar
  ((cs.dropWhile isEdge).reverse.dropWhile isEdge).reverse

/-- `secrets.token_hex(3)` -/
abbrev Token := { cs : List Char // cs.length = 6 ∧ ∀ c ∈ cs, c ∈ "0123456789abcdef".toList }

def hasLatin (name : String) : Bool := (cleaned name).any isLatin

/-- `_PEER_NAME_RE` -/
def isPeerName (cs : List Char) : Bool :=
  cs.head?.any (fun c => isLatin c || c.isDigit) && cs.length ≤ 64 && cs.all isNameChar

/-- `_slugify_router_name`; without a Latin letter the stem is drawn. -/
def slugify (token : Token) (name : String) : Option (List Char) :=
  if strip name = "" then none
  else
    let slug := if hasLatin name then cleaned name else "nas-".toList ++ token.val
    if isPeerName slug then some slug else none

def lineBreaks : List ℕ := [10, 11, 12, 13, 28, 29, 30, 133, 8232, 8233]

def isBreak (c : Char) : Bool := lineBreaks.contains c.toNat

/-- The lines from a character on, after a part of the first; `cr` tells that a carriage return
has ended the one before. -/
def linesFrom (cr : Bool) (line : List Char) : List Char → List (List Char)
  | [] => if line = [] then [] else [line]
  | c :: cs =>
    if cr && c = '\n' then linesFrom false [] cs
    else if isBreak c then line :: linesFrom (c = '\r') [] cs
    else linesFrom false (line ++ [c]) cs

def splitLines (cs : List Char) : List (List Char) := linesFrom false [] cs

/-- `_FIELD_RE`, of a line that is neither a comment nor a header. -/
def fieldOf (raw : List Char) : Option (List Char × List Char) :=
  let line := stripChars raw
  if line.head?.all fun c => c = '#' || c = '[' then none
  else
    match (line.dropWhile isLatin).dropWhile isSpace with
    | '=' :: rest =>
      let key := line.takeWhile isLatin
      let value := rest.dropWhile isSpace
      if key = [] ∨ value = [] then none else some (key, value)
    | _ => none

/-- The fields of a file; its path and name are left out. -/
abbrev PeerFields := Dict (List Char) (List Char)

def parsePeerFile (text : List Char) : PeerFields :=
  Dict.ofPairs ((splitLines text).filterMap fieldOf)

/-- The address that `_used_ips_from_peers` takes from a file: the first that stands alone. -/
def usedIp (fields : PeerFields) : Option Ipv4 :=
  (splitChars ',' (stripChars ((fields.get? "AllowedIPs".toList).getD []))).findSome? fun piece =>
    Ipv4.single? (stripChars piece)

abbrev PublicKey := { cs : List Char //
  cs.length = 44 ∧ ∀ c ∈ cs, isLatin c || c.isDigit || c = '+' || c = '/' || c = '=' }

def allowedIps (ip : Ipv4) : List Char := ip.chars ++ "/32".toList

def renderPeerBlock (routerName : String) (publicKey : PublicKey) (allowedIp : Ipv4)
    (keepaliveSec : ℤ) : List Char :=
  "[Peer]\n# HobeRadius — auto-provisioned for router: ".toList ++ routerName.toList ++ ['\n'] ++
    "PublicKey = ".toList ++ publicKey.val ++ ['\n'] ++
    "AllowedIPs = ".toList ++ allowedIps allowedIp ++ ['\n'] ++
    "PersistentKeepalive = ".toList ++ (toString keepaliveSec).toList ++ ['\n']

theorem linesFrom_append (cr : Bool) (line xs ys : List Char) :
    ∃ before, linesFrom cr line (xs ++ '\n' :: ys) = before ++ splitLines ys := by
  induction xs generalizing cr line with
  | nil =>
    simp only [List.nil_append, linesFrom]
    split_ifs with hcr hbreak
    · exact ⟨[], rfl⟩
    · exact ⟨[line], rfl⟩
    · exact absurd (by decide) hbreak
  | cons c xs ih =>
    simp only [List.cons_append, linesFrom]
    split_ifs
    · exact ih _ _
    · obtain ⟨before, hlines⟩ := ih (c = '\r') []
      exact ⟨line :: before, by rw [hlines, List.cons_append]⟩
    · exact ih _ _

theorem linesFrom_line {w : List Char} (hw : ∀ c ∈ w, isBreak c = false) (line ys : List Char) :
    linesFrom false line (w ++ '\n' :: ys) = (line ++ w) :: splitLines ys := by
  induction w generalizing line with
  | nil =>
    simp only [List.nil_append, linesFrom, Bool.false_and, Bool.false_eq_true, if_false,
      show isBreak '\n' = true by decide, if_true, List.append_nil]
    rfl
  | cons c w ih =>
    have hc := hw c List.mem_cons_self
    simp only [List.cons_append, linesFrom, Bool.false_and, hc, Bool.false_eq_true, if_false]
    rw [ih (fun d hd => hw d (List.mem_cons_of_mem c hd)), List.append_assoc, List.singleton_append]

theorem noBreak_of_mem_splitLines {cs line : List Char} (h : line ∈ splitLines cs) :
    ∀ c ∈ line, isBreak c = false := by
  have hfrom : ∀ (cs : List Char) (cr : Bool) (start : List Char),
      (∀ c ∈ start, isBreak c = false) → line ∈ linesFrom cr start cs →
        ∀ c ∈ line, isBreak c = false := by
    intro cs
    induction cs with
    | nil =>
      intro cr start hstart hmem
      simp only [linesFrom] at hmem
      split_ifs at hmem
      · cases hmem
      · rwa [List.mem_singleton.mp hmem]
    | cons c cs ih =>
      intro cr start hstart hmem
      simp only [linesFrom] at hmem
      split_ifs at hmem with hcr hbreak
      · exact ih _ _ (by simp) hmem
      · rcases List.mem_cons.mp hmem with rfl | hmem
        · exact hstart
        · exact ih _ _ (by simp) hmem
      · refine ih _ _ ?_ hmem
        simpa [or_imp, forall_and] using ⟨hstart, Bool.eq_false_iff.mpr hbreak⟩
  exact hfrom cs false [] (by simp) h

theorem isSpace_of_isBreak {c : Char} (h : isBreak c = true) : isSpace c = true := by
  have hall : ∀ n ∈ lineBreaks, spaces.contains n = true := by decide
  exact hall _ (List.contains_iff_mem.mp h)

theorem isSpace_of_isLatin {c : Char} (h : isLatin c = true) : isSpace c = false := by
  simp only [isLatin, Bool.or_eq_true, Bool.and_eq_true, decide_eq_true_eq, Char.le_def,
    UInt32.le_iff_toNat_le] at h
  have hrange : 65 ≤ c.toNat ∧ c.toNat ≤ 122 := by
    change (97 ≤ c.toNat ∧ c.toNat ≤ 122) ∨ (65 ≤ c.toNat ∧ c.toNat ≤ 90) at h
    omega
  have hall : ∀ n ∈ List.range' 65 58, spaces.contains n = false := by decide
  exact hall _ (List.mem_range'_1.mpr ⟨hrange.1, by omega⟩)

theorem stripChars_of_ends {c d : Char} {cs : List Char} (hc : isSpace c = false)
    (hd : isSpace d = false) : stripChars (c :: (cs ++ [d])) = c :: (cs ++ [d]) := by
  have hback : (c :: (cs ++ [d])).reverse = d :: (c :: cs).reverse := by simp
  rw [stripChars, List.dropWhile_cons_of_neg (by simp [hc]), hback,
    List.dropWhile_cons_of_neg (by simp [hd])]
  simp

structure Field (key value : List Char) : Prop where
  key_ne : key ≠ []
  latin : ∀ c ∈ key, isLatin c = true
  value_ne : value ≠ []
  noSpace : ∀ c ∈ value, isSpace c = false

def fieldLine (key value : List Char) : List Char := key ++ ' ' :: '=' :: ' ' :: value

theorem fieldOf_fieldLine {key value : List Char} (h : Field key value) :
    fieldOf (fieldLine key value) = some (key, value) := by
  obtain ⟨k, ks, rfl⟩ := List.exists_cons_of_ne_nil h.key_ne
  obtain hnil | ⟨vs, v, hlast⟩ := List.eq_nil_or_concat value
  · exact absurd hnil h.value_ne
  have hk := h.latin k List.mem_cons_self
  have hv : isSpace v = false := h.noSpace v (by simp [hlast])
  have hline : fieldLine (k :: ks) value = k :: ((ks ++ ' ' :: '=' :: ' ' :: vs) ++ [v]) := by
    simp [fieldLine, hlast]
  have hstrip : stripChars (fieldLine (k :: ks) value) = fieldLine (k :: ks) value := by
    rw [hline, stripChars_of_ends (isSpace_of_isLatin hk) hv]
  have hhead : (fieldLine (k :: ks) value).head?.all (fun c => c = '#' || c = '[') = false := by
    have hhash : k ≠ '#' := by
      rintro rfl
      exact absurd hk (by decide)
    have hbracket : k ≠ '[' := by
      rintro rfl
      exact absurd hk (by decide)
    simp [fieldLine, hhash, hbracket]
  have htake : (fieldLine (k :: ks) value).takeWhile isLatin = k :: ks := by
    rw [fieldLine, List.takeWhile_append_of_pos h.latin, List.takeWhile_cons_of_neg (by decide),
      List.append_nil]
  have hdrop : (fieldLine (k :: ks) value).dropWhile isLatin = ' ' :: '=' :: ' ' :: value := by
    rw [fieldLine, List.dropWhile_append_of_pos h.latin, List.dropWhile_cons_of_neg (by decide)]
  have hrest : (' ' :: value).dropWhile isSpace = value := by
    rw [List.dropWhile_cons_of_pos (by decide)]
    obtain ⟨c, cs, rfl⟩ := List.exists_cons_of_ne_nil h.value_ne
    exact List.dropWhile_cons_of_neg (by simp [h.noSpace c List.mem_cons_self])
  simp only [fieldOf, hstrip, hhead, Bool.false_eq_true, if_false, hdrop, htake]
  rw [List.dropWhile_cons_of_pos (by decide), List.dropWhile_cons_of_neg (by decide)]
  simp only [hrest, h.value_ne, h.key_ne, or_self, if_false]

theorem fields_append {key value : List Char} (h : Field key value) (ys : List Char) :
    (splitLines (fieldLine key value ++ '\n' :: ys)).filterMap fieldOf =
      (key, value) :: (splitLines ys).filterMap fieldOf := by
  have hbreak : ∀ c ∈ fieldLine key value, isBreak c = false := by
    have hspace : ∀ c, isSpace c = false → isBreak c = false := fun c hc =>
      Bool.eq_false_iff.mpr fun hbreak => by simp [isSpace_of_isBreak hbreak] at hc
    intro c hc
    simp only [fieldLine, List.mem_append, List.mem_cons] at hc
    obtain hc | rfl | rfl | rfl | hc := hc
    · exact hspace c (isSpace_of_isLatin (h.latin c hc))
    · decide
    · decide
    · decide
    · exact hspace c (h.noSpace c hc)
  rw [splitLines, linesFrom_line hbreak, List.nil_append,
    List.filterMap_cons_some (fieldOf_fieldLine h)]

theorem publicKey_noSpace (publicKey : PublicKey) : ∀ c ∈ publicKey.val, isSpace c = false := by
  intro c hc
  have hclass := publicKey.property.2 c hc
  simp only [Bool.or_eq_true, decide_eq_true_eq] at hclass
  obtain (((hlatin | hdigit) | rfl) | rfl) | rfl := hclass
  · exact isSpace_of_isLatin hlatin
  · exact isSpace_of_isDigit hdigit
  · decide
  · decide
  · decide

theorem allowedIps_chars {ip : Ipv4} {c : Char} (hc : c ∈ allowedIps ip) :
    c.isDigit = true ∨ c = '.' ∨ c = '/' := by
  have hdigits : ∀ n, c ∈ Nat.toDigits 10 n → c.isDigit = true := fun n h =>
    Nat.isDigit_of_mem_toDigits (by decide) (by decide) h
  have hmask : ∀ c ∈ "/32".toList, c.isDigit = true ∨ c = '.' ∨ c = '/' := by decide
  rcases List.mem_append.mp hc with hc | hc
  · simp only [Ipv4.chars, Ipv4.octets, List.intercalate, List.map_cons, List.map_nil,
      List.intersperse_cons_cons, List.intersperse_singleton, List.flatten_cons, List.flatten_nil,
      List.append_nil, List.mem_append, List.mem_singleton] at hc
    obtain h | h | h | h | h | h | h := hc
    · exact .inl (hdigits _ h)
    · exact .inr (.inl h)
    · exact .inl (hdigits _ h)
    · exact .inr (.inl h)
    · exact .inl (hdigits _ h)
    · exact .inr (.inl h)
    · exact .inl (hdigits _ h)
  · exact hmask c hc

theorem allowedIps_noSpace (ip : Ipv4) : ∀ c ∈ allowedIps ip, isSpace c = false := by
  intro c hc
  obtain hdigit | rfl | rfl := allowedIps_chars hc
  · exact isSpace_of_isDigit hdigit
  · decide
  · decide

theorem usedIp_of_allowedIps {fields : PeerFields} {ip : Ipv4}
    (h : fields.get? "AllowedIPs".toList = some (allowedIps ip)) : usedIp fields = some ip := by
  have hcomma : ',' ∉ allowedIps ip := fun hc => by
    obtain h | h | h := allowedIps_chars hc
    · exact absurd h (by decide)
    · exact absurd h (by decide)
    · exact absurd h (by decide)
  have hstrip := stripChars_of_noSpace (allowedIps_noSpace ip)
  rw [usedIp, h, Option.getD_some, hstrip, splitChars_of_not_mem hcomma,
    List.findSome?_singleton, hstrip, allowedIps, Ipv4.single?_chars]

theorem toString_noSpace (z : ℤ) : ∀ c ∈ (toString z).toList, isSpace c = false := by
  intro c hc
  obtain hdigit | rfl := mem_toString hc
  · exact isSpace_of_isDigit hdigit
  · decide

theorem toString_ne_nil (z : ℤ) : (toString z).toList ≠ [] := by
  cases z with
  | ofNat n =>
    rw [show toString (Int.ofNat n) = toString n from rfl, toList_toString_nat]
    exact Nat.toDigits_ne_nil
  | negSucc n =>
    rw [toList_toString_neg]
    exact List.cons_ne_nil _ _

theorem fields_of_lines (comment : List Char) {k₁ v₁ k₂ v₂ k₃ v₃ : List Char} (h₁ : Field k₁ v₁)
    (h₂ : Field k₂ v₂) (h₃ : Field k₃ v₃) : ∃ before,
    parsePeerFile (comment ++ '\n' :: (fieldLine k₁ v₁ ++ '\n' :: (fieldLine k₂ v₂ ++
      '\n' :: (fieldLine k₃ v₃ ++ ['\n'])))) =
        ((Dict.put before k₁ v₁).put k₂ v₂).put k₃ v₃ := by
  obtain ⟨before, hlines⟩ := linesFrom_append false [] comment (fieldLine k₁ v₁ ++ '\n' ::
    (fieldLine k₂ v₂ ++ '\n' :: (fieldLine k₃ v₃ ++ ['\n'])))
  refine ⟨Dict.ofPairs (before.filterMap fieldOf), ?_⟩
  rw [parsePeerFile, splitLines, hlines, List.filterMap_append, fields_append h₁,
    fields_append h₂, fields_append h₃]
  simp only [Dict.ofPairs, List.foldl_append, List.foldl_cons]
  rfl

theorem lines_append (header name k₁ v₁ k₂ v₂ k₃ v₃ : List Char) :
    header ++ name ++ ['\n'] ++ (k₁ ++ [' ', '=', ' ']) ++ v₁ ++ ['\n'] ++
        (k₂ ++ [' ', '=', ' ']) ++ v₂ ++ ['\n'] ++ (k₃ ++ [' ', '=', ' ']) ++ v₃ ++ ['\n'] =
      (header ++ name) ++ '\n' :: (fieldLine k₁ v₁ ++ '\n' :: (fieldLine k₂ v₂ ++
        '\n' :: (fieldLine k₃ v₃ ++ ['\n']))) := by
  simp [fieldLine]

theorem keys_written :
    "PublicKey = ".toList = "PublicKey".toList ++ [' ', '=', ' '] ∧
      "AllowedIPs = ".toList = "AllowedIPs".toList ++ [' ', '=', ' '] ∧
      "PersistentKeepalive = ".toList = "PersistentKeepalive".toList ++ [' ', '=', ' '] := by
  decide

theorem renderPeerBlock_lines (routerName : String) (publicKey : PublicKey) (ip : Ipv4)
    (keepaliveSec : ℤ) : renderPeerBlock routerName publicKey ip keepaliveSec =
      ("[Peer]\n# HobeRadius — auto-provisioned for router: ".toList ++ routerName.toList) ++
        '\n' :: (fieldLine "PublicKey".toList publicKey.val ++
        '\n' :: (fieldLine "AllowedIPs".toList (allowedIps ip) ++
        '\n' :: (fieldLine "PersistentKeepalive".toList (toString keepaliveSec).toList ++
        ['\n']))) := by
  obtain ⟨hkeyText, hipsText, hnumberText⟩ := keys_written
  unfold renderPeerBlock
  rewrite [hkeyText, hipsText, hnumberText]
  exact lines_append _ _ _ _ _ _ _ _

theorem parsePeerFile_render (routerName : String) (publicKey : PublicKey) (ip : Ipv4)
    (keepaliveSec : ℤ) :
    let fields := parsePeerFile (renderPeerBlock routerName publicKey ip keepaliveSec)
    fields.get? "PublicKey".toList = some publicKey.val ∧
      fields.get? "AllowedIPs".toList = some (allowedIps ip) ∧ usedIp fields = some ip := by
  intro fields
  have hkey : Field "PublicKey".toList publicKey.val :=
    ⟨by decide, by decide, fun h => by simpa [h] using publicKey.property.1,
      publicKey_noSpace publicKey⟩
  have hips : Field "AllowedIPs".toList (allowedIps ip) :=
    ⟨by decide, by decide, by simp [allowedIps], allowedIps_noSpace ip⟩
  have hnumber : Field "PersistentKeepalive".toList (toString keepaliveSec).toList :=
    ⟨by decide, by decide, toString_ne_nil keepaliveSec, toString_noSpace keepaliveSec⟩
  obtain ⟨before, hfields⟩ := fields_of_lines
    ("[Peer]\n# HobeRadius — auto-provisioned for router: ".toList ++ routerName.toList)
    hkey hips hnumber
  have hget : fields.get? "AllowedIPs".toList = some (allowedIps ip) := by
    simp only [fields, renderPeerBlock_lines, hfields]
    rw [Dict.get?_put, if_neg (by decide), Dict.get?_put, if_pos rfl]
  refine ⟨?_, hget, usedIp_of_allowedIps hget⟩
  simp only [fields, renderPeerBlock_lines, hfields]
  rw [Dict.get?_put, if_neg (by decide), Dict.get?_put, if_neg (by decide), Dict.get?_put,
    if_pos rfl]

end RadiusModule.WgPeers
