import RadiusModule.Library.IpNetworks
import RadiusModule.Services.WgPeers.PeerFile

/-!
# Entries of the domain analyzer

Every line that an operator writes is a host name, an address, a network or
nothing that a router can match. A URL stands for its host; what is accepted
is stored in a normal form.
-/

namespace RadiusModule.DomainAnalyzer
open Library PyText WgPeers

inductive Kind
  | domain
  | ip
  | cidr
  | invalid
deriving DecidableEq

def reasonEmpty : String := "السطر فارغ."
def reasonHasWildcard : String := "العلامة النجمية غير مدعومة هنا."
def reasonIpv6Unsupported : String := "العناوين IPv6 غير مدعومة بعد."
def reasonPrivateRfc1918 : String :=
  "هذا العنوان من شبكة محلية خاصة (يحجبه قد يقطع الشبكة الداخلية)."
def reasonBlackholeCidr : String := "حظر 0.0.0.0/0 محظور — يقطع الإنترنت كاملاً."
def reasonBadDomain : String := "ليس عنواناً صالحاً (نطاق/IP/CIDR)."

structure AnalyzedEntry where
  raw : List Char
  kind : Kind
  normalized : List Char := []
  reason : String := ""
  note : String := ""
deriving DecidableEq

structure AnalysisResult where
  accepted : List AnalyzedEntry := []
  rejected : List AnalyzedEntry := []

def isLabelEnd (c : Char) : Bool := 'a' ≤ c && c ≤ 'z' || c.isDigit

/-- `_HOSTNAME_LABEL` -/
def isLabel (cs : List Char) : Bool :=
  cs.head?.any isLabelEnd && cs.getLast?.any isLabelEnd &&
    cs.all (fun c => isLabelEnd c || c = '-') && cs.length ≤ 63

/-- `$` matches before a line feed at the end as well. -/
def dropLineFeed (cs : List Char) : List Char :=
  if cs.getLast? = some '\n' then cs.dropLast else cs

/-- `_HOSTNAME_RE` -/
def isHostname (cs : List Char) : Bool :=
  let labels := splitChars '.' (dropLineFeed cs)
  2 ≤ labels.length && labels.all isLabel

/-- `lower`: beside the letters only the Kelvin sign becomes a character of a host name. -/
def lowerChar (c : Char) : Char := if c = Char.ofNat 0x212a then 'k' else c.toLower

/-- `rstrip(".")` -/
def rstripDots (cs : List Char) : List Char := cs.rdropWhile (· = '.')

def normalizeDomain (host : List Char) : List Char :=
  rstripDots ((stripChars host).map lowerChar)

/-- `re.IGNORECASE`, of a character of the scheme; the long s counts as an s. -/
def ignoringCase (p c : Char) : Bool := c.toLower = p || p = 's' && c = Char.ofNat 0x17f

def afterWord? : List Char → List Char → Option (List Char)
  | [], cs => some cs
  | _ :: _, [] => none
  | p :: ps, c :: cs => if ignoringCase p c then afterWord? ps cs else none

def schemes : List (List Char) := ["https".toList, "http".toList, "ftp".toList]

def isHostChar (c : Char) : Bool := c ≠ '/' && c ≠ ':' && c ≠ '?' && !isSpace c

def isDecimal (c : Char) : Bool := (digit? c).isSome

/-- `(?::\d+)?` -/
def afterPort : List Char → List Char
  | ':' :: cs => if cs.head?.any isDecimal then cs.dropWhile isDecimal else ':' :: cs
  | cs => cs

def endsUrl : List Char → Bool
  | '/' :: cs => cs.dropWhile (· ≠ '\n') = [] || cs.dropWhile (· ≠ '\n') = ['\n']
  | cs => cs = [] || cs = ['\n']

def urlHost? (line : List Char) : Option (List Char) := do
  let rest ← schemes.findSome? fun scheme => afterWord? (scheme ++ "://".toList) line
  let host := rest.takeWhile isHostChar
  if host ≠ [] ∧ endsUrl (afterPort (rest.dropWhile isHostChar)) then some host else none

theorem afterWord?_eq_some {ps cs rest : List Char} : afterWord? ps cs = some rest ↔
    ∃ word, List.Forall₂ (fun p c => ignoringCase p c = true) ps word ∧ cs = word ++ rest := by
  induction ps generalizing cs with
  | nil =>
    rw [afterWord?, Option.some.injEq]
    constructor
    · rintro rfl
      exact ⟨[], .nil, rfl⟩
    · rintro ⟨word, hword, rfl⟩
      rw [List.forall₂_nil_left_iff.mp hword, List.nil_append]
  | cons p ps ih =>
    cases cs with
    | nil =>
      constructor
      · intro h
        cases h
      · rintro ⟨word, hword, hcs⟩
        rw [(List.append_eq_nil_iff.mp hcs.symm).1] at hword
        cases hword
    | cons c cs =>
      rw [afterWord?, Option.ite_none_right_eq_some, ih]
      constructor
      · rintro ⟨hc, word, hword, rfl⟩
        exact ⟨c :: word, .cons hc hword, rfl⟩
      · rintro ⟨word, hword, hcs⟩
        cases hword with
        | cons hc hword =>
          obtain ⟨rfl, rfl⟩ := List.cons.inj hcs
          exact ⟨hc, _, hword, rfl⟩

theorem urlHost?_eq_some {line host : List Char} (h : urlHost? line = some host) :
    ∃ scheme ∈ schemes, ∃ rest, afterWord? (scheme ++ "://".toList) line = some rest ∧
      host = rest.takeWhile isHostChar ∧ host ≠ [] := by
  simp only [urlHost?, Option.bind_eq_bind, Option.bind_eq_some_iff,
    Option.ite_none_right_eq_some] at h
  obtain ⟨rest, hrest, ⟨hne, -⟩, hhost⟩ := h
  obtain rfl := Option.some.inj hhost
  obtain ⟨scheme, hscheme, hword⟩ := List.exists_of_findSome?_eq_some hrest
  exact ⟨scheme, hscheme, rest, hword, rfl, hne⟩

theorem length_urlHost? {line host : List Char} (h : urlHost? line = some host) :
    host.length < line.length := by
  obtain ⟨scheme, -, rest, hrest, rfl, -⟩ := urlHost?_eq_some h
  obtain ⟨word, hword, rfl⟩ := afterWord?_eq_some.mp hrest
  have hlength := hword.length_eq
  have htake := (List.takeWhile_sublist isHostChar (l := rest)).length_le
  rw [List.length_append, show "://".toList.length = 3 from rfl] at hlength
  rw [List.length_append]
  omega

def block (w x y z : ℕ) (p : Fin 33) : Ipv4Network := .around (.ofOctets w x y z) p

/-- `_private_networks`, of the networks that are not for the public internet. -/
def privateNetworks : List Ipv4Network :=
  [block 0 0 0 0 8, block 10 0 0 0 8, block 127 0 0 0 8, block 169 254 0 0 16, block 172 16 0 0 12,
    block 192 0 0 0 24, block 192 0 0 170 31, block 192 0 2 0 24, block 192 168 0 0 16,
    block 198 18 0 0 15, block 198 51 100 0 24, block 203 0 113 0 24, block 240 0 0 0 4,
    block 255 255 255 255 32]

def privateNetworksExceptions : List Ipv4Network := [block 192 0 0 9 32, block 192 0 0 10 32]

def isPrivate (a : Ipv4) : Bool :=
  privateNetworks.any (fun net => net.Contains a) &&
    privateNetworksExceptions.all (fun net => ¬net.Contains a)

def isLoopback (a : Ipv4) : Bool := (block 127 0 0 0 8).Contains a
def isLinkLocal (a : Ipv4) : Bool := (block 169 254 0 0 16).Contains a
def isMulticast (a : Ipv4) : Bool := (block 224 0 0 0 4).Contains a
def isUnspecified (a : Ipv4) : Bool := a = 0
def isReserved (a : Ipv4) : Bool := (block 240 0 0 0 4).Contains a

def isGlobal (a : Ipv4) : Bool := ¬(block 100 64 0 0 10).Contains a && !isPrivate a

def isPrivateIp (a : Ipv4) : Bool :=
  isPrivate a || isLoopback a || isLinkLocal a || isMulticast a || isUnspecified a ||
    isReserved a || !isGlobal a

def stripInlineComment (line : List Char) : List Char := line.takeWhile (· ≠ '#')

def cleanLine (raw : List Char) : List Char := stripChars (stripInlineComment raw)

def refused (raw : List Char) (reason : String) : AnalyzedEntry := { raw, kind := .invalid, reason }

/-- A colon, and more than decimal digits beside it; a text with other digit signs is no address of
version 6 either. -/
def mayBeIpv6 (line : List Char) : Bool :=
  line.contains ':' &&
    let others := line.filter (· ≠ ':')
    others = [] || others.any (!isDecimal ·)

/-- The end of `_classify_one`, for a text that is no URL. -/
def classifyHost (raw line : List Char) : AnalyzedEntry :=
  if line.any (fun c => c = '*' || c = '?') then refused raw reasonHasWildcard
  else if mayBeIpv6 line && Ipv6.isAddress line then refused raw reasonIpv6Unsupported
  else if '/' ∈ line then
    match Ipv4Network.ofChars? line with
    | none => refused raw reasonBadDomain
    | some net =>
      if net.prefixLen = 0 then refused raw reasonBlackholeCidr
      else if isPrivateIp net.networkAddress then refused raw reasonPrivateRfc1918
      else { raw, kind := .cidr, normalized := net.chars }
  else
    match Ipv4.ofChars? line with
    | some addr =>
      if isPrivateIp addr then refused raw reasonPrivateRfc1918
      else { raw, kind := .ip, normalized := addr.chars }
    | none =>
      let lower := rstripDots (line.map lowerChar)
      if isHostname lower then { raw, kind := .domain, normalized := normalizeDomain lower }
      else refused raw reasonBadDomain

theorem length_cleanLine (raw : List Char) : (cleanLine raw).length ≤ raw.length :=
  (stripChars_sublist _).length_le.trans (List.takeWhile_sublist _).length_le

def classifyOne (raw : List Char) : AnalyzedEntry :=
  if cleanLine raw = [] then refused raw reasonEmpty
  else
    match _hhost : urlHost? (cleanLine raw) with
    | some host =>
      let inner := classifyOne host
      if inner.kind ≠ .invalid then
        { raw, kind := inner.kind, normalized := inner.normalized, note := "stripped scheme" }
      else refused raw (if inner.reason = "" then reasonBadDomain else inner.reason)
    | none => classifyHost raw (cleanLine raw)
termination_by raw.length
decreasing_by exact (length_urlHost? _hhost).trans_le (length_cleanLine raw)

def analyzeLine (result : AnalysisResult) (line : List Char) : AnalysisResult :=
  if stripChars line = [] then result
  else
    let entry := classifyOne line
    if entry.kind = .invalid then { result with rejected := result.rejected ++ [entry] }
    else { result with accepted := result.accepted ++ [entry] }

def analyzeLines (lines : List (List Char)) : AnalysisResult := lines.foldl analyzeLine {}

def analyzeText (text : List Char) : AnalysisResult := analyzeLines (splitLines text)

end RadiusModule.DomainAnalyzer
