import RadiusModule.Library.Chain
import RadiusModule.Library.NumberText
import RadiusModule.Library.Utf8
import RadiusModule.Services.RadiusAuthServer
import Mathlib.Data.List.DropRight

/-!
# The password attribute of an access request

`_decrypt_user_password` takes the pads off the blocks and the padding off the
end. What a client hides as RFC 2865, 5.2 prescribes is read back. The server
lets in who knows the password of an account, and signs what it answers.
-/

namespace RadiusModule.RadiusAuthServer

open Library

section Hiding

variable (md5 : Bytes → Digest)

/-- The loop of `_decrypt_user_password` from index `i`. -/
def decryptFrom (enc secret : Bytes) (i : ℕ) (prev result : Bytes) : Bytes :=
  if i < enc.length then
    let block := Struct.slice enc i (i + 16)
    let pad := (md5 (secret ++ prev)).1
    decryptFrom enc secret (i + 16) block (result ++ List.zipWith (· ^^^ ·) block pad)
  else result
termination_by enc.length - i

def decryptUserPassword (enc requestAuth secret : Bytes) : String :=
  Utf8.decode ((decryptFrom md5 enc secret 0 requestAuth []).rdropWhile (· = 0))

/-- What a client sends: each block with the digest of the secret and the block before, the
first one with that of the request authenticator. -/
def hiddenPassword (plain requestAuth secret : Bytes) : Bytes :=
  Chain.hide 16 (fun prev => (md5 (secret ++ prev)).1) (by decide) requestAuth plain

def padded (password : String) (zeros : ℕ) : Bytes :=
  Utf8.encode password ++ List.replicate zeros 0

variable {md5}

theorem decryptFrom_eq (enc secret : Bytes) (i : ℕ) (prev result : Bytes) :
    decryptFrom md5 enc secret i prev result =
      result ++ Chain.reveal 16 (fun prev => (md5 (secret ++ prev)).1) (by decide) prev
        (enc.drop i) := by
  induction hn : enc.length - i using Nat.strong_induction_on generalizing i prev result with
  | h n ih =>
    rw [decryptFrom, Chain.reveal]
    by_cases hmore : i < enc.length
    · have hne : enc.drop i ≠ [] := by
        intro hnil
        rw [List.drop_eq_nil_iff] at hnil
        omega
      rw [if_pos hmore, if_neg hne, ih (enc.length - (i + 16)) (by omega) _ _ _ rfl, Struct.slice_eq,
        Nat.add_sub_cancel_left, List.drop_drop, List.append_assoc]
      rfl
    · rw [if_neg hmore, if_pos (List.drop_of_length_le (not_lt.mp hmore)), List.append_nil]

theorem rdropWhile_padded {bytes : Bytes} (h : bytes.getLast? ≠ some 0) (zeros : ℕ) :
    (bytes ++ List.replicate zeros 0).rdropWhile (· = 0) = bytes := by
  induction zeros with
  | zero =>
    rw [List.replicate_zero, List.append_nil, List.rdropWhile_eq_self_iff]
    intro hne hlast
    rw [List.getLast?_eq_getLast_of_ne_nil hne, of_decide_eq_true hlast] at h
    exact h rfl
  | succ zeros ih =>
    rw [List.replicate_succ', ← List.append_assoc, List.rdropWhile_concat_pos _ _ _ rfl, ih]

theorem decryptUserPassword_eq (enc requestAuth secret : Bytes) :
    decryptUserPassword md5 enc requestAuth secret =
      Utf8.decode ((Chain.reveal 16 (fun prev => (md5 (secret ++ prev)).1) (by decide) requestAuth
        enc).rdropWhile (· = 0)) := by
  rw [decryptUserPassword, decryptFrom_eq, List.drop_zero, List.nil_append]

end Hiding

/-- A password that does not end in a zero is read back from its hidden form, whatever the digest
and however many zeros pad it. A text of any other length is read too, each byte as one. -/
theorem hidden_password_reads (md5 : Bytes → Digest) (requestAuth secret : Bytes) :
    (∀ password : String, password.toList.getLast? ≠ some '\x00' → ∀ zeros,
      decryptUserPassword md5 (hiddenPassword md5 (padded password zeros) requestAuth secret)
        requestAuth secret = password) ∧
      ∀ enc : Bytes, ∃ plain : Bytes, plain.length = enc.length ∧
        decryptUserPassword md5 enc requestAuth secret =
          Utf8.decode (plain.rdropWhile (· = 0)) := by
  refine ⟨fun password hlast zeros => ?_, fun enc => ⟨_, ?_, decryptUserPassword_eq enc _ _⟩⟩
  · rw [decryptUserPassword_eq, hiddenPassword,
      Chain.reveal_hide _ (fun prev => (md5 (secret ++ prev)).2), padded,
      rdropWhile_padded (Utf8.getLast?_encode_ne_zero hlast), Utf8.decode_encode]
  · exact Chain.length_reveal _ (fun prev => (md5 (secret ++ prev)).2) _ _

def firstBytes (text : Bytes) : Digest :=
  ⟨(text ++ List.replicate 16 85).take 16, by
    rw [List.length_take, List.length_append, List.length_replicate]
    omega⟩

theorem hidden_password_reads_long :
    decryptUserPassword firstBytes (hiddenPassword firstBytes (padded "correct horse battery" 11)
      (List.replicate 16 3) [115, 51]) (List.replicate 16 3) [115, 51] = "correct horse battery" :=
  (hidden_password_reads firstBytes (List.replicate 16 3) [115, 51]).1 _ (by decide) 11

def accessRequest : ℕ := 1
def accessAccept : ℕ := 2
def accessReject : ℕ := 3
def accountingRequest : ℕ := 4
def accountingResponse : ℕ := 5
def attrUserName : ℕ := 1
def attrUserPassword : ℕ := 2
def attrSessionTimeout : ℕ := 27
def attrReplyMessage : ℕ := 18
def attrMsChapChallenge : ℕ := 60
def vendorMikrotik : ℕ := 14988
def mtRateLimit : ℕ := 8
def vendorMicrosoft : ℕ := 311
def msChap2Response : ℕ := 25

/-- A row of `vpn_account` with that of its allocation. -/
structure VpnAccount where
  tenantId : ℤ
  username : String
  active : Bool
  /-- What `_decrypt` gives, empty where the stored text cannot be read. -/
  password : String
  allocationActive : Bool
  speedLimitMbps : Option ℤ := none
  allocSpeedMbps : Option ℤ := none
  bounded : ∀ n, speedLimitMbps = some n ∨ allocSpeedMbps = some n → n.natAbs ≤ 2 ^ 63

/-- The digests are those of `hashlib` and of the cipher that `_desl` uses; `lower` is that of a
`str`. -/
structure Server where
  lower : String → String
  md5 : Bytes → Digest
  ntHash : String → Bytes
  challengeHash : Bytes → Bytes → String → Bytes
  desl : Bytes → Bytes → Bytes
  secret : Bytes
  tenantId : ℤ
  accounts : List VpnAccount

inductive Raised
  | packing (e : Struct.Error)
  /-- `hmac.compare_digest` of texts that are not ASCII. -/
  | notAscii

def getAttr (attrs : List (ℕ × Bytes)) (t : ℕ) : Option Bytes :=
  (attrs.find? fun a => a.1 = t).map Prod.snd

def getStr (attrs : List (ℕ × Bytes)) (t : ℕ) : String :=
  match getAttr attrs t with
  | some v => if v = [] then "" else Utf8.decode v
  | none => ""

def getMsVendorAttr (attrs : List (ℕ × Bytes)) (msType : ℕ) : Option Bytes :=
  (attrs.find? fun a => a.1 = attrVendorSpecific && decide (6 ≤ a.2.length) &&
    decide (Wire.ofBigEndian (a.2.take 4) = vendorMicrosoft) &&
    (a.2[4]?.any fun b => b.toNat = msType)).map fun a => a.2.drop 6

def isAscii (s : String) : Bool := s.toList.all fun c => c.toNat < 128

def compareDigest (a b : String) : Except Raised Bool :=
  if isAscii a && isAscii b then .ok (a = b) else .error .notAscii

namespace Server

variable (s : Server)

def loginName (usernameFull : String) : String :=
  s.lower (String.ofList (usernameFull.toList.takeWhile (· ≠ '@')))

def joined (username : String) : Option VpnAccount :=
  s.accounts.find? fun a =>
    a.tenantId = s.tenantId && a.username = username && a.active && a.allocationActive

def verifyPasswordForRadius (username rawPassword : String) : Except Raised (Option VpnAccount) :=
  match s.joined username with
  | none => .ok none
  | some account =>
    if account.password = "" then .ok none
    else
      (compareDigest account.password rawPassword).map fun same =>
        if same then some account else none

def getDecryptedPassword (username : String) : Option String :=
  ((s.accounts.find? fun a =>
    a.tenantId = s.tenantId && a.username = username && a.active).map VpnAccount.password).filter
      (· ≠ "")

def verifyMsChapv2 (username password : String) (attrs : List (ℕ × Bytes)) : Bool :=
  match getAttr attrs attrMsChapChallenge, getMsVendorAttr attrs msChap2Response with
  | some challenge, some response =>
    if challenge.length < 8 ∨ response.length < 50 then false
    else
      let hashed := s.ntHash password
      if hashed = [] then false
      else
        let expected := s.desl (hashed ++ List.replicate (21 - hashed.length) 0)
          (s.challengeHash (Struct.slice response 2 18) challenge username)
        if expected = [] then false else decide (expected = Struct.slice response 26 50)
  | _, _ => false

/-- `speed_limit_mbps`, or else the speed of the allocation, or else none. -/
def speed (account : Option VpnAccount) : ℤ :=
  match (account.bind VpnAccount.speedLimitMbps).filter (· ≠ 0) with
  | some own => own
  | none => (account.bind VpnAccount.allocSpeedMbps).getD 0

def acceptAttrs (account : Option VpnAccount) : List Attribute :=
  .plain attrSessionTimeout (Wire.bigEndian 4 86400) ::
    if speed account = 0 then []
    else [.vendor vendorMikrotik mtRateLimit
      (Utf8.encode (toString (speed account) ++ "M/" ++ toString (speed account) ++ "M"))]

def rejectAttrs (msg : String) : List Attribute :=
  if msg = "" then [] else [.plain attrReplyMessage ((Utf8.encode msg).take 253)]

def respond (code : ℕ) (request : Packet) (attrs : List Attribute) : Except Raised Bytes :=
  match attrs.mapM Attribute.build >>= buildResponse s.md5 code request.id request.auth s.secret with
  | .ok packet => .ok packet
  | .error e => .error (.packing e)

/-- What `_handle_auth` decides, with the account that an accept is built from. -/
inductive Decision
  | accept (account : Option VpnAccount)
  | reject (msg : String)

def verdict (request : Packet) : Except Raised Decision :=
  let username := s.loginName (getStr request.attrs attrUserName)
  match (getAttr request.attrs attrUserPassword).filter (· ≠ []) with
  | some encPw =>
    (s.verifyPasswordForRadius username (decryptUserPassword s.md5 encPw request.auth s.secret)).map
      fun
        | some account => .accept (some account)
        | none => .reject "Access Denied"
  | none =>
    match (getMsVendorAttr request.attrs msChap2Response).filter (· ≠ []) with
    | some _ =>
      match s.getDecryptedPassword username with
      | some rawPw =>
        if s.verifyMsChapv2 username rawPw request.attrs then .ok (.accept (s.joined username))
        else .ok (.reject "Access Denied")
      | none => .ok (.reject "Access Denied")
    | none => .ok (.reject "No supported auth")

def handleAuth (request : Packet) : Except Raised Bytes :=
  match s.verdict request with
  | .error e => .error e
  | .ok (.accept account) => s.respond accessAccept request (acceptAttrs account)
  | .ok (.reject msg) => s.respond accessReject request (rejectAttrs msg)

def datagramReceived (data : Bytes) : Except Raised (Option Bytes) :=
  match parsePacket data with
  | .error e => .error (.packing e)
  | .ok none => .ok none
  | .ok (some request) =>
    if request.code = accessRequest then (s.handleAuth request).map some
    else if request.code = accountingRequest then
      (s.respond accountingResponse request []).map some
    else .ok none

theorem natAbs_speed_le (account : Option VpnAccount) : (speed account).natAbs ≤ 2 ^ 63 := by
  unfold speed
  cases account with
  | none => decide
  | some a =>
    split
    · rename_i own hown
      exact a.bounded own (.inl (Option.mem_filter_iff.mp hown).1)
    · cases halloc : a.allocSpeedMbps with
      | none => simp [halloc]
      | some n => simpa [halloc] using a.bounded n (.inr halloc)

theorem length_encode_le (text : String) : (Utf8.encode text).length ≤ 4 * text.toList.length := by
  rw [Utf8.encode]
  induction text.toList with
  | nil => exact Nat.zero_le _
  | cons c cs ih =>
    rw [List.flatMap_cons, List.length_append, String.length_utf8EncodeChar, List.length_cons]
    have hsize := c.utf8Size_le_four
    omega

theorem length_toString_le {n : ℤ} (hn : n.natAbs ≤ 2 ^ 63) : (toString n).toList.length ≤ 20 := by
  have hdigits : ∀ m ≤ 2 ^ 63, (toString m).toList.length ≤ 19 := by
    intro m hm
    rw [PyText.toList_toString_nat]
    refine (Nat.length_toDigits_le_iff (by decide) (by decide)).mpr ?_
    omega
  cases n with
  | ofNat m => exact (hdigits m hn).trans (by decide)
  | negSucc m =>
    have hsign : toString (Int.negSucc m) = "-" ++ toString (m + 1) := rfl
    rw [hsign, String.toList_append, List.length_append]
    have hsize := hdigits (m + 1) hn
    have hminus : "-".toList.length = 1 := rfl
    omega

theorem length_rate_le (account : Option VpnAccount) :
    (Utf8.encode (toString (speed account) ++ "M/" ++ toString (speed account) ++ "M")).length ≤
      172 := by
  have hdigits := length_toString_le (natAbs_speed_le account)
  refine (length_encode_le _).trans ?_
  rw [String.toList_append, String.toList_append, String.toList_append, List.length_append,
    List.length_append, List.length_append]
  have hmark : "M/".toList.length = 2 ∧ "M".toList.length = 1 := by decide
  omega

theorem valid_acceptAttrs (account : Option VpnAccount) : ∀ a ∈ acceptAttrs account, a.Valid := by
  intro a ha
  rw [acceptAttrs] at ha
  rcases List.mem_cons.mp ha with rfl | ha
  · decide
  · split_ifs at ha with hspeed
    · cases ha
    · cases List.mem_singleton.mp ha
      have hrate := length_rate_le account
      refine ⟨by decide, by decide, ?_⟩
      rw [vendorValue, Tlv.write, List.length_append, Wire.length_bigEndian, List.length_cons,
        List.length_cons]
      dsimp only
      omega

theorem valid_rejectAttrs (msg : String) : ∀ a ∈ rejectAttrs msg, a.Valid := by
  intro a ha
  rw [rejectAttrs] at ha
  split_ifs at ha
  · cases ha
  · cases List.mem_singleton.mp ha
    exact ⟨by decide, List.length_take_le _ _⟩

theorem length_payload_le {attrs : List Attribute} (hvalid : ∀ a ∈ attrs, a.Valid) :
    (payload (attrs.map Attribute.item)).length ≤ 255 * attrs.length := by
  induction attrs with
  | nil => exact Nat.zero_le _
  | cons a attrs ih =>
    have hrest := ih fun a' ha' => hvalid a' (List.mem_cons_of_mem _ ha')
    have hvalue := (hvalid a List.mem_cons_self).fits.2
    rw [payload] at hrest
    rw [payload, List.map_cons, List.flatMap_cons, List.length_append, Tlv.write, List.length_cons,
      List.length_cons, List.length_cons]
    omega

theorem length_acceptAttrs_le (account : Option VpnAccount) : (acceptAttrs account).length ≤ 2 := by
  rw [acceptAttrs]
  split_ifs <;> simp

theorem length_rejectAttrs_le (msg : String) : (rejectAttrs msg).length ≤ 2 := by
  rw [rejectAttrs]
  split_ifs <;> simp

structure Signed (request : Packet) (code : ℕ) (attrs : List Attribute) (reply : Bytes) : Prop where
  read : ∀ pad, parsePacket (reply ++ pad) = .ok (some
    ⟨code, request.id, Struct.slice reply 4 20, attrs.map Attribute.item⟩)
  signature : Struct.slice reply 4 20 =
    (s.md5 (reply.take 4 ++ request.auth ++ reply.drop 20 ++ s.secret)).1

theorem respond_signed {request : Packet} {code : ℕ} {attrs : List Attribute} (hcode : code < 256)
    (hid : request.id < 256) (hvalid : ∀ a ∈ attrs, a.Valid)
    (hlength : attrs.length ≤ 2) :
    ∃ reply, s.respond code request attrs = .ok reply ∧ s.Signed request code attrs reply := by
  obtain ⟨bytes, hbytes⟩ : ∃ bytes, bytes = payload (attrs.map Attribute.item) := ⟨_, rfl⟩
  have hsize := length_payload_le hvalid
  rw [← hbytes] at hsize
  set digest := s.md5 (header code request.id (20 + bytes.length) ++ request.auth ++ bytes ++
    s.secret) with hdigest
  have hreply : s.respond code request attrs =
      .ok (header code request.id (20 + bytes.length) ++ digest.1 ++ bytes) := by
    rw [respond, mapM_eq_ok fun a ha => (hvalid a ha).build]
    change (match buildResponse _ _ _ _ _ _ with | .ok packet => _ | .error e => _) = _
    rw [buildResponse, responseAuthenticator, flatten_writes, ← hbytes,
      pack_header hcode hid (by omega)]
    rfl
  have hslice : Struct.slice (header code request.id (20 + bytes.length) ++ digest.1 ++ bytes) 4 20 =
      digest.1 := by
    rw [Struct.slice_eq, List.append_assoc, List.drop_left' (length_header _ _ _),
      List.take_left' digest.2]
  refine ⟨_, hreply, fun pad => ?_, ?_⟩
  · have hfits : ∀ i ∈ attrs.map Attribute.item, Tlv.Fits i := by
      intro i hi
      obtain ⟨a, ha, rfl⟩ := List.mem_map.mp hi
      exact (hvalid a ha).fits
    rw [hslice, hbytes]
    exact parsePacket_write hcode hid digest.2 hfits (by rw [← hbytes]; omega)
  · have hdrop : (header code request.id (20 + bytes.length) ++ digest.1 ++ bytes).drop 20 = bytes :=
      List.drop_left' (by rw [List.length_append, length_header, digest.2])
    have htake : (header code request.id (20 + bytes.length) ++ digest.1 ++ bytes).take 4 =
        header code request.id (20 + bytes.length) := by
      rw [List.append_assoc]
      exact List.take_left' (length_header _ _ _)
    rw [hslice, hdrop, htake, hdigest]

theorem handleAuth_accept {request : Packet} {account : Option VpnAccount} (hid : request.id < 256)
    (hverdict : s.verdict request = .ok (.accept account)) :
    ∃ reply, s.handleAuth request = .ok reply ∧
      s.Signed request accessAccept (acceptAttrs account) reply := by
  rw [handleAuth, hverdict]
  exact respond_signed s (by decide) hid (valid_acceptAttrs account) (length_acceptAttrs_le account)

theorem handleAuth_reject {request : Packet} {msg : String} (hid : request.id < 256)
    (hverdict : s.verdict request = .ok (.reject msg)) :
    ∃ reply, s.handleAuth request = .ok reply ∧
      s.Signed request accessReject (rejectAttrs msg) reply := by
  rw [handleAuth, hverdict]
  exact respond_signed s (by decide) hid (valid_rejectAttrs msg) (length_rejectAttrs_le msg)

theorem parsePacket_cases (data : Bytes) : ∃ packet?, parsePacket data = .ok packet? ∧
    ∀ p ∈ packet?, p.code < 256 ∧ p.id < 256 ∧ p.auth.length = 16 := by
  have hnone : ∀ p ∈ (none : Option Packet), p.code < 256 ∧ p.id < 256 ∧ p.auth.length = 16 :=
    fun p hp => absurd hp (Option.not_mem_none p)
  rw [parsePacket]
  split_ifs with hshort
  · exact ⟨none, rfl, hnone⟩
  · obtain _ | ⟨b0, _ | ⟨b1, _ | ⟨b2, _ | ⟨b3, rest⟩⟩⟩⟩ := data
    · exact absurd (by decide) hshort
    · exact absurd (by simp) hshort
    · exact absurd (by simp) hshort
    · exact absurd (by simp) hshort
    · have hhead : unpackHeader ((b0 :: b1 :: b2 :: b3 :: rest).take 4) =
          .ok (b0.toNat, b1.toNat, Wire.ofBigEndian [b2, b3]) := rfl
      rw [hhead]
      dsimp only [bind, Except.bind]
      split_ifs
      · exact ⟨none, rfl, hnone⟩
      · rw [parseAttrs_eq]
        refine ⟨_, rfl, fun p hp => ?_⟩
        cases hp
        refine ⟨b0.toNat_lt, b1.toNat_lt, ?_⟩
        rw [Struct.slice_eq, List.length_take, List.length_drop]
        omega

def Proves (request : Packet) : Prop :=
  ∃ account ∈ s.accounts, account.tenantId = s.tenantId ∧
    account.username = s.loginName (getStr request.attrs attrUserName) ∧ account.active = true ∧
    account.password ≠ "" ∧
    ((account.allocationActive = true ∧ ∃ encPw,
        getAttr request.attrs attrUserPassword = some encPw ∧
        decryptUserPassword s.md5 encPw request.auth s.secret = account.password) ∨
      s.verifyMsChapv2 account.username account.password request.attrs = true)

inductive Decided (request : Packet) : Except Raised Decision → Prop
  | notAscii : Decided request (.error .notAscii)
  | accept (account : Option VpnAccount) (h : s.Proves request) :
    Decided request (.ok (.accept account))
  | reject (msg : String) : Decided request (.ok (.reject msg))

theorem verdict_decided (request : Packet) : s.Decided request (s.verdict request) := by
  have hdenied : s.Decided request (.ok (.reject "Access Denied")) := .reject _
  rw [verdict]
  split
  · -- a password attribute
    rename_i encPw hencPw
    obtain ⟨hattr, -⟩ := Option.mem_filter_iff.mp hencPw
    rw [verifyPasswordForRadius]
    cases hjoined : s.joined (s.loginName (getStr request.attrs attrUserName)) with
    | none => exact hdenied
    | some account =>
      dsimp only
      have hrow := List.find?_some hjoined
      simp only [Bool.and_eq_true, decide_eq_true_eq] at hrow
      split_ifs with hempty
      · exact hdenied
      · rw [compareDigest]
        split_ifs with hascii
        · by_cases hsame : account.password =
            decryptUserPassword s.md5 encPw request.auth s.secret
          · simp only [Except.map, hsame, decide_true, if_true]
            exact .accept _ ⟨account, List.mem_of_find?_eq_some hjoined, hrow.1.1.1, hrow.1.1.2,
              hrow.1.2, hempty, .inl ⟨hrow.2, encPw, hattr, hsame.symm⟩⟩
          · simpa [Except.map, hsame] using hdenied
        · exact .notAscii
  · split
    · -- a response to a challenge
      rw [getDecryptedPassword]
      cases hfound : s.accounts.find? fun a => a.tenantId = s.tenantId &&
          a.username = s.loginName (getStr request.attrs attrUserName) && a.active with
      | none => exact hdenied
      | some account =>
        have hrow := List.find?_some hfound
        simp only [Bool.and_eq_true, decide_eq_true_eq] at hrow
        by_cases hempty : account.password = ""
        · have hnone : ((some account).map VpnAccount.password).filter (· ≠ "") = none := by
            simp [Option.filter, hempty]
          rw [hnone]
          exact hdenied
        · have hsome : ((some account).map VpnAccount.password).filter (· ≠ "") =
              some account.password := by simp [Option.filter, hempty]
          rw [hsome]
          dsimp only
          split_ifs with hverified
          · exact .accept _ ⟨account, List.mem_of_find?_eq_some hfound, hrow.1.1, hrow.1.2, hrow.2,
              hempty, .inr (hrow.1.2 ▸ hverified)⟩
          · exact hdenied
    · exact .reject _

/-- Any datagram at all either gets a signed reply for its own identifier, which is an accept only
if it shows that it knows a password, or it asks for none; and the server is only ever thrown off by
texts that are not ASCII. -/
theorem datagram_answered (data : Bytes) :
    (∀ e, s.datagramReceived data = .error e → e = .notAscii) ∧
      (s.datagramReceived data = .ok none → ∀ request, parsePacket data = .ok (some request) →
        request.code ≠ accessRequest ∧ request.code ≠ accountingRequest) ∧
      ∀ reply, s.datagramReceived data = .ok (some reply) → ∃ request code attrs,
        parsePacket data = .ok (some request) ∧ s.Signed request code attrs reply ∧
        (code = accessAccept → request.code = accessRequest ∧ s.Proves request) ∧
        (code = accountingResponse ↔ request.code = accountingRequest) := by
  obtain ⟨packet?, hparse, hranges⟩ := parsePacket_cases data
  rw [datagramReceived, hparse]
  cases packet? with
  | none => exact ⟨nofun, nofun, nofun⟩
  | some request =>
    obtain ⟨-, hid, -⟩ := hranges request rfl
    dsimp only
    split_ifs with hauth hacct
    · -- an access request
      have hdecided := s.verdict_decided request
      cases hverdict : s.verdict request with
      | error e =>
        rw [hverdict] at hdecided
        cases hdecided
        rw [handleAuth, hverdict]
        exact ⟨fun e he => by cases he; rfl, nofun, nofun⟩
      | ok decision =>
        cases decision with
        | accept account =>
          rw [hverdict] at hdecided
          cases hdecided with
          | accept _ hproves =>
            obtain ⟨reply, hreply, hsigned⟩ := s.handleAuth_accept hid hverdict
            rw [hreply]
            refine ⟨nofun, nofun, fun reply' hreply' => ?_⟩
            cases hreply'
            exact ⟨request, accessAccept, _, rfl, hsigned, fun _ => ⟨hauth, hproves⟩,
              iff_of_false (by decide) (by rw [hauth]; decide)⟩
        | reject msg =>
          obtain ⟨reply, hreply, hsigned⟩ := s.handleAuth_reject hid hverdict
          rw [hreply]
          refine ⟨nofun, nofun, fun reply' hreply' => ?_⟩
          cases hreply'
          exact ⟨request, accessReject, _, rfl, hsigned, fun h => absurd h (by decide),
            iff_of_false (by decide) (by rw [hauth]; decide)⟩
    · -- an accounting request
      obtain ⟨reply, hreply, hsigned⟩ := @respond_signed s request accountingResponse [] (by decide)
        hid nofun (Nat.zero_le 2)
      rw [hreply]
      refine ⟨nofun, nofun, fun reply' hreply' => ?_⟩
      cases hreply'
      exact ⟨request, accountingResponse, [], rfl, hsigned, fun h => absurd h (by decide),
        iff_of_true rfl hacct⟩
    · refine ⟨nofun, fun _ request' hrequest => ?_, nofun⟩
      cases hrequest
      exact ⟨hauth, hacct⟩

end Server

theorem decrypt_hidden (md5 : Bytes → Digest) (requestAuth secret : Bytes) {password : String}
    (hlast : password.toList.getLast? ≠ some '\x00') (zeros : ℕ) :
    decryptUserPassword md5 (hiddenPassword md5 (padded password zeros) requestAuth secret)
      requestAuth secret = password := by
  rw [decryptUserPassword_eq, hiddenPassword,
    Chain.reveal_hide _ (fun prev => (md5 (secret ++ prev)).2), padded,
    rdropWhile_padded (Utf8.getLast?_encode_ne_zero hlast), Utf8.decode_encode]

structure PapLogin (s : Server) where
  name : String
  password : String
  zeros : ℕ
  ident : ℕ
  auth : Bytes
  more : List Tlv.Item := []
  pad : Bytes := []
  ident_lt : ident < 256
  length_auth : auth.length = 16
  last : password.toList.getLast? ≠ some '\x00'
  padded_ne : padded password zeros ≠ []
  padded_fits : (padded password zeros).length ≤ 253
  name_fits : (Utf8.encode name).length ≤ 253
  more_fits : ∀ item ∈ more, Tlv.Fits item
  length_le : 24 + (Utf8.encode name).length + (padded password zeros).length +
    (payload more).length ≤ 65535

namespace PapLogin

variable {s : Server} (login : PapLogin s)

def hidden : Bytes :=
  hiddenPassword s.md5 (padded login.password login.zeros) login.auth s.secret

def items : List Tlv.Item :=
  (attrUserName, Utf8.encode login.name) :: (attrUserPassword, login.hidden) :: login.more

def request : Packet := ⟨accessRequest, login.ident, login.auth, login.items⟩

def datagram : Bytes :=
  header accessRequest login.ident (20 + (payload login.items).length) ++ login.auth ++
    payload login.items ++ login.pad

def Right (account : VpnAccount) : Prop :=
  s.joined (s.loginName login.name) = some account ∧ account.password = login.password ∧
    login.password ≠ ""

theorem length_hidden : login.hidden.length = (padded login.password login.zeros).length :=
  Chain.length_hide (by decide) (fun prev => (s.md5 (s.secret ++ prev)).2) _ _

theorem fits : ∀ item ∈ login.items, Tlv.Fits item := by
  have hhidden := login.length_hidden.trans_le login.padded_fits
  have htypes : attrUserName < 256 ∧ attrUserPassword < 256 := by decide
  rw [items, List.forall_mem_cons, List.forall_mem_cons]
  exact ⟨⟨htypes.1, login.name_fits⟩, ⟨htypes.2, hhidden⟩, login.more_fits⟩

theorem length_items : 20 + (payload login.items).length ≤ 65535 := by
  have hlength := login.length_le
  rw [items, payload, List.flatMap_cons, List.flatMap_cons, List.length_append, List.length_append,
    Tlv.write, Tlv.write, List.length_cons, List.length_cons, List.length_cons, List.length_cons,
    length_hidden]
  rw [payload] at hlength
  dsimp only
  omega

theorem parse_datagram : parsePacket login.datagram = .ok (some login.request) :=
  parsePacket_write (by decide) login.ident_lt login.length_auth login.fits login.length_items

theorem hidden_ne : login.hidden ≠ [] := by
  intro hempty
  have hlength := login.length_hidden
  rw [hempty, List.length_nil] at hlength
  exact login.padded_ne (List.length_eq_zero_iff.mp hlength.symm)

theorem getStr_items : getStr login.items attrUserName = login.name := by
  have hfirst : getAttr login.items attrUserName = some (Utf8.encode login.name) := rfl
  rw [getStr, hfirst]
  dsimp only
  split_ifs with hempty
  · by_contra hname
    exact Utf8.encode_ne_nil (Ne.symm hname) hempty
  · exact Utf8.decode_encode login.name

theorem verdict_eq : s.verdict login.request =
    (s.verifyPasswordForRadius (s.loginName login.name) login.password).map fun
      | some account => .accept (some account)
      | none => .reject "Access Denied" := by
  have hattr : (getAttr login.request.attrs attrUserPassword).filter (· ≠ []) =
      some login.hidden := by
    have hsecond : getAttr login.request.attrs attrUserPassword = some login.hidden := rfl
    rw [hsecond]
    simp [Option.filter, login.hidden_ne]
  have hname : getStr login.request.attrs attrUserName = login.name := login.getStr_items
  rw [Server.verdict, hattr, hname]
  dsimp only
  rw [request, hidden, decrypt_hidden _ _ _ login.last]

def Throws : Prop :=
  ∃ account, s.joined (s.loginName login.name) = some account ∧ account.password ≠ "" ∧
    ¬(isAscii account.password = true ∧ isAscii login.password = true)

theorem verdict_throws (h : login.Throws) : s.verdict login.request = .error .notAscii := by
  obtain ⟨account, hjoined, hne, hascii⟩ := h
  have hboth : ¬(isAscii account.password && isAscii login.password) = true := by
    rwa [Bool.and_eq_true]
  rw [verdict_eq, Server.verifyPasswordForRadius, hjoined]
  dsimp only
  rw [if_neg hne, compareDigest, if_neg hboth]
  rfl

theorem verdict_cases (h : ¬login.Throws) :
    (∃ account, login.Right account ∧ s.verdict login.request = .ok (.accept (some account))) ∨
      (∀ account, ¬login.Right account) ∧
        s.verdict login.request = .ok (.reject "Access Denied") := by
  rw [verdict_eq, Server.verifyPasswordForRadius]
  cases hjoined : s.joined (s.loginName login.name) with
  | none =>
    refine .inr ⟨fun account h => ?_, rfl⟩
    cases hjoined.symm.trans h.1
  | some account =>
    dsimp only
    split_ifs with hempty
    · refine .inr ⟨fun account' h => ?_, rfl⟩
      cases hjoined.symm.trans h.1
      exact h.2.2 (h.2.1.symm.trans hempty)
    · have hboth : (isAscii account.password && isAscii login.password) = true := by
        rw [Bool.and_eq_true]
        by_contra hascii
        exact h ⟨account, hjoined, hempty, hascii⟩
      rw [compareDigest, if_pos hboth]
      by_cases hsame : account.password = login.password
      · exact .inl ⟨account, ⟨hjoined, hsame, hsame ▸ hempty⟩, by simp [Except.map, hsame]⟩
      · refine .inr ⟨fun account' h => ?_, by simp [Except.map, hsame]⟩
        cases hjoined.symm.trans h.1
        exact hsame h.2.1

theorem datagramReceived_eq :
    s.datagramReceived login.datagram = (s.handleAuth login.request).map some := by
  rw [Server.datagramReceived, login.parse_datagram]
  exact if_pos rfl

/-- A client that hides its password as it should is let in exactly when the password is that of the
active account of its name, and gets a signed reply either way, but for a password that is not
ASCII, its own or that of the account: then there is no reply. -/
theorem pap_login :
    (login.Throws → s.datagramReceived login.datagram = .error .notAscii) ∧
    (¬login.Throws → ∃ reply code attrs, s.datagramReceived login.datagram = .ok (some reply) ∧
      s.Signed login.request code attrs reply ∧
      ((∃ account, login.Right account ∧ code = accessAccept ∧
          attrs = Server.acceptAttrs (some account)) ∨
        (∀ account, ¬login.Right account) ∧ code = accessReject ∧
          attrs = Server.rejectAttrs "Access Denied")) := by
  rw [datagramReceived_eq]
  refine ⟨fun h => ?_, fun h => ?_⟩
  · rw [Server.handleAuth, login.verdict_throws h]
    rfl
  rcases login.verdict_cases h with ⟨account, hright, hverdict⟩ | ⟨hwrong, hverdict⟩
  · obtain ⟨reply, hreply, hsigned⟩ := s.handleAuth_accept login.ident_lt hverdict
    refine ⟨reply, accessAccept, _, ?_, hsigned, .inl ⟨account, hright, rfl, rfl⟩⟩
    rw [hreply]
    rfl
  · obtain ⟨reply, hreply, hsigned⟩ := s.handleAuth_reject login.ident_lt hverdict
    refine ⟨reply, accessReject, _, ?_, hsigned, .inr ⟨hwrong, rfl, rfl⟩⟩
    rw [hreply]
    rfl

def ada : VpnAccount := ⟨1, "ada", true, "secret", true, some 20, none, by simp⟩

def smallServer : Server where
  md5 := firstBytes
  ntHash _ := []
  challengeHash _ _ _ := []
  desl _ _ := []
  lower := PyText.lower
  secret := [115, 51]
  tenantId := 1
  accounts := [ada]

def smallLogin : PapLogin smallServer where
  name := "Ada@shop"
  password := "secret"
  zeros := 10
  ident := 7
  auth := List.replicate 16 3
  ident_lt := by decide
  length_auth := rfl
  last := by decide
  padded_ne := by decide
  padded_fits := by decide
  name_fits := by decide
  more_fits _ h := absurd h List.not_mem_nil
  length_le := by decide

theorem pap_login_small : ∃ reply code attrs,
    smallServer.datagramReceived smallLogin.datagram = .ok (some reply) ∧
      smallServer.Signed smallLogin.request code attrs reply ∧ code = accessAccept := by
  have hascii : ¬smallLogin.Throws := by
    rintro ⟨account, hjoined, -, hascii⟩
    cases (show smallServer.joined "ada" = some ada from rfl).symm.trans hjoined
    exact hascii (by decide)
  obtain ⟨reply, code, attrs, hreply, hsigned, ⟨account, -, hcode, -⟩ | ⟨hwrong, -, -⟩⟩ :=
    smallLogin.pap_login.2 hascii
  · exact ⟨reply, code, attrs, hreply, hsigned, hcode⟩
  · exact absurd ⟨rfl, rfl, by decide⟩ (hwrong ada)

end PapLogin

end RadiusModule.RadiusAuthServer
