import RadiusModule.Library.PyText
import RadiusModule.Library.Run

/-!
# The tunnel to the proxy

Every heartbeat brings a block with the settings of the tunnel. The manager
renders two files from it and keeps a fingerprint of what it applied, so that a
heartbeat without news writes nothing. Each of its writes may fail.
-/

namespace RadiusModule.ProxyTunnel
open Library PyText Run

structure RadiusTunnel where
  enabled : Bool := true
  proxyPublicKey : String := ""
  proxyEndpoint : String := ""
  tunnelIp : String := ""
  proxyTunnelIp : String := ""
  radiusSecret : String := ""
  persistentKeepalive : ℤ := 0
deriving DecidableEq, Repr

structure Settings where
  proxyPubkey : String
  proxyEndpoint : String
  tunnelIp : String
  proxyIp : String
  secret : String
  keepalive : ℤ
deriving DecidableEq, Repr

def RadiusTunnel.settings (b : RadiusTunnel) : Settings where
  proxyPubkey := strip b.proxyPublicKey
  proxyEndpoint := strip b.proxyEndpoint
  tunnelIp := strip b.tunnelIp
  proxyIp := strip (if b.proxyTunnelIp = "" then "10.200.0.1" else b.proxyTunnelIp)
  secret := b.radiusSecret
  keepalive := if b.persistentKeepalive = 0 then 25 else b.persistentKeepalive

/-- `_PUBKEY_RE` -/
def isPubkey (key : String) : Bool :=
  key.toList.length = 44 && key.toList.getLast? = some '=' &&
    (key.toList.take 43).all fun c => c.isAlphanum || c = '+' || c = '/'

/-- `_SECRET_UNSAFE` -/
def unsafeSecret (secret : String) : Bool :=
  secret.toList.any fun c => c = '"' || c = '}' || c = '\n' || c = '\r'

def RadiusTunnel.refusal (b : RadiusTunnel) : Option String :=
  if !b.enabled then some "tunnel_disabled_by_panel"
  else if b.settings.proxyPubkey = "" then some "proxy_pubkey_not_configured"
  else if !isPubkey b.settings.proxyPubkey then some "proxy_public_key_malformed"
  else if b.settings.proxyEndpoint = "" ∨ b.settings.tunnelIp = "" ∨ b.settings.secret = "" then
    some "radius_tunnel_block_incomplete"
  else none

def wgText (privateKey stamp : String) (s : Settings) : String :=
  "# AUTO-GENERATED by hoberadius proxy_tunnel_manager — DO NOT EDIT\n" ++
  "# Generated at: " ++ stamp ++ "\n" ++
  "# A systemd path-unit on the host applies this via wg-quick.\n" ++
  "[Interface]\n" ++
  "PrivateKey = " ++ privateKey ++ "\n" ++
  "Address    = " ++ s.tunnelIp ++ "/32\n" ++
  "\n" ++
  "[Peer]\n" ++
  "PublicKey           = " ++ s.proxyPubkey ++ "\n" ++
  "Endpoint            = " ++ s.proxyEndpoint ++ "\n" ++
  "AllowedIPs          = " ++ s.proxyIp ++ "/32\n" ++
  "PersistentKeepalive = " ++ toString s.keepalive ++ "\n"

def clientText (s : Settings) : String :=
  "# AUTO-GENERATED by hoberadius proxy_tunnel_manager — DO NOT EDIT\n" ++
  "# Secret is delivered to this host by the panel over the\n" ++
  "# authenticated heartbeat — never typed by the operator.\n" ++
  "# Remove this file to revoke the proxy's RADIUS access.\n" ++
  "\n" ++
  "client radius-proxy \x7b\n" ++
  "    ipaddr      = " ++ s.proxyIp ++ "\n" ++
  "    secret      = " ++ s.secret ++ "\n" ++
  "    require_message_authenticator = no\n" ++
  "    nas_type    = other\n" ++
  "    shortname   = central-proxy\n" ++
  "\x7d\n"

/-- The files; an empty text stands for a file that is not there. -/
structure Disk where
  privateKey : String := ""
  wgConf : Option String := none
  clients : Option String := none
  fingerprint : String := ""
deriving DecidableEq, Repr

structure Faults where
  keypair : Bool := false
  wgConf : Bool := false
  clientsDir : Bool := false
  clients : Bool := false
  fingerprint : Bool := false
deriving DecidableEq, Repr

structure Call where
  block : RadiusTunnel
  faults : Faults := {}
  stamp : String := ""
  newKey : String
  keyed : newKey ≠ "" := by decide

section
variable (digest : List String → String)

def fingerprint (s : Settings) : String :=
  "sha256:" ++ digest [s.tunnelIp, s.proxyPubkey, s.proxyEndpoint, s.secret]

/-- `_write_wg_conf`; the key comes first, and is generated when there is none. -/
def writeWgConf (d : Disk) (c : Call) : Bool × Disk :=
  if c.faults.keypair then (false, d)
  else
    let keyed := if d.privateKey = "" then { d with privateKey := c.newKey } else d
    if c.faults.wgConf then (false, keyed)
    else (true, { keyed with wgConf := some (wgText keyed.privateKey c.stamp c.block.settings) })

/-- `_write_freeradius_client`; a file that is as it should be is left alone. -/
def writeFreeradiusClient (d : Disk) (c : Call) : Bool × Disk :=
  if unsafeSecret c.block.settings.secret || c.faults.clientsDir then (false, d)
  else if d.clients = some (clientText c.block.settings) then (true, d)
  else if c.faults.clients then (false, d)
  else (true, { d with clients := some (clientText c.block.settings) })

/-- `apply_response`: the reason it gives, and the files after it. -/
def applyResponse (d : Disk) (c : Call) : String × Disk :=
  match c.block.refusal with
  | some reason => (reason, d)
  | none =>
    if fingerprint digest c.block.settings = d.fingerprint then ("fingerprint_unchanged", d)
    else
      let (wgOk, d) := writeWgConf d c
      let (frOk, d) := writeFreeradiusClient d c
      let d := if (wgOk || frOk) && !c.faults.fingerprint then
        { d with fingerprint := fingerprint digest c.block.settings } else d
      (if wgOk && frOk then "applied" else "partial", d)

def step (d : Disk) (c : Call) : Disk := (applyResponse digest d c).2

def Rendered (d : Disk) (s : Settings) : Prop :=
  d.privateKey ≠ "" ∧ (∃ stamp, d.wgConf = some (wgText d.privateKey stamp s)) ∧
    d.clients = some (clientText s)

/-- What a call must leave behind when it says that the block is applied, and when nothing
stands in its way. -/
structure Converges (d : Disk) (c : Call) : Prop where
  settled : (applyResponse digest d c).1 = "fingerprint_unchanged" ∨
    (applyResponse digest d c).1 = "applied" → Rendered (step digest d c) c.block.settings
  recovers : c.faults = {} → unsafeSecret c.block.settings.secret = false →
    Rendered (step digest d c) c.block.settings

def wgFails (c : Call) : Bool := c.faults.keypair || c.faults.wgConf

def clientFails (d : Disk) (c : Call) : Bool :=
  unsafeSecret c.block.settings.secret || c.faults.clientsDir ||
    (d.clients ≠ some (clientText c.block.settings) && c.faults.clients)

def AllOrNothing (d : Disk) (c : Call) : Prop :=
  fingerprint digest c.block.settings ≠ d.fingerprint →
    (wgFails c = true ∧ clientFails d c = true) ∨
      (wgFails c = false ∧ clientFails d c = false ∧ c.faults.fingerprint = false)

def FingerprintTells (calls : List Call) : Prop :=
  ∀ c ∈ calls, ∀ c' ∈ calls,
    fingerprint digest c.block.settings = fingerprint digest c'.block.settings →
      c.block.settings.proxyIp = c'.block.settings.proxyIp ∧
        c.block.settings.keepalive = c'.block.settings.keepalive

end

section
variable {digest : List String → String} {d : Disk} {c : Call}

theorem fingerprint_ne_empty (s : Settings) : fingerprint digest s ≠ "" := by
  intro h
  have hlength := congrArg String.length h
  rw [fingerprint, String.length_append] at hlength
  have hunder : "sha256:".length = 7 := by decide
  rw [hunder] at hlength
  simp at hlength

theorem fingerprint_inj (hdigest : Function.Injective digest) {s t : Settings}
    (h : fingerprint digest s = fingerprint digest t) (hproxy : s.proxyIp = t.proxyIp)
    (hkeepalive : s.keepalive = t.keepalive) : s = t := by
  have hparts := hdigest (String.append_right_inj _ |>.mp h)
  simp only [List.cons.injEq, and_true] at hparts
  obtain ⟨htunnel, hpubkey, hendpoint, hsecret⟩ := hparts
  cases s
  cases t
  simp_all

theorem writeWgConf_fst (d : Disk) (c : Call) : (writeWgConf d c).1 = !wgFails c := by
  rw [writeWgConf, wgFails]
  cases c.faults.keypair <;> cases c.faults.wgConf <;> rfl

theorem writeWgConf_frame (d : Disk) (c : Call) :
    (writeWgConf d c).2.clients = d.clients ∧ (writeWgConf d c).2.fingerprint = d.fingerprint ∧
      (d.privateKey ≠ "" → (writeWgConf d c).2.privateKey = d.privateKey) ∧
      (wgFails c = true → (writeWgConf d c).2.wgConf = d.wgConf) := by
  rw [writeWgConf, wgFails]
  cases c.faults.keypair <;> cases c.faults.wgConf <;> by_cases hkey : d.privateKey = "" <;>
    simp [hkey]

theorem writeWgConf_written (h : wgFails c = false) :
    (writeWgConf d c).2.privateKey ≠ "" ∧ (writeWgConf d c).2.wgConf =
      some (wgText (writeWgConf d c).2.privateKey c.stamp c.block.settings) := by
  obtain ⟨hkeypair, hwgConf⟩ : c.faults.keypair = false ∧ c.faults.wgConf = false := by
    simpa [wgFails] using h
  rw [writeWgConf, hkeypair, hwgConf]
  by_cases hkey : d.privateKey = ""
  · simp [hkey, c.keyed]
  · simp [hkey]

theorem writeFreeradiusClient_fst (d : Disk) (c : Call) :
    (writeFreeradiusClient d c).1 = !clientFails d c := by
  rw [writeFreeradiusClient, clientFails]
  cases unsafeSecret c.block.settings.secret <;> cases c.faults.clientsDir <;>
    cases c.faults.clients <;>
    by_cases hsame : d.clients = some (clientText c.block.settings) <;> simp [hsame]

theorem writeFreeradiusClient_snd (d : Disk) (c : Call) : (writeFreeradiusClient d c).2 =
    if clientFails d c then d else { d with clients := some (clientText c.block.settings) } := by
  have hkept : d.clients = some (clientText c.block.settings) →
      { d with clients := some (clientText c.block.settings) } = d := by
    intro hsame
    rw [← hsame]
  rw [writeFreeradiusClient, clientFails]
  cases unsafeSecret c.block.settings.secret <;> cases c.faults.clientsDir <;>
    cases c.faults.clients <;>
    by_cases hsame : d.clients = some (clientText c.block.settings) <;>
    simp [hsame, hkept]

theorem clientFails_congr {d e : Disk} (h : e.clients = d.clients) (c : Call) :
    clientFails e c = clientFails d c := by
  rw [clientFails, clientFails, h]

def Applied (digest : List String → String) (calls : List Call) (d : Disk) : Prop :=
  d.fingerprint = "" ∨ ∃ c ∈ calls, d.fingerprint = fingerprint digest c.block.settings ∧
    Rendered d c.block.settings

theorem applyResponse_unchanged (hcomplete : c.block.refusal = none)
    (hsame : fingerprint digest c.block.settings = d.fingerprint) :
    applyResponse digest d c = ("fingerprint_unchanged", d) := by
  rw [applyResponse, hcomplete]
  dsimp only
  rw [if_pos hsame]

theorem applyResponse_failed (hcomplete : c.block.refusal = none)
    (hother : fingerprint digest c.block.settings ≠ d.fingerprint) (hwg : wgFails c = true)
    (hclient : clientFails d c = true) :
    applyResponse digest d c = ("partial", (writeWgConf d c).2) := by
  have hclient' : clientFails (writeWgConf d c).2 c = true :=
    (clientFails_congr (writeWgConf_frame d c).1 c).trans hclient
  rw [applyResponse, hcomplete]
  dsimp only
  rw [if_neg hother, writeWgConf_fst, writeFreeradiusClient_fst, writeFreeradiusClient_snd, hwg,
    hclient']
  rfl

theorem applyResponse_written (hcomplete : c.block.refusal = none)
    (hother : fingerprint digest c.block.settings ≠ d.fingerprint) (hwg : wgFails c = false)
    (hclient : clientFails d c = false) (hfingerprint : c.faults.fingerprint = false) :
    applyResponse digest d c = ("applied", { (writeWgConf d c).2 with
      clients := some (clientText c.block.settings)
      fingerprint := fingerprint digest c.block.settings }) := by
  have hclient' : clientFails (writeWgConf d c).2 c = false :=
    (clientFails_congr (writeWgConf_frame d c).1 c).trans hclient
  rw [applyResponse, hcomplete]
  dsimp only
  rw [if_neg hother, writeWgConf_fst, writeFreeradiusClient_fst, writeFreeradiusClient_snd, hwg,
    hclient', hfingerprint]
  rfl

def Meets (digest : List String → String) (calls : List Call) (d : Disk) (c : Call) : Prop :=
  c ∈ calls ∧ c.block.refusal = none ∧ AllOrNothing digest d c

variable {calls : List Call}

theorem step_converges (hdigest : Function.Injective digest)
    (htells : FingerprintTells digest calls) (hd : Applied digest calls d)
    (hc : Meets digest calls d c) :
    Applied digest calls (step digest d c) ∧ Converges digest d c := by
  obtain ⟨hmem, hcomplete, hall⟩ := hc
  by_cases hsame : fingerprint digest c.block.settings = d.fingerprint
  · have hanswer := applyResponse_unchanged hcomplete hsame
    have hstep : step digest d c = d := congrArg Prod.snd hanswer
    have hrendered : Rendered (step digest d c) c.block.settings := by
      rw [hstep]
      obtain hnone | ⟨c', hc', hfingerprint, hrendered⟩ := hd
      · exact absurd (hsame.trans hnone) (fingerprint_ne_empty _)
      · have hparts := hsame.trans hfingerprint
        obtain ⟨hproxy, hkeepalive⟩ := htells c hmem c' hc' hparts
        rwa [fingerprint_inj hdigest hparts hproxy hkeepalive]
    exact ⟨hstep.symm ▸ hd, ⟨fun _ => hrendered, fun _ _ => hrendered⟩⟩
  · obtain ⟨hwg, hclient⟩ | ⟨hwg, hclient, hfingerprint⟩ := hall hsame
    · have hanswer := applyResponse_failed hcomplete hsame hwg hclient
      have hstep : step digest d c = (writeWgConf d c).2 := congrArg Prod.snd hanswer
      obtain ⟨hclients, hsaved, hkey, hconf⟩ := writeWgConf_frame d c
      refine ⟨?_, ⟨fun hsettled => ?_, fun hfaults hsecret => ?_⟩⟩
      · rw [hstep]
        obtain hnone | ⟨c', hc', hfingerprint, hkept, ⟨stamp, hstamp⟩, hfile⟩ := hd
        · exact .inl (hsaved.trans hnone)
        · refine .inr ⟨c', hc', hsaved.trans hfingerprint, ?_, ⟨stamp, ?_⟩, hclients.trans hfile⟩
          · rwa [hkey hkept]
          · rw [hkey hkept, hconf hwg, hstamp]
      · rw [hanswer] at hsettled
        simp at hsettled
      · simp [wgFails, hfaults] at hwg
    · have hanswer := applyResponse_written hcomplete hsame hwg hclient hfingerprint
      have hstep := congrArg Prod.snd hanswer
      change step digest d c = _ at hstep
      obtain ⟨hkey, hconf⟩ := writeWgConf_written (d := d) hwg
      have hrendered : Rendered (step digest d c) c.block.settings := by
        rw [hstep]
        exact ⟨hkey, ⟨c.stamp, hconf⟩, rfl⟩
      refine ⟨.inr ⟨c, hmem, ?_, hrendered⟩, ⟨fun _ => hrendered, fun _ _ => hrendered⟩⟩
      rw [hstep]

theorem meets_along (hcomplete : ∀ c ∈ calls, c.block.refusal = none) {part : List Call} :
    ∀ {d : Disk}, (∀ c ∈ part, c ∈ calls) → Along (AllOrNothing digest) (step digest) d part →
      Along (Meets digest calls) (step digest) d part := by
  induction part with
  | nil => exact fun _ _ => trivial
  | cons c part ih =>
    intro d hpart hall
    obtain ⟨hc, hrest⟩ := List.forall_mem_cons.mp hpart
    exact ⟨⟨hc, hcomplete c hc, hall.1⟩, ih hrest hall.2⟩

/-- In every run whose calls write all or nothing, the files converge to the last response. -/
theorem converges_along (hdigest : Function.Injective digest) (hd : d.fingerprint = "")
    (hcomplete : ∀ c ∈ calls, c.block.refusal = none) (htells : FingerprintTells digest calls)
    (hall : Along (AllOrNothing digest) (step digest) d calls) :
    Along (Converges digest) (step digest) d calls :=
  (meets_along hcomplete (fun _ hc => hc) hall).of_invariant (I := Applied digest calls)
    (fun _ _ hd hc => (step_converges hdigest htells hd hc).1)
    (fun _ _ hd hc => (step_converges hdigest htells hd hc).2) (.inl hd)

end

def escape (s : List Char) : List Char := s.flatMap fun c => ['a', c]

def plainDigest (parts : List String) : String :=
  String.ofList (parts.flatMap fun part => escape part.toList ++ ['b'])

theorem escape_inj {s : List Char} : ∀ {t x y : List Char},
    escape s ++ 'b' :: x = escape t ++ 'b' :: y → s = t ∧ x = y := by
  induction s with
  | nil =>
    intro t x y h
    cases t with
    | nil => exact ⟨rfl, List.tail_eq_of_cons_eq h⟩
    | cons c t => simp [escape] at h
  | cons c s ih =>
    intro t x y h
    cases t with
    | nil => simp [escape] at h
    | cons c' t =>
      simp only [escape, List.flatMap_cons, List.cons_append, List.nil_append,
        List.cons.injEq, true_and] at h
      obtain ⟨hc, hrest⟩ := h
      obtain ⟨hs, hx⟩ := ih hrest
      exact ⟨by rw [hc, hs], hx⟩

theorem plainDigest_injective : Function.Injective plainDigest := by
  intro s
  induction s with
  | nil =>
    intro t h
    cases t with
    | nil => rfl
    | cons p t =>
      have hchars := String.ofList_injective h
      simp at hchars
  | cons p s ih =>
    intro t h
    have hchars := String.ofList_injective h
    cases t with
    | nil => simp at hchars
    | cons q t =>
      simp only [List.flatMap_cons, List.append_assoc, List.cons_append, List.nil_append] at hchars
      obtain ⟨hp, hrest⟩ := escape_inj hchars
      rw [String.toList_inj.mp hp, ih (congrArg String.ofList hrest)]

def block : RadiusTunnel where
  proxyPublicKey := "AAAAAAAAAAAAAAAAAAAAAAAAAAAAAAAAAAAAAAAAAAA="
  proxyEndpoint := "proxy:51820"
  tunnelIp := "10.200.0.7"
  radiusSecret := "s3cret"

theorem block_converges : Along (Converges plainDigest) (step plainDigest) {}
    [{ block, faults := { wgConf := true, clients := true }, newKey := "k" },
      { block, newKey := "k" }] := by
  refine converges_along plainDigest_injective rfl ?_ ?_
    ⟨fun _ => .inl ?_, ⟨fun _ => .inr ?_, trivial⟩⟩
  · decide
  · simp [FingerprintTells]
  · decide
  · decide

/-- The write of the client file fails once and is never repeated. -/
theorem client_file_left_behind : ¬∀ digest : List String → String, Function.Injective digest →
    ∀ (d : Disk) (calls : List Call), d.fingerprint = "" →
      (∀ c ∈ calls, c.block.refusal = none) →
        Along (Converges digest) (step digest) d calls := by
  intro h
  have hrun := h plainDigest plainDigest_injective {}
    [{ block, faults := { clients := true }, newKey := "k" }, { block, newKey := "k" }] rfl
    (by decide)
  obtain ⟨-, -, hclients⟩ := hrun.2.1.recovers rfl (by decide)
  have hcomplete : block.refusal = none := by decide
  have hsafe : unsafeSecret block.settings.secret = false := by decide
  have hfirst : step plainDigest {} { block, faults := { clients := true }, newKey := "k" } =
      { privateKey := "k", wgConf := some (wgText "k" "" block.settings),
        fingerprint := fingerprint plainDigest block.settings } := by
    simp [step, applyResponse, hcomplete, writeWgConf, writeFreeradiusClient, hsafe,
      fingerprint_ne_empty]
  rw [hfirst, step, applyResponse_unchanged hcomplete rfl] at hclients
  cases hclients

end RadiusModule.ProxyTunnel
