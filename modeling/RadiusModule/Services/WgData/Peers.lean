import RadiusModule.Library.Ipv4Text
import RadiusModule.Library.Mirror
import RadiusModule.Library.Run
import RadiusModule.Library.Table

/-!
# Peers of the data tunnel

The rows, the interface and the files of one service. A call reads, writes its
row, and then brings the interface and the files after it, one step at a time.
-/

namespace RadiusModule.WgData
open Library

inductive PeerStatus
  | active
  | suspended
  | quotaExceeded
  | revoked
  deriving DecidableEq

abbrev Key := List Char

structure Peer where
  id : ℕ
  publicKey : Key
  peerAddress : Ipv4
  transferLimitBytes : Option ℤ
  quotaBytesUsed : ℤ
  quotaPeriod : String
  status : PeerStatus

def Peer.isActive (p : Peer) : Bool := p.status = .active

def Peer.isRevoked (p : Peer) : Bool := p.status = .revoked

/-- What the calls use of the row of `wireguard_data_service`. -/
structure Service where
  isActive : Bool
  maxPeers : ℤ
  addressRange : Ipv4Net

structure Store where
  service : Service
  peers : Table Peer Peer.id
  keys : (peers.rows.map Peer.publicKey).Nodup
  interface : Finset Key
  files : Finset ℕ

inductive Change
  | removePeer
  | suspendPeer
  | activatePeer
  | enforceWgPeerQuotas
  | resetNewPeriodQuotas (current : String)

def Change.apply : Change → Peer → Peer
  | .removePeer, p => { p with status := .revoked }
  | .suspendPeer, p => { p with status := .suspended }
  | .activatePeer, p => { p with status := .active }
  | .enforceWgPeerQuotas, p => { p with status := .quotaExceeded }
  | .resetNewPeriodQuotas current, p =>
    { p with status := .active, quotaBytesUsed := 0, quotaPeriod := current }

def Change.activates : Change → Bool
  | .activatePeer => true
  | .resetNewPeriodQuotas _ => true
  | _ => false

/-- `quota_bytes_used >= transfer_limit_bytes` -/
def Peer.overQuota (p : Peer) : Bool :=
  p.transferLimitBytes.any fun limit => 0 < limit && limit ≤ p.quotaBytesUsed

inductive Effect
  | wgAddPeer (p : Peer)
  | wgRemovePeer (p : Peer)
  | writePeerFile (p : Peer)
  | removePeerFile (p : Peer)

namespace Effect

def peer : Effect → Peer
  | wgAddPeer p => p
  | wgRemovePeer p => p
  | writePeerFile p => p
  | removePeerFile p => p

def installs : Effect → Bool
  | wgAddPeer _ => true
  | wgRemovePeer _ => false
  | writePeerFile _ => true
  | removePeerFile _ => false

def perform (d : Store) : Effect → Store
  | wgAddPeer p => { d with interface := insert p.publicKey d.interface }
  | wgRemovePeer p => { d with interface := d.interface.erase p.publicKey }
  | writePeerFile p => { d with files := insert p.id d.files }
  | removePeerFile p => { d with files := d.files.erase p.id }

end Effect

def Change.effects (c : Change) (p : Peer) : List Effect :=
  if c.activates then [.wgAddPeer p, .writePeerFile p] else [.wgRemovePeer p, .removePeerFile p]

@[simp] theorem Change.id_apply (c : Change) (p : Peer) : (c.apply p).id = p.id := by
  cases c <;> rfl

@[simp] theorem Change.publicKey_apply (c : Change) (p : Peer) :
    (c.apply p).publicKey = p.publicKey := by
  cases c <;> rfl

@[simp] theorem Change.peerAddress_apply (c : Change) (p : Peer) :
    (c.apply p).peerAddress = p.peerAddress := by
  cases c <;> rfl

@[simp] theorem Change.isActive_apply (c : Change) (p : Peer) :
    (c.apply p).isActive = c.activates := by
  cases c <;> rfl

def Peer.synced (transfer : Key → Option ℤ) (period : String) (p : Peer) : Peer :=
  { p with quotaBytesUsed := (transfer p.publicKey).getD 0, quotaPeriod := period }

theorem Peer.id_synced (transfer : Key → Option ℤ) (period : String) (p : Peer) :
    (p.synced transfer period).id = p.id := rfl

theorem Peer.publicKey_synced (transfer : Key → Option ℤ) (period : String) (p : Peer) :
    (p.synced transfer period).publicKey = p.publicKey := rfl

namespace Store
variable (d : Store)

/-- `UPDATE wireguard_peer` of the rows for which `sel` holds. -/
def update (sel : Peer → Bool) (f : Peer → Peer) (hid : ∀ p, (f p).id = p.id)
    (hkey : ∀ p, (f p).publicKey = p.publicKey) : Store where
  service := d.service
  peers := d.peers.update sel f hid
  keys := by
    have hmap : (d.peers.update sel f hid).rows.map Peer.publicKey =
        d.peers.rows.map Peer.publicKey := by
      rw [Table.rows_update, List.map_map]
      refine List.map_congr_left fun p _ => ?_
      simp only [Function.comp_apply]
      split_ifs
      · exact hkey p
      · rfl
    rw [hmap]
    exact d.keys
  interface := d.interface
  files := d.files

def write (c : Change) (id : ℕ) : Store :=
  d.update (fun p => p.id = id) c.apply c.id_apply c.publicKey_apply

def fresh (publicKey : Key) (transferLimitBytes : Option ℤ) (peerAddress : Ipv4) (id : ℕ) :
    Peer :=
  { id, publicKey, peerAddress, transferLimitBytes, quotaBytesUsed := 0, quotaPeriod := "",
    status := .active }

theorem id_fresh (publicKey : Key) (transferLimitBytes : Option ℤ) (peerAddress : Ipv4) (id : ℕ) :
    (fresh publicKey transferLimitBytes peerAddress id).id = id := rfl

def add (publicKey : Key) (transferLimitBytes : Option ℤ) (peerAddress : Ipv4)
    (h : publicKey ∉ d.peers.rows.map Peer.publicKey) : Store where
  service := d.service
  peers := d.peers.insert (fresh publicKey transferLimitBytes peerAddress)
    (id_fresh publicKey transferLimitBytes peerAddress)
  keys := by
    rw [Table.rows_insert, List.map_append, List.nodup_append']
    exact ⟨d.keys, List.nodup_singleton _, List.disjoint_singleton.mpr h⟩
  interface := d.interface
  files := d.files

def activeCount : ℕ := d.peers.rows.countP fun p => !p.isRevoked

def usedPeerIps : List Ipv4 :=
  (d.peers.rows.filter fun p => !p.isRevoked).map Peer.peerAddress

/-- `_allocate_peer_ip`; `none` where it raises. -/
def allocatePeerIp (serverIp : Ipv4) (addressRange : Ipv4Net) : Option Ipv4 :=
  addressRange.hosts.find? fun ip => ip ≠ serverIp && !d.usedPeerIps.contains ip

/-- The update of `sync_quota` by what the interface reports. -/
def syncQuota (transfer : Key → Option ℤ) (period : String) : Store :=
  d.update (fun p => !p.isRevoked && (transfer p.publicKey).isSome) (Peer.synced transfer period)
    (Peer.id_synced transfer period) (Peer.publicKey_synced transfer period)

end Store

inductive Call
  | adding (svc : Service) (publicKey : Key) (transferLimitBytes : Option ℤ)
  | counted (svc : Service) (publicKey : Key) (transferLimitBytes : Option ℤ)
  | allocated (publicKey : Key) (transferLimitBytes : Option ℤ) (peerAddress : Ipv4)
  | applying (effects : List Effect) (rest : List (Change × Peer))

def Call.finished : Call := .applying [] []

structure World where
  store : Store
  calls : List Call

inductive Event
  | addPeer (publicKey : Key) (transferLimitBytes : Option ℤ)
  | removePeer (id : ℕ)
  | suspendPeer (id : ℕ)
  | activatePeer (id : ℕ)
  | enforceWgPeerQuotas
  | resetNewPeriodQuotas (current : String)
  | syncQuota (transfer : Key → Option ℤ) (period : String)
  | updateServiceLimits (maxPeers : ℤ)
  | setServiceActive (isActive : Bool)
  | proceed (i : ℕ)

def Call.next (serverIp : Ipv4) (d : Store) : Call → Store × Call
  | .adding svc key limit =>
    if 0 < svc.maxPeers ∧ svc.maxPeers ≤ d.activeCount then (d, .finished)
    else (d, .counted svc key limit)
  | .counted svc key limit =>
    match d.allocatePeerIp serverIp svc.addressRange with
    | none => (d, .finished)
    | some ip => (d, .allocated key limit ip)
  | .allocated key limit ip =>
    if h : key ∈ d.peers.rows.map Peer.publicKey then (d, .finished)
    else
      let p := Store.fresh key limit ip d.peers.next
      (d.add key limit ip h, .applying [.writePeerFile p, .wgAddPeer p] [])
  | .applying (e :: effects) rest => (e.perform d, .applying effects rest)
  | .applying [] ((c, p) :: rest) => (d.write c p.id, .applying (c.effects p) rest)
  | .applying [] [] => (d, .finished)

def World.begin (w : World) (c : Change) (sel : Peer → Bool) : World :=
  { w with calls := w.calls ++ [.applying [] ((w.store.peers.select sel).map fun p => (c, p))] }

def World.step (serverIp : Ipv4) (w : World) : Event → World
  | .addPeer key limit =>
    if w.store.service.isActive then
      { w with calls := w.calls ++ [.adding w.store.service key limit] }
    else w
  | .removePeer id => w.begin .removePeer fun p => p.id = id
  | .suspendPeer id => w.begin .suspendPeer fun p => p.id = id && p.isActive
  | .activatePeer id => w.begin .activatePeer fun p => p.id = id && p.status = .suspended
  | .enforceWgPeerQuotas => w.begin .enforceWgPeerQuotas fun p => p.isActive && p.overQuota
  | .resetNewPeriodQuotas current =>
    w.begin (.resetNewPeriodQuotas current) fun p =>
      p.status = .quotaExceeded && p.quotaPeriod ≠ current
  | .syncQuota transfer period => { w with store := w.store.syncQuota transfer period }
  | .updateServiceLimits maxPeers =>
    { w with store := { w.store with service := { w.store.service with maxPeers } } }
  | .setServiceActive isActive =>
    { w with store := { w.store with service := { w.store.service with isActive } } }
  | .proceed i =>
    match w.calls[i]? with
    | none => w
    | some call =>
      ⟨(call.next serverIp w.store).1, w.calls.set i (call.next serverIp w.store).2⟩

end RadiusModule.WgData
