import RadiusModule.Services.WgData.Peers

/-!
# Interleaved calls on the data tunnel

Whatever the calls do side by side, a run in which no step meets a row that has
changed since the call looked keeps the addresses apart, the number under the
limit, and what was revoked revoked; and when nothing is under way the
interface and the files show the active peers.
-/

namespace RadiusModule.WgData
open Library

variable {serverIp : Ipv4}

structure Sound (d : Store) : Prop where
  distinct : ∀ p ∈ d.peers.rows, ∀ q ∈ d.peers.rows, p.isRevoked = false → q.isRevoked = false →
    p.peerAddress = q.peerAddress → p = q
  capped : 0 < d.service.maxPeers → d.activeCount ≤ d.service.maxPeers

structure Installed (d : Store) : Prop where
  interface : ∀ key, key ∈ d.interface ↔ ∃ p ∈ d.peers.rows, p.isActive = true ∧ p.publicKey = key
  files : ∀ id, id ∈ d.files ↔ ∃ p ∈ d.peers.rows, p.isActive = true ∧ p.id = id

def World.Idle (w : World) : Prop := ∀ call ∈ w.calls, call = .finished

def NoReturn (d d' : Store) : Prop :=
  ∀ p ∈ d.peers.rows, p.isRevoked = true → ∀ q ∈ d'.peers.rows, q.id = p.id → q.isActive = false

structure PeersLaw (serverIp : Ipv4) (w : World) (es : List Event) : Prop where
  sound : ∀ pre post, es = pre ++ post → Sound (Run.run (World.step serverIp) w pre).store
  noReturn : ∀ pre mid post, es = pre ++ (mid ++ post) →
    NoReturn (Run.run (World.step serverIp) w pre).store
      (Run.run (World.step serverIp) w (pre ++ mid)).store
  installed : ∀ pre post, es = pre ++ post → (Run.run (World.step serverIp) w pre).Idle →
    Installed (Run.run (World.step serverIp) w pre).store

/-- What a step of a call asks of the rows as they now are: the address is still free and the
number below the limit, no status is written over a revocation, and a peer is installed or taken
away as its row says. -/
def Store.Clear (d : Store) : Call → Prop
  | .allocated _ _ ip =>
    ip ∉ d.usedPeerIps ∧ (0 < d.service.maxPeers → d.activeCount < d.service.maxPeers)
  | .applying (e :: _) _ => ∀ p ∈ d.peers.rows, p.id = e.peer.id → p.isActive = e.installs
  | .applying [] ((c, p) :: _) => ∀ q ∈ d.peers.rows, q.id = p.id → q.isRevoked = true →
    (c.apply q).isRevoked = true
  | _ => True

def NotLowered (maxPeers maxPeers' : ℤ) : Prop :=
  maxPeers' ≤ 0 ∨ 0 < maxPeers ∧ maxPeers ≤ maxPeers'

def Clear (w : World) : Event → Prop
  | .proceed i => ∀ call, w.calls[i]? = some call → w.store.Clear call
  | .updateServiceLimits maxPeers => NotLowered w.store.service.maxPeers maxPeers
  | _ => True

instance Store.Clear.decidable (d : Store) : ∀ call, Decidable (d.Clear call)
  | .adding _ _ _ => .isTrue trivial
  | .counted _ _ _ => .isTrue trivial
  | .allocated _ _ _ => inferInstanceAs (Decidable (_ ∧ _))
  | .applying (e :: _) _ =>
    inferInstanceAs (Decidable (∀ p ∈ d.peers.rows, p.id = e.peer.id → p.isActive = e.installs))
  | .applying [] ((c, p) :: _) =>
    inferInstanceAs (Decidable (∀ q ∈ d.peers.rows, q.id = p.id → q.isRevoked = true →
      (c.apply q).isRevoked = true))
  | .applying [] [] => .isTrue trivial

instance Clear.decidable (w : World) : ∀ e, Decidable (Clear w e)
  | .proceed i =>
    inferInstanceAs (Decidable (∀ call, w.calls[i]? = some call → w.store.Clear call))
  | .updateServiceLimits _ => inferInstanceAs (Decidable (_ ∨ _))
  | .addPeer _ _ => .isTrue trivial
  | .removePeer _ => .isTrue trivial
  | .suspendPeer _ => .isTrue trivial
  | .activatePeer _ => .isTrue trivial
  | .enforceWgPeerQuotas => .isTrue trivial
  | .resetNewPeriodQuotas _ => .isTrue trivial
  | .syncQuota _ _ => .isTrue trivial
  | .setServiceActive _ => .isTrue trivial

structure Settled (w : World) : Prop where
  sound : Sound w.store
  installed : Installed w.store
  idle : w.Idle

structure View (κ : Type) [DecidableEq κ] where
  key : Peer → κ
  shown : Store → Finset κ
  has : Effect → Bool
  key_congr : ∀ p q : Peer, p.id = q.id → p.publicKey = q.publicKey → key p = key q
  key_inj : ∀ d : Store, ∀ p ∈ d.peers.rows, ∀ q ∈ d.peers.rows, key p = key q → p = q
  shown_congr : ∀ d d' : Store, d.interface = d'.interface → d.files = d'.files →
    shown d = shown d'
  shown_other : ∀ (d : Store) (e : Effect), has e = false → shown (e.perform d) = shown d
  shown_perform : ∀ (d : Store) (e : Effect) (k : κ), has e = true →
    (k ∈ shown (e.perform d) ↔ if k = key e.peer then e.installs = true else k ∈ shown d)
  has_effects : ∀ (c : Change) (p : Peer), ∃ e ∈ c.effects p,
    has e = true ∧ e.peer = p ∧ e.installs = c.activates
  has_added : ∀ p : Peer, ∃ e ∈ [Effect.writePeerFile p, .wgAddPeer p],
    has e = true ∧ e.peer = p ∧ e.installs = true

def View.interface : View Key where
  key := Peer.publicKey
  shown := Store.interface
  has
    | .wgAddPeer _ => true
    | .wgRemovePeer _ => true
    | _ => false
  key_congr _ _ _ h := h
  key_inj d _ hp _ hq h := List.inj_on_of_nodup_map d.keys hp hq h
  shown_congr _ _ h _ := h
  shown_other d e h := by cases e <;> first | rfl | cases h
  shown_perform d e k h := by
    cases e with
    | wgAddPeer p => simp [Effect.perform, Effect.peer, Effect.installs, or_iff_not_imp_left]
    | wgRemovePeer p => simp [Effect.perform, Effect.peer, Effect.installs]
    | writePeerFile p => cases h
    | removePeerFile p => cases h
  has_effects c p := by
    rw [Change.effects]
    split_ifs with h
    · exact ⟨.wgAddPeer p, by simp, rfl, rfl, h.symm⟩
    · exact ⟨.wgRemovePeer p, by simp, rfl, rfl, (Bool.eq_false_iff.mpr h).symm⟩
  has_added p := ⟨.wgAddPeer p, by simp, rfl, rfl, rfl⟩

def View.disk : View ℕ where
  key := Peer.id
  shown := Store.files
  has
    | .writePeerFile _ => true
    | .removePeerFile _ => true
    | _ => false
  key_congr _ _ h _ := h
  key_inj d _ hp _ hq h := d.peers.eq_of_key_eq hp hq h
  shown_congr _ _ _ h := h
  shown_other d e h := by cases e <;> first | rfl | cases h
  shown_perform d e k h := by
    cases e with
    | wgAddPeer p => cases h
    | wgRemovePeer p => cases h
    | writePeerFile p => simp [Effect.perform, Effect.peer, Effect.installs, or_iff_not_imp_left]
    | removePeerFile p => simp [Effect.perform, Effect.peer, Effect.installs]
  has_effects c p := by
    rw [Change.effects]
    split_ifs with h
    · exact ⟨.writePeerFile p, by simp, rfl, rfl, h.symm⟩
    · exact ⟨.removePeerFile p, by simp, rfl, rfl, (Bool.eq_false_iff.mpr h).symm⟩
  has_added p := ⟨.writePeerFile p, by simp, rfl, rfl, rfl⟩

def Call.effects : Call → List Effect
  | .applying effects _ => effects
  | _ => []

def Call.peers : Call → List Peer
  | .applying effects rest => effects.map Effect.peer ++ rest.map Prod.snd
  | _ => []

namespace View
variable {κ : Type} [DecidableEq κ] (v : View κ)

def wanted (d : Store) (k : κ) : Bool := d.peers.rows.any fun p => p.isActive && v.key p = k

def there (d : Store) (k : κ) : Bool := k ∈ v.shown d

def owed (calls : List Call) (k : κ) (b : Bool) : Prop :=
  ∃ call ∈ calls, ∃ e ∈ call.effects, v.has e = true ∧ v.key e.peer = k ∧ e.installs = b

def Kept (w : World) : Prop := Mirror.Owed (v.wanted w.store) (v.there w.store) (v.owed w.calls)

theorem wanted_eq_true {d : Store} {k : κ} :
    v.wanted d k = true ↔ ∃ p ∈ d.peers.rows, p.isActive = true ∧ v.key p = k := by
  simp [wanted]

theorem wanted_of_mem {d : Store} {p : Peer} (hp : p ∈ d.peers.rows) :
    v.wanted d (v.key p) = p.isActive := by
  apply Bool.eq_iff_iff.mpr
  rw [wanted_eq_true]
  constructor
  · rintro ⟨q, hq, hactive, hkey⟩
    rwa [← v.key_inj d q hq p hp hkey]
  · exact fun hactive => ⟨p, hp, hactive, rfl⟩

theorem owed_append {calls more : List Call} {k : κ} {b : Bool} (h : v.owed calls k b) :
    v.owed (calls ++ more) k b := by
  obtain ⟨call, hcall, he⟩ := h
  exact ⟨call, List.mem_append_left _ hcall, he⟩

theorem owed_set {calls : List Call} {i : ℕ} {call call' : Call} (hcall : calls[i]? = some call)
    {k : κ} {b : Bool} (h : v.owed calls k b)
    (hstep : ∀ e ∈ call.effects, v.has e = true → v.key e.peer = k → e ∈ call'.effects) :
    v.owed (calls.set i call') k b := by
  obtain ⟨c, hc, e, he, hhas, hkey, hinstalls⟩ := h
  obtain ⟨j, hj⟩ := List.mem_iff_getElem?.mp hc
  by_cases hij : i = j
  · obtain rfl : call = c := Option.some_inj.mp (hcall.symm.trans (hij ▸ hj))
    have hlt : i < calls.length := (List.getElem?_eq_some_iff.mp hcall).1
    exact ⟨call', List.mem_set hlt call', e, hstep e he hhas hkey, hhas, hkey, hinstalls⟩
  · have hmem : (calls.set i call')[j]? = some c := by
      rw [List.getElem?_set_ne hij, hj]
    exact ⟨c, List.mem_of_getElem? hmem, e, he, hhas, hkey, hinstalls⟩

theorem Kept.settled {v : View κ} {w : World} (h : v.Kept w) (hidle : w.Idle) (k : κ) :
    k ∈ v.shown w.store ↔ ∃ p ∈ w.store.peers.rows, p.isActive = true ∧ v.key p = k := by
  have hnone : ∀ k b, ¬ v.owed w.calls k b := by
    rintro k b ⟨call, hcall, e, he, -⟩
    rw [hidle call hcall] at he
    cases he
  have hthere := Mirror.Owed.settled h hnone k
  rw [← v.wanted_eq_true, ← hthere, there, decide_eq_true_iff]

theorem wanted_update (d : Store) {sel : Peer → Bool} {f : Peer → Peer}
    (hid : ∀ p, (f p).id = p.id) (hkey : ∀ p, (f p).publicKey = p.publicKey) {k : κ}
    (hsame : ∀ p ∈ d.peers.rows, sel p = true → v.key p = k → (f p).isActive = p.isActive) :
    v.wanted (d.update sel f hid hkey) k = v.wanted d k := by
  have hname : ∀ p, v.key (f p) = v.key p := fun p => v.key_congr _ _ (hid p) (hkey p)
  have hrow : ∀ p ∈ d.peers.rows,
      ((if sel p = true then f p else p).isActive = true ∧
        v.key (if sel p = true then f p else p) = k ↔ p.isActive = true ∧ v.key p = k) := by
    intro p hp
    split_ifs with hsel
    · rw [hname]
      exact and_congr_left fun hk => by rw [hsame p hp hsel hk]
    · exact Iff.rfl
  rw [Bool.eq_iff_iff, wanted_eq_true, wanted_eq_true]
  constructor
  · rintro ⟨p', hp', h⟩
    obtain ⟨p, hp, rfl⟩ := List.mem_map.mp hp'
    exact ⟨p, hp, (hrow p hp).mp h⟩
  · rintro ⟨p, hp, h⟩
    exact ⟨_, List.mem_map_of_mem hp, (hrow p hp).mpr h⟩

theorem Kept.same {v : View κ} {w w' : World} (h : v.Kept w)
    (hwanted : ∀ k, v.wanted w'.store k = v.wanted w.store k)
    (hshown : v.shown w'.store = v.shown w.store)
    (howed : ∀ k b, v.owed w.calls k b → v.owed w'.calls k b) : v.Kept w' := by
  intro k
  rw [hwanted k, there, hshown]
  exact (h k).imp_right (howed k _)

theorem Kept.perform {v : View κ} {w : World} (h : v.Kept w) {i : ℕ} {e : Effect}
    {effects : List Effect} {rest : List (Change × Peer)}
    (hcall : w.calls[i]? = some (.applying (e :: effects) rest))
    (hwanted : v.wanted w.store (v.key e.peer) = e.installs) :
    v.Kept ⟨e.perform w.store, w.calls.set i (.applying effects rest)⟩ := by
  have hrows : (e.perform w.store).peers = w.store.peers := by cases e <;> rfl
  have hsame : ∀ k, v.wanted (e.perform w.store) k = v.wanted w.store k := fun k => by
    rw [wanted, hrows, wanted]
  have howed : ∀ k b, (v.has e = true → k ≠ v.key e.peer) → v.owed w.calls k b →
      v.owed (w.calls.set i (.applying effects rest)) k b := by
    intro k b hk ho
    refine v.owed_set hcall ho fun e' he' hhas hkey => ?_
    obtain rfl | he' := List.mem_cons.mp he'
    · exact absurd hkey.symm (hk hhas)
    · exact he'
  cases hhas : v.has e with
  | false =>
    refine h.same hsame (v.shown_other w.store e hhas) fun k b => howed k b ?_
    rw [hhas]
    exact fun hfalse => absurd hfalse Bool.false_ne_true
  | true =>
    have hshown := fun k => v.shown_perform w.store e k hhas
    intro k
    rw [hsame k]
    refine Mirror.Owed.perform h (v.key e.peer) (fun k hk => ?_) ?_
      (fun k b hk => howed k b fun _ => hk) k
    · simp only [there, hshown, if_neg hk]
    · simp only [there, hshown, if_true, hwanted, Bool.decide_eq_true]

theorem Kept.write {v : View κ} {w : World} (h : v.Kept w) {i : ℕ} {c : Change} {p q : Peer}
    {rest : List (Change × Peer)} (hcall : w.calls[i]? = some (.applying [] ((c, p) :: rest)))
    (hq : q ∈ w.store.peers.rows) (hid : q.id = p.id) (hpublic : q.publicKey = p.publicKey) :
    v.Kept ⟨w.store.write c p.id, w.calls.set i (.applying (c.effects p) rest)⟩ := by
  have hname : v.key q = v.key p := v.key_congr q p hid hpublic
  have hrow : c.apply q ∈ (w.store.write c p.id).peers.rows := by
    refine List.mem_map.mpr ⟨q, hq, ?_⟩
    simp [hid]
  have hnew : v.wanted (w.store.write c p.id) (v.key p) = c.activates := by
    have hsame : v.key (c.apply q) = v.key p :=
      (v.key_congr _ q (c.id_apply q) (c.publicKey_apply q)).trans hname
    rw [← hsame, v.wanted_of_mem hrow, Change.isActive_apply]
  have hthere : v.there (w.store.write c p.id) = v.there w.store := by
    funext k
    rw [there, there, v.shown_congr (w.store.write c p.id) w.store rfl rfl]
  rw [Kept, hthere]
  refine Mirror.Owed.change h (v.key p) (fun k hk => ?_) (fun k b ho => ?_) ?_
  · refine v.wanted_update w.store c.id_apply c.publicKey_apply fun r hr hsel hkey => absurd ?_ hk
    have hr' : r = q := w.store.peers.eq_of_key_eq hr hq
      ((decide_eq_true_iff.mp hsel).trans hid.symm)
    rw [← hkey, hr', hname]
  · exact v.owed_set hcall ho fun e he => absurd he List.not_mem_nil
  · have hlt : i < w.calls.length := (List.getElem?_eq_some_iff.mp hcall).1
    obtain ⟨e, he, hhas, hpeer, hinstalls⟩ := v.has_effects c p
    exact ⟨_, List.mem_set hlt _, e, he, hhas, by rw [hpeer], by rw [hinstalls, hnew]⟩

theorem Kept.add {v : View κ} {w : World} (h : v.Kept w) {i : ℕ} {key : Key} {limit : Option ℤ}
    {ip : Ipv4} (hcall : w.calls[i]? = some (.allocated key limit ip))
    (hkey : key ∉ w.store.peers.rows.map Peer.publicKey) :
    let p := Store.fresh key limit ip w.store.peers.next
    v.Kept ⟨w.store.add key limit ip hkey,
      w.calls.set i (.applying [.writePeerFile p, .wgAddPeer p] [])⟩ := by
  intro p
  have hrows : (w.store.add key limit ip hkey).peers.rows = w.store.peers.rows ++ [p] := rfl
  have hrow : p ∈ (w.store.add key limit ip hkey).peers.rows := by
    rw [hrows]
    exact List.mem_append_right _ (List.mem_singleton_self p)
  have hthere : v.there (w.store.add key limit ip hkey) = v.there w.store := by
    funext k
    rw [there, there, v.shown_congr (w.store.add key limit ip hkey) w.store rfl rfl]
  rw [Kept, hthere]
  refine Mirror.Owed.change h (v.key p) (fun k hk => ?_) (fun k b ho => ?_) ?_
  · simp only [wanted, hrows, List.any_append, List.any_cons, List.any_nil, Bool.or_false,
      Ne.symm hk, decide_false, Bool.and_false]
  · exact v.owed_set hcall ho fun e he => absurd he List.not_mem_nil
  · have hlt : i < w.calls.length := (List.getElem?_eq_some_iff.mp hcall).1
    obtain ⟨e, he, hhas, hpeer, hinstalls⟩ := v.has_added p
    refine ⟨_, List.mem_set hlt _, e, he, hhas, congrArg v.key hpeer, ?_⟩
    rw [hinstalls, v.wanted_of_mem hrow]
    rfl

end View

def Store.Holds (d : Store) (p : Peer) : Prop :=
  ∃ q ∈ d.peers.rows, q.id = p.id ∧ q.publicKey = p.publicKey

def Lasting (d d' : Store) : Prop :=
  ∀ p ∈ d.peers.rows, p.isRevoked = true → ∃ q ∈ d'.peers.rows, q.id = p.id ∧ q.isRevoked = true

theorem Lasting.refl (d : Store) : Lasting d d := fun p hp hrevoked => ⟨p, hp, rfl, hrevoked⟩

theorem Lasting.trans {d d' d'' : Store} (h : Lasting d d') (h' : Lasting d' d'') :
    Lasting d d'' := by
  intro p hp hrevoked
  obtain ⟨q, hq, hid, hq'⟩ := h p hp hrevoked
  obtain ⟨r, hr, hid', hr'⟩ := h' q hq hq'
  exact ⟨r, hr, hid'.trans hid, hr'⟩

theorem Lasting.noReturn {d d' : Store} (h : Lasting d d') : NoReturn d d' := by
  intro p hp hrevoked q hq hid
  obtain ⟨r, hr, hid', hr'⟩ := h p hp hrevoked
  obtain rfl : q = r := d'.peers.eq_of_key_eq hq hr (hid.trans hid'.symm)
  have hstatus : q.status = .revoked := decide_eq_true_iff.mp hr'
  rw [Peer.isActive, hstatus]
  rfl

section Update
variable {d : Store} {sel : Peer → Bool} {f : Peer → Peer} (hid : ∀ p, (f p).id = p.id)
  (hkey : ∀ p, (f p).publicKey = p.publicKey)

theorem Store.Holds.update {p : Peer} (h : d.Holds p) : (d.update sel f hid hkey).Holds p := by
  obtain ⟨q, hq, hq'⟩ := h
  refine ⟨_, List.mem_map_of_mem hq, ?_⟩
  split_ifs
  · rwa [hid, hkey]
  · exact hq'

variable (hrevoked : ∀ p ∈ d.peers.rows, sel p = true → p.isRevoked = true →
  (f p).isRevoked = true)
include hrevoked

theorem revoked_update {p : Peer} (hp : p ∈ d.peers.rows) (h : p.isRevoked = true) :
    (if sel p = true then f p else p).isRevoked = true := by
  split_ifs with hsel
  · exact hrevoked p hp hsel h
  · exact h

theorem lasting_update : Lasting d (d.update sel f hid hkey) := by
  intro p hp h
  refine ⟨_, List.mem_map_of_mem hp, ?_, revoked_update hrevoked hp h⟩
  split_ifs
  · exact hid p
  · rfl

theorem Sound.update (h : Sound d) (haddress : ∀ p, (f p).peerAddress = p.peerAddress) :
    Sound (d.update sel f hid hkey) := by
  have hlive : ∀ p ∈ d.peers.rows, (if sel p = true then f p else p).isRevoked = false →
      p.isRevoked = false := by
    intro p hp hfalse
    by_contra htrue
    rw [revoked_update hrevoked hp (Bool.not_eq_false _ ▸ htrue)] at hfalse
    cases hfalse
  have hsame : ∀ p, (if sel p = true then f p else p).peerAddress = p.peerAddress := by
    intro p
    split_ifs
    · exact haddress p
    · rfl
  constructor
  · intro p' hp' q' hq' hp'' hq'' heq
    obtain ⟨p, hp, rfl⟩ := List.mem_map.mp hp'
    obtain ⟨q, hq, rfl⟩ := List.mem_map.mp hq'
    rw [hsame, hsame] at heq
    rw [h.distinct p hp q hq (hlive p hp hp'') (hlive q hq hq'') heq]
  · intro hmax
    have hcount : (d.update sel f hid hkey).activeCount ≤ d.activeCount := by
      rw [Store.activeCount, Store.activeCount, Store.update, Table.rows_update,
        List.countP_map]
      refine List.countP_mono_left fun p hp hp' => ?_
      rw [Function.comp_apply, Bool.not_eq_true'] at hp'
      rw [Bool.not_eq_true']
      exact hlive p hp hp'
    exact (Int.ofNat_le.mpr hcount).trans (h.capped hmax)

end Update

section Add
variable {d : Store} {key : Key} {limit : Option ℤ} {ip : Ipv4}
  (hkey : key ∉ d.peers.rows.map Peer.publicKey)

theorem rows_add : (d.add key limit ip hkey).peers.rows =
    d.peers.rows ++ [Store.fresh key limit ip d.peers.next] := rfl

theorem Store.Holds.add {p : Peer} (h : d.Holds p) : (d.add key limit ip hkey).Holds p := by
  obtain ⟨q, hq, hq'⟩ := h
  exact ⟨q, List.mem_append_left _ hq, hq'⟩

theorem lasting_add : Lasting d (d.add key limit ip hkey) := fun p hp h =>
  ⟨p, List.mem_append_left _ hp, rfl, h⟩

theorem Sound.add (h : Sound d) (hfree : ip ∉ d.usedPeerIps)
    (hcap : 0 < d.service.maxPeers → d.activeCount < d.service.maxPeers) :
    Sound (d.add key limit ip hkey) := by
  have hnew : ∀ p ∈ d.peers.rows, p.isRevoked = false → p.peerAddress ≠ ip := by
    rintro p hp hlive rfl
    exact hfree (List.mem_map_of_mem (List.mem_filter.mpr ⟨hp, by rw [hlive]; rfl⟩))
  constructor
  · intro p hp q hq hp' hq' heq
    rw [rows_add, List.mem_append, List.mem_singleton] at hp hq
    obtain hp | rfl := hp
    · obtain hq | rfl := hq
      · exact h.distinct p hp q hq hp' hq' heq
      · exact absurd heq (hnew p hp hp')
    · obtain hq | rfl := hq
      · exact absurd heq.symm (hnew q hq hq')
      · rfl
  · intro hmax
    have hcount : (d.add key limit ip hkey).activeCount = d.activeCount + 1 := by
      rw [Store.activeCount, rows_add, List.countP_append]
      rfl
    rw [hcount]
    push_cast
    exact Int.add_one_le_iff.mpr (hcap hmax)

end Add

structure Invariant (w : World) : Prop where
  sound : Sound w.store
  held : ∀ call ∈ w.calls, ∀ p ∈ call.peers, w.store.Holds p
  interface : View.interface.Kept w
  disk : View.disk.Kept w

theorem held_set {w : World} (h : Invariant w) {d : Store}
    (hlater : ∀ p, w.store.Holds p → d.Holds p) (i : ℕ) {call : Call}
    (hcall : ∀ p ∈ call.peers, d.Holds p) :
    ∀ c ∈ w.calls.set i call, ∀ p ∈ c.peers, d.Holds p := by
  intro c hc p hp
  obtain hc | rfl := List.mem_or_eq_of_mem_set hc
  · exact hlater p (h.held c hc p hp)
  · exact hcall p hp

theorem Invariant.join {w : World} (h : Invariant w) {call : Call}
    (hcall : ∀ p ∈ call.peers, w.store.Holds p) : Invariant ⟨w.store, w.calls ++ [call]⟩ where
  sound := h.sound
  held := by
    intro c hc p hp
    obtain hc | hc := List.mem_append.mp hc
    · exact h.held c hc p hp
    · rw [List.mem_singleton.mp hc] at hp
      exact hcall p hp
  interface := h.interface.mono fun _ _ ho => View.interface.owed_append ho
  disk := h.disk.mono fun _ _ ho => View.disk.owed_append ho

theorem Invariant.begin {w : World} (h : Invariant w) (c : Change) (sel : Peer → Bool) :
    Invariant (w.begin c sel) := by
  refine h.join fun p hp => ?_
  simp only [Call.peers, List.map_nil, List.nil_append, List.map_map] at hp
  obtain ⟨q, hq, rfl⟩ := List.mem_map.mp hp
  exact ⟨q, (List.mem_filter.mp hq).1, rfl, rfl⟩

theorem Invariant.become {w : World} (h : Invariant w) {i : ℕ} {call call' : Call}
    (hcall : w.calls[i]? = some call) (hnone : call.effects = []) (hpeers : call'.peers = []) :
    Invariant ⟨w.store, w.calls.set i call'⟩ := by
  have howed : ∀ {κ : Type} [DecidableEq κ] (v : View κ) k b, v.owed w.calls k b →
      v.owed (w.calls.set i call') k b := fun v k b ho =>
    v.owed_set hcall ho fun e he => by
      rw [hnone] at he
      cases he
  refine ⟨h.sound, held_set h (fun _ hp => hp) i fun p hp => ?_, ?_, ?_⟩
  · rw [hpeers] at hp
    cases hp
  · exact h.interface.mono (howed View.interface)
  · exact h.disk.mono (howed View.disk)

theorem Invariant.sync {w : World} (h : Invariant w) (transfer : Key → Option ℤ)
    (period : String) : Invariant ⟨w.store.syncQuota transfer period, w.calls⟩ := by
  have hwanted : ∀ {κ : Type} [DecidableEq κ] (v : View κ) k,
      v.wanted (w.store.syncQuota transfer period) k = v.wanted w.store k := fun v k =>
    v.wanted_update w.store (Peer.id_synced transfer period)
      (Peer.publicKey_synced transfer period) fun _ _ _ _ => rfl
  refine ⟨h.sound.update (Peer.id_synced transfer period) (Peer.publicKey_synced transfer period)
      (fun _ _ _ hp => hp) fun _ => rfl,
    fun c hc p hp => (h.held c hc p hp).update (Peer.id_synced transfer period)
      (Peer.publicKey_synced transfer period), ?_, ?_⟩
  · exact h.interface.same (hwanted View.interface) rfl fun _ _ ho => ho
  · exact h.disk.same (hwanted View.disk) rfl fun _ _ ho => ho

theorem Invariant.perform {w : World} (h : Invariant w) {i : ℕ} {e : Effect}
    {effects : List Effect} {rest : List (Change × Peer)}
    (hcall : w.calls[i]? = some (.applying (e :: effects) rest))
    (hclear : w.store.Clear (.applying (e :: effects) rest)) :
    Invariant ⟨e.perform w.store, w.calls.set i (.applying effects rest)⟩ := by
  have hrows : (e.perform w.store).peers = w.store.peers := by cases e <;> rfl
  have hservice : (e.perform w.store).service = w.store.service := by cases e <;> rfl
  have hholds : ∀ p, w.store.Holds p → (e.perform w.store).Holds p := fun p hp => by
    rwa [Store.Holds, hrows]
  have hheld := h.held _ (List.mem_of_getElem? hcall)
  have hpeer : e.peer ∈ (Call.applying (e :: effects) rest).peers := by simp [Call.peers]
  have hwanted : ∀ {κ : Type} [DecidableEq κ] (v : View κ),
      v.wanted w.store (v.key e.peer) = e.installs := fun v => by
    obtain ⟨q, hq, hid, hkey⟩ := hheld e.peer hpeer
    rw [← v.key_congr q e.peer hid hkey, v.wanted_of_mem hq]
    exact hclear q hq hid
  refine ⟨⟨?_, ?_⟩, held_set h hholds i fun p hp => hholds p (hheld p ?_),
    h.interface.perform hcall (hwanted View.interface),
    h.disk.perform hcall (hwanted View.disk)⟩
  · rw [hrows]
    exact h.sound.distinct
  · rw [hservice, Store.activeCount, hrows]
    exact h.sound.capped
  · simp only [Call.peers, List.map_cons, List.cons_append, List.mem_cons] at hp ⊢
    exact .inr hp

theorem Invariant.write {w : World} (h : Invariant w) {i : ℕ} {c : Change} {p : Peer}
    {rest : List (Change × Peer)} (hcall : w.calls[i]? = some (.applying [] ((c, p) :: rest)))
    (hclear : w.store.Clear (.applying [] ((c, p) :: rest))) :
    Invariant ⟨w.store.write c p.id, w.calls.set i (.applying (c.effects p) rest)⟩ ∧
      Lasting w.store (w.store.write c p.id) := by
  have hheld := h.held _ (List.mem_of_getElem? hcall)
  obtain ⟨q, hq, hid, hkey⟩ := hheld p (by simp [Call.peers])
  have hrevoked : ∀ r ∈ w.store.peers.rows, decide (r.id = p.id) = true → r.isRevoked = true →
      (c.apply r).isRevoked = true := fun r hr hsel => hclear r hr (decide_eq_true_iff.mp hsel)
  have hholds : ∀ r, w.store.Holds r → (w.store.write c p.id).Holds r := fun _ hr =>
    hr.update c.id_apply c.publicKey_apply
  refine ⟨⟨h.sound.update c.id_apply c.publicKey_apply hrevoked c.peerAddress_apply,
    held_set h hholds i fun r hr => hholds r (hheld r ?_),
    h.interface.write hcall hq hid hkey, h.disk.write hcall hq hid hkey⟩,
    lasting_update c.id_apply c.publicKey_apply hrevoked⟩
  have heffects : (c.effects p).map Effect.peer = [p, p] := by
    rw [Change.effects]
    split_ifs
    · rfl
    · rfl
  simp only [Call.peers, heffects, List.map_nil, List.nil_append, List.map_cons, List.mem_append,
    List.mem_cons, List.not_mem_nil, or_false, or_self] at hr ⊢
  exact hr

theorem Invariant.add {w : World} (h : Invariant w) {i : ℕ} {key : Key} {limit : Option ℤ}
    {ip : Ipv4} (hcall : w.calls[i]? = some (.allocated key limit ip))
    (hclear : w.store.Clear (.allocated key limit ip))
    (hkey : key ∉ w.store.peers.rows.map Peer.publicKey) :
    let p := Store.fresh key limit ip w.store.peers.next
    Invariant ⟨w.store.add key limit ip hkey,
      w.calls.set i (.applying [.writePeerFile p, .wgAddPeer p] [])⟩ := by
  intro p
  have hrow : (w.store.add key limit ip hkey).Holds p :=
    ⟨p, List.mem_append_right _ (List.mem_singleton_self p), rfl, rfl⟩
  refine ⟨h.sound.add hkey hclear.1 hclear.2,
    held_set h (fun _ hp => hp.add hkey) i fun r hr => ?_,
    h.interface.add hcall hkey, h.disk.add hcall hkey⟩
  have hr' : r = p := by simpa [Call.peers, Effect.peer] using hr
  rw [hr']
  exact hrow

theorem Invariant.service {w : World} (h : Invariant w) {service : Service}
    (hcap : 0 < service.maxPeers → w.store.activeCount ≤ service.maxPeers) :
    Invariant ⟨{ w.store with service }, w.calls⟩ where
  sound := ⟨h.sound.distinct, hcap⟩
  held := h.held
  interface := h.interface
  disk := h.disk

theorem Invariant.step {w : World} (h : Invariant w) {e : Event} (hclear : Clear w e) :
    Invariant (w.step serverIp e) ∧ Lasting w.store (w.step serverIp e).store := by
  cases e with
  | addPeer key limit =>
    simp only [World.step]
    split_ifs
    · exact ⟨h.join fun _ hp => (nomatch hp), .refl _⟩
    · exact ⟨h, .refl _⟩
  | removePeer id => exact ⟨h.begin _ _, .refl _⟩
  | suspendPeer id => exact ⟨h.begin _ _, .refl _⟩
  | activatePeer id => exact ⟨h.begin _ _, .refl _⟩
  | enforceWgPeerQuotas => exact ⟨h.begin _ _, .refl _⟩
  | resetNewPeriodQuotas current => exact ⟨h.begin _ _, .refl _⟩
  | syncQuota transfer period =>
    exact ⟨h.sync transfer period, lasting_update (Peer.id_synced transfer period)
      (Peer.publicKey_synced transfer period) fun _ _ _ hp => hp⟩
  | updateServiceLimits maxPeers =>
    refine ⟨h.service fun hmax => ?_, .refl _⟩
    obtain hnone | ⟨hold, hle⟩ := hclear
    · exact absurd hmax (not_lt.mpr hnone)
    · exact (h.sound.capped hold).trans hle
  | setServiceActive isActive => exact ⟨h.service h.sound.capped, .refl _⟩
  | proceed i =>
    simp only [World.step]
    cases hcall : w.calls[i]? with
    | none => exact ⟨h, .refl _⟩
    | some call =>
      have hclear' := hclear call hcall
      cases call with
      | adding svc key limit =>
        simp only [Call.next]
        split_ifs
        · exact ⟨h.become hcall rfl rfl, .refl _⟩
        · exact ⟨h.become hcall rfl rfl, .refl _⟩
      | counted svc key limit =>
        simp only [Call.next]
        split
        · exact ⟨h.become hcall rfl rfl, .refl _⟩
        · exact ⟨h.become hcall rfl rfl, .refl _⟩
      | allocated key limit ip =>
        simp only [Call.next]
        split_ifs with hkey
        · exact ⟨h.become hcall rfl rfl, .refl _⟩
        · exact ⟨h.add hcall hclear' hkey, lasting_add hkey⟩
      | applying effects rest =>
        cases effects with
        | cons e effects =>
          have hrows : (e.perform w.store).peers = w.store.peers := by cases e <;> rfl
          refine ⟨h.perform hcall hclear', fun p hp hrevoked => ⟨p, ?_, rfl, hrevoked⟩⟩
          exact hrows.symm ▸ hp
        | nil =>
          cases rest with
          | nil => exact ⟨h.become hcall rfl rfl, .refl _⟩
          | cons change rest => exact h.write hcall hclear'

theorem Settled.invariant {w : World} (h : Settled w) : Invariant w := by
  refine ⟨h.sound, fun call hcall p hp => ?_, fun key => .inl ?_, fun id => .inl ?_⟩
  · rw [h.idle call hcall] at hp
    cases hp
  · rw [Bool.eq_iff_iff, View.wanted_eq_true, View.there, decide_eq_true_iff]
    exact h.installed.interface key
  · rw [Bool.eq_iff_iff, View.wanted_eq_true, View.there, decide_eq_true_iff]
    exact h.installed.files id

theorem Invariant.installed {w : World} (h : Invariant w) (hidle : w.Idle) : Installed w.store :=
  ⟨h.interface.settled hidle, h.disk.settled hidle⟩

theorem Invariant.run {w : World} (h : Invariant w) {es : List Event}
    (hclear : Run.Along Clear (World.step serverIp) w es) :
    Invariant (Run.run (World.step serverIp) w es) ∧
      Lasting w.store (Run.run (World.step serverIp) w es).store := by
  induction es generalizing w with
  | nil => exact ⟨h, .refl _⟩
  | cons e es ih =>
    obtain ⟨hinvariant, hlasting⟩ :
        Invariant (w.step serverIp e) ∧ Lasting w.store (w.step serverIp e).store :=
      h.step hclear.1
    obtain ⟨hinvariant', hlasting'⟩ := ih hinvariant hclear.2
    exact ⟨hinvariant', hlasting.trans hlasting'⟩

/-- In a run in which no step meets a row that has changed since its call looked, the peers keep
to the law. -/
theorem peersLaw_of_clear {w : World} (h : Settled w) {es : List Event}
    (hclear : Run.Along Clear (World.step serverIp) w es) : PeersLaw serverIp w es := by
  have hpre : ∀ {pre post}, es = pre ++ post → Run.Along Clear (World.step serverIp) w pre :=
    fun hes => (Run.along_append.mp (hes ▸ hclear)).1
  refine ⟨fun pre post hes => (h.invariant.run (hpre hes)).1.sound, fun pre mid post hes => ?_,
    fun pre post hes => (h.invariant.run (hpre hes)).1.installed⟩
  obtain ⟨hfirst, hsecond⟩ := Run.along_append.mp
    (hpre (hes.trans (List.append_assoc pre mid post).symm))
  have happend : Run.run (World.step serverIp) w (pre ++ mid) =
      Run.run (World.step serverIp) (Run.run (World.step serverIp) w pre) mid := List.foldl_append
  rw [happend]
  exact ((h.invariant.run hfirst).1.run hsecond).2.noReturn

def oneSeat : World where
  store :=
    { service := ⟨true, 1, ⟨Fin.ofNat _ 174325760, 24⟩⟩, peers := .empty, keys := List.nodup_nil,
      interface := ∅, files := ∅ }
  calls := []

def gateway : Ipv4 := Fin.ofNat _ 174325761

theorem oneSeat_settled : Settled oneSeat where
  sound := ⟨fun _ hp => (nomatch hp), fun _ => by decide⟩
  installed := ⟨fun _ => by simp [oneSeat], fun _ => by simp [oneSeat]⟩
  idle := fun _ hcall => (nomatch hcall)

def oneAfterAnother : List Event :=
  .addPeer ['k'] none :: List.replicate 5 (.proceed 0) ++
    (.suspendPeer 1 :: List.replicate 3 (.proceed 1)) ++
    (.activatePeer 1 :: List.replicate 3 (.proceed 2))

theorem oneAfterAnother_law : PeersLaw gateway oneSeat oneAfterAnother :=
  peersLaw_of_clear oneSeat_settled (by decide)

def sideBySide : List Event :=
  [.addPeer ['j'] none, .addPeer ['k'] none, .proceed 0, .proceed 1, .proceed 0, .proceed 1,
    .proceed 0, .proceed 1]

theorem two_in_one_seat : Settled oneSeat ∧ ¬ PeersLaw gateway oneSeat sideBySide := by
  refine ⟨oneSeat_settled, fun h => ?_⟩
  have hcapped := (h.sound sideBySide [] (List.append_nil _).symm).capped
  exact absurd (hcapped (by decide)) (by decide)

end RadiusModule.WgData
