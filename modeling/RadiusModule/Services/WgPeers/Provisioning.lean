import RadiusModule.Library.Run
import RadiusModule.Services.WgPeers.PeerFile

/-!
# Provisioning peers

A call that provisions looks whether the file is there, looks for a free
address, and writes the file; one that removes looks and removes. Nothing is
locked between these steps.
-/

namespace RadiusModule.WgPeers
open Library

structure WgConfig where
  network : Ipv4Net
  serverIp : Ipv4

/-- The files of `peers.d` that are listed: their stems and their texts. -/
structure Directory where
  files : Dict (List Char) (List Char)
  nodup : (files.map Prod.fst).Nodup

namespace Directory
variable (d : Directory)

def has (slug : List Char) : Bool := (d.files.get? slug).isSome

def write (slug text : List Char) : Directory where
  files := d.files.put slug text
  nodup := Dict.nodup_put d.nodup slug text

def unlink (slug : List Char) : Directory where
  files := d.files.keep (· ≠ slug)
  nodup := (d.nodup.sublist (List.filter_sublist.map Prod.fst))

def addressOf (slug : List Char) : Option Ipv4 :=
  (d.files.get? slug).bind fun text => usedIp (parsePeerFile text)

def usedIps : List Ipv4 := d.files.filterMap fun file => usedIp (parsePeerFile file.2)

end Directory

/-- `allocate_next_ip`; `none` where it raises. -/
def allocateNextIp (cfg : WgConfig) (d : Directory) : Option { ip : Ipv4 // ip ≠ cfg.serverIp } :=
  cfg.network.hosts.findSome? fun ip =>
    if h : ip ≠ cfg.serverIp then if ip ∈ d.usedIps then none else some ⟨ip, h⟩ else none

/-- A call of `provision_peer` with the slug of its name. -/
structure Provision where
  routerName : String
  token : Token
  slug : List Char
  slugified : slugify token routerName = some slug
  publicKey : PublicKey
  keepaliveSec : ℤ

def Provision.block (p : Provision) (ip : Ipv4) : List Char :=
  renderPeerBlock p.routerName p.publicKey ip p.keepaliveSec

inductive Call (cfg : WgConfig)
  | checked (p : Provision)
  | scanned (p : Provision) (ip : { ip : Ipv4 // ip ≠ cfg.serverIp })
  | removing (slug : List Char)
  | releasing (ip : Ipv4) (children : List (List Char))
  | matched (ip : Ipv4) (child : List Char) (children : List (List Char))
  | finished

structure World (cfg : WgConfig) where
  dir : Directory
  calls : List (Call cfg)

inductive Event
  | provisionPeer (routerName : String) (token : Token) (publicKey : PublicKey) (keepaliveSec : ℤ)
  | deprovisionPeer (slugOrName : String) (token : Token)
  | releasePeerByIp (ip : Ipv4)
  | proceed (i : ℕ)

variable {cfg : WgConfig}

def Call.next (d : Directory) : Call cfg → Directory × Call cfg
  | .checked p =>
    match allocateNextIp cfg d with
    | none => (d, .finished)
    | some ip => (d, .scanned p ip)
  | .scanned p ip => (d.write p.slug (p.block ip), .finished)
  | .removing slug => (d.unlink slug, .finished)
  | .releasing _ [] => (d, .finished)
  | .releasing ip (child :: children) =>
    if d.addressOf child = some ip then (d, .matched ip child children)
    else (d, .releasing ip children)
  | .matched ip child children => (d.unlink child, .releasing ip children)
  | .finished => (d, .finished)

def World.step (w : World cfg) : Event → World cfg
  | .provisionPeer routerName token publicKey keepaliveSec =>
    match h : slugify token routerName with
    | none => w
    | some slug =>
      if w.dir.has slug then w
      else
        { w with
          calls := w.calls ++ [.checked ⟨routerName, token, slug, h, publicKey, keepaliveSec⟩] }
  | .deprovisionPeer slugOrName token =>
    match slugify token slugOrName with
    | none => w
    | some slug => if w.dir.has slug then { w with calls := w.calls ++ [.removing slug] } else w
  | .releasePeerByIp ip =>
    { w with calls := w.calls ++ [.releasing ip (w.dir.files.map Prod.fst)] }
  | .proceed i =>
    match w.calls[i]? with
    | none => w
    | some call => ⟨(call.next w.dir).1, w.calls.set i (call.next w.dir).2⟩

def Directory.deprovisionPeer (d : Directory) (token : Token) (slugOrName : String) : Directory :=
  match slugify token slugOrName with
  | none => d
  | some slug => if d.has slug then d.unlink slug else d

structure Sound (cfg : WgConfig) (d : Directory) : Prop where
  distinct : ∀ slug slug' ip, d.addressOf slug = some ip → d.addressOf slug' = some ip →
    slug = slug'
  server : ∀ slug, d.addressOf slug ≠ some cfg.serverIp

def World.writing (w : World cfg) : Event → Option (Provision × Ipv4)
  | .proceed i =>
    match w.calls[i]? with
    | some (.scanned p ip) => some (p, ip)
    | _ => none
  | _ => none

/-- A written file replaces none, says what was assigned, and is what the removal of its router
removes, whatever that draws. -/
structure Provisioned (d d' : Directory) (p : Provision) (ip : Ipv4) : Prop where
  fresh : d.has p.slug = false
  parsed : ∃ text, d'.files.get? p.slug = some text ∧
    (parsePeerFile text).get? "PublicKey".toList = some p.publicKey.val ∧
    (parsePeerFile text).get? "AllowedIPs".toList = some (allowedIps ip) ∧
    d'.addressOf p.slug = some ip
  removed : ∀ token, (d'.deprovisionPeer token p.routerName).files = (d'.unlink p.slug).files

structure Kept (w : World cfg) (e : Event) : Prop where
  sound : Sound cfg (w.step e).dir
  provisioned : ∀ p ip, w.writing e = some (p, ip) → Provisioned w.dir (w.step e).dir p ip

structure PeersLaw (w : World cfg) (es : List Event) : Prop where
  start : Sound cfg w.dir
  along : Run.Along Kept World.step w es

/-- No file of that stem or with that address has come since the call looked, and the name has a
Latin letter that a file name may hold. -/
def Clear (w : World cfg) (e : Event) : Prop :=
  ∀ p ip, w.writing e = some (p, ip) → w.dir.has p.slug = false ∧
    (∀ slug, w.dir.addressOf slug ≠ some ip) ∧ hasLatin p.routerName = true

theorem get?_unlink (d : Directory) (slug key : List Char) :
    (d.unlink slug).files.get? key = if key = slug then none else d.files.get? key := by
  by_cases hkey : key = slug
  · rw [if_pos hkey, hkey]
    cases hget : (d.unlink slug).files.get? slug with
    | none => rfl
    | some text =>
      have hmem := Dict.mem_of_get? hget
      simp [Directory.unlink, Dict.keep] at hmem
  · rw [if_neg hkey]
    change (d.files.keep (· ≠ slug)).get? key = d.files.get? key
    exact Dict.get?_keep (by simpa using hkey) d.files

theorem addressOf_unlink (d : Directory) (slug key : List Char) :
    (d.unlink slug).addressOf key = if key = slug then none else d.addressOf key := by
  rw [Directory.addressOf, get?_unlink]
  split_ifs
  · rfl
  · rfl

theorem addressOf_block (d : Directory) (p : Provision) (ip : Ipv4) (key : List Char) :
    (d.write p.slug (p.block ip)).addressOf key =
      if p.slug = key then some ip else d.addressOf key := by
  have hused : usedIp (parsePeerFile (p.block ip)) = some ip :=
    (parsePeerFile_render p.routerName p.publicKey ip p.keepaliveSec).2.2
  rw [Directory.addressOf, Directory.write, Dict.get?_put]
  split_ifs
  · rw [Option.bind_some]
    exact hused
  · rfl

theorem Sound.unlink {d : Directory} (h : Sound cfg d) (slug : List Char) :
    Sound cfg (d.unlink slug) := by
  have hsub : ∀ key ip, (d.unlink slug).addressOf key = some ip → d.addressOf key = some ip := by
    intro key ip hkey
    rw [addressOf_unlink] at hkey
    split_ifs at hkey
    exact hkey
  exact ⟨fun s t ip hs ht => h.distinct s t ip (hsub s ip hs) (hsub t ip ht),
    fun s hs => h.server s (hsub s _ hs)⟩

theorem Sound.write {d : Directory} (h : Sound cfg d) (p : Provision) {ip : Ipv4}
    (hserver : ip ≠ cfg.serverIp) (hfree : ∀ slug, d.addressOf slug ≠ some ip) :
    Sound cfg (d.write p.slug (p.block ip)) := by
  constructor
  · intro s t a hs ht
    rw [addressOf_block] at hs ht
    split_ifs at hs ht with hs' ht' ht'
    · exact hs'.symm.trans ht'
    · cases hs
      exact absurd ht (hfree t)
    · cases ht
      exact absurd hs (hfree s)
    · exact h.distinct s t a hs ht
  · intro s hs
    rw [addressOf_block] at hs
    split_ifs at hs
    · exact hserver (Option.some_inj.mp hs)
    · exact h.server s hs

theorem step_dir (w : World cfg) (e : Event) :
    (∃ p, ∃ ip : { ip : Ipv4 // ip ≠ cfg.serverIp }, w.writing e = some (p, ip.val) ∧
      (w.step e).dir = w.dir.write p.slug (p.block ip)) ∨
    w.writing e = none ∧ ((w.step e).dir = w.dir ∨ ∃ slug, (w.step e).dir = w.dir.unlink slug) := by
  cases e with
  | provisionPeer routerName token publicKey keepaliveSec =>
    refine .inr ⟨rfl, .inl ?_⟩
    simp only [World.step]
    split
    · rfl
    · split_ifs
      · rfl
      · rfl
  | deprovisionPeer slugOrName token =>
    refine .inr ⟨rfl, .inl ?_⟩
    simp only [World.step]
    split
    · rfl
    · split_ifs
      · rfl
      · rfl
  | releasePeerByIp ip => exact .inr ⟨rfl, .inl rfl⟩
  | proceed i =>
    simp only [World.writing, World.step]
    cases hcall : w.calls[i]? with
    | none => exact .inr ⟨rfl, .inl rfl⟩
    | some call =>
      cases call with
      | checked p =>
        refine .inr ⟨rfl, .inl ?_⟩
        simp only [Call.next]
        split
        · rfl
        · rfl
      | scanned p ip => exact .inl ⟨p, ip, rfl, rfl⟩
      | removing slug => exact .inr ⟨rfl, .inr ⟨slug, rfl⟩⟩
      | releasing ip children =>
        refine .inr ⟨rfl, .inl ?_⟩
        cases children with
        | nil => rfl
        | cons child children =>
          simp only [Call.next]
          split_ifs
          · rfl
          · rfl
      | matched ip child children => exact .inr ⟨rfl, .inr ⟨child, rfl⟩⟩
      | finished => exact .inr ⟨rfl, .inl rfl⟩

theorem slugify_of_hasLatin {name : String} (h : hasLatin name = true) (token token' : Token) :
    slugify token name = slugify token' name := by
  simp only [slugify, h, if_true]

theorem isPeerName_token (token : Token) : isPeerName ("nas-".toList ++ token.val) = true := by
  have hhex : ∀ c ∈ "0123456789abcdef".toList, isNameChar c = true := by decide
  have hall : token.val.all isNameChar = true :=
    List.all_eq_true.mpr fun c hc => hhex c (token.property.2 c hc)
  have hlength : ("nas-".toList ++ token.val).length = 10 := by
    rw [List.length_append, token.property.1]
    rfl
  have hhead : ("nas-".toList ++ token.val).head? = some 'n' := rfl
  rw [isPeerName, hlength, hhead, List.all_append, hall]
  decide

theorem slugify_of_not_hasLatin {name : String} (h : hasLatin name = false) {token : Token}
    {slug : List Char} (hslug : slugify token name = some slug) (token' : Token) :
    slug = "nas-".toList ++ token.val ∧
      slugify token' name = some ("nas-".toList ++ token'.val) := by
  simp only [slugify, h, Bool.false_eq_true, if_false, isPeerName_token, if_true] at hslug ⊢
  split_ifs at hslug with hempty
  rw [if_neg hempty]
  exact ⟨(Option.some_inj.mp hslug).symm, rfl⟩

theorem exists_other_token (token : Token) : ∃ token' : Token, token'.val ≠ token.val := by
  by_cases h : token.val = "000000".toList
  · refine ⟨⟨"111111".toList, by decide, by decide⟩, ?_⟩
    rw [h]
    decide
  · exact ⟨⟨"000000".toList, by decide, by decide⟩, Ne.symm h⟩

theorem removed_iff (d : Directory) (p : Provision) (ip : Ipv4) :
    (∀ token, ((d.write p.slug (p.block ip)).deprovisionPeer token p.routerName).files =
      ((d.write p.slug (p.block ip)).unlink p.slug).files) ↔ hasLatin p.routerName = true := by
  have hget : (d.write p.slug (p.block ip)).files.get? p.slug = some (p.block ip) := by
    rw [Directory.write, Dict.get?_put, if_pos rfl]
  have hhas : (d.write p.slug (p.block ip)).has p.slug = true := by
    rw [Directory.has, hget, Option.isSome_some]
  constructor
  · intro h
    by_contra hlatin
    obtain ⟨token, hne⟩ := exists_other_token p.token
    obtain ⟨hslug, hdrawn⟩ := slugify_of_not_hasLatin (Bool.eq_false_iff.mpr hlatin) p.slugified
      token
    have hother : p.slug ≠ "nas-".toList ++ token.val := by
      rw [hslug]
      exact fun heq => hne (List.append_cancel_left heq).symm
    have hgone : ((d.write p.slug (p.block ip)).unlink p.slug).files.get? p.slug = none := by
      rw [get?_unlink, if_pos rfl]
    have hstays : ((d.write p.slug (p.block ip)).deprovisionPeer token p.routerName).files.get?
        p.slug = some (p.block ip) := by
      simp only [Directory.deprovisionPeer, hdrawn]
      split_ifs
      · rw [get?_unlink, if_neg hother, hget]
      · exact hget
    rw [h token, hgone] at hstays
    cases hstays
  · intro hlatin token
    simp only [Directory.deprovisionPeer, slugify_of_hasLatin hlatin token p.token, p.slugified,
      hhas, if_true]

theorem kept_iff {w : World cfg} (hw : Sound cfg w.dir) (e : Event) : Kept w e ↔ Clear w e := by
  obtain ⟨p, ip, hwriting, hdir⟩ | ⟨hwriting, hdir⟩ := step_dir w e
  · constructor
    · intro h p' ip' hpair
      have hprovisioned := h.provisioned p' ip' hpair
      obtain ⟨rfl, rfl⟩ := Prod.mk.inj (Option.some_inj.mp (hwriting.symm.trans hpair))
      have hfresh := hprovisioned.fresh
      refine ⟨hfresh, fun slug hslug => ?_, ?_⟩
      · have hne : p.slug ≠ slug := by
          rintro rfl
          rw [Directory.has, Option.isSome_eq_false_iff, Option.isNone_iff_eq_none] at hfresh
          rw [Directory.addressOf, hfresh] at hslug
          cases hslug
        refine hne (h.sound.distinct p.slug slug ip ?_ ?_)
        · rw [hdir, addressOf_block, if_pos rfl]
        · rw [hdir, addressOf_block, if_neg hne, hslug]
      · have hremoved := hprovisioned.removed
        rw [hdir] at hremoved
        exact (removed_iff w.dir p ip).mp hremoved
    · intro h
      obtain ⟨hfresh, hfree, hlatin⟩ := h p ip hwriting
      refine ⟨hdir ▸ hw.write p ip.property hfree, fun p' ip' hpair => ?_⟩
      obtain ⟨rfl, rfl⟩ := Prod.mk.inj (Option.some_inj.mp (hwriting.symm.trans hpair))
      obtain ⟨hkey, hips, -⟩ := parsePeerFile_render p.routerName p.publicKey ip p.keepaliveSec
      rw [hdir]
      refine ⟨hfresh, ⟨p.block ip, ?_, hkey, hips, ?_⟩, (removed_iff w.dir p ip).mpr hlatin⟩
      · rw [Directory.write, Dict.get?_put, if_pos rfl]
      · rw [addressOf_block, if_pos rfl]
  · have hnone : ∀ p ip, w.writing e ≠ some (p, ip) := fun p ip h => by
      rw [hwriting] at h
      cases h
    constructor
    · exact fun _ p ip h => absurd h (hnone p ip)
    · refine fun _ => ⟨?_, fun p ip h => absurd h (hnone p ip)⟩
      obtain hdir | ⟨slug, hdir⟩ := hdir
      · rw [hdir]
        exact hw
      · rw [hdir]
        exact hw.unlink slug

/-- The peers keep to the law in a run if and only if they do at its start, and no provision finds
that another call came in between, or has to draw a stem. -/
theorem peersLaw_iff (w : World cfg) (es : List Event) :
    PeersLaw w es ↔ Sound cfg w.dir ∧ Run.Along Clear World.step w es := by
  have halong : ∀ (es : List Event) (w : World cfg), Sound cfg w.dir →
      (Run.Along Kept World.step w es ↔ Run.Along Clear World.step w es) := by
    intro es
    induction es with
    | nil => exact fun _ _ => Iff.rfl
    | cons e es ih =>
      intro w hw
      constructor
      · rintro ⟨hkept, hrest⟩
        exact ⟨(kept_iff hw e).mp hkept, (ih _ hkept.sound).mp hrest⟩
      · rintro ⟨hclear, hrest⟩
        have hkept := (kept_iff hw e).mpr hclear
        exact ⟨hkept, (ih _ hkept.sound).mpr hrest⟩
  constructor
  · rintro ⟨hstart, hkept⟩
    exact ⟨hstart, (halong es w hstart).mp hkept⟩
  · rintro ⟨hstart, hclear⟩
    exact ⟨hstart, (halong es w hstart).mpr hclear⟩

def emptyDirectory : Directory := ⟨[], by decide⟩

def smallNet : WgConfig := ⟨⟨Fin.ofNat _ 167772160, 30⟩, Fin.ofNat _ 167772161⟩

def bothKeys : PublicKey := ⟨List.replicate 44 'A', by decide⟩

def anyToken : Token := ⟨List.replicate 6 '0', by decide⟩

def bothAtOnce : List Event :=
  [.provisionPeer "a" anyToken bothKeys 25, .provisionPeer "b" anyToken bothKeys 25,
    .proceed 0, .proceed 1, .proceed 0, .proceed 1]

theorem both_written :
    let d := (Run.run World.step (⟨emptyDirectory, []⟩ : World smallNet) bothAtOnce).dir
    d.addressOf "a".toList = some (Fin.ofNat _ 167772162) ∧
      d.addressOf "b".toList = some (Fin.ofNat _ 167772162) := by
  decide

theorem both_get_one_address :
    Sound smallNet emptyDirectory ∧
      ¬ PeersLaw (⟨emptyDirectory, []⟩ : World smallNet) bothAtOnce := by
  refine ⟨⟨fun _ _ _ h => (nomatch h), fun _ h => (nomatch h)⟩, fun h => ?_⟩
  have hlast : Run.Along Kept World.step _ (bothAtOnce.dropLast ++ [.proceed 1]) := h.along
  have hsound := (Run.along_append.mp hlast).2.1.sound
  have heq := hsound.distinct "a".toList "b".toList _ both_written.1 both_written.2
  exact absurd heq (by decide)

end RadiusModule.WgPeers
