import Mathlib.Algebra.Order.Ring.Star
import Mathlib.Data.Int.Star
import RadiusModule.Services.AccessControl
import RadiusModule.Services.CardReconcile.AccountingReconcile

/-!
# Finding a block and ending it

The lookup reads the newest thousand active rows and stops where the end of one
cannot be brought to UTC. The sweep compares the text of an end with that of the
instant, whatever form it is stored in.
-/

namespace RadiusModule.AccessControl
open Library PyText CardReconcile

/-- A row of `access_blocks` with its texts as they are stored. -/
structure StoredBlock where
  id : ℕ
  tenantId : ℕ
  blockType : String
  target : String := ""
  durationMode : String := "permanent"
  windowStart : String := ""
  windowEnd : String := ""
  expiresAt : String := ""
  active : ℤ := 1
deriving DecidableEq

def BlockType.ofText : String → Option BlockType
  | "subscriber" => some .subscriber
  | "group" => some .group
  | "plan" => some .plan
  | "card_batch" => some .cardBatch
  | "all_subscribers" => some .allSubscribers
  | "all_cards" => some .allCards
  | "all_hotspot" => some .allHotspot
  | "all_pppoe" => some .allPppoe
  | "ip" => some .ip
  | "mac" => some .mac
  | _ => none

namespace StoredBlock
variable (b : StoredBlock)

def matchesRequest (ctx : AuthContext) : Bool :=
  (BlockType.ofText b.blockType).any fun blockType =>
    blockMatches { id := b.id, blockType, target := b.target } ctx

def isUntil : Bool := b.durationMode = "until"

section
variable (texts : DateTexts) (localMinute : DateTime → ℤ)

def isBlockInEffect (now : DateTime) : Except DateError Bool :=
  if b.active = 0 then .ok false
  else if b.isUntil then
    match parseDtUtc texts (some (strip b.expiresAt)) with
    | .error e => .error e
    | .ok none => .ok true
    | .ok (some exp) => .ok (now.1 < exp.1)
  else if b.durationMode = "daily_window" then
    .ok (inDailyWindow b.windowStart b.windowEnd (localMinute now))
  else .ok true

end
end StoredBlock

/-- `list_blocks` of a tenant's active rows, from a table in the order of its ids. -/
def listActive (rows : List StoredBlock) (tenantId limit : ℕ) : List StoredBlock :=
  (rows.filter fun b => b.tenantId = tenantId && b.active = 1).reverse.take limit

section
variable (texts : DateTexts) (localMinute : DateTime → ℤ)

def firstBlock (ctx : AuthContext) (now : DateTime) : List StoredBlock → Option StoredBlock
  | [] => none
  | b :: rest =>
    if b.matchesRequest ctx then
      match b.isBlockInEffect texts localMinute now with
      | .error _ => none
      | .ok true => some b
      | .ok false => firstBlock ctx now rest
    else firstBlock ctx now rest

def findStoredBlock (rows : List StoredBlock) (tenantId : ℕ) (ctx : AuthContext)
    (now : DateTime) : Option StoredBlock :=
  firstBlock texts localMinute ctx now (listActive rows tenantId 1000)

def StoredBlock.swept (b : StoredBlock) (tenantId : ℕ) (now : DateTime) : StoredBlock :=
  if b.tenantId = tenantId ∧ b.active = 1 ∧ b.isUntil ∧ b.expiresAt ≠ "" ∧
      b.expiresAt ≤ texts.isoformat now ++ "Z" then
    { b with active := 0 }
  else b

def StoredBlock.ending (b : StoredBlock) : Option ℤ :=
  if strip b.expiresAt = "" then none
  else (texts.fromisoformat (dropChar (strip b.expiresAt) 'Z')).map fun m =>
    m.wall.1 - m.offset.getD 0

def StoredBlock.Ended (b : StoredBlock) (now : DateTime) : Prop :=
  b.isUntil = true ∧ ∃ e ∈ b.ending texts, e ≤ now.1

def StoredBlock.InEffect (b : StoredBlock) (now : DateTime) : Prop :=
  ¬ b.Ended texts now ∧ (b.durationMode = "daily_window" →
    inDailyWindow b.windowStart b.windowEnd (localMinute now) = true)

structure Blocks.Kept (rows : List StoredBlock) (tenantId : ℕ) (now : DateTime) : Prop where
  found : ∀ ctx, (findStoredBlock texts localMinute rows tenantId ctx now).isSome ↔
    ∃ b ∈ rows, b.tenantId = tenantId ∧ b.active = 1 ∧ b.InEffect texts localMinute now ∧
      b.matchesRequest ctx = true
  swept : ∀ b ∈ rows, b.tenantId = tenantId → b.active = 1 →
    ((b.swept texts tenantId now).active = 0 ↔ b.Ended texts now)

def StoredBlock.Readable (b : StoredBlock) : Prop :=
  b.isUntil = true → ∀ e ∈ b.ending texts, (DateTime.ofMicros? e).isSome

/-- One that matches and is in effect is among the thousand newest, and before it there is none
that matches and whose end is not readable. -/
def Reached (rows : List StoredBlock) (tenantId : ℕ) (ctx : AuthContext) (now : DateTime) : Prop :=
  ∃ front b rest, listActive rows tenantId 1000 = front ++ b :: rest ∧
    b.InEffect texts localMinute now ∧ b.matchesRequest ctx = true ∧ b.Readable texts ∧
      ∀ a ∈ front, a.matchesRequest ctx = true → a.Readable texts

def StoredBlock.TextInOrder (b : StoredBlock) (now : DateTime) : Prop :=
  b.isUntil = true → b.expiresAt ≠ "" →
    (b.expiresAt ≤ texts.isoformat now ++ "Z" ↔ b.Ended texts now)

end

section
variable {texts : DateTexts} {localMinute : DateTime → ℤ} {b : StoredBlock} {now : DateTime}

theorem StoredBlock.parse_ending (texts : DateTexts) (b : StoredBlock) :
    (∃ d, parseDtUtc texts (some (strip b.expiresAt)) = .ok (some d) ∧
        b.ending texts = some d.1) ∨
      (parseDtUtc texts (some (strip b.expiresAt)) = .ok none ∧ b.ending texts = none) ∨
      (∃ error e, parseDtUtc texts (some (strip b.expiresAt)) = .error error ∧
        b.ending texts = some e ∧ DateTime.ofMicros? e = none) := by
  simp only [parseDtUtc, StoredBlock.ending]
  by_cases hempty : strip b.expiresAt = ""
  · rw [if_pos hempty, if_pos hempty]
    exact .inr (.inl ⟨rfl, rfl⟩)
  · rw [if_neg hempty, if_neg hempty]
    cases texts.fromisoformat (dropChar (strip b.expiresAt) 'Z') with
    | none => exact .inr (.inl ⟨rfl, rfl⟩)
    | some m =>
      obtain ⟨wall, offset⟩ := m
      cases offset with
      | none => exact .inl ⟨wall, rfl, by simp⟩
      | some offset =>
        cases hu : DateTime.ofMicros? (wall.1 - offset) with
        | none => exact .inr (.inr ⟨.overflow, _, by simp [hu], rfl, hu⟩)
        | some u => exact .inl ⟨u, by simp [hu], by simp [DateTime.ofMicros?_val hu]⟩

theorem ofMicros?_isSome (d : DateTime) : (DateTime.ofMicros? d.1).isSome := by
  rw [DateTime.ofMicros?, dif_pos d.2]
  rfl

theorem StoredBlock.isBlockInEffect_spec (texts : DateTexts) (localMinute : DateTime → ℤ)
    (now : DateTime) (hactive : b.active = 1) :
    (b.isBlockInEffect texts localMinute now = .ok true ∧ b.Readable texts ∧
        b.InEffect texts localMinute now) ∨
      (b.isBlockInEffect texts localMinute now = .ok false ∧ b.Readable texts ∧
        ¬ b.InEffect texts localMinute now) ∨
      ((∃ e, b.isBlockInEffect texts localMinute now = .error e) ∧ ¬ b.Readable texts) := by
  have hone : ¬ b.active = 0 := by omega
  rw [StoredBlock.isBlockInEffect, if_neg hone]
  by_cases huntil : b.isUntil = true
  · have hmode : b.durationMode ≠ "daily_window" := by
      rw [of_decide_eq_true huntil]
      decide
    rw [if_pos huntil]
    obtain ⟨d, hparse, hending⟩ | ⟨hparse, hending⟩ | ⟨error, e, hparse, hending, hnone⟩ :=
      b.parse_ending texts
    · have hreadable : b.Readable texts := fun _ e he => by
        obtain rfl := Option.some.inj (hending.symm.trans he)
        exact ofMicros?_isSome d
      rw [hparse]
      by_cases hlt : now.1 < d.1
      · refine .inl ⟨by simp [hlt], hreadable, fun hended => ?_, fun h => absurd h hmode⟩
        obtain ⟨-, e, he, hle⟩ := hended
        obtain rfl := Option.some.inj (hending.symm.trans he)
        exact absurd hlt (not_lt.mpr hle)
      · refine .inr (.inl ⟨by simp [hlt], hreadable, fun hin => hin.1 ⟨huntil, d.1, hending, ?_⟩⟩)
        exact not_lt.mp hlt
    · have hreadable : b.Readable texts := fun _ e he => by
        rw [hending] at he
        cases he
      rw [hparse]
      refine .inl ⟨rfl, hreadable, fun hended => ?_, fun h => absurd h hmode⟩
      obtain ⟨-, e, he, -⟩ := hended
      rw [hending] at he
      cases he
    · refine .inr (.inr ⟨⟨error, by rw [hparse]⟩, fun hreadable => ?_⟩)
      have hsome := hreadable huntil e hending
      rw [hnone] at hsome
      cases hsome
  · have hreadable : b.Readable texts := fun h => absurd h huntil
    have hended : ¬ b.Ended texts now := fun h => huntil h.1
    rw [if_neg huntil]
    split_ifs with hmode
    · cases hwindow : inDailyWindow b.windowStart b.windowEnd (localMinute now) with
      | true => exact .inl ⟨rfl, hreadable, hended, fun _ => hwindow⟩
      | false =>
        refine .inr (.inl ⟨rfl, hreadable, fun hin => ?_⟩)
        rw [hin.2 hmode] at hwindow
        cases hwindow
    · exact .inl ⟨rfl, hreadable, hended, fun h => absurd h hmode⟩

theorem firstBlock_isSome_iff (ctx : AuthContext) {blocks : List StoredBlock}
    (hactive : ∀ b ∈ blocks, b.active = 1) :
    (firstBlock texts localMinute ctx now blocks).isSome = true ↔
      ∃ front b rest, blocks = front ++ b :: rest ∧ b.InEffect texts localMinute now ∧
        b.matchesRequest ctx = true ∧ b.Readable texts ∧
          ∀ a ∈ front, a.matchesRequest ctx = true → a.Readable texts := by
  induction blocks with
  | nil =>
    refine iff_of_false (by simp [firstBlock]) ?_
    rintro ⟨front, b, rest, hsplit, -⟩
    simp at hsplit
  | cons b blocks ih =>
    have ih := ih fun a ha => hactive a (List.mem_cons_of_mem b ha)
    have hpass : ((b.matchesRequest ctx = true → b.Readable texts) ∧
        ¬ (b.InEffect texts localMinute now ∧ b.matchesRequest ctx = true)) →
        ((firstBlock texts localMinute ctx now blocks).isSome = true ↔
          ∃ front c rest, b :: blocks = front ++ c :: rest ∧
            c.InEffect texts localMinute now ∧ c.matchesRequest ctx = true ∧
              c.Readable texts ∧ ∀ a ∈ front, a.matchesRequest ctx = true → a.Readable texts) := by
      rintro ⟨hread, hnot⟩
      rw [ih]
      constructor
      · rintro ⟨front, c, rest, rfl, hin, hmatch, hreadable, hfront⟩
        exact ⟨b :: front, c, rest, rfl, hin, hmatch, hreadable,
          List.forall_mem_cons.mpr ⟨hread, hfront⟩⟩
      · rintro ⟨front, c, rest, hsplit, hin, hmatch, hreadable, hfront⟩
        cases front with
        | nil =>
          obtain ⟨rfl, -⟩ := List.cons.inj hsplit
          exact absurd ⟨hin, hmatch⟩ hnot
        | cons a front =>
          obtain ⟨-, rfl⟩ := List.cons.inj hsplit
          exact ⟨front, c, rest, rfl, hin, hmatch, hreadable,
            fun a ha => hfront a (List.mem_cons_of_mem _ ha)⟩
    rw [firstBlock]
    cases hmatch : b.matchesRequest ctx with
    | false =>
      rw [if_neg Bool.false_ne_true]
      exact hpass ⟨fun h => absurd h (by rw [hmatch]; exact Bool.false_ne_true),
        fun h => absurd h.2 (by rw [hmatch]; exact Bool.false_ne_true)⟩
    | true =>
      rw [if_pos rfl]
      obtain ⟨heval, hreadable, hin⟩ | ⟨heval, hreadable, hout⟩ | ⟨⟨e, heval⟩, hreadable⟩ :=
        b.isBlockInEffect_spec texts localMinute now (hactive b List.mem_cons_self)
      · rw [heval]
        exact iff_of_true rfl ⟨[], b, blocks, rfl, hin, hmatch, hreadable, by simp⟩
      · rw [heval]
        exact hpass ⟨fun _ => hreadable, fun h => hout h.1⟩
      · rw [heval]
        refine iff_of_false Bool.false_ne_true ?_
        rintro ⟨front, c, rest, hsplit, hin, hmatch', hreadable', hfront⟩
        cases front with
        | nil =>
          obtain ⟨rfl, -⟩ := List.cons.inj hsplit
          exact hreadable hreadable'
        | cons a front =>
          obtain ⟨rfl, -⟩ := List.cons.inj hsplit
          exact hreadable (hfront b List.mem_cons_self hmatch)

variable {rows : List StoredBlock} {tenantId : ℕ}

theorem mem_listActive {limit : ℕ} (h : b ∈ listActive rows tenantId limit) :
    b ∈ rows ∧ b.tenantId = tenantId ∧ b.active = 1 := by
  have hmem := List.mem_filter.mp (List.mem_reverse.mp (List.mem_of_mem_take h))
  rw [Bool.and_eq_true, decide_eq_true_iff, decide_eq_true_iff] at hmem
  exact hmem

theorem findStoredBlock_isSome_iff (ctx : AuthContext) :
    (findStoredBlock texts localMinute rows tenantId ctx now).isSome = true ↔
      Reached texts localMinute rows tenantId ctx now :=
  firstBlock_isSome_iff ctx fun _ hb => (mem_listActive hb).2.2

theorem StoredBlock.swept_iff (htenant : b.tenantId = tenantId) (hactive : b.active = 1) :
    ((b.swept texts tenantId now).active = 0 ↔ b.Ended texts now) ↔ b.TextInOrder texts now := by
  have hswept : (b.swept texts tenantId now).active = 0 ↔ b.isUntil = true ∧ b.expiresAt ≠ "" ∧
      b.expiresAt ≤ texts.isoformat now ++ "Z" := by
    rw [StoredBlock.swept]
    split_ifs with h
    · exact iff_of_true rfl h.2.2
    · refine iff_of_false (by omega) fun h' => h ⟨htenant, hactive, h'⟩
  have hempty : b.expiresAt = "" → ¬ b.Ended texts now := by
    rintro hempty ⟨-, e, he, -⟩
    rw [StoredBlock.ending, hempty, if_pos (by decide)] at he
    cases he
  rw [hswept, StoredBlock.TextInOrder]
  constructor
  · intro h huntil hne
    rw [← h]
    exact ⟨fun hle => ⟨huntil, hne, hle⟩, fun h => h.2.2⟩
  · intro h
    constructor
    · rintro ⟨huntil, hne, hle⟩
      exact (h huntil hne).mp hle
    · intro hended
      have hne : b.expiresAt ≠ "" := fun hnil => hempty hnil hended
      exact ⟨hended.1, hne, (h hended.1 hne).mpr hended⟩

/-- The lookup and the sweep are right exactly if every request that a block in effect matches
reaches one, and every text of an end is in its place. -/
theorem lookupKept_iff : Blocks.Kept texts localMinute rows tenantId now ↔
    (∀ ctx, (∃ b ∈ rows, b.tenantId = tenantId ∧ b.active = 1 ∧
        b.InEffect texts localMinute now ∧ b.matchesRequest ctx = true) →
      Reached texts localMinute rows tenantId ctx now) ∧
    ∀ b ∈ rows, b.tenantId = tenantId → b.active = 1 → b.TextInOrder texts now := by
  have hsound : ∀ ctx, Reached texts localMinute rows tenantId ctx now →
      ∃ b ∈ rows, b.tenantId = tenantId ∧ b.active = 1 ∧ b.InEffect texts localMinute now ∧
        b.matchesRequest ctx = true := by
    rintro ctx ⟨front, b, rest, hsplit, hin, hmatch, -⟩
    have hmem : b ∈ listActive rows tenantId 1000 := by
      rw [hsplit]
      exact List.mem_append_right _ List.mem_cons_self
    obtain ⟨hrow, htenant, hactive⟩ := mem_listActive hmem
    exact ⟨b, hrow, htenant, hactive, hin, hmatch⟩
  constructor
  · intro h
    refine ⟨fun ctx hblock => ?_, fun b hb htenant hactive => ?_⟩
    · exact (findStoredBlock_isSome_iff ctx).mp ((h.found ctx).mpr hblock)
    · exact (StoredBlock.swept_iff htenant hactive).mp (h.swept b hb htenant hactive)
  · rintro ⟨hreached, horder⟩
    refine ⟨fun ctx => ?_, fun b hb htenant hactive => ?_⟩
    · rw [findStoredBlock_isSome_iff]
      exact ⟨hsound ctx, hreached ctx⟩
    · exact (StoredBlock.swept_iff htenant hactive).mpr (horder b hb htenant hactive)

end

theorem blockEnd_range :
    -62135596800000000 ≤ (1790852400000000 : ℤ) ∧ (1790852400000000 : ℤ) ≤ 253402300799999999 := by
  norm_num

def halfSecond : DateTexts.Calendar where
  entries := [(⟨1790852400000000, blockEnd_range⟩, "2026-10-01T11:00:00"),
    (⟨1790852400500000, by norm_num⟩, "2026-10-01T11:00:00.500000")]
  dates := by decide
  texts := by decide
  mark := by decide
  digit := by decide
  chars := DateTexts.Calendar.chars_of_all (by decide)

def buriedBan : List StoredBlock :=
  { id := 1, tenantId := 1, blockType := "subscriber", target := "ali" } ::
    (List.range 1000).map fun i => { id := i + 2, tenantId := 1, blockType := "plan", target := "7" }

def endedBlock : StoredBlock :=
  { id := 1, tenantId := 1, blockType := "subscriber", target := "ali", durationMode := "until"
    expiresAt := "2026-10-01T11:00:00Z" }

/-- The banned user is let in, and the block that has ended is left active. -/
theorem buriedBan_missed :
    ¬ Blocks.Kept halfSecond.dateTexts (fun _ => 0) buriedBan 1
        ⟨1790852400500000, by norm_num⟩ ∧
      ¬ Blocks.Kept halfSecond.dateTexts (fun _ => 0) [endedBlock] 1
        ⟨1790852400500000, by norm_num⟩ := by
  refine ⟨fun h => ?_, fun h => ?_⟩
  · have hban : ∃ b ∈ buriedBan, b.tenantId = 1 ∧ b.active = 1 ∧
        b.InEffect halfSecond.dateTexts (fun _ => 0) ⟨1790852400500000, by norm_num⟩ ∧
          b.matchesRequest { username := "ali" } = true :=
      ⟨_, List.mem_cons_self, rfl, rfl,
        ⟨fun hended => absurd hended.1 (by decide), fun hmode => absurd hmode (by decide)⟩,
        by decide⟩
    have hfound := (h.found { username := "ali" }).mpr hban
    exact absurd hfound (by decide +kernel)
  · have hended : endedBlock.Ended halfSecond.dateTexts ⟨1790852400500000, by norm_num⟩ :=
      ⟨by decide, 1790852400000000, by decide, by norm_num⟩
    have hswept := (h.swept endedBlock (List.mem_singleton_self _) rfl rfl).mpr hended
    exact absurd hswept (by decide)

end RadiusModule.AccessControl
