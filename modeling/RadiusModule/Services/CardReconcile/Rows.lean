import RadiusModule.Library.DateText
import RadiusModule.Library.Keyed
import RadiusModule.Library.NumberText
import RadiusModule.Services.CardAccounting

/-!
# The rows that the card reconcilers read

Cards, batches, plans, sessions and subscribers with their time columns as the
texts that are stored. `NULL` is `none`; a number column that is `NULL` counts
as zero.
-/

namespace RadiusModule.CardReconcile

open Library PyText

structure Card where
  tenantId : ℤ := 1
  id : ℤ
  username : String
  batchId : ℤ
  planId : Option ℤ := none
  expireAt : Option String := none
  firstUsedAt : Option String := none
  usageResetAt : Option String := none
  revoked : Bool := false
  extraSeconds : ℤ := 0
deriving DecidableEq

structure Batch where
  tenantId : ℤ := 1
  id : ℤ
  countFromFirstConnect : Bool := true
  validityAfterFirstLoginDays : ℤ := 0
  timeValue : ℤ := 0
  timeUnit : String := ""
  sourceType : String := "imported"
  deletedAt : Option String := none
deriving DecidableEq

structure Plan where
  tenantId : ℤ := 1
  id : ℤ
  durationMinutes : ℤ := 0
  validityDays : ℤ := 0
deriving DecidableEq

structure Session where
  tenantId : ℤ := 1
  username : String
  startTime : Option String
deriving DecidableEq

structure Subscriber where
  tenantId : ℤ := 1
  username : String
  expireAt : Option String := none
deriving DecidableEq

def Card.key (c : Card) : ℤ × ℤ := (c.tenantId, c.id)

def Card.name (c : Card) : ℤ × String := (c.tenantId, c.username)

def Subscriber.name (s : Subscriber) : ℤ × String := (s.tenantId, s.username)

def Card.withExpiry (c : Card) (text : Option String) : Card := { c with expireAt := text }

def Subscriber.withExpiry (s : Subscriber) (text : Option String) : Subscriber :=
  { s with expireAt := text }

@[simp] theorem Card.key_withExpiry (c : Card) (text : Option String) :
    (c.withExpiry text).key = c.key := rfl

@[simp] theorem Card.tenantId_withExpiry (c : Card) (text : Option String) :
    (c.withExpiry text).tenantId = c.tenantId := rfl

@[simp] theorem Card.batchId_withExpiry (c : Card) (text : Option String) :
    (c.withExpiry text).batchId = c.batchId := rfl

@[simp] theorem Card.username_withExpiry (c : Card) (text : Option String) :
    (c.withExpiry text).username = c.username := rfl

@[simp] theorem Card.expireAt_withExpiry (c : Card) (text : Option String) :
    (c.withExpiry text).expireAt = text := rfl

@[simp] theorem Subscriber.name_withExpiry (s : Subscriber) (text : Option String) :
    (s.withExpiry text).name = s.name := rfl

@[simp] theorem Subscriber.expireAt_withExpiry (s : Subscriber) (text : Option String) :
    (s.withExpiry text).expireAt = text := rfl

structure Tables where
  cards : List Card := []
  batches : List Batch := []
  plans : List Plan := []
  sessions : List Session := []
  subscribers : List Subscriber := []

structure Tables.Keyed (t : Tables) : Prop where
  cardIds : (t.cards.map Card.key).Nodup
  cardNames : (t.cards.map Card.name).Nodup
  batchIds : (t.batches.map fun b => (b.tenantId, b.id)).Nodup
  planIds : (t.plans.map fun p => (p.tenantId, p.id)).Nodup
  subscriberNames : (t.subscribers.map Subscriber.name).Nodup

abbrev Db := { t : Tables // t.Keyed }

inductive DateError
  | overflow
deriving DecidableEq, Repr

def addSeconds (t : DateTime) (n : ℤ) : Except DateError DateTime :=
  match t.addSeconds? n with
  | some u => .ok u
  | none => .error .overflow

def dropChar (s : String) (c : Char) : String := String.ofList (s.toList.filter (· ≠ c))

def replaceFirst (old new : Char) : List Char → List Char
  | [] => []
  | c :: cs => if c = old then new :: cs else c :: replaceFirst old new cs

/-- `replace(replace(column, 'T', ' '), 'Z', '')`. -/
def acctNorm (s : String) : String := dropChar (replaceChar s 'T' ' ') 'Z'

def toSpaceTs (raw : Option String) : String := strip (acctNorm (raw.getD ""))

section Texts

variable (texts : DateTexts)

/-- `_parse_dt` of `card_time_reconcile`: an offset is dropped. -/
def parseDt : Option String → Option DateTime
  | none => none
  | some raw =>
    let s := strip raw
    if s = "" ∨ s = "0000-00-00 00:00:00" ∨ s = "0000-00-00" then none
    else
      let s := strip (dropChar (dropChar s 'Z') 'z')
      let s := if ' ' ∈ s.toList ∧ 'T' ∉ s.toList then
        String.ofList (replaceFirst ' ' 'T' s.toList) else s
      match texts.fromisoformat s with
      | some m => some m.wall
      | none => texts.strptime s

/-- `_remaining_from`: seconds until an expiry; `none` is no limit. -/
def remainingFrom (expire : Option DateTime) (now : DateTime) : Option ℚ :=
  expire.map fun e => max 0 (e.secondsSince now)

def withinLimit (x : ℚ) : Option ℚ → Bool
  | none => true
  | some y => x ≤ y

theorem dropChar_of_not_mem {s : String} {c : Char} (h : c ∉ s.toList) : dropChar s c = s := by
  have hall : ∀ d ∈ s.toList, decide (d ≠ c) = true := by
    intro d hd
    simp only [decide_eq_true_eq]
    rintro rfl
    exact h hd
  rw [dropChar, List.filter_eq_self.mpr hall, String.ofList_toList]

theorem parseDt_isoformat (t : DateTime) : parseDt texts (some (texts.isoformat t)) = some t := by
  have hmark := texts.mark_mem t
  have hne : ¬(texts.isoformat t = "" ∨ texts.isoformat t = "0000-00-00 00:00:00" ∨
      texts.isoformat t = "0000-00-00") := by
    rintro (h | h | h) <;> rw [h] at hmark <;> exact absurd hmark (by decide)
  have hZ := dropChar_of_not_mem (texts.not_mem_isoformat (c := 'Z') (by decide) (by decide) t)
  have hz := dropChar_of_not_mem (texts.not_mem_isoformat (c := 'z') (by decide) (by decide) t)
  simp only [parseDt, DateTexts.strip_isoformat, if_neg hne, hZ, hz]
  rw [if_neg fun h => h.2 hmark, texts.fromisoformat_isoformat]

end Texts

def startTexts (sessions : List Session) (tenantId : ℤ) (username since : String) : List String :=
  sessions.filterMap fun r =>
    if r.tenantId = tenantId ∧ r.username = username then
      match r.startTime with
      | some s => if s ≠ "" ∧ since ≤ acctNorm s then some s else none
      | none => none
    else none

end RadiusModule.CardReconcile
