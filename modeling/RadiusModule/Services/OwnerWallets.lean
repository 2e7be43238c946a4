import RadiusModule.Library.Table
import RadiusModule.Services.BusinessOs.WalletHistory

/-!
# Reaching one's own wallet

The services of managers and of card users look for an owner's wallet among the
newest five hundred of its kind, and make one where they find none. The portal
shows what the same list has.
-/

namespace RadiusModule.BusinessOs
open Library Connection

inductive OwnerKind
  | manager
  | cardUser

def OwnerKind.text : OwnerKind → String
  | .manager => "manager"
  | .cardUser => "card_user"

structure WalletOwner where
  tenantId : ℤ
  kind : OwnerKind
  ownerId : ℤ

namespace WalletOwner
variable (o : WalletOwner)

/-- `wallet` of a manager and `_wallet_for_card_user`; `none` is a creation that raises. -/
def wallet (defaultCurrency : String) (b : Books) : Option Wallet × Books :=
  walletOf defaultCurrency {} o.tenantId o.kind.text o.ownerId b

def portalBalanceMinor (b : Books) : ℤ :=
  ((ownersWallet b o.tenantId o.kind.text o.ownerId).map Wallet.balanceMinor).getD 0

def listed (w : Wallet) : Bool := w.tenantId = o.tenantId && w.ownerType = o.kind.text

structure Owns (w : Wallet) : Prop where
  tenant : w.tenantId = o.tenantId
  kind : w.ownerType = o.kind.text
  owner : w.ownerId = some o.ownerId

structure OnlyWallet (b : Books) (w : Wallet) : Prop where
  row : w ∈ b.wallets.rows
  owns : o.Owns w
  only : ∀ w' ∈ b.wallets.rows, o.Owns w' → w' = w

structure Reaches (defaultCurrency : String) (b : Books) : Prop where
  existing : ∀ w, o.OnlyWallet b w →
    o.wallet defaultCurrency b = (some w, b) ∧ o.portalBalanceMinor b = w.balanceMinor
  created : (∀ w ∈ b.wallets.rows, ¬ o.Owns w) → ∃ w b',
    o.wallet defaultCurrency b = (some w, b') ∧ o.OnlyWallet b' w ∧
      o.portalBalanceMinor b' = w.balanceMinor

end WalletOwner

def HaveOwners (b : Books) : Prop :=
  ∀ w ∈ b.wallets.rows, w.ownerType ≠ "company" → w.ownerId ≠ none

theorem createWallet_ownerless (faults : Faults) (defaultCurrency : String) (tenantId : ℤ)
    {ownerType : String} (h : PyText.strip ownerType ≠ "company") (currency : String) (b : Books) :
    ∃ e, perform faults.sqlite (createWallet defaultCurrency tenantId ownerType none currency) b =
      (.error e, b) := by
  simp only [createWallet]
  by_cases hid : PyText.strip ownerType ∉ ownerTypes
  · rw [if_pos hid]
    exact ⟨_, rfl⟩
  · rw [if_neg hid, if_pos ⟨h, trivial⟩]
    exact ⟨_, rfl⟩

theorem haveOwners_step {b : Books} (c : Call) (h : HaveOwners b) : HaveOwners (step b c) := by
  obtain ⟨op, defaultCurrency, faults⟩ := c
  cases op with
  | createWallet tenantId ownerType ownerId currency =>
    obtain ⟨e, herror⟩ | ⟨event, hmade⟩ := perform_createWallet faults defaultCurrency tenantId
      ownerType ownerId currency b
    · simpa only [step, Call.perform, herror] using h
    · have hrows : (step b ⟨.createWallet tenantId ownerType ownerId currency, defaultCurrency,
          faults⟩).wallets.rows = b.wallets.rows ++ [⟨b.wallets.next, tenantId,
            PyText.strip ownerType, ownerId, 0, textOr currency defaultCurrency⟩] := by
        simp only [step, Call.perform, hmade]
        rfl
      intro w hw hcompany
      rw [hrows, List.mem_append, List.mem_singleton] at hw
      obtain hw | rfl := hw
      · exact h w hw hcompany
      · rintro rfl
        obtain ⟨e, herror⟩ := createWallet_ownerless faults defaultCurrency tenantId hcompany
          currency b
        rw [herror] at hmade
        cases hmade
  | changeBalance m =>
    obtain ⟨e, herror⟩ | ⟨_, wallet, _, _, _, hmade⟩ := perform_changeBalance faults
      defaultCurrency m b
    · simpa only [step, Call.perform, herror] using h
    · intro w hw hcompany
      simp only [step, Call.perform, hmade] at hw
      obtain ⟨old, hold, rfl⟩ := List.mem_map.mp hw
      dsimp only at hcompany ⊢
      split_ifs at hcompany ⊢
      · exact h old hold hcompany
      · exact h old hold hcompany

theorem haveOwners_run (calls : List Call) : HaveOwners (Run.run step .empty calls) :=
  Run.run_always (fun _ c h => haveOwners_step c h) fun _ hw => absurd hw List.not_mem_nil

section
variable {o : WalletOwner} {b : Books} {w : Wallet}

theorem WalletOwner.Owns.listed (h : o.Owns w) : o.listed w = true := by
  simp [WalletOwner.listed, h.tenant, h.kind]

theorem WalletOwner.strip_kind (k : OwnerKind) : PyText.strip k.text = k.text := by
  cases k <;> decide

theorem WalletOwner.kind_mem (k : OwnerKind) : k.text ∈ ownerTypes ∧ k.text ≠ "company" := by
  cases k <;> decide

theorem owns_of_ownersWallet (h : HaveOwners b)
    (hfound : ownersWallet b o.tenantId o.kind.text o.ownerId = some w) :
    w ∈ b.wallets.rows ∧ o.Owns w := by
  have hmem := Table.mem_select_of_mem_newest (List.mem_of_find?_eq_some hfound)
  obtain ⟨hrow, hlisted⟩ := Table.mem_select.mp hmem
  rw [Bool.and_eq_true, decide_eq_true_eq, decide_eq_true_eq] at hlisted
  have hid := List.find?_some hfound
  have hsome := h w hrow (hlisted.2 ▸ (WalletOwner.kind_mem o.kind).2)
  refine ⟨hrow, hlisted.1, hlisted.2, ?_⟩
  obtain ⟨n, hn⟩ := Option.ne_none_iff_exists'.mp hsome
  rw [hn] at hid ⊢
  exact congrArg some (of_decide_eq_true hid)

theorem ownersWallet_of_newer (howners : HaveOwners b) (h : o.OnlyWallet b w)
    (hnewer : b.wallets.newer o.listed w < 500) :
    ownersWallet b o.tenantId o.kind.text o.ownerId = some w := by
  have hmem := (Table.mem_newest (Table.mem_select.mpr ⟨h.row, h.owns.listed⟩)).mpr hnewer
  have hsome : (ownersWallet b o.tenantId o.kind.text o.ownerId).isSome :=
    List.find?_isSome.mpr ⟨w, hmem, by simp [h.owns.owner]⟩
  obtain ⟨found, hfound⟩ := Option.isSome_iff_exists.mp hsome
  obtain ⟨hrow, howns⟩ := owns_of_ownersWallet howners hfound
  rw [hfound, h.only found hrow howns]

theorem ownersWallet_of_not_newer (howners : HaveOwners b) (h : o.OnlyWallet b w)
    (hnewer : ¬ b.wallets.newer o.listed w < 500) :
    ownersWallet b o.tenantId o.kind.text o.ownerId = none := by
  cases hfound : ownersWallet b o.tenantId o.kind.text o.ownerId with
  | none => rfl
  | some found =>
    obtain ⟨hrow, howns⟩ := owns_of_ownersWallet howners hfound
    obtain rfl := h.only found hrow howns
    have hmem := List.mem_of_find?_eq_some hfound
    exact absurd ((Table.mem_newest (Table.mem_select.mpr ⟨hrow, howns.listed⟩)).mp hmem) hnewer

theorem perform_createWallet_owner (o : WalletOwner) (defaultCurrency : String) (b : Books)
    (hfree : b.ownerTaken o.tenantId o.kind.text (some o.ownerId) defaultCurrency = false) :
    ∃ event, perform ({} : Faults).sqlite
      (createWallet defaultCurrency o.tenantId o.kind.text (some o.ownerId) "") b =
        (.ok b.wallets.next, (b.insertWallet o.tenantId o.kind.text (some o.ownerId)
          defaultCurrency).recordEvent event) := by
  rcases perform_createWallet_iff b defaultCurrency o.tenantId o.ownerId
    (WalletOwner.strip_kind o.kind) (WalletOwner.kind_mem o.kind).1 with
    ⟨htaken, -⟩ | ⟨-, event, hmade⟩
  · rw [hfree] at htaken
    cases htaken
  · exact ⟨event, hmade⟩

theorem ownersWallet_of_none (howners : HaveOwners b)
    (hnone : ∀ w ∈ b.wallets.rows, ¬ o.Owns w) :
    ownersWallet b o.tenantId o.kind.text o.ownerId = none := by
  cases hfound : ownersWallet b o.tenantId o.kind.text o.ownerId with
  | none => rfl
  | some found =>
    obtain ⟨hrow, howns⟩ := owns_of_ownersWallet howners hfound
    exact absurd howns (hnone found hrow)

theorem not_ownerTaken (currency : String) (hnone : ∀ w ∈ b.wallets.rows, ¬ o.Owns w) :
    b.ownerTaken o.tenantId o.kind.text (some o.ownerId) currency = false := by
  refine List.any_eq_false.mpr fun w hw htaken => ?_
  simp only [Bool.and_eq_true, decide_eq_true_eq] at htaken
  exact hnone w hw ⟨htaken.1.1.1.1, htaken.1.1.1.2, htaken.1.1.2⟩

theorem wallet_created (howners : HaveOwners b) (defaultCurrency : String)
    (hnone : ∀ w ∈ b.wallets.rows, ¬ o.Owns w) : ∃ w b',
    o.wallet defaultCurrency b = (some w, b') ∧ o.OnlyWallet b' w ∧
      o.portalBalanceMinor b' = w.balanceMinor := by
  obtain ⟨event, hmade⟩ := perform_createWallet_owner o defaultCurrency b
    (not_ownerTaken defaultCurrency hnone)
  set b' := (b.insertWallet o.tenantId o.kind.text (some o.ownerId) defaultCurrency).recordEvent
    event with hb'
  set new : Wallet := ⟨b.wallets.next, o.tenantId, o.kind.text, some o.ownerId, 0,
    defaultCurrency⟩ with hnew
  have hrows : b'.wallets.rows = b.wallets.rows ++ [new] := rfl
  have hmem : new ∈ b'.wallets.rows := by simp [hrows]
  refine ⟨new, b', ?_, ⟨hmem, ⟨rfl, rfl, rfl⟩, fun w hw howns => ?_⟩, ?_⟩
  · rw [WalletOwner.wallet, walletOf, ownersWallet_of_none howners hnone]
    simp only [hmade]
    rw [(Books.wallet_of_mem hmem : b'.wallet o.tenantId b.wallets.next = some new)]
  · rw [hrows, List.mem_append, List.mem_singleton] at hw
    exact hw.resolve_left fun hold => hnone w hold howns
  · rw [WalletOwner.portalBalanceMinor, hb', ownersWallet_inserted]
    rfl

theorem wallet_ne_of_not_newer (howners : HaveOwners b) (defaultCurrency : String)
    (h : o.OnlyWallet b w) (hnewer : ¬ b.wallets.newer o.listed w < 500) :
    o.wallet defaultCurrency b ≠ (some w, b) := by
  intro hreached
  rw [WalletOwner.wallet, walletOf, ownersWallet_of_not_newer howners h hnewer] at hreached
  obtain ⟨e, herror⟩ | ⟨event, hmade⟩ := perform_createWallet {} defaultCurrency o.tenantId
    o.kind.text (some o.ownerId) "" b
  · simp only [herror] at hreached
    cases hreached
  · simp only [hmade, Prod.mk.injEq] at hreached
    have hnext := congrArg (fun b : Books => b.wallets.next) hreached.2
    exact absurd hnext (Nat.succ_ne_self _)

theorem reaches_iff (howners : HaveOwners b) (defaultCurrency : String) :
    o.Reaches defaultCurrency b ↔
      ∀ w, o.OnlyWallet b w → b.wallets.newer o.listed w < 500 := by
  constructor
  · intro hreaches w hw
    by_contra hnewer
    exact wallet_ne_of_not_newer howners defaultCurrency hw hnewer (hreaches.existing w hw).1
  · intro hnear
    refine ⟨fun w hw => ?_, wallet_created howners defaultCurrency⟩
    have hfound := ownersWallet_of_newer howners hw (hnear w hw)
    constructor
    · rw [WalletOwner.wallet, walletOf, hfound]
    · rw [WalletOwner.portalBalanceMinor, hfound]
      rfl

end

/-- In every state that calls lead to, an owner reaches his wallet if and only if fewer than five
hundred wallets of his kind are newer. -/
theorem owner_reaches_iff (calls : List Call) (defaultCurrency : String) (o : WalletOwner) :
    o.Reaches defaultCurrency (Run.run step .empty calls) ↔
      ∀ w, o.OnlyWallet (Run.run step .empty calls) w →
        (Run.run step .empty calls).wallets.newer o.listed w < 500 :=
  reaches_iff (haveOwners_run calls) defaultCurrency

def openings (n : ℕ) : List Call :=
  (List.range n).map fun i => ⟨.createWallet 1 "manager" (some i) "", "ILS", {}⟩

def openedWallet (i : ℕ) : Wallet := ⟨i + 1, 1, "manager", some i, 0, "ILS"⟩

theorem rows_openings (n : ℕ) :
    (Run.run step .empty (openings n)).wallets.rows = (List.range n).map openedWallet ∧
      (Run.run step .empty (openings n)).wallets.next = n + 1 := by
  induction n with
  | zero => exact ⟨rfl, rfl⟩
  | succ n ih =>
    have hcalls : openings (n + 1) = openings n ++
        [⟨.createWallet 1 "manager" (some n) "", "ILS", {}⟩] := by
      simp [openings, List.range_succ]
    set b := Run.run step .empty (openings n) with hb
    have hnone : ∀ w ∈ b.wallets.rows, ¬ (⟨1, .manager, n⟩ : WalletOwner).Owns w := by
      intro w hw howns
      rw [ih.1] at hw
      obtain ⟨i, hi, rfl⟩ := List.mem_map.mp hw
      have howner : (i : ℤ) = n := Option.some_inj.mp howns.owner
      have hlt := List.mem_range.mp hi
      omega
    obtain ⟨event, hmade⟩ := perform_createWallet_owner ⟨1, .manager, n⟩ "ILS" b
      (not_ownerTaken "ILS" hnone)
    have hstep : step b ⟨.createWallet 1 "manager" (some n) "", "ILS", {}⟩ =
        (b.insertWallet 1 "manager" (some n) "ILS").recordEvent event := by
      simp only [step, Call.perform, OwnerKind.text] at hmade ⊢
      rw [hmade]
    have hrun : Run.run step .empty (openings (n + 1)) =
        (b.insertWallet 1 "manager" (some n) "ILS").recordEvent event := by
      rw [hcalls, Run.run, List.foldl_append, List.foldl_cons, List.foldl_nil, ← hstep]
    rw [hrun]
    refine ⟨?_, congrArg (· + 1) ih.2⟩
    have hrows : ((b.insertWallet 1 "manager" (some n) "ILS").recordEvent event).wallets.rows =
        b.wallets.rows ++ [⟨b.wallets.next, 1, "manager", some n, 0, "ILS"⟩] := rfl
    rw [hrows, ih.1, ih.2, List.range_succ, List.map_append]
    rfl

/-- After five hundred others, the first manager's wallet is out of reach. -/
theorem first_owner_unreached : ¬ (⟨1, .manager, 0⟩ : WalletOwner).Reaches "ILS"
    (Run.run step .empty (openings 501)) := by
  have hrows := (rows_openings 501).1
  have hnewer : ¬ (Run.run step .empty (openings 501)).wallets.newer
      (⟨1, .manager, 0⟩ : WalletOwner).listed (openedWallet 0) < 500 := by
    rw [Table.newer, Table.count, Table.select, hrows]
    decide +kernel
  refine fun hreaches => hnewer ((reaches_iff (haveOwners_run _) "ILS").mp hreaches _ ⟨?_, ?_, ?_⟩)
  · rw [hrows]
    exact List.mem_map.mpr ⟨0, by simp, rfl⟩
  · exact ⟨rfl, rfl, rfl⟩
  · intro w hw howns
    rw [hrows] at hw
    obtain ⟨i, -, rfl⟩ := List.mem_map.mp hw
    have howner : (i : ℤ) = 0 := Option.some_inj.mp howns.owner
    obtain rfl : i = 0 := by omega
    rfl

end RadiusModule.BusinessOs
