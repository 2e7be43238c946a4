import RadiusModule.Services.DelegationCaps

/-!
# Requests that fit

Which requests are cut to what the parent has: what is read back from a limit
that was written, number by number, then entry by entry, then the row.
-/

namespace RadiusModule.DelegationCaps
open Library PyText FloatText Binary64

def Amount.Read : Amount → Prop
  | finite q => 0 ≤ q ∧ nearest q = q ∧ q < 2 ^ 1024
  | infinite => True

theorem nearest_zero : nearest 0 = 0 :=
  le_antisymm (nearest_nonpos le_rfl) (nearest_nonneg le_rfl)

theorem read_zero : (Amount.finite 0).Read :=
  ⟨le_rfl, nearest_zero, pow_pos two_pos _⟩

theorem num_read (v : Value) : (num v).Read := by
  rw [num]
  split
  · next q h =>
    rcases le_or_gt q 0 with hq | hq
    · rw [max_eq_left hq]
      exact read_zero
    · rw [max_eq_right hq.le]
      exact ⟨hq.le, nearest_of_float? h hq⟩
  · trivial
  · exact read_zero

theorem float?_normalizeNumberText {s : String} (h : ∀ c ∈ s.toList, c.toNat < 128) :
    float? (normalizeNumberText s) = float? s := by
  have hkeep : s.toList.filterMap numTrans = s.toList := by
    refine (List.filterMap_congr fun c hc => ?_).trans List.filterMap_some
    have hlt := h c hc
    simp only [numTrans]
    rw [if_neg (by omega), if_neg (by omega), if_neg (by omega), if_neg, if_neg]
    · simp only [List.mem_cons, List.not_mem_nil, or_false]
      omega
    · simp only [List.mem_cons, List.not_mem_nil, or_false]
      omega
  rw [normalizeNumberText, hkeep, String.ofList_toList, float?, float?, strip,
    String.toList_ofList, stripChars_stripChars]

theorem toNat_lt_of_isDigit {c : Char} (h : c.isDigit = true) : c.toNat < 128 := by
  have hdigits : ∀ n ∈ List.range' 48 10, (Char.ofNat n).toNat < 128 := by decide
  obtain ⟨n, hn, rfl⟩ := isDigit_cases h
  exact hdigits n hn

theorem num_rounded {v : Value} {q : ℚ} (hq : 0 ≤ q) (hlt : q < 2 ^ 1024) {r : ℚ}
    (hr : nearest r = q) (h : float? (normalizeNumberText v.text) = some (rounded false r)) :
    num v = .finite q := by
  have hvalue : rounded false r = .finite q := by
    rw [rounded, hr, if_neg (not_le.mpr hlt)]
    rfl
  rw [num, h, hvalue]
  simp only [max_eq_right hq]

theorem num_int {q : ℚ} (h : (Amount.finite q).Read) : num (.int ⌊q⌋) = .finite ⌊q⌋ := by
  obtain ⟨hq, hself, hlt⟩ := h
  have hfloor := nearest_floor hq hself
  obtain ⟨n, hn⟩ := Int.eq_ofNat_of_zero_le (Int.floor_nonneg.mpr hq)
  have hle : (⌊q⌋ : ℚ) ≤ q := Int.floor_le q
  rw [hn] at hfloor hle ⊢
  refine num_rounded (by simp) (hle.trans_lt hlt) (r := (n : ℚ)) ?_ ?_
  · exact_mod_cast hfloor
  · have hplain : ∀ c ∈ (toString n).toList, c.toNat < 128 := fun c hc => by
      rw [toList_toString_nat] at hc
      exact toNat_lt_of_isDigit (Nat.isDigit_of_mem_toDigits (by decide) (by decide) hc)
    exact (float?_normalizeNumberText hplain).trans (float?_toDigits n)

def Amount.back : Amount → Amount
  | finite q => finite (nearest (cents q / 100))
  | infinite => infinite

theorem back_read {x : Amount} (h : x.Read) : x.back.Read := by
  cases x with
  | infinite => trivial
  | finite q =>
    obtain ⟨hq, hself, hlt⟩ := h
    have hcents : (0 : ℚ) ≤ (cents q : ℚ) / 100 :=
      div_nonneg (by exact_mod_cast cents_nonneg hq) (by norm_num)
    exact ⟨nearest_nonneg hcents, nearest_nearest hcents, nearest_cents_lt hself hlt⟩

theorem num_texts : num (.str (money .infinite)) = .infinite ∧ num (.int 0) = num (.str "") ∧
    money (.finite 0) = "0.00" ∧ num (.int 10) = .finite 10 ∧
    num (.str "0.5") = .finite (1 / 2) := by
  decide +kernel

theorem num_money {x : Amount} (h : x.Read) : num (.str (money x)) = x.back := by
  cases x with
  | infinite => exact num_texts.1
  | finite q =>
    obtain ⟨hback, -, hlt⟩ := back_read h
    obtain ⟨n, hn⟩ := Int.eq_ofNat_of_zero_le (cents_nonneg h.1)
    have hplain : ∀ c ∈ (String.ofList (centChars n)).toList, c.toNat < 128 := fun c hc => by
      rw [String.toList_ofList] at hc
      obtain hdigit | rfl := centChars_char hc
      · exact toNat_lt_of_isDigit hdigit
      · decide
    rw [Amount.back, money]
    rw [hn] at hback hlt ⊢
    refine num_rounded hback hlt (r := (n : ℚ) / 100) (by simp) ?_
    exact (float?_normalizeNumberText hplain).trans (float?_centChars n)

theorem money_back {x : Amount} (h : x.Read) : money x.back = money x := by
  cases x with
  | infinite => rfl
  | finite q => rw [Amount.back, money, money, cents_nearest h.1 h.2.1]

theorem le_refl_of (x : Amount) : x.le x = true := by
  cases x with
  | finite q => simp [Amount.le]
  | infinite => rfl

theorem clampToParentCap_of_unlimited {p : Amount} (h : p.limited = false) (c : Amount) :
    clampToParentCap c p = c := by
  rw [clampToParentCap, if_pos h]

theorem clampToParentCap_of_limited {p : Amount} (h : p.limited = true) (c : Amount) :
    clampToParentCap c p = if c.limited ∧ c.le p then c else p := by
  rw [clampToParentCap, h, if_neg (by simp)]
  cases hc : c.limited with
  | false => simp
  | true => simp

theorem clampToParentCap_of_atMost {p x : Amount} (h : AtMost p x) : clampToParentCap x p = x := by
  cases hp : p.limited with
  | false => exact clampToParentCap_of_unlimited hp x
  | true =>
    obtain ⟨hlimited, hle⟩ := h hp
    rw [clampToParentCap_of_limited hp, if_pos ⟨hlimited, hle⟩]

theorem clampToParentCap_read {p c : Amount} (hp : p.Read) (hc : c.Read) :
    (clampToParentCap c p).Read := by
  rw [clampToParentCap]
  split_ifs
  · exact hc
  · exact hp
  · exact hc
  · exact hp

theorem clampToParentCap_le {p : Amount} (h : p.limited = true) (c : Amount) :
    (clampToParentCap c p).le p = true := by
  rw [clampToParentCap_of_limited h]
  split_ifs with hc
  · exact hc.2
  · exact le_refl_of p

theorem survives_iff {p x : Amount} :
    x.Survives p ↔ x.back.limited = true ∧ x.back.le p = true := by
  cases x with
  | infinite =>
    cases p with
    | finite r => simp [Amount.Survives, Amount.back, Amount.le]
    | infinite => simp [Amount.Survives, Amount.back, Amount.le, Amount.limited]
  | finite q =>
    have hpos : (0 : ℚ) < nearest (cents q / 100) ↔ 1 / 200 < q := by
      rw [nearest_pos_iff, ← cents_pos_iff]
      constructor
      · intro h
        have hcents : (0 : ℚ) < (cents q : ℚ) / 100 := (two_zpow_pos _).trans h
        have hcents' : (0 : ℚ) < cents q := by linarith
        exact_mod_cast hcents'
      · intro h
        have hone : (1 : ℚ) ≤ cents q := by exact_mod_cast h
        have hsmall : (2 : ℚ) ^ (-1075 : ℤ) < 1 / 100 := by
          have hpow : (2 : ℚ) ^ (-1075 : ℤ) ≤ 2 ^ (-7 : ℤ) :=
            zpow_le_zpow_right₀ one_le_two (by norm_num)
          have heighth : (2 : ℚ) ^ (-7 : ℤ) = 1 / 128 := by norm_num
          rw [heighth] at hpow
          linarith
        linarith
    rw [Amount.Survives, Amount.back, Amount.limited, decide_eq_true_iff, hpos]

theorem atMost_money_iff {p c : Amount} :
    AtMost p (clampToParentCap c p).back ↔ MoneyFits p c := by
  rw [AtMost, MoneyFits]
  refine imp_congr_right fun hp => ?_
  rw [← survives_iff, clampToParentCap_of_limited hp]
  split_ifs
  · exact Iff.rfl
  · exact Iff.rfl

theorem atMost_count_iff {p c : Amount} (hp : p.Read) (hc : c.Read) :
    (∃ n, count (clampToParentCap c p) = some n ∧ AtMost p (num (.int n))) ↔ CountFits p c := by
  have hread := clampToParentCap_read hp hc
  have hwhole : ∀ {x : Amount}, x.Read → x.le p = true → p.limited = true →
      ((∃ n, count x = some n ∧ AtMost p (num (.int n))) ↔ x.Counts) := by
    intro x hx hle hlimited
    cases x with
    | infinite => simp [count, Amount.Counts]
    | finite q =>
      have hfloor : (⌊q⌋ : ℚ) ≤ q := Int.floor_le q
      have hle' : (Amount.finite ⌊q⌋).le p = true := by
        cases p with
        | infinite => rfl
        | finite r =>
          simp only [Amount.le, decide_eq_true_iff] at hle ⊢
          exact hfloor.trans hle
      have hcounts : (Amount.finite ⌊q⌋).limited = true ↔ (Amount.finite q).Counts := by
        rw [Amount.limited, Amount.Counts, decide_eq_true_iff, Int.cast_pos, ← Int.add_one_le_iff,
          zero_add, Int.le_floor, Int.cast_one]
      constructor
      · rintro ⟨n, hn, hatMost⟩
        obtain rfl : ⌊q⌋ = n := Option.some_inj.mp hn
        rw [num_int hx] at hatMost
        exact hcounts.mp (hatMost hlimited).1
      · intro h
        refine ⟨⌊q⌋, rfl, fun _ => ?_⟩
        rw [num_int hx]
        exact ⟨hcounts.mpr h, hle'⟩
  rw [CountFits]
  cases hlimited : p.limited with
  | true =>
    rw [hwhole hread (clampToParentCap_le hlimited c) hlimited,
      clampToParentCap_of_limited hlimited]
    simp only [if_true]
    split_ifs
    · exact Iff.rfl
    · exact Iff.rfl
  | false =>
    rw [clampToParentCap_of_unlimited hlimited]
    cases c with
    | infinite => simp [count]
    | finite q => simp [count, AtMost, hlimited]

theorem count_again {p c : Amount} (hp : p.Read) (hc : c.Read) {n : ℤ}
    (hn : count (clampToParentCap c p) = some n) (h : AtMost p (num (.int n))) :
    count (clampToParentCap (num (.int n)) p) = some n := by
  have hread := clampToParentCap_read hp hc
  rw [clampToParentCap_of_atMost h]
  cases hx : clampToParentCap c p with
  | infinite =>
    rw [hx] at hn
    cases hn
  | finite q =>
    rw [hx] at hn hread
    obtain rfl : ⌊q⌋ = n := Option.some_inj.mp hn
    rw [num_int hread, count, Int.floor_intCast]

theorem money_again {p x : Amount} (hx : x.Read) (h : AtMost p x.back) :
    money (clampToParentCap (num (.str (money x))) p) = money x := by
  rw [num_money hx, clampToParentCap_of_atMost h, money_back hx]

theorem stripped_str (s : String) : (Value.str s).stripped = strip s := by
  by_cases h : s = ""
  · subst h
    rfl
  · simp [Value.stripped, Value.truthy, Value.text, h]

theorem stripped_stripped (v : Value) : (Value.str v.stripped).stripped = v.stripped := by
  rw [stripped_str, Value.stripped, strip_strip]

section Ends
variable (panel : Panel)

theorem expired_congr {v w : Value} (h : v.stripped = w.stripped) (now : ℤ) :
    panel.expired v now ↔ panel.expired w now := by
  rw [Panel.expired, Panel.expired, Panel.end?, Panel.end?, h]

theorem exists_passed (e : End) : ∃ now, panel.passed now e := by
  cases e with
  | day d =>
    obtain ⟨now, hnow⟩ := panel.onto (d + 1)
    refine ⟨now, ?_⟩
    rw [Panel.passed, hnow]
    exact Int.lt_succ d
  | instant t => exact ⟨t + 1, Int.lt_succ t⟩

theorem passed_imp_iff (e e' : End) :
    (∀ now, panel.passed now e' → panel.passed now e) ↔ panel.noLater e e' := by
  cases e with
  | day d =>
    cases e' with
    | day d' =>
      constructor
      · intro h
        obtain ⟨now, hnow⟩ := panel.onto (d' + 1)
        have hpassed := h now
        rw [Panel.passed, Panel.passed, hnow] at hpassed
        exact Int.lt_add_one_iff.mp (hpassed (Int.lt_succ d'))
      · exact fun hle now hpassed => hle.trans_lt hpassed
    | instant t' =>
      constructor
      · exact fun h => h (t' + 1) (Int.lt_succ t')
      · exact fun hlt now hpassed => hlt.trans_le (panel.mono (Int.add_one_le_iff.mpr hpassed))
  | instant t =>
    cases e' with
    | day d' =>
      constructor
      · exact fun h => not_lt.mp fun hlt => lt_irrefl t (h t hlt)
      · exact fun hle now hpassed => not_le.mp fun hnow =>
          absurd (hpassed.trans_le (panel.mono hnow)) (not_lt.mpr hle)
    | instant t' =>
      constructor
      · exact fun h => Int.lt_add_one_iff.mp (h (t' + 1) (Int.lt_succ t'))
      · exact fun hle now hpassed => hle.trans_lt hpassed

def endText (v pv : Value) : String :=
  if replaced v.stripped pv.stripped then pv.stripped else v.stripped

theorem expired_endText_iff (v pv : Value) :
    (∀ now, panel.expired pv now → panel.expired (.str (endText v pv)) now) ↔
      ExpiryFits panel v pv := by
  rw [ExpiryFits, endText]
  cases hreplaced : replaced v.stripped pv.stripped with
  | true =>
    simp only [if_true]
    refine iff_of_true (fun now h => ?_) fun h => absurd h (by decide)
    rwa [expired_congr panel (stripped_stripped pv)]
  | false =>
    simp only [if_neg Bool.false_ne_true, forall_const, expired_congr panel (stripped_stripped v)]
    constructor
    · intro h e' he'
      obtain ⟨now, hnow⟩ := exists_passed panel e'
      obtain ⟨e, he, -⟩ := h now ⟨e', he', hnow⟩
      refine ⟨e, he, (passed_imp_iff panel e e').mp fun now hpassed => ?_⟩
      obtain ⟨e₂, he₂, hpassed₂⟩ := h now ⟨e', he', hpassed⟩
      rwa [Option.mem_unique he he₂]
    · rintro h now ⟨e', he', hpassed⟩
      obtain ⟨e, he, hle⟩ := h e' he'
      exact ⟨e, he, (passed_imp_iff panel e e').mpr hle now hpassed⟩

theorem endText_again (v pv : Value) : endText (.str (endText v pv)) pv = endText v pv := by
  have hself : replaced pv.stripped pv.stripped = false := by
    rw [replaced]
    by_cases h : pv.stripped = ""
    · simp [h]
    · simp [h]
  cases hreplaced : replaced v.stripped pv.stripped with
  | true =>
    have htext : endText v pv = pv.stripped := by rw [endText, if_pos hreplaced]
    rw [htext, endText, stripped_stripped, hself, if_neg Bool.false_ne_true]
  | false =>
    have htext : endText v pv = v.stripped := by
      rw [endText, hreplaced, if_neg Bool.false_ne_true]
    rw [htext, endText, stripped_stripped, hreplaced, if_neg Bool.false_ne_true]

end Ends

theorem not_counter_of_money : ∀ k ∈ moneyKeys, k ∉ counterKeys := by decide

theorem expiry_not_delegable : "grants_expire_at" ∉ counterKeys ∧
    "grants_expire_at" ∉ moneyKeys := by decide

variable {panel : Panel} {plims : Limits} {k : String} {v : Value}

theorem clampEntry_counter (h : k ∈ counterKeys) : clampEntry plims k v =
    (count (clampToParentCap (num v) (num (plims.at k)))).map fun n => some (.int n) := by
  rw [clampEntry, if_pos h]

theorem clampEntry_money (h : k ∈ moneyKeys) : clampEntry plims k v =
    some (some (.str (money (clampToParentCap (num v) (num (plims.at k)))))) := by
  rw [clampEntry, if_neg (not_counter_of_money k h), if_pos h]

theorem clampEntry_expiry : clampEntry plims "grants_expire_at" v =
    some (some (.str (endText v (plims.at "grants_expire_at")))) := by
  rw [clampEntry, if_neg expiry_not_delegable.1, if_neg expiry_not_delegable.2, if_pos rfl, endText]

theorem clampEntry_of_fits (h : EntryFits panel plims k v) : ∃ w, clampEntry plims k v = some w ∧
    ∀ x, w = some x → EntryLaw panel plims k x ∧ clampEntry plims k x = some (some x) := by
  by_cases hcounter : k ∈ counterKeys
  · obtain ⟨n, hn, hatMost⟩ :=
      (atMost_count_iff (num_read _) (num_read v)).mpr (h.counter hcounter)
    refine ⟨some (.int n), by rw [clampEntry_counter hcounter, hn, Option.map_some], ?_⟩
    rintro x hx
    obtain rfl := Option.some_inj.mp hx
    refine ⟨⟨fun _ => hatMost, fun hk => ?_⟩, ?_⟩
    · exact absurd (hk ▸ hcounter) expiry_not_delegable.1
    · rw [clampEntry_counter hcounter, count_again (num_read _) (num_read v) hn hatMost,
        Option.map_some]
  by_cases hmoney : k ∈ moneyKeys
  · have hread := clampToParentCap_read (num_read (plims.at k)) (num_read v)
    have hatMost := atMost_money_iff.mpr (h.money hmoney)
    refine ⟨_, clampEntry_money hmoney, ?_⟩
    rintro x hx
    obtain rfl := Option.some_inj.mp hx
    refine ⟨⟨fun _ => ?_, fun hk => ?_⟩, ?_⟩
    · rwa [num_money hread]
    · exact absurd (hk ▸ hmoney) expiry_not_delegable.2
    · rw [clampEntry_money hmoney, money_again hread hatMost]
  by_cases hexpiry : k = "grants_expire_at"
  · subst hexpiry
    refine ⟨_, clampEntry_expiry, ?_⟩
    rintro x hx
    obtain rfl := Option.some_inj.mp hx
    refine ⟨⟨fun hk => ?_, fun _ => (expired_endText_iff panel v _).mpr (h.expiry rfl)⟩, ?_⟩
    · exact absurd hk (by decide)
    · rw [clampEntry_expiry, endText_again]
  · refine ⟨none, ?_, fun x hx => (nomatch hx)⟩
    rw [clampEntry, if_neg hcounter, if_neg hmoney, if_neg hexpiry]

theorem fits_of_clampEntry {w : Option Value} (hw : clampEntry plims k v = some w)
    (h : ∀ x, w = some x → EntryLaw panel plims k x) : EntryFits panel plims k v := by
  constructor
  · intro hk
    rw [clampEntry_counter hk] at hw
    obtain ⟨n, hn, rfl⟩ := Option.map_eq_some_iff.mp hw
    exact (atMost_count_iff (num_read _) (num_read v)).mp
      ⟨n, hn, (h _ rfl).atMost (List.mem_append_left _ hk)⟩
  · intro hk
    rw [clampEntry_money hk] at hw
    have hatMost := (h _ (Option.some_inj.mp hw).symm).atMost (List.mem_append_right _ hk)
    rw [num_money (clampToParentCap_read (num_read _) (num_read v))] at hatMost
    exact atMost_money_iff.mp hatMost
  · rintro rfl
    rw [clampEntry_expiry] at hw
    exact (expired_endText_iff panel v _).mp ((h _ (Option.some_inj.mp hw).symm).expired rfl)

theorem clampDelegatedLimits_cons {limits out : Limits} :
    clampDelegatedLimits (some plims) ((k, v) :: limits) = some out ↔
      ∃ w, clampEntry plims k v = some w ∧
        ∃ rest, clampDelegatedLimits (some plims) limits = some rest ∧
          out = (match w with
            | none => rest
            | some x => (k, x) :: rest) := by
  rw [clampDelegatedLimits]
  simp only [Option.getD_some, Option.bind_eq_bind, Option.bind_eq_some_iff, Option.pure_def,
    Option.some_inj]
  constructor
  · rintro ⟨w, hw, rest, hrest, rfl⟩
    exact ⟨w, hw, rest, hrest, rfl⟩
  · rintro ⟨w, hw, rest, hrest, rfl⟩
    exact ⟨w, hw, rest, hrest, rfl⟩

theorem mem_of_clampDelegatedLimits {limits out : Limits}
    (h : clampDelegatedLimits (some plims) limits = some out) (hmem : (k, v) ∈ limits) :
    ∃ w, clampEntry plims k v = some w ∧ ∀ x, w = some x → (k, x) ∈ out := by
  induction limits generalizing out with
  | nil => cases hmem
  | cons entry limits ih =>
    obtain ⟨key, value⟩ := entry
    obtain ⟨w, hw, rest, hrest, rfl⟩ := clampDelegatedLimits_cons.mp h
    obtain heq | hmem := List.mem_cons.mp hmem
    · obtain ⟨rfl, rfl⟩ := Prod.mk.inj heq
      refine ⟨w, hw, ?_⟩
      rintro x rfl
      exact List.mem_cons_self
    · obtain ⟨w', hw', hin⟩ := ih hrest hmem
      refine ⟨w', hw', fun x hx => ?_⟩
      cases w with
      | none => exact hin x hx
      | some y => exact List.mem_cons_of_mem _ (hin x hx)

theorem clampDelegatedLimits_again {out : Limits}
    (h : ∀ k x, (k, x) ∈ out → clampEntry plims k x = some (some x)) :
    clampDelegatedLimits (some plims) out = some out := by
  induction out with
  | nil => rfl
  | cons entry out ih =>
    obtain ⟨key, value⟩ := entry
    refine clampDelegatedLimits_cons.mpr ⟨some value, h key value List.mem_cons_self, out, ?_, rfl⟩
    exact ih fun k x hx => h k x (List.mem_cons_of_mem _ hx)

theorem clampDelegatedLimits_of_fits {limits : Limits}
    (h : ∀ k v, (k, v) ∈ limits → EntryFits panel plims k v) :
    ∃ out, clampDelegatedLimits (some plims) limits = some out ∧
      ∀ k x, (k, x) ∈ out →
        EntryLaw panel plims k x ∧ clampEntry plims k x = some (some x) := by
  induction limits with
  | nil => exact ⟨[], rfl, fun k x hx => (nomatch hx)⟩
  | cons entry limits ih =>
    obtain ⟨key, value⟩ := entry
    obtain ⟨w, hw, hlaw⟩ := clampEntry_of_fits (h key value List.mem_cons_self)
    obtain ⟨rest, hrest, hout⟩ := ih fun k v hkv => h k v (List.mem_cons_of_mem _ hkv)
    refine ⟨_, clampDelegatedLimits_cons.mpr ⟨w, hw, rest, hrest, rfl⟩, fun k x hx => ?_⟩
    cases w with
    | none => exact hout k x hx
    | some y =>
      obtain heq | hx := List.mem_cons.mp hx
      · obtain ⟨rfl, rfl⟩ := Prod.mk.inj heq
        exact hlaw x rfl
      · exact hout k x hx

theorem limitsLaw_iff_fits {limits : Limits} :
    LimitsLaw panel plims limits ↔ ∀ k v, (k, v) ∈ limits → EntryFits panel plims k v := by
  constructor
  · rintro ⟨out, hout, hlaw, -⟩ k v hkv
    obtain ⟨w, hw, hin⟩ := mem_of_clampDelegatedLimits hout hkv
    exact fits_of_clampEntry hw fun x hx => hlaw k x (hin x hx)
  · intro h
    obtain ⟨out, hout, hentries⟩ := clampDelegatedLimits_of_fits h
    exact ⟨out, hout, fun k x hx => (hentries k x hx).1,
      clampDelegatedLimits_again fun k x hx => (hentries k x hx).2⟩

theorem num_creditLimit (limit : String) :
    num (if limit = "" then .int 0 else .str limit) = num (.str limit) := by
  split_ifs with h
  · subst h
    exact num_texts.2.1
  · rfl

theorem money_zero : money (.finite 0) = "0.00" := num_texts.2.2.1

theorem creditLaw_iff_fits {creditLimit : String} {readable : Bool} {requested : Value} :
    CreditLaw creditLimit readable requested ↔ CreditFits creditLimit readable requested := by
  have hread := num_read requested
  cases readable with
  | true =>
    have hclamped := clampToParentCap_read (num_read (.str creditLimit)) hread
    simp only [CreditLaw, CreditFits, clampDelegatedCredit, if_true, num_creditLimit,
      num_money hclamped, atMost_money_iff, and_iff_left_iff_imp]
    intro hfits
    rw [clampToParentCap_of_atMost (atMost_money_iff.mpr hfits), money_back hclamped]
  | false =>
    have hwritten : ∀ v : Value, clampDelegatedCredit none v = money (num v) := by
      intro v
      rw [clampDelegatedCredit]
      split_ifs with hlimited
      · rfl
      · have hnum := num_read v
        cases hx : num v with
        | infinite =>
          rw [hx] at hlimited
          exact absurd rfl hlimited
        | finite q =>
          rw [hx] at hlimited hnum
          have hzero : q = 0 := le_antisymm (by simpa [Amount.limited] using hlimited) hnum.1
          rw [hzero, money_zero]
    simp only [CreditLaw, CreditFits, if_neg Bool.false_ne_true, hwritten, num_money hread,
      money_back hread, and_true, AtMost, survives_iff]

/-- Delegation keeps to what the parent has exactly if every request fits his limits. -/
theorem delegationLaw_iff (panel : Panel) (plims limits : Limits) (creditLimit : String)
    (readable : Bool) (requested : Value) :
    LimitsLaw panel plims limits ∧ CreditLaw creditLimit readable requested ↔
      (∀ k v, (k, v) ∈ limits → EntryFits panel plims k v) ∧
        CreditFits creditLimit readable requested :=
  and_congr limitsLaw_iff_fits creditLaw_iff_fits

def utcPanel : Panel where
  localDay now := now / 86400000000
  mono _ _ h := Int.ediv_le_ediv (by norm_num) h
  onto d := ⟨d * 86400000000, Int.mul_ediv_cancel d (by norm_num)⟩
  date? _ := none
  datetime? _ := none

/-- Half a day is written as none, which is no limit. -/
theorem half_day_is_unlimited :
    ¬ (LimitsLaw utcPanel [("max_free_days", .int 10)] [("max_free_days", .str "0.5")] ∧
      CreditLaw "0.00" true .none) := by
  rintro ⟨hlimits, -⟩
  have hcap : num (.int 10) = .finite 10 := num_texts.2.2.2.1
  have hrequest : num (.str "0.5") = .finite (1 / 2) := num_texts.2.2.2.2
  have hat : Limits.at [("max_free_days", .int 10)] "max_free_days" = .int 10 := rfl
  have hfits := (limitsLaw_iff_fits.mp hlimits _ _ List.mem_cons_self).counter (by decide)
  rw [hat, hcap, hrequest] at hfits
  norm_num [CountFits, Amount.limited, Amount.le, Amount.Counts] at hfits

end RadiusModule.DelegationCaps
