import Tradepost.Proofs.Node.OwnPrices
import Tradepost.Proofs.Number.Operations
import Tradepost.Proofs.Price.Scaling
import Tradepost.Web.View

/-!
# The margins that clients read

A percentage is divided by a hundred in decimal and multiplied by a hundred in
binary. What a client reads is therefore the percentage that was set as far as
its first 15 digits go, but not always the same number. It is the same number
if the percentage is its own decimal form and lies in the part above a power of
two where its hundredth has a digit to spare.
-/

namespace Tradepost

open Number Binary64

variable {m x f : Binary64}

/-! ## Percentages -/

structure Percentage (m : Binary64) : Prop where
  canonical : m.Canonical
  lt : |m.value| < 100
  digits : ∃ s c p, m.toDecimal = .finite s c p ∧ c < Nat.pow 10 15
  low : m.toDecimal.value = 0 ∨ 10 ^ (-6 : ℤ) ≤ |m.toDecimal.value|

def fifteen : Format := { Decimal.context with digits := 15, digits_pos := by decide }

structure ReadAs (m x : Binary64) : Prop where
  canonical : x.Canonical
  value : x.value = double.back 100 m.toDecimal.value
  digits : fifteen.nearest x.value = m.toDecimal.value
  exact : m.toDecimal.value = m.value →
    ∀ j : ℤ, 2 ^ j ≤ |m.value| → |m.value| < 25 / 16 * 2 ^ j → x.value = m.value

theorem hundred : double.Divisor 100 7 :=
  double_divisor (b := 6) (c := 100) (by norm_num) (by norm_num) (by norm_num)
    (by decide +kernel : ofRatio false 1 100 = finite false 5764607523034235 (-59)) (by norm_num [size])

namespace Percentage

theorem decimal_le (h : Percentage m) : |m.toDecimal.value| ≤ 100 := by
  by_contra hgt
  have hround : double.nearest 100 ≤ double.nearest |m.toDecimal.value| := Format.nearest_mono (not_le.mp hgt).le
  have hhundred : double.nearest 100 = 100 := by
    have := double.nearest_short (m := 100) (k := 0) (by norm_num [double]) (by decide)
    simpa using this
  rw [Format.nearest_abs, toDecimal_nearest h.canonical, hhundred] at hround
  exact absurd h.lt hround.not_gt

theorem decimal_form (h : Percentage m) :
    ∃ s c p, m.toDecimal = .finite s c p ∧ c < Nat.pow 10 15 ∧ (c = 0 ∨ -21 ≤ p) := by
  obtain ⟨s, c, p, hd, hc⟩ := h.digits
  refine ⟨s, c, p, hd, hc, or_iff_not_imp_left.mpr fun hc0 => ?_⟩
  have hvalue : |m.toDecimal.value| = size 10 c p := by rw [hd, Decimal.value, abs_withSign_size]
  have hpos := size_pos (r := 10) hc0 p
  have hlow := h.low.resolve_left fun h0 => by
    rw [h0, abs_zero] at hvalue
    exact hpos.ne hvalue
  have hhigh : size 10 c p < 10 ^ (p + 15) := size_lt_pow hc p
  have := (zpow_lt_zpow_iff_right₀ (by norm_num : (1 : ℚ) < 10)).mp ((hlow.trans_eq hvalue).trans_lt hhigh)
  omega

theorem hundredth_taken (h : Percentage m) :
    ∃ s c e, m.toDecimal.mul hundredth.toDecimal = .ok (.finite s c e) ∧
      (Decimal.finite s c e).value = m.toDecimal.value / 100 := by
  obtain ⟨s, c, p, hd, hc, hp⟩ := h.decimal_form
  have hmul : m.toDecimal.mul hundredth.toDecimal = Decimal.fit (s != false) (c * 1) (p + -2) := by
    rw [hd, hundredth_decimal]
    rfl
  have hone : (Decimal.finite false 1 (-2)).value = 1 / 100 := by norm_num [Decimal.value, withSign, size]
  have hproduct : (Decimal.finite (s != false) (c * 1) (p + -2)).value = m.toDecimal.value / 100 := by
    rw [Decimal.value_mul, hone, hd, mul_one_div]
  have hsize : size 10 (c * 1) (p + -2) ≤ 10 ^ (0 : ℤ) := by
    have hle := h.decimal_le
    rw [← abs_withSign_size (s != false), ← Decimal.value, hproduct, abs_div,
      abs_of_pos (by norm_num : (0 : ℚ) < 100), zpow_zero]
    linarith
  obtain ⟨c', e', hfit, _⟩ := Decimal.fit_size (s != false) hsize (by decide) (by decide)
  refine ⟨s != false, c', e', hmul.trans hfit, (Decimal.fit_value hfit).trans ?_⟩
  rw [← hproduct]
  rcases hp with rfl | hp
  · rw [Nat.zero_mul, Decimal.value_zero, Format.nearest_zero]
  · have hc' : c * 1 < Nat.pow 10 Decimal.precision :=
      (Nat.mul_one c).trans_lt (hc.trans_le (Nat.pow_le_pow_right (by decide) (by decide)))
    have hleast : Decimal.leastExponent = -1000026 := rfl
    exact Decimal.nearest_value _ hc' (by omega)

theorem fraction (h : Percentage m) :
    ∃ f, fractionOf m = .ok f ∧ f.Canonical ∧ f.value = double.nearest (m.toDecimal.value / 100) := by
  obtain ⟨s, c, e, hmul, hvalue⟩ := h.hundredth_taken
  have hsize : size 10 c e = |m.toDecimal.value| / 100 := by
    rw [← abs_withSign_size s, ← Decimal.value, hvalue, abs_div, abs_of_pos (by norm_num : (0 : ℚ) < 100)]
  have hlow : c = 0 ∨ 10 ^ (-300 : ℤ) ≤ size 10 c e := by
    rcases h.low with h0 | hlow
    · rw [h0, abs_zero, zero_div] at hsize
      exact .inl (by_contra fun hc => (size_pos hc e).ne' hsize)
    · right
      calc (10 : ℚ) ^ (-300 : ℤ) ≤ 10 ^ (-8 : ℤ) := zpow_le_zpow_right₀ (by norm_num) (by norm_num)
        _ = 10 ^ (-6 : ℤ) / 100 := by norm_num
        _ ≤ size 10 c e := hsize ▸ div_le_div_of_nonneg_right hlow (by norm_num)
  have hhigh : size 10 c e ≤ 10 ^ (300 : ℤ) := by
    have hle := h.decimal_le
    calc size 10 c e ≤ 10 ^ (0 : ℤ) := by rw [hsize, zpow_zero]; linarith
      _ ≤ 10 ^ (300 : ℤ) := zpow_le_zpow_right₀ (by norm_num) (by norm_num)
  obtain ⟨hcanonical, hnearest⟩ := ofDecimal_value (s := s) hlow hhigh
  exact ⟨_, bind_eq_ok.mpr ⟨_, hmul, rfl⟩, hcanonical, hvalue ▸ hnearest⟩

/-! ## What comes back -/

theorem back_digits (h : Percentage m) :
    fifteen.nearest (double.back 100 m.toDecimal.value) = m.toDecimal.value := by
  obtain ⟨s, c, p, hd, hc, hp⟩ := h.decimal_form
  rcases h.low with h0 | hlow
  · rw [h0, double.back_zero, fifteen.nearest_zero]
  have hpos : 0 < |m.toDecimal.value| := lt_of_lt_of_le (by positivity) hlow
  have hp : -21 ≤ p := by
    refine hp.resolve_left fun hc0 => ?_
    rw [hd, hc0, Decimal.value_zero, abs_zero] at hpos
    exact lt_irrefl _ hpos
  have hform : m.toDecimal.value = ((if s then -c else c : ℤ) : ℚ) * fifteen.base ^ p := by
    rw [hd]
    cases s <;> simp [Decimal.value, withSign, size, fifteen, Decimal.context]
  have hfew : |(if s then -c else c : ℤ)| < fifteen.base ^ fifteen.digits := by
    have hc' : (c : ℤ) < 10 ^ 15 := by exact_mod_cast hc
    split
    · rwa [abs_neg, abs_of_nonneg (Int.natCast_nonneg c)]
    · rwa [abs_of_nonneg (Int.natCast_nonneg c)]
  refine fifteen.nearest_of_few hform hfew ?_ ?_
  · show (-1000026 : ℤ) ≤ p
    omega
  · have hpow : (2 : ℚ) ^ (-20 : ℤ) ≤ |m.toDecimal.value| := le_trans (by norm_num) hlow
    have hpart : double.unit * (2 + double.unit) ≤ 1 / (4 * 10 ^ 15) := by norm_num [Format.unit, double]
    have hnear := (hundred.back_relative hpow (by decide)).trans (mul_le_mul_of_nonneg_left hpart (abs_nonneg _))
    have hsize := abs_sub_abs_le_abs_sub m.toDecimal.value (double.back 100 m.toDecimal.value)
    rw [abs_sub_comm] at hsize
    show 2 * (10 : ℚ) ^ 15 * _ < _
    linarith

/-- A number that is its own decimal form comes back whole if it is less than 25 sixteenths of a
power of two. -/
theorem back_exact (h : Percentage m) (hexact : m.toDecimal.value = m.value) {j : ℤ} (hlow : 2 ^ j ≤ |m.value|)
    (hhigh : |m.value| < 25 / 16 * 2 ^ j) : double.back 100 m.value = m.value := by
  obtain ⟨s, k, e, rfl⟩ := h.canonical.finite
  have hpos : 0 < |(finite s k e).value| := lt_of_lt_of_le (by positivity) hlow
  have hj : -20 < j + 1 := by
    have hmillionth := h.low.resolve_left fun h0 => by
      rw [← hexact, h0, abs_zero] at hpos
      exact lt_irrefl _ hpos
    rw [hexact] at hmillionth
    refine (zpow_lt_zpow_iff_right₀ (by norm_num : (1 : ℚ) < 2)).mp ?_
    rw [zpow_add₀ (by norm_num) j]
    norm_num at hmillionth ⊢
    linarith
  rw [value, abs_withSign_size] at hlow hhigh hpos
  have hk : k ≠ 0 := fun hk => hpos.ne' (size_eq_zero.mpr hk)
  have hback : double.back 100 (size 2 k e) = size 2 k e := by
    refine hundred.back_eq (n := k) (j := e) rfl (place_size h.canonical hk).le hlow ?_ ?_
    · rw [show j + 1 - 7 = j + -6 by omega, base_pow_add double.base]
      refine hhigh.trans_eq ?_
      norm_num [double]
      ring
    · show (-1074 : ℤ) + (53 : ℕ) + 7 ≤ j + 1
      omega
  rw [value, map_withSign (double.back_neg 100), hback]

theorem readAs (h : Percentage m) (hf : f.Canonical) (hvalue : f.value = double.nearest (m.toDecimal.value / 100)) :
    ReadAs m (f.mul (.ofInt 100)) := by
  have hquot : |m.toDecimal.value / (100 : ℤ)| ≤ 2 ^ (900 : ℤ) := by
    have hle := h.decimal_le
    rw [Int.cast_ofNat, abs_div, abs_of_pos (by norm_num : (0 : ℚ) < 100)]
    calc |m.toDecimal.value| / 100 ≤ 1 := by linarith
      _ ≤ 2 ^ (900 : ℤ) := one_le_zpow₀ (by norm_num) (by norm_num)
  obtain ⟨hcanonical, hback⟩ := mul_back hf (c := 100) hvalue (by norm_num) hquot
  refine ⟨hcanonical, hback, hback ▸ h.back_digits, fun hexact j hlow hhigh => ?_⟩
  rw [hback, hexact]
  exact h.back_exact hexact hlow hhigh

end Percentage

/-! ## Offers -/

namespace OfferView

variable {o : Offer} {quotes : Quotes} {mine : Bool} {v : OfferView}

theorem ofOffer_margin (h : ofOffer quotes o mine = .ok v) :
    v.marginPercent = o.payload.margin.mul (.ofInt 100) := by
  obtain ⟨price, _, h⟩ := bind_eq_ok.mp h
  cases h
  rfl

theorem ofOwn_margin {terms : OpenOffer} (h : ofOwn quotes o terms = .ok v) :
    v.marginPercent = o.payload.margin.mul (.ofInt 100) := by
  obtain ⟨w, hw, h⟩ := bind_eq_ok.mp h
  have hmargin := ofOffer_margin hw
  cases h
  exact hmargin

theorem text_marketPrice {p : Payload} {quote : Decimal} {x : Price} (h : p.marketPrice quote = .ok x) :
    ∃ text, x.text = .ok text := by
  rw [marketPrice_eq] at h
  obtain ⟨_, _, h⟩ := bind_eq_ok.mp h
  obtain ⟨_, _, h⟩ := bind_eq_ok.mp h
  obtain ⟨value, hvalue, h⟩ := bind_eq_ok.mp h
  cases h
  exact ⟨_, Price.textOf_plain (Price.holds_of_scale hvalue) _⟩

theorem ofOffer_plain (hfeed : o.feed = .node) (hmarket : o.payload.useMarketPrice = true)
    (hm : o.payload.margin.Canonical) (hq : quotes.Plain) (mine : Bool) : ∃ v, ofOffer quotes o mine = .ok v := by
  have hfed := Node.quote?_own hfeed quotes
  obtain ⟨price, hprice⟩ : ∃ price, priceText quotes o = .ok price := by
    cases hquote : quotes.get? o.currency with
    | none =>
      have hnone : (o.quotes? quotes).bind (·.get? o.payload.currency) = none := hfed.trans hquote
      have hunpriced : o.price? quotes = .ok none := by
        simp only [Offer.price?, hmarket, hnone, Bool.not_true, Bool.false_eq_true, ite_false]
      exact ⟨none, bind_eq_ok.mpr ⟨none, hunpriced, rfl⟩⟩
    | some quote =>
      obtain ⟨s, k, e, hform⟩ := hm.finite
      obtain ⟨hk, _, he, _⟩ := hform ▸ hm
      obtain ⟨x, hx⟩ := marketPrice_of_finite (hq _ _ hquote) hform hk.le he
      obtain ⟨text, htext⟩ := text_marketPrice hx
      have hpriced : o.price? quotes = .ok (some x) := by
        rw [price?_quoted hmarket (hfed.trans hquote), hx]
        rfl
      exact ⟨some text, bind_eq_ok.mpr ⟨some x, hpriced, bind_eq_ok.mpr ⟨text, htext, rfl⟩⟩⟩
  exact ⟨_, bind_eq_ok.mpr ⟨_, hprice, rfl⟩⟩

end OfferView

structure Offer.ShowsMargin (m : Binary64) (o : Offer) : Prop where
  market : o.payload.useMarketPrice = true
  view : ∀ quotes mine v, OfferView.ofOffer quotes o mine = .ok v → ReadAs m v.marginPercent
  ownView : ∀ quotes terms v, OfferView.ofOwn quotes o terms = .ok v → ReadAs m v.marginPercent
  viewed : ∀ quotes mine, quotes.Plain → ∃ v, OfferView.ofOffer quotes o mine = .ok v

theorem Percentage.shows (h : Percentage m) {o : Offer} (hfeed : o.feed = .node)
    (hmarket : o.payload.useMarketPrice = true) (hm : o.payload.margin.Canonical)
    (hvalue : o.payload.margin.value = double.nearest (m.toDecimal.value / 100)) : o.ShowsMargin m where
  market := hmarket
  view _ _ _ hv := OfferView.ofOffer_margin hv ▸ h.readAs hm hvalue
  ownView _ _ _ hv := OfferView.ofOwn_margin hv ▸ h.readAs hm hvalue
  viewed _ mine hq := OfferView.ofOffer_plain hfeed hmarket hm hq mine

/-! ## Calls that set a margin -/

theorem percentage_zero : Percentage .zero where
  canonical := canonical_zero false
  lt := by
    rw [zero, value, abs_withSign_size, size_zero]
    norm_num
  digits := ⟨_, _, _, toDecimal_zero _ _, by decide⟩
  low := .inl (by rw [zero, toDecimal_zero, Decimal.value_zero])

theorem Percentage.marginFraction (h : Percentage m) {r : EditRequest} (hr : r.marginPercent = some m) :
    ∃ f, r.marginFraction = .ok f ∧ f.Canonical ∧ f.value = double.nearest (m.toDecimal.value / 100) := by
  unfold EditRequest.marginFraction
  rw [hr]
  dsimp only
  by_cases hz : m.isZero = true
  · obtain ⟨s, k, e, rfl⟩ := h.canonical.finite
    obtain rfl : k = 0 := by
      cases k with
      | zero => rfl
      | succ k => cases hz
    rw [if_pos hz, toDecimal_zero, Decimal.value_zero]
    have hzero := percentage_zero.fraction
    rwa [zero, toDecimal_zero, Decimal.value_zero] at hzero
  · rw [if_neg hz]
    exact h.fraction

namespace Node

open Registry

variable {n : Node}

theorem created_margin (h : Percentage m) {p : CreateParams} (hmarket : p.useMarketPrice = true)
    (hp : p.marginPercent = m) {k : Nat} (hk : (n.perform (.create p)).2 = .ok (.placed k)) :
    ∃ o, (n.perform (.create p)).1.registry.offer? k = some o ∧ o.ShowsMargin m := by
  have hcreation := n.perform_creation p
  generalize n.perform (.create p) = made at hcreation hk ⊢
  cases hcreation with
  | undrafted _ => cases hk
  | invalid _ _ => cases hk
  | taken _ _ => cases hk
  | @placed o hd _ _ =>
    cases hk
    refine ⟨_, offer?_placed_filed .., ?_⟩
    obtain ⟨t, f, hdrafted⟩ := draftOffer_drafted hd
    obtain ⟨f', hf', hcanonical, hvalue⟩ := h.fraction
    obtain rfl : f' = f := Except.ok.inj (hf'.symm.trans (hp ▸ hdrafted.fraction))
    have hmargin : o.payload.margin = f' := by rw [hdrafted.margin, if_pos hmarket]
    refine h.shows ?_ ?_ ?_ ?_
    · rw [hdrafted.offer]
    · exact hdrafted.market.trans hmarket
    · exact hmargin ▸ hcanonical
    · exact hmargin ▸ hvalue

theorem edited_margin (h : Percentage m) (hn : n.Reachable) {id : String} {r : EditRequest} {t : EditType}
    (ht : EditType.read? r.editType = some t) (hs : t.scope.margin = true)
    (hr : r.marginPercent = some m) {x : Receipt}
    (hx : (n.perform (.edit id r)).2 = .ok x) :
    ∃ own, (n.perform (.edit id r)).1.getMyOpenOffer id = .ok own ∧ own.offer.ShowsMargin m := by
  obtain ⟨v, own, own', he⟩ := hn.sound.edited hx
  obtain ⟨t', ht', hscope⟩ := he.type
  obtain rfl : t = t' := Option.some.inj (ht.symm.trans ht')
  obtain ⟨q, hq, ho⟩ := he.revised.offer
  obtain ⟨f, hf, hcanonical, hvalue⟩ := h.marginFraction hr
  have ho' : own'.offer = .edited (own.offer.payload.withPricing q) := ho
  refine ⟨own', he.after, ?_⟩
  rw [hscope] at hq
  rw [ho']
  cases hq with
  | margin _ hf' =>
    obtain rfl := Except.ok.inj (hf'.symm.trans hf)
    exact h.shows rfl rfl hcanonical hvalue
  | trigger hs' _ => cases hs'.symm.trans hs
  | fixed hs' _ _ _ => cases hs'.symm.trans hs
  | none hs' _ _ => cases hs'.symm.trans hs

/-- **The margin that was set is read to 15 digits.** For every percentage of at most 15 digits that
is zero or at least a millionth, and less than a hundred either way: whoever looks at an offer that
was created with it, or whose margin an edit has set to it, reads the percentage once the number is
shortened to 15 digits, but the number itself for certain only if the percentage is its own decimal
form and less than 25 sixteenths of the power of two below it. -/
theorem margin_set_and_read (h : Percentage m) :
    (∀ p k, p.useMarketPrice = true → p.marginPercent = m → (n.perform (.create p)).2 = .ok (.placed k) →
      ∃ o, (n.perform (.create p)).1.registry.offer? k = some o ∧ o.ShowsMargin m) ∧
    (n.Reachable → ∀ id r t x, EditType.read? r.editType = some t → t.scope.margin = true →
      r.marginPercent = some m →
      (n.perform (.edit id r)).2 = .ok x →
        ∃ own, (n.perform (.edit id r)).1.getMyOpenOffer id = .ok own ∧ own.offer.ShowsMargin m) :=
  ⟨fun _ _ hmarket hp hk => created_margin h hmarket hp hk,
    fun hn _ _ _ _ ht hs hr hx => edited_margin h hn ht hs hr hx⟩

theorem percentage_whole {c d p : ℕ} (hc : c < 100) (hd : (ofInt c).toDecimal = .finite false d p)
    (hdigits : d < Nat.pow 10 15) (hp : d * 10 ^ p = c) : Percentage (ofInt c) := by
  have hbound : |(c : ℤ)| < 2 ^ 53 := by
    rw [abs_of_nonneg (Int.natCast_nonneg c)]
    omega
  obtain ⟨hcanonical, hvalue⟩ := ofInt_value hbound
  have hc' : (c : ℚ) < 100 := by exact_mod_cast hc
  have hdecimal : (ofInt c).toDecimal.value = c := by
    rw [hd, ← hp]
    simp [Decimal.value, withSign, size]
  refine ⟨hcanonical, ?_, ⟨_, _, _, hd, hdigits⟩, ?_⟩
  · rwa [hvalue, Int.cast_natCast, abs_of_nonneg (Nat.cast_nonneg c)]
  · rw [hdecimal, abs_of_nonneg (Nat.cast_nonneg c)]
    rcases Nat.eq_zero_or_pos c with rfl | hpos
    · exact .inl Nat.cast_zero
    · have : (1 : ℚ) ≤ c := by exact_mod_cast hpos
      exact .inr (le_trans (by norm_num) this)

theorem percentage_seven : Percentage (ofInt 7) :=
  percentage_whole (c := 7) (d := 7) (p := 0) (by decide) (by decide +kernel) (by decide) rfl

theorem percentage_twenty : Percentage (ofInt 20) :=
  percentage_whole (c := 20) (d := 2) (p := 1) (by decide) (by decide +kernel) (by decide) rfl

def sevenPercent : Node := (quoted.perform (.create (createMarket (.ofInt 7)))).1

def marginTwenty : EditRequest := { editType := .text "MKT_PRICE_MARGIN_ONLY", marginPercent := some (.ofInt 20) }

theorem sevenPercent_created :
    (quoted.perform (.create (createMarket (.ofInt 7)))).2 = .ok (.placed 0) := by decide +kernel

theorem sevenPercent_reachable : sevenPercent.Reachable :=
  ((Ran.fresh rfl rfl rfl : Ran [] quoted).call (.create (createMarket (.ofInt 7)))).reachable

theorem margin_set_and_read_seven :
    (∃ o v, sevenPercent.registry.offer? 0 = some o ∧ OfferView.ofOffer quoted.quotes o true = .ok v ∧
      fifteen.nearest v.marginPercent.value = 7) ∧
    ∃ own v, (sevenPercent.perform (.edit "gen-1" marginTwenty)).1.getMyOpenOffer "gen-1" = .ok own ∧
      OfferView.ofOffer quoted.quotes own.offer true = .ok v ∧ v.marginPercent.value = 20 := by
  have hseven : (ofInt 7).toDecimal = .finite false 7 0 := by decide +kernel
  have htwenty : (ofInt 20).toDecimal = .finite false 2 1 := by decide +kernel
  have hvalue : (ofInt 20).value = 20 := (ofInt_value (n := 20) (by norm_num)).2
  have hcreated := (margin_set_and_read percentage_seven).1 (createMarket (.ofInt 7)) 0 rfl rfl sevenPercent_created
  rw [← sevenPercent] at hcreated
  obtain ⟨o, ho, hshows⟩ := hcreated
  obtain ⟨x, hx⟩ : ∃ x, (sevenPercent.perform (.edit "gen-1" marginTwenty)).2 = .ok x :=
    ⟨.edited 1, by decide +kernel⟩
  obtain ⟨own, hown, hshows'⟩ :=
    (margin_set_and_read percentage_twenty).2 sevenPercent_reachable "gen-1" marginTwenty .marginOnly x
      (by decide) rfl rfl hx
  obtain ⟨v, hv⟩ := hshows.viewed quoted.quotes true quoted_plain
  obtain ⟨v', hv'⟩ := hshows'.viewed quoted.quotes true quoted_plain
  refine ⟨⟨o, v, ho, hv, (hshows.view _ _ _ hv).digits.trans ?_⟩, own, v', hown, hv', ?_⟩
  · rw [hseven]
    norm_num [Decimal.value, withSign, size]
  · have hexact : (ofInt 20).toDecimal.value = (ofInt 20).value := by
      rw [htwenty, hvalue]
      norm_num [Decimal.value, withSign, size]
    refine ((hshows'.view _ _ _ hv').exact hexact 4 ?_ ?_).trans hvalue <;> rw [hvalue] <;> norm_num

theorem seven_percent_off : ∃ o v, (quoted.perform (.create (createMarket (.ofInt 7)))).2 = .ok (.placed 0) ∧
    sevenPercent.registry.offer? 0 = some o ∧ OfferView.ofOffer quoted.quotes o true = .ok v ∧
    v.marginPercent ≠ .ofInt 7 ∧ v.marginPercent.toText = "7.000000000000001" := by
  have h : ((sevenPercent.registry.offer? 0).bind fun o => (OfferView.ofOffer quoted.quotes o true).toOption).map
      OfferView.marginPercent = some (.finite false 7881299347898369 (-50)) := by decide +kernel
  obtain ⟨v, hv, hmargin⟩ := Option.map_eq_some_iff.mp h
  obtain ⟨o, ho, hview⟩ := Option.bind_eq_some_iff.mp hv
  refine ⟨o, v, sevenPercent_created, ho, ?_, ?_, ?_⟩
  · cases hx : OfferView.ofOffer quoted.quotes o true with
    | error b =>
      rw [hx] at hview
      cases hview
    | ok w =>
      rw [hx] at hview
      exact congrArg Except.ok (Option.some.inj hview)
  · rw [hmargin]
    decide +kernel
  · rw [hmargin]
    decide +kernel

end Node

end Tradepost
