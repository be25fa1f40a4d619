import Tradepost.Offer.Basic
import Tradepost.Proofs.Number.Context
import Tradepost.Proofs.Number.Double
import Tradepost.Proofs.Price

/-!
# Prices that can be computed

A quote and a margin that are finite numbers give a price, and the price is not
negative if the quote is not and the margin is one at most. Margins that are
not finite never give a price.
-/

namespace Tradepost

open Number

/-! ## Market prices -/

theorem add_one_ok {t : Bool} {d k : Nat} {f : Int} (hd : size 10 d f ≤ 10 ^ k)
    (hk : (k + 1 : Nat) ≤ Decimal.maxExponent) :
    ∃ u a g, (Decimal.finite false 1 0).add (.finite t d f) = .ok (.finite u a g) ∧
      size 10 a g ≤ 10 ^ (k + 1) ∧ (k = 0 → u = false) := by
  have hone : size 10 1 0 = 1 := by simp [size]
  have hsum := Decimal.exactSum_size false 1 0 t d f
  have hsign : k = 0 → (Decimal.exactSum false 1 0 t d f).1 = false := by
    intro h0
    refine Decimal.exactSum_sign ?_
    rwa [hone, ← pow_zero 10, ← h0]
  obtain ⟨u, a, g, hu⟩ : ∃ u a g, Decimal.exactSum false 1 0 t d f = (u, a, g) := ⟨_, _, _, rfl⟩
  rw [hu] at hsum hsign
  have hbound : size 10 a g ≤ 10 ^ ((k + 1 : Nat) : Int) := by
    have hpow : (1 : ℚ) ≤ 10 ^ k := one_le_pow₀ (by norm_num)
    rw [zpow_natCast, pow_succ]
    dsimp only at hsum
    linarith
  obtain ⟨a', g', hfit, hsize⟩ := Decimal.fit_size u hbound (by omega) hk
  refine ⟨u, a', g', ?_, by rwa [zpow_natCast] at hsize, hsign⟩
  rw [Decimal.add, hu]
  exact hfit

theorem scale_ok {s : Bool} {c j : Nat} {e : Int} (hc : size 10 c e ≤ 10 ^ j)
    (hj : (j + 8 : Nat) ≤ Decimal.maxExponent) (currency : String) :
    ∃ v, Price.scale (.finite s c e) currency = .ok v ∧ (s = false → 0 ≤ v) := by
  have hprec := Price.precision_le currency
  have hbound : size 10 c (e + Currency.precision currency) ≤ 10 ^ ((j + 8 : Nat) : Int) := by
    have hpow : (10 : ℚ) ^ Currency.precision currency ≤ 10 ^ 8 := pow_le_pow_right₀ (by norm_num) hprec
    rw [size_shift, zpow_natCast, zpow_natCast, pow_add]
    exact mul_le_mul hc hpow (by positivity) (by positivity)
  obtain ⟨c', e', hfit, _⟩ := Decimal.fit_size s hbound (by omega) hj
  refine ⟨_, bind_eq_ok.mpr ⟨_, hfit, rfl⟩, ?_⟩
  rintro rfl
  exact Int.natCast_nonneg _

def Payload.factor (p : Payload) : Except Breakdown Decimal :=
  if p.below then (Decimal.ofInt 1).sub p.margin.toDecimal else (Decimal.ofInt 1).add p.margin.toDecimal

theorem marketPrice_eq (p : Payload) (quote : Decimal) : p.marketPrice quote = (do
    let value ← Price.scale (← quote.mul (← p.factor)) p.currency
    pure ⟨value, p.currency⟩) := by
  unfold Payload.marketPrice Payload.factor
  cases p.below <;> rfl

theorem factor_finite {p : Payload} {t : Bool} {d : Nat} {f : Int} (h : p.margin.toDecimal = .finite t d f) :
    ∃ t', p.factor = (Decimal.finite false 1 0).add (.finite t' d f) := by
  unfold Payload.factor
  rw [h]
  cases p.below with
  | true => exact ⟨!t, rfl⟩
  | false => exact ⟨t, rfl⟩

theorem marketPrice_ok {p : Payload} {s t : Bool} {c d j k : Nat} {e f : Int}
    (hm : p.margin.toDecimal = .finite t d f) (hd : size 10 d f ≤ 10 ^ k)
    (hc : size 10 c e ≤ 10 ^ j) (hjk : (j + k + 9 : Nat) ≤ Decimal.maxExponent) :
    ∃ x, p.marketPrice (.finite s c e) = .ok x ∧ (s = false → k = 0 → 0 ≤ x.value) := by
  obtain ⟨t', ht'⟩ := factor_finite hm
  obtain ⟨u, a, g, hadd, ha, hu⟩ := add_one_ok (t := t') hd (by omega)
  have hproduct : size 10 (c * a) (e + g) ≤ 10 ^ ((j + k + 1 : Nat) : Int) := by
    rw [size_mul, zpow_natCast, Nat.add_assoc, pow_add]
    exact mul_le_mul hc ha (size_nonneg _ _ _) (by positivity)
  obtain ⟨b, i, hfit, hb⟩ := Decimal.fit_size (s != u) hproduct (by omega) (by omega)
  obtain ⟨v, hv, hpos⟩ := scale_ok (s := s != u) (by rwa [zpow_natCast] at hb) (by omega) p.currency
  refine ⟨⟨v, p.currency⟩, ?_, fun hs hk => hpos (by rw [hs, hu hk]; rfl)⟩
  rw [marketPrice_eq]
  refine bind_eq_ok.mpr ⟨.finite u a g, ht'.trans hadd, ?_⟩
  refine bind_eq_ok.mpr ⟨.finite (s != u) b i, hfit, ?_⟩
  exact bind_eq_ok.mpr ⟨v, hv, rfl⟩

/-! ## Which margins give a price -/

def Decimal.Plain (d : Decimal) : Prop := ∃ c e, d = .finite false c e ∧ size 10 c e < 10 ^ 12

def Quotes.Plain (q : Quotes) : Prop := ∀ code d, q.get? code = some d → d.Plain

theorem plain_of_entries {q : Quotes} (h : ∀ e ∈ q.byCode.entries, e.2.Plain) : q.Plain :=
  fun code d hd => h (Text.upper code, d) (OrderedMap.get?_eq_some.mp hd)

def Binary64.OfFormat : Binary64 → Prop
  | finite _ m e => m ≤ Nat.pow 2 53 ∧ e ≤ maxExponent
  | _ => True

variable {p : Payload} {quote : Decimal}

theorem marketPrice_of_upToOne (hq : quote.Plain) (hm : p.margin.UpToOne) :
    ∃ x, p.marketPrice quote = .ok x ∧ 0 ≤ x.value := by
  obtain ⟨c, e, rfl, hc⟩ := hq
  obtain ⟨t, d, f, hd, hsize⟩ := hm.toDecimal
  have h0 : size 10 d f ≤ 10 ^ 0 := by rwa [pow_zero]
  obtain ⟨x, hx, hpos⟩ := marketPrice_ok hd h0 hc.le (by decide)
  exact ⟨x, hx, hpos rfl rfl⟩

theorem marketPrice_of_finite {s : Bool} {m : Nat} {k : Int} (hq : quote.Plain) (hx : p.margin = .finite s m k)
    (hm : m ≤ Nat.pow 2 53) (hk : k ≤ Binary64.maxExponent) : ∃ x, p.marketPrice quote = .ok x := by
  obtain ⟨c, e, rfl, hc⟩ := hq
  have hsize : size 2 m k < 10 ^ 400 := by
    have hm' : (m : ℚ) ≤ 2 ^ 53 := by exact_mod_cast hm
    have hk' : (2 : ℚ) ^ k ≤ 2 ^ (971 : Int) := zpow_le_zpow_right₀ (by norm_num) hk
    calc size 2 m k ≤ 2 ^ 53 * 2 ^ (971 : Int) := mul_le_mul hm' hk' (by positivity) (by positivity)
      _ = 2 ^ 1024 := by rw [zpow_ofNat, ← pow_add]
      _ ≤ 2 ^ (3 * 400) := pow_le_pow_right₀ (by norm_num) (by norm_num)
      _ = 8 ^ 400 := by rw [pow_mul]; norm_num
      _ < 10 ^ 400 := pow_lt_pow_left₀ (by norm_num) (by norm_num) (by norm_num)
  obtain ⟨d, f, hd, hsize⟩ := Binary64.toDecimal_le s hsize
  rw [← hx] at hd
  obtain ⟨x, hx, _⟩ := marketPrice_ok hd hsize hc.le (by decide)
  exact ⟨x, hx⟩

theorem factor_unbounded (hm : p.margin.isFinite = false) :
    p.factor = .ok (.nan false) ∨ ∃ u, p.factor = .ok (.infinity u) := by
  unfold Payload.factor
  cases hx : p.margin with
  | finite t m k =>
    rw [hx] at hm
    cases hm
  | nan => cases p.below <;> exact .inl rfl
  | infinity t => cases p.below <;> exact .inr ⟨_, rfl⟩

theorem marketPrice_of_unbounded {s : Bool} {c : Nat} {e : Int} (hm : p.margin.isFinite = false) :
    ∃ b, p.marketPrice (.finite s c e) = .error b := by
  rw [marketPrice_eq]
  rcases factor_unbounded hm with h | ⟨u, h⟩
  · exact ⟨.notANumber, by rw [h]; rfl⟩
  · rw [h]
    by_cases hc : c = 0
    · subst hc
      exact ⟨.invalidOperation, rfl⟩
    · have hmul : (Decimal.finite s c e).mul (.infinity u) = .ok (.infinity (s != u)) := if_neg hc
      refine ⟨.unbounded, ?_⟩
      change (do
        let value ← Price.scale (← (Decimal.finite s c e).mul (.infinity u)) p.currency
        pure (⟨value, p.currency⟩ : Price)) = _
      rw [hmul]
      rfl

/-- Over a plain quote just the margins that are not finite break down. -/
theorem marketPrice_breaks_iff (hq : quote.Plain) (hm : p.margin.OfFormat) :
    (∃ b, p.marketPrice quote = .error b) ↔ p.margin.isFinite = false := by
  constructor
  · rintro ⟨b, hb⟩
    cases hx : p.margin with
    | finite s m k =>
      rw [hx] at hm
      obtain ⟨x, hok⟩ := marketPrice_of_finite hq hx hm.1 hm.2
      cases hok.symm.trans hb
    | infinity s => rfl
    | nan => rfl
  · intro h
    obtain ⟨c, e, rfl, _⟩ := hq
    exact marketPrice_of_unbounded h

/-! ## Prices of offers -/

def Offer.quote? (node : Quotes) (o : Offer) : Option Decimal := (o.quotes? node).bind (·.get? o.currency)

variable {node : Quotes} {o : Offer}

theorem price?_quoted (hm : o.payload.useMarketPrice = true) (hq : o.quote? node = some quote) :
    o.price? node = (o.payload.marketPrice quote).map some := by
  unfold Offer.price?
  have hq' : (o.quotes? node).bind (·.get? o.payload.currency) = some quote := hq
  simp only [hm, hq', Bool.not_true, Bool.false_eq_true, ite_false]

theorem price?_unquoted (h : o.payload.useMarketPrice = true → o.quote? node = none) :
    ∃ x, o.price? node = .ok x := by
  unfold Offer.price?
  cases hm : o.payload.useMarketPrice with
  | false => exact ⟨some ⟨o.payload.price, o.currency⟩, by simp [hm, Offer.currency]⟩
  | true =>
    have hq : (o.quotes? node).bind (·.get? o.payload.currency) = none := h hm
    exact ⟨none, by simp [hm, hq]⟩

/-- Only a market price can fail, and it fails over a quote. -/
theorem price?_eq_error {b : Breakdown} : o.price? node = .error b ↔
    o.payload.useMarketPrice = true ∧ ∃ quote, o.quote? node = some quote ∧
      o.payload.marketPrice quote = .error b := by
  constructor
  · intro h
    by_cases hm : o.payload.useMarketPrice = true
    · cases hq : o.quote? node with
      | none =>
        obtain ⟨x, hx⟩ := price?_unquoted (o := o) fun _ => hq
        cases hx.symm.trans h
      | some quote =>
        rw [price?_quoted hm hq] at h
        refine ⟨hm, quote, rfl, ?_⟩
        cases hp : o.payload.marketPrice quote with
        | ok x =>
          rw [hp] at h
          cases h
        | error b' =>
          rw [hp] at h
          cases h
          rfl
    · obtain ⟨x, hx⟩ : ∃ x, o.price? node = .ok x := price?_unquoted fun h => absurd h hm
      cases hx.symm.trans h
  · rintro ⟨hm, quote, hq, hp⟩
    rw [price?_quoted hm hq, hp]
    rfl

end Tradepost
