import Tradepost.Proofs.Number.Context
import Tradepost.Proofs.Price

/-!
# How prices are rounded

A scaled price is the exact amount in smallest units, rounded twice: to the
digits of the context first, then to a whole number. Order and sign survive
both; the exact answer survives as long as the amount has no more digits than
the context, or does not end up on a tie when the others are dropped.
-/

namespace Tradepost

open Number

namespace Decimal

variable {x y : Decimal} {s : Bool} {c : Nat} {e k v : Int}

theorem shift_value (h : x.shift k = .ok y) : y.value = context.nearest (x.value * 10 ^ k) := by
  cases x with
  | finite s c e => rw [fit_value h, value_shift]
  | infinity s =>
    cases h
    simp [value, Format.nearest_zero]
  | nan g =>
    cases g with
    | true => cases h
    | false =>
      cases h
      simp [value, Format.nearest_zero]

theorem toInt_value (h : x.toInt = .ok v) : v = nearestAway x.value := by
  cases x with
  | finite s c e =>
    cases h
    have hwhole : nearestAway (size 10 c e) = wholePart c e := by
      rw [nearestAway_of_nonneg (size_nonneg 10 c e), wholePart_eq]
    cases s with
    | false => exact hwhole.symm
    | true =>
      show -(wholePart c e : ℤ) = nearestAway (-size 10 c e)
      rw [nearestAway_neg, hwhole]
  | infinity s => cases h
  | nan g => cases g <;> cases h

/-! ## The opposite number -/

theorem fit_not (s : Bool) (c : Nat) (e : Int) : fit (!s) c e = (fit s c e).map neg := by
  unfold fit shorten
  dsimp only
  split
  · rfl
  split
  · rfl
  split
  · rfl
  split <;> rfl

theorem shift_neg (x : Decimal) (k : Int) : x.neg.shift k = (x.shift k).map neg := by
  cases x with
  | finite s c e => exact fit_not s c (e + k)
  | infinity s => rfl
  | nan g => cases g <;> rfl

theorem toInt_neg (x : Decimal) : x.neg.toInt = x.toInt.map Neg.neg := by
  cases x with
  | finite s c e => cases s <;> simp [neg, toInt, Except.map]
  | infinity s => rfl
  | nan g => cases g <;> rfl

end Decimal

namespace Price

open Decimal

variable {x y : Decimal} {v w : Int} {currency : String}

def units (x : Decimal) (currency : String) : ℚ := x.value * 10 ^ Currency.precision currency

theorem scale_value (h : scale x currency = .ok v) : v = nearestAway (context.nearest (units x currency)) := by
  obtain ⟨y, hy, hv⟩ := bind_eq_ok.mp h
  rw [toInt_value hv, shift_value hy, zpow_natCast]
  rfl

theorem units_mono (h : x.value ≤ y.value) (currency : String) : units x currency ≤ units y currency :=
  mul_le_mul_of_nonneg_right h (by positivity)

theorem scale_neg (x : Decimal) (currency : String) : scale x.neg currency = (scale x currency).map Neg.neg := by
  unfold scale
  rw [shift_neg]
  cases x.shift (Currency.precision currency) with
  | error b => rfl
  | ok y => exact toInt_neg y

/-- Scaling keeps the order of numbers, takes opposite numbers to opposite prices, and keeps the
sign. -/
theorem scale_monotone_odd (hx : scale x currency = .ok v) (hy : scale y currency = .ok w) :
    (x.value ≤ y.value → v ≤ w) ∧ scale x.neg currency = .ok (-v) ∧ (0 ≤ x.value → 0 ≤ v) := by
  have hmono {a b : ℚ} (h : a ≤ b) : nearestAway (context.nearest a) ≤ nearestAway (context.nearest b) :=
    nearestAway_mono (Format.nearest_mono h)
  refine ⟨fun h => ?_, ?_, fun h => ?_⟩
  · rw [scale_value hx, scale_value hy]
    exact hmono (units_mono h currency)
  · rw [scale_neg, hx]
    rfl
  · have h0 : nearestAway (context.nearest 0) = 0 := by simp [Format.nearest_zero, nearestAway]
    rw [scale_value hx, ← h0]
    exact hmono (mul_nonneg h (by positivity))

theorem scale_monotone_odd_halves :
    let x := finite false 4999999999999999999999999999999 (-35)
    let y := finite false 15 (-5)
    scale x "USD" = .ok 1 ∧ scale y "USD" = .ok 2 ∧
      (x.value ≤ y.value → (1 : Int) ≤ 2) ∧ scale x.neg "USD" = .ok (-1) ∧ (0 ≤ x.value → (0 : Int) ≤ 1) := by
  have hx : scale (finite false 4999999999999999999999999999999 (-35)) "USD" = .ok 1 := by decide +kernel
  have hy : scale (finite false 15 (-5)) "USD" = .ok 2 := by decide +kernel
  exact ⟨hx, hy, scale_monotone_odd hx hy⟩

/-! ## Rounding twice -/

/-- A number with few digits is rounded once; how low it stands makes no difference. -/
theorem nearestAway_nearest_short {m : ℤ} (hm : |m| < 10 ^ precision) (k : ℤ) :
    nearestAway (context.nearest (m * 10 ^ k)) = nearestAway (m * 10 ^ k) := by
  by_cases hk : leastExponent ≤ k
  · have hsame : context.nearest (m * 10 ^ k) = m * 10 ^ k := context.nearest_short hm hk
    rw [hsame]
  -- so low a number is nothing, rounded once or twice
  have hle : |(m : ℚ) * 10 ^ k| ≤ 10 ^ (-1 : ℤ) := by
    have hprec : precision = 28 := rfl
    have hleast : leastExponent = -1000026 := rfl
    have hm' : |(m : ℚ)| ≤ 10 ^ (precision : ℤ) := by
      rw [zpow_natCast]
      exact_mod_cast hm.le
    rw [abs_mul, abs_of_pos (by positivity : (0 : ℚ) < 10 ^ k)]
    calc |(m : ℚ)| * 10 ^ k ≤ 10 ^ (precision : ℤ) * 10 ^ k := by gcongr
      _ = 10 ^ (precision + k) := (zpow_add₀ (by norm_num) _ _).symm
      _ ≤ 10 ^ (-1 : ℤ) := zpow_le_zpow_right₀ (by norm_num) (by omega)
  have hsmall : (10 : ℚ) ^ (-1 : ℤ) < 1 / 2 := by norm_num
  rw [nearestAway_small ((context.abs_nearest_le_pow hle (by decide)).trans_lt hsmall),
    nearestAway_small (hle.trans_lt hsmall)]

/-- As long as a digit behind the point is kept, the ties are kept too, and nothing is carried
across one. -/
theorem round_nearest {q : ℚ} (h0 : 0 ≤ q) (hq : q < 10 ^ (precision - 1)) :
    round (context.nearest q) = if context.nearest q = round q + 1 / 2 then round q + 1 else round q := by
  have hprec : precision = 28 := rfl
  have hplace : context.place q ≤ -1 := by
    rcases h0.eq_or_lt with rfl | hpos
    · rw [Format.place, abs_zero, Int.log_zero_right]
      decide
    · refine context.place_le hpos.ne' ?_ (by decide)
      rw [abs_of_pos hpos]
      exact hq.trans_eq (zpow_natCast 10 (precision - 1)).symm
  obtain ⟨hlow, hhigh⟩ := round_eq_iff.mp (rfl : round q = round q)
  generalize round q = n at hlow hhigh ⊢
  have htie (i : ℤ) : ((10 * n + i : ℤ) : ℚ) * 10 ^ (-1 : ℤ) = n + i / 10 := by
    rw [zpow_neg_one]
    push_cast
    ring
  have hnear : n - 1 / 2 ≤ context.nearest q ∧ context.nearest q ≤ n + 1 / 2 := by
    constructor
    · have htie' : ((10 * n + -5 : ℤ) : ℚ) * 10 ^ (-1 : ℤ) = n - 1 / 2 := by rw [htie]; push_cast; ring
      rw [← htie'] at hlow ⊢
      exact Format.le_nearest hlow hplace
    · have htie' : ((10 * n + 5 : ℤ) : ℚ) * 10 ^ (-1 : ℤ) = n + 1 / 2 := by rw [htie]; push_cast; ring
      rw [← htie'] at hhigh ⊢
      exact Format.nearest_le hhigh.le hplace
  split
  · rename_i h
    rw [round_eq_iff, h]
    constructor <;> push_cast <;> linarith
  · rename_i h
    exact round_eq_iff.mpr ⟨hnear.1, lt_of_le_of_ne hnear.2 h⟩

/-- What an amount `q` in smallest units is scaled to. It is the exact result for
an amount with no more digits than the context, and with a digit behind the
point that is kept, unless the first rounding carries it up to a tie. -/
structure RoundedTwice (q : ℚ) (v : Int) : Prop where
  twice : v = nearestAway (context.nearest q)
  short : ∀ m k : ℤ, |m| < 10 ^ precision → q = m * 10 ^ k → v = nearestAway q
  carried : |q| < 10 ^ (precision - 1) →
    |v| = if |context.nearest q| = (|nearestAway q| : ℤ) + 1 / 2 then |nearestAway q| + 1 else |nearestAway q|
  near : |(v : ℚ) - q| ≤ (1 + 10 ^ context.place q) / 2

theorem roundedTwice (q : ℚ) : RoundedTwice q (nearestAway (context.nearest q)) where
  twice := rfl
  short m k hm hq := by rw [hq, nearestAway_nearest_short hm]
  carried hq := by
    rw [← nearestAway_abs, ← nearestAway_abs, ← Format.nearest_abs, nearestAway_of_nonneg (abs_nonneg q),
      nearestAway_of_nonneg (Format.nearest_nonneg (abs_nonneg q))]
    exact round_nearest (abs_nonneg q) hq
  near := by
    have h₁ := nearestAway_error (context.nearest q)
    have h₂ := context.nearest_error q
    calc |(nearestAway (context.nearest q) : ℚ) - q|
        ≤ |(nearestAway (context.nearest q) : ℚ) - context.nearest q| + |context.nearest q - q| := abs_sub_le _ _ _
      _ ≤ 1 / 2 + 10 ^ context.place q / 2 := add_le_add h₁ h₂
      _ = _ := by ring

/-- A price text of any length is scaled to its exact value, rounded twice. -/
theorem scaled_roundedTwice {s : String} (hread : read (.text s) = .ok x) (h : scaled (.text s) currency = .ok v) :
    RoundedTwice (units x currency) v := by
  obtain ⟨y, hy, hv⟩ := bind_eq_ok.mp h
  obtain rfl : x = y := Except.ok.inj (hread.symm.trans (reported_eq_ok.mp hy))
  rw [scale_value (computed_eq_ok.mp hv)]
  exact roundedTwice _

theorem scaled_roundedTwice_tie : read (.text "-1234.56785") = .ok (.finite true 123456785 (-5)) ∧
    scaled (.text "-1234.56785") "USD" = .ok (-12345679) ∧
    RoundedTwice (units (.finite true 123456785 (-5)) "USD") (-12345679) :=
  have hread : read (.text "-1234.56785") = .ok (.finite true 123456785 (-5)) := by decide +kernel
  have hscaled : scaled (.text "-1234.56785") "USD" = .ok (-12345679) := by decide +kernel
  ⟨hread, hscaled, scaled_roundedTwice hread hscaled⟩

/-- Less than half a unit becomes a unit: the digits are carried up to the half. -/
theorem scaled_carried :
    read (.text "0.00004999999999999999999999999999999") =
      .ok (.finite false 4999999999999999999999999999999 (-35)) ∧
      nearestAway (units (.finite false 4999999999999999999999999999999 (-35)) "USD") = 0 ∧
      scaled (.text "0.00004999999999999999999999999999999") "USD" = .ok 1 := by
  refine ⟨by decide +kernel, nearestAway_small ?_, by decide +kernel⟩
  have hprec : Currency.precision "USD" = 4 := by decide +kernel
  rw [units, hprec]
  rw [abs_mul, Decimal.value, abs_withSign_size]
  norm_num [size]

/-! ## Prices that are not answered -/

theorem scale_eq_error {t : Bool} {c : Nat} {e : Int} {b : Breakdown} :
    scale (.finite t c e) currency = .error b ↔ b = .overflow ∧ unheld ≤ |units (.finite t c e) currency| := by
  have hsize : |units (.finite t c e) currency| = size 10 c (e + Currency.precision currency) := by
    rw [units, abs_mul, Decimal.value, abs_withSign_size, size_shift, zpow_natCast,
      abs_of_pos (by positivity), Nat.cast_ofNat]
  rw [hsize, ← fit_eq_error (s := t)]
  unfold scale
  rw [bind_eq_error]
  constructor
  · rintro (h | ⟨y, hy, hint⟩)
    · exact h
    · obtain ⟨_, _, rfl, _⟩ := fit_fitted hy
      cases hint
  · exact .inl

end Price

end Tradepost
