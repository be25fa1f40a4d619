import Tradepost.Proofs.Number.Operations
import Tradepost.Web.View

/-!
# The dates that clients see

Seconds are a double, and so are milliseconds, so a date is rounded twice
before its fraction is cut off. Dates keep their order. They are shown in the
millisecond they fall into, except for whole milliseconds in the part below a
power of two where the quotient by 1000 has no digit to spare: these may be
shown one millisecond early.
-/

namespace Tradepost

open Number

namespace OfferView

open Binary64

variable {n : ℤ}

def lastDate : ℤ := 253402300799999999

theorem thousand : double.Divisor 1000 10 :=
  double_divisor (b := 9) (c := 1000) (by norm_num) (by norm_num) (by norm_num)
    (by decide +kernel : ofRatio false 1 1000 = finite false 4611686018427388 (-62)) (by norm_num [size])

theorem seconds_lt {k : ℕ} (h0 : 0 ≤ n) (h : n < 1000000 * 2 ^ k) : |(n : ℚ) / 1000 / 1000| < 2 ^ (k : ℤ) := by
  have hn : 0 ≤ (n : ℚ) := by exact_mod_cast h0
  have hn' : (n : ℚ) < 1000000 * 2 ^ k := by exact_mod_cast h
  rw [abs_of_nonneg (by positivity), zpow_natCast]
  linarith

section

variable (h0 : 0 ≤ n) (hmax : n ≤ lastDate)
include h0 hmax

theorem seconds_lt_pow : |(n : ℚ) / 1000 / 1000| < 2 ^ (38 : ℤ) :=
  seconds_lt (k := 38) h0 (hmax.trans_lt (by decide))

theorem seconds_value : (ofRatio (n < 0) n.natAbs 1000000).Canonical ∧
    (ofRatio (n < 0) n.natAbs 1000000).value = double.nearest (n / 1000 / 1000) := by
  have hn : 0 ≤ (n : ℚ) := by exact_mod_cast h0
  have hratio : ((n.natAbs : ℕ) : ℚ) / (1000000 : ℕ) = n / 1000 / 1000 := by
    rw [Nat.cast_natAbs, Int.cast_abs, abs_of_nonneg hn, div_div]
    norm_num
  have hlt : (n : ℚ) / 1000 / 1000 < 2 ^ 1000 :=
    (lt_of_abs_lt (seconds_lt_pow h0 hmax)).trans (pow_lt_pow_right₀ (by norm_num) (by norm_num : 38 < 1000))
  obtain ⟨hcanonical, hvalue⟩ := ofRatio_value (decide (n < 0)) (d := 1000000) (by decide) (hratio.trans_lt hlt)
  have hsign : decide (n < 0) ≠ true := by simpa using h0
  rw [withSign, if_neg hsign, hratio] at hvalue
  exact ⟨hcanonical, hvalue⟩

theorem millis_eq : millis n = ⌊double.back 1000 (n / 1000)⌋ := by
  have hn : 0 ≤ (n : ℚ) := by exact_mod_cast h0
  obtain ⟨hseconds, hvalue⟩ := seconds_value h0 hmax
  have hquot : |(n : ℚ) / 1000 / (1000 : ℤ)| ≤ 2 ^ (900 : ℤ) :=
    (seconds_lt_pow h0 hmax).le.trans (zpow_le_zpow_right₀ (by norm_num) (by norm_num))
  obtain ⟨hmillis, hback⟩ := mul_back hseconds (c := 1000) hvalue (by norm_num) hquot
  have hnonneg : 0 ≤ double.back 1000 (n / 1000) :=
    Format.nearest_nonneg (mul_nonneg (by norm_num) (Format.nearest_nonneg (by positivity)))
  have htruncate := truncate?_eq hmillis (hback.symm ▸ hnonneg)
  rw [millis, htruncate, hback]
  rfl

/-! ## How far a date moves -/

theorem back_near : |double.back 1000 (n / 1000) - n / 1000| < 31 / 1000 :=
  (thousand.back_error (k := -15) (seconds_lt_pow h0 hmax) (by decide)).trans_lt (by norm_num [double])

end

theorem back_nearer (h0 : 0 ≤ n) (h : n < 8589934592000000) :
    |double.back 1000 (n / 1000) - n / 1000| < 1 / 1000 :=
  (thousand.back_error (k := -20) (seconds_lt (k := 33) h0 h) (by decide)).trans_lt (by norm_num [double])

/-- From 1000 to 1024 times a power of two, where the thousandth has only nine digits less before
the point, not ten. -/
def Slipping (k : ℤ) : Prop := ∃ e : ℕ, 1000 * 2 ^ e ≤ k ∧ k < 1024 * 2 ^ e

theorem back_whole {k : ℤ} (hlow : 512 ≤ k) (hhigh : k < 2 ^ 53) (hk : ¬Slipping k) : double.back 1000 k = k := by
  have hk0 : 0 < (k : ℚ) := by exact_mod_cast (by omega : 0 < k)
  have h9 : 9 ≤ Int.log double.base (k : ℚ) := by
    rw [double.le_log_iff hk0]
    norm_num [double]
    exact_mod_cast hlow
  obtain ⟨e, he⟩ : ∃ e : ℕ, Int.log double.base (k : ℚ) = e + 9 :=
    ⟨(Int.log double.base (k : ℚ) - 9).toNat, by omega⟩
  have hpow : double.base ^ ((e : ℤ) + 9) ≤ (k : ℚ) := he ▸ double.pow_log_le hk0
  have hnext : (k : ℚ) < double.base ^ ((e : ℤ) + 9 + 1) := by rw [← double.log_lt_iff hk0]; omega
  have hbelow : k < 1000 * 2 ^ e := by
    by_contra hge
    refine hk ⟨e, not_lt.mp hge, ?_⟩
    rw [show (e : ℤ) + 9 + 1 = e + 10 by omega, base_pow_add double.base, zpow_natCast] at hnext
    norm_num [double] at hnext
    rw [mul_comm]
    exact_mod_cast hnext
  have hwhole : (k : ℚ) = k * double.base ^ (0 : ℤ) := by rw [zpow_zero, mul_one]
  have hplace : double.place k ≤ 0 := by
    refine double.place_le hk0.ne' ?_ (by decide)
    rw [abs_of_pos hk0]
    exact_mod_cast hhigh
  refine thousand.back_eq hwhole hplace hpow ?_ ?_
  · rw [show (e : ℤ) + 9 + 1 - 10 = e by omega, zpow_natCast]
    exact_mod_cast hbelow
  · show (-1074 : ℤ) + (53 : ℕ) + 10 ≤ (e : ℤ) + 9 + 1
    omega

theorem millis_small : ∀ k < 512, millis (1000 * (k : ℕ)) = k := by decide +kernel

/-! ## Dates of offers -/

theorem floor_between {x : ℚ} {a b : ℤ} (ha : a ≤ x) (hb : x < b + 1) : a ≤ ⌊x⌋ ∧ ⌊x⌋ ≤ b :=
  ⟨Int.le_floor.mpr ha, Int.lt_add_one_iff.mp (Int.floor_lt.mpr (by exact_mod_cast hb))⟩

theorem thousandth_eq (n : ℤ) : (n : ℚ) / 1000 = (n / 1000 : ℤ) + (n % 1000 : ℤ) / 1000 := by
  have : (n : ℚ) = 1000 * (n / 1000 : ℤ) + (n % 1000 : ℤ) := by exact_mod_cast (Int.mul_ediv_add_emod n 1000).symm
  linarith

theorem millis_whole {k : ℤ} (h0 : 0 ≤ k) (hk : k < 2 ^ 53) (hmax : 1000 * k ≤ lastDate) (hslip : ¬Slipping k) :
    millis (1000 * k) = k := by
  rcases lt_or_ge k 512 with hlt | hge
  · obtain ⟨i, rfl⟩ := Int.eq_ofNat_of_zero_le h0
    exact millis_small i (by omega)
  · have hthousandth : ((1000 * k : ℤ) : ℚ) / 1000 = k := by
      push_cast
      ring
    rw [millis_eq (by omega) hmax, hthousandth, back_whole hge hk hslip, Int.floor_intCast]

theorem millis_early (h0 : 0 ≤ n) (h : n < 8589934592000000) :
    millis n = n / 1000 ∨ n % 1000 = 0 ∧ Slipping (n / 1000) ∧ millis n = n / 1000 - 1 := by
  have hmax : n ≤ lastDate := by
    unfold lastDate
    omega
  have hsplit := thousandth_eq n
  obtain ⟨hlow, hhigh⟩ := abs_lt.mp (back_nearer h0 h)
  by_cases hr : n % 1000 = 0
  · by_cases hslip : Slipping (n / 1000)
    · rw [hr, Int.cast_zero, zero_div, add_zero] at hsplit
      have hfloor := floor_between (x := double.back 1000 (n / 1000)) (a := n / 1000 - 1) (b := n / 1000)
        (by push_cast; linarith) (by linarith)
      rw [← millis_eq h0 hmax] at hfloor
      rcases hfloor.2.eq_or_lt with heq | hlt
      · exact .inl heq
      · exact .inr ⟨hr, hslip, by omega⟩
    · have hn : 1000 * (n / 1000) = n := by omega
      have := millis_whole (k := n / 1000) (by omega) (by omega) (hn.trans_le hmax) hslip
      rw [hn] at this
      exact .inl this
  · have hr1 : (1 : ℚ) ≤ (n % 1000 : ℤ) := by exact_mod_cast (by omega : 1 ≤ n % 1000)
    have hr2 : ((n % 1000 : ℤ) : ℚ) ≤ 999 := by exact_mod_cast (by omega : n % 1000 ≤ 999)
    have hfloor := floor_between (x := double.back 1000 (n / 1000)) (a := n / 1000) (b := n / 1000)
      (by linarith) (by linarith)
    rw [← millis_eq h0 hmax] at hfloor
    omega

/-- A time in microseconds and the milliseconds that are shown for it. The bound
of `early` is the middle of March 2242. -/
structure Dated (n date : ℤ) : Prop where
  near : n / 1000 - 1 ≤ date ∧ date ≤ n / 1000 + 1
  inner : 31 ≤ n % 1000 → n % 1000 ≤ 968 → date = n / 1000
  early : n < 8589934592000000 →
    date = n / 1000 ∨ n % 1000 = 0 ∧ Slipping (n / 1000) ∧ date = n / 1000 - 1

theorem dated_millis (h0 : 0 ≤ n) (hmax : n ≤ lastDate) : Dated n (millis n) := by
  have hsplit := thousandth_eq n
  obtain ⟨hlow, hhigh⟩ := abs_lt.mp (back_near h0 hmax)
  have hwithin {a b : ℤ} (ha : a ≤ double.back 1000 (n / 1000)) (hb : double.back 1000 (n / 1000) < b + 1) :
      a ≤ millis n ∧ millis n ≤ b := by
    rw [millis_eq h0 hmax]
    exact floor_between ha hb
  refine ⟨?_, fun hr hr' => ?_, millis_early h0⟩
  · have hr0 : (0 : ℚ) ≤ (n % 1000 : ℤ) := by exact_mod_cast Int.emod_nonneg n (by decide)
    have hr1 : ((n % 1000 : ℤ) : ℚ) ≤ 999 := by exact_mod_cast (by omega : n % 1000 ≤ 999)
    refine hwithin ?_ ?_ <;> push_cast <;> linarith
  · have hr : (31 : ℚ) ≤ (n % 1000 : ℤ) := by exact_mod_cast hr
    have hr' : ((n % 1000 : ℤ) : ℚ) ≤ 968 := by exact_mod_cast hr'
    have hfloor := hwithin (a := n / 1000) (b := n / 1000) (by linarith) (by linarith)
    omega

theorem millis_mono {n' : ℤ} (h0 : 0 ≤ n) (h : n ≤ n') (hmax : n' ≤ lastDate) : millis n ≤ millis n' := by
  rw [millis_eq h0 (h.trans hmax), millis_eq (h0.trans h) hmax]
  refine Int.floor_mono (Format.back_mono (by norm_num) (div_le_div_of_nonneg_right ?_ (by norm_num)))
  exact_mod_cast h

theorem ofOffer_date {quotes : Quotes} {o : Offer} {mine : Bool} {v : OfferView}
    (h : ofOffer quotes o mine = .ok v) :
    v.date = millis o.payload.date := by
  obtain ⟨price, _, h⟩ := bind_eq_ok.mp h
  cases h
  rfl

/-- **Dates keep their order, and before 2242 they are shown to the millisecond but for some whole
ones.** For any two offers that are shown, with dates from the epoch to the year 9999, the later one
is shown no earlier. Every date is shown at most a millisecond off, and exactly if it lies 31
microseconds away from whole milliseconds. Before the middle of March 2242 all dates are exact,
except that a whole millisecond may be shown as the one before it if its number is slipping. -/
theorem dates_shown {quotes quotes' : Quotes} {o o' : Offer} {mine mine' : Bool} {v v' : OfferView}
    (hv : ofOffer quotes o mine = .ok v) (hv' : ofOffer quotes' o' mine' = .ok v') (h0 : 0 ≤ o.payload.date)
    (hle : o.payload.date ≤ o'.payload.date) (hmax : o'.payload.date ≤ lastDate) :
    v.date ≤ v'.date ∧ Dated o.payload.date v.date ∧ Dated o'.payload.date v'.date := by
  rw [ofOffer_date hv, ofOffer_date hv']
  exact ⟨millis_mono h0 hle hmax, dated_millis h0 (hle.trans hmax), dated_millis (h0.trans hle) hmax⟩

def datedOffer (date : ℤ) : Offer := { payload := { (default : Payload) with date } }

theorem datedOffer_shown (date : ℤ) : ∃ v, ofOffer {} (datedOffer date) = .ok v := ⟨_, rfl⟩

theorem dates_shown_overflown :
    ∃ v v', ofOffer {} (datedOffer 2147483648001999) = .ok v ∧ ofOffer {} (datedOffer 2147483648002000) = .ok v' ∧
      v.date = 2147483648001 ∧ v.date ≤ v'.date ∧ (v'.date = 2147483648002 ∨ v'.date = 2147483648001) := by
  obtain ⟨v, hv⟩ := datedOffer_shown 2147483648001999
  obtain ⟨v', hv'⟩ := datedOffer_shown 2147483648002000
  have h0 : 0 ≤ (datedOffer 2147483648001999).payload.date := by decide
  have hle : (datedOffer 2147483648001999).payload.date ≤ (datedOffer 2147483648002000).payload.date := by decide
  have hmax : (datedOffer 2147483648002000).payload.date ≤ lastDate := by decide
  obtain ⟨horder, hdated, hdated'⟩ := dates_shown hv hv' h0 hle hmax
  refine ⟨v, v', hv, hv', (hdated.early (by decide)).resolve_right fun h => absurd h.1 (by decide), horder, ?_⟩
  rcases hdated'.early (by decide) with hsame | ⟨_, _, hbefore⟩
  · exact .inl hsame
  · exact .inr hbefore

/-- Two seconds after 31 bits of seconds have run out a whole millisecond is shown as the one before
it. -/
theorem whole_millisecond_early : ∃ v, ofOffer {} (datedOffer 2147483648002000) = .ok v ∧ v.date = 2147483648001 ∧
    (datedOffer 2147483648002000).payload.date / 1000 = 2147483648002 := by
  obtain ⟨v, hv⟩ := datedOffer_shown 2147483648002000
  refine ⟨v, hv, ?_, rfl⟩
  rw [ofOffer_date hv]
  decide +kernel

end OfferView

end Tradepost
