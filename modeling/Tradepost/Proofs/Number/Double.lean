import Tradepost.Proofs.Number.Format
import Tradepost.Proofs.Number.Value

/-!
# What double precision numbers round to

A ratio of whole numbers is rounded to the nearest number that has 53 binary
digits, and the result is written in the one form that each number has. What is
up to one before it is rounded is so afterwards, and in decimal too.
-/

namespace Tradepost.Binary64

open Number

variable {m n d q : Nat} {e f : Int} {s t : Bool}

def double : Format := ⟨2, 53, leastExponent, by decide, by decide⟩

/-- A finite number in its own form, in which the first of 53 digits is not zero unless the exponent
is the least. -/
def Canonical : Binary64 → Prop
  | finite _ m e => m < Nat.pow 2 53 ∧ leastExponent ≤ e ∧ e ≤ maxExponent ∧ (Nat.pow 2 52 ≤ m ∨ e = leastExponent)
  | infinity _ => False
  | nan => False

/-! ## Ratios -/

theorem lt_binade (hd : d ≠ 0) : n < size 2 d (binade n d + 1) := by
  unfold binade
  dsimp only
  split
  · have hn : n < size 2 (Nat.pow 2 d.log2) (n.log2 - d.log2 + 1) := by
      rw [size_pow, show (n.log2 : Int) - d.log2 + 1 + d.log2 = (n.log2 + 1 : Nat) by omega, zpow_natCast]
      exact_mod_cast Nat.lt_log2_self
    exact hn.trans_le (size_mono (Nat.log2_self_le hd) 2 _)
  · rename_i h
    rw [Int.sub_add_cancel]
    exact lt_size_iff.mpr (Nat.lt_of_not_le h)

theorem size_binade_le (hn : n ≠ 0) : size 2 d (binade n d) ≤ n := by
  unfold binade
  dsimp only
  split
  · rename_i h
    exact not_lt.mp fun hlt => absurd h (Nat.not_le.mpr (lt_size_iff.mp hlt))
  · have hd : d ≤ Nat.pow 2 (d.log2 + 1) := Nat.lt_log2_self.le
    refine (size_mono hd 2 _).trans ?_
    rw [size_pow, show (n.log2 : Int) - d.log2 - 1 + (d.log2 + 1 : Nat) = n.log2 by omega, zpow_natCast]
    exact_mod_cast Nat.log2_self_le hn

theorem binade_eq (hn : n ≠ 0) (hd : d ≠ 0) : binade n d = Int.log 2 ((n : ℚ) / d) := by
  have hn' : (0 : ℚ) < n := by exact_mod_cast Nat.pos_of_ne_zero hn
  have hd' : (0 : ℚ) < d := by exact_mod_cast Nat.pos_of_ne_zero hd
  have hpos := div_pos hn' hd'
  refine le_antisymm ?_ (Int.lt_add_one_iff.mp ?_)
  · refine (double.le_log_iff hpos).mpr ((le_div_iff₀ hd').mpr ?_)
    rw [mul_comm]
    exact size_binade_le hn
  · refine (double.log_lt_iff hpos).mpr ((div_lt_iff₀ hd').mpr ?_)
    rw [mul_comm]
    exact lt_binade hd

/-- A carry out of the 53 digits moves into the exponent; too high an exponent makes an infinity. -/
theorem pack_cases (s : Bool) (q : Nat) (e : Int) :
    (maxExponent ≤ e ∧ pack s q e = infinity s) ∨ ∃ m f, pack s q e = finite s m f ∧ f ≤ maxExponent ∧
      (q ≠ Nat.pow 2 53 ∧ m = q ∧ f = e ∨ q = Nat.pow 2 53 ∧ m = Nat.pow 2 52 ∧ f = e + 1) := by
  unfold pack
  by_cases hq : q = Nat.pow 2 53
  · simp only [hq, ite_true]
    split
    · exact .inl ⟨by omega, rfl⟩
    · exact .inr ⟨_, _, rfl, by omega, .inr ⟨trivial, rfl, rfl⟩⟩
  · simp only [hq, ite_false]
    split
    · exact .inl ⟨by omega, rfl⟩
    · exact .inr ⟨_, _, rfl, by omega, .inl ⟨hq, rfl, rfl⟩⟩

theorem size_carried (e : Int) : size 2 (Nat.pow 2 52) (e + 1) = size 2 (Nat.pow 2 53) e := by
  rw [size_pow, size_pow]
  congr 1
  omega

theorem pack_size (s : Bool) (q : Nat) (e : Int) :
    (maxExponent ≤ e ∧ pack s q e = infinity s) ∨ ∃ m f, pack s q e = finite s m f ∧ size 2 m f = size 2 q e := by
  rcases pack_cases s q e with h | ⟨m, f, hpack, _, ⟨_, rfl, rfl⟩ | ⟨rfl, rfl, rfl⟩⟩
  · exact .inl h
  · exact .inr ⟨m, f, hpack, rfl⟩
  · exact .inr ⟨_, _, hpack, size_carried e⟩

theorem ofRatio_packed (s : Bool) (hn : n ≠ 0) (hd : d ≠ 0) :
    ∃ q : Nat, ofRatio s n d = pack s q (double.place (n / d)) ∧
      (q : ℤ) = nearestEven ((n : ℚ) / d / 2 ^ double.place (n / d)) := by
  have hd' : (0 : ℚ) < d := by exact_mod_cast Nat.pos_of_ne_zero hd
  have hplace : double.place ((n : ℚ) / d) = max leastExponent (binade n d - 52) := by
    rw [Format.place, abs_of_nonneg (by positivity), binade_eq hn hd]
    show max leastExponent (Int.log 2 ((n : ℚ) / d) + 1 - 53) = _
    congr 1
    omega
  unfold ofRatio
  rw [if_neg hn, hplace]
  generalize max leastExponent (binade n d - 52) = e
  refine ⟨_, rfl, ?_⟩
  have hup : 0 < d * Nat.pow 2 e.toNat := Nat.mul_pos (Nat.pos_of_ne_zero hd) (Nat.pow_pos (by decide))
  rw [divHalfEven_eq hup]
  congr 1
  have hpos : (0 : ℚ) < (Nat.pow 2 (-e).toNat : Nat) := by exact_mod_cast Nat.pow_pos (by decide)
  rw [Nat.cast_mul, Nat.cast_mul, ← pow_toNat 2 e, div_div, ← mul_assoc, mul_div_mul_right _ _ hpos.ne']
  rfl

theorem ofRatio_nearest (hd : d ≠ 0) (h : ofRatio s n d = finite t m e) :
    t = s ∧ size 2 m e = double.nearest (n / d) := by
  by_cases hn : n = 0
  · rw [ofRatio, if_pos hn] at h
    cases h
    rw [hn, size_zero, Nat.cast_zero, zero_div, double.nearest_zero]
    exact ⟨rfl, rfl⟩
  obtain ⟨q, hpack, hq⟩ := ofRatio_packed s hn hd
  have hq' : size 2 q (double.place (n / d)) = double.nearest (n / d) := by
    unfold size
    rw [show (q : ℚ) = (q : ℤ) from rfl, hq]
    rfl
  rcases pack_size s q (double.place (n / d)) with ⟨_, hinf⟩ | ⟨m', f, hfinite, hsize⟩
  · cases h.symm.trans (hpack.trans hinf)
  · cases h.symm.trans (hpack.trans hfinite)
    exact ⟨rfl, hsize.trans hq'⟩

theorem ofRatio_finite (s : Bool) (hd : d ≠ 0) (h : (n : ℚ) / d < 2 ^ 1000) :
    ∃ m e, ofRatio s n d = finite s m e := by
  by_cases hn : n = 0
  · exact ⟨0, leastExponent, if_pos hn⟩
  have hn' : (0 : ℚ) < n := by exact_mod_cast Nat.pos_of_ne_zero hn
  have hd' : (0 : ℚ) < d := by exact_mod_cast Nat.pos_of_ne_zero hd
  have hx : 0 < (n : ℚ) / d := div_pos hn' hd'
  have hplace : double.place (n / d) ≤ 947 := by
    refine double.place_le hx.ne' ?_ (by decide)
    rw [abs_of_pos hx]
    exact h
  obtain ⟨q, hpack, _⟩ := ofRatio_packed s hn hd
  rcases pack_size s q (double.place (n / d)) with ⟨hhigh, _⟩ | ⟨m, e, hfinite, _⟩
  · exact absurd (hhigh.trans hplace) (by decide)
  · exact ⟨m, e, hpack.trans hfinite⟩

/-! ## The form of a number -/

theorem canonical_zero (s : Bool) : (finite s 0 leastExponent).Canonical :=
  ⟨Nat.pow_pos (by decide), le_rfl, by decide, .inr rfl⟩

theorem pack_canonical (hq : q ≤ Nat.pow 2 53) (he : leastExponent ≤ e)
    (hlow : Nat.pow 2 52 ≤ q ∨ e = leastExponent)
    (h : (pack s q e).isFinite = true) : (pack s q e).Canonical := by
  rcases pack_cases s q e with ⟨_, hinf⟩ | ⟨m, f, hpack, hmax, ⟨htop, rfl, rfl⟩ | ⟨_, rfl, rfl⟩⟩
  · rw [hinf] at h
    cases h
  · rw [hpack]
    exact ⟨Nat.lt_of_le_of_ne hq htop, he, hmax, hlow⟩
  · rw [hpack]
    exact ⟨by decide, by omega, hmax, .inl le_rfl⟩

theorem ofRatio_canonical (hd : d ≠ 0) (h : (ofRatio s n d).isFinite = true) : (ofRatio s n d).Canonical := by
  by_cases hn : n = 0
  · rw [ofRatio, if_pos hn]
    exact canonical_zero s
  obtain ⟨q, hpack, hq⟩ := ofRatio_packed s hn hd
  have hn' : (0 : ℚ) < n := by exact_mod_cast Nat.pos_of_ne_zero hn
  have hd' : (0 : ℚ) < d := by exact_mod_cast Nat.pos_of_ne_zero hd
  have hx : 0 < (n : ℚ) / d := div_pos hn' hd'
  generalize (n : ℚ) / d = x at hpack hq hx
  have hpos := base_pow_pos double.base (double.place x)
  have hhigh := double.lt_pow_place hx.ne'
  have hlow := double.pow_place_le hx.ne'
  rw [abs_of_pos hx] at hhigh hlow
  rw [hpack] at h ⊢
  refine pack_canonical ?_ (le_max_left ..) ?_ h
  · have hle : x / 2 ^ double.place x ≤ (2 ^ 53 : ℤ) := by
      refine (div_le_iff₀ hpos).mpr (hhigh.le.trans_eq ?_)
      rw [add_comm, base_pow_add]
      push_cast
      rfl
    have hle' := nearestEven_le hle
    rw [← hq] at hle'
    exact_mod_cast hle'
  · rcases hlow with hleast | hlow
    · exact .inr hleast
    · left
      have hle : (2 ^ 52 : ℤ) ≤ x / 2 ^ double.place x := by
        refine (le_div_iff₀ hpos).mpr (le_trans (le_of_eq ?_) hlow)
        rw [add_sub_assoc, add_comm, base_pow_add]
        push_cast
        rfl
      have hle' := le_nearestEven hle
      rw [← hq] at hle'
      exact_mod_cast hle'

theorem ofDecimal_canonical {c : Nat} (h : (ofDecimal s c e).isFinite = true) : (ofDecimal s c e).Canonical := by
  unfold ofDecimal at h ⊢
  by_cases hc : c = 0
  · rw [if_pos hc]
    exact canonical_zero s
  rw [if_neg hc] at h ⊢
  split at h
  · cases h
  rename_i hhigh
  rw [if_neg hhigh]
  split at h
  · rename_i hlow
    rw [if_pos hlow]
    exact canonical_zero s
  · rename_i hlow
    rw [if_neg hlow]
    exact ofRatio_canonical (Nat.pow_pos (by decide)).ne' h

theorem place_size (h : (finite s m e).Canonical) (hm : m ≠ 0) : double.place (size 2 m e) = e := by
  obtain ⟨hlt, hleast, _, hlow⟩ := h
  have hlog : Int.log 2 (size 2 m e) = Nat.log 2 m + e := log_size (by decide) hm e
  have hhigh : Nat.log 2 m < 53 := Nat.log_lt_of_lt_pow hm hlt
  have hplace : double.place (size 2 m e) = max leastExponent (Nat.log 2 m + e + 1 - 53) := by
    rw [double.place_of_pos (size_pos hm e)]
    exact congrArg (fun l => max leastExponent (l + 1 - 53)) hlog
  rw [hplace]
  rcases hlow with hlow | rfl
  · have := Nat.le_log_of_pow_le (by decide) hlow
    omega
  · omega

theorem canonical_ext {m' : Nat} {e' : Int} (h : (finite s m e).Canonical) (h' : (finite t m' e').Canonical)
    (heq : size 2 m e = size 2 m' e') : m = m' ∧ e = e' := by
  have hzero : m = 0 ↔ m' = 0 := by rw [← size_eq_zero (r := 2) (e := e), heq, size_eq_zero]
  by_cases hm : m = 0
  · obtain rfl := hm
    obtain rfl := hzero.mp rfl
    have hleast : ∀ i : Int, Nat.pow 2 52 ≤ 0 ∨ i = leastExponent → i = leastExponent :=
      fun i hi => hi.resolve_left (by decide)
    exact ⟨rfl, (hleast e h.2.2.2).trans (hleast e' h'.2.2.2).symm⟩
  · have he : e = e' := by rw [← place_size h hm, heq, place_size h' (hzero.not.mp hm)]
    subst he
    exact ⟨size_inj.mp heq, rfl⟩

/-! ## Numbers up to one -/

def UpToOne (x : Binary64) : Prop :=
  ∃ s m e, x = finite s m e ∧ (size 2 m e < 1 ∨ (m = Nat.pow 2 52 ∧ e = -52))

theorem upToOne_zero (s : Bool) (e : Int) : UpToOne (finite s 0 e) := ⟨s, 0, e, rfl, .inl (by simp [size])⟩

theorem size_one : size 2 (Nat.pow 2 52) (-52) = 1 := by
  rw [size, zpow_neg]
  norm_num

theorem ofRatio_upToOne (s : Bool) (hd : 0 < d) (h : n ≤ d) : UpToOne (ofRatio s n d) := by
  have hd' : (0 : ℚ) < d := by exact_mod_cast hd
  have hx : (n : ℚ) / d ≤ 1 := (div_le_one hd').mpr (by exact_mod_cast h)
  obtain ⟨m, f, hratio⟩ := ofRatio_finite s hd.ne' (hx.trans_lt (one_lt_pow₀ (by norm_num) (by norm_num)))
  have hsize : size 2 m f ≤ 1 := by
    have hone : double.nearest 1 = 1 := double.nearest_pow (k := 0) (by decide)
    rw [(ofRatio_nearest hd.ne' hratio).2, ← hone]
    exact double.nearest_mono hx
  rcases hsize.lt_or_eq with hlt | heq
  · exact ⟨s, m, f, hratio, .inl hlt⟩
  · -- one has a single form
    have hcanonical : (finite s m f).Canonical := hratio ▸ ofRatio_canonical hd.ne' (by rw [hratio]; rfl)
    have hone : (finite s (Nat.pow 2 52) (-52)).Canonical := ⟨by decide, by decide, by decide, .inl le_rfl⟩
    exact ⟨s, m, f, hratio, .inr (canonical_ext hcanonical hone (heq.trans size_one.symm))⟩

theorem ofDecimal_upToOne (s : Bool) {c : Nat} {e : Int} (h : size 10 c e ≤ 1) : UpToOne (ofDecimal s c e) := by
  unfold ofDecimal
  by_cases hc : c = 0
  · rw [if_pos hc]
    exact upToOne_zero s _
  have htop := top_le (k := 1) hc (h.trans_lt (by norm_num))
  rw [if_neg hc, if_neg (by omega)]
  split
  · exact upToOne_zero s _
  · refine ofRatio_upToOne s (Nat.pow_pos (by decide)) (Nat.le_of_not_lt fun hlt => ?_)
    have := (lt_size_iff (r := 10) (n := 1)).mpr (by simpa using hlt)
    exact absurd h (not_le.mpr (by exact_mod_cast this))

theorem shortest_one : shortest (Nat.pow 2 52) (-52) = (1, 0) := by decide +kernel

theorem UpToOne.toDecimal {x : Binary64} (h : x.UpToOne) :
    ∃ s c p, x.toDecimal = .finite s c p ∧ size 10 c p ≤ 1 := by
  obtain ⟨s, m, e, rfl, hlt | ⟨rfl, rfl⟩⟩ := h
  · obtain ⟨c, p, hc, hsize⟩ := toDecimal_le s (k := 0) (by rwa [pow_zero])
    exact ⟨s, c, p, hc, by rwa [pow_zero] at hsize⟩
  · have hx : (finite s (Nat.pow 2 52) (-52)).toDecimal = .finite s 1 0 := by rw [Binary64.toDecimal, shortest_one]
    exact ⟨s, 1, 0, hx, by simp [size]⟩

end Tradepost.Binary64
