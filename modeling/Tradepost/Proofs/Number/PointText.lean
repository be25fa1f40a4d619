import Tradepost.Number.DecimalText
import Tradepost.Proofs.Text.Blank

/-!
# Numbers written with a point

A number that is written with a fixed count of digits behind the point has
digits on both sides of it, and reads back digit by digit.
-/

namespace Tradepost.Decimal

open Text

variable {places m : Nat} {whole fraction cs : List Char}

/-! ## How numbers are written -/

structure PointForm (places m : Nat) (whole fraction : List Char) : Prop where
  digits : ∀ c ∈ whole ++ fraction, c.isDigit = true
  front : whole ≠ []
  behind : fraction.length = places
  value : Nat.ofDigitChars 10 (whole ++ fraction) 0 = m

theorem pointText_form (places m : Nat) :
    ∃ whole fraction, PointForm places m whole fraction ∧ pointText places m = whole ++ '.' :: fraction := by
  obtain ⟨ds, hds⟩ : ∃ ds, List.replicate (places + 1 - (Nat.toDigits 10 m).length) '0' ++ Nat.toDigits 10 m = ds :=
    ⟨_, rfl⟩
  have hlen : places < ds.length := by
    rw [← hds, List.length_append, List.length_replicate]
    omega
  refine ⟨ds.take (ds.length - places), ds.drop (ds.length - places), ⟨?_, ?_, ?_, ?_⟩, ?_⟩
  · rw [List.take_append_drop, ← hds]
    intro c hc
    rcases List.mem_append.mp hc with hc | hc
    · rw [List.eq_of_mem_replicate hc]
      rfl
    · exact Nat.isDigit_of_mem_toDigits (by decide) (by decide) hc
  · refine List.ne_nil_of_length_pos ?_
    rw [List.length_take]
    omega
  · rw [List.length_drop]
    omega
  · rw [List.take_append_drop, ← hds, Nat.ofDigitChars_append, Nat.ofDigitChars_replicate_zero, Nat.mul_zero,
      Nat.ofDigitChars_ten_toDigits]
  · rw [pointText, hds]

def signed (negative : Bool) (cs : List Char) : List Char := (if negative then ['-'] else []) ++ cs

/-! ## How they are read -/

/-- The characters from the minus to the nine, which include the point. -/
def Figure (c : Char) : Prop := 45 ≤ c.toNat ∧ c.toNat ≤ 57

theorem figure_of_digit {c : Char} (h : c.isDigit = true) : Figure c := by
  obtain ⟨hlow, hhigh⟩ := Char.isDigit_iff_toNat.mp h
  exact ⟨Nat.le_trans (by decide) hlow, hhigh⟩

theorem PointForm.figures (h : PointForm places m whole fraction) (negative : Bool) :
    ∀ c ∈ signed negative (whole ++ '.' :: fraction), Figure c := by
  intro c hc
  rcases List.mem_append.mp hc with hc | hc
  · cases negative with
    | true => exact List.mem_singleton.mp hc ▸ ⟨by decide, by decide⟩
    | false => cases hc
  · rcases List.mem_append.mp hc with hc | hc
    · exact figure_of_digit (h.digits c (List.mem_append_left _ hc))
    · rcases List.mem_cons.mp hc with rfl | hc
      · exact ⟨by decide, by decide⟩
      · exact figure_of_digit (h.digits c (List.mem_append_right _ hc))

theorem Figure.not_blank {c : Char} (h : Figure c) : isBlank c = false := by
  obtain ⟨hlow, hhigh⟩ := h
  simp only [isBlank, isWhiteSpace, Bool.or_eq_false_iff, Bool.and_eq_false_iff, decide_eq_false_iff_not,
    beq_eq_false_iff_ne]
  omega

theorem trimBoth_figures (h : ∀ c ∈ cs, Figure c) : trimBoth isBlank cs = cs :=
  trimBoth_eq_self_iff.mpr ⟨fun c hc => (h c (List.mem_of_mem_head? hc)).not_blank,
    fun c hc => (h c (List.mem_of_getLast? hc)).not_blank⟩

theorem toAscii?_figures (h : ∀ c ∈ cs, Figure c) : toAscii? cs = some cs := by
  induction cs with
  | nil => rfl
  | cons c cs ih =>
    obtain ⟨hlow, hhigh⟩ := h c (List.mem_cons_self ..)
    have hline : c ≠ '_' := by
      rintro rfl
      exact absurd hhigh (by decide)
    rw [toAscii?, if_neg hline, if_pos ⟨by omega, by omega⟩, ih fun d hd => h d (List.mem_cons_of_mem _ hd)]
    rfl

theorem asciiDigits?_digits (h : ∀ c ∈ cs, c.isDigit = true) :
    asciiDigits? cs = some (cs.map fun c => c.toNat - 48) := by
  induction cs with
  | nil => rfl
  | cons c cs ih =>
    have hc : asciiDigit? c = some (c.toNat - 48) := if_pos (h c (List.mem_cons_self ..))
    have ih := ih fun d hd => h d (List.mem_cons_of_mem _ hd)
    unfold asciiDigits? at ih ⊢
    rw [List.mapM_cons, hc, ih]
    rfl

theorem ofDigits_map (cs : List Char) : ofDigits (cs.map fun c => c.toNat - 48) = Nat.ofDigitChars 10 cs 0 :=
  List.foldl_map

theorem digit_ne_point {c : Char} (h : c.isDigit = true) : c ≠ '.' := by
  rintro rfl
  cases h

theorem PointForm.coefficient (h : PointForm places m whole fraction) :
    coefficient? (whole ++ '.' :: fraction) = some (m, places) := by
  have hwhole : ∀ c ∈ whole, c.isDigit = true := fun c hc => h.digits c (List.mem_append_left _ hc)
  have hpoint : ∀ c ∈ whole, (decide (c ≠ '.')) = true := fun c hc => decide_eq_true (digit_ne_point (hwhole c hc))
  have hfront : (whole.map fun c => c.toNat - 48).isEmpty = false := by
    cases hw : whole with
    | nil => exact absurd hw h.front
    | cons c cs => rfl
  unfold coefficient?
  rw [List.takeWhile_append_of_pos hpoint, List.dropWhile_append_of_pos hpoint]
  simp only [ne_eq, not_true_eq_false, decide_false, Bool.false_eq_true, not_false_eq_true,
    List.takeWhile_cons_of_neg, List.append_nil, List.dropWhile_cons_of_neg, List.drop_succ_cons, List.drop_zero]
  rw [asciiDigits?_digits hwhole, asciiDigits?_digits fun c hc => h.digits c (List.mem_append_right _ hc)]
  simp only [Option.bind_eq_bind, Option.bind_some, hfront, Bool.false_and, Bool.false_eq_true, ite_false,
    List.length_map, h.behind]
  rw [← List.map_append, ofDigits_map, h.value]
  rfl

theorem PointForm.number (h : PointForm places m whole fraction) :
    number? (whole ++ '.' :: fraction) = some (m, -(places : Int)) := by
  have hmark : ∀ c ∈ whole ++ '.' :: fraction, (!(c == 'e' || c == 'E')) = true := by
    intro c hc
    obtain ⟨_, hhigh⟩ := h.figures false c hc
    have he : c ≠ 'e' := by
      rintro rfl
      exact absurd hhigh (by decide)
    have hE : c ≠ 'E' := by
      rintro rfl
      exact absurd hhigh (by decide)
    simp [he, hE]
  have htake := @List.takeWhile_append_of_pos _ _ _ [] hmark
  have hdrop := @List.dropWhile_append_of_pos _ _ _ [] hmark
  rw [List.append_nil, List.takeWhile_nil, List.append_nil] at htake
  rw [List.append_nil, List.dropWhile_nil] at hdrop
  unfold number?
  dsimp only
  rw [htake, hdrop, h.coefficient]
  rfl

theorem toLower_digit {c : Char} (h : c.isDigit = true) : c.toLower = c := by
  obtain ⟨_, hhigh⟩ := Char.isDigit_iff_toNat.mp h
  unfold Char.toLower
  split
  · rename_i hupper
    have : 65 ≤ c.toNat := hupper.1
    have : c.toNat ≤ 57 := hhigh
    omega
  · rfl

theorem PointForm.unsigned (h : PointForm places m whole fraction) (negative : Bool) :
    unsigned? negative (whole ++ '.' :: fraction) = withinLimits? negative m (-(places : Int)) := by
  have hnumber := h.number
  obtain ⟨d, ds, rfl⟩ := List.exists_cons_of_ne_nil h.front
  have hd : d.isDigit = true := h.digits d (List.mem_append_left _ (List.mem_cons_self ..))
  -- the names of the specials begin with a letter
  have hword : ∀ c : Char, c.isDigit = false → d ≠ c := by
    rintro c hc rfl
    cases hc.symm.trans hd
  unfold unsigned?
  rw [hnumber]
  simp [toLower_digit hd, hword 'i' rfl, hword 'n' rfl, hword 's' rfl]

theorem PointForm.read (h : PointForm places m whole fraction) (negative : Bool) :
    ofString? (String.ofList (signed negative (whole ++ '.' :: fraction))) =
      withinLimits? negative m (-(places : Int)) := by
  have hfigures := h.figures negative
  have hsign : takeSign (signed negative (whole ++ '.' :: fraction)) = (negative, whole ++ '.' :: fraction) := by
    cases negative with
    | true => rfl
    | false =>
      obtain ⟨d, ds, rfl⟩ := List.exists_cons_of_ne_nil h.front
      have hd : d.isDigit = true := h.digits d (List.mem_append_left _ (List.mem_cons_self ..))
      show takeSign (d :: (ds ++ '.' :: fraction)) = _
      unfold takeSign
      split
      · rename_i hc
        cases hc
        cases hd
      · rename_i hc
        cases hc
        cases hd
      · rfl
  unfold ofString?
  rw [String.toList_ofList, trimBoth_figures hfigures, toAscii?_figures hfigures]
  simp only [Option.bind_eq_bind, Option.bind_some, hsign, h.unsigned]

theorem strip_figures (h : ∀ c ∈ cs, Figure c) : strip (String.ofList cs) = String.ofList cs := by
  rw [strip, String.toList_ofList, trimBoth_figures h]

end Tradepost.Decimal
