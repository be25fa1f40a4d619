import Mathlib.Data.List.Basic
import Tradepost.Text.Case

/-!
# Which texts have an ASCII upper case

Nearly always only an ASCII text has an ASCII upper case, and then both case
mappings lose the same: the lower case can be told from the upper case. The
exceptions are written with one of a few lookalikes, letters and ligatures
outside ASCII whose upper case lies in it.
-/

namespace Tradepost.Text

def IsAscii (cs : List Char) : Prop := ∀ c ∈ cs, c.toNat < 128

instance (cs : List Char) : Decidable (IsAscii cs) :=
  decidable_of_iff (cs.all fun c => c.toNat < 128) (by simp [IsAscii])

/-! ## Within ASCII -/

theorem ascii_forall {p : Char → Prop} (h : ∀ n < 128, p (Char.ofNat n)) {c : Char} (hc : c.toNat < 128) : p c := by
  have hp := h c.toNat hc
  rwa [Char.ofNat_toNat] at hp

theorem upperChar_ascii {c : Char} (hc : c.toNat < 128) : upperChar c = [c.toUpper] := if_pos hc

theorem lowerChar_ascii {c : Char} (hc : c.toNat < 128) : lowerChar c = [c.toLower] := if_pos hc

theorem toUpper_ascii {c : Char} (hc : c.toNat < 128) : c.toUpper.toNat < 128 :=
  ascii_forall (p := fun c => c.toUpper.toNat < 128) (by decide) hc

theorem toLower_toUpper {c : Char} (hc : c.toNat < 128) : c.toUpper.toLower = c.toLower :=
  ascii_forall (p := fun c => c.toUpper.toLower = c.toLower) (by decide) hc

theorem lowerFrom_ascii {cs : List Char} (hcs : IsAscii cs) (before : List Char) :
    lowerFrom before cs = cs.map Char.toLower := by
  induction cs generalizing before with
  | nil => rfl
  | cons c cs ih =>
    have hc : c.toNat < 128 := hcs c List.mem_cons_self
    have hsigma : c ≠ capitalSigma := fun h => by rw [h] at hc; exact absurd hc (by decide)
    rw [lowerFrom, if_neg hsigma, lowerChar_ascii hc, ih fun d hd => hcs d (List.mem_cons_of_mem c hd)]
    rfl

theorem flatMap_upperChar_ascii {cs : List Char} (hcs : IsAscii cs) : cs.flatMap upperChar = cs.map Char.toUpper :=
  calc cs.flatMap upperChar
      = cs.flatMap fun c => [c.toUpper] := List.flatMap_congr fun c hc => upperChar_ascii (hcs c hc)
    _ = cs.map Char.toUpper := List.flatMap_pure_eq_map ..

theorem lower_upper {s : String} (hs : IsAscii s.toList) : lower (upper s) = lower s := by
  have hupper : IsAscii (s.toList.map Char.toUpper) := by
    intro c hc
    obtain ⟨d, hd, rfl⟩ := List.mem_map.mp hc
    exact toUpper_ascii (hs d hd)
  unfold lower upper
  rw [flatMap_upperChar_ascii hs, String.toList_ofList, lowerFrom_ascii hupper, lowerFrom_ascii hs, List.map_map]
  exact congrArg _ (List.map_congr_left fun c hc => toLower_toUpper (hs c hc))

/-! ## From outside -/

/-- Sharp s, dotless i, long s and the Latin ligatures. -/
def lookalikes : List Nat := [223, 305, 383, 64256, 64257, 64258, 64259, 64260, 64261, 64262]

theorem toNat_ofNat {n : Nat} (h : n.isValidChar) : (Char.ofNat n).toNat = n := by
  rw [Char.ofNat, dif_pos h]
  rfl

theorem not_ascii_of_shifted {n first last : Nat} {shift : Int} (hfirst : first ≤ n) (hlast : n ≤ last)
    (h : 128 ≤ first + shift ∧ last + shift < 0xd800 ∨ 0xe000 ≤ first + shift ∧ last + shift < 0x110000) :
    128 ≤ (Char.ofNat (n + shift).toNat).toNat := by
  have hvalid : (n + shift).toNat.isValidChar := by
    unfold Nat.isValidChar
    omega
  rw [toNat_ofNat hvalid]
  omega

theorem upperRuns_apart : ∀ run ∈ upperRuns,
    (128 ≤ run.1 + run.2.2.2 ∧ run.2.1 + run.2.2.2 < 0xd800 ∨
      0xe000 ≤ run.1 + run.2.2.2 ∧ run.2.1 + run.2.2.2 < 0x110000) ∨
    run.2.1 < 128 ∨ run.1 = run.2.1 ∧ run.1 ∈ lookalikes := by
  decide +kernel

theorem upperLong_apart : ∀ e ∈ upperLong, (∃ n ∈ e.2, 128 ≤ (Char.ofNat n).toNat) ∨ e.1 ∈ lookalikes := by
  decide +kernel

theorem runShift?_eq_some {runs : List (Nat × Nat × Nat × Int)} {n : Nat} {shift : Int}
    (h : runShift? runs n = some shift) : ∃ run ∈ runs, run.1 ≤ n ∧ n ≤ run.2.1 ∧ run.2.2.2 = shift := by
  obtain ⟨run, hfind, rfl⟩ := Option.map_eq_some_iff.mp h
  have hholds := List.find?_some hfind
  simp only [Bool.and_eq_true, decide_eq_true_eq] at hholds
  exact ⟨run, List.mem_of_find?_eq_some hfind, hholds.1.1, hholds.1.2, rfl⟩

theorem mem_of_lookup {long : List (Nat × List Nat)} {n : Nat} {ns : List Nat} (h : long.lookup n = some ns) :
    (n, ns) ∈ long := by
  obtain ⟨_, _, rfl, _⟩ := List.lookup_eq_some_iff.mp h
  exact List.mem_append_right _ List.mem_cons_self

theorem ascii_or_lookalike {c : Char} (h : IsAscii (upperChar c)) : c.toNat < 128 ∨ c.toNat ∈ lookalikes := by
  by_cases hc : c.toNat < 128
  · exact .inl hc
  rw [upperChar, if_neg hc, mapCase] at h
  cases hrun : runShift? upperRuns c.toNat with
  | some shift =>
    obtain ⟨⟨first, last, stride, _⟩, hmem, hfirst, hlast, rfl⟩ := runShift?_eq_some hrun
    rw [hrun] at h
    rcases upperRuns_apart _ hmem with hshifted | hascii | ⟨hone, hlookalike⟩
    · have hbig := not_ascii_of_shifted hfirst hlast hshifted
      exact absurd (h _ List.mem_cons_self) (Nat.not_lt.mpr hbig)
    · exact .inl (Nat.lt_of_le_of_lt hlast hascii)
    · obtain rfl : first = c.toNat := Nat.le_antisymm hfirst (Nat.le_trans hlast (Nat.le_of_eq hone.symm))
      exact .inr hlookalike
  | none =>
    rw [hrun] at h
    cases hlong : upperLong.lookup c.toNat with
    | none =>
      rw [hlong] at h
      exact .inl (h c List.mem_cons_self)
    | some ns =>
      rw [hlong] at h
      rcases upperLong_apart _ (mem_of_lookup hlong) with ⟨n, hn, hbig⟩ | hlookalike
      · exact absurd (h _ (List.mem_map_of_mem hn)) (Nat.not_lt.mpr hbig)
      · exact .inr hlookalike

theorem upperChar_sublist {s : String} {c : Char} (hc : c ∈ s.toList) :
    (upperChar c).Sublist (upper s).toList := by
  rw [upper, String.toList_ofList, List.flatMap_def]
  exact List.sublist_flatten_of_mem (List.mem_map_of_mem hc)

/-- A text whose upper case is ASCII is ASCII itself, its lookalikes aside. -/
theorem isAscii_of_upper {s : String} (h : IsAscii (upper s).toList) (hs : ∀ c ∈ s.toList, c.toNat ∉ lookalikes) :
    IsAscii s.toList := by
  intro c hc
  have hupper : IsAscii (upperChar c) := fun d hd => h d ((upperChar_sublist hc).subset hd)
  exact (ascii_or_lookalike hupper).resolve_right (hs c hc)

/-! ## Upper case of the upper case -/

theorem mem_upper {s : String} {d : Char} : d ∈ (upper s).toList ↔ ∃ c ∈ s.toList, d ∈ upperChar c := by
  rw [upper, String.toList_ofList, List.mem_flatMap]

theorem toUpper_toUpper {c : Char} (hc : c.toNat < 128) : c.toUpper.toUpper = c.toUpper :=
  ascii_forall (p := fun c => c.toUpper.toUpper = c.toUpper) (by decide) hc

theorem toNat_ofNat_or (n : Nat) : (Char.ofNat n).toNat = n ∨ (Char.ofNat n).toNat = 0 := by
  by_cases h : n.isValidChar
  · exact .inl (toNat_ofNat h)
  · right
    rw [Char.ofNat, dif_neg h]
    rfl

theorem lookalikes_apart : ∀ n ∈ lookalikes, 128 ≤ n := by decide

theorem upperRuns_beside : ∀ run ∈ upperRuns, ∀ n ∈ lookalikes,
    (n : Int) < run.1 + run.2.2.2 ∨ run.2.1 + run.2.2.2 < (n : Int) := by
  decide +kernel

theorem upperLong_beside : ∀ e ∈ upperLong, ∀ n ∈ e.2, (Char.ofNat n).toNat ∉ lookalikes := by decide +kernel

def lookalikesUpper : List Char := "SSISFFFIFLFFIFFLSTST".toList

theorem flatMap_lookalikes : lookalikes.flatMap (fun n => upperChar (Char.ofNat n)) = lookalikesUpper := by
  decide +kernel

theorem lookalikesUpper_kept {d : Char} (hd : d ∈ lookalikesUpper) : d.toNat < 128 ∧ d.toUpper = d := by
  have hall : lookalikesUpper.all (fun d => d.toNat < 128 ∧ d.toUpper = d) = true := by decide
  exact of_decide_eq_true (List.all_eq_true.mp hall d hd)

theorem upperChar_lookalike {c d : Char} (hc : c.toNat ∈ lookalikes) (hd : d ∈ upperChar c) :
    d.toNat < 128 ∧ d.toUpper = d := by
  refine lookalikesUpper_kept ?_
  rw [← flatMap_lookalikes]
  exact List.mem_flatMap.mpr ⟨c.toNat, hc, by rwa [Char.ofNat_toNat]⟩

/-- Characters that neither ASCII letters nor the tables lead to come from themselves only. -/
theorem upperChar_avoids {marks : List Nat} (hzero : 0 ∉ marks)
    (hascii : ∀ n < 128, n ∉ marks → (Char.ofNat n).toUpper.toNat ∉ marks)
    (hruns : ∀ run ∈ upperRuns, ∀ n ∈ marks, (n : Int) < run.1 + run.2.2.2 ∨ run.2.1 + run.2.2.2 < (n : Int))
    (hlongs : ∀ e ∈ upperLong, ∀ n ∈ e.2, (Char.ofNat n).toNat ∉ marks)
    {c d : Char} (hc : c.toNat ∉ marks) (hd : d ∈ upperChar c) : d.toNat ∉ marks := by
  intro h
  by_cases hsmall : c.toNat < 128
  · rw [upperChar_ascii hsmall, List.mem_singleton] at hd
    have hupper := hascii c.toNat hsmall hc
    rw [Char.ofNat_toNat, ← hd] at hupper
    exact hupper h
  rw [upperChar, if_neg hsmall, mapCase] at hd
  cases hrun : runShift? upperRuns c.toNat with
  | some shift =>
    obtain ⟨run, hmem, hfirst, hlast, rfl⟩ := runShift?_eq_some hrun
    rw [hrun, List.mem_singleton] at hd
    have hbeside := hruns run hmem _ h
    have hpos : d.toNat ≠ 0 := fun h0 => hzero (h0 ▸ h)
    rcases toNat_ofNat_or ((c.toNat : Int) + run.2.2.2).toNat with hn | hn
    · rw [hd, hn] at hbeside hpos
      omega
    · exact hpos (hd ▸ hn)
  | none =>
    rw [hrun] at hd
    cases hlong : upperLong.lookup c.toNat with
    | none =>
      rw [hlong, List.mem_singleton] at hd
      exact hc (hd ▸ h)
    | some ns =>
      rw [hlong] at hd
      obtain ⟨n, hn, rfl⟩ := List.mem_map.mp hd
      exact hlongs _ (mem_of_lookup hlong) n hn h

theorem lookalikes_ascii :
    ∀ n < 128, n ∉ lookalikes → (Char.ofNat n).toUpper.toNat ∉ lookalikes := by decide +kernel

theorem not_lookalike {c d : Char} (hd : d ∈ upperChar c) : d.toNat ∉ lookalikes := by
  by_cases hc : c.toNat ∈ lookalikes
  · intro h
    exact absurd (upperChar_lookalike hc hd).1 (Nat.not_lt.mpr (lookalikes_apart _ h))
  · exact upperChar_avoids (by decide) lookalikes_ascii upperRuns_beside upperLong_beside hc hd

theorem upper_upper {s : String} (h : IsAscii (upper (upper s)).toList) : upper (upper s) = upper s := by
  have hascii : IsAscii (upper s).toList := isAscii_of_upper h fun d hd => by
    obtain ⟨c, _, hdc⟩ := mem_upper.mp hd
    exact not_lookalike hdc
  have hkept : ∀ d ∈ (upper s).toList, d.toUpper = d := by
    intro d hd
    obtain ⟨c, hc, hdc⟩ := mem_upper.mp hd
    have hupper : IsAscii (upperChar c) := fun x hx => hascii x (mem_upper.mpr ⟨c, hc, hx⟩)
    rcases ascii_or_lookalike hupper with hc | hc
    · rw [upperChar_ascii hc, List.mem_singleton] at hdc
      rw [hdc, toUpper_toUpper hc]
    · exact (upperChar_lookalike hc hdc).2
  rw [upper, flatMap_upperChar_ascii hascii, List.map_congr_left hkept, List.map_id', String.ofList_toList]

/-! ## The long s -/

/-- A letter of its own in lower case; its upper case is that of the ordinary s. -/
def longS : Char := Char.ofNat 0x17f

theorem lowerChar_longS : lowerChar longS = [longS] := by decide +kernel

theorem mem_lowerFrom {cs : List Char} (h : longS ∈ cs) (before : List Char) : longS ∈ lowerFrom before cs := by
  induction cs generalizing before with
  | nil => cases h
  | cons c cs ih =>
    rw [lowerFrom, List.mem_append]
    rcases List.mem_cons.mp h with rfl | h
    · left
      rw [if_neg (by decide), lowerChar_longS]
      exact List.mem_singleton_self longS
    · exact .inr (ih h _)

theorem longS_mem_lower {s : String} (h : longS ∈ s.toList) : longS ∈ (lower s).toList := by
  rw [lower, String.toList_ofList]
  exact mem_lowerFrom h []

end Tradepost.Text
