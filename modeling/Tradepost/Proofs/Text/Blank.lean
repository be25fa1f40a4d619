import Mathlib.Data.List.DropRight
import Tradepost.Proofs.Text.Folding
import Tradepost.Text.Blank

/-!
# Blanks of a text and of its upper case

A text is stripped already if there is no blank at either end; what stands
between the ends is not looked at. The upper case of a text has the blanks of
the text and no others.
-/

namespace Tradepost.Text

variable {p : Char → Bool} {cs : List Char} {s : String}

/-! ## Stripped texts -/

theorem trimBoth_eq (p : Char → Bool) (cs : List Char) : trimBoth p cs = (cs.dropWhile p).rdropWhile p := rfl

theorem dropWhile_eq_self_iff_head : cs.dropWhile p = cs ↔ ∀ c ∈ cs.head?, p c = false := by
  cases cs with
  | nil => simp
  | cons c cs => simp [List.dropWhile_eq_self_iff]

theorem rdropWhile_eq_self_iff_last : cs.rdropWhile p = cs ↔ ∀ c ∈ cs.getLast?, p c = false := by
  rw [List.rdropWhile_eq_self_iff]
  constructor
  · intro h c hc
    obtain ⟨hne, rfl⟩ := List.mem_getLast?_eq_getLast hc
    exact Bool.eq_false_iff.mpr (h hne)
  · intro h hne
    exact Bool.eq_false_iff.mp (h _ (List.getLast_mem_getLast? hne))

theorem trimBoth_eq_self_iff :
    trimBoth p cs = cs ↔ (∀ c ∈ cs.head?, p c = false) ∧ ∀ c ∈ cs.getLast?, p c = false := by
  rw [← dropWhile_eq_self_iff_head, ← rdropWhile_eq_self_iff_last, trimBoth_eq]
  constructor
  · intro h
    -- nothing gets lost at the end, so nothing was lost before
    have hlen : cs.length ≤ (cs.dropWhile p).length := by
      have hprefix := (List.rdropWhile_prefix p (cs.dropWhile p)).length_le
      rwa [h] at hprefix
    have hfront := (List.dropWhile_suffix p).eq_of_length_le hlen
    rw [hfront] at h
    exact ⟨hfront, h⟩
  · rintro ⟨hfront, hback⟩
    rw [hfront, hback]

structure Tight (cs : List Char) : Prop where
  nonempty : cs ≠ []
  first : ∀ c ∈ cs.head?, isBlank c = false
  last : ∀ c ∈ cs.getLast?, isBlank c = false
  spaceless : ' ' ∉ cs

theorem strip_eq_self_iff :
    strip s = s ↔ (∀ c ∈ s.toList.head?, isBlank c = false) ∧ ∀ c ∈ s.toList.getLast?, isBlank c = false := by
  rw [← trimBoth_eq_self_iff, strip, ← String.toList_inj, String.toList_ofList]

/-! ## Blanks -/

def Blankless (s : String) : Prop := ∀ c ∈ s.toList, isBlank c = false

def blanks : List Nat :=
  [9, 10, 11, 12, 13, 28, 29, 30, 31, 32, 133, 160, 5760, 8192, 8193, 8194, 8195, 8196, 8197, 8198, 8199, 8200,
    8201, 8202, 8232, 8233, 8239, 8287, 12288]

theorem isBlank_iff {c : Char} : isBlank c = true ↔ c.toNat ∈ blanks := by
  simp only [isBlank, isWhiteSpace, blanks, Bool.or_eq_true, Bool.and_eq_true, decide_eq_true_eq, beq_iff_eq,
    List.mem_cons, List.not_mem_nil, or_false]
  omega

theorem blanks_ascii : ∀ n < 128, n ∉ blanks → (Char.ofNat n).toUpper.toNat ∉ blanks := by decide +kernel

theorem upperRuns_blanks : ∀ run ∈ upperRuns, ∀ n ∈ blanks,
    (n : Int) < run.1 + run.2.2.2 ∨ run.2.1 + run.2.2.2 < (n : Int) := by
  decide +kernel

theorem upperLong_blanks : ∀ e ∈ upperLong, ∀ n ∈ e.2, (Char.ofNat n).toNat ∉ blanks := by decide +kernel

theorem upperChar_blanks : ∀ n ∈ blanks, upperChar (Char.ofNat n) = [Char.ofNat n] := by decide +kernel

theorem upperChar_blank {c : Char} (hc : isBlank c = true) : upperChar c = [c] := by
  have hkept := upperChar_blanks c.toNat (isBlank_iff.mp hc)
  rwa [Char.ofNat_toNat] at hkept

theorem eq_of_upper_blank {c d : Char} (hd : d ∈ upperChar c) (hblank : isBlank d = true) : d = c := by
  by_cases hc : isBlank c = true
  · rw [upperChar_blank hc] at hd
    exact List.mem_singleton.mp hd
  · have hapart : d.toNat ∉ blanks :=
      upperChar_avoids (by decide) blanks_ascii upperRuns_blanks upperLong_blanks (isBlank_iff.not.mp hc) hd
    exact absurd (isBlank_iff.mp hblank) hapart

theorem blankless_upper : Blankless (upper s) ↔ Blankless s := by
  constructor
  · intro h c hc
    by_contra hblank
    have hmem : c ∈ upperChar c := by
      rw [upperChar_blank (Bool.not_eq_false _ ▸ hblank)]
      exact List.mem_singleton_self c
    exact hblank (h c (mem_upper.mpr ⟨c, hc, hmem⟩))
  · intro h d hd
    by_contra hblank
    obtain ⟨c, hc, hdc⟩ := mem_upper.mp hd
    obtain rfl := eq_of_upper_blank hdc (Bool.not_eq_false _ ▸ hblank)
    exact hblank (h d hc)

/-! ## Upper case of a stripped text -/

theorem upperLong_ne_nil : ∀ e ∈ upperLong, e.2 ≠ [] := by decide +kernel

theorem upperChar_ne_nil (c : Char) : upperChar c ≠ [] := by
  unfold upperChar mapCase
  split
  · exact List.cons_ne_nil _ _
  · split
    · exact List.cons_ne_nil _ _
    · split
      · rename_i ns hlong
        exact fun h => upperLong_ne_nil _ (mem_of_lookup hlong) (List.map_eq_nil_iff.mp h)
      · exact List.cons_ne_nil _ _

theorem upperChar_unblank {c : Char} (hc : isBlank c = false) : ∀ d ∈ upperChar c, isBlank d = false := by
  intro d hd
  by_contra hblank
  obtain rfl := eq_of_upper_blank hd (Bool.not_eq_false _ ▸ hblank)
  exact hblank hc

theorem Tight.upper (h : Tight s.toList) : Tight (upper s).toList := by
  have htext : (Text.upper s).toList = s.toList.flatMap upperChar := String.toList_ofList
  obtain ⟨first, rest, hfront⟩ := List.exists_cons_of_ne_nil h.nonempty
  have hback := List.dropLast_append_getLast h.nonempty
  refine ⟨?_, fun d hd => ?_, fun d hd => ?_, fun hspace => ?_⟩
  · rw [htext, hfront, List.flatMap_cons]
    exact List.append_ne_nil_of_left_ne_nil (upperChar_ne_nil first) _
  · rw [htext, hfront, List.flatMap_cons, List.head?_append_of_ne_nil _ (upperChar_ne_nil first)] at hd
    exact upperChar_unblank (h.first first (by rw [hfront]; rfl)) d (List.mem_of_mem_head? hd)
  · rw [htext, ← hback, List.flatMap_append, List.flatMap_cons, List.flatMap_nil, List.append_nil,
      List.getLast?_append_of_ne_nil _ (upperChar_ne_nil _)] at hd
    exact upperChar_unblank (h.last _ (List.getLast_mem_getLast? h.nonempty)) d (List.mem_of_getLast? hd)
  · obtain ⟨c, hc, hspace⟩ := mem_upper.mp hspace
    obtain rfl := eq_of_upper_blank hspace (by decide)
    exact h.spaceless hc

end Tradepost.Text
