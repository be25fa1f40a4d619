import Mathlib.Data.List.Basic
import Tradepost.OfferId
import Tradepost.Uuid

/-!
# Offer ids are read in one way

The letters of an id end at its first dash, for a letter is no dash. The uuid
behind them has a fixed length, dashes included, so the tag begins behind the
next dash whatever it holds itself.
-/

namespace Tradepost

namespace Uuid

variable {m n : Nat}

/-! ## Uuids in canonical form -/

def digits (n : Nat) : List Char :=
  List.replicate (32 - (Nat.toDigits 16 n).length) '0' ++ Nat.toDigits 16 n

def group (start len : Nat) (ds : List Char) : List Char := (ds.drop start).take len

theorem canonical_eq (n : Nat) : canonical n =
    group 0 8 (digits n) ++ '-' :: group 8 4 (digits n) ++ '-' :: group 12 4 (digits n) ++
      '-' :: group 16 4 (digits n) ++ '-' :: group 20 12 (digits n) := rfl

theorem digits_length (h : n < Nat.pow 2 128) : (digits n).length = 32 := by
  have hlen : (Nat.toDigits 16 n).length ≤ 32 :=
    (Nat.length_toDigits_le_iff (by decide) (by decide)).mpr (Nat.lt_of_lt_of_eq h (by decide))
  rw [digits, List.length_append, List.length_replicate]
  omega

theorem group_length {ds : List Char} {start len : Nat} (h : start + len ≤ ds.length) :
    (group start len ds).length = len := by
  rw [group, List.length_take, List.length_drop]
  omega

theorem group_append (start i j : Nat) (ds : List Char) :
    group start (i + j) ds = group start i ds ++ group (start + i) j ds := by
  rw [group, List.take_add, List.drop_drop]
  rfl

theorem canonical_length (h : n < Nat.pow 2 128) : (canonical n).length = 36 := by
  have hlen := digits_length h
  have hgroup (start len : Nat) (hs : start + len ≤ 32) : (group start len (digits n)).length = len :=
    group_length (hlen ▸ hs)
  rw [canonical_eq]
  simp only [List.length_append, List.length_cons]
  rw [hgroup 0 8 (by decide), hgroup 8 4 (by decide), hgroup 12 4 (by decide), hgroup 16 4 (by decide),
    hgroup 20 12 (by decide)]

def hexValue (cs : List Char) : Nat := cs.foldl (fun n c => 16 * n + (Whole.digitOf? 16 c).getD 0) 0

theorem digitOf?_digitChar : ∀ d < 16, Whole.digitOf? 16 (Nat.digitChar d) = some d := by decide +kernel

theorem hexValue_append_digit (cs : List Char) {d : Nat} (h : d < 16) :
    hexValue (cs ++ [Nat.digitChar d]) = 16 * hexValue cs + d := by
  rw [hexValue, List.foldl_append, List.foldl_cons, List.foldl_nil, digitOf?_digitChar d h]
  rfl

theorem hexValue_toDigits (n : Nat) : hexValue (Nat.toDigits 16 n) = n := by
  induction n using Nat.strongRecOn with
  | ind n ih =>
    rw [Nat.toDigits_eq_if (by decide)]
    by_cases h : n < 16
    · rw [if_pos h]
      exact (hexValue_append_digit [] h).trans (Nat.zero_add n)
    · rw [if_neg h, hexValue_append_digit _ (Nat.mod_lt n (by decide)), ih (n / 16) (by omega)]
      exact Nat.div_add_mod n 16

theorem hexValue_zeros (k : Nat) (cs : List Char) : hexValue (List.replicate k '0' ++ cs) = hexValue cs := by
  have hzero : (Whole.digitOf? 16 '0').getD 0 = 0 := by decide +kernel
  induction k with
  | zero => rfl
  | succ k ih =>
    rw [List.replicate_succ, List.cons_append, hexValue, List.foldl_cons, hzero]
    exact ih

theorem digits_inj (h : digits m = digits n) : m = n := by
  have hvalue (k : Nat) : hexValue (digits k) = k := (hexValue_zeros _ _).trans (hexValue_toDigits k)
  rw [← hvalue m, h, hvalue n]

theorem canonical_inj (hm : m < Nat.pow 2 128) (hn : n < Nat.pow 2 128) : canonical m = canonical n ↔ m = n := by
  refine ⟨fun h => digits_inj ?_, congrArg canonical⟩
  have hlen (k : Nat) (hk : k < Nat.pow 2 128) (start len : Nat) (hs : start + len ≤ 32) :
      ('-' :: group start len (digits k)).length = len + 1 :=
    congrArg (· + 1) (group_length (digits_length hk ▸ hs))
  have hsame (start len : Nat) (hs : start + len ≤ 32) :
      ('-' :: group start len (digits m)).length = ('-' :: group start len (digits n)).length :=
    (hlen m hm start len hs).trans (hlen n hn start len hs).symm
  rw [canonical_eq, canonical_eq] at h
  obtain ⟨h, h20⟩ := List.append_inj' h (hsame 20 12 (by decide))
  obtain ⟨h, h16⟩ := List.append_inj' h (hsame 16 4 (by decide))
  obtain ⟨h, h12⟩ := List.append_inj' h (hsame 12 4 (by decide))
  obtain ⟨h0, h8⟩ := List.append_inj' h (hsame 8 4 (by decide))
  -- the groups are all there is
  have hall (k : Nat) (hk : k < Nat.pow 2 128) : digits k = group 0 8 (digits k) ++ group 8 4 (digits k) ++
      group 12 4 (digits k) ++ group 16 4 (digits k) ++ group 20 12 (digits k) := by
    rw [← group_append 0 8 4, ← group_append 0 12 4, ← group_append 0 16 4, ← group_append 0 20 12]
    exact (List.take_of_length_le (Nat.le_of_eq (digits_length hk))).symm
  rw [hall m hm, hall n hn, h0, List.tail_eq_of_cons_eq h8, List.tail_eq_of_cons_eq h12,
    List.tail_eq_of_cons_eq h16, List.tail_eq_of_cons_eq h20]

end Uuid

namespace IdFormat

variable {f : IdFormat} {draws : List Int} {letters uuid tag : List Char}

/-! ## What is drawn -/

def drawn (f : IdFormat) (draws : List Int) : List Char :=
  (draws.tail.take (f.prefixLength (draws.headD 0))).map letter

def Enough (f : IdFormat) (draws : List Int) : Prop := f.prefixLength (draws.headD 0) < draws.length

instance (f : IdFormat) (draws : List Int) : Decidable (f.Enough draws) := inferInstanceAs (Decidable (_ < _))

theorem drawn_length (h : f.Enough draws) : (f.drawn draws).length = f.prefixLength (draws.headD 0) := by
  have hlen : f.prefixLength (draws.headD 0) < draws.length := h
  rw [drawn, List.length_map, List.length_take, List.length_tail]
  omega

theorem prefixAlphabet_letters : ∀ c ∈ prefixAlphabet, c.isAlpha = true ∧ c ≠ '-' := by
  have h : (prefixAlphabet.all fun c => c.isAlpha && c != '-') = true := by decide
  simpa [List.all_eq_true] using h

theorem letter_mem (draw : Int) : letter draw ∈ prefixAlphabet := by
  have hlow := Int.emod_nonneg draw (b := prefixAlphabet.length) (by decide)
  have hhigh := Int.emod_lt_of_pos draw (b := prefixAlphabet.length) (by decide)
  have hlt : (draw % (prefixAlphabet.length : Int)).toNat < prefixAlphabet.length := by omega
  rw [letter, List.getD_eq_getElem?_getD, List.getElem?_eq_getElem hlt]
  exact List.getElem_mem hlt

theorem drawn_letters {c : Char} (hc : c ∈ f.drawn draws) : c.isAlpha = true ∧ c ≠ '-' := by
  obtain ⟨draw, _, rfl⟩ := List.mem_map.mp hc
  exact prefixAlphabet_letters _ (letter_mem draw)

theorem make?_bounds (version : String) {least most : Int} (hb : 0 < least ∧ least ≤ most) :
    ∃ f, make? version least most = some f ∧ f.tag = versionTag version ∧
      ∀ draw, least ≤ f.prefixLength draw ∧ f.prefixLength draw ≤ most := by
  refine ⟨_, if_pos hb, rfl, fun draw => ?_⟩
  have hlow := Int.emod_nonneg draw (b := ((most.toNat - least.toNat + 1 : Nat) : Int)) (by omega)
  have hhigh := Int.emod_lt_of_pos draw (b := ((most.toNat - least.toNat + 1 : Nat) : Int)) (by omega)
  unfold prefixLength
  dsimp only
  omega

/-! ## How an id is read -/

/-- What stands before the first dash of an id, the 36 characters behind it, and what follows the
dash behind those. -/
def parts (id : String) : List Char × List Char × List Char :=
  let rest := (id.toList.dropWhile (· ≠ '-')).drop 1
  (id.toList.takeWhile (· ≠ '-'), rest.take 36, rest.drop 37)

theorem parts_join (hl : ∀ c ∈ letters, c ≠ '-') (hu : uuid.length = 36) (tag : List Char) :
    parts (join letters uuid tag) = (letters, uuid, tag) := by
  have hl' : ∀ c ∈ letters, (decide (c ≠ '-')) = true := fun c hc => decide_eq_true (hl c hc)
  have htext : (join letters uuid tag).toList = letters ++ '-' :: (uuid ++ '-' :: tag) := by
    rw [join, String.toList_ofList, List.append_assoc]
    rfl
  have htake : (letters ++ '-' :: (uuid ++ '-' :: tag)).takeWhile (· ≠ '-') = letters := by
    rw [List.takeWhile_append_of_pos hl', List.takeWhile_cons_of_neg (by decide), List.append_nil]
  have hdrop : (letters ++ '-' :: (uuid ++ '-' :: tag)).dropWhile (· ≠ '-') = '-' :: (uuid ++ '-' :: tag) := by
    rw [List.dropWhile_append_of_pos hl', List.dropWhile_cons_of_neg (by decide)]
  unfold parts
  rw [htext, htake, hdrop]
  have htag : (uuid ++ '-' :: tag).drop (36 + 1) = tag := by
    rw [← hu, List.drop_append, List.drop_of_length_le (by omega)]
    simp
  exact congrArg (letters, ·) (Prod.ext (List.take_left' hu) htag)

def idOf (f : IdFormat) (u : BitVec 128) (draws : List Int) : String := (f.next (Uuid.canonical u.toNat) draws).1

theorem idOf_eq (f : IdFormat) (u : BitVec 128) (draws : List Int) :
    f.idOf u draws = join (f.drawn draws) (Uuid.canonical u.toNat) f.tag := rfl

theorem parts_idOf (f : IdFormat) (u : BitVec 128) (draws : List Int) :
    parts (f.idOf u draws) = (f.drawn draws, Uuid.canonical u.toNat, f.tag) :=
  parts_join (fun _ hc => (drawn_letters hc).2) (Uuid.canonical_length u.isLt) f.tag

/-- **Offer ids are read in one way.** For every version, all bounds and whatever is drawn: an id is
made of so many letters as the bounds allow, the uuid, and the version without its dots, and these
are the parts it is read as. So two ids, of formats with different bounds and versions too, agree
only if their letters, uuids and tags do. -/
theorem ids_read_uniquely (version version' : String) {least most least' most' : Int}
    (hb : 0 < least ∧ least ≤ most) (hb' : 0 < least' ∧ least' ≤ most') :
    ∃ f f', make? version least most = some f ∧ make? version' least' most' = some f' ∧
      ∀ draws draws' u u',
        (f.Enough draws → least ≤ (f.drawn draws).length ∧ (f.drawn draws).length ≤ most) ∧
        (∀ c ∈ f.drawn draws, c.isAlpha = true) ∧
        (f.idOf u draws).toList = f.drawn draws ++ '-' :: Uuid.canonical u.toNat ++ '-' :: versionTag version ∧
        parts (f.idOf u draws) = (f.drawn draws, Uuid.canonical u.toNat, versionTag version) ∧
        (f.idOf u draws = f'.idOf u' draws' ↔
          f.drawn draws = f'.drawn draws' ∧ u = u' ∧ versionTag version = versionTag version') := by
  obtain ⟨f, hf, htag, hlen⟩ := make?_bounds version hb
  obtain ⟨f', hf', htag', _⟩ := make?_bounds version' hb'
  rw [← htag, ← htag']
  refine ⟨f, f', hf, hf', fun draws draws' u u' =>
    ⟨fun hd => ?_, fun c hc => (drawn_letters hc).1, ?_, parts_idOf f u draws, fun h => ?_, ?_⟩⟩
  · rw [drawn_length hd]
    exact hlen _
  · rw [idOf_eq, join, String.toList_ofList]
  · have hsame := congrArg parts h
    rw [parts_idOf, parts_idOf] at hsame
    obtain ⟨hletters, hrest⟩ := Prod.mk.inj hsame
    obtain ⟨huuid, hversion⟩ := Prod.mk.inj hrest
    exact ⟨hletters, BitVec.eq_of_toNat_eq ((Uuid.canonical_inj u.isLt u'.isLt).mp huuid), hversion⟩
  · rintro ⟨hletters, rfl, hversion⟩
    rw [idOf_eq, idOf_eq, hletters, hversion]

theorem ids_read_uniquely_dashes : ∃ f f', make? "2.0-rc.1" 1 3 = some f ∧ make? "2.0" 5 8 = some f' ∧
    f.Enough [1, 10, 27] ∧ (f.drawn [1, 10, 27]).length ≤ (3 : Int) ∧
    parts (f.idOf 5 [1, 10, 27]) = (['k', 'B'], Uuid.canonical 5, "20-rc1".toList) ∧
    f.idOf 5 [1, 10, 27] ≠ f'.idOf 5 [0, 10, 27, 3, 4, 5] := by
  have hb : (0 : Int) < 1 ∧ (1 : Int) ≤ 3 := by decide
  have hb' : (0 : Int) < 5 ∧ (5 : Int) ≤ 8 := by decide
  obtain ⟨f, f', hf, hf', h⟩ := ids_read_uniquely "2.0-rc.1" "2.0" hb hb'
  have hformat : f = ⟨1, 3, "20-rc1".toList⟩ := (Option.some.inj hf).symm.trans (by decide)
  have henough : f.Enough [1, 10, 27] := by
    rw [hformat]
    decide
  have hdrawn : f.drawn [1, 10, 27] = ['k', 'B'] := by
    rw [hformat]
    decide
  have htag : versionTag "2.0-rc.1" = "20-rc1".toList := by decide
  obtain ⟨hlen, _, _, hparts, hsame⟩ := h [1, 10, 27] [0, 10, 27, 3, 4, 5] 5 5
  refine ⟨f, f', hf, hf', henough, (hlen henough).2, ?_, fun heq => absurd (hsame.mp heq).2.2 (by decide)⟩
  rw [hparts, hdrawn, htag]
  rfl

end IdFormat

end Tradepost
