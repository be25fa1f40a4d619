import Tradepost.OrderedMap

/-!
# Maps changed in more than one way

How the operations of an ordered map commute, the order of its entries
included.
-/

namespace Tradepost.OrderedMap

variable {κ ν μ : Type} [DecidableEq κ] {m : OrderedMap κ ν} {k : κ} {v : ν}

/-! ## Values -/

theorem get?_map (f : ν → μ) (m : OrderedMap κ ν) (k : κ) : (m.map f).get? k = (m.get? k).map f := by
  unfold get? map
  rw [List.find?_map, Option.map_map, Option.map_map]
  rfl

theorem map_put (f : ν → μ) (k : κ) (v : ν) (es : List (κ × ν)) :
    (put k v es).map (fun e => (e.1, f e.2)) = put k (f v) (es.map fun e => (e.1, f e.2)) := by
  induction es with
  | nil => rfl
  | cons e es ih =>
    rw [put, List.map_cons, put]
    split
    · rfl
    · rw [List.map_cons, ih]

theorem map_insert (f : ν → μ) (m : OrderedMap κ ν) (k : κ) (v : ν) :
    (m.insert k v).map f = (m.map f).insert k (f v) := ext (map_put f k v m.entries)

omit [DecidableEq κ] in
theorem map_filterKeys (f : ν → μ) (m : OrderedMap κ ν) (p : κ → Bool) :
    (m.filterKeys p).map f = (m.map f).filterKeys p := by
  apply ext
  simp only [filterKeys, map, List.filter_map, Function.comp_def]

theorem map_erase (f : ν → μ) (m : OrderedMap κ ν) (k : κ) : (m.erase k).map f = (m.map f).erase k :=
  map_filterKeys f m _

theorem map_congr {f g : ν → μ} (h : ∀ k v, m.get? k = some v → f v = g v) : m.map f = m.map g := by
  apply ext
  refine List.map_congr_left fun e he => ?_
  rw [h e.1 e.2 (get?_eq_some.mpr he)]

theorem map_erase_congr {f g : ν → μ} (h : ∀ k' v', m.get? k' = some v' → k' ≠ k → f v' = g v') :
    (m.erase k).map f = (m.map g).erase k := by
  rw [← map_erase]
  refine map_congr fun k' v' hv => ?_
  rw [get?_erase] at hv
  split at hv
  · cases hv
  · rename_i hne
    exact h k' v' hv hne

theorem put_map_congr {f g : ν → μ} (w : μ) {es : List (κ × ν)} (hn : (es.map Prod.fst).Nodup)
    (h : ∀ e ∈ es, e.1 ≠ k → f e.2 = g e.2) :
    put k w (es.map fun e => (e.1, f e.2)) = put k w (es.map fun e => (e.1, g e.2)) := by
  induction es with
  | nil => rfl
  | cons e es ih =>
    rw [List.map_cons, List.nodup_cons] at hn
    rw [List.map_cons, List.map_cons, put, put]
    by_cases he : e.1 = k
    · rw [if_pos he, if_pos he]
      refine congrArg _ (List.map_congr_left fun e' he' => ?_)
      have : e'.1 ≠ k := fun x => hn.1 (List.mem_map.mpr ⟨e', he', x.trans he.symm⟩)
      rw [h e' (List.mem_cons_of_mem _ he') this]
    · rw [if_neg he, if_neg he, h e (List.mem_cons_self ..) he,
        ih hn.2 fun e' he' => h e' (List.mem_cons_of_mem _ he')]

theorem put_absent {es : List (κ × ν)} (h : ∀ e ∈ es, e.1 ≠ k) (v : ν) : put k v es = es ++ [(k, v)] := by
  induction es with
  | nil => rfl
  | cons e es ih =>
    rw [put, if_neg (h e (List.mem_cons_self ..)), ih fun e' he' => h e' (List.mem_cons_of_mem _ he')]
    rfl

theorem values_insert (h : m.get? k = none) (v : ν) : (m.insert k v).values = m.values ++ [v] := by
  have hput : put k v m.entries = m.entries ++ [(k, v)] := by
    refine put_absent (fun e he hk => ?_) v
    subst hk
    cases h.symm.trans (get?_eq_some.mpr he)
  show (put k v m.entries).map Prod.snd = m.entries.map Prod.snd ++ [v]
  rw [hput, List.map_append]
  rfl

omit [DecidableEq κ] in
theorem map_filterMap_entries {f : ν → Option μ} {key : μ → κ} {es : List (κ × ν)}
    (h : ∀ e ∈ es, ∃ x, f e.2 = some x ∧ key x = e.1) :
    ((es.map Prod.snd).filterMap f).map key = es.map Prod.fst := by
  induction es with
  | nil => rfl
  | cons e es ih =>
    obtain ⟨x, hx, hkey⟩ := h e (List.mem_cons_self ..)
    rw [List.map_cons, List.filterMap_cons_some hx, List.map_cons, List.map_cons, hkey,
      ih fun e' he' => h e' (List.mem_cons_of_mem _ he')]

theorem map_filterMap_values {f : ν → Option μ} {key : μ → κ}
    (h : ∀ k v, m.get? k = some v → ∃ x, f v = some x ∧ key x = k) : (m.values.filterMap f).map key = m.keys :=
  map_filterMap_entries fun e he => h e.1 e.2 (get?_eq_some.mpr he)

theorem mem_filterMap_values {f : ν → Option μ} {key : μ → κ}
    (h : ∀ k v, m.get? k = some v → ∃ x, f v = some x ∧ key x = k) {x : μ} :
    x ∈ m.values.filterMap f ↔ (m.get? (key x)).bind f = some x := by
  rw [List.mem_filterMap, Option.bind_eq_some_iff]
  constructor
  · rintro ⟨v, hv, hx⟩
    obtain ⟨⟨k, _⟩, he, rfl⟩ := List.mem_map.mp hv
    have hk := get?_eq_some.mpr he
    obtain ⟨x', hx', rfl⟩ := h k _ hk
    obtain rfl : x = x' := Option.some.inj (hx.symm.trans hx')
    exact ⟨_, hk, hx⟩
  · rintro ⟨v, hk, hx⟩
    exact ⟨v, List.mem_map.mpr ⟨_, get?_eq_some.mp hk, rfl⟩, hx⟩

/-- What stood under a key does not matter once it is replaced. -/
theorem insert_map_congr {f g : ν → μ} (w : μ) (h : ∀ k' v', m.get? k' = some v' → k' ≠ k → f v' = g v') :
    (m.map f).insert k w = (m.map g).insert k w :=
  ext (put_map_congr w m.nodup fun e he => h e.1 e.2 (get?_eq_some.mpr he))

theorem put_self {es : List (κ × ν)} (hn : (es.map Prod.fst).Nodup) (h : (k, v) ∈ es) : put k v es = es := by
  induction es with
  | nil => cases h
  | cons e es ih =>
    rw [List.map_cons, List.nodup_cons] at hn
    rw [put]
    rcases List.mem_cons.mp h with rfl | h
    · exact if_pos rfl
    · have hne : e.1 ≠ k := fun x => hn.1 (List.mem_map.mpr ⟨(k, v), h, x.symm⟩)
      rw [if_neg hne, ih hn.2 h]

theorem insert_self (h : m.get? k = some v) : m.insert k v = m := ext (put_self m.nodup (get?_eq_some.mp h))

theorem map_eq_insert {f g : ν → μ} (hk : m.get? k = some v)
    (h : ∀ k' v', m.get? k' = some v' → k' ≠ k → f v' = g v') : m.map f = (m.map g).insert k (f v) := by
  rw [← insert_map_congr (f v) h]
  exact (insert_self (by rw [get?_map, hk]; rfl)).symm

/-! ## Keys left out -/

omit [DecidableEq κ] in
theorem filterKeys_filterKeys (m : OrderedMap κ ν) (p q : κ → Bool) :
    (m.filterKeys p).filterKeys q = m.filterKeys fun k => q k && p k := by
  apply ext
  simp only [filterKeys, List.filter_filter]

omit [DecidableEq κ] in
theorem filterKeys_eq_self {p : κ → Bool} (m : OrderedMap κ ν) (h : ∀ k, p k = true) : m.filterKeys p = m := by
  apply ext
  simp only [filterKeys, List.filter_eq_self]
  exact fun e _ => h e.1

theorem erase_eq_self (h : m.get? k = none) : m.erase k = m := by
  apply ext
  refine List.filter_eq_self.mpr fun e he => ?_
  have : e.1 ≠ k := by
    rintro rfl
    cases (get?_eq_some.mpr he).symm.trans h
  simpa using this

theorem filter_put {p : κ → Bool} (h : p k = true) (v : ν) (es : List (κ × ν)) :
    (put k v es).filter (fun e => p e.1) = put k v (es.filter fun e => p e.1) := by
  induction es with
  | nil => simp [put, h]
  | cons e es ih =>
    rw [put, List.filter_cons]
    by_cases he : e.1 = k
    · rw [if_pos he, List.filter_cons_of_pos (by exact h), if_pos (he ▸ h), put, if_pos he]
    · rw [if_neg he, List.filter_cons, ih]
      split
      · rw [put, if_neg he]
      · rfl

theorem filter_put_of_neg {p : κ → Bool} (h : p k = false) (v : ν) (es : List (κ × ν)) :
    (put k v es).filter (fun e => p e.1) = es.filter fun e => p e.1 := by
  induction es with
  | nil => simp [put, h]
  | cons e es ih =>
    rw [put]
    by_cases he : e.1 = k
    · simp [he, h]
    · rw [if_neg he, List.filter_cons, List.filter_cons, ih]

theorem erase_insert (m : OrderedMap κ ν) (k : κ) (v : ν) : (m.insert k v).erase k = m.erase k :=
  ext (filter_put_of_neg (p := (· ≠ k)) (by simp) v m.entries)

theorem erase_erase (m : OrderedMap κ ν) (k : κ) : (m.erase k).erase k = m.erase k :=
  erase_eq_self (by rw [get?_erase, if_pos rfl])

theorem filterKeys_insert {p : κ → Bool} (m : OrderedMap κ ν) (h : p k = true) (v : ν) :
    (m.insert k v).filterKeys p = (m.filterKeys p).insert k v := ext (filter_put h v m.entries)

theorem filterKeys_erase {p q : κ → Bool} (m : OrderedMap κ ν) (h : ∀ k', k' ≠ k → p k' = q k') :
    (m.filterKeys p).erase k = (m.erase k).filterKeys q := by
  rw [erase, erase, filterKeys_filterKeys, filterKeys_filterKeys]
  congr 1
  funext k'
  by_cases hk : k' = k
  · simp [hk]
  · simp [hk, h k' hk]

end Tradepost.OrderedMap
