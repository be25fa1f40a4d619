/-!
# Maps in order of insertion

A new key goes last; a key that is there keeps its place when its value is
replaced, and loses it when it is removed.
-/

namespace Tradepost

structure OrderedMap (κ ν : Type) where
  entries : List (κ × ν) := []
  nodup : (entries.map Prod.fst).Nodup := by exact List.nodup_nil
deriving Repr, DecidableEq

namespace OrderedMap

variable {κ ν μ : Type} [DecidableEq κ]

def empty : OrderedMap κ ν := {}

instance : Inhabited (OrderedMap κ ν) := ⟨{}⟩

omit [DecidableEq κ] in
theorem ext {m m' : OrderedMap κ ν} (h : m.entries = m'.entries) : m = m' := by
  cases m; cases m'; cases h; rfl

def get? (m : OrderedMap κ ν) (k : κ) : Option ν :=
  (m.entries.find? fun e => e.1 = k).map Prod.snd

def contains (m : OrderedMap κ ν) (k : κ) : Bool := (m.get? k).isSome

def put (k : κ) (v : ν) : List (κ × ν) → List (κ × ν)
  | [] => [(k, v)]
  | e :: rest => if e.1 = k then (k, v) :: rest else e :: put k v rest

theorem keys_put (k : κ) (v : ν) (es : List (κ × ν)) :
    (put k v es).map Prod.fst =
      if k ∈ es.map Prod.fst then es.map Prod.fst else es.map Prod.fst ++ [k] := by
  induction es with
  | nil => rfl
  | cons e es ih =>
    unfold put
    by_cases h : e.1 = k
    · simp [h]
    · have h' : k ≠ e.1 := fun x => h x.symm
      simp only [h, ite_false, List.map_cons, ih, List.mem_cons, h', false_or]
      split <;> rfl

theorem nodup_put (k : κ) (v : ν) {es : List (κ × ν)} (h : (es.map Prod.fst).Nodup) :
    ((put k v es).map Prod.fst).Nodup := by
  rw [keys_put]
  split
  · exact h
  · rename_i hk
    refine List.nodup_append.mpr ⟨h, by simp, ?_⟩
    intro a ha b hb
    rw [List.mem_singleton.mp hb]
    exact fun e => hk (e ▸ ha)

def insert (m : OrderedMap κ ν) (k : κ) (v : ν) : OrderedMap κ ν :=
  ⟨put k v m.entries, nodup_put k v m.nodup⟩

def filterKeys (m : OrderedMap κ ν) (p : κ → Bool) : OrderedMap κ ν :=
  ⟨m.entries.filter fun e => p e.1, m.nodup.sublist (List.filter_sublist.map _)⟩

def erase (m : OrderedMap κ ν) (k : κ) : OrderedMap κ ν := m.filterKeys (· ≠ k)

def keys (m : OrderedMap κ ν) : List κ := m.entries.map Prod.fst

def values (m : OrderedMap κ ν) : List ν := m.entries.map Prod.snd

def map (f : ν → μ) (m : OrderedMap κ ν) : OrderedMap κ μ :=
  ⟨m.entries.map fun e => (e.1, f e.2), by simpa [Function.comp_def] using m.nodup⟩

/-- The map that the pairs build up, a later pair replacing an earlier one. -/
def ofList (pairs : List (κ × ν)) : OrderedMap κ ν :=
  pairs.foldl (fun m e => m.insert e.1 e.2) empty

/-! ## What is found under a key -/

theorem get?_eq_some {m : OrderedMap κ ν} {k : κ} {v : ν} : m.get? k = some v ↔ (k, v) ∈ m.entries := by
  obtain ⟨es, h⟩ := m
  simp only [get?, Option.map_eq_some_iff]
  constructor
  · rintro ⟨e, he, rfl⟩
    have hk : e.1 = k := by simpa using List.find?_some he
    exact hk ▸ List.mem_of_find?_eq_some he
  · intro hm
    induction es with
    | nil => cases hm
    | cons e es ih =>
      rw [List.map_cons, List.nodup_cons] at h
      rw [List.find?_cons]
      rcases List.mem_cons.mp hm with rfl | hm'
      · exact ⟨(k, v), by simp, rfl⟩
      · have : e.1 ≠ k := fun x => h.1 (List.mem_map.mpr ⟨(k, v), hm', x.symm⟩)
        simp only [this, decide_false]
        exact ih h.2 hm'

theorem find?_put (k k' : κ) (v : ν) (es : List (κ × ν)) :
    ((put k v es).find? fun e => e.1 = k').map Prod.snd =
      if k' = k then some v else (es.find? fun e => e.1 = k').map Prod.snd := by
  induction es with
  | nil => by_cases h : k = k' <;> simp [put, h, Ne.symm, eq_comm]
  | cons e es ih =>
    unfold put
    by_cases h : e.1 = k
    · by_cases h' : k = k' <;> simp [h, h', eq_comm]
    · simp only [h, ite_false, List.find?_cons]
      by_cases h' : e.1 = k'
      · have : k' ≠ k := fun x => h (h'.trans x)
        simp [h', this]
      · simpa [h'] using ih

theorem get?_insert (m : OrderedMap κ ν) (k k' : κ) (v : ν) :
    (m.insert k v).get? k' = if k' = k then some v else m.get? k' := find?_put k k' v m.entries

theorem get?_filterKeys (m : OrderedMap κ ν) (p : κ → Bool) (k : κ) :
    (m.filterKeys p).get? k = if p k then m.get? k else none := by
  apply Option.ext
  intro v
  rw [get?_eq_some]
  by_cases h : p k <;> simp [filterKeys, h, get?_eq_some]

theorem get?_erase (m : OrderedMap κ ν) (k k' : κ) :
    (m.erase k).get? k' = if k' = k then none else m.get? k' := by
  rw [erase, get?_filterKeys]
  by_cases h : k' = k <;> simp [h]

end OrderedMap

end Tradepost
