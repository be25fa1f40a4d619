import Tradepost.Proofs.Registry.Contents

/-!
# Contents behind others

While edits are under way the book lacks what is being edited, and nothing
else tells the contents from those of a registry in which the edits have not
begun. Every change keeps it so, the start of an edit without any change on
the other side and its publication with a whole edit there.
-/

namespace Tradepost.Registry.Contents

structure Agree (c c' : Contents) (id : String) : Prop where
  table : c'.table.get? id = c.table.get? id
  editing : id ∈ c'.editing ↔ id ∈ c.editing

variable {c s : Contents} {id id' : String}

theorem agree_place (h : id' ≠ id) (e : Entry) : Agree c (c.place id e) id' :=
  ⟨by rw [place, OrderedMap.get?_insert, if_neg h], Iff.rfl⟩

theorem agree_withdraw (h : id' ≠ id) : Agree c (c.withdraw id) id' :=
  ⟨rfl, fun x => (List.mem_cons.mp x).resolve_left h, List.mem_cons_of_mem _⟩

theorem agree_publish (h : id' ≠ id) (e : Entry) : Agree c (c.publish id e) id' :=
  ⟨by rw [publish, OrderedMap.get?_insert, if_neg h], fun x => (mem_unmarked.mp x).1,
    fun x => mem_unmarked.mpr ⟨x, h⟩⟩

theorem agree_clear (h : id' ≠ id) : Agree c (c.clear id) id' :=
  ⟨by rw [clear, OrderedMap.get?_erase, if_neg h], fun x => (mem_unmarked.mp x).1, fun x => mem_unmarked.mpr ⟨x, h⟩⟩

/-- Contents with edits under way, and as they were without them: the edits have only taken ids out
of the book. -/
structure Behind (c s : Contents) : Prop where
  table : c.table = s.table
  book : c.book = s.book.filterKeys (· ∉ c.editing)
  settled : s.editing = []

theorem Behind.eq (h : Behind c s) (he : c.editing = []) : c = s := by
  refine Contents.ext ?_ h.table (he.trans h.settled.symm)
  rw [h.book, OrderedMap.filterKeys_eq_self]
  simp [he]

theorem Behind.refl (h : c.editing = []) : Behind c c := by
  refine ⟨rfl, ?_, h⟩
  rw [OrderedMap.filterKeys_eq_self]
  simp [h]

theorem Behind.place (h : Behind c s) (hid : id ∉ c.editing) (e : Entry) :
    Behind (c.place id e) (s.place id e) where
  table := congrArg (·.insert id (some e)) h.table
  book := by
    unfold Contents.place
    dsimp only
    rw [OrderedMap.filterKeys_insert _ (by simpa using hid), h.book]
  settled := h.settled

theorem Behind.withdraw (h : Behind c s) (id : String) : Behind (c.withdraw id) s where
  table := h.table
  book := by
    unfold Contents.withdraw
    dsimp only
    rw [h.book, OrderedMap.erase, OrderedMap.filterKeys_filterKeys]
    congr 1
    funext id'
    simp [not_or]
  settled := h.settled

theorem Behind.book_erase (h : Behind c s) (id : String) :
    c.book.erase id = (s.book.erase id).filterKeys (· ∉ c.editing.filter (· ≠ id)) := by
  rw [h.book]
  refine OrderedMap.filterKeys_erase _ fun id' hne => ?_
  simp [hne]

/-- The publication of an edit catches up with an edit made all at once. -/
theorem Behind.publish (h : Behind c s) (hid : id ∈ c.editing) (e : Entry) :
    Behind (c.publish id e) ((s.withdraw id).publish id e) where
  table := congrArg (·.insert id (some e)) h.table
  book := by
    -- the id is not in the book while it is marked, so the book without it is the book itself
    have hb : c.book = (s.book.erase id).filterKeys (· ∉ c.editing.filter (· ≠ id)) := by
      rw [← h.book_erase, h.book, OrderedMap.erase, OrderedMap.filterKeys_filterKeys]
      congr 1
      funext id'
      by_cases hi : id' = id
      · simp [hi, hid]
      · simp [hi]
    unfold Contents.publish Contents.withdraw
    dsimp only
    split
    · rw [OrderedMap.filterKeys_insert _ (by simp), ← hb]
    · exact hb
  settled := by
    unfold Contents.publish Contents.withdraw
    simp [h.settled]

theorem Behind.clear (h : Behind c s) (id : String) : Behind (c.clear id) (s.clear id) where
  table := congrArg (·.erase id) h.table
  book := h.book_erase id
  settled := by
    unfold Contents.clear
    simp [h.settled]

end Tradepost.Registry.Contents
