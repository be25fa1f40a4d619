/-!
# Ledgers of numbered records

Offers and own offers are kept as numbered records that are amended but never
removed. Whoever holds the number of a record sees every later amendment, also
after the record has left the book or the table that pointed to it.
-/

namespace Tradepost

structure Ledger (α : Type) where
  records : List α := []
deriving Repr, Inhabited

namespace Ledger

variable {α : Type}

def get? (l : Ledger α) (n : Nat) : Option α := l.records[n]?

def nextNumber (l : Ledger α) : Nat := l.records.length

def add (l : Ledger α) (x : α) : Ledger α := ⟨l.records ++ [x]⟩

/-- Changes the record of that number; a number not yet given out changes nothing. -/
def amend (l : Ledger α) (n : Nat) (f : α → α) : Ledger α := ⟨l.records.modify n f⟩

theorem get?_add (l : Ledger α) (x : α) (n : Nat) :
    (l.add x).get? n = if n = l.nextNumber then some x else l.get? n := by
  unfold get? add nextNumber
  rw [List.getElem?_append]
  by_cases h : n < l.records.length
  · simp [h, Nat.ne_of_lt h]
  · by_cases h' : n = l.records.length
    · simp [h']
    · have : l.records.length < n := by omega
      simp [h', Nat.sub_ne_zero_of_lt this, Nat.le_of_lt this]

theorem get?_amend (l : Ledger α) (n : Nat) (f : α → α) (m : Nat) :
    (l.amend n f).get? m = if m = n then (l.get? m).map f else l.get? m := by
  unfold get? amend
  rw [List.getElem?_modify]
  by_cases h : m = n
  · simp [h]
  · have : ¬ n = m := fun x => h x.symm
    simp [h, this]

theorem lt_of_get? {l : Ledger α} {n : Nat} {x : α} (h : l.get? n = some x) : n < l.nextNumber :=
  (List.getElem?_eq_some_iff.mp h).1

end Ledger

end Tradepost
