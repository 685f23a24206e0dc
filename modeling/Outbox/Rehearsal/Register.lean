-- A small register of things under names. A name stands for one thing at a
-- time: the one that was inserted last.

namespace Outbox.Rehearsal

structure Register (κ α : Type) where
  entries : List (κ × α) := []

namespace Register

variable {κ α : Type} [DecidableEq κ]

def get? (r : Register κ α) (k : κ) : Option α := r.entries.lookup k

/-- Leaves the name free. -/
def erase (r : Register κ α) (k : κ) : Register κ α := ⟨r.entries.filter fun e => e.1 ≠ k⟩

def insert (r : Register κ α) (k : κ) (a : α) : Register κ α :=
  ⟨(k, a) :: (r.erase k).entries⟩

def ofList (entries : List (κ × α)) : Register κ α :=
  entries.foldl (fun r e => r.insert e.1 e.2) {}

def values (r : Register κ α) : List α := r.entries.map (·.2)

/-! ## What can be found -/

@[simp] theorem get?_insert_self (r : Register κ α) (k : κ) (a : α) :
    (r.insert k a).get? k = some a := by
  simp [insert, get?]

theorem lookup_filter_ne (l : List (κ × α)) {j k : κ} (h : j ≠ k) :
    (l.filter fun e => e.1 ≠ k).lookup j = l.lookup j := by
  induction l with
  | nil => rfl
  | cons e rest ih =>
    obtain ⟨i, a⟩ := e
    by_cases hi : i = k
    · have hj : (j == k) = false := beq_false_of_ne h
      rw [List.filter_cons_of_neg (by simp [hi]), List.lookup_cons, hi, hj]
      exact ih
    · rw [List.filter_cons_of_pos (by simpa using hi), List.lookup_cons, List.lookup_cons, ih]

theorem get?_erase_of_ne (r : Register κ α) {j k : κ} (h : j ≠ k) :
    (r.erase k).get? j = r.get? j := lookup_filter_ne r.entries h

theorem get?_insert_of_ne (r : Register κ α) {j k : κ} (a : α) (h : j ≠ k) :
    (r.insert k a).get? j = r.get? j := by
  have hj : (j == k) = false := beq_false_of_ne h
  have hl := lookup_filter_ne r.entries h
  simpa [get?, insert, erase, List.lookup_cons, hj] using hl

end Register

end Outbox.Rehearsal
