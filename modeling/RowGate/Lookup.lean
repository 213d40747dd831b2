/-! # Lists of entries under keys

A list of entries serves as a table: the first entry of a key counts. An entry is replaced by
leaving out all entries of its key and putting the new one in front.
-/
namespace RowGate
variable {α β : Type} [BEq α] [LawfulBEq α] [DecidableEq α]

/-- Without the entries of a key there is nothing under it, and the same as before under others. -/
theorem lookup_filter_ne (l : List (α × β)) (key k : α) :
    (l.filter (fun e => e.1 != key)).lookup k = if k = key then none else l.lookup k := by
  induction l with
  | nil => simp
  | cons e l ih =>
    obtain ⟨a, v⟩ := e
    by_cases h : a = key
    · subst h
      by_cases hk : k = a
      · subst hk; simpa using ih
      · have hne : (k == a) = false := by simpa using hk
        simp [List.lookup_cons, hne, ih, hk]
    · have hne : (a != key) = true := by simpa using h
      rw [List.filter_cons_of_pos (by simpa using hne)]
      by_cases hk : k = a
      · subst hk; simp [h]
      · have hka : (k == a) = false := by simpa using hk
        simp [List.lookup_cons, hka, ih]

theorem lookup_replaced (l : List (α × β)) (key k : α) (v : β) :
    ((key, v) :: l.filter (fun e => e.1 != key)).lookup k =
      if k = key then some v else l.lookup k := by
  by_cases h : k = key
  · simp [h]
  · have hk : (k == key) = false := by simpa using h
    rw [List.lookup_cons, hk, lookup_filter_ne, if_neg h, if_neg h]

end RowGate
