import RowGate.Text.Range

/-! # Blank characters and trimming

A character is blank when it has the White_Space property. Trimming removes the
blank characters at both ends and keeps those in between.
-/
namespace RowGate.Text

def blankRanges : List CodeRange :=
  [(0x09, 0x0D), (0x20, 0x20), (0x85, 0x85), (0xA0, 0xA0), (0x1680, 0x1680), (0x2000, 0x200A),
   (0x2028, 0x2029), (0x202F, 0x202F), (0x205F, 0x205F), (0x3000, 0x3000)]

def isBlank (c : Char) : Bool := inRanges blankRanges c

def trimStart (s : List Char) : List Char := s.dropWhile isBlank
def trimEnd (s : List Char) : List Char := (s.reverse.dropWhile isBlank).reverse
def trimmed (s : List Char) : List Char := trimEnd (trimStart s)

def trim (s : String) : String := String.ofList (trimmed s.toList)

/-- A text of blank characters only, the empty one included. -/
def isBlankText (s : String) : Bool := s.toList.all isBlank

theorem trimStart_append_of_blank {w : List Char} (h : ∀ c ∈ w, isBlank c = true) (s : List Char) :
    trimStart (w ++ s) = trimStart s := by
  induction w with
  | nil => rfl
  | cons a w ih =>
    have ha := h a (by simp)
    have hw := ih (fun c hc => h c (by simp [hc]))
    simpa [trimStart, List.dropWhile_cons, ha] using hw

theorem trimEnd_append_of_blank {w : List Char} (h : ∀ c ∈ w, isBlank c = true) (s : List Char) :
    trimEnd (s ++ w) = trimEnd s := by
  have := trimStart_append_of_blank (w := w.reverse) (by simpa using h) s.reverse
  simp only [trimStart] at this
  simp [trimEnd, this]

theorem trimStart_of_head {s : List Char} (h : ∀ c ∈ s.head?, isBlank c = false) :
    trimStart s = s := by
  cases s with
  | nil => rfl
  | cons c s => exact List.dropWhile_cons_of_neg (by simp [h c rfl])

theorem trimEnd_of_getLast {s : List Char} (h : ∀ c ∈ s.getLast?, isBlank c = false) :
    trimEnd s = s := by
  have hr := trimStart_of_head (s := s.reverse) (by rwa [List.head?_reverse])
  rw [trimStart] at hr
  rw [trimEnd, hr, List.reverse_reverse]

/-- Blanks fall away around a text that neither starts nor ends with one. -/
theorem trimmed_of_ends {before s after : List Char} (hb : ∀ c ∈ before, isBlank c = true)
    (ha : ∀ c ∈ after, isBlank c = true) (hhead : ∀ c ∈ s.head?, isBlank c = false)
    (hlast : ∀ c ∈ s.getLast?, isBlank c = false) : trimmed (before ++ s ++ after) = s := by
  cases s with
  | nil =>
    rw [List.append_nil, trimmed, trimStart_append_of_blank hb, ← List.append_nil after,
      trimStart_append_of_blank ha]
    rfl
  | cons c s =>
    have hc : trimStart (c :: s ++ after) = c :: s ++ after := trimStart_of_head hhead
    rw [trimmed, List.append_assoc, trimStart_append_of_blank hb, hc, trimEnd_append_of_blank ha,
      trimEnd_of_getLast hlast]

end RowGate.Text
