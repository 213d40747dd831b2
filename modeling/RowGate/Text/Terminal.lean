import RowGate.Text.Utf8

/-! # What a terminal shows of a text

A terminal takes control characters and control sequences out of what it is sent. A sequence
begins with the escape character; the character after it says of what kind it is and so where
it ends. Outside of sequences the blanks among the control characters are shown. Inside of the
short kinds they are shown too, with all that comes up to the next other control character,
where the sequence goes on; a character beyond ASCII among these ends it. A main statement is
that what has been shown once is shown again as it is.
-/
namespace RowGate.Text

/-- Where a terminal stands: outside of sequences, or at some place in one. -/
inductive Terminal where
  | ground
  | escape
  | intermediate
  | control
  | deviceEntry
  | deviceParameters
  | deviceIntermediate
  | device
  | remark
  | command
  deriving DecidableEq, Repr

namespace Terminal

def isBlankControl (c : Char) : Bool := c = '\t' || c = '\n' || c = '\x0c' || c = '\r'

/-- Characters that are shown outside of sequences. -/
def isShown (c : Char) : Bool := (0x20 ≤ c.toNat && c.toNat != 0x7F) || isBlankControl c

/-- A character with the octet among its own that ends a long sequence. -/
def endsLong (c : Char) : Bool := 0x80 ≤ c.toNat && (String.utf8EncodeChar c).contains 0x9C

def afterEscape (c : Char) : Terminal :=
  if c = '[' then .control
  else if c = ']' then .command
  else if c = 'P' then .deviceEntry
  else if c = 'X' || c = '^' || c = '_' then .remark
  else if c.toNat < 0x30 then .intermediate
  else .ground

/-- The place after a printed ASCII character inside of a sequence. -/
def afterPrinted (t : Terminal) (c : Char) : Terminal :=
  match t with
  | .escape => afterEscape c
  | .intermediate => if c.toNat < 0x30 then .intermediate else .ground
  | .control => if c.toNat < 0x40 then .control else .ground
  | .deviceEntry =>
    if c.toNat < 0x30 then .deviceIntermediate
    else if c.toNat < 0x40 then .deviceParameters
    else .device
  | .deviceParameters =>
    if c.toNat < 0x30 then .deviceIntermediate
    else if c.toNat < 0x3C then .deviceParameters
    else .device
  | .deviceIntermediate => if c.toNat < 0x30 then .deviceIntermediate else .device
  | t => t

/-- Sequences that a blank control character interrupts. -/
def isShort : Terminal → Bool
  | .escape => true
  | .intermediate => true
  | .control => true
  | _ => false

/-- The place after a character that begins no run of shown ones, and whether it is shown. -/
def stepHidden (t : Terminal) (c : Char) : Terminal × Bool :=
  if c = '\x1b' then (.escape, false)
  else if c = '\x18' || c = '\x1a' then (.ground, false)
  else if t = .ground then (.ground, isShown c)
  else if t.isShort && isBlankControl c then (t, true)
  else if t = .command then (if c = '\x07' then .ground else .command, false)
  else if (t = .device || t = .remark) && endsLong c then (.ground, false)
  else if 0x20 ≤ c.toNat && c.toNat < 0x7F then (t.afterPrinted c, false)
  else (t, false)

/-- The place after a character, and whether the character is shown; behind a shown one all
that can be is. -/
def step (t : Terminal) (shown : Bool) (c : Char) : Terminal × Bool :=
  if shown && isShown c then (if c.toNat < 0x80 then t else .ground, true) else t.stepHidden c

/-- What is shown of a text that begins at some place, behind a character shown or not. -/
def showFrom (t : Terminal) (shown : Bool) : List Char → List Char
  | [] => []
  | c :: rest =>
    let (next, shown) := t.step shown c
    if shown then c :: showFrom next true rest else showFrom next false rest

end Terminal

/-- What a terminal shows of a text. -/
def visible (s : List Char) : List Char := Terminal.ground.showFrom false s

namespace Terminal

theorem isShown_of_stepHidden {t : Terminal} {c : Char} (h : (t.stepHidden c).2 = true) :
    isShown c = true := by
  unfold stepHidden at h
  split at h
  · simp at h
  · split at h
    · simp at h
    · split at h
      · exact h
      · split at h
        · next hb => simp_all [isShown]
        · split at h
          · split at h <;> simp at h
          · split at h
            · simp at h
            · split at h <;> simp at h

theorem isShown_of_step {t : Terminal} {shown : Bool} {c : Char}
    (h : (t.step shown c).2 = true) : isShown c = true := by
  unfold step at h
  split at h
  · next hs => simp_all
  · exact isShown_of_stepHidden h

theorem isShown_of_mem_showFrom {s : List Char} {t : Terminal} {shown : Bool} {c : Char}
    (h : c ∈ t.showFrom shown s) : isShown c = true := by
  induction s generalizing t shown with
  | nil => simp [showFrom] at h
  | cons d rest ih =>
    simp only [showFrom] at h
    split at h
    · next hd =>
      rcases List.mem_cons.1 h with rfl | h
      · exact isShown_of_step hd
      · exact ih h
    · exact ih h

theorem step_ground {shown : Bool} {c : Char} (h : isShown c = true) :
    step .ground shown c = (.ground, true) := by
  have h1 : c ≠ '\x1b' := by rintro rfl; revert h; decide
  have h2 : c ≠ '\x18' := by rintro rfl; revert h; decide
  have h3 : c ≠ '\x1a' := by rintro rfl; revert h; decide
  cases shown <;> simp [step, stepHidden, h1, h2, h3, h]

theorem showFrom_ground {s : List Char} {shown : Bool} (h : ∀ c ∈ s, isShown c = true) :
    ground.showFrom shown s = s := by
  induction s generalizing shown with
  | nil => rfl
  | cons c rest ih =>
    simp [showFrom, step_ground (h c (by simp)), ih (fun d hd => h d (by simp [hd]))]

end Terminal

/-- What has been shown once is shown again as it is. -/
theorem visible_visible (s : List Char) : visible (visible s) = visible s :=
  Terminal.showFrom_ground (fun _ h => Terminal.isShown_of_mem_showFrom h)

end RowGate.Text
