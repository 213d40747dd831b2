import Mathlib.Data.List.Perm.Basic
import RowGate.Log.Entry
import RowGate.Proofs.Files.Append
import RowGate.Proofs.Json.OneLine
import RowGate.Proofs.Utf8

/-! # Several writers of one log

A write call appends its octets whole, but an event takes two of them, one for its text and one
for the end of its line, and between the two other writers may have theirs. So the file consists of
whole lines just in those runs in which no event is interrupted.
-/
namespace RowGate.Log
variable {ι : Type}

abbrev Turn (ι : Type) := ι × List Char

def turnsOf (x : ι × Entry) : List (Turn ι) := x.2.pieces.map (x.1, ·)

def writeAll (path : String) (t : FileTree) (turns : List (Turn ι)) : Except FileFault FileTree :=
  turns.foldlM (fun t turn => t.append path (Utf8.encode turn.2)) t

theorem read_writeAll {path : String} {t : FileTree} {content : Octets}
    (h : t.read path = .ok content) (turns : List (Turn ι)) :
    ∃ t', writeAll path t turns = .ok t' ∧
      t'.read path = .ok (content ++ Utf8.encode (turns.flatMap (·.2))) := by
  induction turns generalizing t content with
  | nil => exact ⟨t, rfl, by simpa [Utf8.encode] using h⟩
  | cons turn turns ih =>
    obtain ⟨t₁, happend, hread⟩ := FileTree.append_read h (Utf8.encode turn.2)
    obtain ⟨t', hrest, hread'⟩ := ih hread
    refine ⟨t', ?_, ?_⟩
    · rw [writeAll, List.foldlM_cons, happend]
      exact hrest
    · rw [hread', List.flatMap_cons, Utf8.encode_append, List.append_assoc]

theorem flatMap_turnsOf (order : List (ι × Entry)) :
    (order.flatMap turnsOf).flatMap (·.2) = order.flatMap (·.2.line) := by
  induction order with
  | nil => rfl
  | cons x order ih =>
    rw [List.flatMap_cons, List.flatMap_append, ih, List.flatMap_cons]
    simp [turnsOf, Entry.line, List.flatMap_map]

/-- What is written ends with the first newline call, if the line before it has none. -/
theorem exists_split {pieces : List (List Char)} {line rest : List Char}
    (hp : ∀ p ∈ pieces, p = ['\n'] ∨ '\n' ∉ p) (hline : '\n' ∉ line)
    (h : pieces.flatten = line ++ '\n' :: rest) :
    ∃ front back, pieces = front ++ ['\n'] :: back ∧ front.flatten = line ∧
      back.flatten = rest := by
  induction pieces generalizing line with
  | nil => simp at h
  | cons p pieces ih =>
    have hp' : ∀ q ∈ pieces, q = ['\n'] ∨ '\n' ∉ q := fun q hq => hp q (List.mem_cons_of_mem p hq)
    rw [List.flatten_cons] at h
    obtain rfl | hnot := hp p List.mem_cons_self
    -- The newline call: the line is over.
    · cases line with
      | nil => exact ⟨[], pieces, rfl, rfl, by simpa using h⟩
      | cons c line =>
        obtain ⟨rfl, -⟩ : '\n' = c ∧ _ := by simpa using h
        exact absurd List.mem_cons_self hline
    -- A text: it is part of the line, which goes on in the calls behind it.
    · obtain ⟨tail, rfl, htail⟩ | ⟨tail, rfl, htail⟩ := List.append_eq_append_iff.mp h
      · obtain ⟨front, back, rfl, rfl, hback⟩ :=
          ih hp' (fun hmem => hline (List.mem_append_right p hmem)) htail
        exact ⟨p :: front, back, rfl, rfl, hback⟩
      · cases tail with
        | nil =>
          have hnext : pieces.flatten = [] ++ '\n' :: rest := by simpa using htail.symm
          obtain ⟨front, back, rfl, hfront, hback⟩ := ih hp' List.not_mem_nil hnext
          exact ⟨_ :: front, back, rfl, by simpa using hfront, hback⟩
        | cons c tail =>
          obtain ⟨rfl, -⟩ : '\n' = c ∧ _ := by simpa using htail
          exact absurd (by simp) hnot

/-- As many texts as lines are needed, and no more only if each line is one text. -/
theorem alternate_of_lines {pieces lines : List (List Char)}
    (hp : ∀ p ∈ pieces, p = ['\n'] ∨ '\n' ∉ p) (hl : ∀ l ∈ lines, l ≠ [] ∧ '\n' ∉ l)
    (h : pieces.flatten = lines.flatMap (· ++ ['\n'])) :
    2 * lines.length ≤ pieces.length ∧
      (pieces.length = 2 * lines.length → pieces = lines.flatMap fun l => [l, ['\n']]) := by
  induction lines generalizing pieces with
  | nil => exact ⟨Nat.zero_le _, fun hlen => by simpa using hlen⟩
  | cons l lines ih =>
    obtain ⟨hne, hnot⟩ := hl l List.mem_cons_self
    have hsplit : pieces.flatten = l ++ '\n' :: lines.flatMap (· ++ ['\n']) := by simpa using h
    obtain ⟨front, back, rfl, hfront, hback⟩ := exists_split hp hnot hsplit
    obtain ⟨hle, heq⟩ := ih (fun p hp' => hp p (by simp [hp']))
      (fun l' hl' => hl l' (List.mem_cons_of_mem l hl')) hback
    have hpos : 0 < front.length := by
      cases front with
      | nil => exact absurd hfront.symm hne
      | cons p front => simp
    simp only [List.length_append, List.length_cons]
    refine ⟨by omega, ?_⟩
    intro hlen
    obtain ⟨p, rfl⟩ := List.length_eq_one_iff.mp (show front.length = 1 by omega)
    obtain rfl : p = l := by simpa using hfront
    rw [heq (by omega)]
    rfl

theorem newline_notMem_text (e : Entry) : '\n' ∉ e.json.chars :=
  (Json.onOneLine_chars e.json).newline_notMem

theorem text_ne_nil (e : Entry) : e.json.chars ≠ [] := by
  simp [Entry.json, Json.chars]

variable [DecidableEq ι]

/-- Each writer makes the calls of its events in their order, and others may make theirs between. -/
def Interleaves (jobs : ι → List Entry) (turns : List (Turn ι)) : Prop :=
  ∀ i, turns.filter (·.1 = i) = (jobs i).flatMap fun e => turnsOf (i, e)

def WholeLines (jobs : ι → List Entry) (written : Octets) : Prop :=
  ∃ order : List (ι × Entry), (∀ i, ((order.filter (·.1 = i)).map (·.2)).Perm (jobs i)) ∧
    written = Utf8.encode (order.flatMap (·.2.line))

/-- No event is interrupted: its calls follow on each other. -/
def Serial (jobs : ι → List Entry) (turns : List (Turn ι)) : Prop :=
  ∃ order : List (ι × Entry), (∀ i, (order.filter (·.1 = i)).map (·.2) = jobs i) ∧
    turns = order.flatMap turnsOf

theorem Serial.wholeLines {jobs : ι → List Entry} {turns : List (Turn ι)}
    (h : Serial jobs turns) : WholeLines jobs (Utf8.encode (turns.flatMap (·.2))) := by
  obtain ⟨order, hjobs, rfl⟩ := h
  exact ⟨order, fun i => .of_eq (hjobs i), by rw [flatMap_turnsOf]⟩

theorem perm_of_filter {α : Type} [DecidableEq α] {a b : List (ι × α)}
    (h : ∀ i, (a.filter (·.1 = i)).Perm (b.filter (·.1 = i))) : a.Perm b := by
  refine List.perm_iff_count.mpr ?_
  intro x
  have hcount := (h x.1).count_eq x
  rwa [List.count_filter (by simp), List.count_filter (by simp)] at hcount

theorem filter_flatMap_turnsOf (order : List (ι × Entry)) (i : ι) :
    (order.flatMap turnsOf).filter (·.1 = i) =
      ((order.filter (·.1 = i)).map (·.2)).flatMap fun e => turnsOf (i, e) := by
  induction order with
  | nil => rfl
  | cons x order ih =>
    obtain ⟨j, e⟩ := x
    rw [List.flatMap_cons, List.filter_append, ih]
    by_cases hj : j = i
    · subst hj
      simp [turnsOf, Entry.pieces]
    · simp [turnsOf, Entry.pieces, hj]

section Runs
variable {jobs : ι → List Entry} {turns : List (Turn ι)}

/-- The first call of a writer is the text of its first event, and the next one ends the line. -/
theorem Interleaves.exists_event (h : Interleaves jobs turns) {i : ι} {text : List Char}
    {rest : List (Turn ι)} (hfirst : turns.filter (·.1 = i) = (i, text) :: rest) :
    ∃ e events, jobs i = e :: events ∧ text = e.json.chars ∧
      rest = (i, ['\n']) :: events.flatMap fun e => turnsOf (i, e) := by
  have hown := (h i).symm.trans hfirst
  cases hjobs : jobs i with
  | nil => simp [hjobs] at hown
  | cons e events =>
    rw [hjobs] at hown
    simp only [List.flatMap_cons, turnsOf, Entry.pieces, List.map_cons, List.map_nil,
      List.cons_append, List.nil_append, List.cons.injEq, Prod.mk.injEq, true_and] at hown
    exact ⟨e, events, rfl, hown.1.symm, hown.2.symm⟩

theorem Interleaves.pieces (h : Interleaves jobs turns) :
    ∀ p ∈ turns.map (·.2), p = ['\n'] ∨ '\n' ∉ p := by
  intro p hp
  obtain ⟨turn, hturn, rfl⟩ := List.mem_map.mp hp
  have hown : turn ∈ turns.filter (·.1 = turn.1) := by simp [hturn]
  rw [h turn.1, List.mem_flatMap] at hown
  obtain ⟨e, -, he⟩ := hown
  simp only [turnsOf, Entry.pieces, List.map_cons, List.map_nil, List.mem_cons, List.not_mem_nil,
    or_false] at he
  rcases he with he | he
  · exact .inr (congrArg Prod.snd he ▸ newline_notMem_text e)
  · exact .inl (congrArg Prod.snd he)

/-- A newline of another writer would be the first that it writes. -/
theorem Interleaves.same_writer {i j : ι} {text : List Char} {rest : List (Turn ι)}
    (h : Interleaves jobs ((i, text) :: (j, ['\n']) :: rest)) : j = i := by
  by_contra hji
  have hij : i ≠ j := fun hij => hji hij.symm
  have hfirst : ((i, text) :: (j, ['\n']) :: rest).filter (·.1 = j) =
      (j, ['\n']) :: rest.filter (·.1 = j) := by simp [hij]
  obtain ⟨e, events, -, htext, -⟩ := h.exists_event hfirst
  exact newline_notMem_text e (htext ▸ by simp)

/-- Behind an event the other events of its writer are left, and all events of the others. -/
theorem Interleaves.exists_rest {i : ι} {text : List Char} {rest : List (Turn ι)}
    (h : Interleaves jobs ((i, text) :: (i, ['\n']) :: rest)) :
    ∃ e events, jobs i = e :: events ∧ text = e.json.chars ∧
      Interleaves (Function.update jobs i events) rest := by
  have hfirst : ((i, text) :: (i, ['\n']) :: rest).filter (·.1 = i) =
      (i, text) :: (i, ['\n']) :: rest.filter (·.1 = i) := by simp
  obtain ⟨e, events, hjobs, rfl, hown⟩ := h.exists_event hfirst
  refine ⟨e, events, hjobs, rfl, ?_⟩
  intro k
  by_cases hk : k = i
  · subst hk
    rw [Function.update_self]
    simpa using hown
  · have hik : i ≠ k := fun hik => hk hik.symm
    rw [Function.update_of_ne hk, ← h k]
    simp [hik]

theorem Serial.cons {i : ι} {e : Entry} {events : List Entry} {rest : List (Turn ι)}
    (hjobs : jobs i = e :: events) (h : Serial (Function.update jobs i events) rest) :
    Serial jobs (turnsOf (i, e) ++ rest) := by
  obtain ⟨order, horder, rfl⟩ := h
  refine ⟨(i, e) :: order, fun k => ?_, rfl⟩
  have hkept := horder k
  by_cases hk : k = i
  · subst hk
    rw [Function.update_self] at hkept
    simp [hkept, hjobs]
  · have hik : i ≠ k := fun hik => hk hik.symm
    rw [Function.update_of_ne hk] at hkept
    simp [hik, hkept]

theorem Interleaves.serial_of_alternate {texts : List (List Char)} (h : Interleaves jobs turns)
    (halt : turns.map (·.2) = texts.flatMap fun t => [t, ['\n']]) : Serial jobs turns := by
  -- On the texts: the two calls at the front are one event of one writer, and the others go on.
  induction texts generalizing jobs turns with
  | nil =>
    obtain rfl : turns = [] := by simpa using halt
    refine ⟨[], fun i => ?_, rfl⟩
    cases hjobs : jobs i with
    | nil => rfl
    | cons e events => simpa [hjobs, turnsOf, Entry.pieces] using h i
  | cons text texts ih =>
    rcases turns with _ | ⟨⟨i, t⟩, _ | ⟨⟨j, n⟩, rest⟩⟩
    · simp at halt
    · simp at halt
    · obtain ⟨-, rfl, hrest⟩ : t = text ∧ n = ['\n'] ∧
          rest.map (·.2) = texts.flatMap fun t => [t, ['\n']] := by simpa using halt
      obtain rfl := h.same_writer
      obtain ⟨e, events, hjobs, rfl, hothers⟩ := h.exists_rest
      exact Serial.cons hjobs (ih hothers hrest)

theorem Interleaves.perm (h : Interleaves jobs turns) {order : List (ι × Entry)}
    (horder : ∀ i, ((order.filter (·.1 = i)).map (·.2)).Perm (jobs i)) :
    turns.Perm (order.flatMap turnsOf) := by
  refine perm_of_filter fun i => ?_
  rw [h i, filter_flatMap_turnsOf]
  exact ((horder i).symm.flatMap_right _)

theorem Interleaves.serial_of_wholeLines (h : Interleaves jobs turns)
    (hlines : WholeLines jobs (Utf8.encode (turns.flatMap (·.2)))) : Serial jobs turns := by
  obtain ⟨order, horder, hwritten⟩ := hlines
  have hchars : turns.flatMap (·.2) = order.flatMap (·.2.line) :=
    Except.ok.inj (by rw [← Utf8.decode_encode, hwritten, Utf8.decode_encode])
  have hlength : (turns.map (·.2)).length = 2 * (order.map (·.2.json.chars)).length := by
    rw [List.length_map, (h.perm horder).length_eq, List.length_map]
    simp [List.length_flatMap, turnsOf, Entry.pieces, Nat.mul_comm]
  have hflat : (turns.map (·.2)).flatten =
      (order.map (·.2.json.chars)).flatMap (· ++ ['\n']) := by
    rw [← List.flatMap_def, hchars]
    simp [List.flatMap_map, Entry.line, Entry.pieces]
  have htexts : ∀ l ∈ order.map (·.2.json.chars), l ≠ [] ∧ '\n' ∉ l := by
    intro l hl
    obtain ⟨x, -, rfl⟩ := List.mem_map.mp hl
    exact ⟨text_ne_nil x.2, newline_notMem_text x.2⟩
  exact h.serial_of_alternate ((alternate_of_lines h.pieces htexts hflat).2 hlength)

/-- Whatever the writers and however their calls fall between each other, all calls succeed and
what they add to the file is what they write, in their order. It consists of the lines of the events
just if no event was interrupted. -/
theorem whole_lines_iff (h : Interleaves jobs turns) {path : String} {t : FileTree}
    {content : Octets} (hfile : t.read path = .ok content) :
    ∃ t' written, writeAll path t turns = .ok t' ∧ t'.read path = .ok (content ++ written) ∧
      written = Utf8.encode (turns.flatMap (·.2)) ∧
      (WholeLines jobs written ↔ Serial jobs turns) := by
  obtain ⟨t', hwrite, hread⟩ := read_writeAll hfile turns
  exact ⟨t', _, hwrite, hread, rfl, h.serial_of_wholeLines, Serial.wholeLines⟩

end Runs

def remark (pid : Nat) (message : String) : Entry :=
  ⟨{ timestamp := "2026-01-15T10:30:00.000000Z", service := "pg2json", pid }, .info, "pg2json",
    message, []⟩

theorem whole_lines_iff_remarks :
    let jobs : Bool → List Entry := fun i => if i then [remark 2 "two"] else [remark 1 "one"]
    let turns := [(true, remark 2 "two"), (false, remark 1 "one")].flatMap turnsOf
    let t : FileTree := ⟨[(["log"], .file [])], []⟩
    Interleaves jobs turns ∧ t.read "log" = .ok [] ∧ ∃ t' written,
      writeAll "log" t turns = .ok t' ∧ t'.read "log" = .ok ([] ++ written) ∧
        WholeLines jobs written := by
  intro jobs turns t
  have hturns : Interleaves jobs turns := by
    intro i
    cases i <;> rfl
  have hfile : t.read "log" = .ok [] := by rfl
  obtain ⟨t', written, hwrite, hread, -, hiff⟩ := whole_lines_iff hturns hfile
  have hserial : Serial jobs turns := by
    refine ⟨[(true, remark 2 "two"), (false, remark 1 "one")], fun i => ?_, rfl⟩
    cases i <;> rfl
  exact ⟨hturns, hfile, t', written, hwrite, hread, hiff.mpr hserial⟩

/-- Two writers with one event each, whose texts come before both ends of their lines. -/
theorem whole_lines_broken :
    let jobs : Bool → List Entry := fun i => if i then [remark 2 "two"] else [remark 1 "one"]
    let one := (remark 1 "one").json.chars
    let two := (remark 2 "two").json.chars
    let turns := [(false, one), (true, two), (false, ['\n']), (true, ['\n'])]
    let t : FileTree := ⟨[(["log"], .file [])], []⟩
    Interleaves jobs turns ∧ t.read "log" = .ok [] ∧ ∃ t' written,
      writeAll "log" t turns = .ok t' ∧ t'.read "log" = .ok ([] ++ written) ∧
        written = Utf8.encode (one ++ two ++ ['\n', '\n']) ∧ ¬ WholeLines jobs written := by
  intro jobs one two turns t
  have hturns : Interleaves jobs turns := by
    intro i
    cases i <;> rfl
  have hfile : t.read "log" = .ok [] := by rfl
  obtain ⟨t', hwrite, hread⟩ := read_writeAll hfile turns
  have hwritten : turns.flatMap (·.2) = one ++ two ++ ['\n', '\n'] := by simp [turns]
  refine ⟨hturns, hfile, t', _, hwrite, hread, congrArg Utf8.encode hwritten, ?_⟩
  intro hlines
  obtain ⟨order, -, horder⟩ := hturns.serial_of_wholeLines hlines
  -- The second call would have to be by the writer of the first.
  cases order with
  | nil => simp [turns] at horder
  | cons x order =>
    have hsecond : (true, two) = (x.1, ['\n']) := congrArg (·.getD 1 (x.1, [])) horder
    have hfirst : (false, one) = (x.1, x.2.json.chars) := congrArg (·.getD 0 (x.1, [])) horder
    exact Bool.noConfusion
      ((congrArg Prod.fst hfirst).trans (congrArg Prod.fst hsecond).symm)

end RowGate.Log
