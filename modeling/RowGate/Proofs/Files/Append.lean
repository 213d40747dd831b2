import RowGate.Files.Tree
import RowGate.Lookup

/-! # Appending to a file

What is appended to a file stands behind what was in it, and the file is found as before: to put
other octets into a file changes neither the paths that lead to it nor what they go through.
-/
namespace RowGate.FileTree

theorem node?_put (t : FileTree) (spot k : List String) (n : FileNode) :
    (t.put spot n).node? k = if k = spot ∧ spot ≠ [] then some n else t.node? k := by
  by_cases hk : k = []
  · subst hk
    by_cases hspot : spot = []
    · simp [node?, hspot]
    · simp [node?, hspot]
  · have hlookup : (t.put spot n).nodes.lookup k = if k = spot then some n else t.nodes.lookup k :=
      lookup_replaced t.nodes spot k n
    have hempty : k.isEmpty = false := by simpa using hk
    rw [node?, node?, hempty, hlookup]
    by_cases h : k = spot
    · subst h
      simp [hk]
    · simp [h]

section Refill
variable {t : FileTree} {spot : List String} {content : Octets}

theorem ne_nil_of_node? (h : t.node? spot = some (.file content)) : spot ≠ [] := by
  rintro rfl
  simp [node?] at h

/-- With other octets in a file one goes the same ways through the tree. -/
theorem enter_refill (h : t.node? spot = some (.file content)) (octets : Octets) :
    (t.put spot (.file octets)).enter = t.enter := by
  funext place part
  by_cases hplace : place = spot
  · subst hplace
    have hnode : (t.put place (.file octets)).node? place = some (.file octets) := by
      rw [node?_put, if_pos ⟨rfl, ne_nil_of_node? h⟩]
    simp only [enter, hnode, h]
  · have hnode : (t.put spot (.file octets)).node? place = t.node? place := by
      rw [node?_put, if_neg fun hp => hplace hp.1]
    simp only [enter, hnode]

theorem locate_refill (h : t.node? spot = some (.file content)) (octets : Octets) (p : String) :
    (t.put spot (.file octets)).locate p = t.locate p := by
  unfold locate place
  rw [enter_refill h]
  rfl

end Refill

/-- What is read is the content of the file that the path leads to. -/
theorem read_eq_ok_iff {t : FileTree} {p : String} {content : Octets} :
    t.read p = .ok content ↔ ∃ spot, t.locate p = .ok spot ∧
      t.node? spot = some (.file content) ∧ Path.endsInSlash p = false := by
  unfold read find
  cases hspot : t.locate p with
  | error f => simp [bind, Except.bind]
  | ok spot =>
    cases hnode : t.node? spot with
    | none => simp [bind, Except.bind, hnode]
    | some n =>
      cases n with
      | directory => simp [bind, Except.bind, hnode]
      | file c =>
        by_cases hslash : Path.endsInSlash p = true
        · simp [bind, Except.bind, hnode, hslash]
        · simp [bind, Except.bind, hnode, hslash]

/-- A file that can be read can be appended to, and then has the octets at its end. -/
theorem append_read {t : FileTree} {p : String} {content : Octets} (h : t.read p = .ok content)
    (octets : Octets) :
    ∃ t', t.append p octets = .ok t' ∧ t'.read p = .ok (content ++ octets) := by
  obtain ⟨spot, hspot, hnode, hslash⟩ := read_eq_ok_iff.mp h
  refine ⟨t.put spot (.file (content ++ octets)), ?_, ?_⟩
  · simp [append, h, hspot, bind, Except.bind]
  · have hplace : (t.put spot (.file (content ++ octets))).locate p = .ok spot :=
      (locate_refill hnode _ p).trans hspot
    refine read_eq_ok_iff.mpr ⟨spot, hplace, ?_, hslash⟩
    rw [node?_put, if_pos ⟨rfl, ne_nil_of_node? hnode⟩]

end RowGate.FileTree
