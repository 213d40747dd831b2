import Mathlib.Data.List.Flatten
import RowGate.Proofs.Files.Append
import RowGate.Proofs.Files.Path
import RowGate.Proofs.Outcome

/-! # Opening a log

To open a file for appending adds empty directories and at most one empty file to a tree, whether it
succeeds or not, and nothing that was there is changed. When it succeeds the file can be read and
written, and to open it once more changes nothing at all.
-/
namespace RowGate.FileTree
variable {t t' u : FileTree}

/-- Whatever was in a tree is in it still, and what was added is empty. -/
structure Grows (t t' : FileTree) : Prop where
  here : t'.here = t.here
  kept : ∀ {spot n}, t.node? spot = some n → t'.node? spot = some n
  added : ∀ {spot n}, t.node? spot = none → t'.node? spot = some n → n = .directory ∨ n = .file []

theorem Grows.refl (t : FileTree) : t.Grows t :=
  ⟨rfl, id, fun hnone hsome => absurd (hnone.symm.trans hsome) nofun⟩

theorem Grows.trans (h : t.Grows t') (h' : t'.Grows u) : t.Grows u := by
  refine ⟨h'.here.trans h.here, fun hn => h'.kept (h.kept hn), ?_⟩
  intro spot n hnone hsome
  cases hnode : t'.node? spot with
  | none => exact h'.added hnode hsome
  | some n' =>
    have hsame : some n' = some n := (h'.kept hnode).symm.trans hsome
    exact h.added hnone (hnode.trans hsame)

theorem grows_put {spot : List String} {n : FileNode} (hnone : t.node? spot = none)
    (hn : n = .directory ∨ n = .file []) : t.Grows (t.put spot n) := by
  refine ⟨rfl, ?_, ?_⟩
  · intro k m hm
    rw [node?_put, if_neg, hm]
    rintro ⟨rfl, -⟩
    cases hnone.symm.trans hm
  · intro k m hk hm
    rw [node?_put] at hm
    split at hm
    · cases hm
      exact hn
    · cases hk.symm.trans hm

/-- Ways through a tree go through it still. -/
theorem Grows.enter (h : t.Grows t') {place spot : List String} {part : String}
    (hspot : t.enter place part = .ok spot) : t'.enter place part = .ok spot := by
  rw [FileTree.enter] at hspot ⊢
  split at hspot
  · cases hspot
  · cases hspot
  · next hnode => rwa [h.kept hnode]

theorem Grows.place (h : t.Grows t') {start spot : List String} {parts : List String}
    (hspot : t.place start parts = .ok spot) : t'.place start parts = .ok spot := by
  rw [FileTree.place] at hspot ⊢
  induction parts generalizing start with
  | nil => exact hspot
  | cons part parts ih =>
    rw [List.foldlM_cons] at hspot ⊢
    obtain ⟨next, hnext, hrest⟩ := bind_eq_ok_iff.mp hspot
    exact bind_eq_ok_iff.mpr ⟨next, h.enter hnext, ih hrest⟩

theorem Grows.locate (h : t.Grows t') {p : String} {spot : List String}
    (hspot : t.locate p = .ok spot) : t'.locate p = .ok spot := by
  obtain ⟨⟨⟩, haccept, hplace⟩ := bind_eq_ok_iff.mp hspot
  refine bind_eq_ok_iff.mpr ⟨_, haccept, ?_⟩
  rw [h.here]
  exact h.place hplace

/-- What could be read is read as before. -/
theorem Grows.read (h : t.Grows t') {p : String} {content : Octets}
    (hread : t.read p = .ok content) : t'.read p = .ok content := by
  obtain ⟨spot, hspot, hnode, hslash⟩ := read_eq_ok_iff.mp hread
  exact read_eq_ok_iff.mpr ⟨spot, h.locate hspot, h.kept hnode, hslash⟩

theorem grows_of_makeDirectory {p : String} (h : t.makeDirectory p = .ok t') : t.Grows t' := by
  obtain ⟨spot, -, h⟩ := bind_eq_ok_iff.mp h
  split at h
  · cases h
  · split at h
    · cases h
    · next hnone =>
      cases h
      exact grows_put hnone (.inl rfl)

/-- What can be opened for appending does not end in dots, and a file is there afterwards. -/
theorem openAppend_cases {p : String} (h : t.openAppend p = .ok t') :
    endsInDots p = false ∧ Path.endsInSlash p = false ∧ ∃ spot content,
      t.locate p = .ok spot ∧ t'.node? spot = some (.file content) ∧
        (t' = t ∨ t.node? spot = none ∧ t' = t.put spot (.file [])) := by
  rw [openAppend] at h
  split at h
  · obtain ⟨-, -, h⟩ := bind_eq_ok_iff.mp h
    cases h
  · next hend =>
    obtain ⟨hdots, hslash⟩ := not_or.mp fun hor => hend (Bool.or_eq_true_iff.mpr hor)
    refine ⟨Bool.eq_false_iff.mpr hdots, Bool.eq_false_iff.mpr hslash, ?_⟩
    obtain ⟨spot, hspot, h⟩ := bind_eq_ok_iff.mp h
    split at h
    · cases h
    · next content hnode =>
      cases h
      exact ⟨spot, content, hspot, hnode, .inl rfl⟩
    · next hnone =>
      cases h
      refine ⟨spot, [], hspot, ?_, .inr ⟨hnone, rfl⟩⟩
      rw [node?_put, if_pos]
      refine ⟨rfl, ?_⟩
      rintro rfl
      cases hnone

theorem grows_of_openAppend {p : String} (h : t.openAppend p = .ok t') : t.Grows t' := by
  obtain ⟨-, -, spot, content, -, -, rfl | ⟨hnone, rfl⟩⟩ := openAppend_cases h
  · exact .refl t'
  · exact grows_put hnone (.inr rfl)

def Growing {α : Type} (x : StateM FileTree α) : Prop :=
  ∀ t : FileTree, t.Grows (x t).2

section Growing
variable {α β : Type} {x : StateM FileTree α} {f : α → StateM FileTree β}

theorem growing_pure (a : α) : Growing (pure a) := Grows.refl

theorem Growing.bind (hx : Growing x) (hf : ∀ a, Growing (f a)) : Growing (x >>= f) :=
  fun t => (hx t).trans (hf _ _)

theorem growing_change {f : FileTree → Except FileFault FileTree}
    (h : ∀ {t t' : FileTree}, f t = .ok t' → t.Grows t') : Growing (change f) := by
  intro t
  rw [change]
  split
  · next hok => exact h hok
  · exact .refl t

theorem growing_isDirectory (p : String) : Growing (system.isDirectory p) := Grows.refl

/-- The paths of a list are made from the last to the first, some of them twice. -/
theorem growing_makePath (ps : List String) : Growing (system.makePath ps) := by
  have hmake : ∀ p, Growing (system.makeDirectory p) :=
    fun p => growing_change grows_of_makeDirectory
  have hsettled : ∀ p (e : FileFault), Growing (do
      if ← system.isDirectory p then pure (Except.ok ()) else pure (Except.error e)) := by
    intro p e
    apply (growing_isDirectory p).bind
    intro isDirectory
    cases isDirectory <;> exact growing_pure _
  induction ps with
  | nil => exact growing_pure _
  | cons p parents ih =>
    rw [FileSystem.makePath]
    apply (hmake p).bind
    intro made
    split
    · exact growing_pure _
    · apply ih.bind
      intro above
      split
      · exact growing_pure _
      · apply (hmake p).bind
        intro again
        split
        · exact growing_pure _
        · exact hsettled p _
    · exact hsettled p _

theorem growing_makeDirectories (p : String) : Growing (system.makeDirectories p) := by
  rw [FileSystem.makeDirectories]
  split
  · exact growing_pure _
  · exact growing_makePath _

theorem growing_openLog (p : String) : Growing (system.openLog p) := by
  have hopen : Growing (system.openAppend p) := growing_change grows_of_openAppend
  rw [FileSystem.openLog]
  split
  · exact hopen
  · apply (growing_makeDirectories _).bind
    intro made
    split
    · exact growing_pure _
    · exact hopen

end Growing

section Opening
variable {p : String}

theorem change_of_ok {f : FileTree → Except FileFault FileTree} (h : f t = .ok t') :
    change f t = (.ok (), t') := by
  rw [change, h]

theorem change_of_error {f : FileTree → Except FileFault FileTree} {e : FileFault}
    (h : f t = .error e) : change f t = (.error e, t) := by
  rw [change, h]

theorem eq_ok_of_change {f : FileTree → Except FileFault FileTree}
    (h : change f t = (.ok (), t')) : f t = .ok t' := by
  cases hf : f t with
  | ok u =>
    rw [change_of_ok hf] at h
    cases h
    rfl
  | error e =>
    rw [change_of_error hf] at h
    cases h

theorem bind_run {α β : Type} (x : StateM FileTree α) (f : α → StateM FileTree β) (t : FileTree) :
    (x >>= f) t = f (x t).1 (x t).2 := rfl

theorem openLog_of_orphan (h : Path.parent? p = none) :
    system.openLog p t = change (·.openAppend p) t := by
  rw [FileSystem.openLog]
  simp only [h]
  rfl

theorem openLog_of_parent {dir : String} (h : Path.parent? p = some dir)
    (hmade : system.makeDirectories dir t = (.ok (), u)) :
    system.openLog p t = change (·.openAppend p) u := by
  rw [FileSystem.openLog]
  simp only [h]
  rw [bind_run, hmade]
  rfl

theorem openLog_of_fault {dir : String} {e : FileFault} (h : Path.parent? p = some dir)
    (hmade : system.makeDirectories dir t = (.error e, u)) :
    system.openLog p t = (.error e, u) := by
  rw [FileSystem.openLog]
  simp only [h]
  rw [bind_run, hmade]
  rfl

/-- An open that succeeds ends with the opening of the file. -/
theorem openAppend_of_openLog (h : system.openLog p t = (.ok (), t')) :
    ∃ u : FileTree, u.openAppend p = .ok t' := by
  cases hparent : Path.parent? p with
  | none =>
    rw [openLog_of_orphan hparent] at h
    exact ⟨t, eq_ok_of_change h⟩
  | some dir =>
    rcases hmade : system.makeDirectories dir t with ⟨_ | ⟨⟨⟩⟩, u⟩
    · rw [openLog_of_fault hparent hmade] at h
      cases h
    · rw [openLog_of_parent hparent hmade] at h
      exact ⟨u, eq_ok_of_change h⟩

/-- Single dots in a path lead nowhere. -/
theorem place_steps {start spot : List String} {parts : List String}
    (h : t.place start parts = .ok spot) : t.place start (parts.filter (· != ".")) = .ok spot := by
  rw [place] at h ⊢
  induction parts generalizing start with
  | nil => exact h
  | cons part parts ih =>
    rw [List.foldlM_cons] at h
    obtain ⟨next, hnext, hrest⟩ := bind_eq_ok_iff.mp h
    by_cases hdot : part = "."
    · rw [List.filter_cons_of_neg (by simp [hdot])]
      have hstay : next = start := by
        subst hdot
        rw [enter] at hnext
        split at hnext
        · cases hnext
        · cases hnext
        · rw [if_pos rfl] at hnext
          cases hnext
          rfl
      rw [← hstay]
      exact ih hrest
    · rw [List.filter_cons_of_pos (by simp [hdot]), List.foldlM_cons]
      exact bind_eq_ok_iff.mpr ⟨next, hnext, ih hrest⟩

/-- One comes to a place from a directory. -/
theorem place_dropLast {start spot : List String} {parts : List String} (hne : parts ≠ [])
    (h : t.place start parts = .ok spot) :
    ∃ dir, t.place start parts.dropLast = .ok dir ∧ t.node? dir = some .directory := by
  rw [place, ← List.dropLast_append_getLast hne, List.foldlM_append] at h
  obtain ⟨dir, hdir, hlast⟩ := bind_eq_ok_iff.mp h
  refine ⟨dir, hdir, ?_⟩
  rw [List.foldlM_cons] at hlast
  obtain ⟨next, hnext, -⟩ := bind_eq_ok_iff.mp hlast
  rw [enter] at hnext
  split at hnext
  · cases hnext
  · cases hnext
  · next hnode => exact hnode

theorem acceptable_of_sublist {q : String} (hne : q.toList ≠ []) (h : q.toList.Sublist p.toList)
    (hp : acceptable p = .ok ()) : acceptable q = .ok () := by
  have hoctets : (Utf8.octets q).length ≤ (Utf8.octets p).length :=
    (h.flatMap String.utf8EncodeChar).length_le
  rw [acceptable] at hp ⊢
  split at hp
  · cases hp
  split at hp
  · cases hp
  · next hnul =>
    split at hp
    · cases hp
    · next hlong =>
      rw [if_neg, if_neg, if_neg]
      · omega
      · intro hq
        obtain ⟨c, hc, hzero⟩ := List.any_eq_true.mp hq
        exact hnul (List.any_eq_true.mpr ⟨c, h.mem hc, hzero⟩)
      · rw [String.isEmpty_iff]
        rintro rfl
        exact hne rfl

/-- A directory is there already. -/
theorem makeDirectories_of_directory {dir : String} {spot : List String}
    (hspot : t.locate dir = .ok spot) (hnode : t.node? spot = some .directory) :
    system.makeDirectories dir t = (.ok (), t) := by
  have hmake : t.makeDirectory dir = .error .alreadyExists := by
    simp only [makeDirectory, hspot, bind, Except.bind, hnode]
    split <;> rfl
  have hthere : t.isDirectory dir = true := by
    simp only [isDirectory, find, hspot, bind, Except.bind, hnode]
  have hrun : system.makeDirectory dir t = (.error .alreadyExists, t) :=
    change_of_error (f := (·.makeDirectory dir)) hmake
  rw [FileSystem.makeDirectories]
  split
  · rfl
  · rw [FileSystem.makePath, bind_run, hrun]
    change ((if t.isDirectory dir then pure (.ok ()) else pure (.error .alreadyExists)) :
      StateM FileTree (Except FileFault Unit)) t = _
    rw [if_pos hthere]
    rfl

/-- To open a file that can be read changes nothing, unless its path ends in dots. -/
theorem openLog_of_read {content : Octets} (hread : t.read p = .ok content)
    (hdots : endsInDots p = false) : system.openLog p t = (.ok (), t) := by
  obtain ⟨spot, hspot, hnode, hslash⟩ := read_eq_ok_iff.mp hread
  have hopen : t.openAppend p = .ok t := by
    rw [openAppend, hdots, hslash, Bool.or_false, if_neg Bool.false_ne_true]
    simp only [hspot, bind, Except.bind, hnode]
  have hrun : change (·.openAppend p) t = (.ok (), t) := change_of_ok hopen
  rcases Path.parents_cases p with hnone | ⟨rest, hparents, hne⟩
  · rw [openLog_of_orphan (by rw [Path.parent?, hnone]; rfl), hrun]
  · have hparent : Path.parent? p =
        some (Path.ofParts (Path.isAbsolute p) (Path.steps p).dropLast) := by
      rw [Path.parent?, hparents]
      rfl
    obtain ⟨⟨⟩, haccept, hplace⟩ := bind_eq_ok_iff.mp hspot
    have hsteps : Path.steps p ≠ [] := by
      rintro hnil
      rw [hnil] at hne
      exact hne rfl
    obtain ⟨dir, hdir, hdirectory⟩ := place_dropLast hsteps (place_steps hplace)
    have hparts : ∀ q ∈ (Path.steps p).dropLast, Path.IsPart q :=
      fun q hq => Path.isPart_of_mem_parts ((Path.steps_sublist p).mem hq)
    have hlocate : t.locate (Path.ofParts (Path.isAbsolute p) (Path.steps p).dropLast) =
        .ok dir := by
      refine bind_eq_ok_iff.mpr ⟨(), ?_, ?_⟩
      · refine acceptable_of_sublist ?_ (Path.ofParts_sublist (Path.steps_sublist p)) haccept
        rw [Path.toList_ofParts]
        exact List.append_ne_nil_of_right_ne_nil _ (Path.joined_ne_nil hparts hne)
      · rw [Path.parts_ofParts hparts, Path.isAbsolute_ofParts hparts hne]
        exact hdir
    rw [openLog_of_parent hparent (makeDirectories_of_directory hlocate hdirectory), hrun]

def contentAt (t : FileTree) (spot : List String) : Octets :=
  match t.node? spot with
  | some (.file content) => content
  | _ => []

/-- After an open that succeeds the file holds what was in its place before, whatever else was
made, and to open it again changes nothing. -/
theorem openLog_spec (h : system.openLog p t = (.ok (), t')) :
    t.Grows t' ∧ endsInDots p = false ∧
      ∃ spot, t'.locate p = .ok spot ∧ t'.read p = .ok (t.contentAt spot) := by
  obtain ⟨u, hopen⟩ := openAppend_of_openLog h
  have hall : t.Grows t' := by
    have hgrows := growing_openLog p t
    rwa [h] at hgrows
  obtain ⟨hdots, hslash, spot, content, hspot, hnode, -⟩ := openAppend_cases hopen
  have hspot' := (grows_of_openAppend hopen).locate hspot
  have hcontent : t.contentAt spot = content := by
    rw [contentAt]
    cases hbefore : t.node? spot with
    | none =>
      rcases hall.added hbefore hnode with hn | hn
      · cases hn
      · cases hn
        rfl
    | some n =>
      have hsame : some n = some (.file content) := (hall.kept hbefore).symm.trans hnode
      cases hsame
      rfl
  refine ⟨hall, hdots, spot, hspot', ?_⟩
  rw [hcontent]
  exact read_eq_ok_iff.mpr ⟨spot, hspot', hnode, hslash⟩

end Opening

end RowGate.FileTree
