import Mathlib.Data.String.Basic
import RowGate.Log.Entry
import RowGate.Proofs.Text

/-! # What an event leaves in its entry

The fields of an event are collected one after the other, and each recording of a name takes the
place of an earlier one. So an entry has for each name what was recorded last under it, sorted by
name, and the last text recorded as the message. A name that speaks of a secret leaves the same in
the entry whatever is recorded under it.
-/
namespace RowGate.Log

section Sorted
variable {name k : String} {value : Json} {l : List (String × Json)}

def Sorted (l : List (String × Json)) : Prop := l.Pairwise fun a b => a.1 < b.1

theorem Sorted.nodup (h : Sorted l) : (l.map (·.1)).Nodup := by
  rw [List.Nodup, List.pairwise_map]
  exact h.imp ne_of_lt

theorem mem_of_mem_insertField {m : String × Json} (h : m ∈ insertField name value l) :
    m = (name, value) ∨ m ∈ l := by
  induction l with
  | nil => exact .inl (List.mem_singleton.mp h)
  | cons m' l ih =>
    obtain ⟨k, v⟩ := m'
    rw [insertField] at h
    split at h
    · rcases List.mem_cons.mp h with rfl | hl
      · exact .inl rfl
      · exact .inr (List.mem_cons_of_mem _ hl)
    split at h
    · rcases List.mem_cons.mp h with rfl | hl
      · exact .inl rfl
      · exact .inr hl
    · rcases List.mem_cons.mp h with rfl | hl
      · exact .inr List.mem_cons_self
      · exact (ih hl).imp_right (List.mem_cons_of_mem _)

theorem Sorted.insertField (h : Sorted l) (name : String) (value : Json) :
    Sorted (insertField name value l) := by
  induction l with
  | nil => exact List.pairwise_singleton _ _
  | cons m l ih =>
    obtain ⟨k, v⟩ := m
    obtain ⟨hk, hl⟩ := List.pairwise_cons.mp h
    rw [Log.insertField]
    split
    · next heq =>
      subst heq
      exact List.pairwise_cons.mpr ⟨hk, hl⟩
    split
    · next hlt =>
      refine List.pairwise_cons.mpr ⟨fun m hm => ?_, h⟩
      rcases List.mem_cons.mp hm with rfl | hm
      · exact hlt
      · exact hlt.trans (hk m hm)
    · next hne hlt =>
      have hgt : k < name := lt_of_le_of_ne (not_lt.mp hlt) (Ne.symm hne)
      refine List.pairwise_cons.mpr ⟨fun m hm => ?_, ih hl⟩
      rcases mem_of_mem_insertField hm with rfl | hm
      · exact hgt
      · exact hk m hm

/-- Wherever it is put, a value is found under its name, and all others as before. -/
theorem lookup_insertField :
    (insertField name value l).lookup k = if k = name then some value else l.lookup k := by
  by_cases hk : k = name
  · subst hk
    rw [if_pos rfl]
    induction l with
    | nil => rw [insertField, List.lookup_cons_self]
    | cons m l ih =>
      obtain ⟨k', v⟩ := m
      rw [insertField]
      split
      · rw [List.lookup_cons_self]
      split
      · rw [List.lookup_cons_self]
      · next hne _ => rw [List.lookup_cons, beq_false_of_ne hne, ih]
  · have hother : (k == name) = false := beq_false_of_ne hk
    rw [if_neg hk]
    induction l with
    | nil => rw [insertField, List.lookup_cons, hother]
    | cons m l ih =>
      obtain ⟨k', v⟩ := m
      rw [insertField]
      split
      · next heq =>
        subst heq
        rw [List.lookup_cons, List.lookup_cons, hother]
      split
      · rw [List.lookup_cons, hother]
      · rw [List.lookup_cons, List.lookup_cons, ih]

end Sorted

/-- A name with one of four words in it, in ASCII letters of any case. -/
def IsSecret (name : String) : Prop :=
  ∃ word ∈ ["password", "secret", "ciphertext", "token"],
    word.toList <:+: name.toList.map Char.toLower

theorem isSensitive_iff {name : String} : isSensitive name = true ↔ IsSecret name := by
  rw [isSensitive, List.any_eq_true]
  simp only [Text.occursIn_iff, Text.lowerAscii, sensitiveMarkers, IsSecret, List.mem_cons,
    List.not_mem_nil, or_false, exists_eq_or_imp, exists_eq_left]

/-- What a value of each type is in an entry: texts stay texts, integers numbers and flags truth
values; a double without digits is told by its name. -/
inductive Renders : Recorded → Json → Prop where
  | shown (s : String) : Renders (.shown s) (.string s)
  | text (s : String) : Renders (.text s) (.string s)
  | fault (s : String) : Renders (.fault s) (.string s)
  | signed (n : Nat) : Renders (.signed n) (.number (.natural n))
  | below (n : Nat) : Renders (.signed (Int.negSucc n)) (.number (.negative (n + 1)))
  | unsigned (n : Nat) : Renders (.unsigned n) (.number (.natural n))
  | flag (b : Bool) : Renders (.flag b) (.boolean b)
  | finite (negative : Bool) (m : Nat) (e : Int) : Renders (.double (.finite negative m e))
      (.number (.double (.finite negative m e)))
  | infinite : Renders (.double (.infinite false)) (.string "inf")
  | infinitelyLow : Renders (.double (.infinite true)) (.string "-inf")
  | indeterminate : Renders (.double .nan) (.string "NaN")

theorem renders_iff {r : Recorded} {v : Json} : Renders r v ↔ v = r.json := by
  constructor
  · rintro (_ | _) <;> rfl
  · rintro rfl
    cases r with
    | shown s => exact .shown s
    | text s => exact .text s
    | fault s => exact .fault s
    | signed i =>
      cases i with
      | ofNat n => exact .signed n
      | negSucc n => exact .below n
    | unsigned n => exact .unsigned n
    | flag b => exact .flag b
    | double d =>
      cases d with
      | finite negative m e => exact .finite negative m e
      | infinite negative =>
        cases negative with
        | false => exact .infinite
        | true => exact .infinitelyLow
      | nan => exact .indeterminate

inductive Keeps (name : String) (r : Recorded) : Json → Prop where
  | secret (h : IsSecret name) : Keeps name r (.string "[redacted]")
  | plain {v : Json} (h : ¬ IsSecret name) (hv : Renders r v) : Keeps name r v

theorem keeps_iff {name : String} {r : Recorded} {v : Json} :
    Keeps name r v ↔ v = if isSensitive name then .string redacted else r.json := by
  constructor
  · rintro (h | ⟨h, hv⟩)
    · rw [if_pos (isSensitive_iff.mpr h)]
      rfl
    · rw [if_neg fun hs => h (isSensitive_iff.mp hs)]
      exact renders_iff.mp hv
  · rintro rfl
    split
    · next h => exact .secret (isSensitive_iff.mp h)
    · next h => exact .plain (fun hs => h (isSensitive_iff.mpr hs)) (renders_iff.mpr rfl)

inductive Says : Field → String → Prop where
  | shown (m : String) : Says ("message", .shown m) m
  | text (m : String) : Says ("message", .text m) m

def IsField (f : Field) : Prop := ∀ m, ¬ Says f m

section Collect
variable {c : Collected} {f : Field} {m : String}

theorem says_iff : Says f m ↔ (if f.1 = messageName then f.2.message? else none) = some m := by
  obtain ⟨name, r⟩ := f
  constructor
  · rintro (_ | _) <;> rfl
  · intro h
    split at h
    · next hname =>
      obtain rfl : name = "message" := hname
      cases r with
      | shown s =>
        cases h
        exact .shown m
      | text s =>
        cases h
        exact .text m
      | _ => cases h
    · cases h

theorem isField_iff : IsField f ↔ (if f.1 = messageName then f.2.message? else none) = none := by
  simp only [IsField, says_iff, Option.eq_none_iff_forall_ne_some, ne_eq]

theorem Says.unique {m' : String} (h : Says f m) (h' : Says f m') : m = m' :=
  Option.some.inj ((says_iff.mp h).symm.trans (says_iff.mp h'))

theorem collect_of_says (h : Says f m) : collect c f = { c with message := some m } := by
  rw [collect, says_iff.mp h]

theorem collect_of_isField {v : Json} (h : IsField f) (hv : Keeps f.1 f.2 v) :
    collect c f = { c with fields := insertField f.1 v c.fields } := by
  rw [collect, isField_iff.mp h, keeps_iff.mp hv]

theorem exists_keeps (name : String) (r : Recorded) : ∃ v, Keeps name r v :=
  ⟨_, keeps_iff.mpr rfl⟩

end Collect

def LastOf {α : Type} (p : α → Prop) (l : List α) (a : α) : Prop :=
  ∃ before after, l = before ++ a :: after ∧ p a ∧ ∀ b ∈ after, ¬ p b

theorem lastOf_nil_iff {α : Type} {p : α → Prop} {a : α} : LastOf p [] a ↔ False := by
  refine iff_of_false ?_ not_false
  rintro ⟨before, after, h, -⟩
  exact List.append_ne_nil_of_right_ne_nil before (List.cons_ne_nil a after) h.symm

theorem lastOf_append_singleton_iff {α : Type} {p : α → Prop} {l : List α} {x a : α} :
    LastOf p (l ++ [x]) a ↔ (p x ∧ a = x) ∨ (¬ p x ∧ LastOf p l a) := by
  constructor
  · rintro ⟨before, after, h, ha, hafter⟩
    induction after using List.reverseRecOn with
    | nil =>
      obtain ⟨-, hlast⟩ := List.append_inj' h rfl
      obtain rfl := List.singleton_inj.mp hlast
      exact .inl ⟨ha, rfl⟩
    | append_singleton after y _ =>
      rw [← List.cons_append, ← List.append_assoc] at h
      obtain ⟨hfront, hlast⟩ := List.append_inj' h rfl
      obtain rfl := List.singleton_inj.mp hlast
      refine .inr ⟨hafter x (List.mem_append_right _ List.mem_cons_self), before, after, hfront, ha,
        fun b hb => hafter b (List.mem_append_left _ hb)⟩
  · rintro (⟨hx, rfl⟩ | ⟨hx, before, after, rfl, ha, hafter⟩)
    · exact ⟨l, [], rfl, hx, nofun⟩
    · refine ⟨before, after ++ [x], by simp, ha, fun b hb => ?_⟩
      rcases List.mem_append.mp hb with hb | hb
      · exact hafter b hb
      · rw [List.mem_singleton.mp hb]
        exact hx

theorem exists_lastOf {α : Type} {p : α → Prop} {l : List α} {a : α} (ha : a ∈ l) (hp : p a) :
    ∃ b, LastOf p l b := by
  induction l using List.reverseRecOn with
  | nil => exact absurd ha List.not_mem_nil
  | append_singleton l x ih =>
    by_cases hx : p x
    · exact ⟨x, lastOf_append_singleton_iff.mpr (.inl ⟨hx, rfl⟩)⟩
    · rcases List.mem_append.mp ha with hl | hl
      · obtain ⟨b, hb⟩ := ih hl
        exact ⟨b, lastOf_append_singleton_iff.mpr (.inr ⟨hx, hb⟩)⟩
      · obtain rfl := List.mem_singleton.mp hl
        exact absurd hp hx

section Collected
variable {fs : List Field} {name m : String} {v : Json}

theorem collected_append_singleton (fs : List Field) (f : Field) :
    collected (fs ++ [f]) = collect (collected fs) f := by
  rw [collected, List.foldl_append]
  rfl

/-- A recording is the message or a field. -/
theorem collect_cases (c : Collected) (f : Field) :
    (∃ m, Says f m ∧ collect c f = { c with message := some m }) ∨
    (IsField f ∧ ∃ v, Keeps f.1 f.2 v ∧
      collect c f = { c with fields := insertField f.1 v c.fields }) := by
  by_cases hf : IsField f
  · obtain ⟨v, hv⟩ := exists_keeps f.1 f.2
    exact .inr ⟨hf, v, hv, collect_of_isField hf hv⟩
  · obtain ⟨m, hm⟩ := not_forall_not.mp hf
    exact .inl ⟨m, hm, collect_of_says hm⟩

/-- The message is the last text recorded as one. -/
theorem message_eq_some_iff :
    (collected fs).message = some m ↔ ∃ f, LastOf (fun f => ¬ IsField f) fs f ∧ Says f m := by
  induction fs using List.reverseRecOn with
  | nil =>
    simp only [lastOf_nil_iff, false_and, exists_false, iff_false]
    exact nofun
  | append_singleton fs f ih =>
    rw [collected_append_singleton]
    simp only [lastOf_append_singleton_iff]
    rcases collect_cases (collected fs) f with ⟨m', hm', hcollect⟩ | ⟨hf, v, -, hcollect⟩
    · have htext : ¬ IsField f := fun hf => hf m' hm'
      rw [hcollect, Option.some_inj]
      constructor
      · rintro rfl
        exact ⟨f, .inl ⟨htext, rfl⟩, hm'⟩
      · rintro ⟨_, ⟨-, rfl⟩ | ⟨hnot, -⟩, hm⟩
        · exact hm'.unique hm
        · exact absurd htext hnot
    · rw [hcollect]
      refine ih.trans ?_
      constructor
      · rintro ⟨g, hg, hm⟩
        exact ⟨g, .inr ⟨not_not.mpr hf, hg⟩, hm⟩
      · rintro ⟨g, ⟨hnot, -⟩ | ⟨-, hg⟩, hm⟩
        · exact absurd hf hnot
        · exact ⟨g, hg, hm⟩

theorem message_eq_none_iff : (collected fs).message = none ↔ ∀ f ∈ fs, IsField f := by
  rw [Option.eq_none_iff_forall_ne_some]
  constructor
  · intro hnone f hf
    by_contra htext
    obtain ⟨g, hg⟩ := exists_lastOf (p := fun g => ¬ IsField g) hf htext
    have htext' : ¬ IsField g := by
      obtain ⟨_, _, -, hg, -⟩ := hg
      exact hg
    obtain ⟨m, hm⟩ := not_forall_not.mp htext'
    exact hnone m (message_eq_some_iff.mpr ⟨g, hg, hm⟩)
  · intro hfields m hm
    obtain ⟨f, ⟨before, after, rfl, hf, -⟩, -⟩ := message_eq_some_iff.mp hm
    exact hf (hfields f (List.mem_append_right _ List.mem_cons_self))

/-- The last field recorded under a name, and what is kept of it. -/
def Holds (fs : List Field) (name : String) (v : Json) : Prop :=
  ∃ r, LastOf (fun f => f.1 = name ∧ IsField f) fs (name, r) ∧ Keeps name r v

theorem lookup_eq_some_iff : (collected fs).fields.lookup name = some v ↔ Holds fs name v := by
  induction fs using List.reverseRecOn with
  | nil =>
    simp only [Holds, lastOf_nil_iff, false_and, exists_false, iff_false]
    exact nofun
  | append_singleton fs f ih =>
    rw [collected_append_singleton]
    simp only [Holds, lastOf_append_singleton_iff]
    rcases collect_cases (collected fs) f with ⟨m, hm, hcollect⟩ | ⟨hf, v', hv', hcollect⟩
    · have hnot : ¬ (f.1 = name ∧ IsField f) := fun h => h.2 m hm
      rw [hcollect]
      refine ih.trans ?_
      constructor
      · rintro ⟨r, hr, hv⟩
        exact ⟨r, .inr ⟨hnot, hr⟩, hv⟩
      · rintro ⟨r, ⟨hyes, -⟩ | ⟨-, hr⟩, hv⟩
        · exact absurd hyes hnot
        · exact ⟨r, hr, hv⟩
    · rw [hcollect, lookup_insertField]
      by_cases hname : name = f.1
      · subst hname
        rw [if_pos rfl, Option.some_inj]
        constructor
        · rintro rfl
          exact ⟨f.2, .inl ⟨⟨rfl, hf⟩, rfl⟩, hv'⟩
        · rintro ⟨r, ⟨-, hr⟩ | ⟨hnot, -⟩, hv⟩
          · rw [keeps_iff.mp hv', keeps_iff.mp hv, ← congrArg Prod.snd hr]
          · exact absurd ⟨rfl, hf⟩ hnot
      · have hnot : ¬ (f.1 = name ∧ IsField f) := fun h => hname h.1.symm
        rw [if_neg hname]
        refine ih.trans ?_
        constructor
        · rintro ⟨r, hr, hv⟩
          exact ⟨r, .inr ⟨hnot, hr⟩, hv⟩
        · rintro ⟨r, ⟨hyes, -⟩ | ⟨-, hr⟩, hv⟩
          · exact absurd hyes hnot
          · exact ⟨r, hr, hv⟩

/-- What holds of nothing, and still holds after each recording, holds of what is collected. -/
theorem collected_preserves {P : Collected → Prop} (hnone : P {})
    (htext : ∀ c m, P c → P { c with message := some m })
    (hkeeps : ∀ c, ∀ f ∈ fs, ∀ v, Keeps f.1 f.2 v → P c →
      P { c with fields := insertField f.1 v c.fields }) : P (collected fs) := by
  induction fs using List.reverseRecOn with
  | nil => exact hnone
  | append_singleton fs f ih =>
    have hfs : P (collected fs) :=
      ih fun c g hg v => hkeeps c g (List.mem_append_left _ hg) v
    rw [collected_append_singleton]
    rcases collect_cases (collected fs) f with ⟨m, -, hcollect⟩ | ⟨-, v, hv, hcollect⟩
    · rw [hcollect]
      exact htext _ m hfs
    · rw [hcollect]
      exact hkeeps _ f (List.mem_append_right _ List.mem_cons_self) v hv hfs

theorem sorted_fields (fs : List Field) : Sorted (collected fs).fields := by
  apply collected_preserves (P := fun c => Sorted c.fields)
  · exact List.Pairwise.nil
  · exact fun _ _ h => h
  · exact fun _ f _ v _ h => h.insertField f.1 v

/-- What is true of all that is kept is true of what is collected. -/
theorem forall_collected {P : Json → Prop} (h : ∀ f ∈ fs, ∀ v, Keeps f.1 f.2 v → P v) :
    ∀ m ∈ (collected fs).fields, P m.2 := by
  apply collected_preserves (P := fun c => ∀ m ∈ c.fields, P m.2)
  · exact List.forall_mem_nil _
  · exact fun _ _ hc => hc
  · intro c f hf v hv hc m hm
    rcases mem_of_mem_insertField hm with rfl | hm
    · exact h f hf v hv
    · exact hc m hm

theorem fields_eq_nil_iff : (collected fs).fields = [] ↔ ∀ f ∈ fs, ¬ IsField f := by
  constructor
  · intro hnil f hf hfield
    obtain ⟨⟨name, r⟩, hlast⟩ :=
      exists_lastOf (p := fun g => g.1 = f.1 ∧ IsField g) hf ⟨rfl, hfield⟩
    obtain ⟨v, hv⟩ := exists_keeps name r
    have hname : name = f.1 := by
      obtain ⟨_, _, -, hrecorded, -⟩ := hlast
      exact hrecorded.1
    subst hname
    have hlookup := lookup_eq_some_iff.mpr ⟨r, hlast, hv⟩
    rw [hnil] at hlookup
    cases hlookup
  · intro hnone
    induction fs using List.reverseRecOn with
    | nil => rfl
    | append_singleton fs f ih =>
      obtain ⟨hfs, hf⟩ := List.forall_mem_append.mp hnone
      rw [collected_append_singleton]
      rcases collect_cases (collected fs) f with ⟨m, -, hcollect⟩ | ⟨hfield, -⟩
      · rw [hcollect]
        exact ih hfs
      · exact absurd hfield (hf f List.mem_cons_self)

end Collected

section Members
variable (e : Entry) (name k : String) (v : Option Json)

def Entry.heading : List (String × Json) :=
  [("timestamp", .string e.origin.timestamp), ("level", .string e.level.name),
    ("service", .string e.origin.service), ("pid", .ofNat e.origin.pid),
    ("target", .string e.target), ("message", .string e.message)]

def Entry.fieldsMember : Option Json := if e.fields.isEmpty then none else some (.object e.fields)

def Entry.members : List (String × Json) :=
  e.heading ++ optional "fields" e.fieldsMember ++ optional "span" (e.origin.span.map .string) ++
    optional "file" (e.origin.file.map .string) ++ optional "line" (e.origin.line.map .ofNat)

theorem json_eq_object : e.json = .object e.members := by
  have hfields : (if e.fields.isEmpty then [] else [("fields", Json.object e.fields)]) =
      optional "fields" e.fieldsMember := by
    rw [Entry.fieldsMember]
    split
    · rfl
    · rfl
  rw [Entry.json, hfields]
  rfl

theorem line_eq : e.line = Json.chars (.object e.members) ++ ['\n'] := by
  rw [← json_eq_object, Entry.line, Entry.pieces, List.flatten_cons, List.flatten_cons,
    List.flatten_nil, List.append_nil]

theorem lookup_optional : (optional name v).lookup k = if k = name then v else none := by
  cases v with
  | none =>
    rw [ite_self]
    rfl
  | some v =>
    by_cases hk : k = name
    · rw [optional, hk, List.lookup_cons_self, if_pos rfl]
    · rw [optional, List.lookup_cons, beq_false_of_ne hk, if_neg hk, List.lookup_nil]

theorem lookup_append_optional (l : List (String × Json)) :
    (l ++ optional name v).lookup k = (l.lookup k).or (if k = name then v else none) := by
  rw [List.lookup_append, lookup_optional]

theorem lookup_members : e.members.lookup k =
    ((((e.heading.lookup k).or (if k = "fields" then e.fieldsMember else none)).or
      (if k = "span" then e.origin.span.map .string else none)).or
      (if k = "file" then e.origin.file.map .string else none)).or
      (if k = "line" then e.origin.line.map .ofNat else none) := by
  rw [Entry.members, lookup_append_optional, lookup_append_optional, lookup_append_optional,
    lookup_append_optional]

theorem lookup_fields : e.members.lookup "fields" = e.fieldsMember := by
  rw [lookup_members]
  simp [Entry.heading, List.lookup_cons]

theorem forall_optional {P : Json → Prop} (h : ∀ x ∈ v, P x) : ∀ m ∈ optional name v, P m.2 := by
  cases v with
  | none => exact List.forall_mem_nil _
  | some x => exact List.forall_mem_singleton.mpr (h x rfl)

variable {e} in
/-- What is true of texts, of the numbers of an entry and of its fields is true of its members. -/
theorem Entry.forall_members {P : Json → Prop} (htext : ∀ s, P (.string s))
    (hpid : P (.number (.natural e.origin.pid)))
    (hline : ∀ n ∈ e.origin.line, P (.number (.natural n))) (hfields : P (.object e.fields)) :
    ∀ m ∈ e.members, P m.2 := by
  have hstring : ∀ s : Option String, ∀ x ∈ s.map Json.string, P x := by
    intro s x hx
    obtain ⟨text, -, rfl⟩ := Option.map_eq_some_iff.mp hx
    exact htext text
  have hnumber : ∀ x ∈ e.origin.line.map Json.ofNat, P x := by
    intro x hx
    obtain ⟨n, hn, rfl⟩ := Option.map_eq_some_iff.mp hx
    exact hline n hn
  have hobject : ∀ x ∈ e.fieldsMember, P x := by
    intro x hx
    rw [Entry.fieldsMember] at hx
    split at hx
    · cases hx
    · cases hx
      exact hfields
  have hheading : ∀ m ∈ e.heading, P m.2 := by
    simp only [Entry.heading, List.forall_mem_cons]
    exact ⟨htext _, htext _, htext _, hpid, htext _, htext _, List.forall_mem_nil _⟩
  simp only [Entry.members, List.forall_mem_append]
  exact ⟨⟨⟨⟨hheading, forall_optional _ _ hobject⟩, forall_optional _ _ (hstring _)⟩,
    forall_optional _ _ (hstring _)⟩, forall_optional _ _ hnumber⟩

end Members

end RowGate.Log
