import RowGate.Proofs.Json.Walk

/-! # Documents and their values

A document is one value with blanks around it. Its form says what the value is, unless a number in it
is out of range or a string is no text, and reading a document gives this value. So what is read of
a document depends on its form alone.
-/
namespace RowGate.Json

def whole? {α : Type} : Except Fault (α × Octets) → Option α
  | .ok (a, []) => some a
  | _ => none

theorem whole?_eq_some_iff {α : Type} {r : Except Fault (α × Octets)} {a : α} :
    whole? r = some a ↔ r = .ok (a, []) := by
  unfold whole?
  split
  · simp
  · next h =>
    constructor
    · nofun
    · rintro rfl
      exact absurd rfl (h a)

def bodyText? (body : Octets) : Option String := whole? (stringText (body ++ [0x22]))

mutual
/-- The value that has a form. -/
def Form.value? : Form → Option Json
  | .null => some .null
  | .boolean b => some (.boolean b)
  | .number negative digits => (whole? (numeral negative digits)).map .number
  | .string body => (bodyText? body).map .string
  | .array items => (itemValues? items).map .array
  | .object members => (memberValues? members).map .object

def itemValues? : List Form → Option (List Json)
  | [] => some []
  | f :: rest => do
    let v ← f.value?
    let vs ← itemValues? rest
    some (v :: vs)

def memberValues? : List (Octets × Form) → Option (List (String × Json))
  | [] => some []
  | (body, f) :: rest => do
    let k ← bodyText? body
    let v ← f.value?
    let more ← memberValues? rest
    some ((k, v) :: more)
end

theorem itemValues?_eq_some_iff {fs : List Form} {vs : List Json} :
    itemValues? fs = some vs ↔ List.Forall₂ (fun v f => f.value? = some v) vs fs := by
  induction fs generalizing vs with
  | nil => simp [itemValues?, eq_comm]
  | cons f fs ih =>
    simp only [itemValues?, Option.bind_eq_bind, Option.bind_eq_some_iff, ih, Option.some.injEq]
    constructor
    · rintro ⟨v, hv, vs, hvs, rfl⟩
      exact .cons hv hvs
    · intro h
      cases h with
      | cons hv hvs => exact ⟨_, hv, _, hvs, rfl⟩

theorem memberValues?_eq_some_iff {ms : List (Octets × Form)} {vs : List (String × Json)} :
    memberValues? ms = some vs ↔
      List.Forall₂ (fun v m => bodyText? m.1 = some v.1 ∧ m.2.value? = some v.2) vs ms := by
  induction ms generalizing vs with
  | nil => simp [memberValues?, eq_comm]
  | cons m ms ih =>
    simp only [memberValues?, Option.bind_eq_bind, Option.bind_eq_some_iff, ih, Option.some.injEq]
    constructor
    · rintro ⟨k, hk, v, hv, vs, hvs, rfl⟩
      exact .cons ⟨hk, hv⟩ hvs
    · intro h
      cases h with
      | cons hm hvs => exact ⟨_, hm.1, _, hm.2, _, hvs, rfl⟩

theorem bodyText?_of_stringText {s rest : Octets} {t : String} (h : stringText s = .ok (t, rest)) :
    ∃ body, IsBody body ∧ bodyText? body = some t ∧ s = body ++ 0x22 :: rest := by
  obtain ⟨body, hbody, hs, hread⟩ := stringText_body h
  exact ⟨body, hbody, whole?_eq_some_iff.mpr (hread []), hs⟩

theorem stringText_of_bodyText? {body : Octets} {t : String} (h : bodyText? body = some t)
    (rest : Octets) : stringText (body ++ 0x22 :: rest) = .ok (t, rest) := by
  obtain ⟨body', -, hbody, hread⟩ := stringText_body (whole?_eq_some_iff.mp h)
  rw [List.append_cancel_right hbody]
  exact hread rest

theorem numeral_of_whole? {negative : Bool} {d rest : Octets} {n : Numeral}
    (h : whole? (numeral negative d) = some n) (hrest : EndsNumber rest) :
    numeral negative (d ++ rest) = .ok (n, rest) := by
  obtain ⟨d', hd, hfront⟩ := numeral_front (whole?_eq_some_iff.mp h)
  rw [hd, List.append_nil]
  exact hfront.read rest hrest

theorem trees_sound :
    trees.Sound (fun v f => f.value? = some v) (fun k body => bodyText? body = some k) where
  null := rfl
  boolean _ := rfl
  array items fs h := by
    rw [Form.value?, itemValues?_eq_some_iff.mpr h]
    rfl
  object members fs h := by
    rw [Form.value?, memberValues?_eq_some_iff.mpr h]
    rfl
  number negative s v rest h := by
    obtain ⟨⟨n, t⟩, hn, hpair⟩ := bind_eq_ok_iff.mp h
    cases hpair
    obtain ⟨d, rfl, hfront⟩ := numeral_front hn
    have hread := hfront.read [] nofun
    rw [List.append_nil] at hread
    refine ⟨d, hfront.shape, ?_, rfl⟩
    rw [Form.value?, hread]
    rfl
  string s v rest h := by
    obtain ⟨⟨t, t'⟩, ht, hpair⟩ := bind_eq_ok_iff.mp h
    cases hpair
    obtain ⟨body, hbody, htext, rfl⟩ := bodyText?_of_stringText ht
    refine ⟨body, hbody, ?_, rfl⟩
    rw [Form.value?, htext]
    rfl
  name s k rest h := bodyText?_of_stringText h

section Trees
variable {s rest : Octets} {f : Form} {v : Json}

theorem trees_number {negative : Bool} (h : forms.number negative s = .ok (f, rest))
    (hv : f.value? = some v) (hrest : f.Ends rest) : trees.number negative s = .ok (v, rest) := by
  obtain ⟨d, -, rfl, rfl⟩ := isNumeral_of_map h
  rw [before_append] at hv
  obtain ⟨n, hn, rfl⟩ := Option.map_eq_some_iff.mp hv
  exact bind_eq_ok_iff.mpr ⟨_, numeral_of_whole? hn hrest, rfl⟩

theorem trees_string (h : forms.string s = .ok (f, rest)) (hv : f.value? = some v) :
    trees.string s = .ok (v, rest) := by
  obtain ⟨body, -, rfl, rfl⟩ := isBody_of_map h
  rw [before_append] at hv
  obtain ⟨t, ht, rfl⟩ := Option.map_eq_some_iff.mp hv
  exact bind_eq_ok_iff.mpr ⟨_, stringText_of_bodyText? ht rest, rfl⟩

theorem trees_name {body : Octets} {k : String} (h : forms.name s = .ok (body, rest))
    (hk : bodyText? body = some k) : trees.name s = .ok (k, rest) := by
  obtain ⟨d, -, rfl, rfl⟩ := isBody_of_map h
  rw [before_append] at hk
  exact stringText_of_bodyText? hk rest

/-- A literal is read with any builder. -/
theorem literal_of_literal {α β : Type} {cs : List Char} {x a : α} (y : β)
    (h : (word cs s).map (fun rest => (x, rest)) = .ok (a, rest)) :
    a = x ∧ (word cs s).map (fun rest => (y, rest)) = .ok (y, rest) := by
  obtain ⟨t, ht, hpair⟩ := map_eq_ok_iff.mp h
  cases hpair
  exact ⟨rfl, map_eq_ok_iff.mpr ⟨_, ht, rfl⟩⟩

end Trees

mutual
/-- The walk that builds trees goes where the walk that keeps forms goes. -/
theorem walk_trees (fuel : Nat) {s rest : Octets} {f : Form} {v : Json}
    (h : walk forms fuel s = .ok (f, rest)) (hv : f.value? = some v) (hrest : f.Ends rest) :
    walk trees fuel s = .ok (v, rest) := by
  cases fuel with
  | zero => cases h
  | succ fuel =>
    unfold walk at h ⊢
    -- Both walks look at the same octets, so each split below opens both.
    split at h
    · cases h
    next c t hs =>
    split at h
    · obtain ⟨rfl, hread⟩ := literal_of_literal Json.null h
      cases hv
      exact hread
    · obtain ⟨rfl, hread⟩ := literal_of_literal (Json.boolean true) h
      cases hv
      exact hread
    · obtain ⟨rfl, hread⟩ := literal_of_literal (Json.boolean false) h
      cases hv
      exact hread
    · exact trees_number h hv hrest
    · exact trees_string h hv
    · split at h
      · cases h
      next d inner hd =>
      split at h
      · next hclose =>
        cases h
        cases hv
        rw [if_pos hclose]
        rfl
      · next hopen =>
        obtain ⟨⟨items, t'⟩, hitems, hpair⟩ := bind_eq_ok_iff.mp h
        cases hpair
        obtain ⟨vs, hvs, rfl⟩ := Option.map_eq_some_iff.mp hv
        rw [if_neg hopen]
        exact bind_eq_ok_iff.mpr ⟨_, walkItems_trees fuel hitems hvs, rfl⟩
    · split at h
      · cases h
      next d inner hd =>
      split at h
      · next hclose =>
        cases h
        cases hv
        rw [if_pos hclose]
        rfl
      · next hopen =>
        obtain ⟨⟨members, t'⟩, hmembers, hpair⟩ := bind_eq_ok_iff.mp h
        cases hpair
        obtain ⟨vs, hvs, rfl⟩ := Option.map_eq_some_iff.mp hv
        rw [if_neg hopen]
        exact bind_eq_ok_iff.mpr ⟨_, walkMembers_trees fuel hmembers hvs, rfl⟩
    · split at h
      · next hdigit =>
        rw [if_pos hdigit]
        exact trees_number h hv hrest
      · cases h

theorem walkItems_trees (fuel : Nat) {s rest : Octets} {fs : List Form} {vs : List Json}
    (h : walkItems forms fuel s = .ok (fs, rest)) (hvs : itemValues? fs = some vs) :
    walkItems trees fuel s = .ok (vs, rest) := by
  cases fuel with
  | zero => cases h
  | succ fuel =>
    obtain ⟨⟨f, t⟩, hitem, hmore⟩ := bind_eq_ok_iff.mp h
    dsimp only at hmore
    split at hmore
    · cases hmore
    next c t' ht =>
    split at hmore
    · next hc =>
      cases hmore
      obtain ⟨⟩ | ⟨hv, ⟨⟩⟩ := itemValues?_eq_some_iff.mp hvs
      have hends := f.ends_of_endsNumber (endsNumber_of_skipBlank ht (.inr (.inl (octet_of_letter hc))))
      refine bind_eq_ok_iff.mpr ⟨_, walk_trees fuel hitem hv hends, ?_⟩
      simp only [ht, if_pos hc]
    split at hmore
    · next hbracket hc =>
      obtain ⟨⟨fs, t''⟩, hitems, hpair⟩ := bind_eq_ok_iff.mp hmore
      cases hpair
      obtain ⟨⟩ | ⟨hv, hvs⟩ := itemValues?_eq_some_iff.mp hvs
      have hends := f.ends_of_endsNumber (endsNumber_of_skipBlank ht (.inl (octet_of_letter hc)))
      have hbehind := walkItems_trees fuel hitems (itemValues?_eq_some_iff.mpr hvs)
      refine bind_eq_ok_iff.mpr ⟨_, walk_trees fuel hitem hv hends, ?_⟩
      simp only [ht, if_neg hbracket, if_pos hc]
      exact bind_eq_ok_iff.mpr ⟨_, hbehind, rfl⟩
    · cases hmore

theorem walkMembers_trees (fuel : Nat) {s rest : Octets} {ms : List (Octets × Form)}
    {vs : List (String × Json)} (h : walkMembers forms fuel s = .ok (ms, rest))
    (hvs : memberValues? ms = some vs) : walkMembers trees fuel s = .ok (vs, rest) := by
  cases fuel with
  | zero => cases h
  | succ fuel =>
    unfold walkMembers at h ⊢
    split at h
    · cases h
    next q t hs =>
    split at h
    · next hq =>
      obtain ⟨⟨body, t₁⟩, hname, hbehind⟩ := bind_eq_ok_iff.mp h
      obtain ⟨t₂, hcolon, hvalue⟩ := bind_eq_ok_iff.mp hbehind
      obtain ⟨⟨f, t₃⟩, hitem, hmore⟩ := bind_eq_ok_iff.mp hvalue
      dsimp only at hmore
      rw [if_pos hq]
      split at hmore
      · cases hmore
      next c t₄ ht =>
      split at hmore
      · next hc =>
        cases hmore
        obtain ⟨⟩ | ⟨⟨hk, hv⟩, ⟨⟩⟩ := memberValues?_eq_some_iff.mp hvs
        have hends := f.ends_of_endsNumber
          (endsNumber_of_skipBlank ht (.inr (.inr (octet_of_letter hc))))
        refine bind_eq_ok_iff.mpr ⟨_, trees_name hname hk, bind_eq_ok_iff.mpr ⟨_, hcolon,
          bind_eq_ok_iff.mpr ⟨_, walk_trees fuel hitem hv hends, ?_⟩⟩⟩
        simp only [ht, if_pos hc]
      split at hmore
      · next hbrace hc =>
        obtain ⟨⟨ms, t₅⟩, hmembers, hpair⟩ := bind_eq_ok_iff.mp hmore
        cases hpair
        obtain ⟨⟩ | ⟨⟨hk, hv⟩, hvs⟩ := memberValues?_eq_some_iff.mp hvs
        have hends := f.ends_of_endsNumber (endsNumber_of_skipBlank ht (.inl (octet_of_letter hc)))
        have hlater := walkMembers_trees fuel hmembers (memberValues?_eq_some_iff.mpr hvs)
        refine bind_eq_ok_iff.mpr ⟨_, trees_name hname hk, bind_eq_ok_iff.mpr ⟨_, hcolon,
          bind_eq_ok_iff.mpr ⟨_, walk_trees fuel hitem hv hends, ?_⟩⟩⟩
        simp only [ht, if_neg hbrace, if_pos hc]
        exact bind_eq_ok_iff.mpr ⟨_, hlater, rfl⟩
      · cases hmore
    · cases h
end

inductive IsText : Form → Octets → Prop where
  | mk {f : Form} {w w' d : Octets} (hw : Blank w) (hd : Spells f d) (hw' : Blank w') :
      IsText f (w ++ (d ++ w'))

theorem endsNumber_blank {w : Octets} (hw : Blank w) : EndsNumber w := by
  intro b hb
  have hspace := hw b (List.mem_of_mem_head? hb)
  simp only [isSpace, Bool.or_eq_true, decide_eq_true_eq] at hspace
  rcases hspace with ((rfl | rfl) | rfl) | rfl <;> decide

section Documents
variable {s : Octets} {f f' : Form} {v : Json}

theorem Spells.isText (h : Spells f s) : IsText f s := by
  have htext := IsText.mk (w := []) nofun h (List.forall_mem_nil _)
  rwa [List.nil_append, List.append_nil] at htext

/-- A document is the last item of an array, whatever blanks stand before the bracket. -/
theorem IsText.last {w : Octets} (h : IsText f s) (hw : Blank w) :
    SpellsItems [f] (s ++ (w ++ [0x5D])) := by
  obtain ⟨hb, hd, ha⟩ := h
  have hitems := SpellsItems.last hb hd (ha.append hw)
  simp only [List.append_assoc] at hitems ⊢
  exact hitems

/-- A document is an item of an array when a comma and more items follow. -/
theorem IsText.more {fs : List Form} {d : Octets} (h : IsText f s) (hfs : SpellsItems fs d) :
    SpellsItems (f :: fs) (s ++ 0x2C :: d) := by
  obtain ⟨hb, hd, ha⟩ := h
  have hitems := SpellsItems.more hb hd ha hfs
  simp only [List.append_assoc] at hitems ⊢
  exact hitems

/-- A document has one form. -/
theorem IsText.unique (h : IsText f s) (h' : IsText f' s) : f = f' := by
  obtain @⟨w, w', d, hw, hd, hw'⟩ := h
  generalize hs : w ++ (d ++ w') = s at h'
  obtain @⟨w₁, w₁', d₁, hw₁, hd₁, hw₁'⟩ := h'
  have hsame : d ++ w' = d₁ ++ w₁' := by
    rw [← hd.skipBlank_append hw, hs, hd₁.skipBlank_append hw₁]
  have hends := f.ends_of_endsNumber (endsNumber_blank hw')
  have hends' := f'.ends_of_endsNumber (endsNumber_blank hw₁')
  exact (hd.unique hd₁ hsame hends hends').1

/-- What is read of a document is the value of its form, and only documents are read. -/
theorem parse_eq_ok_iff : parse s = .ok v ↔ ∃ f, IsText f s ∧ f.value? = some v := by
  rw [parse, finished_eq_ok_iff]
  constructor
  · rintro ⟨rest, hread, hrest⟩
    obtain ⟨f, d, hd, hv, hs⟩ := walk_sound trees_sound _ hread
    obtain ⟨w, hw, rfl⟩ := exists_blank_of_skipBlank hs
    obtain ⟨w', hw', hend⟩ := exists_blank_of_skipBlank hrest
    rw [List.append_nil] at hend
    exact ⟨f, .mk hw hd (hend ▸ hw'), hv⟩
  · rintro ⟨f, @⟨w, w', d, hw, hd, hw'⟩, hv⟩
    have hends := f.ends_of_endsNumber (endsNumber_blank hw')
    have hfuel : 2 * (d ++ w').length ≤ walkFuel (w ++ (d ++ w')) := by
      simp only [walkFuel, List.length_append]
      omega
    obtain ⟨_, hread, rfl⟩ := hd.walk forms_complete (hd.skipBlank_append hw w') hends hfuel
    exact ⟨w', walk_trees _ hread hv hends, skipBlank_blank hw'⟩

theorem IsText.parse_eq_ok_iff (h : IsText f s) : parse s = .ok v ↔ f.value? = some v := by
  rw [Json.parse_eq_ok_iff]
  constructor
  · rintro ⟨f', h', hv⟩
    rwa [h.unique h']
  · exact fun hv => ⟨f, h, hv⟩

end Documents
end RowGate.Json
