import Mathlib.Data.List.Forall2
import RowGate.Proofs.Json.Words

/-! # Walks go over the grammar

A walk gives something for the form of a value exactly when such a value stands there, provided its
builder does so for words. One builder keeps the form itself, so a value has one form only; the
builder that keeps nothing shows that a value of any nesting is passed over, and nothing but a
value. A walk needs two calls for an octet at most.
-/
namespace RowGate.Json

section Builders
variable {α κ : Type} (b : Builder α κ) (R : α → Form → Prop) (K : κ → Octets → Prop)

structure Builder.Groups : Prop where
  null : R b.null .null
  boolean : ∀ x, R (b.boolean x) (.boolean x)
  array : ∀ items forms, List.Forall₂ R items forms → R (b.array items) (.array forms)
  object : ∀ members forms, List.Forall₂ (fun m f => K m.1 f.1 ∧ R m.2 f.2) members forms →
    R (b.object members) (.object forms)

structure Builder.Sound : Prop extends b.Groups R K where
  number : ∀ negative s a rest, b.number negative s = .ok (a, rest) →
    ∃ d, IsNumeral d ∧ R a (.number negative d) ∧ s = d ++ rest
  string : ∀ s a rest, b.string s = .ok (a, rest) →
    ∃ body, IsBody body ∧ R a (.string body) ∧ s = body ++ 0x22 :: rest
  name : ∀ s k rest, b.name s = .ok (k, rest) →
    ∃ body, IsBody body ∧ K k body ∧ s = body ++ 0x22 :: rest

structure Builder.Complete : Prop extends b.Groups R K where
  number : ∀ negative d rest, IsNumeral d → EndsNumber rest →
    ∃ a, b.number negative (d ++ rest) = .ok (a, rest) ∧ R a (.number negative d)
  string : ∀ body rest, IsBody body →
    ∃ a, b.string (body ++ 0x22 :: rest) = .ok (a, rest) ∧ R a (.string body)
  name : ∀ body rest, IsBody body →
    ∃ k, b.name (body ++ 0x22 :: rest) = .ok (k, rest) ∧ K k body

end Builders

theorem word_eq_ok {cs : List Char} {s rest : Octets} (h : word cs s = .ok rest) :
    s = cs.map (fun c => UInt8.ofNat c.toNat) ++ rest := by
  fun_induction word cs s with
  | case1 s => exact Except.ok.inj h
  | case2 => cases h
  | case3 cs b s ih =>
    rw [ih h, List.map_cons, List.cons_append, toNat_letter, UInt8.ofNat_toNat]
  | case4 => cases h

/-- A literal has one value, and nothing is read but its letters. -/
theorem literal_eq_ok {α : Type} {cs : List Char} {s rest : Octets} {x a : α}
    (h : (word cs s).map (fun rest => (x, rest)) = .ok (a, rest)) :
    a = x ∧ s = cs.map (fun c => UInt8.ofNat c.toNat) ++ rest := by
  obtain ⟨t, ht, hpair⟩ := map_eq_ok_iff.mp h
  cases hpair
  exact ⟨rfl, word_eq_ok ht⟩

theorem colon_eq_ok {s rest : Octets} (h : colon s = .ok rest) :
    ∃ w, Blank w ∧ s = w ++ 0x3A :: rest := by
  unfold colon at h
  split at h
  · cases h
  next b t hs =>
  split at h
  · next hb =>
    cases h
    obtain rfl : b = 0x3A := octet_of_letter hb
    exact exists_blank_of_skipBlank hs
  · cases h

section Soundness
variable {α κ : Type} {b : Builder α κ} {R : α → Form → Prop} {K : κ → Octets → Prop}

mutual
theorem walk_sound (hb : b.Sound R K) (fuel : Nat) {s rest : Octets} {a : α}
    (h : walk b fuel s = .ok (a, rest)) :
    ∃ f d, Spells f d ∧ R a f ∧ skipBlank s = d ++ rest := by
  cases fuel with
  | zero => cases h
  | succ fuel =>
    unfold walk at h
    split at h
    · cases h
    next c t hs =>
    split at h
    · next hc =>
      obtain rfl : c = 0x6E := octet_of_letter hc
      obtain ⟨rfl, ht⟩ := literal_eq_ok h
      exact ⟨_, _, .null, hb.null, by rw [hs, ht]; rfl⟩
    · next hc =>
      obtain rfl : c = 0x74 := octet_of_letter hc
      obtain ⟨rfl, ht⟩ := literal_eq_ok h
      exact ⟨_, _, .isTrue, hb.boolean true, by rw [hs, ht]; rfl⟩
    · next hc =>
      obtain rfl : c = 0x66 := octet_of_letter hc
      obtain ⟨rfl, ht⟩ := literal_eq_ok h
      exact ⟨_, _, .isFalse, hb.boolean false, by rw [hs, ht]; rfl⟩
    · next hc =>
      obtain rfl : c = 0x2D := octet_of_letter hc
      obtain ⟨d, hd, ha, rfl⟩ := hb.number _ _ _ _ h
      exact ⟨_, _, .negative hd, ha, hs⟩
    · next hc =>
      obtain rfl : c = 0x22 := octet_of_letter hc
      obtain ⟨body, hbody, ha, rfl⟩ := hb.string _ _ _ h
      exact ⟨_, _, .string hbody, ha, by rw [hs]; simp⟩
    · next hc =>
      obtain rfl : c = 0x5B := octet_of_letter hc
      split at h
      · cases h
      next d inner hd =>
      split at h
      · next hclose =>
        cases h
        obtain rfl : d = 0x5D := octet_of_letter hclose
        obtain ⟨w, hw, rfl⟩ := exists_blank_of_skipBlank hd
        exact ⟨_, _, .noItems hw, hb.array [] [] .nil, by rw [hs]; simp⟩
      · obtain ⟨⟨items, t'⟩, hitems, hpair⟩ := bind_eq_ok_iff.mp h
        cases hpair
        obtain ⟨fs, d, hfd, hfs, rfl⟩ := walkItems_sound hb fuel hitems
        exact ⟨_, _, .array hfd, hb.array _ _ hfs, hs⟩
    · next hc =>
      obtain rfl : c = 0x7B := octet_of_letter hc
      split at h
      · cases h
      next d inner hd =>
      split at h
      · next hclose =>
        cases h
        obtain rfl : d = 0x7D := octet_of_letter hclose
        obtain ⟨w, hw, rfl⟩ := exists_blank_of_skipBlank hd
        exact ⟨_, _, .noMembers hw, hb.object [] [] .nil, by rw [hs]; simp⟩
      · obtain ⟨⟨members, t'⟩, hmembers, hpair⟩ := bind_eq_ok_iff.mp h
        cases hpair
        obtain ⟨fs, d, hfd, hfs, rfl⟩ := walkMembers_sound hb fuel hmembers
        exact ⟨_, _, .object hfd, hb.object _ _ hfs, hs⟩
    · split at h
      · obtain ⟨d, hd, ha, hnumber⟩ := hb.number _ _ _ _ h
        exact ⟨_, _, .natural hd, ha, hs.trans hnumber⟩
      · cases h

theorem walkItems_sound (hb : b.Sound R K) (fuel : Nat) {s rest : Octets} {items : List α}
    (h : walkItems b fuel s = .ok (items, rest)) :
    ∃ fs d, SpellsItems fs d ∧ List.Forall₂ R items fs ∧ s = d ++ rest := by
  cases fuel with
  | zero => cases h
  | succ fuel =>
    unfold walkItems at h
    obtain ⟨⟨item, t⟩, hitem, hmore⟩ := bind_eq_ok_iff.mp h
    obtain ⟨f, d, hd, hf, hs⟩ := walk_sound hb fuel hitem
    obtain ⟨w, hw, rfl⟩ := exists_blank_of_skipBlank hs
    dsimp only at hmore
    split at hmore
    · cases hmore
    next c t' ht =>
    obtain ⟨w', hw', rfl⟩ := exists_blank_of_skipBlank ht
    split at hmore
    · next hc =>
      cases hmore
      obtain rfl : c = 0x5D := octet_of_letter hc
      exact ⟨_, _, .last hw hd hw', .cons hf .nil, by simp⟩
    split at hmore
    · next hc =>
      obtain rfl : c = 0x2C := octet_of_letter hc
      obtain ⟨⟨items, t⟩, hitems, hpair⟩ := bind_eq_ok_iff.mp hmore
      cases hpair
      obtain ⟨fs, d', hd', hfs, rfl⟩ := walkItems_sound hb fuel hitems
      exact ⟨_, _, .more hw hd hw' hd', .cons hf hfs, by simp⟩
    · cases hmore

theorem walkMembers_sound (hb : b.Sound R K) (fuel : Nat) {s rest : Octets}
    {members : List (κ × α)} (h : walkMembers b fuel s = .ok (members, rest)) :
    ∃ fs d, SpellsMembers fs d ∧
      List.Forall₂ (fun m f => K m.1 f.1 ∧ R m.2 f.2) members fs ∧ s = d ++ rest := by
  cases fuel with
  | zero => cases h
  | succ fuel =>
    unfold walkMembers at h
    split at h
    · cases h
    next q t hs =>
    obtain ⟨w₁, hw₁, rfl⟩ := exists_blank_of_skipBlank hs
    split at h
    · next hq =>
      obtain rfl : q = 0x22 := octet_of_letter hq
      obtain ⟨⟨k, t₁⟩, hname, hbehind⟩ := bind_eq_ok_iff.mp h
      obtain ⟨t₂, hcolon, hvalue⟩ := bind_eq_ok_iff.mp hbehind
      obtain ⟨⟨item, t₃⟩, hitem, hmore⟩ := bind_eq_ok_iff.mp hvalue
      obtain ⟨body, hbody, hk, rfl⟩ := hb.name _ _ _ hname
      obtain ⟨w₂, hw₂, rfl⟩ := colon_eq_ok hcolon
      obtain ⟨f, d, hd, hf, ht₂⟩ := walk_sound hb fuel hitem
      obtain ⟨w₃, hw₃, rfl⟩ := exists_blank_of_skipBlank ht₂
      have hm := SpellsMember.mk hw₁ hbody hw₂ hw₃ hd
      dsimp only at hmore
      split at hmore
      · cases hmore
      next c t₄ ht₃ =>
      obtain ⟨w, hw, rfl⟩ := exists_blank_of_skipBlank ht₃
      split at hmore
      · next hc =>
        cases hmore
        obtain rfl : c = 0x7D := octet_of_letter hc
        exact ⟨_, _, .last hm hw, .cons ⟨hk, hf⟩ .nil, by simp⟩
      split at hmore
      · next hc =>
        obtain rfl : c = 0x2C := octet_of_letter hc
        obtain ⟨⟨members, t⟩, hmembers, hpair⟩ := bind_eq_ok_iff.mp hmore
        cases hpair
        obtain ⟨fs, d', hd', hfs, rfl⟩ := walkMembers_sound hb fuel hmembers
        exact ⟨_, _, .more hm hw hd', .cons ⟨hk, hf⟩ hfs, by simp⟩
      · cases hmore
    · cases h
end

end Soundness

theorem colon_append {w : Octets} (hw : Blank w) (rest : Octets) :
    colon (w ++ 0x3A :: rest) = .ok rest := by
  rw [colon, skipBlank_append hw]
  rfl

section Completeness
variable {α κ : Type} {b : Builder α κ} {R : α → Form → Prop} {K : κ → Octets → Prop}

theorem walk_digit {s rest : Octets} {c : UInt8} (hc : isDigit c = true)
    (hs : skipBlank s = c :: rest) (fuel : Nat) :
    walk b (fuel + 1) s = b.number false (c :: rest) := by
  have table : c = 0x30 ∨ c = 0x31 ∨ c = 0x32 ∨ c = 0x33 ∨ c = 0x34 ∨ c = 0x35 ∨ c = 0x36 ∨
      c = 0x37 ∨ c = 0x38 ∨ c = 0x39 := by
    simp only [isDigit] at hc
    grind
  rw [walk, hs]
  rcases table with rfl | rfl | rfl | rfl | rfl | rfl | rfl | rfl | rfl | rfl <;> rfl

/-- What a walk over members does behind one of them. -/
def Builder.behindMember (b : Builder α κ) (fuel : Nat) (member : κ × α) (s : Octets) :
    Except Json.Fault (List (κ × α) × Octets) :=
  match skipBlank s with
  | [] => .error .ended
  | c :: rest =>
    if letter c = '\x7d' then .ok ([member], rest)
    else if letter c = ',' then do
      let (members, rest) ← walkMembers b fuel rest
      .ok (member :: members, rest)
    else .error .malformed

mutual
/-- A value is walked over, up to what stands behind it. -/
theorem Spells.walk {f : Form} {d : Octets} (h : Spells f d) (hb : b.Complete R K)
    {s rest : Octets} (hs : skipBlank s = d ++ rest) (hrest : f.Ends rest) {fuel : Nat}
    (hfuel : 2 * (d ++ rest).length ≤ fuel) :
    ∃ a, Json.walk b fuel s = .ok (a, rest) ∧ R a f := by
  obtain ⟨fuel, rfl⟩ : ∃ n, fuel = n + 1 := by
    obtain ⟨c, t, -, -, rfl⟩ := h.exists_head
    exact ⟨fuel - 1, by simp at hfuel; omega⟩
  cases h with
  | null =>
    refine ⟨_, ?_, hb.null⟩
    rw [Json.walk, hs]
    rfl
  | isTrue =>
    refine ⟨_, ?_, hb.boolean true⟩
    rw [Json.walk, hs]
    rfl
  | isFalse =>
    refine ⟨_, ?_, hb.boolean false⟩
    rw [Json.walk, hs]
    rfl
  | negative h =>
    obtain ⟨a, hread, ha⟩ := hb.number true _ _ h hrest
    refine ⟨a, ?_, ha⟩
    rw [Json.walk, hs]
    exact hread
  | natural h =>
    obtain ⟨a, hread, ha⟩ := hb.number false _ _ h hrest
    obtain ⟨c, t, hc, rfl⟩ := h.exists_digit
    exact ⟨a, (walk_digit hc hs fuel).trans hread, ha⟩
  | string h =>
    obtain ⟨a, hread, ha⟩ := hb.string _ rest h
    refine ⟨a, ?_, ha⟩
    rw [Json.walk, hs]
    simp only [List.cons_append, List.append_assoc, List.nil_append]
    exact hread
  | @noItems w hw =>
    have hclose : skipBlank (w ++ 0x5D :: rest) = 0x5D :: rest := skipBlank_append hw _
    refine ⟨_, ?_, hb.array [] [] .nil⟩
    rw [Json.walk, hs]
    simp only [List.cons_append, List.append_assoc, List.nil_append, hclose]
    rfl
  | @array _ d h =>
    have hinside : 2 * (d ++ rest).length + 1 ≤ fuel := by simp at hfuel ⊢; omega
    obtain ⟨items, hread, hitems⟩ := h.walk hb hinside
    obtain ⟨c, t, hfirst, hc⟩ := h.head_ne_bracket rest
    refine ⟨_, ?_, hb.array _ _ hitems⟩
    rw [Json.walk, hs]
    simp only [List.cons_append, hfirst, if_neg hc, hread]
    rfl
  | @noMembers w hw =>
    have hclose : skipBlank (w ++ 0x7D :: rest) = 0x7D :: rest := skipBlank_append hw _
    refine ⟨_, ?_, hb.object [] [] .nil⟩
    rw [Json.walk, hs]
    simp only [List.cons_append, List.append_assoc, List.nil_append, hclose]
    rfl
  | @object _ d h =>
    have hinside : 2 * (d ++ rest).length + 1 ≤ fuel := by simp at hfuel ⊢; omega
    obtain ⟨members, hread, hmembers⟩ := h.walk hb hinside
    obtain ⟨t, hfirst⟩ := h.exists_quote rest
    refine ⟨_, ?_, hb.object _ _ hmembers⟩
    rw [Json.walk, hs]
    simp only [List.cons_append, hfirst, hread]
    rfl

theorem SpellsItems.walk {l : List Form} {d : Octets} (h : SpellsItems l d) (hb : b.Complete R K)
    {rest : Octets} {fuel : Nat} (hfuel : 2 * (d ++ rest).length + 1 ≤ fuel) :
    ∃ items, walkItems b fuel (d ++ rest) = .ok (items, rest) ∧ List.Forall₂ R items l := by
  obtain ⟨fuel, rfl⟩ : ∃ n, fuel = n + 1 := ⟨fuel - 1, by omega⟩
  cases h with
  | @last f w w' d hw hf hw' =>
    simp only [List.append_assoc, List.cons_append, List.nil_append] at hfuel ⊢
    have hends : EndsNumber (w' ++ 0x5D :: rest) := endsNumber_append hw' (.inr (.inl rfl))
    have hclose : skipBlank (w' ++ 0x5D :: rest) = 0x5D :: rest := skipBlank_append hw' _
    have hinside : 2 * (d ++ (w' ++ 0x5D :: rest)).length ≤ fuel := by simp at hfuel ⊢; omega
    obtain ⟨a, hread, ha⟩ :=
      hf.walk hb (hf.skipBlank_append hw _) (f.ends_of_endsNumber hends) hinside
    refine ⟨[a], ?_, .cons ha .nil⟩
    rw [walkItems, hread]
    simp only [bind, Except.bind, hclose]
    rfl
  | @more f l w w' d more hw hf hw' hl =>
    simp only [List.append_assoc, List.cons_append] at hfuel ⊢
    have hends : EndsNumber (w' ++ 0x2C :: (more ++ rest)) := endsNumber_append hw' (.inl rfl)
    have hcomma : skipBlank (w' ++ 0x2C :: (more ++ rest)) = 0x2C :: (more ++ rest) :=
      skipBlank_append hw' _
    have hinside : 2 * (d ++ (w' ++ 0x2C :: (more ++ rest))).length ≤ fuel := by
      simp at hfuel ⊢; omega
    have hbehind : 2 * (more ++ rest).length + 1 ≤ fuel := by simp at hfuel ⊢; omega
    obtain ⟨a, hread, ha⟩ :=
      hf.walk hb (hf.skipBlank_append hw _) (f.ends_of_endsNumber hends) hinside
    obtain ⟨items, hmore, hitems⟩ := hl.walk hb hbehind
    refine ⟨a :: items, ?_, .cons ha hitems⟩
    rw [walkItems, hread]
    simp only [bind, Except.bind, hcomma, hmore]
    rfl

/-- A member is read up to what stands behind it; what follows there is another step. -/
theorem SpellsMember.walk {m : Octets × Form} {d : Octets} (h : SpellsMember m d)
    (hb : b.Complete R K) {rest : Octets} (hrest : EndsNumber rest) {fuel : Nat}
    (hfuel : 2 * (d ++ rest).length ≤ fuel) :
    ∃ k a, K k m.1 ∧ R a m.2 ∧
      walkMembers b (fuel + 1) (d ++ rest) = b.behindMember fuel (k, a) rest := by
  cases h with
  | @mk body f w₁ w₂ w₃ d hw₁ hk hw₂ hw₃ hf =>
    simp only [List.append_assoc, List.cons_append] at hfuel ⊢
    obtain ⟨k, hname, hk⟩ := hb.name _ (w₂ ++ 0x3A :: (w₃ ++ (d ++ rest))) hk
    have hinside : 2 * (d ++ rest).length ≤ fuel := by simp at hfuel ⊢; omega
    obtain ⟨a, hread, ha⟩ :=
      hf.walk hb (hf.skipBlank_append hw₃ _) (f.ends_of_endsNumber hrest) hinside
    refine ⟨k, a, hk, ha, ?_⟩
    have hquote : ∀ t, skipBlank (w₁ ++ 0x22 :: t) = 0x22 :: t :=
      fun t => skipBlank_append hw₁ (0x22 :: t)
    have hletter : letter 0x22 = '"' := rfl
    rw [walkMembers, hquote]
    simp only [if_pos hletter, bind, Except.bind, hname, colon_append hw₂, hread]
    rfl

theorem SpellsMembers.walk {l : List (Octets × Form)} {d : Octets} (h : SpellsMembers l d)
    (hb : b.Complete R K) {rest : Octets} {fuel : Nat} (hfuel : 2 * (d ++ rest).length + 1 ≤ fuel) :
    ∃ members, walkMembers b fuel (d ++ rest) = .ok (members, rest) ∧
      List.Forall₂ (fun m f => K m.1 f.1 ∧ R m.2 f.2) members l := by
  obtain ⟨fuel, rfl⟩ : ∃ n, fuel = n + 1 := ⟨fuel - 1, by omega⟩
  cases h with
  | @last m w d hm hw =>
    simp only [List.append_assoc, List.cons_append, List.nil_append] at hfuel ⊢
    have hends : EndsNumber (w ++ 0x7D :: rest) := endsNumber_append hw (.inr (.inr rfl))
    have hclose : skipBlank (w ++ 0x7D :: rest) = 0x7D :: rest := skipBlank_append hw _
    have hinside : 2 * (d ++ (w ++ 0x7D :: rest)).length ≤ fuel := by simp at hfuel ⊢; omega
    obtain ⟨k, a, hk, ha, hread⟩ := hm.walk hb hends hinside
    refine ⟨[(k, a)], ?_, .cons ⟨hk, ha⟩ .nil⟩
    rw [hread, Builder.behindMember, hclose]
    rfl
  | @more m l w d more hm hw hl =>
    simp only [List.append_assoc, List.cons_append] at hfuel ⊢
    have hends : EndsNumber (w ++ 0x2C :: (more ++ rest)) := endsNumber_append hw (.inl rfl)
    have hcomma : skipBlank (w ++ 0x2C :: (more ++ rest)) = 0x2C :: (more ++ rest) :=
      skipBlank_append hw _
    have hinside : 2 * (d ++ (w ++ 0x2C :: (more ++ rest))).length ≤ fuel := by
      simp at hfuel ⊢; omega
    have hbehind : 2 * (more ++ rest).length + 1 ≤ fuel := by simp at hfuel ⊢; omega
    obtain ⟨k, a, hk, ha, hread⟩ := hm.walk hb hends hinside
    obtain ⟨members, hmore, hmembers⟩ := hl.walk hb hbehind
    refine ⟨(k, a) :: members, ?_, .cons ⟨hk, ha⟩ hmembers⟩
    rw [hread, Builder.behindMember, hcomma]
    simp only [hmore]
    rfl
end

end Completeness

section Mapped
variable {β : Type} {make : Octets → β} {a : β} {s rest : Octets}

theorem isBody_of_map (h : (skipString s).map (fun rest => (make rest, rest)) = .ok (a, rest)) :
    ∃ body, IsBody body ∧ a = make rest ∧ s = body ++ 0x22 :: rest := by
  obtain ⟨t, ht, hpair⟩ := map_eq_ok_iff.mp h
  cases hpair
  obtain ⟨body, hbody, hs⟩ := isBody_of_skipString ht
  exact ⟨body, hbody, rfl, hs⟩

theorem map_body {body : Octets} (h : IsBody body) (rest : Octets) :
    (skipString (body ++ 0x22 :: rest)).map (fun rest => (make rest, rest)) =
      .ok (make rest, rest) := by
  rw [skipString_body h]
  rfl

theorem isNumeral_of_map (h : (skipNumeral s).map (fun rest => (make rest, rest)) = .ok (a, rest)) :
    ∃ d, IsNumeral d ∧ a = make rest ∧ s = d ++ rest := by
  obtain ⟨t, ht, hpair⟩ := map_eq_ok_iff.mp h
  cases hpair
  obtain ⟨d, hd, hs⟩ := isNumeral_of_skipNumeral ht
  exact ⟨d, hd, rfl, hs⟩

theorem map_numeral {d : Octets} (h : IsNumeral d) (hrest : EndsNumber rest) :
    (skipNumeral (d ++ rest)).map (fun rest => (make rest, rest)) = .ok (make rest, rest) := by
  rw [skipNumeral_numeral h hrest]
  rfl

end Mapped

theorem nothing_groups : nothing.Groups (fun _ _ => True) (fun _ _ => True) :=
  ⟨trivial, fun _ => trivial, fun _ _ _ => trivial, fun _ _ _ => trivial⟩

theorem nothing_sound : nothing.Sound (fun _ _ => True) (fun _ _ => True) where
  toGroups := nothing_groups
  number _ _ _ _ h := by
    obtain ⟨d, hd, -, hs⟩ := isNumeral_of_map h
    exact ⟨d, hd, trivial, hs⟩
  string _ _ _ h := by
    obtain ⟨body, hbody, -, hs⟩ := isBody_of_map h
    exact ⟨body, hbody, trivial, hs⟩
  name _ _ _ h := by
    obtain ⟨body, hbody, -, hs⟩ := isBody_of_map h
    exact ⟨body, hbody, trivial, hs⟩

theorem nothing_complete : nothing.Complete (fun _ _ => True) (fun _ _ => True) where
  toGroups := nothing_groups
  number _ _ _ hd hrest := ⟨(), map_numeral hd hrest, trivial⟩
  string _ rest hbody := ⟨(), map_body hbody rest, trivial⟩
  name _ rest hbody := ⟨(), map_body hbody rest, trivial⟩

def before (s rest : Octets) : Octets := s.take (s.length - rest.length)

theorem before_append (d rest : Octets) : before (d ++ rest) rest = d := by
  rw [before, List.length_append, Nat.add_sub_cancel, List.take_left]

def forms : Builder Form Octets where
  null := .null
  boolean := .boolean
  number := fun negative s =>
    (skipNumeral s).map fun rest => (.number negative (before s rest), rest)
  string := fun s => (skipString s).map fun rest => (.string (before s (0x22 :: rest)), rest)
  name := fun s => (skipString s).map fun rest => (before s (0x22 :: rest), rest)
  array := .array
  object := .object

theorem forms_groups : forms.Groups Eq Eq where
  null := rfl
  boolean _ := rfl
  array items fs h := by
    rw [List.forall₂_eq_eq_eq] at h
    exact congrArg Form.array h
  object members fs h := by
    have heq : List.Forall₂ (fun m f : Octets × Form => m = f) members fs :=
      h.imp fun m f hmf => Prod.ext hmf.1 hmf.2
    rw [List.forall₂_eq_eq_eq] at heq
    exact congrArg Form.object heq

theorem forms_sound : forms.Sound Eq Eq where
  toGroups := forms_groups
  number _ _ _ _ h := by
    obtain ⟨d, hd, rfl, rfl⟩ := isNumeral_of_map h
    exact ⟨d, hd, by rw [before_append], rfl⟩
  string _ _ _ h := by
    obtain ⟨body, hbody, rfl, rfl⟩ := isBody_of_map h
    exact ⟨body, hbody, by rw [before_append], rfl⟩
  name _ _ _ h := by
    obtain ⟨body, hbody, rfl, rfl⟩ := isBody_of_map h
    exact ⟨body, hbody, before_append .., rfl⟩

theorem forms_complete : forms.Complete Eq Eq where
  toGroups := forms_groups
  number _ d rest hd hrest := ⟨_, map_numeral hd hrest, by rw [before_append]⟩
  string body rest hbody := ⟨_, map_body hbody rest, by rw [before_append]⟩
  name body rest hbody := ⟨_, map_body hbody rest, before_append ..⟩

section Values
variable {f f' : Form} {d d' s rest rest' : Octets}

/-- What is passed over is a value. -/
theorem spells_of_skipValue (h : skipValue s = .ok rest) :
    ∃ f d, Spells f d ∧ skipBlank s = d ++ rest := by
  obtain ⟨⟨_, t⟩, ht, rfl⟩ := map_eq_ok_iff.mp h
  obtain ⟨f, d, hd, -, hs⟩ := walk_sound nothing_sound _ ht
  exact ⟨f, d, hd, hs⟩

theorem length_skipBlank_le (s : Octets) : (skipBlank s).length ≤ s.length :=
  List.length_dropWhile_le _ _

/-- Every value is passed over. -/
theorem Spells.skipValue (h : Spells f d) (hs : skipBlank s = d ++ rest) (hrest : f.Ends rest) :
    skipValue s = .ok rest := by
  have hfuel : 2 * (d ++ rest).length ≤ walkFuel s := by
    have hlen := length_skipBlank_le s
    rw [hs] at hlen
    rw [walkFuel]
    omega
  obtain ⟨_, hread, -⟩ := h.walk nothing_complete hs hrest hfuel
  exact map_eq_ok_iff.mpr ⟨_, hread, rfl⟩

/-- At most one value stands at a place, and it has one form. -/
theorem Spells.unique (h : Spells f d) (h' : Spells f' d') (heq : d ++ rest = d' ++ rest')
    (hrest : f.Ends rest) (hrest' : f'.Ends rest') : f = f' ∧ rest = rest' := by
  have hs : Json.skipBlank (d ++ rest) = d ++ rest := h.skipBlank_append (w := []) nofun rest
  obtain ⟨_, hread, rfl⟩ := h.walk forms_complete hs hrest (Nat.le_refl _)
  obtain ⟨_, hread', rfl⟩ := h'.walk forms_complete (hs.trans heq) hrest' (Nat.le_refl _)
  rw [← heq, hread] at hread'
  cases hread'
  exact ⟨rfl, rfl⟩

end Values

inductive IsObject : List (Octets × Form) → Octets → Prop where
  | mk {raw : List (Octets × Form)} {w w' d : Octets} (hw : Blank w) (hd : Spells (.object raw) d)
      (hw' : Blank w') : IsObject raw (w ++ (d ++ w'))

section Objects
variable {s : Octets}

theorem IsObject.head {raw : List (Octets × Form)} (h : IsObject raw s) :
    (skipBlank s).head? = some 0x7B := by
  obtain ⟨hw, hd, -⟩ := h
  rw [hd.skipBlank_append hw]
  cases hd <;> rfl

/-- Behind an object that ends a document only blanks can be added. -/
theorem IsObject.append {raw raw' : List (Octets × Form)} {x : Octets} (h : IsObject raw s)
    (h' : IsObject raw' (s ++ x)) : raw = raw' ∧ Blank x := by
  obtain @⟨w, w', d, hw, hd, hw'⟩ := h
  generalize hu : w ++ (d ++ w') ++ x = u at h'
  obtain @⟨w₁, w₁', d₁, hw₁, hd₁, hw₁'⟩ := h'
  have hsame : d ++ (w' ++ x) = d₁ ++ w₁' := by
    rw [← hd.skipBlank_append hw, ← hd₁.skipBlank_append hw₁, ← hu]
    simp only [List.append_assoc]
  obtain ⟨hform, hrest⟩ := hd.unique hd₁ hsame trivial trivial
  refine ⟨Form.object.inj hform, fun b hb => hw₁' b ?_⟩
  rw [← hrest]
  exact List.mem_append_right _ hb

theorem IsObject.unique {raw raw' : List (Octets × Form)} (h : IsObject raw s)
    (h' : IsObject raw' s) : raw = raw' := by
  rw [← List.append_nil s] at h'
  exact (h.append h').1

end Objects

end RowGate.Json
