import RowGate.Proofs.Record.Values

/-! # What an object puts into slots

The members of an object are taken one after the other: each fills the free slot of the member of
its name, or none when there is no such member, and then its value is only passed over. So the slots
of a document are told by the names and forms of its members, and reading is sound and complete for
this relation on the objects of the grammar.
-/
namespace RowGate
open Json

abbrev Entry := String × Form

def Entries (raw : List (Octets × Form)) (l : List Entry) : Prop :=
  List.Forall₂ (fun m e => ReadsAs m.1 e.1 ∧ m.2 = e.2) raw l

theorem ReadsAs.unique {body : Octets} {t t' : String} (h : ReadsAs body t) (h' : ReadsAs body t') :
    t = t' := by
  have heq := (h []).symm.trans (h' [])
  cases heq
  rfl

theorem Entries.unique {raw : List (Octets × Form)} {l l' : List Entry} (h : Entries raw l)
    (h' : Entries raw l') : l = l' := by
  induction h generalizing l' with
  | nil =>
    cases h'
    rfl
  | @cons m e raw l hm _ ih =>
    cases h' with
    | @cons _ e' _ l' hm' hl' =>
      rw [ih hl', Prod.ext (hm.1.unique hm'.1) (hm.2.symm.trans hm'.2)]

namespace Slots

def Put : (ms : List Member) → Slots ms → Entry → Slots ms → Prop
  | [], _, _, _ => True
  | m :: ms, (slot, slots), e, (slot', slots') =>
    if m.name = e.1 then slot = none ∧ (∃ v, slot' = some v ∧ m.kind.Gives e.2 v) ∧ slots' = slots
    else slot' = slot ∧ Put ms slots e slots'

inductive PutAll (ms : List Member) : Slots ms → List Entry → Slots ms → Prop where
  | nil (slots : Slots ms) : PutAll ms slots [] slots
  | cons {slots slots' slots'' : Slots ms} {e : Entry} {l : List Entry} (h : Put ms slots e slots')
      (hl : PutAll ms slots' l slots'') : PutAll ms slots (e :: l) slots''

variable {ms : List Member} {slots slots' : Slots ms} {name : String} {s rest : Octets}

/-- A slot is filled with what the form behind the colon gives. -/
theorem fill_sound (h : fill ms slots name s = .ok (some (slots', rest))) :
    ∃ w w' f d, Blank w ∧ Blank w' ∧ Spells f d ∧ Put ms slots (name, f) slots' ∧
      s = w ++ 0x3A :: (w' ++ (d ++ rest)) := by
  induction ms with
  | nil => cases h
  | cons m ms ih =>
    obtain ⟨slot, slots⟩ := slots
    rw [fill.eq_def] at h
    simp only at h
    split at h
    · next hname =>
      cases slot with
      | some v => cases h
      | none =>
        obtain ⟨t, ht, hread⟩ := bind_eq_ok_iff.mp h
        obtain ⟨⟨v, t'⟩, hv, hpair⟩ := bind_eq_ok_iff.mp hread
        cases hpair
        obtain ⟨w, hw, rfl⟩ := colon_eq_ok ht
        obtain ⟨f, d, hd, hf, hs⟩ := Record.readValue_sound m.kind hv
        obtain ⟨w', hw', rfl⟩ := exists_blank_of_skipBlank hs
        refine ⟨w, w', f, d, hw, hw', hd, ?_, rfl⟩
        rw [Put, if_pos hname]
        exact ⟨rfl, ⟨v, rfl, hf⟩, rfl⟩
    · next hname =>
      obtain ⟨r, hr, hmore⟩ := bind_eq_ok_iff.mp h
      cases r with
      | none => cases hmore
      | some p =>
        cases hmore
        obtain ⟨w, w', f, d, hw, hw', hd, hput, hs⟩ := ih hr
        refine ⟨w, w', f, d, hw, hw', hd, ?_, hs⟩
        rw [Put, if_neg hname]
        exact ⟨rfl, hput⟩

/-- The name of no member puts nothing. -/
theorem put_of_fill_eq_none (h : fill ms slots name s = .ok none) (f : Form) :
    Put ms slots (name, f) slots := by
  induction ms with
  | nil => trivial
  | cons m ms ih =>
    obtain ⟨slot, slots⟩ := slots
    rw [fill.eq_def] at h
    simp only at h
    split at h
    · cases slot with
      | some v => cases h
      | none =>
        obtain ⟨t, ht, hread⟩ := bind_eq_ok_iff.mp h
        obtain ⟨p, hv, hpair⟩ := bind_eq_ok_iff.mp hread
        cases hpair
    · next hname =>
      obtain ⟨r, hr, hmore⟩ := bind_eq_ok_iff.mp h
      cases r with
      | some p => cases hmore
      | none =>
        rw [Put, if_neg hname]
        exact ⟨rfl, ih hr⟩

/-- An entry is read into its slot, or it has none. -/
theorem fill_complete {f : Form} {d w w' : Octets} (hput : Put ms slots (name, f) slots')
    (hd : Spells f d) (hw : Blank w) (hw' : Blank w') (hrest : EndsNumber rest) :
    fill ms slots name (w ++ 0x3A :: (w' ++ (d ++ rest))) = .ok (some (slots', rest)) ∨
      fill ms slots name (w ++ 0x3A :: (w' ++ (d ++ rest))) = .ok none ∧ slots' = slots := by
  induction ms with
  | nil => exact .inr ⟨rfl, rfl⟩
  | cons m ms ih =>
    obtain ⟨slot, slots⟩ := slots
    obtain ⟨slot', slots'⟩ := slots'
    rw [Put] at hput
    rw [fill.eq_def]
    simp only
    split at hput
    · next hname =>
      obtain ⟨rfl, ⟨v, rfl, hv⟩, rfl⟩ := hput
      have hread := Record.readValue_complete m.kind hd (hd.skipBlank_append hw' rest) hrest hv
      left
      simp only [if_pos hname, bind, Except.bind, colon_append hw, hread]
    · next hname =>
      obtain ⟨rfl, hput⟩ := hput
      simp only [if_neg hname, bind, Except.bind]
      rcases ih hput with hfill | ⟨hfill, rfl⟩
      · left
        simp only [hfill]
      · right
        simp only [hfill, and_self]

end Slots

namespace Schema
variable {ms : List Member} {slots slots' : Slots ms} {s t rest : Octets} {fuel : Nat}

def takeMember (ms : List Member) (slots : Slots ms) (s : Octets) :
    Except Fault (Slots ms × Octets) := do
  let (name, rest) ← stringText s
  match ← slots.fill ms name rest with
  | some read => .ok read
  | none => do
    let rest ← colon rest
    let rest ← skipValue rest
    .ok (slots, rest)

theorem takeMember_sound (h : takeMember ms slots s = .ok (slots', rest)) :
    ∃ m e d, SpellsMember m d ∧ ReadsAs m.1 e.1 ∧ m.2 = e.2 ∧ slots.Put ms e slots' ∧
      0x22 :: s = d ++ rest := by
  obtain ⟨⟨name, t⟩, hname, hfill⟩ := bind_eq_ok_iff.mp h
  obtain ⟨r, hr, hmore⟩ := bind_eq_ok_iff.mp hfill
  obtain ⟨body, hbody, rfl, hread⟩ := stringText_body hname
  have hquote : Blank [] := nofun
  cases r with
  | some p =>
    cases hmore
    obtain ⟨w, w', f, d, hw, hw', hd, hput, rfl⟩ := Slots.fill_sound hr
    exact ⟨(body, f), (name, f), _, .mk hquote hbody hw hw' hd, hread, rfl, hput, by simp⟩
  | none =>
    obtain ⟨t₁, hcolon, hskip⟩ := bind_eq_ok_iff.mp hmore
    obtain ⟨t₂, hvalue, hpair⟩ := bind_eq_ok_iff.mp hskip
    cases hpair
    obtain ⟨w, hw, rfl⟩ := colon_eq_ok hcolon
    obtain ⟨f, d, hd, hs⟩ := spells_of_skipValue hvalue
    obtain ⟨w', hw', rfl⟩ := exists_blank_of_skipBlank hs
    exact ⟨(body, f), (name, f), _, .mk hquote hbody hw hw' hd, hread, rfl,
      Slots.put_of_fill_eq_none hr f, by simp⟩

theorem takeMember_complete {m : Octets × Form} {e : Entry} {d : Octets} (hd : SpellsMember m d)
    (hname : ReadsAs m.1 e.1) (hform : m.2 = e.2) (hput : slots.Put ms e slots')
    (hrest : EndsNumber rest) (hs : skipBlank (d ++ rest) = 0x22 :: s) :
    takeMember ms slots s = .ok (slots', rest) := by
  cases hd with
  | @mk body f w₁ w₂ w₃ d hw₁ hk hw₂ hw₃ hf =>
    obtain ⟨name, f'⟩ := e
    obtain rfl : f = f' := hform
    simp only [List.append_assoc, List.cons_append] at hs
    rw [skipBlank_append hw₁] at hs
    obtain rfl : body ++ 0x22 :: (w₂ ++ 0x3A :: (w₃ ++ (d ++ rest))) = s := (List.cons.inj hs).2
    have hread := hname (w₂ ++ 0x3A :: (w₃ ++ (d ++ rest)))
    rcases Slots.fill_complete hput hf hw₂ hw₃ hrest with hfill | ⟨hfill, rfl⟩
    · simp only [takeMember, hread, hfill, bind, Except.bind]
    · have hskip : skipValue (w₃ ++ (d ++ rest)) = .ok rest :=
        hf.skipValue (hf.skipBlank_append hw₃ rest) (f.ends_of_endsNumber hrest)
      simp only [takeMember, hread, hfill, bind, Except.bind, colon_append hw₂, hskip]

/-- The opening quote of the next member, which stands behind a comma if it is not the first. -/
def Opens (first : Bool) (s t : Octets) : Prop :=
  if first then skipBlank s = 0x22 :: t else
    ∃ s', skipBlank s = 0x2C :: s' ∧ skipBlank s' = 0x22 :: t

theorem readMembers_close (first : Bool) (hs : skipBlank s = 0x7D :: rest) :
    readMembers ms (fuel + 1) first slots s = .ok (slots, rest) := by
  rw [readMembers, hs]
  rfl

theorem takeMember_bind {β : Type} (next : Slots ms × Octets → Except Fault β) :
    takeMember ms slots s >>= next = stringText s >>= fun p =>
      slots.fill ms p.1 p.2 >>= fun r => match r with
        | some (slots, rest) => next (slots, rest)
        | none => colon p.2 >>= fun rest => skipValue rest >>= fun rest => next (slots, rest) := by
  rw [takeMember]
  cases stringText s with
  | error f => rfl
  | ok p =>
    change (slots.fill ms p.1 p.2 >>= _) >>= next = slots.fill ms p.1 p.2 >>= _
    cases slots.fill ms p.1 p.2 with
    | error f => rfl
    | ok r =>
      cases r with
      | some read => rfl
      | none =>
        change (colon p.2 >>= _) >>= next = colon p.2 >>= _
        cases colon p.2 with
        | error f => rfl
        | ok t =>
          change (skipValue t >>= _) >>= next = skipValue t >>= _
          cases skipValue t <;> rfl

/-- The other members stand behind the one that starts here. -/
theorem readMembers_open {first : Bool} (h : Opens first s t) :
    readMembers ms (fuel + 1) first slots s =
      takeMember ms slots t >>= fun read => readMembers ms fuel false read.1 read.2 := by
  have hquote : letter 0x22 = '"' := rfl
  have hcomma : letter 0x2C = ',' := rfl
  have hquoteEnds : letter 0x22 ≠ '\x7d' := by decide
  have hcommaEnds : letter 0x2C ≠ '\x7d' := by decide
  rw [readMembers, takeMember_bind]
  cases first with
  | true =>
    rw [Opens, if_pos rfl] at h
    rw [h]
    exact (if_neg hquoteEnds).trans ((if_pos rfl).trans (if_pos hquote))
  | false =>
    rw [Opens, if_neg Bool.false_ne_true] at h
    obtain ⟨s', hs, hs'⟩ := h
    rw [hs]
    dsimp only
    rw [hs']
    exact (if_neg hcommaEnds).trans
      ((if_neg Bool.false_ne_true).trans ((if_pos hcomma).trans (if_pos hquote)))

theorem readMembers_eq_ok {first : Bool}
    (h : readMembers ms (fuel + 1) first slots s = .ok (slots', rest)) :
    skipBlank s = 0x7D :: rest ∧ slots' = slots ∨ ∃ t, Opens first s t := by
  rw [readMembers] at h
  simp only at h
  split at h
  · cases h
  next b s₁ hs =>
  split at h
  · next hb =>
    cases h
    obtain rfl : b = 0x7D := octet_of_letter hb
    exact .inl ⟨hs, rfl⟩
  right
  split at h
  · next hfirst =>
    split at h
    · next hb =>
      obtain rfl : b = 0x22 := octet_of_letter hb
      exact ⟨s₁, by rw [Opens, if_pos hfirst, hs]⟩
    · cases h
  next hfirst =>
  split at h
  · next hb =>
    obtain rfl : b = 0x2C := octet_of_letter hb
    split at h
    · cases h
    next q s₂ hs₁ =>
    split at h
    · next hq =>
      obtain rfl : q = 0x22 := octet_of_letter hq
      exact ⟨s₂, by rw [Opens, if_neg hfirst]; exact ⟨s₁, hs, hs₁⟩⟩
    · cases h
  · cases h

theorem readMembers_sound {first : Bool}
    (h : readMembers ms fuel first slots s = .ok (slots', rest)) :
    skipBlank s = 0x7D :: rest ∧ slots' = slots ∨
      ∃ raw d l, SpellsMembers raw d ∧ Entries raw l ∧ slots.PutAll ms l slots' ∧
        if first then skipBlank s = d ++ rest else
          ∃ w, Blank w ∧ s = w ++ 0x2C :: (d ++ rest) := by
  induction fuel generalizing first slots s with
  | zero => cases h
  | succ fuel ih =>
    rcases readMembers_eq_ok h with hclose | ⟨t, ht⟩
    · exact .inl hclose
    right
    rw [readMembers_open ht] at h
    obtain ⟨⟨slots₁, s₁⟩, htake, hmore⟩ := bind_eq_ok_iff.mp h
    obtain ⟨m, e, d, hd, hname, hform, hput, hs⟩ := takeMember_sound htake
    obtain ⟨raw, d, l, hraw, hl, hall, hd⟩ : ∃ raw d l, SpellsMembers raw d ∧ Entries raw l ∧
        slots.PutAll ms l slots' ∧ 0x22 :: t = d ++ rest := by
      rcases ih hmore with ⟨hclose, rfl⟩ | ⟨raw, more, l, hraw, hl, hall, hbehind⟩
      · obtain ⟨w, hw, rfl⟩ := exists_blank_of_skipBlank hclose
        exact ⟨_, _, _, .last hd hw, .cons ⟨hname, hform⟩ .nil, .cons hput (.nil _), by simp [hs]⟩
      · obtain ⟨w, hw, rfl⟩ := hbehind
        exact ⟨_, _, _, .more hd hw hraw, .cons ⟨hname, hform⟩ hl, .cons hput hall, by simp [hs]⟩
    cases first with
    | true => exact ⟨raw, d, l, hraw, hl, hall, Eq.trans ht hd⟩
    | false =>
      obtain ⟨s', hs', ht'⟩ := ht
      obtain ⟨w, hw, rfl⟩ := exists_blank_of_skipBlank hs'
      obtain ⟨w', hw', rfl⟩ := exists_blank_of_skipBlank ht'
      refine ⟨raw, w' ++ d, l, hraw.behind_blank hw', hl, hall, w, hw, ?_⟩
      rw [hd, List.append_assoc]

theorem readMembers_complete {raw : List (Octets × Form)} {d : Octets} {l : List Entry}
    (hd : SpellsMembers raw d) (hl : Entries raw l) (hall : slots.PutAll ms l slots')
    (hfuel : raw.length < fuel) {first : Bool} (hs : if first then s = d ++ rest else
      ∃ w, Blank w ∧ s = w ++ 0x2C :: (d ++ rest)) :
    readMembers ms fuel first slots s = .ok (slots', rest) := by
  induction raw generalizing d l slots fuel first s with
  | nil => cases hd
  | cons m raw ih =>
    obtain ⟨fuel, rfl⟩ : ∃ n, fuel = n + 1 := ⟨fuel - 1, by omega⟩
    rw [List.length_cons] at hfuel
    obtain ⟨t, ht⟩ := hd.exists_quote rest
    have hopens : Opens first s t := by
      cases first with
      | true =>
        obtain rfl := hs
        exact ht
      | false =>
        obtain ⟨w, hw, rfl⟩ := hs
        exact ⟨_, skipBlank_append hw _, ht⟩
    rw [readMembers_open hopens]
    cases hl with
    | @cons _ e _ l hm hl =>
    cases hall with
    | @cons _ slots₁ _ _ _ hput hall =>
    cases hd with
    | @last _ w d hd hw =>
      cases hl
      cases hall
      obtain ⟨fuel, rfl⟩ : ∃ n, fuel = n + 1 := ⟨fuel - 1, by omega⟩
      simp only [List.append_assoc, List.cons_append, List.nil_append] at ht
      have hclose : skipBlank (w ++ 0x7D :: rest) = 0x7D :: rest := skipBlank_append hw _
      have hends : EndsNumber (w ++ 0x7D :: rest) := endsNumber_append hw (.inr (.inr rfl))
      rw [takeMember_complete hd hm.1 hm.2 hput hends ht]
      exact readMembers_close false hclose
    | @more _ _ w d more hd hw hmore =>
      simp only [List.append_assoc, List.cons_append] at ht
      have hends : EndsNumber (w ++ 0x2C :: (more ++ rest)) := endsNumber_append hw (.inl rfl)
      rw [takeMember_complete hd hm.1 hm.2 hput hends ht]
      exact ih hmore hl hall (by omega) ⟨w, hw, rfl⟩

section Given
variable {c : Schema} {slots : Slots c.members}

/-- What an object gives is put there by its entries. -/
theorem given_sound (h : c.given s = .ok slots) (hs : (skipBlank s).head? = some 0x7B) :
    ∃ raw l, IsObject raw s ∧ Entries raw l ∧
      (Slots.empty c.members).PutAll c.members l slots := by
  obtain ⟨rest, hread, hrest⟩ := finished_eq_ok_iff.mp h
  have hblank : Blank rest := fun b hb => List.dropWhile_eq_nil_iff.mp hrest b hb
  unfold readGiven at hread
  split at hread
  · cases hread
  next b t ht =>
  rw [ht] at hs
  cases hs
  obtain ⟨w, hw, rfl⟩ := exists_blank_of_skipBlank ht
  have hread : readMembers c.members (t.length + 1) true (Slots.empty c.members) t =
      .ok (slots, rest) := hread
  rcases readMembers_sound hread with ⟨hclose, rfl⟩ | ⟨raw, d, l, hd, hl, hall, hbody⟩
  · obtain ⟨w', hw', rfl⟩ := exists_blank_of_skipBlank hclose
    have hobject := IsObject.mk hw (.noMembers hw') hblank
    exact ⟨[], [], by simpa using hobject, .nil, .nil _⟩
  · obtain ⟨w', hw', rfl⟩ := exists_blank_of_skipBlank (if_pos rfl ▸ hbody)
    have hobject := IsObject.mk hw (.object (hd.behind_blank hw')) hblank
    exact ⟨raw, l, by simpa using hobject, hl, hall⟩

/-- Every object gives what its entries put. -/
theorem given_complete {raw : List (Octets × Form)} {l : List Entry} (hs : IsObject raw s)
    (hl : Entries raw l) (hall : (Slots.empty c.members).PutAll c.members l slots) :
    c.given s = .ok slots := by
  obtain @⟨w, rest, d, hw, hd, hrest⟩ := hs
  refine finished_eq_ok_iff.mpr ⟨rest, ?_, skipBlank_blank hrest⟩
  rw [readGiven, hd.skipBlank_append hw]
  cases hd with
  | @noMembers w' hw' =>
    cases hl
    cases hall
    have hclose : skipBlank (w' ++ 0x7D :: rest) = 0x7D :: rest := skipBlank_append hw' _
    simp only [List.cons_append, List.append_assoc, List.nil_append]
    exact readMembers_close true hclose
  | @object _ d hd =>
    have hlen := hd.length_le
    have hfuel : raw.length < (d ++ rest).length + 1 := by
      rw [List.length_append]
      omega
    exact readMembers_complete hd hl hall hfuel rfl

end Given

end Schema
end RowGate
