import RowGate.Proofs.Record.Members
import RowGate.Proofs.Settings

/-! # Cut documents

An object ends where its braces are closed, and what stands before that place is no object. So of a
document that ends with its closing brace no beginning is accepted, wherever it was cut: inside a
name, an escape, a number or a value that is only passed over, or between two members when those
that follow have defaults.
-/
namespace RowGate
open Json

structure Braced (t : Octets) : Prop where
  opened : (skipBlank t).head? = some 0x7B
  closed : t.getLast? = some 0x7D

/-- Of a document that is accepted nothing less is. -/
def RefusesCuts {ε α : Type} (decode : Octets → Except ε α) : Prop :=
  ∀ t v p, Braced t → decode t = .ok v → p <+: t → p ≠ t → ∃ f, decode p = .error f

theorem exists_error {ε α : Type} {x : Except ε α} (h : ∀ v, x ≠ .ok v) : ∃ f, x = .error f := by
  cases x with
  | ok v => exact absurd rfl (h v)
  | error f => exact ⟨f, rfl⟩

theorem not_blank_of_getLast {p x : Octets} (h : (p ++ x).getLast? = some 0x7D) (hx : x ≠ []) :
    ¬ Blank x := by
  intro hblank
  rw [List.getLast?_append_of_ne_nil _ hx] at h
  have hspace := hblank _ (List.mem_of_getLast? h)
  cases hspace

namespace Schema
variable {c : Schema} {p x : Octets}

/-- What is given by a beginning of an object starts with the brace of the object. -/
theorem head_of_given {slots : Slots c.members} (h : c.given p = .ok slots)
    (hx : (skipBlank (p ++ x)).head? = some 0x7B) : (skipBlank p).head? = some 0x7B := by
  cases hs : skipBlank p with
  | nil =>
    obtain ⟨rest, hread, -⟩ := finished_eq_ok_iff.mp h
    rw [readGiven, hs] at hread
    cases hread
  | cons b s =>
    have hb := isSpace_of_skipBlank hs
    obtain ⟨w, hw, rfl⟩ := exists_blank_of_skipBlank hs
    rw [List.append_assoc, skipBlank_append hw, List.cons_append, skipBlank_cons hb] at hx
    exact hx

theorem decode_cut (c : Schema) : RefusesCuts c.decode := by
  rintro t row p ⟨hopened, hclosed⟩ ht ⟨x, rfl⟩ hne
  refine exists_error fun row' hp => ?_
  obtain ⟨slots, hgiven, -⟩ := (decode_eq_ok_iff c _ row).mp ht
  obtain ⟨slots', hgiven', -⟩ := (decode_eq_ok_iff c p row').mp hp
  obtain ⟨raw, -, hobject, -⟩ := given_sound hgiven hopened
  obtain ⟨raw', -, hobject', -⟩ := given_sound hgiven' (head_of_given hgiven' hopened)
  have hx : x ≠ [] := by
    rintro rfl
    exact hne (List.append_nil p).symm
  exact not_blank_of_getLast hclosed hx (hobject'.append hobject).2

end Schema

theorem RefusesCuts.map {ε α β : Type} {decode : Octets → Except ε α} (h : RefusesCuts decode)
    (f : α → β) : RefusesCuts fun s => (decode s).map f := by
  intro t v p ht hv hp hne
  obtain ⟨a, ha, -⟩ := map_eq_ok_iff.mp hv
  obtain ⟨e, he⟩ := h t a p ht ha hp hne
  exact ⟨e, by simp only [he, Except.map]⟩

theorem Settings.decode_of_ofFile {b : Octets} {s : Settings} (h : Settings.ofFile b = .ok s) :
    Settings.decode b = .ok s := by
  obtain ⟨l, ⟨-, hgiven⟩, rfl⟩ := Settings.ofFile_eq_ok_iff.mp h
  exact Settings.decode_eq_ok_iff.mpr ⟨l, hgiven, rfl⟩

theorem Settings.decode_cut : RefusesCuts Settings.decode := (Schema.decode_cut _).map _

theorem Settings.ofFile_cut : RefusesCuts Settings.ofFile := by
  intro t s p ht hs hp hne
  obtain ⟨f, hf⟩ := Settings.decode_cut t s p ht (Settings.decode_of_ofFile hs) hp hne
  refine exists_error fun s' hs' => ?_
  cases hf.symm.trans (Settings.decode_of_ofFile hs')

/-- No beginning of a document of a login, a selection, a reference to a table or settings is
accepted, and no run starts from a file of settings that was cut. -/
theorem cut_documents_refused :
    RefusesCuts Login.decode ∧ RefusesCuts Selection.decode ∧ RefusesCuts TableRef.decode ∧
    RefusesCuts Settings.decode ∧ RefusesCuts Settings.ofFile ∧
    ∀ t s p lookup, Braced t → Settings.ofFile t = .ok s → p <+: t → p ≠ t →
      ∃ f, Settings.load (some p) lookup = .error f := by
  refine ⟨(Schema.decode_cut _).map _, (Schema.decode_cut _).map _, (Schema.decode_cut _).map _,
    Settings.decode_cut, Settings.ofFile_cut, fun t s p lookup ht hs hp hne => ?_⟩
  obtain ⟨f, hf⟩ := Settings.ofFile_cut t s p ht hs hp hne
  exact ⟨f, by simp only [Settings.load, hf, bind, Except.bind]⟩

/-- A brace inside a text does not end the document, though the document ends with another. -/
theorem cut_documents_refused_in_text :
    Braced (Utf8.octets "\x7b\"log_level\":\"\x7d\"\x7d") ∧
      Settings.decode (Utf8.octets "\x7b\"log_level\":\"\x7d\"\x7d") =
        .ok { logLevel := "\x7d" } ∧
      ∃ f, Settings.decode (Utf8.octets "\x7b\"log_level\":\"\x7d") = .error f := by
  have ht : Braced (Utf8.octets "\x7b\"log_level\":\"\x7d\"\x7d") := ⟨by decide, by decide⟩
  have hs : Settings.decode (Utf8.octets "\x7b\"log_level\":\"\x7d\"\x7d") =
      .ok { logLevel := "\x7d" } := by
    decide +kernel
  exact ⟨ht, hs, cut_documents_refused.2.2.2.1 _ _ _ ht hs (by decide) (by decide)⟩

end RowGate
