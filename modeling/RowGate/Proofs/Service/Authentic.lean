import RowGate.Envelope
import RowGate.Proofs.Outcome
import RowGate.Proofs.Service.Operations

/-! # Nothing stored is used unless it opens

A store may give any octets for any key. A visit to a session connects only with the login that it
finds in them by reading the text, opening the envelope under its secret and decoding the payload;
where one of the three fails, nothing is tried and the failure is an internal one, so that octets
which were tampered with do not pass for a session that has expired.
-/
namespace RowGate.Service
variable {σ α : Type}

/-- The same world with the envelopes opened by their cipher. The store in it may give anything. -/
def World.unsealing (w : World σ) : World σ where
  respond s t
    | .decrypt envelope secret =>
      { w.respond s t (.decrypt envelope secret) with answer := Envelope.unwrap envelope secret }
    | c => w.respond s t c
  tick := w.tick
  tick_pos := w.tick_pos

theorem World.unsealing_decrypt (w : World σ) (s : σ) (t : Instant) (envelope secret : String) :
    w.unsealing.respond s t (.decrypt envelope secret) =
      { w.respond s t (.decrypt envelope secret) with answer := Envelope.unwrap envelope secret } :=
  rfl

inductive Access where
  | given (key : String) (stored : Octets)
  | tried (login : Login)
  deriving DecidableEq

def accesses : Pick Access
  | .store (.get key), _, some (.ok stored) => some (.given key (stored.getD []))
  | .connect login, _, _ => some (.tried login)
  | _, _, _ => none

/-- Nothing was tried, and the failure is neither the caller's nor that of an expired session. -/
structure Withheld (f : ServiceFault) (seen : List Access)
    (result : Result (Except ServiceFault α)) : Prop where
  untried : ∀ login, .tried login ∉ seen
  result_eq : result = .value (.error f)
  not_callers : f.isCallers = false
  not_expired : f ≠ .known .sessionExpired

structure Authentic (key secret : String) (seen : List Access)
    (result : Result (Except ServiceFault α)) : Prop where
  opened : ∀ login, .tried login ∈ seen ↔ ∃ stored envelope payload, .given key stored ∈ seen ∧
    Utf8.text stored = .ok envelope ∧ Envelope.unwrap envelope secret = .ok payload ∧
    Login.decode payload = .ok login
  no_text : ∀ stored f, .given key stored ∈ seen → Utf8.text stored = .error f →
    Withheld (.sealing (.malformed f.message)) seen result
  no_envelope : ∀ stored envelope f, .given key stored ∈ seen → Utf8.text stored = .ok envelope →
    Envelope.unwrap envelope secret = .error f → Withheld (.sealing f) seen result
  no_login : ∀ stored envelope payload f, .given key stored ∈ seen →
    Utf8.text stored = .ok envelope → Envelope.unwrap envelope secret = .ok payload →
    Login.decode payload = .error f → Withheld (.document f) seen result

def unsealed (secret : String) (stored : Octets) : Except ServiceFault Login :=
  match envelopeText stored with
  | .ok envelope => loginOf (Envelope.unwrap envelope secret)
  | .error f => .error f

section Unsealed
variable {secret envelope : String} {stored payload : Octets} {login : Login}

theorem unsealed_of_text_error {f : Utf8.Fault} (h : Utf8.text stored = .error f) :
    unsealed secret stored = .error (.sealing (.malformed f.message)) := by
  rw [unsealed, envelopeText, h]
  rfl

theorem unsealed_of_text (h : Utf8.text stored = .ok envelope) :
    unsealed secret stored = loginOf (Envelope.unwrap envelope secret) := by
  rw [unsealed, envelopeText, h]
  rfl

theorem loginOf_eq_ok_iff {opened : Except SealFault Octets} :
    loginOf opened = .ok login ↔
      ∃ payload, opened = .ok payload ∧ Login.decode payload = .ok login := by
  rw [loginOf, bind_eq_ok_iff]
  simp only [mapError_eq_ok_iff]

theorem unsealed_eq_ok_iff :
    unsealed secret stored = .ok login ↔ ∃ envelope payload, Utf8.text stored = .ok envelope ∧
      Envelope.unwrap envelope secret = .ok payload ∧ Login.decode payload = .ok login := by
  cases htext : Utf8.text stored with
  | error f => simp [unsealed_of_text_error htext]
  | ok envelope => simp [unsealed_of_text htext, loginOf_eq_ok_iff]

end Unsealed

inductive Visited (key secret : String) : List Access → Result (Except ServiceFault α) → Prop where
  | ungiven {result : Result (Except ServiceFault α)} : Visited key secret [] result
  | withheld {stored : Octets} {f : ServiceFault} (h : unsealed secret stored = .error f) :
      Visited key secret [.given key stored] (.value (.error f))
  | tried {stored : Octets} {login : Login} {result : Result (Except ServiceFault α)}
      (h : unsealed secret stored = .ok login) :
      Visited key secret [.given key stored, .tried login] result

section Visited
variable {key secret : String} {seen : List Access} {result : Result (Except ServiceFault α)}
  {stored : Octets}

theorem Visited.withheld_of {f : ServiceFault} (h : Visited key secret seen result)
    (hmem : .given key stored ∈ seen) (hf : unsealed secret stored = .error f)
    (hi : f.isCallers = false) : Withheld f seen result := by
  cases h with
  | ungiven => cases hmem
  | withheld h =>
    obtain rfl : stored = _ := by simpa using hmem
    obtain rfl := Except.error.inj (h.symm.trans hf)
    exact ⟨by simp, rfl, hi, by rintro rfl; cases hi⟩
  | tried h =>
    obtain rfl : stored = _ := by simpa using hmem
    cases h.symm.trans hf

theorem Visited.exists_of_tried {login : Login} (h : Visited key secret seen result)
    (hmem : .tried login ∈ seen) :
    ∃ stored, .given key stored ∈ seen ∧ unsealed secret stored = .ok login := by
  cases h with
  | ungiven => cases hmem
  | withheld _ => simp at hmem
  | tried h =>
    obtain rfl : login = _ := by simpa using hmem
    exact ⟨_, List.mem_cons_self, h⟩

theorem Visited.tried_of {login : Login} (h : Visited key secret seen result)
    (hmem : .given key stored ∈ seen) (hopen : unsealed secret stored = .ok login) :
    .tried login ∈ seen := by
  cases h with
  | ungiven => cases hmem
  | withheld h =>
    obtain rfl : stored = _ := by simpa using hmem
    cases h.symm.trans hopen
  | tried h =>
    obtain rfl : stored = _ := by simpa using hmem
    obtain rfl := Except.ok.inj (h.symm.trans hopen)
    exact List.mem_cons_of_mem _ List.mem_cons_self

theorem Visited.authentic (h : Visited key secret seen result) :
    Authentic key secret seen result where
  opened login := by
    constructor
    · intro hmem
      obtain ⟨stored, hgiven, h⟩ := h.exists_of_tried hmem
      obtain ⟨envelope, payload, hopened⟩ := unsealed_eq_ok_iff.mp h
      exact ⟨stored, envelope, payload, hgiven, hopened⟩
    · rintro ⟨stored, envelope, payload, hgiven, hopened⟩
      exact h.tried_of hgiven (unsealed_eq_ok_iff.mpr ⟨envelope, payload, hopened⟩)
  no_text stored f hmem htext := h.withheld_of hmem (unsealed_of_text_error htext) rfl
  no_envelope stored envelope f hmem htext hopen :=
    h.withheld_of hmem (by rw [unsealed_of_text htext, hopen]; rfl) rfl
  no_login stored envelope payload f hmem htext hopen hdecode :=
    h.withheld_of hmem (by rw [unsealed_of_text htext, hopen, loginOf_ok, hdecode]; rfl) rfl

end Visited

section Rules
variable {w : World σ} {s : σ} {t d : Instant} (sv : Service)

/-- Loading ends without octets and in a failure, or with what the octets unseal to. -/
theorem Leads.loadSession_accesses (key secret : String) :
    Leads accesses w.unsealing (sv.loadSession key secret d).run s t [] (fun r _ _ g =>
      (∃ f, r = .value (.error f) ∧ g = []) ∨
        ∃ stored, r = .value (unsealed secret stored) ∧ g = [.given key stored]) := by
  rw [leads_loadSession]
  split
  · exact .inl ⟨_, rfl, rfl⟩
  · refine Leads.ask (by simp) (World.keeps_true _ _) trivial ?_
    intro s' t' answer _
    rcases answer with _ | (f | stored)
    · exact .inl ⟨_, rfl, rfl⟩
    · cases f <;> exact .inl ⟨_, rfl, rfl⟩
    · have hread : sv.sessionRead (some (.ok stored)) >>= envelopeText =
          envelopeText (stored.getD []) := rfl
      simp only [onward, hread]
      cases htext : envelopeText (stored.getD []) with
      | error f => exact .inr ⟨_, by rw [unsealed, htext], rfl⟩
      | ok envelope => exact .inr ⟨_, by rw [unsealed, htext, World.unsealing_decrypt], rfl⟩

theorem Leads.load_then {key secret : String} {f : Login → Operation α}
    (h : ∀ stored login s' t', Leads accesses w.unsealing (f login).run s' t' [.given key stored]
      (fun _ _ _ seen => seen = [.given key stored, .tried login])) :
    Leads accesses w.unsealing (sv.loadSession key secret d >>= f).run s t []
      (fun r _ _ seen => Visited key secret seen r) := by
  rw [leads_then]
  refine (Leads.loadSession_accesses sv key secret).mono ?_
  rintro _ s' t' _ (⟨f, rfl, rfl⟩ | ⟨stored, rfl, rfl⟩)
  · exact .ungiven
  · cases hopen : unsealed secret stored with
    | error f => exact .withheld hopen
    | ok login =>
      rw [forward]
      refine (h stored login s' t').mono ?_
      rintro r _ _ _ rfl
      exact .tried hopen

theorem listTables_visited (key secret : String) :
    Leads accesses w.unsealing (sv.listTables key secret).run s t []
      (fun r _ _ seen => Visited key secret seen r) := by
  unfold Service.listTables
  rw [leads_deadline_then]
  refine Leads.load_then sv ?_
  intro stored login s' t'
  refine Leads.visit_then sv (World.keeps_true _ _) (World.keeps_true _ _) (World.keeps_true _ _)
    trivial (fun _ _ => rfl) (fun _ _ => rfl) (fun _ _ => rfl) (fun _ _ _ _ => rfl) ?_
  intro tables s'' t'' _
  rw [leads_told_then, leads_ok]
  rfl

theorem fetchRows_visited (key secret : String) (q : Selection) :
    Leads accesses w.unsealing (sv.fetchRows key secret q).run s t []
      (fun r _ _ seen => Visited key secret seen r) := by
  unfold Service.fetchRows
  refine Leads.check_then (fun _ _ => .ungiven) ?_
  intro _ _
  rw [leads_deadline_then]
  refine Leads.load_then sv ?_
  intro stored login s' t'
  rw [leads_told_then]
  refine Leads.visit_then sv (World.keeps_true _ _) (World.keeps_true _ _) (World.keeps_true _ _)
    trivial (fun _ _ => rfl) (fun _ _ => rfl) (fun _ _ => rfl) (fun _ _ _ _ => rfl) ?_
  intro rows s'' t'' _
  rw [leads_told_then, leads_ok]
  rfl

end Rules

def Request.visit (key secret : String) : Option Selection → Request
  | none => .listTables key secret
  | some q => .fetchRows key secret q

/-- Whatever a store gives, a visit connects with what opens under its secret and with nothing else,
and where the octets are no text, do not open or hold no login, it fails for just that reason. -/
theorem visit_authentic (sv : Service) (key secret : String) (q : Option Selection) (w : World σ)
    (s : σ) (t : Instant) :
    let e := (Request.visit key secret q).serve sv w.unsealing s t
    Authentic key secret (accesses.picked e.trace) e.result := by
  cases q with
  | none => exact Visited.authentic (listTables_visited sv key secret)
  | some q => exact Visited.authentic (fetchRows_visited sv key secret q)

end RowGate.Service
