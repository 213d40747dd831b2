import RowGate.Proofs.Service.Operations

/-! # Where failures come from

A failure of an operation comes from its inputs, from what a collaborator answered, or from the
clock. Each part of an operation has failures of its own origin, so the origin of a failure tells
how far the operation had come.
-/
namespace RowGate

inductive Origin where
  | inputs
  | answers
  | clock
  deriving DecidableEq

def ServiceFault.origin : ServiceFault → Origin
  | .invalidInput _ => .inputs
  | .invalidDuration _ _ => .inputs
  | .timeout _ _ => .clock
  | .known _ => .answers
  | .sealing _ => .answers
  | .issuing _ => .answers
  | .store _ => .answers
  | .gateway _ => .answers
  | .document _ => .answers

namespace Service
variable {f : ServiceFault}

theorem origin_of_require {present : Bool} {member : String}
    (h : require present member = .error f) : f.origin = .inputs := by
  cases present with
  | true => cases h
  | false => cases h; rfl

theorem origin_of_checkLogin {login : Login} (h : checkLogin login = .error f) :
    f.origin = .inputs := by
  unfold checkLogin at h
  split at h
  · cases h; rfl
  · cases h

theorem origin_of_checkSelection {q : Selection} (h : checkSelection q = .error f) :
    f.origin = .inputs := by
  unfold checkSelection at h
  split at h
  · cases h; rfl
  · cases h

theorem origin_of_lifetime {duration : String} (h : lifetime duration = some (.error f)) :
    f.origin = .inputs := by
  unfold lifetime at h
  split at h
  · split at h <;> cases h; rfl
  · split at h
    · cases h; rfl
    · split at h <;> cases h; rfl

theorem origin_failure (c : Call) (e : c.Fault) : (c.failure e).origin = .answers := by
  have hgateway (g : GatewayFault) : (ServiceFault.ofGateway g).origin = .answers := by
    cases g <;> rfl
  cases c with
  | connect login => exact hgateway e
  | listTables => exact hgateway e
  | query sql => exact hgateway e
  | close => exact hgateway e
  | issueKey => rfl
  | encrypt payload secret => rfl
  | decrypt envelope secret => rfl
  | store r => rfl

theorem origin_of_reply {c : Call} {answer : c.Answer} (h : reply c answer = .error f) :
    f.origin = .answers := by
  cases answer with
  | ok v => cases h
  | error e => cases h; exact origin_failure c e

theorem exists_of_envelopeText {stored : Octets} (h : envelopeText stored = .error f) :
    ∃ e, f = .sealing e := by
  unfold envelopeText at h
  cases hx : Utf8.text stored with
  | ok text => rw [hx] at h; cases h
  | error e => rw [hx] at h; cases h; exact ⟨_, rfl⟩

theorem exists_of_loginOf {opened : Except SealFault Octets} (h : loginOf opened = .error f) :
    (∃ e, f = .sealing e) ∨ ∃ e, f = .document e := by
  cases opened with
  | error e => cases h; exact .inl ⟨_, rfl⟩
  | ok payload =>
    rw [loginOf_ok] at h
    cases hx : Login.decode payload with
    | ok login => rw [hx] at h; cases h
    | error e => rw [hx] at h; cases h; exact .inr ⟨_, rfl⟩

theorem origin_of_envelopeText {stored : Octets} (h : envelopeText stored = .error f) :
    f.origin = .answers := by
  obtain ⟨e, rfl⟩ := exists_of_envelopeText h
  rfl

theorem origin_of_loginOf {opened : Except SealFault Octets} (h : loginOf opened = .error f) :
    f.origin = .answers := by
  obtain ⟨e, rfl⟩ | ⟨e, rfl⟩ := exists_of_loginOf h <;> rfl

theorem origin_of_sessionRead {sv : Service} {answer : StoreAnswer}
    (h : sv.sessionRead (some answer) >>= envelopeText = .error f) : f.origin = .answers := by
  rcases answer with e | stored
  · cases e <;> cases h <;> rfl
  · exact origin_of_envelopeText h

theorem ne_inputs_of_answers (h : f.origin = .answers) : f.origin ≠ .inputs := by
  rw [h]
  decide

/-- What a step fails with is not held against the inputs. -/
theorem origin_of_verdict {sv : Service} {step : String} {c : Call} {a : Option c.Answer}
    (h : sv.verdict step c a = .error f) : f.origin ≠ .inputs := by
  cases a with
  | none => cases h; simp [ServiceFault.origin]
  | some answer => exact ne_inputs_of_answers (origin_of_reply h)

theorem origin_of_stored {sv : Service} {a : Option StoreAnswer}
    (h : sv.sessionRead a >>= envelopeText = .error f) : f.origin ≠ .inputs := by
  cases a with
  | none => cases h; simp [ServiceFault.origin]
  | some answer => exact ne_inputs_of_answers (origin_of_sessionRead h)

end Service
end RowGate
