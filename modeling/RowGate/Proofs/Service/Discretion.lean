import RowGate.Proofs.Service.Deadline
import RowGate.Proofs.Service.Pairs

/-! # Credentials stay out of sight

Trying a login and opening a session take a password, and a session is sealed under a secret. What
these are makes no difference to what the operations do with their collaborators, so as long as the
collaborators answer alike it makes none to what comes of them and to what is said to the log.
-/
namespace RowGate.Service
variable {σ α β γ δ : Type}

inductive Agree (S : α → β → Prop) : Except ServiceFault α → Except ServiceFault β → Prop where
  | ok {a : α} {b : β} (h : S a b) : Agree S (.ok a) (.ok b)
  | error (f : ServiceFault) : Agree S (.error f) (.error f)

theorem Agree.same {x : Except ServiceFault α} : Agree Eq x x := by
  cases x with
  | ok a => exact .ok rfl
  | error f => exact .error f

theorem Agree.eq {x y : Except ServiceFault α} (h : Agree Eq x y) : x = y := by
  cases h with
  | ok h => rw [h]
  | error f => rfl

def Matched (S : α → β → Prop) (x : Operation α) (y : Operation β) : Prop :=
  Paired (Agree S) x.run y.run

namespace Matched
variable {S : α → β → Prop} {T : γ → δ → Prop}

theorem bind {x : Operation α} {y : Operation β} {f : α → Operation γ} {g : β → Operation δ}
    (h : Matched S x y) (hfg : ∀ a b, S a b → Matched T (f a) (g b)) :
    Matched T (x >>= f) (y >>= g) := by
  rw [Matched, ExceptT.run_bind, ExceptT.run_bind]
  refine Paired.bind h ?_
  intro u v huv
  cases huv with
  | ok hab => exact hfg _ _ hab
  | error f => exact .done (.error f)

theorem ok {a : α} {b : β} (h : S a b) : Matched S (pure a : Operation α) (pure b : Operation β) :=
  Paired.done (.ok h)

theorem throw (f : ServiceFault) : Matched S (throw f : Operation α) (throw f : Operation β) :=
  Paired.done (.error f)

theorem check (x : Except ServiceFault α) :
    Matched Eq (liftM x : Operation α) (liftM x : Operation α) := Paired.done .same

theorem lift {p : Program α} {q : Program β} (h : Paired S p q) :
    Matched S (liftM p : Operation α) (liftM q : Operation β) :=
  Paired.bind h fun _ _ hab => .done (.ok hab)

theorem tell (level : Log.Level) (message : String) (fields : List Log.Field) :
    Matched Eq (liftM (Service.tell level message fields) : Operation Unit)
      (liftM (Service.tell level message fields) : Operation Unit) :=
  lift (.say _ (.done rfl))

theorem deadline (sv : Service) :
    Matched Eq (liftM sv.deadline : Operation Instant) (liftM sv.deadline : Operation Instant) :=
  lift (.clock fun _ => .done rfl)

theorem readLifetime (duration : String) :
    Matched Eq (Service.readLifetime duration) (Service.readLifetime duration) := by
  unfold Service.readLifetime
  cases lifetime duration with
  | none => exact Paired.halt _
  | some reading => exact Paired.done .same

theorem attempt {x : Operation α} {y : Operation β} (h : Matched S x y) :
    Matched (Agree S) (Service.attempt x) (Service.attempt y) := lift h

end Matched

section Steps
variable (sv : Service) {d : Instant} {step : String}

theorem matched_bounded (c₁ c₂ : Call) {S : c₁.Value → c₂.Value → Prop} (hc : c₁.bare = c₂.bare)
    (h : ∀ a b, c₁.bareAnswer a ≍ c₂.bareAnswer b → Agree S (reply c₁ a) (reply c₂ b)) :
    Matched S (sv.bounded d step c₁) (sv.bounded d step c₂) := by
  refine Paired.call _ hc (.say _ (.done (.error _))) ?_
  intro a b hab
  have hreply := h a b hab
  cases a <;> cases b <;> exact .done hreply

theorem matched_connect (login : Login) (p₁ p₂ : String) :
    Matched Eq (sv.connect { login with password := p₁ } d)
      (sv.connect { login with password := p₂ } d) := by
  have hbounded : Matched Eq (sv.bounded d "connect" (.connect { login with password := p₁ }))
      (sv.bounded d "connect" (.connect { login with password := p₂ })) := by
    refine matched_bounded sv (.connect { login with password := p₁ })
      (.connect { login with password := p₂ }) rfl ?_
    intro a b hab
    obtain rfl := eq_of_heq hab
    cases a with
    | ok v => exact .ok rfl
    | error f => exact .error _
  refine Paired.bind hbounded ?_
  intro u v huv
  obtain rfl := huv.eq
  -- The host is told, and of a failure its text; either is there whatever the password is.
  cases u with
  | ok _ => exact .say _ (.done (.ok rfl))
  | error f => cases f <;> exact .say _ (.done (.error _))

theorem paired_close (limit : Limit) :
    Paired Eq (Program.ask .close limit) (Program.ask .close limit) :=
  .call limit rfl (.done rfl) fun _ _ hab => .done (congrArg some (eq_of_heq hab))

theorem paired_release : Paired Eq release release := by
  refine Paired.bind (paired_close _) ?_
  rintro a _ rfl
  rcases a with _ | (f | v) <;> exact .say _ (.done rfl)

theorem matched_issueKey :
    Matched Eq (sv.bounded d step .issueKey) (sv.bounded d step .issueKey) := by
  refine matched_bounded sv .issueKey .issueKey rfl ?_
  intro a b hab
  obtain rfl := eq_of_heq hab
  exact .same

theorem matched_put (key : String) (ttl : Duration) (v₁ v₂ : Octets) :
    Matched Eq (sv.bounded d step (.store (.put key v₁ ttl)))
      (sv.bounded d step (.store (.put key v₂ ttl))) := by
  refine matched_bounded sv (.store (.put key v₁ ttl)) (.store (.put key v₂ ttl)) rfl ?_
  intro a b hab
  obtain rfl := eq_of_heq hab
  cases a with
  | ok v => exact .ok rfl
  | error f => exact .error _

/-- The envelopes may differ; but either there are envelopes, or the failure is the same. -/
theorem matched_encrypt (payload₁ payload₂ : Octets) (k₁ k₂ : String) :
    Matched (fun _ _ => True) (computed (.encrypt payload₁ k₁))
      (computed (.encrypt payload₂ k₂)) := by
  refine Paired.compute rfl ?_
  intro a b hab
  have hab : a.map (fun _ => "") = b.map fun _ => "" := eq_of_heq hab
  cases a with
  | ok e₁ =>
    cases b with
    | ok e₂ => exact .done (.ok trivial)
    | error f => cases hab
  | error f =>
    cases b with
    | ok e₂ => cases hab
    | error f' =>
      cases hab
      exact .done (.error _)

end Steps

theorem checkLogin_password (login : Login) {p₁ p₂ : String} (h₁ : p₁ ≠ "") (h₂ : p₂ ≠ "") :
    checkLogin { login with password := p₁ } = checkLogin { login with password := p₂ } := by
  simp [checkLogin, Login.missing, h₁, h₂]

theorem checkSecret_of_ne {secret : String} (h : secret ≠ "") : checkSecret secret = .ok () := by
  simp [checkSecret, require, h]

theorem testConnection_matched (sv : Service) (login : Login) {p₁ p₂ : String} (h₁ : p₁ ≠ "")
    (h₂ : p₂ ≠ "") :
    Matched Eq (sv.testConnection { login with password := p₁ })
      (sv.testConnection { login with password := p₂ }) := by
  unfold Service.testConnection
  rw [checkLogin_password login h₁ h₂]
  refine (Matched.check _).bind ?_
  rintro _ _ rfl
  refine (Matched.deadline sv).bind ?_
  rintro d _ rfl
  refine (matched_connect sv login p₁ p₂).bind ?_
  rintro _ _ rfl
  refine (Matched.lift (paired_close .unlimited)).bind ?_
  rintro a _ rfl
  rcases a with _ | (f | v)
  · exact Matched.tell _ _ _
  · refine (Matched.tell _ _ _).bind ?_
    rintro _ _ rfl
    exact Matched.throw _
  · exact Matched.tell _ _ _

theorem openSession_matched (sv : Service) (login : Login) {p₁ p₂ k₁ k₂ : String} (h₁ : p₁ ≠ "")
    (h₂ : p₂ ≠ "") (hk₁ : k₁ ≠ "") (hk₂ : k₂ ≠ "") (duration : String) :
    Matched Eq (sv.openSession { login with password := p₁ } k₁ duration)
      (sv.openSession { login with password := p₂ } k₂ duration) := by
  unfold Service.openSession
  rw [checkLogin_password login h₁ h₂, checkSecret_of_ne hk₁, checkSecret_of_ne hk₂]
  refine (Matched.check _).bind ?_
  rintro _ _ rfl
  refine (Matched.check _).bind ?_
  rintro _ _ rfl
  refine (Matched.readLifetime duration).bind ?_
  rintro ttl _ rfl
  refine (Matched.deadline sv).bind ?_
  rintro d _ rfl
  refine (matched_connect sv login p₁ p₂).bind ?_
  rintro _ _ rfl
  refine (Matched.lift paired_release).bind ?_
  rintro _ _ rfl
  refine (matched_issueKey sv).bind ?_
  rintro key _ rfl
  refine (Matched.tell _ _ _).bind ?_
  rintro _ _ rfl
  refine (matched_encrypt _ _ _ _).bind ?_
  intro e₁ e₂ _
  refine (Matched.tell _ _ _).bind ?_
  rintro _ _ rfl
  refine (matched_put sv key ttl (Utf8.octets e₁) (Utf8.octets e₂)).attempt.bind ?_
  intro a b hab
  cases hab with
  | ok _ =>
    refine (Matched.tell _ _ _).bind ?_
    rintro _ _ rfl
    exact .ok rfl
  | error f =>
    refine (Matched.tell _ _ _).bind ?_
    rintro _ _ rfl
    exact Matched.throw _

/-- Two runs of an operation in which the collaborators answer alike cannot be told apart. -/
def Indistinct (w : World σ) (s₁ s₂ : σ) (t : Instant) (x y : Operation α) : Prop :=
  AnsweredAlike (x.run.notes w s₁ t) (y.run.notes w s₂ t) →
    Alike (x.run.run w.overheard s₁ t) (y.run.run w.overheard s₂ t)

theorem Matched.indistinct {x y : Operation α} (h : Matched Eq x y) (w : World σ) (s₁ s₂ : σ)
    (t : Instant) : Indistinct w s₁ s₂ t x y := by
  have hagree : (Agree Eq : Except ServiceFault α → Except ServiceFault α → Prop) = Eq := by
    funext u v
    exact propext ⟨Agree.eq, fun huv => huv ▸ Agree.same⟩
  have hpaired : Paired Eq x.run y.run := hagree ▸ h
  exact hpaired.run w

/-- Neither the password nor the secret can be told from what comes of trying a login or of opening
a session, from when it ends, or from what the service and the gateway say to the log. The
collaborators may be in any two states, as long as they answer alike; of an encryption that means
that it succeeds in both runs or fails in the same way, whatever the envelopes are. -/
theorem credentials_undisclosed (sv : Service) (login : Login) (duration : String)
    (p₁ p₂ k₁ k₂ : String) (hp₁ : p₁ ≠ "") (hp₂ : p₂ ≠ "") (hk₁ : k₁ ≠ "") (hk₂ : k₂ ≠ "")
    (w : World σ) (s₁ s₂ : σ) (t : Instant) :
    Indistinct w s₁ s₂ t (sv.testConnection { login with password := p₁ })
      (sv.testConnection { login with password := p₂ }) ∧
    Indistinct w s₁ s₂ t (sv.openSession { login with password := p₁ } k₁ duration)
      (sv.openSession { login with password := p₂ } k₂ duration) :=
  ⟨(testConnection_matched sv login hp₁ hp₂).indistinct w s₁ s₂ t,
    (openSession_matched sv login hp₁ hp₂ hk₁ hk₂ duration).indistinct w s₁ s₂ t⟩

def World.telltale : World Unit where
  respond _ _ c := ⟨match c with
    | .encrypt _ secret => .ok secret
    | c => c.favourable, minuteToClose c, [], [], (), ()⟩
  tick_pos := millisecondTick_pos

theorem telltale_overlooks : World.telltale.Overlooks (.favourable minuteToClose) where
  answer s t c := by
    cases c with
    | store r => cases r <;> rfl
    | _ => rfl
  latency s t c := by
    cases c with
    | store r => cases r <;> rfl
    | _ => rfl
  state s t c := rfl
  abandoned s t c := rfl

theorem credentials_undisclosed_telltale :
    let sv : Service := ⟨⟨nanosPerSecond, by decide⟩⟩
    let tried := fun p => sv.testConnection { sampleLogin with password := p }
    let opened := fun p k => sv.openSession { sampleLogin with password := p } k "1h"
    let w := World.telltale
    "pw" ≠ "" ∧ "hunter2" ≠ "" ∧ "secret" ≠ "" ∧ "other" ≠ "" ∧
    AnsweredAlike ((tried "pw").run.notes w () 0) ((tried "hunter2").run.notes w () 0) ∧
    Alike ((tried "pw").run.run w.overheard () 0) ((tried "hunter2").run.run w.overheard () 0) ∧
    AnsweredAlike ((opened "pw" "secret").run.notes w () 0)
      ((opened "hunter2" "other").run.notes w () 0) ∧
    Alike ((opened "pw" "secret").run.run w.overheard () 0)
      ((opened "hunter2" "other").run.run w.overheard () 0) := by
  intro sv tried opened w
  have hp₁ : "pw" ≠ "" := by decide
  have hp₂ : "hunter2" ≠ "" := by decide
  have hk₁ : "secret" ≠ "" := by decide
  have hk₂ : "other" ≠ "" := by decide
  have h := credentials_undisclosed sv sampleLogin "1h" "pw" "hunter2" "secret" "other" hp₁ hp₂
    hk₁ hk₂ w () () 0
  have htried := (testConnection_matched sv sampleLogin hp₁ hp₂).answeredAlike
    telltale_overlooks () 0
  have hopened := (openSession_matched sv sampleLogin hp₁ hp₂ hk₁ hk₂ "1h").answeredAlike
    telltale_overlooks () 0
  exact ⟨hp₁, hp₂, hk₁, hk₂, htried, h.1 htried, hopened, h.2 hopened⟩

end RowGate.Service
