import RowGate.Proofs.Record.Given
import RowGate.Proofs.Record.Sequence
import RowGate.Proofs.Utf8
import RowGate.Service.Operations
import RowGate.Settings

/-! # Settings in layers

A file gives some of the settings, and so do the variables of the environment. The settings of a run
are the layer of the variables over that of the file over the defaults, and they are safe to run
with: a deadline is never out of the reach of the clock, and a key is never refused for its cost.
-/
namespace RowGate.Settings

structure Layer where
  logLevel : Option String := none
  redisUrl : Option String := none
  operationTimeout : Option (Word 64) := none
  connectTimeout : Option (Word 64) := none
  keyCost : Option (Word 32) := none
  sendDetails : Option Bool := none

namespace Layer

def onto (l : Layer) (s : Settings) : Settings where
  logLevel := l.logLevel.getD s.logLevel
  redisUrl := l.redisUrl.getD s.redisUrl
  operationTimeout := l.operationTimeout.getD s.operationTimeout
  connectTimeout := l.connectTimeout.getD s.connectTimeout
  keyCost := l.keyCost.getD s.keyCost
  sendDetails := l.sendDetails.getD s.sendDetails

def toSlots (l : Layer) : Slots schema.members :=
  (l.logLevel, l.redisUrl, l.operationTimeout, l.connectTimeout, l.keyCost, l.sendDetails, ())

def document (l : Layer) : String := schema.document l.toSlots

theorem exists_toSlots (slots : Slots schema.members) : ∃ l : Layer, l.toSlots = slots := by
  obtain ⟨level, url, operation, connect, cost, details, ⟨⟩⟩ := slots
  exact ⟨⟨level, url, operation, connect, cost, details⟩, rfl⟩

theorem finish_toSlots (l : Layer) :
    l.toSlots.finish schema.members = .ok (l.onto {}).toRow :=
  Schema.finish_default rfl _ (Schema.finish_default rfl _ (Schema.finish_default rfl _
    (Schema.finish_default rfl _ (Schema.finish_default rfl _ (Schema.finish_default rfl _ rfl)))))

end Layer

/-- What a file gives, if there is one: its text is a document of the layer. -/
def Gives (file : Option Octets) (l : Layer) : Prop :=
  match file with
  | none => l = {}
  | some content => (∃ text, Utf8.text content = .ok text) ∧ schema.given content = .ok l.toSlots

theorem gives_document (l : Layer) : Gives (some (Utf8.octets l.document)) l :=
  ⟨⟨_, Utf8.text_octets _⟩, Schema.given_document schema Settings.sound l.toSlots⟩

theorem decode_eq_ok_iff {content : Octets} {s : Settings} :
    decode content = .ok s ↔
      ∃ l : Layer, schema.given content = .ok l.toSlots ∧ s = l.onto {} := by
  rw [decode, map_eq_ok_iff]
  simp only [Schema.decode_eq_ok_iff]
  constructor
  · rintro ⟨row, ⟨slots, hgiven, hfinish⟩, rfl⟩
    obtain ⟨l, rfl⟩ := Layer.exists_toSlots slots
    obtain rfl := Except.ok.inj (hfinish.symm.trans l.finish_toSlots)
    exact ⟨l, hgiven, rfl⟩
  · rintro ⟨l, hgiven, rfl⟩
    exact ⟨_, ⟨l.toSlots, hgiven, l.finish_toSlots⟩, rfl⟩

theorem ofFile_eq_ok_iff {content : Octets} {s : Settings} :
    ofFile content = .ok s ↔ ∃ l, Gives (some content) l ∧ s = l.onto {} := by
  have hfile : ofFile content = .ok s ↔
      (∃ text, Utf8.text content = .ok text) ∧ decode content = .ok s := by
    unfold ofFile
    cases Utf8.text content with
    | error f => simp
    | ok text => cases decode content <;> simp
  rw [hfile, decode_eq_ok_iff]
  constructor
  · rintro ⟨htext, l, hgiven, rfl⟩
    exact ⟨l, ⟨htext, hgiven⟩, rfl⟩
  · rintro ⟨l, ⟨htext, hgiven⟩, rfl⟩
    exact ⟨htext, l, hgiven, rfl⟩

/-- What the variables give: the value that each of them reads as, if it is set. -/
structure Taken (lookup : Lookup) (l : Layer) : Prop where
  logLevel : present lookup .logLevel = l.logLevel
  redisUrl : present lookup .redisUrl = l.redisUrl
  operationTimeout : (present lookup .operationTimeout).mapM (word? 64) = some l.operationTimeout
  connectTimeout : (present lookup .connectTimeout).mapM (word? 64) = some l.connectTimeout
  keyCost : (present lookup .keyCost).mapM (word? 32) = some l.keyCost
  sendDetails : (present lookup .sendDetails).mapM flag? = some l.sendDetails

section Environment
variable {lookup : Lookup} {s s' : Settings}

def take (lookup : Lookup) (s : Settings) (v : Variable) : Option Settings :=
  match present lookup v with
  | none => some s
  | some raw => s.assign v raw

theorem overrideWith_eq_ok_iff {vs : List Variable} :
    overrideWith lookup vs s = (s', .ok ()) ↔ vs.foldlM (take lookup) s = some s' := by
  induction vs generalizing s with
  | nil => simp [overrideWith, eq_comm]
  | cons v vs ih =>
    rw [overrideWith, List.foldlM_cons, take]
    cases present lookup v with
    | none => exact ih
    | some raw =>
      cases hassign : s.assign v raw with
      | none => simp [hassign]
      | some s₁ => simpa [hassign] using ih

/-- A variable is taken where it reads, if it is set; else the settings stay as they are. -/
theorem take_eq_some_iff {α : Type} {v : Variable} {read : String → Option α}
    {put : Option α → Settings}
    (hput : ∀ raw, s.assign v raw = (read raw).map fun a => put (some a)) (hstay : put none = s) :
    take lookup s v = some s' ↔ ∃ o, (present lookup v).mapM read = some o ∧ s' = put o := by
  rw [take]
  cases present lookup v with
  | none => simp [hstay, eq_comm]
  | some raw =>
    change s.assign v raw = some s' ↔ _
    rw [hput]
    cases hread : read raw <;> simp [hread, eq_comm]

/-- A text is taken as it is. -/
theorem take_text {v : Variable} (put : Option String → Settings)
    (hput : ∀ raw, s.assign v raw = some (put (some raw))) (hstay : put none = s) :
    take lookup s v = some s' ↔ s' = put (present lookup v) := by
  have hread : (present lookup v).mapM some = some (present lookup v) := by
    cases present lookup v <;> rfl
  have htaken : take lookup s v = some s' ↔
      ∃ o, (present lookup v).mapM some = some o ∧ s' = put o := take_eq_some_iff hput hstay
  rw [htaken, hread]
  simp

theorem take_logLevel : take lookup s .logLevel = some s' ↔
    s' = { s with logLevel := (present lookup .logLevel).getD s.logLevel } :=
  take_text (fun o => { s with logLevel := o.getD s.logLevel }) (fun _ => rfl) rfl

theorem take_redisUrl : take lookup s .redisUrl = some s' ↔
    s' = { s with redisUrl := (present lookup .redisUrl).getD s.redisUrl } :=
  take_text (fun o => { s with redisUrl := o.getD s.redisUrl }) (fun _ => rfl) rfl

theorem take_operationTimeout : take lookup s .operationTimeout = some s' ↔
    ∃ o, (present lookup .operationTimeout).mapM (word? 64) = some o ∧
      s' = { s with operationTimeout := o.getD s.operationTimeout } :=
  take_eq_some_iff (fun _ => rfl) rfl

theorem take_connectTimeout : take lookup s .connectTimeout = some s' ↔
    ∃ o, (present lookup .connectTimeout).mapM (word? 64) = some o ∧
      s' = { s with connectTimeout := o.getD s.connectTimeout } :=
  take_eq_some_iff (fun _ => rfl) rfl

theorem take_keyCost : take lookup s .keyCost = some s' ↔
    ∃ o, (present lookup .keyCost).mapM (word? 32) = some o ∧
      s' = { s with keyCost := o.getD s.keyCost } :=
  take_eq_some_iff (fun _ => rfl) rfl

theorem take_sendDetails : take lookup s .sendDetails = some s' ↔
    ∃ o, (present lookup .sendDetails).mapM flag? = some o ∧
      s' = { s with sendDetails := o.getD s.sendDetails } :=
  take_eq_some_iff (fun _ => rfl) rfl

theorem override_eq_ok_iff :
    s.override lookup = (s', .ok ()) ↔ ∃ l, Taken lookup l ∧ s' = l.onto s := by
  rw [override, overrideWith_eq_ok_iff, Variable.all]
  simp only [List.foldlM_cons, List.foldlM_nil, Option.bind_eq_bind, Option.bind_eq_some_iff,
    take_logLevel, take_redisUrl, take_operationTimeout, take_connectTimeout, take_keyCost,
    take_sendDetails]
  constructor
  · rintro ⟨_, rfl, _, rfl, _, ⟨operation, ho, rfl⟩, _, ⟨connect, hc, rfl⟩, _, ⟨cost, hk, rfl⟩, _,
      ⟨details, hd, rfl⟩, h⟩
    cases h
    exact ⟨⟨_, _, operation, connect, cost, details⟩, ⟨rfl, rfl, ho, hc, hk, hd⟩, rfl⟩
  · rintro ⟨⟨level, url, operation, connect, cost, details⟩, ⟨rfl, rfl, ho, hc, hk, hd⟩, rfl⟩
    exact ⟨_, rfl, _, rfl, _, ⟨operation, ho, rfl⟩, _, ⟨connect, hc, rfl⟩, _, ⟨cost, hk, rfl⟩, _,
      ⟨details, hd, rfl⟩, rfl⟩

end Environment

structure Safe (s : Settings) : Prop where
  operationTimeout : 1 ≤ s.operationTimeout.val ∧ s.operationTimeout.val ≤ 86400
  connectTimeout : 1 ≤ s.connectTimeout.val ∧ s.connectTimeout.val ≤ 86400
  keyCost : 4 ≤ s.keyCost.val ∧ s.keyCost.val ≤ 31

theorem checkTimeout_eq_ok_iff {member : String} {seconds : Nat} :
    checkTimeout member seconds = .ok () ↔ 1 ≤ seconds ∧ seconds ≤ 86400 := by
  unfold checkTimeout longestTimeout
  split
  · next h => simp; omega
  · next h => simp; omega

theorem check_eq_ok_iff {s : Settings} : s.check = .ok () ↔ s.Safe := by
  unfold check SessionKey.leastCost SessionKey.greatestCost
  simp only [bind_eq_ok_iff]
  constructor
  · rintro ⟨_, hoperation, _, hconnect, hcost⟩
    have hcost : ¬ (s.keyCost.val < 4 ∨ 31 < s.keyCost.val) := by
      intro h
      rw [if_pos h] at hcost
      cases hcost
    exact ⟨checkTimeout_eq_ok_iff.mp hoperation, checkTimeout_eq_ok_iff.mp hconnect, by omega⟩
  · rintro ⟨hoperation, hconnect, hcost⟩
    refine ⟨(), checkTimeout_eq_ok_iff.mpr hoperation, (), checkTimeout_eq_ok_iff.mpr hconnect, ?_⟩
    rw [if_neg (by omega)]
    rfl

/-- A day ahead of the clock is a deadline that it can express, and so is any safe timeout. -/
theorem Safe.deadlineAfter_eq {s : Settings} (h : s.Safe) {now : Instant}
    (hnow : now + 86400 * nanosPerSecond < Instant.bound) :
    Service.deadlineAfter now s.operationLimit =
      now + s.operationTimeout.val * nanosPerSecond := by
  have hle : s.operationTimeout.val * nanosPerSecond ≤ 86400 * nanosPerSecond :=
    Nat.mul_le_mul_right _ h.operationTimeout.2
  have hafter : now.after? s.operationLimit =
      some (now + s.operationTimeout.val * nanosPerSecond) :=
    Instant.after?_eq_some.mpr ⟨Nat.lt_of_le_of_lt (Nat.add_le_add_left hle now) hnow, rfl⟩
  rw [Service.deadlineAfter, hafter]

theorem Safe.issue_ok {s : Settings} (h : s.Safe) (random salt : Octets) :
    ∃ key, SessionKey.issue s.keyCost.val random salt = .ok key := by
  have hcost : SessionKey.leastCost ≤ s.keyCost.val ∧ s.keyCost.val ≤ SessionKey.greatestCost :=
    h.keyCost
  rw [SessionKey.issue, if_pos hcost]
  exact ⟨_, rfl⟩

/-- What is left to do when the file was read. -/
theorem taken_and_checked_iff {lookup : Lookup} {s s' : Settings} :
    (do
      (s.override lookup).2
      (s.override lookup).1.check
      .ok (s.override lookup).1 : Except Fault Settings) = .ok s' ↔
      ∃ l, Taken lookup l ∧ s' = l.onto s ∧ s'.Safe := by
  simp only [bind_eq_ok_iff]
  constructor
  · rintro ⟨_, htaken, _, hcheck, h⟩
    cases h
    obtain ⟨l, hl, honto⟩ := override_eq_ok_iff.mp (Prod.ext rfl htaken)
    exact ⟨l, hl, honto, check_eq_ok_iff.mp hcheck⟩
  · rintro ⟨l, hl, rfl, hsafe⟩
    rw [override_eq_ok_iff.mpr ⟨l, hl, rfl⟩]
    exact ⟨(), rfl, (), check_eq_ok_iff.mpr hsafe, rfl⟩

theorem load_eq_ok_iff {file : Option Octets} {lookup : Lookup} {s : Settings} :
    load file lookup = .ok s ↔ ∃ given taken : Layer,
      Gives file given ∧ Taken lookup taken ∧ s = taken.onto (given.onto {}) ∧ s.Safe := by
  cases file with
  | none =>
    refine taken_and_checked_iff.trans ?_
    constructor
    · rintro ⟨taken, htaken, hs⟩
      exact ⟨{}, taken, rfl, htaken, hs⟩
    · rintro ⟨given, taken, rfl, htaken, hs⟩
      exact ⟨taken, htaken, hs⟩
  | some content =>
    refine bind_eq_ok_iff.trans ?_
    constructor
    · rintro ⟨s₀, hfile, hrest⟩
      obtain ⟨given, hgiven, rfl⟩ := ofFile_eq_ok_iff.mp hfile
      obtain ⟨taken, htaken, hs⟩ := taken_and_checked_iff.mp hrest
      exact ⟨given, taken, hgiven, htaken, hs⟩
    · rintro ⟨given, taken, hgiven, htaken, hs⟩
      exact ⟨given.onto {}, ofFile_eq_ok_iff.mpr ⟨given, hgiven, rfl⟩,
        taken_and_checked_iff.mpr ⟨taken, htaken, hs⟩⟩

/-- The settings of a run are the layer of the variables over that of the file over the defaults.
They are had exactly where the file, if there is one, is a document, the variables that are set all
read, and what this comes to is safe; and the file of a document gives what that was written with.
Such settings have deadlines right at the end of their timeouts, as long as the clock can go on for
a day, and their keys are never refused for the cost. -/
theorem load_layered (file : Option Octets) (lookup : Lookup) (s : Settings) :
    (load file lookup = .ok s ↔ ∃ given taken : Layer,
      Gives file given ∧ Taken lookup taken ∧ s = taken.onto (given.onto {}) ∧ s.Safe) ∧
    (∀ l : Layer, Gives (some (Utf8.octets l.document)) l) ∧
    (load file lookup = .ok s →
      (∀ now : Instant, now + 86400 * nanosPerSecond < Instant.bound →
        Service.deadlineAfter now s.operationLimit =
          now + s.operationTimeout.val * nanosPerSecond) ∧
      ∀ random salt, ∃ key, SessionKey.issue s.keyCost.val random salt = .ok key) := by
  refine ⟨load_eq_ok_iff, gives_document, ?_⟩
  intro h
  obtain ⟨_, _, _, _, _, hsafe⟩ := load_eq_ok_iff.mp h
  exact ⟨fun now hnow => hsafe.deadlineAfter_eq hnow, hsafe.issue_ok⟩

def sampleFile : Octets :=
  Utf8.octets ("\x7b\"log_level\": \"debug\", \"operation_timeout_secs\": 5, " ++
    "\"note\": [null], \"session_key_cost\": 12\x7d")

def sampleLookup : Lookup
  | "PG2JSON_LOG_LEVEL" => some "warn"
  | "REDIS_URL" => some " "
  | "PG2JSON_CONNECT_TIMEOUT_SECS" => some " +20 "
  | _ => none

def sampleSettings : Settings where
  logLevel := "warn"
  operationTimeout := ⟨5, by decide⟩
  connectTimeout := ⟨20, by decide⟩
  keyCost := ⟨12, by decide⟩

theorem load_layered_sample :
    load (some sampleFile) sampleLookup = .ok sampleSettings ∧
    (∃ given taken : Layer, Gives (some sampleFile) given ∧ Taken sampleLookup taken ∧
      sampleSettings = taken.onto (given.onto {}) ∧ sampleSettings.Safe) ∧
    0 + 86400 * nanosPerSecond < Instant.bound ∧
    Service.deadlineAfter 0 sampleSettings.operationLimit = 0 + 5 * nanosPerSecond ∧
    ∃ key, SessionKey.issue sampleSettings.keyCost.val [] [] = .ok key := by
  have hload : load (some sampleFile) sampleLookup = .ok sampleSettings :=
    toOption_eq_some_iff.mp (by decide +kernel)
  have hclock : 0 + 86400 * nanosPerSecond < Instant.bound := by decide
  obtain ⟨hlayers, -, hsafe⟩ := load_layered (some sampleFile) sampleLookup sampleSettings
  exact ⟨hload, hlayers.mp hload, hclock, (hsafe hload).1 0 hclock, (hsafe hload).2 [] []⟩

end RowGate.Settings
