import RowGate.Proofs.Session.Recall
import RowGate.Redis.Store

/-! # Two stores, one history

The store behind a server recalls the history that the store in memory recalls, once lifetimes are
cut to whole milliseconds and puts that no command can express are left out. Where clocks tick in
whole milliseconds the two answer alike.
-/
namespace RowGate

def Duration.whole (d : Duration) : Duration :=
  ⟨d.millis * 1000000, Nat.lt_of_le_of_lt (Nat.div_mul_le_self d.nanos 1000000) d.inRange⟩

theorem Duration.isZero_whole (d : Duration) : d.whole.isZero = decide (d.millis = 0) := by
  have hnanos : d.whole.nanos = d.millis * 1000000 := rfl
  rw [isZero, hnanos]
  by_cases h : d.millis = 0
  · simp [h]
  · have hne : d.millis * 1000000 ≠ 0 := Nat.mul_ne_zero h (by decide)
    simp [h, hne]

namespace TimedRequest

def fits (c : TimedRequest) : Bool :=
  match c.request with
  | .put _ _ ttl => ttl.millis < wordBound 64
  | _ => true

def rounded (c : TimedRequest) : TimedRequest :=
  match c.request with
  | .put key value ttl => ⟨c.time, .put key value ttl.whole⟩
  | _ => c

theorem time_rounded (c : TimedRequest) : c.rounded.time = c.time := by
  obtain ⟨time, request⟩ := c
  cases request with
  | put key value ttl => rfl
  | get key => rfl
  | delete key => rfl

/-- A request at a whole millisecond, from which the clock can keep time for the lifetime. -/
structure Measured (c : TimedRequest) : Prop where
  tick : 1000000 ∣ c.time
  room : ∀ key value ttl, c.request = .put key value ttl → ttl.millis < wordBound 64 →
    c.time + ttl.whole.nanos < Instant.bound

end TimedRequest

/-- What a history is to the store behind a server. -/
def carried (history : List TimedRequest) : List TimedRequest :=
  (history.filter (·.fits)).map (·.rounded)

theorem carried_append_singleton (history : List TimedRequest) (c : TimedRequest) :
    carried (history ++ [c]) = carried history ++ if c.fits then [c.rounded] else [] := by
  by_cases h : c.fits = true
  · simp [carried, h]
  · simp [carried, h]

theorem time_le_of_mem_carried {history : List TimedRequest} {now : Instant}
    (h : ∀ c ∈ history, c.time ≤ now) : ∀ c ∈ carried history, c.time ≤ now := by
  intro c hc
  obtain ⟨d, hd, rfl⟩ := List.mem_map.mp hc
  rw [TimedRequest.time_rounded]
  exact h d (List.mem_filter.mp hd).1

namespace Redis

namespace Server
variable (s : Server) (now : Nat) (key k : String)

def value? : Option Octets := (s.find? now key).map (·.value)

theorem value?_drop : (s.drop key).value? now k = if k = key then none else s.value? now k := by
  have hlookup : (s.drop key).kept.lookup k = if k = key then none else s.kept.lookup k :=
    lookup_filter_ne s.kept key k
  unfold value? find?
  rw [hlookup]
  by_cases h : k = key
  · simp [h]
  · simp [h]

theorem value?_keep (e : Kept) : (s.keep key e).value? now k =
    if k = key then if now < e.expires then some e.value else none else s.value? now k := by
  have hlookup : (s.keep key e).kept.lookup k = if k = key then some e else s.kept.lookup k :=
    lookup_replaced s.kept key k e
  unfold value? find?
  rw [hlookup]
  by_cases h : k = key
  · by_cases hnow : now < e.expires
    · simp [h, hnow]
    · simp [h, hnow]
  · simp [h]

theorem value?_note (c : Command) : (s.note c).value? now k = s.value? now k := rfl

end Server

def after (s : Server) (history : List TimedRequest) : Server :=
  history.foldl (fun s c => (answer s (c.time / 1000000) c.request).2) s

theorem after_append_singleton (s : Server) (history : List TimedRequest) (c : TimedRequest) :
    after s (history ++ [c]) = (answer (after s history) (c.time / 1000000) c.request).2 := by
  simp [after]

def reply (history : List TimedRequest) (c : TimedRequest) : StoreAnswer :=
  (answer (after {} history) (c.time / 1000000) c.request).1

theorem command_put {key : String} {value : Octets} {ttl : Duration}
    (h : ttl.millis < wordBound 64) : command (.put key value ttl) =
      .ok (if ttl.millis = 0 then .del key else .set key value ttl.millis) := by
  have hlong : ¬ wordBound 64 ≤ ttl.millis := Nat.not_le.mpr h
  rw [command, if_neg hlong]
  split
  · rfl
  · rfl

/-- A put whose lifetime does not fit is refused before the server hears of it. -/
theorem answer_of_not_fits {c : TimedRequest} (h : c.fits = false) (s : Server) (now : Nat) :
    ∃ key value ttl, c.request = .put key value ttl ∧
      answer s now c.request = (.error (.lifetimeOutOfRange ttl), s) := by
  obtain ⟨time, request⟩ := c
  cases request with
  | put key value ttl =>
    have hlong : wordBound 64 ≤ ttl.millis := by simpa [TimedRequest.fits] using h
    exact ⟨key, value, ttl, rfl, by simp [answer, command, hlong]⟩
  | get key => simp [TimedRequest.fits] at h
  | delete key => simp [TimedRequest.fits] at h

theorem lt_add_whole {time later : Nat} (ttl : Duration) (h : 1000000 ∣ time)
    (hlater : 1000000 ∣ later) :
    later / 1000000 < time / 1000000 + ttl.millis ↔ later < time + ttl.whole.nanos := by
  obtain ⟨t, rfl⟩ := h
  obtain ⟨u, rfl⟩ := hlater
  have hwhole : ttl.whole.nanos = ttl.millis * 1000000 := rfl
  rw [hwhole, Nat.mul_div_cancel_left t (by decide), Nat.mul_div_cancel_left u (by decide)]
  constructor
  · intro hlt
    omega
  · intro hlt
    omega

theorem value?_answer (s : Server) {c : TimedRequest} (hc : c.Measured) (hfits : c.fits = true)
    {later : Instant} (hlater : 1000000 ∣ later) (key : String) :
    (answer s (c.time / 1000000) c.request).2.value? (later / 1000000) key =
      if c.rounded.settles key then c.rounded.leaves later
      else s.value? (later / 1000000) key := by
  obtain ⟨time, request⟩ := c
  cases request with
  | put k value ttl =>
    have hshort : ttl.millis < wordBound 64 := by simpa [TimedRequest.fits] using hfits
    have hroom : time + ttl.whole.nanos < Instant.bound := hc.room k value ttl rfl hshort
    have hsettles : (TimedRequest.rounded ⟨time, .put k value ttl⟩).settles key =
        decide (k = key) := by
      simp [TimedRequest.settles, TimedRequest.rounded, hroom]
    have hleaves : (TimedRequest.rounded ⟨time, .put k value ttl⟩).leaves later =
        if ttl.millis ≠ 0 ∧ later < time + ttl.whole.nanos then some value else none := by
      simp [TimedRequest.leaves, TimedRequest.rounded, Duration.isZero_whole]
    rw [hsettles, hleaves]
    by_cases hzero : ttl.millis = 0
    -- Less than a millisecond goes over the wire as a delete.
    · have hcommand : command (.put k value ttl) = .ok (.del k) := by
        rw [command_put hshort, if_pos hzero]
      simp only [answer, hcommand, Server.run, Server.value?_drop, Server.value?_note]
      by_cases hk : key = k
      · simp [hk, hzero]
      · have hk' : k ≠ key := fun h => hk h.symm
        simp [hk, hk']
    · have hcommand : command (.put k value ttl) = .ok (.set k value ttl.millis) := by
        rw [command_put hshort, if_neg hzero]
      simp only [answer, hcommand, Server.run, Server.value?_keep, Server.value?_note,
        lt_add_whole ttl hc.tick hlater]
      by_cases hk : key = k
      · simp [hk, hzero]
      · have hk' : k ≠ key := fun h => hk h.symm
        simp [hk, hk']
  | get k => rfl
  | delete k =>
    simp only [answer, command, Server.run, Server.value?_drop, Server.value?_note,
      TimedRequest.rounded, TimedRequest.settles, TimedRequest.leaves]
    by_cases hk : key = k
    · simp [hk]
    · have hk' : k ≠ key := fun h => hk h.symm
      simp [hk, hk']

/-- All requests: what the server reads is what the carried history recalls. -/
theorem value?_after {history : List TimedRequest} (h : ∀ c ∈ history, c.Measured)
    {now : Instant} (hnow : 1000000 ∣ now) (key : String) :
    (after {} history).value? (now / 1000000) key = recalled (carried history) now key := by
  induction history using List.reverseRecOn with
  | nil => rfl
  | append_singleton history c ih =>
    have hlast : c.Measured := h c (by simp)
    have hbefore : ∀ c' ∈ history, c'.Measured := fun c' hc' => h c' (by simp [hc'])
    rw [after_append_singleton, carried_append_singleton]
    cases hfits : c.fits with
    | true =>
      rw [value?_answer _ hlast hfits hnow, ih hbefore, if_pos rfl, recalled_append_singleton]
    | false =>
      obtain ⟨key', value, ttl, hput, hanswer⟩ :=
        answer_of_not_fits hfits (after {} history) (c.time / 1000000)
      rw [hanswer, ih hbefore]
      simp

theorem received_after (history : List TimedRequest) :
    (after {} history).received = history.filterMap (fun c => (command c.request).toOption) := by
  induction history using List.reverseRecOn with
  | nil => rfl
  | append_singleton history c ih =>
    rw [after_append_singleton, List.filterMap_append, ← ih, answer]
    cases hcommand : command c.request with
    | error f => simp [hcommand, Except.toOption]
    | ok sent =>
      cases sent with
      | set key value millis =>
        simp [hcommand, Except.toOption, Server.run, Server.keep, Server.note]
      | get key => simp [hcommand, Except.toOption, Server.run, Server.note]
      | del key => simp [hcommand, Except.toOption, Server.run, Server.drop, Server.note]

theorem pos_of_command_eq {r : StoreRequest} {key : String} {value : Octets} {millis : Nat}
    (h : command r = .ok (.set key value millis)) : 0 < millis := by
  cases r with
  | put k v ttl =>
    by_cases hlong : wordBound 64 ≤ ttl.millis
    · simp [command, hlong] at h
    · by_cases hzero : ttl.millis = 0
      · simp [command_put (Nat.not_le.mp hlong), hzero] at h
      · have hsent : Command.set k v ttl.millis = .set key value millis := by
          simpa [command_put (Nat.not_le.mp hlong), hzero] using h
        cases hsent
        exact Nat.pos_of_ne_zero hzero
  | get k => cases h
  | delete k => cases h

/-- Calls on a store behind a server, against the same calls on a store in memory. -/
structure Agrees (calls : List TimedRequest) : Prop where
  /-- Where the call fits, both give one answer. -/
  alike : ∀ before c after, calls = before ++ c :: after → c.fits = true →
    reply before c = MemoryStore.reply (carried before) c.time c.rounded.request
  /-- Where it does not fit it is refused, and the server is sent nothing. -/
  refused : ∀ before time key value ttl after,
    calls = before ++ ⟨time, .put key value ttl⟩ :: after → wordBound 64 ≤ ttl.millis →
    reply before ⟨time, .put key value ttl⟩ = .error (.lifetimeOutOfRange ttl) ∧
      Redis.after {} (before ++ [⟨time, .put key value ttl⟩]) = Redis.after {} before
  positive : ∀ key value millis,
    .set key value millis ∈ (Redis.after {} calls).received → 0 < millis

theorem reply_put {history : List TimedRequest} {time : Instant} {key : String} {value : Octets}
    {ttl : Duration} (h : ttl.millis < wordBound 64) :
    reply history ⟨time, .put key value ttl⟩ = .ok none := by
  rw [reply, answer, command_put h]
  by_cases hzero : ttl.millis = 0
  · rw [if_pos hzero]
    rfl
  · rw [if_neg hzero]
    rfl

theorem reply_get {history : List TimedRequest} (h : ∀ c ∈ history, c.Measured) {now : Instant}
    (hnow : 1000000 ∣ now) (key : String) : reply history ⟨now, .get key⟩ =
      match recalled (carried history) now key with
      | some value => .ok (some value)
      | none => .error (.notFound key) := by
  rw [← value?_after h hnow]
  have hread : reply history ⟨now, .get key⟩ =
      meaning (.get key) (.value ((after {} history).value? (now / 1000000) key)) := rfl
  rw [hread]
  cases (after {} history).value? (now / 1000000) key with
  | none => rfl
  | some value => rfl

/-- The two stores agree on every run of calls at whole milliseconds that do not go back in time. -/
theorem stores_agree {calls : List TimedRequest} (hsorted : calls.Pairwise (·.time ≤ ·.time))
    (h : ∀ c ∈ calls, c.Measured) : Agrees calls where
  alike := by
    rintro before ⟨now, request⟩ after rfl hfits
    have hc : TimedRequest.Measured ⟨now, request⟩ := h _ (by simp)
    have hbefore : ∀ c ∈ before, c.Measured := fun c hc => h c (by simp [hc])
    have hearlier : ∀ c ∈ before, c.time ≤ now := fun c hc =>
      (List.pairwise_append.mp hsorted).2.2 c hc ⟨now, request⟩ (by simp)
    have hle := time_le_of_mem_carried hearlier
    cases request with
    | put key value ttl =>
      have hshort : ttl.millis < wordBound 64 := by simpa [TimedRequest.fits] using hfits
      have hroom : now + ttl.whole.nanos < Instant.bound := hc.room key value ttl rfl hshort
      have hmemory :
          MemoryStore.reply (carried before) now (.put key value ttl.whole) = .ok none := by
        rw [MemoryStore.reply_put]
        simp [hroom]
      exact (reply_put hshort).trans hmemory.symm
    | get key => exact (reply_get hbefore hc.tick key).trans (MemoryStore.reply_get hle key).symm
    | delete key => rfl
  refused := by
    rintro before time key value ttl after - hlong
    have hrefused (s : Server) (now : Nat) :
        answer s now (.put key value ttl) = (.error (.lifetimeOutOfRange ttl), s) := by
      simp [answer, command, hlong]
    refine ⟨?_, ?_⟩
    · rw [reply, hrefused]
    · rw [after_append_singleton, hrefused]
  positive := by
    intro key value millis hsent
    rw [received_after, List.mem_filterMap] at hsent
    obtain ⟨c, -, hcommand⟩ := hsent
    cases hrequest : command c.request with
    | error f => simp [hrequest, Except.toOption] at hcommand
    | ok sent =>
      have hset : sent = .set key value millis := by
        simpa [hrequest, Except.toOption] using hcommand
      exact pos_of_command_eq (hrequest.trans (congrArg Except.ok hset))

/-- A lifetime of half a millisecond, one that does not fit, and one that is cut at its end. -/
theorem stores_agree_cut :
    let calls : List TimedRequest :=
      [⟨0, .put "k" [1] ⟨9000000, by decide⟩⟩, ⟨1000000, .put "k" [2] ⟨500000, by decide⟩⟩,
       ⟨1000000, .put "k" [3] ⟨2900000, by decide⟩⟩,
       ⟨2000000, .put "k" [4] ⟨wordBound 64 * 1000000, by decide⟩⟩,
       ⟨2000000, .get "k"⟩, ⟨3000000, .get "k"⟩]
    (calls.Pairwise (·.time ≤ ·.time) ∧ ∀ c ∈ calls, c.Measured) ∧
      reply (calls.take 3) ⟨2000000, .put "k" [4] ⟨wordBound 64 * 1000000, by decide⟩⟩ =
        .error (.lifetimeOutOfRange ⟨wordBound 64 * 1000000, by decide⟩) ∧
      reply (calls.take 4) ⟨2000000, .get "k"⟩ = .ok (some [3]) ∧
      reply (calls.take 5) ⟨3000000, .get "k"⟩ = .error (.notFound "k") := by
  intro calls
  have hsorted : calls.Pairwise (·.time ≤ ·.time) := by decide
  have hmeasured : ∀ c ∈ calls, c.Measured := by
    intro c hc
    refine ⟨?_, ?_⟩
    · revert c
      decide
    · rintro key value ttl hput hshort
      have hroom : ∀ c ∈ calls, c.time ≤ 3000000 := by decide
      have hlt : ttl.whole.nanos < wordBound 64 * 1000000 :=
        Nat.mul_lt_mul_of_pos_right hshort (by decide)
      have hbound : 3000000 + wordBound 64 * 1000000 ≤ Instant.bound := by decide
      exact Nat.lt_of_lt_of_le (Nat.add_lt_add_of_le_of_lt (hroom c hc) hlt) hbound
  have hagree := stores_agree hsorted hmeasured
  refine ⟨⟨hsorted, hmeasured⟩, ?_, ?_, ?_⟩
  · exact (hagree.refused (calls.take 3) _ _ _ _ (calls.drop 4) rfl (by decide)).1
  · rw [hagree.alike (calls.take 4) _ (calls.drop 5) rfl rfl]
    rfl
  · rw [hagree.alike (calls.take 5) _ (calls.drop 6) rfl rfl]
    rfl

end Redis
end RowGate
