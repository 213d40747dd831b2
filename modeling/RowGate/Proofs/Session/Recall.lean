import Mathlib.Data.List.Induction
import RowGate.Session.Memory

/-! # What the store in memory recalls

To those who ask it the store is its history. What is under a key was settled by the latest request
that did settle it, a delete or a put that was carried out, and a value that was put is there
strictly before its lifetime is over. Reads drop entries that have expired, which no later read can
tell.
-/
namespace RowGate

structure TimedRequest where
  time : Instant
  request : StoreRequest
  deriving DecidableEq

namespace TimedRequest

def isRead (c : TimedRequest) : Bool :=
  match c.request with
  | .get _ => true
  | _ => false

/-- A delete settles what is under its key, and so does a put, unless the clock cannot express the
end of the lifetime; a lifetime of zero has no end to express. -/
def settles (key : String) (c : TimedRequest) : Bool :=
  match c.request with
  | .put k _ ttl => k = key ∧ (ttl.isZero ∨ c.time + ttl.nanos < Instant.bound)
  | .get _ => false
  | .delete k => k = key

theorem settles_key {key : String} {c : TimedRequest} (h : c.settles key = true) :
    c.request.key = key := by
  obtain ⟨time, request⟩ := c
  cases request with
  | put k value ttl =>
    simp only [settles, decide_eq_true_eq] at h
    exact h.1
  | get k => simp [settles] at h
  | delete k =>
    simp only [settles, decide_eq_true_eq] at h
    exact h

theorem settles_not_read {key : String} {c : TimedRequest} (h : c.settles key = true) :
    c.isRead = false := by
  obtain ⟨time, request⟩ := c
  cases request with
  | put k value ttl => rfl
  | get k => simp [settles] at h
  | delete k => rfl

end TimedRequest

def latest? (key : String) (history : List TimedRequest) : Option TimedRequest :=
  (history.filter (·.settles key)).getLast?

def TimedRequest.leaves (now : Instant) (c : TimedRequest) : Option Octets :=
  match c.request with
  | .put _ value ttl =>
    if ttl.isZero = false ∧ now < c.time + ttl.nanos then some value else none
  | _ => none

def recalled (history : List TimedRequest) (now : Instant) (key : String) : Option Octets :=
  (latest? key history).bind (·.leaves now)

theorem latest?_append_singleton (key : String) (history : List TimedRequest) (c : TimedRequest) :
    latest? key (history ++ [c]) = if c.settles key then some c else latest? key history := by
  unfold latest?
  rw [List.filter_append]
  by_cases h : c.settles key = true
  · simp [h]
  · simp [h]

theorem latest?_filter {key : String} {history : List TimedRequest} {p : TimedRequest → Bool}
    (h : ∀ c ∈ history, c.settles key = true → p c = true) :
    latest? key (history.filter p) = latest? key history := by
  unfold latest?
  rw [List.filter_filter]
  refine congrArg List.getLast? (List.filter_congr ?_)
  intro c hc
  cases hs : c.settles key with
  | false => rfl
  | true => simp [h c hc hs]

section Recalled
variable {history before after : List TimedRequest} {c c' : TimedRequest} {now : Instant}
  {key : String}

theorem recalled_append_singleton : recalled (history ++ [c]) now key =
    if c.settles key then c.leaves now else recalled history now key := by
  unfold recalled
  rw [latest?_append_singleton]
  split
  · rfl
  · rfl

theorem recalled_eq_some_iff {value : Octets} : recalled history now key = some value ↔
    ∃ start ttl, latest? key history = some ⟨start, .put key value ttl⟩ ∧ ttl.isZero = false ∧
      now < start + ttl.nanos := by
  unfold recalled
  rw [Option.bind_eq_some_iff]
  constructor
  · rintro ⟨⟨start, request⟩, hlatest, hleaves⟩
    have hsettles : TimedRequest.settles key ⟨start, request⟩ = true :=
      (List.mem_filter.mp (List.mem_of_getLast? hlatest)).2
    cases request with
    | put k v ttl =>
      have hk : k = key := TimedRequest.settles_key hsettles
      have hv : (ttl.isZero = false ∧ now < start + ttl.nanos) ∧ v = value := by
        simpa [TimedRequest.leaves] using hleaves
      obtain ⟨⟨hzero, hnow⟩, rfl⟩ := hv
      subst hk
      exact ⟨start, ttl, hlatest, hzero, hnow⟩
    | get k => simp [TimedRequest.leaves] at hleaves
    | delete k => simp [TimedRequest.leaves] at hleaves
  · rintro ⟨start, ttl, hlatest, hzero, hnow⟩
    exact ⟨_, hlatest, by simp [TimedRequest.leaves, hzero, hnow]⟩

theorem recalled_filter {p : TimedRequest → Bool}
    (h : ∀ c ∈ history, c.settles key = true → p c = true) :
    recalled (history.filter p) now key = recalled history now key := by
  rw [recalled, recalled, latest?_filter h]

/-- A request that settles nothing may be left out. -/
theorem recalled_drop (h : c.settles key = false) :
    recalled (before ++ c :: after) now key = recalled (before ++ after) now key := by
  have hsame : (before ++ c :: after).filter (·.settles key) =
      (before ++ after).filter (·.settles key) := by
    simp [List.filter_append, h]
  rw [recalled, recalled, latest?, latest?, hsame]

theorem recalled_exchange (hs : c.settles key = c'.settles key)
    (hl : c.leaves now = c'.leaves now) :
    recalled (before ++ c :: after) now key = recalled (before ++ c' :: after) now key := by
  induction after using List.reverseRecOn with
  | nil => rw [recalled_append_singleton, recalled_append_singleton, hs, hl]
  | append_singleton after d ih =>
    have hsplit (x : TimedRequest) :
        before ++ x :: (after ++ [d]) = before ++ x :: after ++ [d] := by simp
    rw [hsplit, hsplit, recalled_append_singleton, recalled_append_singleton, ih]

end Recalled

def MemoryEntry.live (e : MemoryEntry) (now : Instant) : Option Octets :=
  if now < e.expires then some e.value else none

namespace MemoryStore

def live (s : MemoryStore) (now : Instant) (key : String) : Option Octets :=
  (s.find? key).bind (·.live now)

section Live
variable (s : MemoryStore) (now later : Instant) (key k : String)

theorem live_erase :
    (s.erase key).live now k = if k = key then none else s.live now k := by
  unfold live
  rw [find?_erase]
  split
  · rfl
  · rfl

theorem live_insert (e : MemoryEntry) :
    (s.insert key e).live now k = if k = key then e.live now else s.live now k := by
  unfold live
  rw [find?_insert]
  split
  · rfl
  · rfl

theorem get_fst : (s.get now key).1 =
    match s.live now key with
    | some value => .ok value
    | none => .error (.notFound key) := by
  unfold get live
  cases s.find? key with
  | none => rfl
  | some e =>
    by_cases h : now < e.expires
    · simp [MemoryEntry.live, h]
    · simp [MemoryEntry.live, h]

/-- What a read drops has expired, so no later read misses it. -/
theorem live_get {now later : Instant} (hle : now ≤ later) :
    (s.get now key).2.live later k = s.live later k := by
  unfold get
  cases hfind : s.find? key with
  | none => rfl
  | some e =>
    by_cases h : now < e.expires
    · simp [h]
    · have hlater : ¬ later < e.expires := fun hl => h (Nat.lt_of_le_of_lt hle hl)
      simp only [h, if_false, live_erase]
      split
      · next hk =>
        subst hk
        rw [live, hfind, Option.bind_some, MemoryEntry.live, if_neg hlater]
      · rfl

theorem live_put (value : Octets) (ttl : Duration) : (s.put now key value ttl).2.live later k =
    if k = key then
      if ttl.isZero then none
      else if now + ttl.nanos < Instant.bound then
        if later < now + ttl.nanos then some value else none
      else s.live later k
    else s.live later k := by
  unfold put
  by_cases hzero : ttl.isZero = true
  · simp only [hzero, if_true, live_erase]
  · by_cases hbound : now + ttl.nanos < Instant.bound
    · simp [hzero, hbound, Instant.after?, live_insert, MemoryEntry.live]
    · simp [hzero, hbound, Instant.after?]

theorem put_fst (value : Octets) (ttl : Duration) : (s.put now key value ttl).1 =
    if ttl.isZero ∨ now + ttl.nanos < Instant.bound then .ok ()
    else .error (.lifetimeOutOfRange ttl) := by
  unfold put
  by_cases hzero : ttl.isZero = true
  · simp [hzero]
  · by_cases hbound : now + ttl.nanos < Instant.bound
    · simp [hzero, hbound, Instant.after?]
    · simp [hzero, hbound, Instant.after?]

end Live

def after (s : MemoryStore) (history : List TimedRequest) : MemoryStore :=
  history.foldl (fun s c => (s.answer c.time c.request).2) s

/-- One request: what it settles is what it leaves, and all else is as it was. -/
theorem live_answer (s : MemoryStore) (c : TimedRequest) {later : Instant} (hle : c.time ≤ later)
    (key : String) : (s.answer c.time c.request).2.live later key =
      if c.settles key then c.leaves later else s.live later key := by
  obtain ⟨time, request⟩ := c
  cases request with
  | put k value ttl =>
    simp only [answer, live_put, TimedRequest.settles, TimedRequest.leaves]
    by_cases hk : key = k
    · subst hk
      by_cases hzero : ttl.isZero = true
      · simp [hzero]
      · by_cases hbound : time + ttl.nanos < Instant.bound
        · simp [hzero, hbound]
        · simp [hzero, hbound]
    · have hk' : k ≠ key := fun h => hk h.symm
      simp [hk, hk']
  | get k => exact live_get s k key hle
  | delete k =>
    simp only [answer, delete, live_erase, TimedRequest.settles, TimedRequest.leaves]
    by_cases hk : key = k
    · simp [hk]
    · have hk' : k ≠ key := fun h => hk h.symm
      simp [hk, hk']

theorem live_after {history : List TimedRequest} {now : Instant}
    (h : ∀ c ∈ history, c.time ≤ now) (key : String) :
    (empty.after history).live now key = recalled history now key := by
  -- On the history, from the latest request back.
  induction history using List.reverseRecOn with
  | nil => rfl
  | append_singleton history c ih =>
    have hlast : c.time ≤ now := h c (by simp)
    have hbefore : ∀ c' ∈ history, c'.time ≤ now := fun c' hc' => h c' (by simp [hc'])
    have hafter : empty.after (history ++ [c]) =
        ((empty.after history).answer c.time c.request).2 := by simp [after]
    rw [hafter, live_answer _ c hlast, ih hbefore, recalled_append_singleton]

def reply (history : List TimedRequest) (now : Instant) (r : StoreRequest) : StoreAnswer :=
  ((empty.after history).answer now r).1

/-- A read gives what the history recalls, and all that the history recalls of its key is a put
that the clock can keep time for. -/
structure Recalls (history : List TimedRequest) (now : Instant) : Prop where
  found : ∀ key value, reply history now (.get key) = .ok (some value) ↔
    ∃ start ttl, latest? key history = some ⟨start, .put key value ttl⟩ ∧ ttl.isZero = false ∧
      now < start + ttl.nanos
  missing : ∀ key, (∀ value, reply history now (.get key) ≠ .ok (some value)) →
    reply history now (.get key) = .error (.notFound key)
  put : ∀ key value ttl, reply history now (.put key value ttl) =
    if ttl.isZero ∨ now + ttl.nanos < Instant.bound then .ok none
    else .error (.lifetimeOutOfRange ttl)
  delete : ∀ key, reply history now (.delete key) = .ok none
  /-- A put that was refused counts as not made. -/
  refused : ∀ before after start key value ttl,
    history = before ++ ⟨start, .put key value ttl⟩ :: after → ttl.isZero = false →
    Instant.bound ≤ start + ttl.nanos →
    ∀ k, reply history now (.get k) = reply (before ++ after) now (.get k)
  /-- A put without a lifetime is a delete. -/
  zero : ∀ before after start key value ttl,
    history = before ++ ⟨start, .put key value ttl⟩ :: after → ttl.isZero = true →
    ∀ k, reply history now (.get k) = reply (before ++ ⟨start, .delete key⟩ :: after) now (.get k)
  unread : ∀ key,
    reply history now (.get key) = reply (history.filter (!·.isRead)) now (.get key)
  apart : ∀ key,
    reply history now (.get key) = reply (history.filter (·.request.key = key)) now (.get key)

theorem reply_get {history : List TimedRequest} {now : Instant} (h : ∀ c ∈ history, c.time ≤ now)
    (key : String) : reply history now (.get key) =
      match recalled history now key with
      | some value => .ok (some value)
      | none => .error (.notFound key) := by
  have hanswer : reply history now (.get key) =
      ((empty.after history).get now key).1.map some := rfl
  rw [hanswer, get_fst, live_after h]
  cases recalled history now key with
  | none => rfl
  | some value => rfl

theorem reply_put (history : List TimedRequest) (now : Instant) (key : String) (value : Octets)
    (ttl : Duration) : reply history now (.put key value ttl) =
      if ttl.isZero ∨ now + ttl.nanos < Instant.bound then .ok none
      else .error (.lifetimeOutOfRange ttl) := by
  have hanswer : reply history now (.put key value ttl) =
      ((empty.after history).put now key value ttl).1.map fun _ => none := rfl
  rw [hanswer, put_fst]
  split
  · rfl
  · rfl

/-- Histories that recall the same of a key cannot be told apart by reading it. -/
theorem reply_get_congr {history other : List TimedRequest} {now : Instant} {key : String}
    (h : ∀ c ∈ history, c.time ≤ now) (ho : ∀ c ∈ other, c.time ≤ now)
    (heq : recalled history now key = recalled other now key) :
    reply history now (.get key) = reply other now (.get key) := by
  rw [reply_get h, reply_get ho, heq]

/-- A store in memory recalls its history, in whatever order the times before the present stand. -/
theorem store_recalls {history : List TimedRequest} {now : Instant}
    (h : ∀ c ∈ history, c.time ≤ now) : Recalls history now where
  found key value := by
    rw [reply_get h, ← recalled_eq_some_iff]
    cases recalled history now key with
    | none => simp
    | some v => simp
  missing key hnone := by
    rw [reply_get h] at hnone ⊢
    cases hrecalled : recalled history now key with
    | none => rfl
    | some value => exact absurd (by rw [hrecalled]) (hnone value)
  put := reply_put history now
  delete key := rfl
  refused := by
    rintro before after start key value ttl rfl hzero hbound k
    have hbound' : ¬ start + ttl.nanos < Instant.bound := Nat.not_lt.mpr hbound
    have hsettles : TimedRequest.settles k ⟨start, .put key value ttl⟩ = false := by
      simp [TimedRequest.settles, hzero, hbound']
    refine reply_get_congr h (fun c hc => h c ?_) (recalled_drop hsettles)
    rcases List.mem_append.mp hc with hc | hc
    · exact List.mem_append_left _ hc
    · exact List.mem_append_right _ (List.mem_cons_of_mem _ hc)
  zero := by
    rintro before after start key value ttl rfl hzero k
    have hstart : start ≤ now := h ⟨start, .put key value ttl⟩ (by simp)
    refine reply_get_congr h ?_ (recalled_exchange ?_ ?_)
    · intro c hc
      rcases List.mem_append.mp hc with hc | hc
      · exact h c (List.mem_append_left _ hc)
      rcases List.mem_cons.mp hc with rfl | hc
      · exact hstart
      · exact h c (List.mem_append_right _ (List.mem_cons_of_mem _ hc))
    · simp [TimedRequest.settles, hzero]
    · simp [TimedRequest.leaves, hzero]
  unread key := by
    refine reply_get_congr h (fun c hc => h c (List.mem_filter.mp hc).1) (recalled_filter ?_).symm
    intro c _ hsettles
    simp [TimedRequest.settles_not_read hsettles]
  apart key := by
    refine reply_get_congr h (fun c hc => h c (List.mem_filter.mp hc).1) (recalled_filter ?_).symm
    intro c _ hsettles
    simp [TimedRequest.settles_key hsettles]

/-- The second put is refused, so the first one counts until it expires. -/
theorem store_recalls_refused :
    let history : List TimedRequest :=
      [⟨0, .put "k" [1] ⟨5, by decide⟩⟩, ⟨1, .put "k" [2] ⟨Duration.bound - 1, by decide⟩⟩,
       ⟨2, .get "k"⟩]
    (∀ c ∈ history, c.time ≤ 4) ∧ reply history 4 (.get "k") = .ok (some [1]) ∧
      reply history 5 (.get "k") ≠ .ok (some [1]) := by
  intro history
  have hfour : ∀ c ∈ history, c.time ≤ 4 := by decide
  have hfive : ∀ c ∈ history, c.time ≤ 5 := by decide
  have hlatest : latest? "k" history = some ⟨0, .put "k" [1] ⟨5, by decide⟩⟩ := by decide
  refine ⟨hfour, ((store_recalls hfour).found "k" [1]).mpr ⟨0, _, hlatest, rfl, by decide⟩, ?_⟩
  intro hfound
  obtain ⟨start, ttl, hput, -, hlt⟩ := ((store_recalls hfive).found "k" [1]).mp hfound
  rw [hlatest] at hput
  cases hput
  exact absurd hlt (by decide)

end MemoryStore
end RowGate
