import RowGate.Envelope
import RowGate.Proofs.Base64
import RowGate.Proofs.Text

/-! # Envelopes open to what was sealed

Opening is the inverse of sealing on each of its layers: the tagged body is accepted exactly when
it is the protected form of the message that comes out, the octets are accepted exactly when they
are the written form of nonce, body and tag, and blanks around the text fall away. So what was
wrapped is unwrapped, and nothing is unwrapped but what was wrapped.
-/
namespace RowGate

namespace Cipher.Aead

theorem length_tagOf (key nonce body : Octets) : (tagOf key nonce body).length = tagSize :=
  Poly1305.length_tag ..

theorem tooLong_apply (key nonce message : Octets) :
    tooLong (ChaCha20.apply key nonce message) = tooLong message := by
  rw [tooLong, ChaCha20.length_apply, tooLong]

/-- A sealed form is accepted exactly when it is the protected form of what comes out. -/
theorem recover_eq_some_iff {key nonce sealed message : Octets} :
    recover key nonce sealed = some message ↔ protect key nonce message = some sealed := by
  constructor
  · intro h
    unfold recover at h
    split at h
    · cases h
    dsimp only at h
    split at h
    · cases h
    next hlong =>
    split at h
    · next htag =>
      cases h
      rw [protect, tooLong_apply, if_neg hlong]
      simp only [ChaCha20.apply_apply, htag, List.take_append_drop]
    · cases h
  · intro h
    unfold protect at h
    split at h
    · cases h
    next hlong =>
    cases h
    have htag := length_tagOf key nonce (ChaCha20.apply key nonce message)
    have hlen : ((ChaCha20.apply key nonce message) ++
        tagOf key nonce (ChaCha20.apply key nonce message)).length - tagSize =
        (ChaCha20.apply key nonce message).length := by
      rw [List.length_append, htag, Nat.add_sub_cancel]
    rw [recover, if_neg (by rw [List.length_append, htag]; omega)]
    simp only [hlen, List.take_left, List.drop_left, tooLong_apply, hlong, if_true,
      Bool.false_eq_true, if_false, ChaCha20.apply_apply]

/-- Behind a body, the tag of that body is the only one in a protected form. -/
theorem eq_tagOf_of_protect {key nonce message body tag : Octets}
    (h : protect key nonce message = some (body ++ tag)) (ht : tag.length = tagSize) :
    tag = tagOf key nonce body := by
  unfold protect at h
  split at h
  · cases h
  have hsplit := Option.some.inj h
  obtain ⟨hbody, htag⟩ := List.append_inj' hsplit (by rw [ht, length_tagOf])
  rw [← htag, hbody]

/-- What is shorter than a tag is no sealed form. -/
theorem recover_of_short {key nonce sealed : Octets} (h : sealed.length < tagSize) :
    recover key nonce sealed = none := by
  rw [recover, if_pos h]

end Cipher.Aead

theorem Base64.not_blank_of_mem_encode (b : Octets) : ∀ c ∈ encode b, Text.isBlank c = false := by
  have symbols : ∀ n < 64, Text.isBlank (symbol n) = false := fun n h => (symbol_facts n h).2.1
  have padding : Text.isBlank '=' = false := by decide
  fun_induction encode b with
  | case1 => exact fun _ h => absurd h List.not_mem_nil
  | case2 a =>
    have ha := a.toNat_lt
    simp only [List.forall_mem_cons, padding]
    exact ⟨symbols _ (by omega), symbols _ (by omega), by simp⟩
  | case3 a b =>
    have ha := a.toNat_lt
    have hb := b.toNat_lt
    simp only [List.forall_mem_cons, padding]
    exact ⟨symbols _ (by omega), symbols _ (by omega), symbols _ (by omega), by simp⟩
  | case4 a b c rest ih =>
    have ha := a.toNat_lt
    have hb := b.toNat_lt
    have hc := c.toNat_lt
    simp only [List.forall_mem_cons]
    exact ⟨symbols _ (by omega), symbols _ (by omega), symbols _ (by omega),
      symbols _ (by omega), ih⟩

namespace Envelope
open Cipher

theorem wrap_eq_ok_iff {payload nonce : Octets} {secret envelope : String} :
    wrap payload secret nonce = .ok envelope ↔ secret ≠ "" ∧
      ∃ sealed, Aead.protect (key secret) nonce payload = some sealed ∧
        envelope = String.ofList (Base64.encode (nonce ++ sealed)) := by
  unfold wrap
  rw [Ne, ← String.isEmpty_iff]
  split
  · next h => simp [h]
  · next h =>
    cases Aead.protect (key secret) nonce payload with
    | none => simp
    | some sealed => simp [h, eq_comm]

theorem unwrap_eq_ok_iff {payload : Octets} {secret envelope : String} :
    unwrap envelope secret = .ok payload ↔ secret ≠ "" ∧
      ∃ nonce sealed, nonce.length = nonceSize ∧
        Aead.protect (key secret) nonce payload = some sealed ∧
        Text.trim envelope = String.ofList (Base64.encode (nonce ++ sealed)) := by
  rw [Ne, ← String.isEmpty_iff]
  constructor
  · intro h
    unfold unwrap at h
    split at h
    · cases h
    next raw hraw =>
    split at h
    · cases h
    next hlen =>
    split at h
    · cases h
    next hs =>
    split at h
    · cases h
    next p hp =>
    cases h
    refine ⟨hs, raw.take nonceSize, raw.drop nonceSize, ?_, Aead.recover_eq_some_iff.mp hp, ?_⟩
    · rw [List.length_take]
      omega
    · rw [List.take_append_drop]
      exact Base64.decode_octets_eq_ok_iff.mp hraw
  · rintro ⟨hs, nonce, sealed, hn, hp, ht⟩
    have hlen : ¬ (nonce ++ sealed).length < nonceSize := by
      rw [List.length_append]
      omega
    rw [unwrap, Base64.decode_octets_eq_ok_iff.mpr ht]
    simp only [if_neg hlen, if_neg hs, List.take_left' hn, List.drop_left' hn,
      Aead.recover_eq_some_iff.mpr hp]

theorem unwrap_surrounded {payload nonce : Octets} {secret envelope before after : String}
    (h : wrap payload secret nonce = .ok envelope) (hn : nonce.length = nonceSize)
    (hb : ∀ c ∈ before.toList, Text.isBlank c = true)
    (ha : ∀ c ∈ after.toList, Text.isBlank c = true) :
    unwrap (before ++ envelope ++ after) secret = .ok payload := by
  obtain ⟨hs, sealed, hp, rfl⟩ := wrap_eq_ok_iff.mp h
  refine unwrap_eq_ok_iff.mpr ⟨hs, nonce, sealed, hn, hp, ?_⟩
  rw [Text.trim, String.toList_append, String.toList_append, String.toList_ofList,
    Text.trimmed_surrounded hb ha (Base64.not_blank_of_mem_encode _)]

theorem unwrap_of_wrap {payload nonce : Octets} {secret envelope : String}
    (h : wrap payload secret nonce = .ok envelope) (hn : nonce.length = nonceSize) :
    unwrap envelope secret = .ok payload := by
  have hs : unwrap ("" ++ envelope ++ "") secret = .ok payload :=
    unwrap_surrounded h hn (by simp) (by simp)
  simpa using hs

theorem exists_wrap {payload : Octets} (nonce : Octets) {secret : String}
    (hp : payload.length < 64 * 0xFFFFFFFF) (hs : secret ≠ "") :
    ∃ envelope, wrap payload secret nonce = .ok envelope := by
  have hfits : Aead.tooLong payload = false := by
    have hlimit : Aead.blockLimit = 0xFFFFFFFF := by decide
    rw [Aead.tooLong, decide_eq_false_iff_not, hlimit]
    omega
  obtain ⟨sealed, hsealed⟩ : ∃ sealed, Aead.protect (key secret) nonce payload = some sealed := by
    rw [Aead.protect, hfits]
    exact ⟨_, rfl⟩
  exact ⟨_, wrap_eq_ok_iff.mpr ⟨hs, sealed, hsealed, rfl⟩⟩

/-- A payload that is not too long is wrapped, and its envelope opens under the same secret,
whatever blanks surround it. -/
theorem exists_wrap_and_unwrap (payload nonce : Octets) (secret before after : String)
    (hp : payload.length < 64 * 0xFFFFFFFF) (hs : secret ≠ "") (hn : nonce.length = nonceSize)
    (hb : ∀ c ∈ before.toList, Text.isBlank c = true)
    (ha : ∀ c ∈ after.toList, Text.isBlank c = true) :
    ∃ envelope, wrap payload secret nonce = .ok envelope ∧
      unwrap (before ++ envelope ++ after) secret = .ok payload := by
  obtain ⟨envelope, hw⟩ := exists_wrap nonce hp hs
  exact ⟨envelope, hw, unwrap_surrounded hw hn hb ha⟩

/-- A login wrapped under a secret and twelve equal octets, with blanks of several kinds around. -/
theorem exists_wrap_and_unwrap_login :
    (Utf8.octets "\x7b\"host\":\"db\"\x7d").length < 64 * 0xFFFFFFFF ∧ "hunter2" ≠ "" ∧
      (List.replicate 12 (9 : UInt8)).length = nonceSize ∧
      ∃ envelope,
        wrap (Utf8.octets "\x7b\"host\":\"db\"\x7d") "hunter2" (List.replicate 12 9) =
          .ok envelope ∧
        unwrap ("\u3000\t" ++ envelope ++ " \u2028\n") "hunter2" =
          .ok (Utf8.octets "\x7b\"host\":\"db\"\x7d") :=
  ⟨by decide, by decide, by decide,
    exists_wrap_and_unwrap _ _ _ _ _ (by decide) (by decide) (by decide)
      (List.all_eq_true.mp (by decide)) (List.all_eq_true.mp (by decide))⟩

/-- A text is the only one for the nonce, the body and the tag that it seals. -/
structure Canonical (text secret : String) (payload nonce body tag : Octets) : Prop where
  length_nonce : nonce.length = nonceSize
  length_tag : tag.length = Aead.tagSize
  decoded : Base64.decode (Utf8.octets text) = .ok (nonce ++ body ++ tag)
  wrapped : wrap payload secret nonce = .ok text
  written : text = String.ofList (Base64.encode (nonce ++ body ++ tag))
  /-- No other text decodes to the same octets. -/
  only_text : ∀ other, Base64.decode (Utf8.octets other) = .ok (nonce ++ body ++ tag) → other = text
  /-- No other tag is accepted behind the same nonce and body. -/
  only_tag : ∀ other payload' tag', unwrap other secret = .ok payload' →
    tag'.length = Aead.tagSize →
    Base64.decode (Utf8.octets (Text.trim other)) = .ok (nonce ++ body ++ tag') →
    Text.trim other = text

/-- What is accepted is, but for blanks around it, the text that wrapping its payload under its
nonce gives. -/
theorem wrap_of_unwrap {payload : Octets} {secret envelope : String}
    (h : unwrap envelope secret = .ok payload) :
    ∃ nonce body tag, Canonical (Text.trim envelope) secret payload nonce body tag := by
  obtain ⟨hs, nonce, sealed, hn, hp, ht⟩ := unwrap_eq_ok_iff.mp h
  obtain ⟨body, tag, htag, rfl⟩ : ∃ body tag, tag.length = Aead.tagSize ∧ sealed = body ++ tag := by
    unfold Aead.protect at hp
    split at hp
    · cases hp
    · cases hp
      exact ⟨_, _, Aead.length_tagOf .., rfl⟩
  have hw : wrap payload secret nonce = .ok (Text.trim envelope) :=
    wrap_eq_ok_iff.mpr ⟨hs, _, hp, ht⟩
  rw [← List.append_assoc] at ht
  refine ⟨nonce, body, tag, hn, htag, Base64.decode_octets_eq_ok_iff.mpr ht, hw, ht, ?_, ?_⟩
  · intro text htext
    rw [ht, Base64.decode_octets_eq_ok_iff.mp htext]
  · intro other payload' tag' hother htag' hraw
    obtain ⟨-, nonce', sealed', hn', hp', ht'⟩ := unwrap_eq_ok_iff.mp hother
    have hsame : nonce' ++ sealed' = nonce ++ (body ++ tag') := by
      rw [← List.append_assoc]
      exact Except.ok.inj ((Base64.decode_octets_eq_ok_iff.mpr ht').symm.trans hraw)
    obtain ⟨rfl, rfl⟩ := List.append_inj hsame (hn'.trans hn.symm)
    rw [ht, Base64.decode_octets_eq_ok_iff.mp hraw, Aead.eq_tagOf_of_protect hp htag,
      Aead.eq_tagOf_of_protect hp' htag']

/-- A short payload in an envelope between a tabulator and a wide blank. -/
theorem wrap_of_unwrap_blanks :
    ∃ envelope, unwrap ("\t" ++ envelope ++ "\u3000") "secret" = .ok [97, 98, 99] ∧
      ∃ nonce body tag, Canonical (Text.trim ("\t" ++ envelope ++ "\u3000")) "secret" [97, 98, 99]
        nonce body tag := by
  obtain ⟨envelope, hw⟩ : ∃ envelope, wrap [97, 98, 99] "secret" (List.replicate 12 0) =
      .ok envelope := exists_wrap _ (by decide) (by decide)
  have hopens : unwrap ("\t" ++ envelope ++ "\u3000") "secret" = .ok [97, 98, 99] :=
    unwrap_surrounded hw (by decide) (List.all_eq_true.mp (by decide))
      (List.all_eq_true.mp (by decide))
  exact ⟨envelope, hopens, wrap_of_unwrap hopens⟩

def Encodes (envelope : String) (raw : Octets) : Prop :=
  Text.trim envelope = String.ofList (Base64.encode raw)

theorem encodes_iff_decode {envelope : String} {raw : Octets} :
    Encodes envelope raw ↔ Base64.decode (Utf8.octets (Text.trim envelope)) = .ok raw :=
  Base64.decode_octets_eq_ok_iff.symm

theorem Encodes.unique {envelope : String} {raw raw' : Octets} (h : Encodes envelope raw)
    (h' : Encodes envelope raw') : raw' = raw :=
  Except.ok.inj ((encodes_iff_decode.mp h').symm.trans (encodes_iff_decode.mp h))

theorem unwrap_of_not_encodes {envelope : String} (secret : String)
    (h : ∀ raw, ¬ Encodes envelope raw) :
    ∃ reason, unwrap envelope secret = .error (.malformed reason) := by
  cases hraw : Base64.decode (Utf8.octets (Text.trim envelope)) with
  | ok raw => exact absurd (encodes_iff_decode.mpr hraw) (h raw)
  | error f => exact ⟨f.message, by rw [unwrap, hraw]⟩

section Encoded
variable {envelope : String} {raw : Octets} (secret : String)

theorem unwrap_of_short (h : Encodes envelope raw) (hlen : raw.length < nonceSize) :
    unwrap envelope secret = .error (.truncated nonceSize raw.length) := by
  rw [unwrap, encodes_iff_decode.mp h]
  exact if_pos hlen

theorem unwrap_empty (h : Encodes envelope raw) (hlen : nonceSize ≤ raw.length) :
    unwrap envelope "" = .error .emptySecret := by
  rw [unwrap, encodes_iff_decode.mp h]
  exact if_neg (Nat.not_lt.mpr hlen)

theorem unwrap_of_encodes {secret : String} (h : Encodes envelope raw)
    (hlen : nonceSize ≤ raw.length) (hs : secret ≠ "") :
    unwrap envelope secret =
      match Aead.recover (key secret) (raw.take nonceSize) (raw.drop nonceSize) with
      | none => .error (.decryption cipherFault)
      | some payload => .ok payload := by
  have hempty : ¬ secret.isEmpty = true := fun hs' => hs (String.isEmpty_iff.mp hs')
  rw [unwrap, encodes_iff_decode.mp h]
  exact (if_neg (Nat.not_lt.mpr hlen)).trans (if_neg hempty)

end Encoded

/-- The conditions under which an outcome is the one of opening a text under a secret. What the
text encodes is judged first, then its length, then the secret, and then the cipher speaks. -/
structure Partitioned (envelope secret : String) (outcome : Except SealFault Octets) : Prop where
  malformed : (∃ reason, outcome = .error (.malformed reason)) ↔ ∀ raw, ¬ Encodes envelope raw
  truncated : ∀ expected actual, outcome = .error (.truncated expected actual) ↔
    expected = 12 ∧ actual < 12 ∧ ∃ raw, Encodes envelope raw ∧ raw.length = actual
  emptySecret : outcome = .error .emptySecret ↔
    secret = "" ∧ ∃ raw, Encodes envelope raw ∧ 12 ≤ raw.length
  judged : ((∃ payload, outcome = .ok payload) ∨ ∃ reason, outcome = .error (.decryption reason)) ↔
    secret ≠ "" ∧ ∃ raw, Encodes envelope raw ∧ 12 ≤ raw.length
  /-- Behind the nonce there must be room for a tag. -/
  tagless : ∀ raw, Encodes envelope raw → 12 ≤ raw.length → raw.length < 28 → secret ≠ "" →
    ∃ reason, outcome = .error (.decryption reason)
  encryption : ∀ reason, outcome ≠ .error (.encryption reason)

theorem partitioned_malformed {envelope : String} (secret reason : String)
    (h : ∀ raw, ¬ Encodes envelope raw) :
    Partitioned envelope secret (.error (.malformed reason)) := by
  constructor <;> simp [h]

theorem partitioned_truncated {envelope : String} {raw : Octets} (secret : String)
    (h : Encodes envelope raw) (hlen : raw.length < 12) :
    Partitioned envelope secret (.error (.truncated 12 raw.length)) := by
  have honly : ∀ raw', Encodes envelope raw' → raw' = raw := fun _ h' => h.unique h'
  have hlong : ¬ ∃ raw', Encodes envelope raw' ∧ 12 ≤ raw'.length := by
    rintro ⟨raw', h', hlong⟩
    rw [honly raw' h'] at hlong
    omega
  constructor
  case malformed => simpa using ⟨raw, h⟩
  case truncated =>
    intro expected actual
    constructor
    · intro heq
      cases heq
      exact ⟨rfl, hlen, raw, h, rfl⟩
    · rintro ⟨rfl, -, raw', h', rfl⟩
      rw [honly raw' h']
  case emptySecret => simp [hlong]
  case judged => simp [hlong]
  case tagless => exact fun raw' h' hlong' => absurd ⟨raw', h', hlong'⟩ hlong
  case encryption => simp

theorem partitioned_emptySecret {envelope : String} {raw : Octets} (h : Encodes envelope raw)
    (hlen : 12 ≤ raw.length) : Partitioned envelope "" (.error .emptySecret) := by
  constructor
  case malformed => simpa using ⟨raw, h⟩
  case truncated =>
    intro expected actual
    constructor
    · intro heq
      cases heq
    · rintro ⟨-, hactual, raw', h', rfl⟩
      rw [h.unique h'] at hactual
      omega
  case emptySecret => exact iff_of_true rfl ⟨rfl, raw, h, hlen⟩
  all_goals simp

/-- Past the checks an outcome is a payload or a failure to decipher. -/
theorem partitioned_judged {envelope secret : String} {raw : Octets}
    {outcome : Except SealFault Octets} (h : Encodes envelope raw) (hlen : 12 ≤ raw.length)
    (hs : secret ≠ "")
    (ho : (∃ payload, outcome = .ok payload) ∨ ∃ reason, outcome = .error (.decryption reason))
    (htagless : raw.length < 28 → ∃ reason, outcome = .error (.decryption reason)) :
    Partitioned envelope secret outcome := by
  constructor
  case judged => exact iff_of_true ho ⟨hs, raw, h, hlen⟩
  case tagless =>
    intro raw' h' _ hshort _
    rw [h.unique h'] at hshort
    exact htagless hshort
  case truncated =>
    intro expected actual
    constructor
    · rintro rfl
      simp at ho
    · rintro ⟨-, hactual, raw', h', rfl⟩
      rw [h.unique h'] at hactual
      omega
  case malformed =>
    have hsome : ¬ ∀ raw', ¬ Encodes envelope raw' := fun hnone => hnone raw h
    rcases ho with ⟨payload, rfl⟩ | ⟨reason, rfl⟩ <;> simp [hsome]
  all_goals rcases ho with ⟨payload, rfl⟩ | ⟨reason, rfl⟩ <;> simp [hs]

/-- For every text and every secret the outcome of opening is the one that its conditions name. -/
theorem unwrap_partitioned (envelope secret : String) :
    Partitioned envelope secret (unwrap envelope secret) := by
  by_cases hnone : ∀ raw, ¬ Encodes envelope raw
  · obtain ⟨reason, hr⟩ := unwrap_of_not_encodes secret hnone
    rw [hr]
    exact partitioned_malformed secret reason hnone
  obtain ⟨raw, h⟩ : ∃ raw, Encodes envelope raw := by simpa using hnone
  rcases Nat.lt_or_ge raw.length nonceSize with hshort | hlen
  · rw [unwrap_of_short secret h hshort]
    exact partitioned_truncated secret h hshort
  by_cases hs : secret = ""
  · rw [hs, unwrap_empty h hlen]
    exact partitioned_emptySecret h hlen
  rw [unwrap_of_encodes h hlen hs]
  apply partitioned_judged h hlen hs
  · cases Aead.recover (key secret) (raw.take nonceSize) (raw.drop nonceSize) <;> simp
  · intro hshort
    have hdrop : (raw.drop nonceSize).length < Aead.tagSize := by
      rw [List.length_drop]
      exact Nat.sub_lt_right_of_lt_add hlen hshort
    rw [Aead.recover_of_short hdrop]
    exact ⟨_, rfl⟩

end Envelope
end RowGate
