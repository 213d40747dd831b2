import Mathlib.Algebra.Order.Floor.Div
import RowGate.Proofs.Envelope

/-! # The layout of an envelope

An envelope is base64 of the nonce, of as many octets as the payload has and of sixteen more. So its
length and its padding depend on the length of the payload only, and as both nonce and payload come
back out of it, no two pairs of them share an envelope under one secret.
-/
namespace RowGate

namespace Base64

def alphabet : List Char :=
  "ABCDEFGHIJKLMNOPQRSTUVWXYZabcdefghijklmnopqrstuvwxyz0123456789+/".toList

theorem symbol_mem_alphabet : ∀ n < 64, symbol n ∈ alphabet := by
  decide

def padding (size : Nat) : List Char := List.replicate ((3 - size % 3) % 3) '='

theorem padding_add_three (size : Nat) : padding (size + 3) = padding size := by
  rw [padding, Nat.add_mod_right, padding]

/-- What is written is symbols and then padding. -/
theorem encode_eq_symbols_append (b : Octets) :
    ∃ symbols, encode b = symbols ++ padding b.length ∧ ∀ c ∈ symbols, c ∈ alphabet := by
  fun_induction encode b with
  | case1 => exact ⟨[], rfl, List.forall_mem_nil _⟩
  | case2 a =>
    have ha := a.toNat_lt
    refine ⟨[_, _], rfl, ?_⟩
    simp only [List.forall_mem_cons]
    exact ⟨symbol_mem_alphabet _ (by omega), symbol_mem_alphabet _ (by omega),
      List.forall_mem_nil _⟩
  | case3 a b =>
    have ha := a.toNat_lt
    have hb := b.toNat_lt
    refine ⟨[_, _, _], rfl, ?_⟩
    simp only [List.forall_mem_cons]
    exact ⟨symbol_mem_alphabet _ (by omega), symbol_mem_alphabet _ (by omega),
      symbol_mem_alphabet _ (by omega), List.forall_mem_nil _⟩
  | case4 a b c rest ih =>
    have ha := a.toNat_lt
    have hb := b.toNat_lt
    have hc := c.toNat_lt
    obtain ⟨symbols, hrest, hsymbols⟩ := ih
    have hpad : padding (a :: b :: c :: rest).length = padding rest.length :=
      padding_add_three rest.length
    refine ⟨_ :: _ :: _ :: _ :: symbols, by rw [hpad, hrest]; rfl, ?_⟩
    simp only [List.forall_mem_cons]
    exact ⟨symbol_mem_alphabet _ (by omega), symbol_mem_alphabet _ (by omega),
      symbol_mem_alphabet _ (by omega), symbol_mem_alphabet _ (by omega), hsymbols⟩

theorem length_encode (b : Octets) : (encode b).length = 4 * (b.length ⌈/⌉ 3) := by
  rw [Nat.ceilDiv_eq_add_pred_div]
  fun_induction encode b with
  | case1 => rfl
  | case2 a => simp
  | case3 a b => simp
  | case4 a b c rest ih =>
    simp only [List.length_cons, ih]
    omega

end Base64

namespace Cipher.Aead

theorem length_of_protect {key nonce message sealed : Octets}
    (h : protect key nonce message = some sealed) : sealed.length = message.length + tagSize := by
  unfold protect at h
  split at h
  · cases h
  · cases h
    rw [List.length_append, ChaCha20.length_apply, length_tagOf]

end Cipher.Aead

namespace Envelope
open Cipher

/-- How an envelope of a payload under a secret and a nonce is laid out. -/
structure LaidOut (text secret : String) (payload nonce : Octets) : Prop where
  length : text.length = 4 * ((payload.length + 28) ⌈/⌉ 3)
  /-- Each character is one octet. -/
  size : (Utf8.octets text).length = text.length
  symbols : ∃ symbols, text.toList = symbols ++ Base64.padding (payload.length + 28) ∧
    ∀ c ∈ symbols, c ∈ Base64.alphabet
  decoded : ∃ body, body.length = payload.length + 16 ∧
    Base64.decode (Utf8.octets text) = .ok (nonce ++ body)
  only_pair : ∀ payload' nonce', nonce'.length = nonceSize →
    wrap payload' secret nonce' = .ok text → payload' = payload ∧ nonce' = nonce

/-- The nonce and the payload of an envelope can be told from it. -/
theorem wrap_inj {payload payload' nonce nonce' : Octets} {secret text : String}
    (h : wrap payload secret nonce = .ok text) (hn : nonce.length = nonceSize)
    (h' : wrap payload' secret nonce' = .ok text) (hn' : nonce'.length = nonceSize) :
    payload' = payload ∧ nonce' = nonce := by
  have hopens := unwrap_of_wrap h hn
  have hpayload : payload' = payload :=
    Except.ok.inj ((unwrap_of_wrap h' hn').symm.trans hopens)
  obtain ⟨-, sealed, -, htext⟩ := wrap_eq_ok_iff.mp h
  obtain ⟨-, sealed', -, htext'⟩ := wrap_eq_ok_iff.mp h'
  have hraw : nonce' ++ sealed' = nonce ++ sealed :=
    Except.ok.inj ((Base64.decode_octets_eq_ok_iff.mpr htext').symm.trans
      (Base64.decode_octets_eq_ok_iff.mpr htext))
  exact ⟨hpayload, (List.append_inj hraw (hn'.trans hn.symm)).1⟩

theorem laidOut_of_wrap {payload nonce : Octets} {secret text : String}
    (h : wrap payload secret nonce = .ok text) (hn : nonce.length = nonceSize) :
    LaidOut text secret payload nonce := by
  obtain ⟨-, sealed, hsealed, htext⟩ := wrap_eq_ok_iff.mp h
  have hbody : sealed.length = payload.length + 16 := Aead.length_of_protect hsealed
  have hraw : (nonce ++ sealed).length = payload.length + 28 := by
    rw [List.length_append, hn, hbody, nonceSize]
    omega
  have hchars : text.toList = Base64.encode (nonce ++ sealed) := by
    rw [htext, String.toList_ofList]
  have hlength : text.length = 4 * ((payload.length + 28) ⌈/⌉ 3) := by
    rw [← String.length_toList, hchars, Base64.length_encode, hraw]
  constructor
  case length => exact hlength
  case size =>
    have hwritten : Utf8.octets text = Base64.written (nonce ++ sealed) := by
      rw [Utf8.octets, hchars, Base64.written]
    rw [hwritten, Base64.length_written, hlength, hraw]
    rfl
  case symbols =>
    rw [hchars, ← hraw]
    exact Base64.encode_eq_symbols_append _
  case decoded => exact ⟨sealed, hbody, Base64.decode_octets_eq_ok_iff.mpr htext⟩
  case only_pair => exact fun payload' nonce' hn' h' => wrap_inj h hn h' hn'

/-- Every payload that is not too long has an envelope, and this is laid out as its length, its nonce
and the secret say. -/
theorem exists_wrap_laidOut (payload nonce : Octets) (secret : String)
    (hp : payload.length < 64 * 0xFFFFFFFF) (hs : secret ≠ "") (hn : nonce.length = nonceSize) :
    ∃ text, wrap payload secret nonce = .ok text ∧ LaidOut text secret payload nonce := by
  obtain ⟨text, hw⟩ := exists_wrap nonce hp hs
  exact ⟨text, hw, laidOut_of_wrap hw hn⟩

/-- Three octets, which leave two places of the last group to padding. -/
theorem exists_wrap_laidOut_abc :
    [97, 98, 99].length < 64 * 0xFFFFFFFF ∧ "secret" ≠ "" ∧
      (List.replicate 12 (9 : UInt8)).length = nonceSize ∧
      ∃ text, wrap [97, 98, 99] "secret" (List.replicate 12 9) = .ok text ∧
        LaidOut text "secret" [97, 98, 99] (List.replicate 12 9) :=
  ⟨by decide, by decide, by decide,
    exists_wrap_laidOut _ _ _ (by decide) (by decide) (by decide)⟩

end Envelope
end RowGate
