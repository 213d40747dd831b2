import RowGate.Proofs.Text
import RowGate.Rejection

/-! # Failures are recognised by their words

A failure on the way to the server is recognised by the words of any message of its chain, whatever
their case, and never by words that come about where two messages meet. What a capital sigma becomes
in lower case depends on the characters around it, and so on the whole chain; but no word that is
looked for has a sigma. With a state code, nothing but the server's answer counts.
-/
namespace RowGate

namespace Text

def plainSigma (c : Char) : Char := if c = finalSigma then sigma else c

def plainLower (s : List Char) : List Char := s.flatMap fun c => (lowerChar c).map plainSigma

theorem plainLower_cons (c : Char) (s : List Char) :
    plainLower (c :: s) = (lowerChar c).map plainSigma ++ plainLower s := List.flatMap_cons ..

theorem plainLower_append (s t : List Char) : plainLower (s ++ t) = plainLower s ++ plainLower t :=
  List.flatMap_append

theorem lowerFrom_map (before s : List Char) :
    (lowerFrom before s).map plainSigma = plainLower s := by
  induction s generalizing before with
  | nil => rfl
  | cons c s ih =>
    rw [lowerFrom, List.map_append, ih, plainLower_cons]
    congr 1
    split
    · next hc =>
      have hsigma : (lowerChar capitalSigma).map plainSigma = [sigma] := by decide
      rw [hc, hsigma]
      split <;> rfl
    · rfl

/-- Words without a sigma do not tell its forms apart. -/
theorem infix_lower_iff {words s : List Char} (hsigma : sigma ∉ words)
    (hfinal : finalSigma ∉ words) : words <:+: lower s ↔ words <:+: plainLower s := by
  rw [← lowerFrom_map [] s]
  refine (infix_map_iff fun c hc d => ?_).symm
  rw [plainSigma]
  split
  · next hd =>
    constructor
    · rintro rfl
      exact absurd hc hsigma
    · rintro rfl
      exact absurd (hd ▸ hc) hfinal
  · rfl

theorem lowerChar_toLower (c : Char) : lowerChar c.toLower = lowerChar c := by
  by_cases hc : 65 ≤ c.toNat ∧ c.toNat ≤ 90
  · have table : ∀ k < 26,
        lowerChar (Char.ofNat (65 + k)).toLower = lowerChar (Char.ofNat (65 + k)) := by
      decide
    have hletter := table (c.toNat - 65) (by omega)
    rwa [Nat.add_sub_cancel' hc.1, Char.ofNat_toNat] at hletter
  · have hrange (h : 'A'.val ≤ c.val ∧ c.val ≤ 'Z'.val) : 65 ≤ c.toNat ∧ c.toNat ≤ 90 := by
      rw [UInt32.le_iff_toNat_le, UInt32.le_iff_toNat_le] at h
      exact h
    have hself : c.toLower = c := dif_neg (mt hrange hc)
    rw [hself]

/-- Capitals of the Latin alphabet count as the letters that they are. -/
theorem plainLower_lowerAscii (s : List Char) : plainLower (lowerAscii s) = plainLower s := by
  rw [plainLower, lowerAscii, List.flatMap_map]
  simp only [lowerChar_toLower]
  rfl

end Text

namespace Rejection
open Text

/-- Words that stand in lower case as they are, and not in what joins two messages. -/
structure Marking (words : List Char) : Prop where
  letters : ∀ c ∈ words, c ≠ sigma ∧ c ≠ finalSigma ∧ c ≠ ':'
  start : ∃ c ∈ words.head?, c ≠ ' '

theorem marking_of_mem : ∀ words ∈ refusedMarker :: unknownHostMarkers, Marking words := by
  have letters : ∀ words ∈ refusedMarker :: unknownHostMarkers,
      words.all (fun c => c ≠ sigma ∧ c ≠ finalSigma ∧ c ≠ ':') = true := by decide
  have start : ∀ words ∈ refusedMarker :: unknownHostMarkers,
      words.head?.any (· ≠ ' ') = true := by decide
  intro words hwords
  obtain ⟨c, hc, hne⟩ := (Option.any_eq_true _ _).mp (start words hwords)
  exact ⟨fun c hc => of_decide_eq_true (List.all_eq_true.mp (letters words hwords) c hc),
    c, hc, of_decide_eq_true hne⟩

def Mentions (words : List Char) (links : List String) : Prop :=
  ∃ link ∈ links, words <:+: lower link.toList

theorem mentions_cons {words : List Char} {link : String} {links : List String} :
    Mentions words (link :: links) ↔ words <:+: lower link.toList ∨ Mentions words links := by
  simp [Mentions]

theorem mentions_singleton {words : List Char} {link : String} :
    Mentions words [link] ↔ words <:+: lower link.toList := by
  simp [Mentions]

theorem Mentions.mono {words : List Char} {links links' : List String} (h : Mentions words links)
    (hlinks : links ⊆ links') : Mentions words links' :=
  h.imp fun _ hlink => ⟨hlinks hlink.1, hlink.2⟩

namespace Marking
variable {words : List Char} (h : Marking words)
include h

theorem not_prefix_of_head {c : Char} {s : List Char} (hc : c = ' ') : ¬ words <+: c :: s := by
  obtain ⟨d, hd, hne⟩ := h.start
  intro hprefix
  rcases List.prefix_cons_iff.mp hprefix with rfl | ⟨t, rfl, -⟩
  · cases hd
  · cases hd
    exact hne hc

theorem infix_lower_iff (s : List Char) : words <:+: lower s ↔ words <:+: plainLower s :=
  Text.infix_lower_iff (fun hmem => (h.letters _ hmem).1 rfl) fun hmem => (h.letters _ hmem).2.1 rfl

/-- What joins two messages keeps the words of each apart. -/
theorem infix_joined_iff (a b : List Char) :
    words <:+: lower (a ++ ':' :: ' ' :: b) ↔ words <:+: lower a ∨ words <:+: lower b := by
  have hjoint : plainLower (a ++ ':' :: ' ' :: b) = plainLower a ++ ':' :: ' ' :: plainLower b := by
    have hcolon : (lowerChar ':').map plainSigma = [':'] := by decide
    have hblank : (lowerChar ' ').map plainSigma = [' '] := by decide
    rw [plainLower_append, plainLower_cons, plainLower_cons, hcolon, hblank]
    rfl
  have hstart : words <:+: ' ' :: plainLower b ↔ words <:+: plainLower b := by
    rw [List.infix_cons_iff]
    exact or_iff_right (h.not_prefix_of_head rfl)
  rw [h.infix_lower_iff, h.infix_lower_iff, h.infix_lower_iff, hjoint,
    infix_append_cons_iff fun hmem => (h.letters _ hmem).2.2 rfl, hstart]

theorem infix_chain_iff (links : List String) :
    words <:+: lower (chainMessage links).toList ↔ Mentions words links := by
  induction links with
  | nil =>
    obtain ⟨c, hc, -⟩ := h.start
    have hnil : ¬ words <:+: [] := by
      rw [List.infix_nil]
      rintro rfl
      cases hc
    exact iff_of_false hnil fun ⟨_, hmem, _⟩ => List.not_mem_nil hmem
  | cons link links ih =>
    rw [mentions_cons]
    cases links with
    | nil =>
      have hnone : ¬ Mentions words [] := fun ⟨_, hmem, _⟩ => List.not_mem_nil hmem
      rw [chainMessage, String.intercalate_singleton]
      exact (or_iff_left hnone).symm
    | cons next links =>
      have hchain : (chainMessage (link :: next :: links)).toList =
          link.toList ++ ':' :: ' ' :: (chainMessage (next :: links)).toList := by
        rw [chainMessage, String.intercalate_cons_cons, String.toList_append, String.toList_append,
          List.append_assoc]
        rfl
      rw [hchain, h.infix_joined_iff, ih]

end Marking

def HostUnknown (links : List String) : Prop :=
  ∃ words ∈ ["no such host".toList, "name or service not known".toList,
    "nodename nor servname provided".toList, "no address associated with hostname".toList,
    "no such host is known".toList], Mentions words links

def PortRefused (kind : Option NetworkKind) (links : List String) : Prop :=
  kind = some .refused ∨ Mentions "connection refused".toList links

inductive ByNetwork (kind : Option NetworkKind) (links : List String) : Rejection → Prop where
  | host (h : HostUnknown links) : ByNetwork kind links .invalidHost
  | port (hhost : ¬ HostUnknown links) (h : PortRefused kind links) :
      ByNetwork kind links .invalidPort

/-- What a failure at the server is, by its state code, and by its message for one of the codes. -/
inductive ByServer (state message : String) : Rejection → Prop where
  | database (h : state = "3D000") : ByServer state message .unknownDatabase
  | entry (h : state = "28000")
      (hentry : "no pg_hba.conf entry for host".toList <:+: message.toList) :
      ByServer state message .noAccess
  | user (h : state = "28000")
      (hentry : ¬ "no pg_hba.conf entry for host".toList <:+: message.toList) :
      ByServer state message .invalidUser

section Network
variable {kind : Option NetworkKind} {links links' : List String} {message message' : String}
  {why : Rejection}

theorem ofNetwork_chain_iff :
    ofNetwork kind (chainMessage links) = some why ↔ ByNetwork kind links why := by
  have hmarked : ∀ words ∈ refusedMarker :: unknownHostMarkers,
      (occursIn words (lower (chainMessage links).toList) = true ↔ Mentions words links) :=
    fun words hwords => occursIn_iff.trans ((marking_of_mem words hwords).infix_chain_iff links)
  have hhost : unknownHostMarkers.any (occursIn · (lower (chainMessage links).toList)) = true ↔
      HostUnknown links := by
    rw [List.any_eq_true]
    exact exists_congr fun words => and_congr_right fun hwords =>
      hmarked words (List.mem_cons_of_mem _ hwords)
  have hport : (kind = some .refused ∨
      occursIn refusedMarker (lower (chainMessage links).toList) = true) ↔ PortRefused kind links :=
    or_congr_right (hmarked refusedMarker List.mem_cons_self)
  rw [ofNetwork]
  by_cases h : HostUnknown links
  · rw [if_pos (hhost.mpr h)]
    constructor
    · rintro ⟨⟩
      exact .host h
    · rintro (_ | hnot)
      · rfl
      · exact absurd h hnot
  · rw [if_neg (mt hhost.mp h)]
    by_cases hp : PortRefused kind links
    · rw [if_pos (hport.mpr hp)]
      constructor
      · rintro ⟨⟩
        exact .port h hp
      · rintro (hhost | _)
        · exact absurd hhost h
        · rfl
    · rw [if_neg (mt hport.mp hp)]
      constructor
      · rintro ⟨⟩
      · rintro (hhost | ⟨-, hport⟩)
        · exact absurd hhost h
        · exact absurd hport hp

theorem ByNetwork.mono (h : ByNetwork kind links why) (hlinks : links ⊆ links') :
    ByNetwork kind links' why ∨ ByNetwork kind links' .invalidHost := by
  have hgrown {words : List Char} (hm : Mentions words links) : Mentions words links' :=
    hm.mono hlinks
  cases h with
  | host h => exact .inl (.host (h.imp fun _ => And.imp_right hgrown))
  | port _ h =>
    by_cases hhost : HostUnknown links'
    · exact .inr (.host hhost)
    · exact .inl (.port hhost (h.imp_right hgrown))

/-- The case of Latin letters does not matter. -/
theorem ByNetwork.recased (hcase : lowerAscii message.toList = lowerAscii message'.toList)
    (h : ByNetwork kind [message] why) : ByNetwork kind [message'] why := by
  have hmention : ∀ words ∈ refusedMarker :: unknownHostMarkers,
      (Mentions words [message] ↔ Mentions words [message']) := by
    intro words hwords
    have hmarking := marking_of_mem words hwords
    rw [mentions_singleton, mentions_singleton, hmarking.infix_lower_iff,
      hmarking.infix_lower_iff, ← plainLower_lowerAscii, hcase, plainLower_lowerAscii]
  have hhost : HostUnknown [message] ↔ HostUnknown [message'] :=
    exists_congr fun words => and_congr_right fun hwords =>
      hmention words (List.mem_cons_of_mem _ hwords)
  have hport : PortRefused kind [message] ↔ PortRefused kind [message'] :=
    or_congr_right (hmention refusedMarker List.mem_cons_self)
  cases h with
  | host h => exact .host (hhost.mp h)
  | port hnot h => exact .port (mt hhost.mpr hnot) (hport.mp h)

theorem ofNetwork_recased (hcase : lowerAscii message.toList = lowerAscii message'.toList) :
    ofNetwork kind message = ofNetwork kind message' := by
  have hsingle (m : String) : m = chainMessage [m] := String.intercalate_singleton.symm
  rw [hsingle message, hsingle message']
  refine Option.ext fun why => ?_
  rw [ofNetwork_chain_iff, ofNetwork_chain_iff]
  exact ⟨.recased hcase, .recased hcase.symm⟩

end Network

theorem ofServer_iff {state message : String} {why : Rejection} :
    ofServer state message = some why ↔ ByServer state message why := by
  rw [ofServer, unknownDatabaseState, invalidAuthorizationState]
  split
  · next hstate =>
    constructor
    · rintro ⟨⟩
      exact .database hstate
    · rintro (_ | ⟨h, -⟩ | ⟨h, -⟩)
      · rfl
      · exact absurd (hstate.symm.trans h) (by decide)
      · exact absurd (hstate.symm.trans h) (by decide)
  split
  · next hne hstate =>
    split
    · next hentry =>
      rw [occursIn_iff] at hentry
      constructor
      · rintro ⟨⟩
        exact .entry hstate hentry
      · rintro (h | _ | ⟨-, hnot⟩)
        · exact absurd h hne
        · rfl
        · exact absurd hentry hnot
    · next hentry =>
      rw [occursIn_iff] at hentry
      constructor
      · rintro ⟨⟩
        exact .user hstate hentry
      · rintro (h | ⟨-, h⟩ | _)
        · exact absurd h hne
        · exact absurd h hentry
        · rfl
  · next hne hne' =>
    constructor
    · rintro ⟨⟩
    · rintro (h | ⟨h, -⟩ | ⟨h, -⟩)
      · exact absurd h hne
      · exact absurd h hne'
      · exact absurd h hne'

/-- A failure on the way to the server is recognised by the words of the messages of its chain, each
for itself, an unknown host before a refusal. So it stays recognised in whatever chain it stands,
and with its letters in whatever case. Where the server gave a state code, this alone counts, but
for one code the message as it was given; no kind of a network error has a part in it. -/
theorem recognised_by_words :
    (∀ kind links why,
      ofFailure (.network kind (chainMessage links)) = some why ↔ ByNetwork kind links why) ∧
    (∀ kind links links' why, links ⊆ links' →
      ofFailure (.network kind (chainMessage links)) = some why →
      ofFailure (.network kind (chainMessage links')) = some why ∨
        ofFailure (.network kind (chainMessage links')) = some .invalidHost) ∧
    (∀ kind message message', lowerAscii message.toList = lowerAscii message'.toList →
      ofFailure (.network kind message) = ofFailure (.network kind message')) ∧
    ∀ state message kind why,
      ofFailure ⟨some state, message, kind⟩ = some why ↔ ByServer state message why := by
  have hchain : ∀ kind links why,
      ofFailure (.network kind (chainMessage links)) = some why ↔ ByNetwork kind links why :=
    fun _ _ _ => ofNetwork_chain_iff
  refine ⟨hchain, ?_, fun _ _ _ hcase => ofNetwork_recased hcase, fun _ _ _ _ => ofServer_iff⟩
  intro kind links links' why hlinks h
  rw [hchain] at h ⊢
  rw [hchain]
  exact h.mono hlinks

theorem recognised_by_words_sample :
    let links := ["tcp connect error", "ΟΔΟΣ: Connection REFUSED"]
    let links' := ["No Such Host", "tcp connect error", "ΟΔΟΣ: Connection REFUSED", "os error 111"]
    links ⊆ links' ∧
    ofFailure (.network none (chainMessage links)) = some .invalidPort ∧
    (ofFailure (.network none (chainMessage links')) = some .invalidPort ∨
      ofFailure (.network none (chainMessage links')) = some .invalidHost) ∧
    ofFailure (.network none (chainMessage links')) = some .invalidHost ∧
    lowerAscii "ΟΔΟΣ: Connection REFUSED".toList = lowerAscii "ΟΔΟΣ: cONNECTION refused".toList ∧
    ofFailure (.network none "ΟΔΟΣ: Connection REFUSED") =
      ofFailure (.network none "ΟΔΟΣ: cONNECTION refused") ∧
    ofFailure ⟨some "28000", "no pg_hba.conf entry for host \"::1\"", some .refused⟩ =
      some .noAccess ∧
    ofFailure ⟨some "28000", "No pg_hba.conf entry for host", some .refused⟩ =
      some .invalidUser := by
  intro links links'
  obtain ⟨hchain, hwrap, hcase, hserver⟩ := recognised_by_words
  have hlinks : links ⊆ links' := by simp [links, links']
  have hnoHost : ¬ HostUnknown links := by
    unfold HostUnknown Mentions
    decide +kernel
  have hhost : HostUnknown links' :=
    ⟨_, List.mem_cons_self, _, List.mem_cons_self, by decide +kernel⟩
  have hport : PortRefused none links :=
    .inr ⟨_, List.mem_cons_of_mem _ List.mem_cons_self, by decide +kernel⟩
  have hknown := (hchain none links _).mpr (.port hnoHost hport)
  have hletters : lowerAscii "ΟΔΟΣ: Connection REFUSED".toList =
      lowerAscii "ΟΔΟΣ: cONNECTION refused".toList := by decide +kernel
  exact ⟨hlinks, hknown, hwrap none links links' _ hlinks hknown,
    (hchain none _ _).mpr (.host hhost), hletters, hcase none _ _ hletters,
    (hserver _ _ _ _).mpr (.entry rfl (by decide +kernel)),
    (hserver _ _ _ _).mpr (.user rfl (by decide +kernel))⟩

end Rejection
end RowGate
