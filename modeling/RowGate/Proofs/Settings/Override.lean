import RowGate.Proofs.Digits
import RowGate.Proofs.Settings
import RowGate.Proofs.Text

/-! # Settings taken from variables

Variables are taken one after the other, and each of them bears on its own setting only. Where all
that are given can be read, every setting is the value of its variable, or is left as it was where
this is not given. The first that cannot be read stops the taking: what came before it is taken, and
its own setting and those behind it are as they were.
-/
namespace RowGate.Settings

/-- The text is that of a natural: digits, a plus sign before them or not, and blanks around. -/
def IsNatural (raw : String) (n : Nat) : Prop :=
  ∃ ds, (Text.trimmed raw.toList = ds ∨ Text.trimmed raw.toList = '+' :: ds) ∧ ds ≠ [] ∧
    (∀ c ∈ ds, '0' ≤ c ∧ c ≤ '9') ∧
    n = Nat.ofDigits 10 (ds.reverse.map fun c => c.toNat - '0'.toNat)

namespace Variable

abbrev Value : Variable → Type
  | .logLevel | .redisUrl => String
  | .operationTimeout | .connectTimeout => Word 64
  | .keyCost => Word 32
  | .sendDetails => Bool

def Reads : (v : Variable) → String → v.Value → Prop
  | .logLevel, raw, text | .redisUrl, raw, text => text = raw
  | .operationTimeout, raw, n | .connectTimeout, raw, n | .keyCost, raw, n => IsNatural raw n.val
  | .sendDetails, raw, b => Text.trim raw = if b then "true" else "false"

def read? : (v : Variable) → String → Option v.Value
  | .logLevel, raw | .redisUrl, raw => some raw
  | .operationTimeout, raw | .connectTimeout, raw => word? 64 raw
  | .keyCost, raw => word? 32 raw
  | .sendDetails, raw => flag? raw

end Variable

section Reading
variable {bits : Nat} {raw : String} {s : List Char} {n : Nat}

/-- The plus sign is no digit, so it is taken away or there is none. -/
theorem natural?_unsigned_eq_some_iff :
    Digits.natural? (match s with | '+' :: rest => rest | s => s) = some n ↔
      ∃ ds, (s = ds ∨ s = '+' :: ds) ∧ ds ≠ [] ∧ (∀ c ∈ ds, '0' ≤ c ∧ c ≤ '9') ∧
        n = Digits.read 0 ds := by
  have hplus : ¬ '0' ≤ '+' := by decide
  constructor
  · split
    · next rest => exact fun h => ⟨rest, .inr rfl, Digits.natural?_eq_some_iff.mp h⟩
    · exact fun h => ⟨s, .inl rfl, Digits.natural?_eq_some_iff.mp h⟩
  · rintro ⟨ds, rfl | rfl, hds⟩
    · split
      · exact absurd (hds.2.1 '+' List.mem_cons_self).1 hplus
      · exact Digits.natural?_eq_some_iff.mpr hds
    · exact Digits.natural?_eq_some_iff.mpr hds

theorem word?_eq_some_iff {w : Word bits} : word? bits raw = some w ↔ IsNatural raw w.val := by
  have hbound : word? bits raw = some w ↔
      Digits.natural? (match Text.trimmed raw.toList with | '+' :: rest => rest | s => s) =
        some w.val := by
    rw [word?]
    cases Digits.natural? (match Text.trimmed raw.toList with | '+' :: rest => rest | s => s) with
    | none => simp
    | some n =>
      by_cases hn : n < wordBound bits
      · simp [hn, Fin.ext_iff]
      · rw [Option.some_inj]
        exact ⟨fun h => by simp [hn] at h, fun h => absurd (h ▸ w.isLt) hn⟩
  rw [hbound, natural?_unsigned_eq_some_iff]
  simp only [IsNatural, Digits.read_eq_ofDigits]

theorem flag?_eq_some_iff {b : Bool} :
    flag? raw = some b ↔ Text.trim raw = if b then "true" else "false" := by
  have htext (t : String) : Text.trim raw = t ↔ Text.trimmed raw.toList = t.toList := by
    rw [Text.trim, ← String.toList_inj, String.toList_ofList]
  have hne : "true".toList ≠ "false".toList := by decide
  rw [htext, flag?]
  by_cases htrue : Text.trimmed raw.toList = "true".toList
  · rw [if_pos htrue, htrue, Option.some_inj]
    cases b with
    | true => exact iff_of_true rfl rfl
    | false => exact iff_of_false Bool.false_ne_true.symm hne
  · rw [if_neg htrue]
    by_cases hfalse : Text.trimmed raw.toList = "false".toList
    · rw [if_pos hfalse, hfalse, Option.some_inj]
      cases b with
      | true => exact iff_of_false Bool.false_ne_true hne.symm
      | false => exact iff_of_true rfl rfl
    · rw [if_neg hfalse]
      cases b with
      | true => exact iff_of_false (Option.some_ne_none true).symm htrue
      | false => exact iff_of_false (Option.some_ne_none false).symm hfalse

theorem read?_eq_some_iff {v : Variable} {a : v.Value} : v.read? raw = some a ↔ v.Reads raw a := by
  cases v with
  | logLevel | redisUrl => exact Option.some_inj.trans eq_comm
  | operationTimeout | connectTimeout | keyCost => exact word?_eq_some_iff
  | sendDetails => exact flag?_eq_some_iff

theorem read?_eq_none_iff {v : Variable} : v.read? raw = none ↔ ∀ a, ¬ v.Reads raw a := by
  simp only [← read?_eq_some_iff, Option.eq_none_iff_forall_ne_some, ne_eq]

end Reading

def get (s : Settings) : (v : Variable) → v.Value
  | .logLevel => s.logLevel
  | .redisUrl => s.redisUrl
  | .operationTimeout => s.operationTimeout
  | .connectTimeout => s.connectTimeout
  | .keyCost => s.keyCost
  | .sendDetails => s.sendDetails

def put (s : Settings) : (v : Variable) → v.Value → Settings
  | .logLevel, a => { s with logLevel := a }
  | .redisUrl, a => { s with redisUrl := a }
  | .operationTimeout, a => { s with operationTimeout := a }
  | .connectTimeout, a => { s with connectTimeout := a }
  | .keyCost, a => { s with keyCost := a }
  | .sendDetails, a => { s with sendDetails := a }

section Fields
variable {s s' : Settings} {v w : Variable}

theorem ext_get (h : ∀ v, s.get v = s'.get v) : s = s' := by
  cases s
  cases s'
  exact congr (congr (congr (congr (congr (congrArg Settings.mk (h .logLevel)) (h .redisUrl))
    (h .operationTimeout)) (h .connectTimeout)) (h .keyCost)) (h .sendDetails)

@[simp] theorem get_put (s : Settings) (v : Variable) (a : v.Value) : (s.put v a).get v = a := by
  cases v <;> rfl

theorem get_put_of_ne (h : w ≠ v) (a : v.Value) : (s.put v a).get w = s.get w := by
  cases v <;> cases w <;> first | rfl | exact absurd rfl h

theorem assign_eq (s : Settings) (v : Variable) (raw : String) :
    s.assign v raw = (v.read? raw).map (s.put v) := by
  cases v <;> rfl

end Fields

def Given (lookup : Lookup) (v : Variable) (raw : String) : Prop :=
  lookup v.name = some raw ∧ Text.trim raw ≠ ""

/-- What becomes of the setting of a variable: the value that is given, or else what it was. -/
def Settled (s : Settings) (lookup : Lookup) (v : Variable) (a : v.Value) : Prop :=
  ((∀ raw, ¬ Given lookup v raw) ∧ a = s.get v) ∨ ∃ raw, Given lookup v raw ∧ v.Reads raw a

section Taking
variable {s s' : Settings} {lookup : Lookup} {v : Variable} {vs : List Variable} {raw : String}

theorem present_eq_some_iff : present lookup v = some raw ↔ Given lookup v raw := by
  rw [present, Option.filter_eq_some_iff, Given, ne_eq, Text.trim_eq_empty_iff]
  simp

theorem present_eq_none_iff : present lookup v = none ↔ ∀ raw, ¬ Given lookup v raw := by
  simp only [← present_eq_some_iff, Option.eq_none_iff_forall_ne_some, ne_eq]

/-- One variable settles its own setting and leaves the others. -/
theorem take_settles : take lookup s v = some s' ↔
    Settled s lookup v (s'.get v) ∧ ∀ w ≠ v, s'.get w = s.get w := by
  rw [take]
  cases hv : present lookup v with
  | none =>
    have hnone := present_eq_none_iff.mp hv
    constructor
    · rintro ⟨⟩
      exact ⟨.inl ⟨hnone, rfl⟩, fun _ _ => rfl⟩
    · rintro ⟨⟨-, hsame⟩ | ⟨raw, hgiven, -⟩, hothers⟩
      · refine congrArg some (ext_get fun w => ?_)
        by_cases hw : w = v
        · rw [hw, hsame]
        · exact (hothers w hw).symm
      · exact absurd hgiven (hnone raw)
  | some raw =>
    have hgiven := present_eq_some_iff.mp hv
    change s.assign v raw = some s' ↔ _
    rw [assign_eq, Option.map_eq_some_iff]
    constructor
    · rintro ⟨a, ha, rfl⟩
      refine ⟨.inr ⟨raw, hgiven, ?_⟩, fun w hw => get_put_of_ne hw a⟩
      rw [get_put]
      exact read?_eq_some_iff.mp ha
    · rintro ⟨⟨hnone, -⟩ | ⟨raw', hgiven', hreads⟩, hothers⟩
      · exact absurd hgiven (hnone raw)
      · obtain rfl := Option.some.inj (hgiven'.1.symm.trans hgiven.1)
        refine ⟨s'.get v, read?_eq_some_iff.mpr hreads, ext_get fun w => ?_⟩
        by_cases hw : w = v
        · rw [hw, get_put]
        · rw [get_put_of_ne hw, hothers w hw]

theorem settled_congr {a : v.Value} (h : s.get v = s'.get v) :
    Settled s lookup v a ↔ Settled s' lookup v a := by
  rw [Settled, Settled, h]

/-- A run settles the settings of its variables and leaves the others. -/
theorem foldlM_take_settles (hvs : vs.Nodup) : vs.foldlM (take lookup) s = some s' ↔
    (∀ v ∈ vs, Settled s lookup v (s'.get v)) ∧ ∀ w ∉ vs, s'.get w = s.get w := by
  induction vs generalizing s with
  | nil =>
    rw [List.foldlM_nil]
    constructor
    · rintro ⟨⟩
      exact ⟨nofun, fun _ _ => rfl⟩
    · rintro ⟨-, hsame⟩
      exact congrArg some (ext_get fun w => (hsame w List.not_mem_nil).symm)
  | cons v vs ih =>
    obtain ⟨hv, hvs⟩ := List.nodup_cons.mp hvs
    simp only [List.foldlM_cons, Option.bind_eq_bind, Option.bind_eq_some_iff, take_settles, ih hvs]
    constructor
    · rintro ⟨s₁, ⟨hown, hothers⟩, hrest, hleft⟩
      -- No variable comes twice, so the rest of the run leaves the setting of the first as it is.
      refine ⟨fun w hw => ?_, fun w hw => ?_⟩
      · obtain rfl | hw := List.mem_cons.mp hw
        · rw [hleft w hv]
          exact hown
        · have hwv : w ≠ v := fun h => hv (h ▸ hw)
          exact (settled_congr (hothers w hwv)).mp (hrest w hw)
      · obtain ⟨hwv, hw⟩ := List.ne_and_not_mem_of_not_mem_cons hw
        rw [hleft w hw, hothers w hwv]
    · rintro ⟨hall, hleft⟩
      have hown := hall v List.mem_cons_self
      rw [← get_put s v (s'.get v)] at hown
      refine ⟨s.put v (s'.get v), ⟨hown, fun w hw => get_put_of_ne hw _⟩, fun w hw => ?_,
        fun w hw => ?_⟩
      · have hwv : w ≠ v := fun h => hv (h ▸ hw)
        exact (settled_congr (get_put_of_ne hwv _)).mpr (hall w (List.mem_cons_of_mem v hw))
      · by_cases hwv : w = v
        · rw [hwv, get_put]
        · rw [get_put_of_ne hwv, hleft w (List.not_mem_cons_of_ne_of_not_mem hwv hw)]

theorem take_eq_none_iff :
    take lookup s v = none ↔ ∃ raw, Given lookup v raw ∧ ∀ a, ¬ v.Reads raw a := by
  rw [take]
  cases hv : present lookup v with
  | none =>
    refine iff_of_false (Option.some_ne_none s) ?_
    rintro ⟨raw, hgiven, -⟩
    exact present_eq_none_iff.mp hv raw hgiven
  | some raw =>
    have hgiven := present_eq_some_iff.mp hv
    change s.assign v raw = none ↔ _
    rw [assign_eq, Option.map_eq_none_iff, read?_eq_none_iff]
    refine ⟨fun hbad => ⟨raw, hgiven, hbad⟩, ?_⟩
    rintro ⟨raw', hgiven', hbad⟩
    obtain rfl := Option.some.inj (hgiven'.1.symm.trans hgiven.1)
    exact hbad

theorem overrideWith_cons_of_take {s₁ : Settings} (h : take lookup s v = some s₁) :
    overrideWith lookup (v :: vs) s = overrideWith lookup vs s₁ := by
  rw [take] at h
  rw [overrideWith]
  cases hv : present lookup v with
  | none =>
    rw [hv] at h
    cases h
    rfl
  | some raw =>
    rw [hv] at h
    change s.assign v raw = some s₁ at h
    simp only [h]

theorem overrideWith_cons_of_unreadable (hgiven : Given lookup v raw)
    (hbad : ∀ a, ¬ v.Reads raw a) :
    overrideWith lookup (v :: vs) s = (s, .error (.unreadable v raw)) := by
  have hassign : s.assign v raw = none := by
    rw [assign_eq, read?_eq_none_iff.mpr hbad, Option.map_none]
  rw [overrideWith, present_eq_some_iff.mpr hgiven]
  simp only [hassign]

/-- Where a variable stops the run, those before it were taken and the settings are left so. -/
theorem overrideWith_eq_error_iff {f : Fault} : overrideWith lookup vs s = (s', .error f) ↔
    ∃ before v after raw, vs = before ++ v :: after ∧ before.foldlM (take lookup) s = some s' ∧
      Given lookup v raw ∧ (∀ a, ¬ v.Reads raw a) ∧ f = .unreadable v raw := by
  induction vs generalizing s with
  | nil =>
    refine ⟨nofun, ?_⟩
    rintro ⟨before, v, after, raw, h, -⟩
    exact absurd h.symm (List.append_ne_nil_of_right_ne_nil before (List.cons_ne_nil v after))
  | cons v vs ih =>
    cases htake : take lookup s v with
    | some s₁ =>
      rw [overrideWith_cons_of_take htake, ih]
      constructor
      · rintro ⟨before, w, after, raw, rfl, hbefore, hstop⟩
        refine ⟨v :: before, w, after, raw, rfl, ?_, hstop⟩
        rw [List.foldlM_cons, htake]
        exact hbefore
      · rintro ⟨_ | ⟨_, before⟩, w, after, raw, hvs, hbefore, hstop⟩
        · obtain ⟨rfl, -⟩ := List.cons.inj hvs
          rw [take_eq_none_iff.mpr ⟨raw, hstop.1, hstop.2.1⟩] at htake
          cases htake
        · obtain ⟨rfl, rfl⟩ := List.cons.inj hvs
          rw [List.foldlM_cons, htake] at hbefore
          exact ⟨before, w, after, raw, rfl, hbefore, hstop⟩
    | none =>
      obtain ⟨raw, hgiven, hbad⟩ := take_eq_none_iff.mp htake
      rw [overrideWith_cons_of_unreadable hgiven hbad]
      constructor
      · rintro ⟨⟩
        exact ⟨[], v, vs, raw, rfl, rfl, hgiven, hbad, rfl⟩
      · rintro ⟨_ | ⟨_, before⟩, w, after, raw', hvs, hbefore, hgiven', -, rfl⟩
        · obtain ⟨rfl, -⟩ := List.cons.inj hvs
          cases hbefore
          obtain rfl := Option.some.inj (hgiven'.1.symm.trans hgiven.1)
          rfl
        · obtain ⟨rfl, -⟩ := List.cons.inj hvs
          rw [List.foldlM_cons, htake] at hbefore
          cases hbefore

end Taking

theorem Variable.all_nodup : Variable.all.Nodup := by decide

theorem Variable.mem_all (v : Variable) : v ∈ Variable.all := by cases v <;> decide

/-- Where the variables are cut in two, each of them is on one side. -/
theorem split_nodup {before after : List Variable} {v : Variable}
    (hall : Variable.all = before ++ v :: after) :
    before.Nodup ∧ ∀ w, w ∈ v :: after ↔ w ∉ before := by
  obtain ⟨hbefore, -, hapart⟩ := List.nodup_append.mp (hall ▸ Variable.all_nodup)
  refine ⟨hbefore, fun w => ⟨fun hw hw' => hapart w hw' w hw rfl, fun hw => ?_⟩⟩
  exact (List.mem_append.mp (hall ▸ w.mem_all)).resolve_left hw

section Run
variable {s s' : Settings} {lookup : Lookup}

theorem override_eq_ok_iff_settled :
    s.override lookup = (s', .ok ()) ↔ ∀ v, Settled s lookup v (s'.get v) := by
  rw [override, overrideWith_eq_ok_iff, foldlM_take_settles Variable.all_nodup]
  exact ⟨fun h v => h.1 v v.mem_all, fun h => ⟨fun v _ => h v, fun v hv => absurd v.mem_all hv⟩⟩

/-- What a variable has settled, it settles again. -/
theorem Settled.again {v : Variable} (h : Settled s lookup v (s'.get v)) :
    Settled s' lookup v (s'.get v) := by
  obtain ⟨hnone, -⟩ | hgiven := h
  · exact .inl ⟨hnone, rfl⟩
  · exact .inr hgiven

end Run

/-- The variables that are given settle all settings, and there is nothing left to settle for them
in what this comes to; or else one of them cannot be read, all before it were, and neither its
setting nor any behind it was touched. -/
theorem override_settled (s s' : Settings) (lookup : Lookup) :
    (s.override lookup = (s', .ok ()) ↔ ∀ v, Settled s lookup v (s'.get v)) ∧
    (s.override lookup = (s', .ok ()) → s'.override lookup = (s', .ok ())) ∧
    ∀ f, s.override lookup = (s', .error f) ↔ ∃ before v after raw,
      Variable.all = before ++ v :: after ∧ Given lookup v raw ∧ (∀ a, ¬ v.Reads raw a) ∧
      f = .unreadable v raw ∧
      f.message = "Configuration error: " ++
        ("invalid value for " ++ v.name ++ ": " ++ Text.quoted raw) ∧
      (∀ w ∈ before, Settled s lookup w (s'.get w)) ∧ ∀ w ∈ v :: after, s'.get w = s.get w := by
  refine ⟨override_eq_ok_iff_settled, fun h => ?_, fun f => ?_⟩
  · exact override_eq_ok_iff_settled.mpr fun v => (override_eq_ok_iff_settled.mp h v).again
  · rw [override, overrideWith_eq_error_iff]
    constructor
    · rintro ⟨before, v, after, raw, hall, hbefore, hgiven, hbad, rfl⟩
      obtain ⟨hnodup, hapart⟩ := split_nodup hall
      obtain ⟨htaken, hleft⟩ := (foldlM_take_settles hnodup).mp hbefore
      exact ⟨before, v, after, raw, hall, hgiven, hbad, rfl, rfl, htaken,
        fun w hw => hleft w ((hapart w).mp hw)⟩
    · rintro ⟨before, v, after, raw, hall, hgiven, hbad, rfl, -, htaken, hleft⟩
      obtain ⟨hnodup, hapart⟩ := split_nodup hall
      exact ⟨before, v, after, raw, hall, (foldlM_take_settles hnodup).mpr
        ⟨htaken, fun w hw => hleft w ((hapart w).mpr hw)⟩, hgiven, hbad, rfl⟩

def sampleTaken : Settings :=
  { standard with logLevel := "warn", connectTimeout := sampleSettings.connectTimeout }

def sampleExcess : Lookup
  | "PG2JSON_SESSION_KEY_COST" => some "4294967296"
  | name => sampleLookup name

theorem override_settled_sample :
    standard.override sampleLookup = (sampleTaken, .ok ()) ∧
    (∀ v, Settled standard sampleLookup v (sampleTaken.get v)) ∧
    sampleTaken.override sampleLookup = (sampleTaken, .ok ()) ∧
    standard.override sampleExcess = (sampleTaken, .error (.unreadable .keyCost "4294967296")) ∧
    ∃ before v after raw, Variable.all = before ++ v :: after ∧ Given sampleExcess v raw ∧
      (∀ a, ¬ v.Reads raw a) ∧ Fault.unreadable .keyCost "4294967296" = .unreadable v raw ∧
      (∀ w ∈ before, Settled standard sampleExcess w (sampleTaken.get w)) ∧
      ∀ w ∈ v :: after, sampleTaken.get w = standard.get w := by
  have htaken : standard.override sampleLookup = (sampleTaken, .ok ()) := by decide +kernel
  have hstopped : standard.override sampleExcess =
      (sampleTaken, .error (.unreadable .keyCost "4294967296")) := by decide +kernel
  obtain ⟨hsettled, hagain, -⟩ := override_settled standard sampleTaken sampleLookup
  obtain ⟨before, v, after, raw, hall, hgiven, hbad, heq, -, hbefore, hafter⟩ :=
    ((override_settled standard sampleTaken sampleExcess).2.2 _).mp hstopped
  exact ⟨htaken, hsettled.mp htaken, hagain htaken, hstopped, before, v, after, raw, hall, hgiven,
    hbad, heq, hbefore, hafter⟩

end RowGate.Settings
