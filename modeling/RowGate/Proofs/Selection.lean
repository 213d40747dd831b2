import RowGate.Proofs.Digits
import RowGate.Proofs.Text
import RowGate.Selection

/-! # Statements tell their selections apart

Nothing in a statement is quoted, but names of letters, digits and underscores end where anything
else begins, and a limit is what stands behind the last blank. So a statement is made of one
selection only, up to an empty predicate and a limit of zero, which ask for nothing.
-/
namespace RowGate.Selection
open RowGate.Text

def isNameChar (c : Char) : Bool := c.isAlphanum || c == '_'

def IsName (s : String) : Prop := s ≠ "" ∧ ∀ c ∈ s.toList, isNameChar c = true

theorem isName_iff {s : String} : IsName s ↔ s ≠ "" ∧ s.toList.all isNameChar = true := by
  rw [IsName, List.all_eq_true]

/-- Tables and columns have names, and the predicate does not itself set a limit. -/
structure Plain (s : Selection) : Prop where
  table : IsName s.table
  columns : ∀ c ∈ s.columns, IsName c
  predicate : ∀ p ∈ s.predicate, ¬ " LIMIT ".toList <:+: p.toList

def condition (s : Selection) : String := s.predicate.getD ""

def bound (s : Selection) : Nat := s.limit.elim 0 Fin.val

structure Same (a b : Selection) : Prop where
  table : a.table = b.table
  columns : a.columns = b.columns
  condition : a.condition = b.condition
  bound : a.bound = b.bound

def whereClause (p : List Char) : List Char := if p = [] then [] else " WHERE ".toList ++ p

def limitClause (n : Nat) : List Char := if n = 0 then [] else " LIMIT ".toList ++ Digits.write n

theorem statement_eq (s : Selection) : s.statement =
    head s.table.toList (s.columns.map String.toList) ++
      (whereClause s.condition.toList ++ limitClause s.bound) := by
  rw [statement, List.append_assoc]
  refine congrArg (head _ _ ++ ·) (congrArg₂ (· ++ ·) ?_ ?_)
  · rw [condition]
    cases s.predicate with
    | none => rfl
    | some p => exact if_congr (String.isEmpty_iff.trans String.toList_eq_nil_iff.symm) rfl rfl
  · rw [bound]
    cases s.limit <;> rfl

section Names
variable {c : Char} {cs cs' : List (List Char)} {n n' rest rest' : List Char}

def Name (n : List Char) : Prop := ∀ c ∈ n, isNameChar c = true

def EndsName (rest : List Char) : Prop := ∀ c ∈ rest.head?, isNameChar c = false

theorem Name.unique (hn : Name n) (hn' : Name n') (hrest : EndsName rest) (hrest' : EndsName rest')
    (h : n ++ rest = n' ++ rest') : n = n' ∧ rest = rest' :=
  append_unique hn hn' hrest hrest' h

theorem endsName_cons (h : isNameChar c = false) : EndsName (c :: rest) := by
  rintro _ ⟨⟩
  exact h

theorem columnPair_append (n rest : List Char) :
    columnPair n ++ rest = '\'' :: (n ++ '\'' :: ',' :: ' ' :: (n ++ rest)) := by
  simp [columnPair]

/-- A column is told by the first time that it is named. -/
theorem columnPair_unique (hn : Name n) (hn' : Name n')
    (h : columnPair n ++ rest = columnPair n' ++ rest') : n = n' ∧ rest = rest' := by
  rw [columnPair_append, columnPair_append] at h
  have hquote : isNameChar '\'' = false := by decide
  obtain ⟨rfl, hbehind⟩ := hn.unique hn' (endsName_cons hquote) (endsName_cons hquote)
    (List.cons.inj h).2
  exact ⟨rfl, by simpa using hbehind⟩

/-- Pairs are told apart, with what stands behind them, by the bracket that closes them. -/
theorem pairs_unique (hcs : ∀ n ∈ cs, Name n) (hcs' : ∀ n ∈ cs', Name n) (hne : cs ≠ [])
    (hne' : cs' ≠ [])
    (h : separated [',', ' '] (cs.map columnPair) ++ ')' :: rest =
      separated [',', ' '] (cs'.map columnPair) ++ ')' :: rest') : cs = cs' ∧ rest = rest' := by
  -- Behind a pair there stands the bracket or a comma, for one list as for the other.
  induction cs generalizing cs' with
  | nil => exact absurd rfl hne
  | cons n cs ih =>
    obtain ⟨n', cs', rfl⟩ := List.exists_cons_of_ne_nil hne'
    have hn := hcs n List.mem_cons_self
    have hn' := hcs' n' List.mem_cons_self
    cases cs with
    | nil =>
      cases cs' with
      | nil =>
        obtain ⟨rfl, hrest⟩ := columnPair_unique hn hn' h
        exact ⟨rfl, (List.cons.inj hrest).2⟩
      | cons m' cs' =>
        simp only [List.map_cons, List.map_nil, separated, List.append_assoc] at h
        obtain ⟨-, hrest⟩ := columnPair_unique hn hn' h
        cases hrest
    | cons m cs =>
      cases cs' with
      | nil =>
        simp only [List.map_cons, List.map_nil, separated, List.append_assoc] at h
        obtain ⟨-, hrest⟩ := columnPair_unique hn hn' h
        cases hrest
      | cons m' cs' =>
        simp only [List.map_cons, separated, List.append_assoc] at h
        obtain ⟨rfl, hrest⟩ := columnPair_unique hn hn' h
        obtain ⟨htail, hrest⟩ := ih (fun c hc => hcs c (List.mem_cons_of_mem _ hc))
          (fun c hc => hcs' c (List.mem_cons_of_mem _ hc)) (List.cons_ne_nil m cs)
          (List.cons_ne_nil m' cs') (List.append_cancel_left hrest)
        exact ⟨congrArg (n :: ·) htail, hrest⟩

end Names

section Head
variable {t t' rest rest' : List Char} {cs cs' : List (List Char)}

theorem head_nil_append (t rest : List Char) : head t [] ++ rest =
    "SELECT ".toList ++ 't' :: ("o_jsonb(".toList ++
      (t ++ ')' :: (" FROM ".toList ++ (t ++ rest)))) := by
  have hhead : head t [] = "SELECT to_jsonb(".toList ++ t ++ ") FROM ".toList ++ t := rfl
  have hshape : "SELECT to_jsonb(".toList = "SELECT ".toList ++ 't' :: "o_jsonb(".toList := rfl
  have hfrom : ") FROM ".toList = ')' :: " FROM ".toList := rfl
  simp only [hhead, hshape, hfrom, List.append_assoc, List.cons_append]

theorem head_cons_append (t : List Char) (hcs : cs ≠ []) (rest : List Char) : head t cs ++ rest =
    "SELECT ".toList ++ 'j' :: ("sonb_agg(jsonb_build_object(".toList ++
      (separated [',', ' '] (cs.map columnPair) ++ ')' :: (") FROM ".toList ++ (t ++ rest)))) := by
  have hhead : head t cs = "SELECT jsonb_agg(jsonb_build_object(".toList ++
      separated [',', ' '] (cs.map columnPair) ++ ")) FROM ".toList ++ t := by
    cases cs with
    | nil => exact absurd rfl hcs
    | cons n cs => rfl
  have hshape : "SELECT jsonb_agg(jsonb_build_object(".toList =
      "SELECT ".toList ++ 'j' :: "sonb_agg(jsonb_build_object(".toList := rfl
  have hfrom : ")) FROM ".toList = ')' :: ") FROM ".toList := rfl
  simp only [hhead, hshape, hfrom, List.append_assoc, List.cons_append]

/-- The table and the columns are told by the first part of a statement, whatever follows. -/
theorem head_unique (ht : Name t) (ht' : Name t') (hcs : ∀ n ∈ cs, Name n)
    (hcs' : ∀ n ∈ cs', Name n) (hrest : EndsName rest) (hrest' : EndsName rest')
    (h : head t cs ++ rest = head t' cs' ++ rest') : t = t' ∧ cs = cs' ∧ rest = rest' := by
  have hshapes : ¬ 't' = 'j' := by decide
  by_cases hnil : cs = []
  · by_cases hnil' : cs' = []
    · rw [hnil, hnil', head_nil_append, head_nil_append] at h
      have hbracket : isNameChar ')' = false := by decide
      obtain ⟨rfl, hfrom⟩ := ht.unique ht' (endsName_cons hbracket) (endsName_cons hbracket)
        (List.append_cancel_left (List.cons.inj (List.append_cancel_left h)).2)
      exact ⟨rfl, hnil.trans hnil'.symm,
        List.append_cancel_left (List.append_cancel_left (List.cons.inj hfrom).2)⟩
    · rw [hnil, head_nil_append, head_cons_append t' hnil'] at h
      exact absurd (List.cons.inj (List.append_cancel_left h)).1 hshapes
  · by_cases hnil' : cs' = []
    · rw [hnil', head_nil_append, head_cons_append t hnil] at h
      exact absurd (List.cons.inj (List.append_cancel_left h)).1.symm hshapes
    · rw [head_cons_append t hnil, head_cons_append t' hnil'] at h
      obtain ⟨hcolumns, hfrom⟩ := pairs_unique hcs hcs' hnil hnil'
        (List.append_cancel_left (List.cons.inj (List.append_cancel_left h)).2)
      obtain ⟨htable, hrest⟩ := ht.unique ht' hrest hrest' (List.append_cancel_left hfrom)
      exact ⟨htable, hcolumns, hrest⟩

end Head

section Clauses
variable {p p' rest : List Char} {n n' : Nat}

theorem whereClause_append (hp : p ≠ []) (rest : List Char) :
    whereClause p ++ rest = ' ' :: 'W' :: ("HERE ".toList ++ (p ++ rest)) := by
  have hshape : " WHERE ".toList = ' ' :: 'W' :: "HERE ".toList := rfl
  rw [whereClause, if_neg hp, hshape, List.append_assoc]
  rfl

theorem limitClause_of_ne_zero (hn : n ≠ 0) :
    limitClause n = ' ' :: 'L' :: ("IMIT ".toList ++ Digits.write n) := by
  rw [limitClause, if_neg hn]
  rfl

theorem limitClause_ne (n : Nat) : limitClause n ≠ ' ' :: 'W' :: rest := by
  have hletters : ¬ 'L' = 'W' := by decide
  intro h
  by_cases hn : n = 0
  · rw [hn] at h
    cases h
  · rw [limitClause_of_ne_zero hn] at h
    exact hletters (List.cons.inj (List.cons.inj h).2).1

/-- A limit is what stands behind the last blank. -/
theorem limited_unique (hp : ¬ " LIMIT ".toList <:+: p) (hp' : ¬ " LIMIT ".toList <:+: p')
    (h : p ++ limitClause n = p' ++ limitClause n') : p = p' ∧ n = n' := by
  have hnone : limitClause 0 = [] := rfl
  have hinside {q : List Char} {m : Nat} (hm : m ≠ 0) : " LIMIT ".toList <:+: q ++ limitClause m :=
    ⟨q, Digits.write m, by rw [limitClause, if_neg hm, List.append_assoc]⟩
  by_cases hn : n = 0
  · rw [hn, hnone, List.append_nil] at h
    by_cases hn' : n' = 0
    · rw [hn', hnone, List.append_nil] at h
      exact ⟨h, hn.trans hn'.symm⟩
    · exact absurd (h ▸ hinside hn') hp
  · by_cases hn' : n' = 0
    · rw [hn', hnone, List.append_nil] at h
      exact absurd (h ▸ hinside hn) hp'
    · have hlast (q : List Char) :
          ∀ c ∈ (q ++ " LIMIT ".toList).getLast?, Digits.isDigit c = false := by
        have hblank : " LIMIT ".toList.getLast? = some ' ' := rfl
        rw [List.getLast?_append, hblank]
        rintro _ ⟨⟩
        decide
      rw [limitClause, limitClause, if_neg hn, if_neg hn', ← List.append_assoc,
        ← List.append_assoc] at h
      obtain ⟨hfront, hdigits⟩ := append_unique_of_last (hlast p) (hlast p')
        (Digits.isDigit_write n) (Digits.isDigit_write n') h
      have hread := congrArg (Digits.read 0) hdigits
      rw [Digits.read_write, Digits.read_write] at hread
      exact ⟨List.append_cancel_right hfront, hread⟩

theorem clauses_unique (hp : ¬ " LIMIT ".toList <:+: p) (hp' : ¬ " LIMIT ".toList <:+: p')
    (h : whereClause p ++ limitClause n = whereClause p' ++ limitClause n') : p = p' ∧ n = n' := by
  have hnone : whereClause [] = [] := rfl
  by_cases hnil : p = []
  · by_cases hnil' : p' = []
    · rw [hnil, hnil'] at h
      exact limited_unique hp hp' (by rwa [hnil, hnil'])
    · rw [hnil, whereClause_append hnil'] at h
      exact absurd h (limitClause_ne n)
  · by_cases hnil' : p' = []
    · rw [hnil', whereClause_append hnil] at h
      exact absurd h.symm (limitClause_ne n')
    · rw [whereClause_append hnil, whereClause_append hnil'] at h
      exact limited_unique hp hp'
        (List.append_cancel_left (List.cons.inj (List.cons.inj h).2).2)

theorem endsName_clauses (p : List Char) (n : Nat) : EndsName (whereClause p ++ limitClause n) := by
  have hblank : isNameChar ' ' = false := by decide
  by_cases hp : p = []
  · rw [hp]
    by_cases hn : n = 0
    · rw [hn]
      exact nofun
    · change EndsName (limitClause n)
      rw [limitClause_of_ne_zero hn]
      exact endsName_cons hblank
  · rw [whereClause_append hp]
    exact endsName_cons hblank

end Clauses

section Statements
variable {a b : Selection}

theorem Plain.not_limited (ha : a.Plain) : ¬ " LIMIT ".toList <:+: a.condition.toList := by
  rw [condition]
  cases h : a.predicate with
  | none => exact fun hinfix => List.cons_ne_nil _ _ (List.infix_nil.mp hinfix)
  | some p => exact ha.predicate p h

/-- Selections with plain names, whose predicates set no limit, have the same statement exactly if
they ask for the same: the same columns, in their order, of the same table, under the same predicate
and up to the same limit, where no predicate is an empty one and no limit is a limit of zero. -/
theorem sql_eq_iff (ha : a.Plain) (hb : b.Plain) : a.sql = b.sql ↔ a.Same b := by
  have hsql : a.sql = b.sql ↔ a.statement = b.statement := String.ofList_inj
  rw [hsql, statement_eq, statement_eq]
  constructor
  · intro h
    obtain ⟨htable, hcolumns, hclauses⟩ := head_unique ha.table.2 hb.table.2
      (List.forall_mem_map.mpr fun c hc => (ha.columns c hc).2)
      (List.forall_mem_map.mpr fun c hc => (hb.columns c hc).2)
      (endsName_clauses _ _) (endsName_clauses _ _) h
    obtain ⟨hcondition, hbound⟩ := clauses_unique ha.not_limited hb.not_limited hclauses
    exact ⟨String.toList_inj.mp htable,
      (List.map_inj_right fun _ _ => String.toList_inj.mp).mp hcolumns,
      String.toList_inj.mp hcondition, hbound⟩
  · rintro ⟨htable, hcolumns, hcondition, hbound⟩
    rw [htable, hcolumns, hcondition, hbound]

/-- A predicate may end as a limit begins. -/
theorem sql_eq_iff_sample :
    let a : Selection := ⟨"t_1", ["id", "x"], some "x > 5 LIMIT", some ⟨5, by decide⟩⟩
    let b : Selection := ⟨"t_1", ["id", "x"], some "x > 5", some ⟨5, by decide⟩⟩
    a.Plain ∧ b.Plain ∧ a.sql ≠ b.sql := by
  intro a b
  have htable : IsName "t_1" := isName_iff.mpr (by decide)
  have hnames : ∀ c ∈ ["id", "x"], IsName c := by
    simp only [isName_iff]
    decide
  have ha : a.Plain := ⟨htable, hnames, by rintro _ ⟨⟩; decide +kernel⟩
  have hb : b.Plain := ⟨htable, hnames, by rintro _ ⟨⟩; decide +kernel⟩
  have hconditions : a.condition ≠ b.condition := by decide
  exact ⟨ha, hb, fun h => hconditions ((sql_eq_iff ha hb).mp h).condition⟩

end Statements
end RowGate.Selection
