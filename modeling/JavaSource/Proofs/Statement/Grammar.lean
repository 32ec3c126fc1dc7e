import JavaSource.Proofs.Expression.Unambiguity

/-!
# Reading statements

`StatementGrammar.Reads ts t rest` says how statements of control flow are read from spellings: the
tree `t` stands at the start of `ts`, and `rest` follows it. Reading goes from left to right. An
`else` belongs to the innermost `if` in front of it that can take it, so an `if` without `else` is
read only if no `else` follows (`Reads.noElse`).

* `Simple` are the statements that contain no other statement.
* `Header` is what stands in front of the body of a loop or of a labeled statement.

The spellings determine what is read, and how far (`StatementGrammar.Reads.unique`).
-/

namespace JavaSource

namespace StatementGrammar

/-! ### Parts of statements -/

/-- A name as it is read: it has no handle and is not a reserved word. -/
structure IsName (n : SimpleName) : Prop where
  handle_eq : n.handle = none
  free : n.isUnreserved = true

/-- A name as an expression. -/
abbrev reference (n : SimpleName) : Expression :=
  .nameExpression (.simple n)

/-- The spelling of a name that may be missing. -/
def optionalWord (n : Option SimpleName) : List String :=
  n.toList.map SimpleName.token

/-- The spellings of empty pairs of brackets. -/
def dimensions : Nat → List String
  | 0 => []
  | k + 1 => "[" :: "]" :: dimensions k

/-- The parameter of an enhanced `for`. -/
def parameter (type : SimpleName) (variableArity : Bool) (name : SimpleName) (extra : Nat) :
    Tree .formalParameter :=
  .formalParameterDeclaration none .nil (.named ⟨none, .simple type⟩) variableArity name extra

/-- The spellings of the parameter of an enhanced `for`. -/
def parameterWords (type : SimpleName) (variableArity : Bool) (name : SimpleName) (extra : Nat) :
    List String :=
  type.token :: (if variableArity then ["..."] else []) ++ name.token :: dimensions extra

/-- The spellings are a statement that contains no other statement. -/
inductive Simple : List String → Statement → Prop where
  | empty : Simple [";"] (.emptyStatement none)
  | expression {n : SimpleName} (name : IsName n) :
      Simple [n.token, ";"] (.expressionStatement none (reference n))
  | returning {value : Option SimpleName} (names : ∀ n ∈ value, IsName n) :
      Simple ("return" :: optionalWord value ++ [";"])
        (.returnStatement none (.ofOption (value.map reference)))
  | breaking {target : Option SimpleName} (names : ∀ n ∈ target, IsName n) :
      Simple ("break" :: optionalWord target ++ [";"]) (.breakStatement none target)
  | continuing {target : Option SimpleName} (names : ∀ n ∈ target, IsName n) :
      Simple ("continue" :: optionalWord target ++ [";"]) (.continueStatement none target)

/-- The spellings stand in front of the body of a statement. -/
inductive Header : List String → (Statement → Statement) → Prop where
  | label {l : SimpleName} (name : IsName l) :
      Header [l.token, ":"] (.labeledStatement none l)
  | whileLoop {n : SimpleName} (condition : IsName n) :
      Header ["while", "(", n.token, ")"] (.whileStatement none (reference n))
  | forLoop :
      Header ["for", "(", ";", ";", ")"] (.forStatement none .absent .absent .absent)
  | forEach {type name n : SimpleName} {variableArity : Bool} {extra : Nat} (typed : IsName type)
      (named : IsName name) (values : IsName n) :
      Header ("for" :: "(" :: parameterWords type variableArity name extra ++ [":", n.token, ")"])
        (.enhancedForStatement none (parameter type variableArity name extra) (reference n))

/-! ### Reading -/

/-- The tree is read from the spellings `ts`, and `rest` follows it. A list of statements is read
with the brace that closes it, the second branch of an `if` with its `else`. -/
inductive Reads : {c : Category} → (ts : List String) → Tree c → (rest : List String) → Prop where
  | simple {ws rest : List String} {s : Statement} (whole : Simple ws s) : Reads (ws ++ rest) s rest
  | headed {ws ts rest : List String} {s : Statement} {f : Statement → Statement}
      (header : Header ws f) (body : Reads ts s rest) : Reads (ws ++ ts) (f s) rest
  | doLoop {n : SimpleName} {ts rest : List String} {s : Statement}
      (body : Reads ts s ("while" :: "(" :: n.token :: ")" :: ";" :: rest))
      (condition : IsName n) : Reads ("do" :: ts) (.doStatement none s (reference n)) rest
  | conditional {n : SimpleName} {ts us rest : List String} {s : Statement}
      {branch : Tree (.optional .statement)} (condition : IsName n) (yes : Reads ts s us)
      (no : Reads us branch rest) :
      Reads ("if" :: "(" :: n.token :: ")" :: ts) (.ifStatement none (reference n) s branch) rest
  | noElse {rest : List String} (other : rest.head? ≠ some "else") :
      Reads rest (.absent : Tree (.optional .statement)) rest
  | withElse {ts rest : List String} {s : Statement} (branch : Reads ts s rest) :
      Reads ("else" :: ts) (.present s) rest
  | blockStatement {ts rest : List String} {b : Block} (inner : Reads ts b rest) :
      Reads ts (.blockStatement b) rest
  | block {ts rest : List String} {ss : Tree (.listOf .statement)} (statements : Reads ts ss rest) :
      Reads ("\x7b" :: ts) (.block none ss) rest
  | nil {rest : List String} : Reads ("\x7d" :: rest) (.nil : Tree (.listOf .statement)) rest
  | cons {ts us rest : List String} {s : Statement} {ss : Tree (.listOf .statement)}
      (first : Reads ts s us) (others : Reads us ss rest) : Reads ts (.cons s ss) rest

/-! ### Names are told from the other spellings -/

section

variable {n m : SimpleName} {w : String} {ws ts us rest rest' : List String} {s s' : Statement}
  {f g : Statement → Statement}

/-- The spellings that are no names. -/
def fixedWords : List String :=
  reservedWords ++ [";", ":", "(", ")", "\x7b", "\x7d", "[", "]", "..."]

theorem IsName.token_ne (name : IsName n) (fixed : w ∈ fixedWords) : n.token ≠ w := by
  rintro rfl
  have unreserved : n.token ∉ reservedWords := by
    simpa [SimpleName.isUnreserved] using name.free
  have marks : ∀ w ∈ [";", ":", "(", ")", "\x7b", "\x7d", "[", "]", "..."],
      isIdentifier w = false := by
    decide
  rcases List.mem_append.mp fixed with reserved | mark
  · exact unreserved reserved
  · exact absurd n.valid (by simp [marks _ mark])

/-- Names with the same token are read as the same name. -/
theorem IsName.ext (name : IsName n) (name' : IsName m) (same : n.token = m.token) : n = m := by
  obtain ⟨h, token, valid⟩ := n
  obtain ⟨h', token', valid'⟩ := m
  obtain rfl : h = h' := name.handle_eq.trans name'.handle_eq.symm
  obtain rfl : token = token' := same
  rfl

/-- An optional name in front of a semicolon. -/
theorem optionalWord_inj {a b : Option SimpleName} (names : ∀ n ∈ a, IsName n)
    (names' : ∀ n ∈ b, IsName n)
    (same : optionalWord a ++ ";" :: rest = optionalWord b ++ ";" :: rest') :
    a = b ∧ rest = rest' := by
  cases a with
  | none =>
    cases b with
    | none => simpa [optionalWord] using same
    | some m =>
      have other := (names' m rfl).token_ne (w := ";") (by decide)
      exact absurd (List.cons.inj same).1.symm other
  | some n =>
    cases b with
    | none =>
      have other := (names n rfl).token_ne (w := ";") (by decide)
      exact absurd (List.cons.inj same).1 other
    | some m =>
      simp only [optionalWord, Option.toList_some, List.map_cons, List.map_nil, List.cons_append,
        List.nil_append, List.cons.injEq, true_and] at same
      exact ⟨congrArg some ((names n rfl).ext (names' m rfl) same.1), same.2⟩

/-- Brackets in front of a colon. -/
theorem dimensions_inj {j k : Nat}
    (same : dimensions j ++ ":" :: rest = dimensions k ++ ":" :: rest') : j = k ∧ rest = rest' := by
  induction j generalizing k with
  | zero =>
    cases k with
    | zero => simpa [dimensions] using same
    | succ k => simp [dimensions] at same
  | succ j ih =>
    cases k with
    | zero => simp [dimensions] at same
    | succ k =>
      obtain ⟨rfl, tail⟩ := ih (by simpa [dimensions] using same)
      exact ⟨rfl, tail⟩

/-- A parameter in front of a colon. -/
theorem parameterWords_inj {type type' name name' : SimpleName} {arity arity' : Bool}
    {extra extra' : Nat} (typed : IsName type) (typed' : IsName type') (named : IsName name)
    (named' : IsName name')
    (same : parameterWords type arity name extra ++ ":" :: rest =
      parameterWords type' arity' name' extra' ++ ":" :: rest') :
    parameter type arity name extra = parameter type' arity' name' extra' ∧ rest = rest' := by
  simp only [parameterWords, List.cons_append, List.append_assoc, List.cons.injEq] at same
  obtain ⟨token, same⟩ := same
  obtain rfl := typed.ext typed' token
  have alike : arity = arity' := by
    cases arity <;> cases arity'
    · rfl
    · exact absurd (List.cons.inj same).1 (named.token_ne (by decide))
    · exact absurd (List.cons.inj same).1.symm (named'.token_ne (by decide))
    · rfl
  subst alike
  rw [List.append_cancel_left_eq, List.cons.injEq] at same
  obtain rfl := named.ext named' same.1
  obtain ⟨rfl, tail⟩ := dimensions_inj same.2
  exact ⟨rfl, tail⟩

/-! ### Beginnings -/

theorem Simple.unique (h : Simple ws s) (h' : Simple us s') (same : ws ++ rest = us ++ rest') :
    s = s' ∧ rest = rest' := by
  cases h with
  | empty =>
    cases h' with
    | empty => exact ⟨rfl, (List.cons.inj same).2⟩
    | expression name => exact absurd (List.cons.inj same).1.symm (name.token_ne (by decide))
    | _ => simp at same
  | expression name =>
    cases h' with
    | expression name' =>
      simp only [List.cons_append, List.nil_append, List.cons.injEq, true_and] at same
      obtain rfl := name.ext name' same.1
      exact ⟨rfl, same.2⟩
    | _ => exact absurd (List.cons.inj same).1 (name.token_ne (by decide))
  | returning names =>
    cases h' with
    | returning names' =>
      obtain ⟨rfl, tail⟩ := optionalWord_inj names names' (by simpa using same)
      exact ⟨rfl, tail⟩
    | expression name => exact absurd (List.cons.inj same).1.symm (name.token_ne (by decide))
    | _ => simp at same
  | breaking names =>
    cases h' with
    | breaking names' =>
      obtain ⟨rfl, tail⟩ := optionalWord_inj names names' (by simpa using same)
      exact ⟨rfl, tail⟩
    | expression name => exact absurd (List.cons.inj same).1.symm (name.token_ne (by decide))
    | _ => simp at same
  | continuing names =>
    cases h' with
    | continuing names' =>
      obtain ⟨rfl, tail⟩ := optionalWord_inj names names' (by simpa using same)
      exact ⟨rfl, tail⟩
    | expression name => exact absurd (List.cons.inj same).1.symm (name.token_ne (by decide))
    | _ => simp at same

theorem Header.unique (h : Header ws f) (h' : Header us g) (same : ws ++ rest = us ++ rest') :
    f = g ∧ rest = rest' := by
  cases h with
  | label name =>
    cases h' with
    | label name' =>
      simp only [List.cons_append, List.nil_append, List.cons.injEq, true_and] at same
      obtain rfl := name.ext name' same.1
      exact ⟨rfl, same.2⟩
    | _ => exact absurd (List.cons.inj same).1 (name.token_ne (by decide))
  | whileLoop condition =>
    cases h' with
    | label name => exact absurd (List.cons.inj same).1.symm (name.token_ne (by decide))
    | whileLoop condition' =>
      simp only [List.cons_append, List.nil_append, List.cons.injEq, true_and] at same
      obtain rfl := condition.ext condition' same.1
      exact ⟨rfl, same.2⟩
    | _ => simp at same
  | forLoop =>
    cases h' with
    | label name => exact absurd (List.cons.inj same).1.symm (name.token_ne (by decide))
    | whileLoop => simp at same
    | forLoop => exact ⟨rfl, by simpa using same⟩
    | forEach typed =>
      simp only [parameterWords, List.cons_append, List.cons.injEq, true_and] at same
      exact absurd same.1.symm (typed.token_ne (by decide))
  | forEach typed named values =>
    cases h' with
    | label name => exact absurd (List.cons.inj same).1.symm (name.token_ne (by decide))
    | whileLoop => simp at same
    | forLoop =>
      simp only [parameterWords, List.cons_append, List.cons.injEq, true_and] at same
      exact absurd same.1 (typed.token_ne (by decide))
    | forEach typed' named' values' =>
      simp only [List.cons_append, List.append_assoc, List.nil_append, List.cons.injEq,
        true_and] at same
      obtain ⟨parameters, same⟩ := parameterWords_inj typed typed' named named' same
      simp only [List.cons.injEq, true_and] at same
      obtain rfl := values.ext values' same.1
      exact ⟨by rw [parameters], same.2⟩

/-- The words that start a statement of another form, or none. -/
def otherStarts : List String :=
  ["do", "if", "else", "\x7b", "\x7d"]

theorem Simple.start_ne (h : Simple ws s) (other : w ∈ otherStarts) : ws ++ rest ≠ w :: rest' := by
  have apart : ∀ v ∈ [";", "return", "break", "continue"], v ∉ otherStarts := by decide
  have fixed : ∀ v ∈ otherStarts, v ∈ fixedWords := by decide
  intro same
  cases h with
  | expression name => exact name.token_ne (fixed w other) (List.cons.inj same).1
  | _ => exact apart _ (by decide) ((List.cons.inj same).1 ▸ other)

theorem Header.start_ne (h : Header ws f) (other : w ∈ otherStarts) :
    ws ++ rest ≠ w :: rest' := by
  have apart : ∀ v ∈ ["while", "for"], v ∉ otherStarts := by decide
  have fixed : ∀ v ∈ otherStarts, v ∈ fixedWords := by decide
  intro same
  cases h with
  | label name => exact name.token_ne (fixed w other) (List.cons.inj same).1
  | _ => exact apart _ (by decide) ((List.cons.inj same).1 ▸ other)

/-- What follows the first name tells a statement from a label. -/
theorem Simple.ne_header (h : Simple ws s) (h' : Header us f) : ws ++ rest ≠ us ++ rest' := by
  intro same
  cases h' with
  | label name =>
    cases h with
    | expression => simp at same
    | _ => exact absurd (List.cons.inj same).1.symm (name.token_ne (by decide))
  | _ =>
    cases h with
    | expression name => exact absurd (List.cons.inj same).1 (name.token_ne (by decide))
    | _ => simp at same

/-- No statement starts with `else` or with a closing brace. -/
theorem Reads.head?_ne (h : Reads ts s rest) (stop : w = "else" ∨ w = "\x7d") :
    ts.head? ≠ some w := by
  have other : w ∈ otherStarts := by
    rcases stop with rfl | rfl <;> decide
  intro head
  obtain ⟨us, rfl⟩ := List.head?_eq_some_iff.mp head
  generalize eq : w :: us = ts at h
  cases h with
  | simple whole => exact whole.start_ne other eq.symm
  | headed header => exact header.start_ne other eq.symm
  | doLoop | conditional =>
    rcases stop with rfl | rfl <;> simp at eq
  | blockStatement inner =>
    cases inner
    rcases stop with rfl | rfl <;> simp at eq

theorem Reads.head?_ne_else {ss : Tree (.listOf .statement)} (h : Reads ts ss rest) :
    ts.head? ≠ some "else" := by
  cases h with
  | nil => simp
  | cons first => exact first.head?_ne (.inl rfl)

/-! ### What is read is determined -/

/-- **Reading is deterministic.** -/
theorem Reads.unique {c : Category} {t t' : Tree c} (h : Reads ts t rest) (h' : Reads ts t' rest') :
    t = t' ∧ rest = rest' := by
  induction h generalizing rest' with
  | @simple ws rest s whole =>
    generalize eq : ws ++ rest = ts at h'
    cases h' with
    | simple whole' => exact whole.unique whole' eq
    | headed header => exact absurd eq (whole.ne_header header)
    | doLoop | conditional => exact absurd eq (whole.start_ne (by decide))
    | blockStatement inner =>
      cases inner
      exact absurd eq (whole.start_ne (by decide))
  | @headed ws ts rest s f header body ih =>
    generalize eq : ws ++ ts = us at h'
    cases h' with
    | simple whole => exact absurd eq.symm (whole.ne_header header)
    | headed header' body' =>
      obtain ⟨rfl, rfl⟩ := header.unique header' eq
      obtain ⟨rfl, rfl⟩ := ih body'
      exact ⟨rfl, rfl⟩
    | doLoop | conditional => exact absurd eq (header.start_ne (by decide))
    | blockStatement inner =>
      cases inner
      exact absurd eq (header.start_ne (by decide))
  | @doLoop n ts rest s body condition ih =>
    generalize eq : "do" :: ts = us at h'
    cases h' with
    | simple whole => exact absurd eq.symm (whole.start_ne (by decide))
    | headed header => exact absurd eq.symm (header.start_ne (by decide))
    | doLoop body' condition' =>
      obtain ⟨-, rfl⟩ := List.cons.inj eq
      obtain ⟨rfl, same⟩ := ih body'
      simp only [List.cons.injEq, true_and] at same
      obtain rfl := condition.ext condition' same.1
      exact ⟨rfl, same.2⟩
    | conditional => simp at eq
    | blockStatement inner =>
      cases inner
      simp at eq
  | @conditional n ts us rest s branch condition yes no ihyes ihno =>
    generalize eq : "if" :: "(" :: n.token :: ")" :: ts = vs at h'
    cases h' with
    | simple whole => exact absurd eq.symm (whole.start_ne (by decide))
    | headed header => exact absurd eq.symm (header.start_ne (by decide))
    | conditional condition' yes' no' =>
      simp only [List.cons.injEq, true_and] at eq
      obtain ⟨token, rfl⟩ := eq
      obtain rfl := condition.ext condition' token
      obtain ⟨rfl, rfl⟩ := ihyes yes'
      obtain ⟨rfl, rfl⟩ := ihno no'
      exact ⟨rfl, rfl⟩
    | doLoop => simp at eq
    | blockStatement inner =>
      cases inner
      simp at eq
  | @noElse rest other =>
    cases h' with
    | noElse => exact ⟨rfl, rfl⟩
    | withElse => exact absurd rfl other
  | @withElse ts rest s branch ih =>
    generalize eq : "else" :: ts = us at h'
    cases h' with
    | noElse other => exact absurd (by rw [← eq]; rfl) other
    | withElse branch' =>
      obtain ⟨-, rfl⟩ := List.cons.inj eq
      obtain ⟨rfl, rfl⟩ := ih branch'
      exact ⟨rfl, rfl⟩
  | @blockStatement ts rest b inner ih =>
    cases inner
    generalize eq : "\x7b" :: _ = us at h'
    cases h' with
    | simple whole => exact absurd eq.symm (whole.start_ne (by decide))
    | headed header => exact absurd eq.symm (header.start_ne (by decide))
    | doLoop | conditional => simp at eq
    | blockStatement inner' =>
      obtain ⟨rfl, rfl⟩ := ih (eq ▸ inner')
      exact ⟨rfl, rfl⟩
  | @block ts rest ss statements ih =>
    cases h' with
    | block statements' =>
      obtain ⟨rfl, rfl⟩ := ih statements'
      exact ⟨rfl, rfl⟩
  | @nil rest =>
    generalize eq : "\x7d" :: rest = us at h'
    cases h' with
    | nil => exact ⟨rfl, (List.cons.inj eq).2⟩
    | cons first => exact absurd (by rw [← eq]; rfl) (first.head?_ne (.inr rfl))
  | @cons ts us rest s ss first others ihfirst ihothers =>
    cases h' with
    | nil => exact absurd rfl (first.head?_ne (.inr rfl))
    | cons first' others' =>
      obtain ⟨rfl, rfl⟩ := ihfirst first'
      obtain ⟨rfl, rfl⟩ := ihothers others'
      exact ⟨rfl, rfl⟩

end

end StatementGrammar

end JavaSource
