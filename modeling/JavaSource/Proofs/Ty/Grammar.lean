import JavaSource.Proofs.Ty.Pieces

/-!
# The grammar of types

`TypeGrammar.Derives s ps t` says that the pieces `ps` derive from the symbol `s` with the syntax
tree `t`:

* *type*: a wildcard, or an element with any number of empty brackets behind it;
* *wildcard*: `?`, or `?` with `extends` or `super` and a type;
* *element*: the keyword of a basic type, a dotted name, or a generic type;
* *generic*: a dotted name with type arguments, and then any number of further type arguments and
  of members;
* *dotted name*: identifiers with dots between them, the first one not the keyword of a basic type.
-/

namespace JavaSource

namespace TypeGrammar

/-- What pieces can derive from. -/
inductive Symbol where
  | type | wildcard | brackets | element | generic

/-- The pieces `ps` are the dotted name `n`. -/
inductive Dotted : List Piece → Name → Prop where
  | simple {w : List Char} (identifier : isIdentifier (String.ofList w) = true)
      (notBasic : ∀ k : BasicTypeKind, String.ofList w ≠ k.keyword) :
      Dotted [.word w] (.simple ⟨none, String.ofList w, identifier⟩)
  | qualified {ps : List Piece} {n : Name} {w : List Char} (qualifier : Dotted ps n)
      (identifier : isIdentifier (String.ofList w) = true) :
      Dotted (ps ++ [.dot, .word w]) (.qualified none n ⟨none, String.ofList w, identifier⟩)

/-- A first list of pieces and further ones in angle brackets, with commas between them. -/
def anglePieces (first : List Piece) (rest : List (List Piece)) : List Piece :=
  .openAngle :: first ++ rest.flatMap (fun ps => .comma :: ps) ++ [.closeAngle]

/-- The pieces `ps` derive from the symbol, with the syntax tree `t`. -/
inductive Derives : Symbol → List Piece → Ty → Prop where
  | wildcard {ps : List Piece} {t : Ty} (whole : Derives .wildcard ps t) : Derives .type ps t
  | brackets {ps : List Piece} {t : Ty} (whole : Derives .brackets ps t) : Derives .type ps t
  | unbound : Derives .wildcard [.question] (.wildcard none .unbound none)
  | bounded {d : WildcardBoundKind} {w : List Char} {ps : List Piece} {t : Ty}
      (keyword : d.keyword = some (String.ofList w)) (bound : Derives .type ps t) :
      Derives .wildcard (.question :: .word w :: ps) (.wildcard none d (some t))
  | element {ps : List Piece} {t : Ty} (whole : Derives .element ps t) : Derives .brackets ps t
  | array {ps : List Piece} {t : Ty} (component : Derives .brackets ps t) :
      Derives .brackets (ps ++ [.openBracket, .closeBracket]) (.array none t)
  | basic (k : BasicTypeKind) : Derives .element [.word k.keyword.toList] (.basic none k)
  | named {ps : List Piece} {n : Name} (name : Dotted ps n) :
      Derives .element ps (.named ⟨none, n⟩)
  | generic {ps : List Piece} {t : Ty} (whole : Derives .generic ps t) : Derives .element ps t
  | applied {ps : List Piece} {n : Name} {first : List Piece × Ty} {rest : List (List Piece × Ty)}
      (base : Dotted ps n) (each : ∀ a ∈ first :: rest, Derives .type a.1 a.2) :
      Derives .generic (ps ++ anglePieces first.1 (rest.map Prod.fst))
        (.parameterized none (.named ⟨none, n⟩) first.2 (rest.map Prod.snd))
  | again {ps : List Piece} {t : Ty} {first : List Piece × Ty} {rest : List (List Piece × Ty)}
      (base : Derives .generic ps t) (each : ∀ a ∈ first :: rest, Derives .type a.1 a.2) :
      Derives .generic (ps ++ anglePieces first.1 (rest.map Prod.fst))
        (.parameterized none t first.2 (rest.map Prod.snd))
  | member {ps : List Piece} {t : Ty} {w : List Char} (base : Derives .generic ps t)
      (identifier : isIdentifier (String.ofList w) = true) :
      Derives .generic (ps ++ [.dot, .word w])
        (.qualified none t ⟨none, String.ofList w, identifier⟩)

variable {ps : List Piece} {t : Ty}

/-- Only wildcards derive from the symbol of wildcards. -/
theorem Derives.isWildcard (h : Derives .wildcard ps t) : t.isWildcard = true := by
  cases h <;> rfl

/-- A type that is no wildcard derives as an element with brackets. -/
theorem Derives.of_not_isWildcard (h : Derives .type ps t) (proper : t.isWildcard = false) :
    Derives .brackets ps t := by
  cases h with
  | wildcard whole => simp [whole.isWildcard] at proper
  | brackets whole => exact whole

end TypeGrammar

end JavaSource
