import JavaSource.Node.Assembly
import JavaSource.Proofs.Outline.Injective

/-!
# The fields of assembled nodes

`Node.assemble` reads the contents of each field, checks what the kind asks for, and puts a typed
tree together. The outline of that tree shows the fields again: it has one part for each of them, in
the order of `Kind.fields`, and each part shows what the field holds (`Node.showsEach_of_assemble`).
No field is left out, and none shows in two places.

* `LawfulFits` says that a node which is seen as a value of a type keeps its outline, and
  `LawfulFills` that the value read from a field has the outline that the field shows.
* `Assembles` follows an assembly field by field. It has one rule for each step that an assembly can
  take: reading the next field, choosing a member of an enumeration, and a check.
-/

namespace JavaSource

/-! ### Nodes as values -/

/-- The types whose values have outlines. -/
class Outlined (α : Type) where
  /-- The outline of a value. -/
  outline : α → Outline

section

variable {α : Type} [Outlined α] {c : Category}

instance : Outlined SimpleName := ⟨SimpleName.outline⟩
instance : Outlined Name := ⟨Name.outline⟩
instance : Outlined NamedType := ⟨NamedType.outline⟩
instance : Outlined ArrayType := ⟨fun a => a.toTy.outline⟩
instance : Outlined Ty := ⟨Ty.outline⟩
instance : Outlined DocBlock := ⟨DocBlock.outline⟩
instance : Outlined DocParameter := ⟨DocParameter.outline⟩
instance : Outlined DocElement := ⟨DocElement.outline⟩
instance : Outlined Comment := ⟨Comment.outline⟩
instance : Outlined Javadoc := ⟨Javadoc.outline⟩
instance : Outlined TypeParameter := ⟨TypeParameter.outline⟩
instance : Outlined PackageDeclaration := ⟨PackageDeclaration.outline⟩
instance : Outlined ImportDeclaration := ⟨ImportDeclaration.outline⟩
instance : Outlined (Tree c) := ⟨Tree.outline⟩
instance : Outlined (Option α) := ⟨.ofOption Outlined.outline⟩
instance : Outlined (List α) := ⟨.ofList Outlined.outline⟩
instance : Outlined String := ⟨.text⟩
instance : Outlined Bool := ⟨.flag⟩
instance : Outlined Int := ⟨fun n => .count n.toNat⟩

end

/-- A node that is seen as a value keeps its outline. -/
class LawfulFits (α : Type) [Fits α] [Outlined α] : Prop where
  outline_eq : ∀ {n : Node} {a : α}, Fits.ofNode? n = some a → Outlined.outline a = n.outline

instance : LawfulFits SimpleName where
  outline_eq {n _} h := match n, h with | .name (.simple _), rfl => rfl

instance : LawfulFits Name where
  outline_eq {n _} h := match n, h with | .name _, rfl => rfl

instance : LawfulFits NamedType where
  outline_eq {n _} h := match n, h with | .type (.named _), rfl => rfl

instance : LawfulFits ArrayType where
  outline_eq {n _} h := match n, h with | .type (.array ..), rfl => rfl

instance : LawfulFits Ty where
  outline_eq {n _} h := match n, h with | .type _, rfl => rfl

instance : LawfulFits DocBlock where
  outline_eq {n _} h := match n, h with | .docElement (.block ..), rfl => rfl

instance : LawfulFits DocParameter where
  outline_eq {n _} h := match n, h with | .docParameter _, rfl => rfl

instance : LawfulFits DocElement where
  outline_eq {n _} h := match n, h with
    | .docElement _, rfl | .name _, rfl | .type _, rfl => rfl

instance : LawfulFits Comment where
  outline_eq {n _} h := match n, h with | .comment _, rfl => rfl

instance : LawfulFits Javadoc where
  outline_eq {n _} h := match n, h with | .comment (.javadoc _), rfl => rfl

instance : LawfulFits TypeParameter where
  outline_eq {n _} h := match n, h with | .typeParameter _, rfl => rfl

instance : LawfulFits PackageDeclaration where
  outline_eq {n _} h := match n, h with | .package _, rfl => rfl

instance : LawfulFits ImportDeclaration where
  outline_eq {n _} h := match n, h with | .importing _, rfl => rfl

instance : LawfulFits Expression where
  outline_eq {n _} h := match n, h with
    | .name _, rfl | @Node.tree .expression _, rfl | @Node.tree .arrayInitializer _, rfl => rfl

instance : LawfulFits Statement where
  outline_eq {n _} h := match n, h with
    | @Node.tree .statement _, rfl | @Node.tree .block _, rfl => rfl

instance : LawfulFits (Tree .attribute) where
  outline_eq {n _} h := match n, h with
    | @Node.tree .attribute _, rfl | @Node.tree .annotationUse _, rfl => rfl

instance : LawfulFits (Tree .typeDeclaration) where
  outline_eq {n _} h := match n, h with
    | @Node.tree .typeDeclaration _, rfl | @Node.tree .classDeclaration _, rfl => rfl

instance : LawfulFits (Tree .member) where
  outline_eq {n _} h := match n, h with
    | @Node.tree .member _, rfl | @Node.tree .typeDeclaration _, rfl
    | @Node.tree .classDeclaration _, rfl => rfl

namespace Node

variable {n : Node}

theorem outline_of_forInitializer? {t : Tree .forInitializer} (h : n.forInitializer? = some t) :
    t.outline = n.outline := by
  unfold forInitializer? at h
  split at h <;> cases h <;> rfl

theorem outline_of_exactly? {c : Category} {t : Tree c} (h : n.exactly? c = some t) :
    t.outline = n.outline := by
  unfold exactly? at h
  split at h
  · split at h
    · next same =>
      subst same
      obtain rfl := Option.some.inj h
      rfl
    · cases h
  · cases h

end Node

instance : LawfulFits (Tree .forInitializer) := ⟨Node.outline_of_forInitializer?⟩
instance : LawfulFits (Tree .arrayInitializer) := ⟨Node.outline_of_exactly?⟩
instance : LawfulFits (Tree .classBody) := ⟨Node.outline_of_exactly?⟩
instance : LawfulFits (Tree .annotationElement) := ⟨Node.outline_of_exactly?⟩
instance : LawfulFits (Tree .annotationUse) := ⟨Node.outline_of_exactly?⟩
instance : LawfulFits (Tree .formalParameter) := ⟨Node.outline_of_exactly?⟩
instance : LawfulFits (Tree .variableDeclarator) := ⟨Node.outline_of_exactly?⟩
instance : LawfulFits Block := ⟨Node.outline_of_exactly?⟩
instance : LawfulFits (Tree .catchClause) := ⟨Node.outline_of_exactly?⟩
instance : LawfulFits (Tree .expressionList) := ⟨Node.outline_of_exactly?⟩
instance : LawfulFits (Tree .classDeclaration) := ⟨Node.outline_of_exactly?⟩
instance : LawfulFits (Tree .enumConstant) := ⟨Node.outline_of_exactly?⟩

/-! ### What fields show -/

namespace Field

/-- The outline shows the contents of a field. A member of an enumeration is given by its name, and
`position` is its place in the order. -/
inductive Shows (position : String → Nat) : Slot → Field → Outline → Prop where
  | one (p : Position) (n : Node) : Shows position (.one p) (.node n) n.outline
  | absent (p : Position) : Shows position (.optional p) .absent .absent
  | present (p : Position) (n : Node) : Shows position (.optional p) (.node n) n.outline
  | many (p : Position) (ns : List Node) :
      Shows position (.many p) (.nodes ns) (.list (ns.map Node.outline))
  | text (s : String) : Shows position .text (.text s) (.text s)
  | flag (b : Bool) : Shows position .flag (.flag b) (.flag b)
  | number (n : Int) : Shows position .number (.number n) (.count n.toNat)
  | choice (s : String) : Shows position .choice (.text s) (.choice (position s) s)

/-- The outlines show the contents of the fields, one each. -/
inductive ShowsEach (position : String → Nat) : List Slot → List Field → List Outline → Prop where
  | nil : ShowsEach position [] [] []
  | cons {s : Slot} {ss : List Slot} {f : Field} {fs : List Field} {o : Outline}
      {os : List Outline} (first : f.Shows position s o) (rest : ShowsEach position ss fs os) :
      ShowsEach position (s :: ss) (f :: fs) (o :: os)

variable {position : String → Nat}

/-- What a field shows is determined by its contents. -/
theorem Shows.unique {s : Slot} {f : Field} {o o' : Outline} (h : f.Shows position s o)
    (h' : f.Shows position s o') : o = o' := by
  cases h <;> cases h' <;> rfl

theorem ShowsEach.unique {ss : List Slot} {fs : List Field} {os os' : List Outline}
    (h : ShowsEach position ss fs os) (h' : ShowsEach position ss fs os') : os = os' := by
  induction h generalizing os' with
  | nil =>
    cases h'
    rfl
  | cons first _ ih =>
    cases h' with
    | cons first' rest' => rw [first.unique first', ih rest']

/-- Where only one field differs, only what it shows can differ. -/
theorem ShowsEach.exists_differ {ss : List Slot} {before after : List Field} {f f' : Field}
    {os os' : List Outline} (h : ShowsEach position ss (before ++ f :: after) os)
    (h' : ShowsEach position ss (before ++ f' :: after) os') :
    ∃ s front o o' back, os = front ++ o :: back ∧ os' = front ++ o' :: back ∧
      f.Shows position s o ∧ f'.Shows position s o' := by
  induction before generalizing ss os os' with
  | nil =>
    cases h with
    | @cons s ss _ _ o os first rest =>
      cases h' with
      | @cons _ _ _ _ o' os' first' rest' =>
        obtain rfl := rest.unique rest'
        exact ⟨s, [], o, o', os, rfl, rfl, first, first'⟩
  | cons b before ih =>
    cases h with
    | @cons s ss _ _ o os first rest =>
      cases h' with
      | @cons _ _ _ _ o' os' first' rest' =>
        obtain rfl := first.unique first'
        obtain ⟨s', front, p, p', back, rfl, rfl, shown, shown'⟩ := ih rest rest'
        exact ⟨s', o :: front, p, p', back, rfl, rfl, shown, shown'⟩

end Field

/-- Values read from a field of a slot have the outlines that the field shows. -/
class LawfulFills (s : Slot) (α : Type) [Fills α] [Outlined α] : Prop where
  shows (position : String → Nat) : ∀ {f : Field} {a : α},
    Fills.ofField? f = some a → f.Shows position s (Outlined.outline a)

section

variable {α : Type} [Fits α] [Outlined α] [LawfulFits α] {p : Position}

theorem map_outline_of_mapM {ns : List Node} {as : List α} (h : ns.mapM Fits.ofNode? = some as) :
    as.map Outlined.outline = ns.map Node.outline := by
  induction ns generalizing as with
  | nil =>
    obtain rfl : as = [] := by simpa using h.symm
    rfl
  | cons n ns ih =>
    simp only [List.mapM_cons, Option.bind_eq_bind, Option.bind_eq_some_iff, Option.pure_def,
      Option.some.injEq] at h
    obtain ⟨b, first, bs, rest, rfl⟩ := h
    rw [List.map_cons, List.map_cons, LawfulFits.outline_eq first, ih rest]

/-- A node in a field that may be empty. -/
theorem shows_present {n : Node} {a : α} (position : String → Nat)
    (fits : Fits.ofNode? n = some a) :
    (Field.node n).Shows position (.optional p) (Outlined.outline a) := by
  rw [LawfulFits.outline_eq fits]
  exact .present p n

instance : LawfulFills (.one p) α where
  shows position {f a} h := by
    match f, h with
    | .node n, h =>
      rw [LawfulFits.outline_eq h]
      exact .one p n

instance : LawfulFills (.optional p) (Option α) where
  shows position {f a} h := by
    match f, h with
    | .absent, rfl => exact .absent p
    | .node n, h =>
      obtain ⟨b, fits, rfl⟩ := Option.map_eq_some_iff.mp h
      have shown := shows_present (p := p) position fits
      exact shown

instance : LawfulFills (.many p) (List α) where
  shows position {f a} h := by
    match f, h with
    | .nodes ns, h =>
      have same : Outlined.outline a = .list (ns.map Node.outline) :=
        congrArg Outline.list (map_outline_of_mapM h)
      rw [same]
      exact .many p ns

end

theorem Tree.outline_ofList {c : Category} (ts : List (Tree c)) :
    (ofList ts).outline = .ofList Tree.outline ts := by
  induction ts with
  | nil => rfl
  | cons t ts ih =>
    have step : (ofList (t :: ts)).outline = .list (t.outline :: (ofList ts).outline.elements) :=
      rfl
    rw [step, ih]
    rfl

section

variable {c : Category} [Fits (Tree c)] [LawfulFits (Tree c)] {p : Position}

instance : LawfulFills (.optional p) (Tree (.optional c)) where
  shows position {f a} h := by
    match f, h with
    | .absent, rfl => exact .absent p
    | .node n, h =>
      obtain ⟨b, fits, rfl⟩ := Option.map_eq_some_iff.mp h
      have shown := shows_present (p := p) position fits
      exact shown

instance : LawfulFills (.many p) (Tree (.listOf c)) where
  shows position {f a} h := by
    match f, h with
    | .nodes ns, h =>
      obtain ⟨ts, fits, rfl⟩ := Option.map_eq_some_iff.mp h
      have same : Outlined.outline (Tree.ofList ts) = .list (ns.map Node.outline) := by
        rw [← map_outline_of_mapM fits]
        exact Tree.outline_ofList ts
      rw [same]
      exact .many p ns

end

instance : LawfulFills .text String where
  shows _ {f _} h := match f, h with | .text s, rfl => .text s

instance : LawfulFills .flag Bool where
  shows _ {f _} h := match f, h with | .flag b, rfl => .flag b

instance : LawfulFills .number Int where
  shows _ {f _} h := match f, h with | .number n, rfl => .number n

/-! ### Choices -/

namespace Enumeration

variable {α : Type} [DecidableEq α] [Enumeration α]

/-- The position of the member with a given name. -/
def position (α : Type) [DecidableEq α] [Enumeration α] (s : String) : Nat :=
  ((ofName? s : Option α).map index).getD 0

theorem shows_ofChoice {s : String} {a : α} (h : ofName? s = some a) :
    (Field.text s).Shows (position α) .choice (.ofChoice a) := by
  have named : name a = s := by simpa using List.find?_some h
  have placed : position α s = index a := by rw [position, h, Option.map_some, Option.getD_some]
  rw [Outline.ofChoice, named, ← placed]
  exact .choice s

end Enumeration

/-- The position of a name in the enumeration from which a field of the kind chooses. -/
def Kind.choicePosition : Kind → String → Nat
  | .assignmentExpression | .infixExpression => Enumeration.position InfixOperator
  | .basicType => Enumeration.position BasicTypeKind
  | .importDeclaration => Enumeration.position ImportKind
  | .modifier => Enumeration.position ModifierKind
  | .postfixExpression => Enumeration.position PostfixOperator
  | .unaryExpression => Enumeration.position UnaryOperator
  | .wildcard => Enumeration.position WildcardBoundKind
  | _ => fun _ => 0

/-! ### The steps of an assembly -/

/-- If a node comes out, it is of the kind and has the handle, and its outline consists of the
outlines `front` and of what the remaining fields show. -/
def Assembles (k : Kind) (h : Handle) (ss : List Slot) (fs : List Field) (front : List Outline)
    (x : Except AssemblyError Node) : Prop :=
  ∀ n, x = .ok n → ∃ os, Field.ShowsEach k.choicePosition ss fs os ∧
    n.outline = .node k h (front ++ os)

namespace Assembles

variable {k : Kind} {h : Handle} {s : Slot} {ss : List Slot} {a : Field} {fs : List Field}
  {front : List Outline} {α : Type} {x : Except AssemblyError Node}

theorem error {e : AssemblyError} : Assembles k h ss fs front (.error e) := by
  intro n eq
  cases eq

/-- All fields have been read. -/
theorem done {n : Node} (eq : n.outline = .node k h front) :
    Assembles k h [] [] front (pure n) := by
  rintro _ ⟨⟩
  exact ⟨[], .nil, by rw [List.append_nil, eq]⟩

/-- The next field is known to show an outline. -/
theorem next {o : Outline} (first : a.Shows k.choicePosition s o)
    (rest : Assembles k h ss fs (front ++ [o]) x) : Assembles k h (s :: ss) (a :: fs) front x := by
  intro n eq
  obtain ⟨os, shown, outline⟩ := rest n eq
  exact ⟨o :: os, .cons first shown, by rw [outline, List.append_assoc, List.singleton_append]⟩

/-- Some field is read, not necessarily the next one. -/
theorem read [Fills α] {f : α → Except AssemblyError Node}
    (rest : ∀ v, Fills.ofField? a = some v → Assembles k h ss fs front (f v)) :
    Assembles k h ss fs front (a.fill >>= f) := by
  intro n eq
  rw [Field.fill] at eq
  split at eq
  · next v found => exact rest v found n eq
  · cases eq

/-- The next field is read. -/
theorem fill [Fills α] [Outlined α] [LawfulFills s α] {f : α → Except AssemblyError Node}
    (rest : ∀ v, Assembles k h ss fs (front ++ [Outlined.outline v]) (f v)) :
    Assembles k h (s :: ss) (a :: fs) front (a.fill >>= f) :=
  read fun v found => next (LawfulFills.shows _ found) (rest v)

/-- The next field is a choice. -/
theorem choose [DecidableEq α] [Enumeration α] {f : α → Except AssemblyError Node}
    (positions : k.choicePosition = Enumeration.position α)
    (rest : ∀ v, Assembles k h ss fs (front ++ [Outline.ofChoice v]) (f v)) :
    Assembles k h (.choice :: ss) (a :: fs) front (a.fill >>= f) := by
  refine read fun v found => next (o := .ofChoice v) ?_ (rest v)
  match a, found with
  | .text s, found =>
    rw [positions]
    exact Enumeration.shows_ofChoice found

/-- Something is built from what was read. -/
theorem build {y : Except BuildError α} {f : α → Except AssemblyError Node}
    (rest : ∀ v, y = .ok v → Assembles k h ss fs front (f v)) :
    Assembles k h ss fs front (built y >>= f) := by
  cases y with
  | ok v => exact rest v rfl
  | error e => exact error

end Assembles

/-! ### Checked construction -/

namespace Tree

variable {h : Handle} {modifiers : Tree (.listOf .attribute)} {type : Ty}

theorem eq_toNat_of_checkDimensions {k : Kind} {i : Int} {n : Nat}
    (checked : checkDimensions k i = .ok n) : n = i.toNat := by
  unfold checkDimensions at checked
  split at checked <;> cases checked
  rfl

theorem outline_of_ofToken {token : String} {t : Expression} (built : ofToken h token = .ok t) :
    t.outline = .node .literal h [.text token] := by
  unfold ofToken at built
  split at built <;> cases built
  rfl

theorem outline_of_createArray {type : ArrayType} {sizes : List Expression}
    {values : Tree (.optional .arrayInitializer)} {t : Expression}
    (built : createArray h type sizes values = .ok t) :
    t.outline = .node .arrayCreationExpression h
      [type.toTy.outline, .ofList Tree.outline sizes, values.outline] := by
  unfold createArray at built
  split at built <;> cases built
  rw [← outline_ofList]
  rfl

theorem outline_of_listExpressions {ts : List Expression} {t : Tree .expressionList}
    (built : listExpressions h ts = .ok t) :
    t.outline = .node .statementExpressionList h [.ofList Tree.outline ts] := by
  cases ts <;> cases built
  rw [← outline_ofList]
  rfl

theorem outline_of_declareLocals {ts : List (Tree .variableDeclarator)} {t : Tree .localVariables}
    (built : declareLocals h modifiers type ts = .ok t) :
    t.outline = .node .localVariableDeclaration h
      [modifiers.outline, type.outline, .ofList Tree.outline ts] := by
  cases ts <;> cases built
  rw [← outline_ofList]
  rfl

theorem outline_of_declareFields {javadoc : Option Javadoc}
    {ts : List (Tree .variableDeclarator)} {t : Tree .member}
    (built : declareFields h javadoc modifiers type ts = .ok t) :
    t.outline = .node .fieldDeclaration h
      [.ofOption Javadoc.outline javadoc, modifiers.outline, type.outline,
        .ofList Tree.outline ts] := by
  cases ts <;> cases built
  rw [← outline_ofList]
  rfl

end Tree

theorem SimpleName.outline_of_ofToken {h : Handle} {token : String} {n : SimpleName}
    (built : ofToken token h = .ok n) : n.outline = .node .simpleName h [.text token] := by
  unfold ofToken at built
  split at built <;> cases built
  rfl

theorem Ty.outline_of_withArguments {h : Handle} {base t : Ty} {ts : List Ty}
    (built : withArguments h base ts = .ok t) :
    t.outline = .node .parameterizedType h [base.outline, .ofList Ty.outline ts] := by
  cases ts <;> cases built
  rw [Ty.outline, outlineEach_eq_map]
  rfl

/-! ### Assembly -/

namespace Node

/-- Every kind of node is assembled from its fields by the steps above. -/
theorem assembles_assemble (k : Kind) (h : Handle) (fs : List Field) :
    Assembles k h k.slots fs [] (assemble k h fs) := by
  cases k
  -- A list of fields that is too short or too long for the kind is refused.
  all_goals
    rcases fs with _ | ⟨a, _ | ⟨b, _ | ⟨c, _ | ⟨d, _ | ⟨e, _ | ⟨f, _ | ⟨g, _ | ⟨i, _ |
      ⟨j, _ | ⟨x, fs⟩⟩⟩⟩⟩⟩⟩⟩⟩⟩
    all_goals try exact .error
  case arrayCreationExpression.cons.cons.cons.nil =>
    exact .fill fun _ => .fill fun _ => .fill fun _ => .build fun _ built =>
      .done (Tree.outline_of_createArray built)
  case docBlock.cons.cons.nil =>
    refine .fill fun _ => .fill fun _ => .done ?_
    rw [outline, DocElement.outline, DocElement.outlineEach_eq_map]
    rfl
  case fieldDeclaration.cons.cons.cons.cons.nil =>
    exact .fill fun _ => .fill fun _ => .fill fun _ => .fill fun _ => .build fun _ built =>
      .done (Tree.outline_of_declareFields built)
  case formalParameterDeclaration.cons.cons.cons.cons.cons.nil =>
    -- The number of dimensions is checked before the fields in front of it are read.
    refine .read fun _ found => .build fun _ checked => ?_
    obtain rfl := Tree.eq_toNat_of_checkDimensions checked
    exact .fill fun _ => .fill fun _ => .fill fun _ => .fill fun _ =>
      .next (LawfulFills.shows _ found) (.done rfl)
  case literal.cons.nil =>
    exact .fill fun _ => .build fun _ built => .done (Tree.outline_of_ofToken built)
  case localVariableDeclaration.cons.cons.cons.nil =>
    exact .fill fun _ => .fill fun _ => .fill fun _ => .build fun _ built =>
      .done (Tree.outline_of_declareLocals built)
  case methodDeclaration.cons.cons.cons.cons.cons.cons.cons.cons.cons.nil =>
    refine .read fun _ found => .build fun _ checked => ?_
    obtain rfl := Tree.eq_toNat_of_checkDimensions checked
    exact .fill fun _ => .fill fun _ => .fill fun _ => .fill fun _ => .fill fun _ =>
      .fill fun _ => .next (LawfulFills.shows _ found) (.fill fun _ => .fill fun _ => .done rfl)
  case parameterizedType.cons.cons.nil =>
    exact .fill fun _ => .fill fun _ => .build fun _ built =>
      .done (Ty.outline_of_withArguments built)
  case simpleName.cons.nil =>
    exact .fill fun _ => .build fun _ built => .done (SimpleName.outline_of_ofToken built)
  case statementExpressionList.cons.nil =>
    exact .fill fun _ => .build fun _ built => .done (Tree.outline_of_listExpressions built)
  case variableDeclarator.cons.cons.cons.nil =>
    refine .read fun _ found => .build fun _ checked => ?_
    obtain rfl := Tree.eq_toNat_of_checkDimensions checked
    exact .fill fun _ => .next (LawfulFills.shows _ found) (.fill fun _ => .done rfl)
  case wildcard.cons.cons.nil =>
    exact .choose rfl fun _ => .fill fun _ => .done (Ty.outline_wildcard _ _ _)
  all_goals
    repeat' first
      | refine .fill fun _ => ?_
      | refine .choose rfl fun _ => ?_
    exact .done rfl

/-- **The outline of an assembled node shows its fields**, one part for each of them. -/
theorem showsEach_of_assemble {k : Kind} {h : Handle} {fs : List Field} {n : Node}
    (assembled : assemble k h fs = .ok n) :
    ∃ os, Field.ShowsEach k.choicePosition k.slots fs os ∧ n.outline = .node k h os :=
  assembles_assemble k h fs n assembled

end Node

end JavaSource
