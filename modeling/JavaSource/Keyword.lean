import JavaSource.Enumeration

/-!
# Choices that are spelled as keywords

Basic types, modifiers, the two directions of a wildcard bound, and the four forms of an import
declaration.
-/

namespace JavaSource

/-- A basic type, or `void`. -/
inductive BasicTypeKind where
  | boolean | byte | short | int | long | char | float | double | void
  deriving DecidableEq

namespace BasicTypeKind

/-- The keyword of a basic type. -/
def keyword : BasicTypeKind → String
  | .boolean => "boolean"
  | .byte => "byte"
  | .short => "short"
  | .int => "int"
  | .long => "long"
  | .char => "char"
  | .float => "float"
  | .double => "double"
  | .void => "void"

/-- The name of a basic type. -/
def name : BasicTypeKind → String
  | .boolean => "Boolean"
  | .byte => "Byte"
  | .short => "Short"
  | .int => "Int"
  | .long => "Long"
  | .char => "Char"
  | .float => "Float"
  | .double => "Double"
  | .void => "Void"

instance : Enumeration BasicTypeKind where
  members := [.boolean, .byte, .short, .int, .long, .char, .float, .double, .void]
  name := name

/-- The basic type with a given keyword. -/
def ofKeyword? (s : String) : Option BasicTypeKind :=
  (Enumeration.members (α := BasicTypeKind)).find? fun k => k.keyword == s

theorem ofKeyword?_keyword (k : BasicTypeKind) : ofKeyword? k.keyword = some k := by
  cases k <;> rfl

/-- A basic type is found by its keyword and by nothing else. -/
theorem ofKeyword?_eq_some_iff {s : String} {k : BasicTypeKind} :
    ofKeyword? s = some k ↔ s = k.keyword := by
  constructor
  · intro found
    have spelled : k.keyword = s := by simpa using List.find?_some found
    exact spelled.symm
  · rintro rfl
    exact ofKeyword?_keyword k

end BasicTypeKind

/-- A modifier of a declaration. -/
inductive ModifierKind where
  | isPublic | isProtected | isPrivate | isStatic | isAbstract | isFinal | isNative
  | isSynchronized | isTransient | isVolatile | isStrictfp
  deriving DecidableEq

namespace ModifierKind

/-- The keyword of a modifier. -/
def keyword : ModifierKind → String
  | .isPublic => "public"
  | .isProtected => "protected"
  | .isPrivate => "private"
  | .isStatic => "static"
  | .isAbstract => "abstract"
  | .isFinal => "final"
  | .isNative => "native"
  | .isSynchronized => "synchronized"
  | .isTransient => "transient"
  | .isVolatile => "volatile"
  | .isStrictfp => "strictfp"

/-- The name of a modifier. -/
def name : ModifierKind → String
  | .isPublic => "Public"
  | .isProtected => "Protected"
  | .isPrivate => "Private"
  | .isStatic => "Static"
  | .isAbstract => "Abstract"
  | .isFinal => "Final"
  | .isNative => "Native"
  | .isSynchronized => "Synchronized"
  | .isTransient => "Transient"
  | .isVolatile => "Volatile"
  | .isStrictfp => "Strictfp"

instance : Enumeration ModifierKind where
  members := [.isPublic, .isProtected, .isPrivate, .isStatic, .isAbstract, .isFinal, .isNative,
    .isSynchronized, .isTransient, .isVolatile, .isStrictfp]
  name := name

end ModifierKind

/-- The direction of a wildcard's bound. -/
inductive WildcardBoundKind where
  | unbound | upperBounded | lowerBounded
  deriving DecidableEq

namespace WildcardBoundKind

/-- The keyword between `?` and the bound, if any. -/
def keyword : WildcardBoundKind → Option String
  | .unbound => none
  | .upperBounded => some "extends"
  | .lowerBounded => some "super"

/-- The name of a direction. -/
def name : WildcardBoundKind → String
  | .unbound => "Unbound"
  | .upperBounded => "UpperBounded"
  | .lowerBounded => "LowerBounded"

instance : Enumeration WildcardBoundKind where
  members := [.unbound, .upperBounded, .lowerBounded]
  name := name

/-- The direction that a keyword announces. -/
def ofKeyword? (s : String) : Option WildcardBoundKind :=
  (Enumeration.members (α := WildcardBoundKind)).find? fun d => d.keyword == some s

/-- A direction is found by its keyword and by nothing else. -/
theorem ofKeyword?_eq_some_iff {s : String} {d : WildcardBoundKind} :
    ofKeyword? s = some d ↔ d.keyword = some s := by
  constructor
  · intro found
    simpa using List.find?_some found
  · intro spelled
    cases d <;> cases spelled <;> rfl

end WildcardBoundKind

/-- The form of an import declaration. -/
inductive ImportKind where
  | singleType | typeOnDemand | singleStatic | staticOnDemand
  deriving DecidableEq

namespace ImportKind

/-- Whether static members are imported. -/
def isStatic : ImportKind → Bool
  | .singleStatic | .staticOnDemand => true
  | .singleType | .typeOnDemand => false

/-- Whether everything below the name is imported. -/
def isOnDemand : ImportKind → Bool
  | .typeOnDemand | .staticOnDemand => true
  | .singleType | .singleStatic => false

/-- The name of a form. -/
def name : ImportKind → String
  | .singleType => "SingleType"
  | .typeOnDemand => "TypeOnDemand"
  | .singleStatic => "SingleStatic"
  | .staticOnDemand => "StaticOnDemand"

instance : Enumeration ImportKind where
  members := [.singleType, .typeOnDemand, .singleStatic, .staticOnDemand]
  name := name

end ImportKind

end JavaSource
