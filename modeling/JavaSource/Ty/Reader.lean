import JavaSource.Text.Blank
import JavaSource.Ty

/-!
# Reading types

A text is read as a type in two steps. First it is cut into pieces: words, which are longest runs of
identifier characters, and the marks `< > , . [ ] ?`; blank characters separate pieces and do not
count otherwise. Then the pieces are read by recursive descent.

* A wildcard is `?`, or `?` with `extends` or `super` and a bound.
* A dotted name may be followed by type arguments, and then by further type arguments and members.
* Empty brackets behind anything but a wildcard make an array type.

What reading some of the pieces gives is a `Reading`: a value together with the pieces behind it,
which are never more than before. Every round of the descent takes a piece, so it comes to an end.
-/

namespace JavaSource

/-- A unit of the text of a type. -/
inductive Piece where
  /-- A run of identifier characters. -/
  | word (chars : List Char)
  | openAngle | closeAngle | comma | dot | openBracket | closeBracket | question
  deriving DecidableEq

namespace Piece

/-- The mark that a character stands for. -/
def ofMark? : Char → Option Piece
  | '<' => some .openAngle
  | '>' => some .closeAngle
  | ',' => some .comma
  | '.' => some .dot
  | '[' => some .openBracket
  | ']' => some .closeBracket
  | '?' => some .question
  | _ => none

/-- A character in front of pieces: part of the first word if that word is adjacent, and a word of
its own otherwise. -/
def extend (c : Char) (adjacent : Bool) : List Piece → List Piece
  | .word w :: ps => if adjacent then .word (c :: w) :: ps else .word [c] :: .word w :: ps
  | ps => .word [c] :: ps

/-- The pieces of a text, unless a character belongs to none. -/
def ofChars? : List Char → Option (List Piece)
  | [] => some []
  | c :: cs =>
    match ofChars? cs with
    | none => none
    | some ps =>
      if Text.isBlank c then some ps
      else
        match ofMark? c with
        | some m => some (m :: ps)
        | none =>
          if isIdentifierPart c then some (extend c (cs.head?.any isIdentifierPart) ps) else none

end Piece

/-! ### Readings -/

/-- The pieces that are left of some pieces. -/
structure Rest (ps : List Piece) where
  /-- What is left. -/
  pieces : List Piece
  /-- There is not more left than there was. -/
  length_le : pieces.length ≤ ps.length

/-- What reading the first of some pieces gives: a value and the pieces behind it, or the reason why
they cannot be read. -/
abbrev Reading (α : Type) (ps : List Piece) := Except BuildError (α × Rest ps)

namespace Reading

variable {α β : Type} {ps : List Piece}

/-- A value for which no piece is taken. -/
def stop (a : α) (ps : List Piece) : Reading α ps :=
  .ok (a, ⟨ps, Nat.le_refl _⟩)

/-- A reading of the pieces behind a first one, which is taken as well. -/
def behind (p : Piece) : Reading α ps → Reading α (p :: ps)
  | .ok (a, rest) => .ok (a, ⟨rest.pieces, Nat.le_succ_of_le rest.length_le⟩)
  | .error e => .error e

/-- A reading that goes on with what a first one leaves. -/
def andThen (x : Reading α ps)
    (f : α → (rest : List Piece) → rest.length ≤ ps.length → Reading β rest) : Reading β ps :=
  match x with
  | .ok (a, rest) =>
    match f a rest.pieces rest.length_le with
    | .ok (b, last) => .ok (b, ⟨last.pieces, Nat.le_trans last.length_le rest.length_le⟩)
    | .error e => .error e
  | .error e => .error e

/-- A reading that depends on a word being an identifier. -/
def naming (w : List Char) (f : SimpleName → Reading α ps) : Reading α ps :=
  match SimpleName.ofToken (String.ofList w) with
  | .ok s => f s
  | .error e => .error e

end Reading

namespace Ty

/-! ### Recursive descent

In each function `fault` is the error for pieces that do not fit. -/

/-- The segments behind the first one of a dotted name. -/
def readSegments (fault : BuildError) (n : Name) : (ps : List Piece) → Reading Name ps
  | .dot :: .word w :: ps =>
    .naming w fun s =>
      .behind .dot (.behind (.word w) (readSegments fault (.qualified none n s) ps))
  | .dot :: _ => .error fault
  | ps => .stop n ps

/-- The empty brackets behind a type. -/
def readBrackets (fault : BuildError) (t : Ty) : (ps : List Piece) → Reading Ty ps
  | .openBracket :: .closeBracket :: ps =>
    if t.isWildcard then .error fault
    else .behind .openBracket (.behind .closeBracket (readBrackets fault (.array none t) ps))
  | .openBracket :: _ => .error fault
  | ps => .stop t ps

mutual

/-- A type with its brackets. -/
def readType (fault : BuildError) (ps : List Piece) : Reading Ty ps :=
  (readElement fault ps).andThen fun t rest _ => readBrackets fault t rest
termination_by (ps.length, 1)

/-- A type without brackets. -/
def readElement (fault : BuildError) (ps : List Piece) : Reading Ty ps :=
  match ps with
  | .question :: ps => .behind .question (readBound fault ps)
  | .word w :: ps =>
    .behind (.word w) <|
      match BasicTypeKind.ofKeyword? (String.ofList w) with
      | some k => .stop (.basic none k) ps
      | none =>
        .naming w fun s =>
          (readSegments fault (.simple s) ps).andThen fun n rest _ =>
            readParts fault (.named ⟨none, n⟩) rest
  | _ => .error fault
termination_by (ps.length, 0)

/-- What follows the `?` of a wildcard. -/
def readBound (fault : BuildError) (ps : List Piece) : Reading Ty ps :=
  match ps with
  | .word w :: ps =>
    match WildcardBoundKind.ofKeyword? (String.ofList w) with
    | some d =>
      .behind (.word w) <| (readType fault ps).andThen fun b rest _ =>
        .stop (.wildcard none d (some b)) rest
    | none => .stop (.wildcard none .unbound none) (.word w :: ps)
  | ps => .stop (.wildcard none .unbound none) ps
termination_by (ps.length, 0)

/-- The type arguments and members behind a type. -/
def readParts (fault : BuildError) (t : Ty) (ps : List Piece) : Reading Ty ps :=
  match ps with
  | .openAngle :: ps =>
    .behind .openAngle <| (readType fault ps).andThen fun first rest _ =>
      (readArguments fault rest).andThen fun others rest _ =>
        readParts fault (.parameterized none t first others) rest
  | .dot :: .word w :: ps =>
    .naming w fun s => .behind .dot (.behind (.word w) (readParts fault (.qualified none t s) ps))
  | .dot :: _ => .error fault
  | ps => .stop t ps
termination_by (ps.length, 0)

/-- The type arguments behind the first one, up to the closing bracket. -/
def readArguments (fault : BuildError) (ps : List Piece) : Reading (List Ty) ps :=
  match ps with
  | .comma :: ps =>
    .behind .comma <| (readType fault ps).andThen fun t rest _ =>
      (readArguments fault rest).andThen fun ts rest _ => .stop (t :: ts) rest
  | .closeAngle :: ps => .behind .closeAngle (.stop [] ps)
  | _ => .error fault
termination_by (ps.length, 0)

end

/-- Reads pieces as a type that takes all of them. -/
def ofPieces (fault : BuildError) (ps : List Piece) : Except BuildError Ty := do
  let (t, rest) ← readType fault ps
  if rest.pieces.isEmpty then return t else .error fault

/-- Reads a text as a type. -/
def read (text : String) : Except BuildError Ty :=
  match Piece.ofChars? text.toList with
  | none => .error (.unparsable text .type)
  | some ps => ofPieces (.unparsable text .type) ps

end Ty

end JavaSource
