/-
  AddonAudit.Text.Wildcard — shell wildcards over whole texts.

  A star stands for any characters, a question mark for one, brackets for one of a set.  A path
  separator is a character like any other.
-/
import AddonAudit.Text.Basic

namespace AddonAudit.Wildcard

/-! ## §1. Pieces -/

/-- Members of a set of characters: all from `first` to `last`. -/
structure Span where
  first : Char
  last : Char

/-- A set of characters. -/
structure CharSet where
  negated : Bool
  spans : List Span

def CharSet.holds (s : CharSet) (c : Char) : Bool :=
  (s.spans.any fun p => p.first ≤ c && c ≤ p.last) != s.negated

/-- A piece of a pattern. -/
inductive Piece where
  | run
  | one
  | char (c : Char)
  | oneOf (s : CharSet)

/-! ## §2. Sets in brackets -/

/-- A character in brackets, or the mark between the ends of a span. -/
inductive Mark where
  | char (c : Char)
  | to

/-- Cuts the text in brackets where a hyphen joins the ends of a span.  A hyphen counts from place
    `skip` on; the two characters after one that counted do not count. -/
def cutSpans (skip : Nat) (chunk : List Char) : List Char → List (List Char)
  | [] => [chunk.reverse]
  | c :: cs =>
    match skip with
    | skip + 1 => cutSpans skip (c :: chunk) cs
    | 0 => if c == '-' then chunk.reverse :: cutSpans 1 [] cs else cutSpans 0 (c :: chunk) cs

/-- A hyphen at the end is a member and no mark. -/
def closeLast : List (List Char) → List (List Char)
  | [chunk, []] => [chunk ++ ['-']]
  | chunk :: rest => chunk :: closeLast rest
  | [] => []

/-- Drops spans whose ends are in the wrong order, from the right. -/
def dropEmptySpans : List (List Char) → List (List Char)
  | [] => []
  | chunk :: rest =>
    match dropEmptySpans rest with
    | next :: more =>
      match chunk.getLast?, next.head? with
      | some a, some b =>
        if a > b then (chunk.dropLast ++ next.drop 1) :: more else chunk :: next :: more
      | _, _ => chunk :: next :: more
    | [] => [chunk]

/-- The marks of chunks: a mark stands between two chunks. -/
def marksOf : List (List Char) → List Mark
  | [] => []
  | [chunk] => chunk.map .char
  | chunk :: rest => chunk.map .char ++ .to :: marksOf rest

/-- The spans of marks; a mark with nothing before it is a hyphen. -/
def spansOf : List Mark → List Span
  | [] => []
  | .char a :: .to :: .char b :: rest => ⟨a, b⟩ :: spansOf rest
  | .char a :: rest => ⟨a, a⟩ :: spansOf rest
  | .to :: rest => ⟨'-', '-'⟩ :: spansOf rest

/-- The piece of a text in brackets; an exclamation mark in front negates the set. -/
def setPiece (inside : List Char) : Piece :=
  let skip := if inside.head? == some '!' then 2 else 1
  let chunks := if inside.contains '-' then dropEmptySpans (closeLast (cutSpans skip [] inside))
    else [inside]
  match marksOf chunks with
  | [.char '!'] => .one
  | .char '!' :: rest => .oneOf ⟨true, spansOf rest⟩
  | marks => .oneOf ⟨false, spansOf marks⟩

/-! ## §3. Reading a pattern -/

/-- The text up to the closing bracket, and what follows; the first character, after a negation, is
    never the closing bracket. -/
def bracketed? (cs : List Char) : Option (List Char × List Char) :=
  let lead := if cs.head? == some '!' then 1 else 0
  let lead := if (cs.drop lead).head? == some ']' then lead + 1 else lead
  let inside := cs.take lead ++ (cs.drop lead).takeWhile (· != ']')
  match cs.drop inside.length with
  | _ :: rest => some (inside, rest)
  | [] => none

/-- The pieces of a pattern; `fuel` bounds its length. -/
def piecesOf : (fuel : Nat) → List Char → List Piece
  | 0, _ => []
  | _ + 1, [] => []
  | fuel + 1, '*' :: cs => .run :: piecesOf fuel cs
  | fuel + 1, '?' :: cs => .one :: piecesOf fuel cs
  | fuel + 1, '[' :: cs =>
    match bracketed? cs with
    | some (inside, rest) => setPiece inside :: piecesOf fuel rest
    | none => .char '[' :: piecesOf fuel cs
  | fuel + 1, c :: cs => .char c :: piecesOf fuel cs

/-! ## §4. Matching -/

/-- Whether a piece stands for a character. -/
def Piece.accepts : Piece → Char → Bool
  | .run, _ => true
  | .one, _ => true
  | .char d, c => c == d
  | .oneOf s, c => s.holds c

/-- Whether pieces stand for a whole text. -/
def accept : List Piece → List Char → Bool
  | [], cs => cs.isEmpty
  | .run :: ps, [] => accept ps []
  | .run :: ps, c :: cs => accept ps (c :: cs) || accept (.run :: ps) cs
  | _ :: _, [] => false
  | p :: ps, c :: cs => p.accepts c && accept ps cs
termination_by ps cs => ps.length + cs.length

/-- Whether a pattern stands for a whole text. -/
def covers (pattern text : String) : Bool :=
  accept (piecesOf (pattern.length + 1) pattern.toList) text.toList

end AddonAudit.Wildcard
