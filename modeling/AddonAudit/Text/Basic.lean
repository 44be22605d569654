/-
  AddonAudit.Text.Basic — trimming, searching, splitting and replacing in texts.

  The operations work on lists of characters, which is the view the rest of the library reasons
  about; the versions on `String` only change the representation.
-/

namespace AddonAudit.Text

/-! ## §1. Blanks and trimming -/

/-- White space of every script, the ASCII separators `\x1c` to `\x1f` included. -/
def isBlank (c : Char) : Bool :=
  let n := c.toNat
  n == 32 || (9 ≤ n && n ≤ 13) || (28 ≤ n && n ≤ 31) || n == 0x85 || n == 0xa0 || n == 0x1680 ||
    (0x2000 ≤ n && n ≤ 0x200a) || n == 0x2028 || n == 0x2029 || n == 0x202f || n == 0x205f ||
    n == 0x3000

/-- Drops the longest tail of characters in the class. -/
def dropTailWhile (p : Char → Bool) (cs : List Char) : List Char :=
  (cs.reverse.dropWhile p).reverse

def stripChars (cs : List Char) : List Char := dropTailWhile isBlank (cs.dropWhile isBlank)

/-- Drops blanks at both ends. -/
def strip (s : String) : String := String.ofList (stripChars s.toList)

def dropLeading (p : Char → Bool) (s : String) : String := String.ofList (s.toList.dropWhile p)

/-- Drops trailing characters of the class. -/
def dropTrailing (p : Char → Bool) (s : String) : String := String.ofList (dropTailWhile p s.toList)

/-! ## §2. Searching and replacing -/

/-- What follows `front` when the text starts with it. -/
def afterFront? : (front text : List Char) → Option (List Char)
  | [], text => some text
  | _ :: _, [] => none
  | f :: front, c :: text => if f == c then afterFront? front text else none

/-- The text before the first occurrence of `part`, and the text after it. -/
def cutFirst? (part : List Char) : List Char → Option (List Char × List Char)
  | [] => if part.isEmpty then some ([], []) else none
  | c :: text =>
    match afterFront? part (c :: text) with
    | some rest => some ([], rest)
    | none => (cutFirst? part text).map fun (a, b) => (c :: a, b)

def occurs (part text : List Char) : Bool := (cutFirst? part text).isSome

def contains (s part : String) : Bool := occurs part.toList s.toList

/-- Replaces the occurrences of a non-empty `part` from left to right; `fuel` bounds their
    number. -/
def replaceCount (fuel : Nat) (part by_ : List Char) (text : List Char) : List Char :=
  match fuel with
  | 0 => text
  | fuel + 1 =>
    match cutFirst? part text with
    | some (a, rest) => a ++ by_ ++ replaceCount fuel part by_ rest
    | none => text

/-- Puts `by_` before every character and at the end. -/
def interleave (by_ : List Char) : List Char → List Char
  | [] => by_
  | c :: cs => by_ ++ c :: interleave by_ cs

/-- Replaces every occurrence of `part`; an empty `part` occurs between any two characters. -/
def replaceChars (part by_ text : List Char) : List Char :=
  if part.isEmpty then interleave by_ text else replaceCount (text.length + 1) part by_ text

/-- Replaces every occurrence of `part` in `s`. -/
def replace (s part by_ : String) : String :=
  String.ofList (replaceChars part.toList by_.toList s.toList)

def startsWith (s front : String) : Bool := front.toList.isPrefixOf s.toList

def endsWith (s tail : String) : Bool := tail.toList.isSuffixOf s.toList

def take (s : String) (n : Nat) : String := String.ofList (s.toList.take n)

def drop (s : String) (n : Nat) : String := String.ofList (s.toList.drop n)

def times (s : String) (n : Nat) : String := String.join (List.replicate n s)

def padRight (s : String) (width : Nat) : String := s ++ times " " (width - s.length)

def padLeft (s : String) (width : Nat) : String := times " " (width - s.length) ++ s

/-! ## §3. Splitting -/

/-- Splits at every character of the class; there is always one more piece than separators. -/
def splitWhere (p : Char → Bool) : List Char → List (List Char)
  | [] => [[]]
  | c :: cs =>
    if p c then [] :: splitWhere p cs
    else match splitWhere p cs with
      | piece :: rest => (c :: piece) :: rest
      | [] => [[c]]

/-- Splits at every occurrence of one character. -/
def splitAt (sep : Char) (s : String) : List String :=
  (splitWhere (· == sep) s.toList).map String.ofList

/-- The pieces between blanks, none of them empty. -/
def wordsOf (s : String) : List String :=
  ((splitWhere isBlank s.toList).filter (!·.isEmpty)).map String.ofList

/-- The text before the last occurrence of a character and the text after it. -/
def cutLast? (sep : Char) (cs : List Char) : Option (List Char × List Char) :=
  let tail := (cs.reverse.takeWhile (· != sep)).reverse
  if tail.length < cs.length then some (cs.take (cs.length - tail.length - 1), tail) else none

/-! ## §4. Lines -/

/-- Line ends of every kind become a single line feed. -/
def unifyNewlines : List Char → List Char
  | '\r' :: '\n' :: cs => '\n' :: unifyNewlines cs
  | '\r' :: cs => '\n' :: unifyNewlines cs
  | c :: cs => c :: unifyNewlines cs
  | [] => []

/-- Characters that end a line when a text is cut into lines. -/
def isLineBreak (c : Char) : Bool :=
  let n := c.toNat
  (10 ≤ n && n ≤ 13) || (28 ≤ n && n ≤ 30) || n == 0x85 || n == 0x2028 || n == 0x2029

/-- Lines without their ends; a final line end opens no further line. -/
def linesOfChars (cs : List Char) : List (List Char) := go [] cs
where
  go (line : List Char) : List Char → List (List Char)
    | [] => if line.isEmpty then [] else [line.reverse]
    | '\r' :: '\n' :: cs => line.reverse :: go [] cs
    | c :: cs => if isLineBreak c then line.reverse :: go [] cs else go (c :: line) cs

def linesOf (s : String) : List String := (linesOfChars s.toList).map String.ofList

/-- Lines with their line feed, as a text file is read line by line. -/
def feedLines (cs : List Char) : List (List Char) := go [] cs
where
  go (line : List Char) : List Char → List (List Char)
    | [] => if line.isEmpty then [] else [line.reverse]
    | c :: cs => if c == '\n' then (c :: line).reverse :: go [] cs else go (c :: line) cs

/-- Texts in order without repetition. -/
def sortedSet (xs : List String) : List String :=
  (xs.mergeSort fun a b => decide (a ≤ b)).eraseDups

end AddonAudit.Text
