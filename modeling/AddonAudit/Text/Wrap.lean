/-
  AddonAudit.Text.Wrap — breaking a paragraph into lines.

  A text is cut into chunks: blanks, words, and the parts of words with hyphens or dashes.  Lines
  take as many chunks as fit; a chunk that is too long for any line stands on one of its own.
-/
import AddonAudit.Text.Basic
import AddonAudit.Text.Digit
import AddonAudit.Text.Word

namespace AddonAudit.Text

/-! ## §1. Characters -/

/-- Blanks at which a text may be broken. -/
def isGap (c : Char) : Bool := [' ', '\t', '\n', '\x0b', '\x0c', '\r'].contains c

/-- Letters: word characters that are no digits. -/
def isLetter (c : Char) : Bool := isWord c && !isDecimal c

/-- Characters after which a dash may stand between words. -/
def isWordEnd (c : Char) : Bool := isWord c || ['!', '"', '\x27', '&', '.', ',', '?'].contains c

/-- Widens tabs to the next multiple of eight columns. -/
def expandTabs (column : Nat) : List Char → List Char
  | [] => []
  | '\t' :: cs => List.replicate (8 - column % 8) ' ' ++ expandTabs 0 cs
  | c :: cs => c :: expandTabs (if c == '\n' || c == '\r' then 0 else column + 1) cs

/-- The text with tabs widened and every gap as a space. -/
def spaced (cs : List Char) : List Char :=
  (expandTabs 0 cs).map fun c => if isGap c then ' ' else c

/-! ## §2. Chunks -/

/-- Whether a hyphen after these characters, the last one first, may end a chunk. -/
def hyphenMayEnd : List Char → Bool
  | a :: '-' :: b :: _ => isLetter a && isLetter b
  | a :: b :: _ => isLetter a && isLetter b
  | _ => false

/-- Whether the text goes on with two letters, with or without a hyphen between. -/
def goesOnWithLetters : List Char → Bool
  | a :: '-' :: b :: _ => isLetter a && isLetter b
  | a :: b :: _ => isLetter a && isLetter b
  | _ => false

/-- Whether the text goes on with a dash of two or more hyphens before a word; its length if so. -/
def dashBeforeWord? (cs : List Char) : Option Nat :=
  let n := (cs.takeWhile (· == '-')).length
  match cs.drop n with
  | c :: _ => if 2 ≤ n && isWord c then some n else none
  | [] => none

/-- The length of the word at the front of a text, with what stands before it, the last character
    first. -/
def wordLength (before : List Char) : List Char → Nat
  | [] => 0
  | c :: cs =>
    let before := c :: before
    match cs with
    | [] => 1
    | next :: after =>
      if next == '-' && hyphenMayEnd before && goesOnWithLetters after then 2
      else if isGap next then 1
      else if isWordEnd c && (dashBeforeWord? cs).isSome then 1
      else 1 + wordLength before cs

/-- The length of the chunk at the front of a text. -/
def chunkLength (before cs : List Char) : Nat :=
  match cs with
  | [] => 0
  | c :: _ =>
    if isGap c then (cs.takeWhile isGap).length
    else
      let dash := match before with
        | b :: _ => if isWordEnd b then dashBeforeWord? cs else none
        | [] => none
      dash.getD (wordLength before cs)

/-- The chunks of a text; `fuel` bounds its length. -/
def chunksFrom : (fuel : Nat) → (before text : List Char) → List (List Char)
  | 0, _, _ => []
  | _ + 1, _, [] => []
  | fuel + 1, before, cs =>
    let chunk := cs.take (max 1 (chunkLength before cs))
    chunk :: chunksFrom fuel (chunk.reverse ++ before) (cs.drop chunk.length)

def chunksOf (cs : List Char) : List (List Char) := chunksFrom (cs.length + 1) [] cs

/-! ## §3. Lines -/

/-- Takes chunks as long as they fit into a width. -/
def takeFitting (width : Nat) : List (List Char) → List (List Char) × List (List Char)
  | [] => ([], [])
  | chunk :: rest =>
    if chunk.length ≤ width then
      let (line, left) := takeFitting (width - chunk.length) rest
      (chunk :: line, left)
    else ([], chunk :: rest)

def isBlankChunk (chunk : List Char) : Bool := chunk.all isBlank

/-- Breaks chunks into lines of a width.  Blanks at the ends of lines are dropped if `trim` says so,
    except at the very beginning. -/
def breakLines (width : Nat) (trim : Bool) : (fuel : Nat) → (first : Bool) → List (List Char) →
    List (List Char)
  | 0, _, _ => []
  | _ + 1, _, [] => []
  | fuel + 1, first, chunk :: rest =>
    let chunks := if trim && !first && isBlankChunk chunk then rest else chunk :: rest
    let (line, left) := takeFitting width chunks
    let (line, left) := match line, left with
      | [], long :: left => ([long], left)
      | line, left => (line, left)
    let line := if trim && (line.getLast?.map isBlankChunk).getD false then line.dropLast else line
    if line.isEmpty then breakLines width trim fuel first left
    else line.flatten :: breakLines width trim fuel false left

/-- The lines of a paragraph that are at most `width` long with a text put before each. -/
def wrap (width : Nat) (indent : String) (trim : Bool) (text : String) : List String :=
  let chunks := chunksOf (spaced text.toList)
  (breakLines (width - indent.length) trim (chunks.length + 1) true chunks).map fun line =>
    indent ++ String.ofList line

end AddonAudit.Text
