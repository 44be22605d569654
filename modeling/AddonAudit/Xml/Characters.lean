/-
  AddonAudit.Xml.Characters — the character classes of XML, and the encodings of its files.
-/
import AddonAudit.Text.Basic
import AddonAudit.Text.Utf8

namespace AddonAudit.Xml

/-! ## §1. Classes -/

/-- Characters that may stand in a document. -/
def isChar (c : Char) : Bool :=
  let n := c.toNat
  n == 9 || n == 10 || n == 13 || (32 ≤ n && n != 0xfffe && n != 0xffff)

def isSpace (c : Char) : Bool := c == ' ' || c == '\t' || c == '\n' || c == '\r'

/-- Characters that start a name without colons. -/
def isNameStart (c : Char) : Bool :=
  let n := c.toNat
  c.isAlpha || c == '_' || (0xc0 ≤ n && n ≤ 0xd6) || (0xd8 ≤ n && n ≤ 0xf6) ||
    (0xf8 ≤ n && n ≤ 0x2ff) || (0x370 ≤ n && n ≤ 0x37d) || (0x37f ≤ n && n ≤ 0x1fff) ||
    n == 0x200c || n == 0x200d || (0x2070 ≤ n && n ≤ 0x218f) || (0x2c00 ≤ n && n ≤ 0x2fef) ||
    (0x3001 ≤ n && n ≤ 0xd7ff) || (0xf900 ≤ n && n ≤ 0xfdcf) || (0xfdf0 ≤ n && n ≤ 0xfffd) ||
    (0x10000 ≤ n && n ≤ 0xeffff)

/-- Characters that go on a name without colons. -/
def isNameChar (c : Char) : Bool :=
  let n := c.toNat
  isNameStart c || c.isDigit || c == '-' || c == '.' || n == 0xb7 || (0x300 ≤ n && n ≤ 0x36f) ||
    n == 0x203f || n == 0x2040

/-! ## §2. Encodings -/

/-- The encodings of files. -/
inductive Encoding where
  | utf8
  | utf16 (bigEndian : Bool)
  | latin1
  | latin9
  | windows1252
  | ascii
  deriving DecidableEq

def encodingNames : List (String × Encoding) :=
  [("UTF-8", .utf8), ("UTF8", .utf8), ("ISO-8859-1", .latin1), ("ISO-LATIN-1", .latin1),
   ("ISO_8859-1", .latin1), ("ISO8859-1", .latin1), ("LATIN1", .latin1), ("LATIN-1", .latin1),
   ("L1", .latin1), ("ISO-8859-15", .latin9), ("ISO8859-15", .latin9), ("LATIN-9", .latin9),
   ("WINDOWS-1252", .windows1252), ("CP1252", .windows1252), ("ASCII", .ascii),
   ("US-ASCII", .ascii)]

def encodingOf? (name : String) : Option Encoding := encodingNames.lookup name.toUpper

/-- The characters of the bytes `0x80` to `0x9f` in windows-1252; some bytes have none. -/
def windowsHigh : List Nat :=
  [0x20ac, 0, 0x201a, 0x192, 0x201e, 0x2026, 0x2020, 0x2021, 0x2c6, 0x2030, 0x160, 0x2039, 0x152, 0,
   0x17d, 0, 0, 0x2018, 0x2019, 0x201c, 0x201d, 0x2022, 0x2013, 0x2014, 0x2dc, 0x2122, 0x161,
   0x203a, 0x153, 0, 0x17e, 0x178]

/-- The bytes of ISO-8859-15 that differ from ISO-8859-1. -/
def latin9Changes : List (Nat × Nat) :=
  [(0xa4, 0x20ac), (0xa6, 0x160), (0xa8, 0x161), (0xb4, 0x17d), (0xb8, 0x17e), (0xbc, 0x152),
   (0xbd, 0x153), (0xbe, 0x178)]

/-- The character of a byte in a single-byte encoding. -/
def byteChar? (encoding : Encoding) (b : UInt8) : Option Char :=
  let n := b.toNat
  match encoding with
  | .latin1 => some (Char.ofNat n)
  | .latin9 => some (Char.ofNat ((latin9Changes.lookup n).getD n))
  | .windows1252 =>
    if 0x80 ≤ n && n < 0xa0 then
      match windowsHigh[n - 0x80]? with
      | some 0 => none
      | some m => some (Char.ofNat m)
      | none => none
    else some (Char.ofNat n)
  | _ => if n < 0x80 then some (Char.ofNat n) else none

/-- The code units of two-byte encodings. -/
def codeUnits? (bigEndian : Bool) : List UInt8 → Option (List Nat)
  | [] => some []
  | [_] => none
  | a :: b :: rest =>
    let n := if bigEndian then a.toNat * 256 + b.toNat else b.toNat * 256 + a.toNat
    (codeUnits? bigEndian rest).map (n :: ·)

def unitChars? : List Nat → Option (List Char)
  | [] => some []
  | n :: rest =>
    if 0xd800 ≤ n && n < 0xdc00 then
      match rest with
      | m :: rest =>
        if 0xdc00 ≤ m && m < 0xe000 then
          (unitChars? rest).map (Char.ofNat (0x10000 + (n - 0xd800) * 0x400 + (m - 0xdc00)) :: ·)
        else none
      | [] => none
    else if 0xdc00 ≤ n && n < 0xe000 then none
    else (unitChars? rest).map (Char.ofNat n :: ·)

def decodeAs? (encoding : Encoding) (bytes : List UInt8) : Option (List Char) :=
  match encoding with
  | .utf8 =>
    match Text.decodeUtf8 bytes with
    | .ok cs => some cs
    | .error _ => none
  | .utf16 bigEndian => (codeUnits? bigEndian bytes).bind unitChars?
  | e => bytes.mapM (byteChar? e)

/-! ## §3. Detection -/

/-- What the first bytes of a file tell about its encoding, with the bytes after a mark. -/
def detect (bytes : List UInt8) : Option Encoding × List UInt8 :=
  match bytes with
  | 0xef :: 0xbb :: 0xbf :: rest => (some .utf8, rest)
  | 0xfe :: 0xff :: rest => (some (.utf16 true), rest)
  | 0xff :: 0xfe :: rest => (some (.utf16 false), rest)
  | 0x3c :: 0 :: 0x3f :: 0 :: _ => (some (.utf16 false), bytes)
  | 0 :: 0x3c :: 0 :: 0x3f :: _ => (some (.utf16 true), bytes)
  | _ => (none, bytes)

end AddonAudit.Xml
