/-
  AddonAudit.Text.Encoding — encodings of text files.

  Beside UTF-8 there are ASCII and the western one-byte encodings.  An encoding is known under many
  names; case and punctuation do not matter in a name.
-/
import AddonAudit.Text.Basic
import AddonAudit.Text.Utf8

namespace AddonAudit.Text

/-- An encoding of text. -/
inductive Encoding where
  | utf8
  | ascii
  | latin1
  | latin9
  | windows1252
  deriving DecidableEq

/-- Bytes that an encoding cannot read. -/
structure Undecodable where
  encoding : String
  start : Nat
  stop : Nat
  byte : UInt8
  reason : String
  /-- Whether more bytes could complete the text. -/
  cutShort : Bool := false

/-- A name with every run of punctuation as one underscore, in lower case. -/
def encodingKey (name : String) : String :=
  String.ofList (go false (name.toList.map Char.toLower))
where
  /-- Drops punctuation and remembers that there was some. -/
  go (pending : Bool) : List Char → List Char
    | [] => []
    | c :: cs =>
      if c.isAlphanum || c == '.' then
        if pending then '_' :: c :: go false cs else c :: go false cs
      else go true cs

def encodingNames : List (Encoding × List String) :=
  [(.utf8, ["utf_8", "utf8", "u8", "utf", "utf8_ucs2", "utf8_ucs4", "cp65001"]),
   (.ascii, ["ascii", "646", "ansi_x3.4_1968", "ansi_x3_4_1968", "ansi_x3.4_1986", "cp367",
   "csascii",
     "ibm367", "iso646_us", "iso_646.irv_1991", "iso_ir_6", "us", "us_ascii"]),
   (.latin1, ["latin_1", "iso8859_1", "8859", "cp819", "csisolatin1", "ibm819", "iso8859",
     "iso_8859_1", "iso_8859_1_1987", "iso_ir_100", "l1", "latin", "latin1"]),
   (.latin9, ["iso8859_15", "iso_8859_15", "latin9", "l9"]),
   (.windows1252, ["cp1252", "1252", "windows_1252"])]

def Encoding.ofName? (name : String) : Option Encoding :=
  (encodingNames.find? fun (_, names) => names.contains (encodingKey name)).map (·.1)

/-- Where the fifteenth part of the one-byte standard differs from the first. -/
def latin9Changes : List (Nat × Nat) :=
  [(0xa4, 0x20ac), (0xa6, 0x160), (0xa8, 0x161), (0xb4, 0x17d), (0xb8, 0x17e), (0xbc, 0x152),
   (0xbd, 0x153), (0xbe, 0x178)]

/-- The code points of the bytes from 0x80 to 0x9f in the Windows encoding; zero for none. -/
def windowsRow : List Nat :=
  [0x20ac, 0, 0x201a, 0x192, 0x201e, 0x2026, 0x2020, 0x2021, 0x2c6, 0x2030, 0x160, 0x2039, 0x152, 0,
    0x17d, 0,
   0, 0x2018, 0x2019, 0x201c, 0x201d, 0x2022, 0x2013, 0x2014, 0x2dc, 0x2122, 0x161, 0x203a, 0x153,
     0, 0x17e,
   0x178]

/-- The character of a byte in a one-byte encoding. -/
def Encoding.charOf? (e : Encoding) (b : UInt8) : Option Char :=
  let n := b.toNat
  match e with
  | .utf8 => none
  | .ascii => if n < 0x80 then some (Char.ofNat n) else none
  | .latin1 => some (Char.ofNat n)
  | .latin9 => some (Char.ofNat ((latin9Changes.lookup n).getD n))
  | .windows1252 =>
    if 0x80 ≤ n && n < 0xa0 then
      match windowsRow[n - 0x80]?.getD 0 with
      | 0 => none
      | c => some (Char.ofNat c)
    else some (Char.ofNat n)

/-- The name of the encoding in a fault, and the reason why a byte has no character. -/
def Encoding.noCharacter : Encoding → String × String
  | .ascii => ("ascii", "ordinal not in range(128)")
  | _ => ("charmap", "character maps to <undefined>")

def decodeBytes (e : Encoding) (position : Nat) : List UInt8 → Except Undecodable (List Char)
  | [] => .ok []
  | b :: bs =>
    match e.charOf? b with
    | some c => (decodeBytes e (position + 1) bs).map (c :: ·)
    | none => .error {
        encoding := e.noCharacter.1, start := position, stop := position + 1, byte := b
        reason := e.noCharacter.2 }

def Encoding.decode (e : Encoding) (bytes : List UInt8) : Except Undecodable (List Char) :=
  match e with
  | .utf8 => (decodeUtf8 bytes).mapError fun f => {
      encoding := "utf-8", start := f.start, stop := f.stop, byte := f.byte, reason :=
      f.reason.message
      cutShort := f.reason == .cutShort }
  | e => decodeBytes e 0 bytes

end AddonAudit.Text
