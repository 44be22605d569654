/-
  AddonAudit.Text.Utf8 — strict reading of UTF-8.

  A fault names the first byte of the sequence that cannot be read and says why: the byte starts no
  sequence, a following byte does not continue it, or the data ends inside it.
-/

namespace AddonAudit.Text

/-- Why bytes are not UTF-8. -/
inductive Utf8Reason where
  /-- The byte cannot start a sequence. -/
  | badStart
  /-- A following byte does not continue the sequence. -/
  | badContinuation
  /-- The data ends inside a sequence. -/
  | cutShort
  deriving DecidableEq

/-- The bytes from `start` up to `stop` cannot be read. -/
structure Utf8Fault where
  start : Nat
  stop : Nat
  byte : UInt8
  reason : Utf8Reason

def Utf8Reason.message : Utf8Reason → String
  | .badStart => "invalid start byte"
  | .badContinuation => "invalid continuation byte"
  | .cutShort => "unexpected end of data"

/-- The first continuation byte that may follow a start byte: overlong forms and surrogates are
    out. -/
def secondRange (b : UInt8) : UInt8 × UInt8 :=
  if b == 0xe0 then (0xa0, 0xbf)
  else if b == 0xed then (0x80, 0x9f)
  else if b == 0xf0 then (0x90, 0xbf)
  else if b == 0xf4 then (0x80, 0x8f)
  else (0x80, 0xbf)

/-- How many bytes follow a start byte. -/
def continuationCount? (b : UInt8) : Option Nat :=
  if b < 0x80 then some 0
  else if 0xc2 ≤ b && b ≤ 0xdf then some 1
  else if 0xe0 ≤ b && b ≤ 0xef then some 2
  else if 0xf0 ≤ b && b ≤ 0xf4 then some 3
  else none

/-- Payload of a start byte with `n` following bytes. -/
def startPayload (b : UInt8) : Nat → Nat
  | 0 => b.toNat
  | 1 => b.toNat % 32
  | 2 => b.toNat % 16
  | _ => b.toNat % 8

/-- What a sequence reads as. -/
inductive Utf8Step where
  | char (c : Char)
  /-- A fault after `good` readable continuation bytes. -/
  | fault (good : Nat) (reason : Utf8Reason)

/-- Reads the continuation bytes after a start byte; `k` of `n` are already read. -/
def readContinuations (b : UInt8) (n k code : Nat) (bs : List UInt8) : Utf8Step :=
  if k < n then
    match bs with
    | [] => .fault k .cutShort
    | c :: rest =>
      let (lo, hi) := if k == 0 then secondRange b else (0x80, 0xbf)
      if lo ≤ c && c ≤ hi then readContinuations b n (k + 1) (code * 64 + c.toNat % 64) rest
      else .fault k .badContinuation
  else .char (Char.ofNat code)
termination_by n - k

def decodeUtf8 (bytes : List UInt8) : Except Utf8Fault (List Char) := go 0 0 bytes []
where
  go (pos skip : Nat) : List UInt8 → List Char → Except Utf8Fault (List Char)
    | [], acc => .ok acc.reverse
    | b :: bs, acc =>
      match skip with
      | skip + 1 => go (pos + 1) skip bs acc
      | 0 =>
        match continuationCount? b with
        | none => .error ⟨pos, pos + 1, b, .badStart⟩
        | some n =>
          match readContinuations b n 0 (startPayload b n) bs with
          | .char c => go (pos + 1) n bs (c :: acc)
          | .fault good reason => .error ⟨pos, pos + 1 + good, b, reason⟩

end AddonAudit.Text
