/-
  AddonAudit.Release.Version — release versions of the framework.

  A version is canonical when it is one of the supported ones or of the form `N.0` with `N` at least
  the first supported major number.  `normalize` brings any text into canonical form.
-/
import AddonAudit.Datum
import AddonAudit.Decimal.Whole
import AddonAudit.Text.Case

namespace AddonAudit.Release

/-! ## §1. The supported versions -/

/-- The versions that are supported by name. -/
def supported : List String := ["17.0", "18.0", "19.0"]

/-- The smallest major number of later versions. -/
def firstMajor : Nat := 17

/-- The version to use when nothing says otherwise. -/
def fallback : String := "17.0"

/-! ## §2. Normal form -/

/-- Lower case, no blanks around, no leading `v`; a bare number gets `.0`. -/
def clean (version : String) : String :=
  let s := Text.dropLeading (· == 'v') (Text.strip (Text.lower version))
  if s != "" && s.toList.all Text.isDigitLike then s ++ ".0" else s

/-- The digits before a final `.0`, when there is nothing else. -/
def majorDigits? (version : String) : Option (List Nat) :=
  let cs := version.toList
  let digits := cs.takeWhile Text.isDecimal
  if digits.isEmpty || cs.drop digits.length != ".0".toList then none
  else some (digits.filterMap Text.decimalValue?)

def tooLong (digits : List Nat) : Except Fault Unit :=
  if Decimal.maxDigits < digits.length then .error (.tooManyDigits digits.length) else .ok ()

/-- The canonical form of a version: itself, the first supported version that it starts, a later
    version, or the fallback. -/
def normalize (version : String) : Except Fault String :=
  let v := clean version
  if supported.contains v then .ok v
  else match supported.find? (Text.startsWith · v) with
    | some s => .ok s
    | none =>
      match majorDigits? v with
      | none => .ok fallback
      | some ds => do
        tooLong ds
        return if firstMajor ≤ Decimal.valueOfDigits ds then v else fallback

/-- The canonical form of a version in loosely typed data. -/
def normalizeDatum : Datum → Except Fault String
  | .text s => normalize s
  | .bytes _ => .error .bytesNeeded
  | d => .error (.noOperation d.kind "lower")

/-- Whether the canonical form of a version is supported by name. -/
def isSupported (version : Datum) : Except Fault Bool := do
  return supported.contains (← normalizeDatum version)

/-! ## §3. Versions in manifests -/

/-- The first two parts of a manifest version, when they name a version that can be used. -/
def ofManifestText (version : String) : Option String :=
  match Text.splitAt '.' version with
  | major :: minor :: _ =>
    let v := major ++ "." ++ minor
    if supported.contains v then some v
    else match Decimal.readWhole major with
      | .ok n => if (firstMajor : Int) ≤ n && minor == "0" then some v else none
      | .error _ => none
  | _ => none

def ofManifestEntry (entry : Option Datum) : Except Fault (Option String) :=
  match entry with
  | none => .ok none
  | some d =>
    if !d.truthy then .ok none
    else match d with
      | .text s => .ok (ofManifestText s)
      | .bytes _ => .error .bytesNeeded
      | d => .error (.noOperation d.kind "split")

/-! ## §4. What depends on a version -/

/-- Features with the version that gave them up. -/
def deprecations : List (String × String) :=
  [("active_id_context", "17.0"), ("t_raw_directive", "17.0"), ("tree_string_attribute", "17.0"),
   ("tree_colors_attribute", "17.0"), ("tree_fonts_attribute", "17.0"),
   ("openerp_xml_node", "17.0"),
   ("data_node_wrapper", "17.0")]

/-- Whether a version gave up a feature; versions are compared as texts. -/
def deprecated (feature version : String) : Bool :=
  match deprecations.lookup feature with
  | some since => since ≤ version
  | none => false

/-- Models that give another model a message thread, the same in every version. -/
def mailMixins : List String :=
  ["mail.thread", "mail.activity.mixin", "mail.thread.main.attachment", "mail.thread.cc",
   "mail.thread.blacklist"]

/-- The Python version that a version needs at least. -/
def pythonVersion (version : String) : String :=
  if version == "16.0" || version == "17.0" then "3.10"
  else if version == "18.0" then "3.11"
  else "3.12"

end AddonAudit.Release
