/-
  AddonAudit.Yaml.Value — the data that YAML texts hold.
-/
import AddonAudit.Yaml.Node
import AddonAudit.Yaml.Scalar

namespace AddonAudit.Yaml

/-! ## §1. Merged mappings -/

def standard (name : String) : String := "tag:yaml.org,2002:" ++ name

/-- Whether a node is the key that merges another mapping into this one. -/
def isMergeKey : Node → Bool
  | .scalar .byForm text => formOf text == .merge
  | .scalar (.tagged t) _ => t == standard "merge"
  | _ => false

/-- A key as it counts in a mapping: an equals sign on its own is a text. -/
def plainKey : Node → Node
  | .scalar .byForm "=" => .scalar .text "="
  | n => n

mutual
/-- The entries that a merge key brings in: those of a mapping, or of several, the last ones
    first. -/
def mergedFrom : Node → Except Problem (List (Node × Node))
  | .mapping _ entries => flatten entries
  | .sequence _ items => mergedItems items
  | .scalar _ _ => .error .malformed

/-- The entries of mappings in reverse order of the mappings. -/
def mergedItems : List Node → Except Problem (List (Node × Node))
  | [] => .ok []
  | .mapping _ entries :: rest => do
    let own ← flatten entries
    return (← mergedItems rest) ++ own
  | _ :: _ => .error .malformed

/-- The entries of a mapping: merged ones come first. -/
def flatten (entries : List (Node × Node)) : Except Problem (List (Node × Node)) := do
  return (← merged entries) ++ (entries.filter fun e => !isMergeKey e.1).map fun e =>
    (plainKey e.1, e.2)

/-- The entries that the merge keys of a mapping bring in. -/
def merged : List (Node × Node) → Except Problem (List (Node × Node))
  | [] => .ok []
  | (k, v) :: rest => do
    let own ← if isMergeKey k then mergedFrom v else .ok []
    return own ++ (← merged rest)
end

/-! ## §2. Scalars -/

/-- A value that may be out of range. -/
def checked (x : Except Fault Datum) : Except Problem Datum := x.mapError .fault

/-- The bytes of a scalar in base sixty-four, which is all ASCII. -/
def binaryOf (text : String) : Except Problem Datum :=
  if text.toList.any (0x7f < ·.toNat) then .error .malformed
  else match bytesOf? 0 0 0 text.toList with
    | some bs => .ok (.bytes bs)
    | none => .error .malformed

def formValue (text : String) : Except Problem Datum :=
  match formOf text with
  | .truth => checked (truthOf text)
  | .real => checked (realOf text)
  | .whole => checked (wholeOf text)
  | .nothing => .ok .null
  | .date => checked (dateOf text)
  | .text => .ok (.text text)
  | .merge => .error .malformed
  | .equals => .error .malformed

def taggedValue (tag text : String) : Except Problem Datum :=
  if tag == standard "str" then .ok (.text text)
  else if tag == standard "null" then .ok .null
  else if tag == standard "bool" then checked (truthOf text)
  else if tag == standard "int" then checked (wholeOf text)
  else if tag == standard "float" then checked (realOf text)
  else if tag == standard "timestamp" then checked (dateOf text)
  else if tag == standard "binary" then binaryOf text
  else .error .malformed

def scalarValue : Kind → String → Except Problem Datum
  | .byForm, text => formValue text
  | .text, text => .ok (.text text)
  | .tagged tag, text => taggedValue tag text

/-! ## §3. Data from nodes -/

/-- Adds an entry to a table; the key has to be one that can be compared. -/
def addEntry (k v : Datum) (before : List (Datum × Datum)) :
    Except Problem (List (Datum × Datum)) :=
  if k.unhashable?.isSome then .error .malformed else .ok (Datum.insert k v before)

/-- The only entry of a mapping, as a pair. -/
def onlyPair : List (Datum × Datum) → Except Problem Datum
  | [(k, v)] => .ok (.tuple [k, v])
  | _ => .error .malformed

mutual
/-- The datum of a node; `fuel` bounds the depth. -/
def valueOf : (fuel : Nat) → Node → Except Problem Datum
  | 0, _ => .error .malformed
  | _ + 1, .scalar kind text => scalarValue kind text
  | fuel + 1, .sequence tag items =>
    match tag with
    | none => do return .list (← valuesOf fuel items)
    | some t =>
      if t == standard "seq" then do return .list (← valuesOf fuel items)
      else if t == standard "omap" || t == standard "pairs" then do
        return .list (← pairsOf fuel items)
      else .error .malformed
  | fuel + 1, .mapping tag entries =>
    match tag with
    | none => do return .table (← entriesOf fuel [] (← flatten entries))
    | some t =>
      if t == standard "map" then do return .table (← entriesOf fuel [] (← flatten entries))
      else if t == standard "set" then do
        return .set ((← entriesOf fuel [] (← flatten entries)).map (·.1))
      else .error .malformed

def valuesOf : (fuel : Nat) → List Node → Except Problem (List Datum)
  | 0, _ => .error .malformed
  | _ + 1, [] => .ok []
  | fuel + 1, n :: ns => do
    let d ← valueOf fuel n
    return d :: (← valuesOf fuel ns)

/-- The pairs of an ordered mapping: each is a mapping with one entry. -/
def pairsOf : (fuel : Nat) → List Node → Except Problem (List Datum)
  | 0, _ => .error .malformed
  | _ + 1, [] => .ok []
  | fuel + 1, .mapping _ [(k, v)] :: ns => do
    let key ← valueOf fuel k
    let value ← valueOf fuel v
    return .tuple [key, value] :: (← pairsOf fuel ns)
  | _ + 1, _ :: _ => .error .malformed

/-- The entries of a table, one after another. -/
def entriesOf : (fuel : Nat) → List (Datum × Datum) → List (Node × Node) →
    Except Problem (List (Datum × Datum))
  | 0, _, _ => .error .malformed
  | _ + 1, before, [] => .ok before
  | fuel + 1, before, (k, v) :: rest => do
    let key ← valueOf fuel k
    if key.unhashable?.isSome then throw .malformed
    let value ← valueOf fuel v
    entriesOf fuel (← addEntry key value before) rest
end

/-- Bounds the depth and length of documents. -/
def valueFuel (text : List Char) : Nat := 2 * text.length + 4

/-- The datum of a text that holds at most one document. -/
def load (text : String) : Except Problem Datum := do
  match ← read text.toList with
  | none => return .null
  | some n => valueOf (valueFuel text.toList) n

end AddonAudit.Yaml
