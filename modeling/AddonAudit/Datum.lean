/-
  AddonAudit.Datum — loosely typed data: what settings files, manifests and literals hold.

  A datum is a scalar, a sequence, a set or a table.  Tables and sets keep the order in which their
  entries were first met; two keys are the same when they are equal as numbers or texts, whatever
  their kind (`1`, `1.0` and `true` are one key).
-/
import AddonAudit.Decimal.Reading
import AddonAudit.Decimal.Shortest
import AddonAudit.Fault

namespace AddonAudit

/-! ## §1. The type and its kinds -/

/-- A point in time, with its distance from universal time in minutes if that is known. -/
structure Moment where
  year : Nat
  month : Nat
  day : Nat
  hour : Nat
  minute : Nat
  second : Nat
  micro : Nat
  offset : Option Int
  deriving DecidableEq

/-- Loosely typed data. -/
inductive Datum where
  | null
  | bool (b : Bool)
  | int (i : Int)
  | float (x : Float)
  /-- A complex number by its real and imaginary parts. -/
  | complex (re im : Float)
  | text (s : String)
  | bytes (bs : List UInt8)
  | ellipsis
  | list (items : List Datum)
  | tuple (items : List Datum)
  | set (items : List Datum)
  | table (entries : List (Datum × Datum))
  | date (year month day : Nat)
  | moment (m : Moment)

instance : Inhabited Datum := ⟨.null⟩

/-- The name of a datum's kind, as messages show it. -/
def Datum.kind : Datum → String
  | .null => "NoneType"
  | .bool _ => "bool"
  | .int _ => "int"
  | .float _ => "float"
  | .complex _ _ => "complex"
  | .text _ => "str"
  | .bytes _ => "bytes"
  | .ellipsis => "ellipsis"
  | .list _ => "list"
  | .tuple _ => "tuple"
  | .set _ => "set"
  | .table _ => "dict"
  | .date _ _ _ => "datetime.date"
  | .moment _ => "datetime.datetime"

/-- The name of a kind without the family that it belongs to. -/
def Datum.shortKind (d : Datum) : String := (Text.splitAt '.' d.kind).getLastD ""

/-! ## §2. Equality and hashability -/

/-- A whole number equals a double when the double holds exactly that number. -/
def intEqFloat (i : Int) (x : Float) : Bool :=
  match Decimal.Binary.ofFloat x with
  | .finite negative m e =>
    let r := Decimal.Ratio.scaled m e
    (if negative then -(r.num : Int) else (r.num : Int)) == i * r.den
  | _ => false

/-- Numbers compare by value across kinds. -/
def Datum.number? : Datum → Option (Sum Int (Float × Float))
  | .bool b => some (.inl (if b then 1 else 0))
  | .int i => some (.inl i)
  | .float x => some (.inr (x, 0))
  | .complex re im => some (.inr (re, im))
  | _ => none

def numbersEq : Sum Int (Float × Float) → Sum Int (Float × Float) → Bool
  | .inl a, .inl b => a == b
  | .inl a, .inr (re, im) => im == 0 && intEqFloat a re
  | .inr (re, im), .inl b => im == 0 && intEqFloat b re
  | .inr (a, b), .inr (c, d) => a == c && b == d

mutual
/-- Equality of data: numbers by value, sequences by items, sets and tables without regard to
    order. -/
def Datum.same : Datum → Datum → Bool
  | .null, .null => true
  | .text a, .text b => a == b
  | .bytes a, .bytes b => a == b
  | .ellipsis, .ellipsis => true
  | .date y m d, .date y' m' d' => y == y' && m == m' && d == d'
  | .moment a, .moment b => a == b
  | .list a, .list b => Datum.sameItems a b
  | .tuple a, .tuple b => Datum.sameItems a b
  | .set a, .set b => a.length == b.length && Datum.allIn a b
  | .table a, .table b => a.length == b.length && Datum.entriesIn a b
  | a, b =>
    match a.number?, b.number? with
    | some x, some y => numbersEq x y
    | _, _ => false

def Datum.sameItems : List Datum → List Datum → Bool
  | [], [] => true
  | a :: as, b :: bs => Datum.same a b && Datum.sameItems as bs
  | _, _ => false

/-- Every item of the first list occurs in the second. -/
def Datum.allIn : List Datum → List Datum → Bool
  | [], _ => true
  | a :: as, bs => bs.any (Datum.same a) && Datum.allIn as bs

/-- Every entry of the first table has an equal entry in the second. -/
def Datum.entriesIn : List (Datum × Datum) → List (Datum × Datum) → Bool
  | [], _ => true
  | (k, v) :: as, bs =>
    bs.any (fun e => Datum.same k e.1 && Datum.same v e.2) && Datum.entriesIn as bs
end

instance : BEq Datum := ⟨Datum.same⟩

mutual
/-- The kind of the first part that cannot be a key, if there is one. -/
def Datum.unhashable? : Datum → Option String
  | .list _ => some "list"
  | .set _ => some "set"
  | .table _ => some "dict"
  | .tuple items => Datum.firstUnhashable? items
  | _ => none

/-- The first item of a list that cannot be a key. -/
def Datum.firstUnhashable? : List Datum → Option String
  | [] => none
  | a :: as => (Datum.unhashable? a).or (Datum.firstUnhashable? as)
end

/-! ## §3. Truth -/

/-- Empty, zero and absent data are false. -/
def Datum.truthy : Datum → Bool
  | .null => false
  | .bool b => b
  | .int i => i != 0
  | .float x => !(x == 0)
  | .complex re im => !(re == 0 && im == 0)
  | .text s => !s.isEmpty
  | .bytes bs => !bs.isEmpty
  | .list xs => !xs.isEmpty
  | .tuple xs => !xs.isEmpty
  | .set xs => !xs.isEmpty
  | .table es => !es.isEmpty
  | .ellipsis => true
  | .date _ _ _ => true
  | .moment _ => true

/-! ## §4. Written form -/

/-- A double inside a complex number: a whole number drops its point. -/
def complexPart (x : Float) : String :=
  let s := Decimal.shortest x
  if s.endsWith ".0" then String.ofList (s.toList.take (s.length - 2)) else s

/-- A complex number; the real part is left out when it is a positive zero. -/
def complexText (re im : Float) : String :=
  if re.toBits == 0 then complexPart im ++ "j"
  else
    let s := complexPart im
    "(" ++ complexPart re ++ (if s.startsWith "-" then "" else "+") ++ s ++ "j)"

/-- A number with at least `width` digits. -/
def paddedNat (width n : Nat) : String :=
  let s := toString n
  Text.times "0" (width - s.length) ++ s

/-- A distance in minutes as hours and minutes with a sign. -/
def offsetText (minutes : Int) : String :=
  (if minutes < 0 then "-" else "+") ++ paddedNat 2 (minutes.natAbs / 60) ++ ":" ++
    paddedNat 2 (minutes.natAbs % 60)

/-- A distance in minutes in its written form: whole days first, which may be negative. -/
def offsetWritten (minutes : Int) : String :=
  if minutes == 0 then "datetime.timezone.utc"
  else
    let days := minutes.fdiv 1440
    let seconds := (minutes - days * 1440) * 60
    let parts := (if days == 0 then [] else ["days=" ++ toString days]) ++
      (if seconds == 0 then [] else ["seconds=" ++ toString seconds])
    "datetime.timezone(datetime.timedelta(" ++ ", ".intercalate parts ++ "))"

/-- The written form of a point in time. -/
def Moment.written (m : Moment) : String :=
  let time := [m.hour, m.minute] ++
    (if m.second == 0 && m.micro == 0 then [] else [m.second]) ++
    (if m.micro == 0 then [] else [m.micro])
  "datetime.datetime(" ++
    ", ".intercalate (([m.year, m.month, m.day] ++ time).map toString ++
      (match m.offset with
        | some o => ["tzinfo=" ++ offsetWritten o]
        | none => [])) ++ ")"

def dateText (year month day : Nat) : String :=
  paddedNat 4 year ++ "-" ++ paddedNat 2 month ++ "-" ++ paddedNat 2 day

/-- The form in which a point in time stands inside a message. -/
def Moment.shown (m : Moment) : String :=
  dateText m.year m.month m.day ++ " " ++ paddedNat 2 m.hour ++ ":" ++ paddedNat 2 m.minute ++
    ":" ++ paddedNat 2 m.second ++ (if m.micro == 0 then "" else "." ++ paddedNat 6 m.micro) ++
    (match m.offset with
      | some o => offsetText o
      | none => "")

mutual
/-- The written form of a datum, with texts in quotes. -/
def Datum.written : Datum → String
  | .null => "None"
  | .bool b => if b then "True" else "False"
  | .int i => toString i
  | .float x => Decimal.shortest x
  | .complex re im => complexText re im
  | .text s => Text.quoted s
  | .bytes bs => Text.quotedBytes bs
  | .ellipsis => "Ellipsis"
  | .list xs => "[" ++ ", ".intercalate (Datum.writtenItems xs) ++ "]"
  | .tuple [x] => "(" ++ Datum.written x ++ ",)"
  | .tuple xs => "(" ++ ", ".intercalate (Datum.writtenItems xs) ++ ")"
  | .set [] => "set()"
  | .set xs => "\x7b" ++ ", ".intercalate (Datum.writtenItems xs) ++ "\x7d"
  | .table es => "\x7b" ++ ", ".intercalate (Datum.writtenEntries es) ++ "\x7d"
  | .date y m d => "datetime.date(" ++ ", ".intercalate [toString y, toString m, toString d] ++ ")"
  | .moment m => m.written

def Datum.writtenItems : List Datum → List String
  | [] => []
  | x :: xs => Datum.written x :: Datum.writtenItems xs

def Datum.writtenEntries : List (Datum × Datum) → List String
  | [] => []
  | (k, v) :: es => (Datum.written k ++ ": " ++ Datum.written v) :: Datum.writtenEntries es
end

/-- The form in which a datum stands inside a message: texts and dates as they are, all else as
    written. -/
def Datum.shown : Datum → String
  | .text s => s
  | .date y m d => dateText y m d
  | .moment m => m.shown
  | d => d.written

/-! ## §5. Tables and sets -/

/-- The value of a key. -/
def Datum.lookup (key : Datum) : List (Datum × Datum) → Option Datum
  | [] => none
  | (k, v) :: es => if k.same key then some v else lookup key es

/-- The value of a key that is a text. -/
def Datum.lookupText (key : String) (es : List (Datum × Datum)) : Option Datum :=
  Datum.lookup (.text key) es

/-- Sets a key: a known key keeps its place and its first spelling, a new one goes to the end. -/
def Datum.insert (key value : Datum) : List (Datum × Datum) → List (Datum × Datum)
  | [] => [(key, value)]
  | (k, v) :: es => if k.same key then (k, value) :: es else (k, v) :: insert key value es

/-- Adds a member to a set, at the end unless it is already there. -/
def Datum.addMember (x : Datum) (xs : List Datum) : List Datum :=
  if xs.any (·.same x) then xs else xs ++ [x]

/-- Whether a text is a member. -/
def Datum.hasText (xs : List Datum) (s : String) : Bool := xs.any (·.same (.text s))

/-- A whole number as a fraction of whole numbers, for comparison with a double. -/
def natLessFloat (n : Nat) (x : Float) : Bool :=
  match Decimal.Binary.ofFloat x with
  | .finite negative m e =>
    let r := Decimal.Ratio.scaled m e
    !negative && n * r.den < r.num
  | _ => x == 1.0 / 0.0

/-- Whether a count is below a datum; only numbers can be compared. -/
def natLess? (n : Nat) : Datum → Option Bool
  | .bool b => some (n < (if b then 1 else 0))
  | .int i => some ((n : Int) < i)
  | .float x => some (natLessFloat n x)
  | _ => none

/-- What a datum is made of when it is gone through: items, keys, characters or bytes. -/
def Datum.parts : Datum → Except Fault (List Datum)
  | .list xs => .ok xs
  | .tuple xs => .ok xs
  | .set xs => .ok xs
  | .table es => .ok (es.map (·.1))
  | .text s => .ok (s.toList.map fun c => .text c.toString)
  | .bytes bs => .ok (bs.map fun b => .int b.toNat)
  | d => .error (.notIterable d.kind)

/-- The members without repetitions; each has to be hashable. -/
def Datum.setOf (d : Datum) : Except Fault (List Datum) := do
  (← d.parts).foldlM (fun members x =>
    match x.unhashable? with
    | some kind => .error (.unhashable kind)
    | none => .ok (Datum.addMember x members)) []

/-- The value of a key in a table, or a default. -/
def Datum.entry (key : String) (default : Datum) : Datum → Except Fault Datum
  | .table es => .ok ((Datum.lookupText key es).getD default)
  | d => .error (.noOperation d.kind "get")

/-- The entries of a table. -/
def Datum.entries : Datum → Except Fault (List (Datum × Datum))
  | .table es => .ok es
  | d => .error (.noOperation d.kind "items")

/-! ## §6. Numbers -/

def Datum.realOfWhole (i : Int) : Except Fault Float :=
  let x := Float.ofInt i
  if x.isInf then .error .numberTooLarge else .ok x

/-- The double that a number or numeral stands for. -/
def Datum.real : Datum → Except Fault Float
  | .float x => .ok x
  | .int i => Datum.realOfWhole i
  | .bool b => .ok (if b then 1.0 else 0.0)
  | .text s =>
    match Decimal.readReal? s with
    | some x => .ok x
    | none => .error (.notReal s)
  | d => .error (.notAReal d.kind)

end AddonAudit
