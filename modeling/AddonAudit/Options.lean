/-
  AddonAudit.Options — reading the arguments of a command.

  A usage lists the parameters of a command: options by name and arguments by place.  Reading marks
  every argument first as an option, a divider or plain, and then takes options in the order in
  which they stand and plain arguments by place in between.
-/
import AddonAudit.Decimal.Whole
import AddonAudit.Fault

namespace AddonAudit.Options

/-! ## §1. Usages -/

/-- How many arguments a parameter takes. -/
inductive Arity where
  | flag
  | one
  | optional
  | several
  | any
  deriving DecidableEq

/-- A parameter of a command. -/
structure Parameter where
  /-- The name under which its value is kept. -/
  key : String
  /-- Its names as an option; none if it is taken by place. -/
  names : List String := []
  arity : Arity := .one
  choices : Option (List String) := none
  isWhole : Bool := false
  isHelp : Bool := false

/-- What a command takes. -/
structure Usage where
  program : String
  parameters : List Parameter

/-- The value of a parameter. -/
inductive Value where
  | flag
  | text (s : String)
  | texts (xs : List String)
  | whole (n : Int)

/-- The values of parameters. -/
abbrev Values := List (String × Value)

/-- The value of a key; the last one given counts. -/
def Values.get? (vs : Values) (key : String) : Option Value :=
  (vs.reverse.find? (·.1 == key)).map (·.2)

/-- Whether a parameter has a value. -/
def Values.isSet (vs : Values) (key : String) : Bool := (vs.get? key).isSome

def Values.text? (vs : Values) (key : String) : Option String :=
  match vs.get? key with
  | some (.text s) => some s
  | _ => none

def Values.texts? (vs : Values) (key : String) : Option (List String) :=
  match vs.get? key with
  | some (.texts xs) => some xs
  | _ => none

def Values.whole? (vs : Values) (key : String) : Option Int :=
  match vs.get? key with
  | some (.whole n) => some n
  | _ => none

/-! ## §2. Problems -/

/-- What is wrong with the arguments of a command. -/
inductive Problem where
  /-- An option that may stand for several. -/
  | ambiguous (argument : String) (names : List String)
  | ignored (parameter value : String)
  /-- An option without its value. -/
  | expectedOne (parameter : String)
  /-- An option without any value. -/
  | expectedSome (parameter : String)
  | invalidChoice (parameter value : String) (choices : List String)
  | invalidWhole (parameter value : String)
  | required (keys : List String)
  | unrecognized (arguments : List String)

def Problem.message : Problem → String
  | .ambiguous a names => "ambiguous option: " ++ a ++ " could match " ++ ", ".intercalate names
  | .ignored p v => "argument " ++ p ++ ": ignored explicit argument " ++ Text.quoted v
  | .expectedOne p => "argument " ++ p ++ ": expected one argument"
  | .expectedSome p => "argument " ++ p ++ ": expected at least one argument"
  | .invalidChoice p v cs =>
    "argument " ++ p ++ ": invalid choice: " ++ Text.quoted v ++ " (choose from " ++
      ", ".intercalate (cs.map Text.quoted) ++ ")"
  | .invalidWhole p v => "argument " ++ p ++ ": invalid int value: " ++ Text.quoted v
  | .required keys => "the following arguments are required: " ++ ", ".intercalate keys
  | .unrecognized as => "unrecognized arguments: " ++ " ".intercalate as

/-- Why reading ends early. -/
inductive Stop where
  | help
  | problem (p : Problem)
  | fault (f : Fault)

/-- How a parameter is named in messages. -/
def Parameter.title (p : Parameter) : String :=
  if p.names.isEmpty then p.key else "/".intercalate p.names

/-! ## §3. Marking arguments -/

/-- An option as an argument gives it: the parameter, the name used, and a value attached to it. -/
structure Hit where
  parameter : Parameter
  name : String
  value : Option String

/-- What an argument is. -/
inductive Mark where
  | plain
  /-- The mark after which everything is plain. -/
  | divider
  /-- An option; none if nothing has its name. -/
  | option (hit : Option Hit)

/-- The option names of a usage with their parameters, in order. -/
def Usage.named (u : Usage) : List (String × Parameter) :=
  u.parameters.flatMap fun p => p.names.map fun n => (n, p)

/-- The parameter of an option. -/
def Usage.find? (u : Usage) (name : String) : Option Parameter :=
  (u.named.find? (·.1 == name)).map (·.2)

/-- Whether an argument looks like a negative number. -/
def isNegative (argument : String) : Bool :=
  match argument.toList with
  | '-' :: cs =>
    let cs := if cs.getLast? == some '\n' then cs.dropLast else cs
    let whole := cs.takeWhile Text.isDecimal
    match cs.drop whole.length with
    | [] => !whole.isEmpty
    | '.' :: places => !places.isEmpty && places.all Text.isDecimal
    | _ => false
  | _ => false

/-- An argument cut at its first equals sign. -/
def cutValue? (argument : String) : Option (String × String) :=
  (Text.cutFirst? ['='] argument.toList).map fun (a, b) => (String.ofList a, String.ofList b)

/-- The options whose name an argument abbreviates. -/
def Usage.abbreviated (u : Usage) (argument : String) : List Hit :=
  match argument.toList with
  | '-' :: '-' :: _ =>
    let (start, value) := match cutValue? argument with
      | some (a, b) => (a, some b)
      | none => (argument, none)
    u.named.filterMap fun (n, p) => if Text.startsWith n start then some ⟨p, n, value⟩ else none
  | '-' :: c :: rest =>
    u.named.filterMap fun (n, p) =>
      if n == String.ofList ['-', c] then some ⟨p, n, some (String.ofList rest)⟩
      else if Text.startsWith n argument then some ⟨p, n, none⟩
      else none
  | _ => []

/-- The option whose full name stands before the first equals sign. -/
def Usage.assigned? (u : Usage) (argument : String) : Option Hit := do
  let (name, value) ← cutValue? argument
  return ⟨← u.find? name, name, some value⟩

/-- What an argument in front of the divider is. -/
def Usage.mark (u : Usage) (argument : String) : Except Stop Mark :=
  if argument == "--" then .ok .divider
  else if !Text.startsWith argument "-" then .ok .plain
  else match u.find? argument with
  | some p => .ok (.option (some ⟨p, argument, none⟩))
  | none =>
    if argument == "-" then .ok .plain
    else match u.assigned? argument with
    | some h => .ok (.option (some h))
    | none =>
      match u.abbreviated argument with
      | [h] => .ok (.option (some h))
      | [] =>
        if isNegative argument || Text.contains argument " " then .ok .plain else .ok (.option none)
      | hs => .error (.problem (.ambiguous argument (hs.map (·.name))))

/-- Marks all arguments; after the divider all are plain. -/
def Usage.markAll (u : Usage) : List String → Except Stop (List (String × Mark))
  | [] => .ok []
  | a :: as => do
    match ← u.mark a with
    | .divider => return (a, .divider) :: as.map fun b => (b, .plain)
    | m => return (a, m) :: (← u.markAll as)

/-! ## §4. Taking values -/

/-- Reading in progress. -/
structure State where
  values : Values := []
  /-- The parameters that are still to be taken by place. -/
  open_ : List Parameter := []
  /-- Arguments that nothing took. -/
  extras : List String := []

/-- Checks the value of a parameter. -/
def Parameter.check (p : Parameter) (v : String) : Except Stop Value := do
  if p.isWhole then
    match Decimal.readWhole v with
    | .ok n => return .whole n
    | .error _ => throw (.problem (.invalidWhole p.title v))
  if let some cs := p.choices then
    if !cs.contains v then throw (.problem (.invalidChoice p.title v cs))
  return .text v

/-- Gives arguments to a parameter; the first divider among them is dropped. -/
def State.give (st : State) (p : Parameter) (arguments : List String) : Except Stop State := do
  let arguments := arguments.erase "--"
  let set (v : Value) : State := { st with values := st.values ++ [(p.key, v)] }
  match p.arity, arguments with
  | .flag, _ => if p.isHelp then throw .help else return set .flag
  | .several, as => return set (.texts as)
  | .any, as => return set (.texts as)
  | .optional, [] => return st
  | _, a :: _ => return set (← p.check a)
  | .one, [] => throw (.fault (.tooFewItems 1 0))

/-- The arguments in front that have no value as an option. -/
def plainFront : List (String × Mark) → List String
  | (a, .plain) :: rest => a :: plainFront rest
  | _ => []

def dividersFront : List (String × Mark) → List String
  | (a, .divider) :: rest => a :: dividersFront rest
  | _ => []

/-- The arguments in front up to the next option. -/
def untilOption : List (String × Mark) → List String
  | (_, .option _) :: _ => []
  | (a, _) :: rest => a :: untilOption rest
  | [] => []

/-- How many arguments a parameter takes by place. -/
def Parameter.span (p : Parameter) (items : List (String × Mark)) : Option Nat :=
  let lead := (dividersFront items).length
  match p.arity with
  | .any => some (untilOption items).length
  | arity =>
    match items.drop lead with
    | (_, .plain) :: rest => some (lead + 1 + (dividersFront rest).length)
    | _ => if arity == .one then none else some lead

/-- Gives arguments to the parameters that are taken by place, as far as they go. -/
def givePlaces (st : State) (items : List (String × Mark)) :
    List Parameter → Except Stop (State × List (String × Mark))
  | [] => .ok ({ st with open_ := [] }, items)
  | p :: ps =>
    match p.span items with
    | none => .ok ({ st with open_ := p :: ps }, items)
    | some n => do
      let st ← st.give p ((items.take n).map (·.1))
      givePlaces st (items.drop n) ps

/-- Gives an option that has a value attached; a flag's value may be further flags. -/
def giveAttached (u : Usage) (st : State) (p : Parameter) (name : String) :
    List Char → Except Stop (State × Option Parameter)
  | value => do
    if p.arity != .flag then return (← st.give p [String.ofList value], none)
    go st p (!Text.startsWith name "--") value
where
  /-- Takes the letters of a cluster of flags one by one. -/
  go (st : State) (p : Parameter) (short : Bool) : List Char →
    Except Stop (State × Option Parameter)
    | [] => .error (.problem (.ignored p.title ""))
    | c :: rest => do
      if !short then throw (.problem (.ignored p.title (String.ofList (c :: rest))))
      match u.find? (String.ofList ['-', c]) with
      | none => throw (.problem (.ignored p.title (String.ofList (c :: rest))))
      | some q =>
        let st ← st.give p []
        if rest.isEmpty then return (st, some q)
        if q.arity != .flag then return (← st.give q [String.ofList rest], none)
        go st q short rest

/-- Gives an option the arguments that follow it. -/
def giveFollowing (st : State) (p : Parameter) (rest : List (String × Mark)) :
    Except Stop (State × List (String × Mark)) := do
  match p.arity, rest with
  | .flag, _ => return (← st.give p [], rest)
  | .one, (a, .plain) :: rest => return (← st.give p [a], rest)
  | .one, _ => throw (.problem (.expectedOne p.title))
  | .several, _ =>
    let as := plainFront rest
    if as.isEmpty then throw (.problem (.expectedSome p.title))
    return (← st.give p as, rest.drop as.length)
  | .optional, (a, .plain) :: rest => return (← st.give p [a], rest)
  | .optional, _ => return (← st.give p [], rest)
  | .any, _ =>
    let as := plainFront rest
    return (← st.give p as, rest.drop as.length)

/-- Takes an option and what belongs to it. -/
def giveOption (u : Usage) (st : State) (argument : String) (hit : Option Hit)
    (rest : List (String × Mark)) : Except Stop (State × List (String × Mark)) := do
  match hit with
  | none => return ({ st with extras := st.extras ++ [argument] }, rest)
  | some h =>
    match h.value with
    | none => giveFollowing st h.parameter rest
    | some v =>
      match ← giveAttached u st h.parameter h.name v.toList with
      | (st, none) => return (st, rest)
      | (st, some q) => giveFollowing st q rest

/-! ## §5. Reading -/

def isOption : String × Mark → Bool
  | (_, .option _) => true
  | _ => false

/-- Takes options and places in turn until no option is left. -/
def takeAll (u : Usage) : Nat → State → List (String × Mark) → Except Stop State
  | 0, st, items => .ok { st with extras := st.extras ++ items.map (·.1) }
  | fuel + 1, st, items => do
    if !items.any isOption then
      let (st, rest) ← givePlaces st items st.open_
      return { st with extras := st.extras ++ rest.map (·.1) }
    match items with
    | (a, .option hit) :: rest =>
      let (st, rest) ← giveOption u st a hit rest
      takeAll u fuel st rest
    | _ =>
      let (st, rest) ← givePlaces st items st.open_
      if rest.length < items.length then takeAll u fuel st rest
      else
        let extras := untilOption rest
        takeAll u fuel { st with extras := st.extras ++ extras } (rest.drop extras.length)

def helpParameter : Parameter :=
  { key := "help", names := ["-h", "--help"], arity := .flag, isHelp := true }

/-- Reads the arguments of a command. -/
def Usage.read (u : Usage) (arguments : List String) : Except Stop Values := do
  let u := { u with parameters := helpParameter :: u.parameters }
  let items ← u.markAll arguments
  let places := u.parameters.filter (·.names.isEmpty)
  let st ← takeAll u (2 * items.length + 1) { open_ := places } items
  let missing := st.open_.filter (·.arity == .one)
  if !missing.isEmpty then throw (.problem (.required (missing.map (·.title))))
  if !st.extras.isEmpty then throw (.problem (.unrecognized st.extras))
  return st.values

end AddonAudit.Options
