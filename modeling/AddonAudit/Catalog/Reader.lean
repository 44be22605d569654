/-
  AddonAudit.Catalog.Reader — reading message catalogs.

  A catalog is read line by line.  What a line may be depends on the line before; a comment, context
  or message after a translation starts the next entry.
-/
import AddonAudit.Catalog.Entry
import AddonAudit.Decimal.Whole
import AddonAudit.Workspace.World

namespace AddonAudit.Catalog

/-! ## §1. Kinds of lines -/

/-- Kinds of lines; a continuation has no kind of its own. -/
inductive Kind where
  /-- Nothing was read yet. -/
  | start
  /-- A comment at the head of the file. -/
  | header
  | note
  | comment
  | places
  | flags
  | context
  | previousContext
  | previousId
  | previousPlural
  | id
  | plural
  | text
  | form
  deriving DecidableEq

/-- Kinds that end an entry when anything but a continuation or a further form follows. -/
def Kind.endsEntry : Kind → Bool
  | .text => true
  | .form => true
  | _ => false

/-- The kind of a line of a given kind after another; none if it may not follow. -/
def Kind.after? (next last : Kind) : Option Kind :=
  match next with
  | .note =>
    if last == .start || last == .header then some .header
    else if last == .context then none
    else some .note
  | .context =>
    if [.context, .id, .plural].contains last then none else some .context
  | .id => if [.id, .plural].contains last then none else some .id
  | .plural =>
    if [.note, .comment, .previousContext, .previousId, .previousPlural, .id].contains last then
      some .plural
    else none
  | .text => if [.id, .plural, .note].contains last then some .text else none
  | .form => if [.id, .plural, .note, .form].contains last then some .form else none
  | k => some k

/-! ## §2. The reader's state -/

/-- Why a catalog cannot be read. -/
inductive Problem where
  | unknownLine (line : Nat)
  | loneQuote (line : Nat)
  | badContinuation (line : Nat)
  | unknownKeyword (line : Nat) (word : String)
  /-- A line that may not follow the one before, or whose parts cannot be read. -/
  | misplaced (line : Nat)

/-- The wording of a problem in a file, or in a text without one. -/
def Problem.message (file : Option String) : Problem → String
  | .unknownLine n => lead ++ toString n ++ ")"
  | .loneQuote n => lead ++ toString n ++ "): unescaped double quote found"
  | .badContinuation n => lead ++ toString n ++ "): invalid continuation line"
  | .unknownKeyword n word => lead ++ toString n ++ "): unknown keyword " ++ word
  | .misplaced n => "Syntax error in po file (line " ++ toString n ++ ")"
where
  /-- What comes before the number of the line. -/
  lead : String :=
    "Syntax error in po file " ++
      (match file with
        | some f => f ++ " "
        | none => "") ++ "(line "

/-- The state between two lines. -/
structure State where
  done : List Entry := []
  current : Entry := { line := 0 }
  kind : Kind := .start
  /-- The plural form that was read last. -/
  form : Int := 0
  /-- Whether the last line that was not empty ends an entry. -/
  complete : Bool := false

/-- Starts the next entry if the current one has its translation. -/
def State.turn (s : State) (line : Nat) : State :=
  if s.kind.endsEntry then { s with done := s.current :: s.done, current := { line } } else s

/-- Changes the entry that is being read. -/
def State.edit (s : State) (f : Entry → Entry) : State := { s with current := f s.current }

/-! ## §3. What a line does -/

/-- The text between the first and the last character. -/
def unquote (token : String) : String := unescape (String.ofList ((token.toList.drop 1).dropLast))

/-- A comment with one more line. -/
def addLine (comment line : String) : String :=
  if comment == "" then line else comment ++ "\n" ++ line

/-- The text of a translator's comment. -/
def noteText (token : String) : String :=
  let s := Text.dropLeading (· == '#') token
  if Text.startsWith s " " then Text.drop s 1 else s

/-- A file and a line in which a message occurs; the line may be missing. -/
def placeOf (word : String) : String × String :=
  match Text.cutLast? ':' word.toList with
  | some (file, line) =>
    if !line.isEmpty && line.all Text.isDigitLike then (String.ofList file, String.ofList line)
    else (word, "")
  | none => (word, "")

/-- Sets a plural form in its place, or at the end. -/
def setForm (n : Int) (text : String) : List (Int × String) → List (Int × String)
  | [] => [(n, text)]
  | (m, t) :: rest => if m == n then (n, text) :: rest else (m, t) :: setForm n text rest

/-- The number of a plural form: the digit after the bracket. -/
def formNumber? (token : String) : Option Int :=
  match token.toList.drop 7 with
  | c :: _ =>
    match Decimal.readWhole c.toString with
    | .ok n => some n
    | .error _ => none
  | [] => none

/-- The text of a plural form: from the first quote on, without the last character. -/
def formText (token : String) : String :=
  let cs := token.toList
  let rest := if cs.contains '"' then (cs.dropWhile (· != '"')).drop 1 else cs
  unescape (String.ofList rest.dropLast)

/-- Reads a plural form into an entry. -/
def State.readForm (s : State) (token : String) : Option State :=
  (formNumber? token).map fun n =>
    { s.edit (fun e => { e with forms := setForm n (formText token) e.forms }) with form := n }

/-- Takes a token of some kind into the entry. -/
def State.apply (s : State) (line : Nat) (obsolete : Bool) (kind : Kind) (token : String) :
    Option State :=
  match kind with
  | .start => none
  | .header => some s
  | .note => some ((s.turn line).edit fun e => { e with note := addLine e.note (noteText token) })
  | .comment =>
    some ((s.turn line).edit fun e => { e with comment := addLine e.comment (Text.drop token 3) })
  | .places =>
    some ((s.turn line).edit fun e =>
      { e with places := e.places ++ (Text.wordsOf (Text.drop token 3)).map placeOf })
  | .flags =>
    some ((s.turn line).edit fun e =>
      { e with flags := e.flags ++ (Text.splitAt ',' (Text.drop token 3)).map Text.strip })
  | .context => some ((s.turn line).edit fun e => { e with context := some (unquote token) })
  | .previousContext =>
    some ((s.turn line).edit fun e =>
      { e with previous := { e.previous with context := some (unquote token) } })
  | .previousId =>
    some ((s.turn line).edit fun e =>
      { e with previous := { e.previous with id := some (unquote token) } })
  | .previousPlural =>
    some ((s.turn line).edit fun e =>
      { e with previous := { e.previous with plural := some (unquote token) } })
  | .id => some ((s.turn line).edit fun e => { e with obsolete, id := unquote token })
  | .plural => some (s.edit fun e => { e with plural := unquote token })
  | .text => some (s.edit fun e => { e with text := unquote token })
  | .form => s.readForm token

/-- Adds a text to the one that was read last. -/
def State.extend (s : State) (token : String) : Option State :=
  let more := unquote token
  match s.kind with
  | .context => some (s.edit fun e => { e with context := e.context.map (· ++ more) })
  | .id => some (s.edit fun e => { e with id := e.id ++ more })
  | .plural => some (s.edit fun e => { e with plural := e.plural ++ more })
  | .text => some (s.edit fun e => { e with text := e.text ++ more })
  | .form =>
    some (s.edit fun e =>
      { e with forms := e.forms.map fun (n, t) => if n == s.form then (n, t ++ more) else (n, t) })
  | .previousContext =>
    some (s.edit fun e =>
      { e with previous := { e.previous with context := e.previous.context.map (· ++ more) } })
  | .previousId =>
    some (s.edit fun e =>
      { e with previous := { e.previous with id := e.previous.id.map (· ++ more) } })
  | .previousPlural =>
    some (s.edit fun e =>
      { e with previous := { e.previous with plural := e.previous.plural.map (· ++ more) } })
  | _ => none

/-! ## §4. One line -/

/-- What a line of a catalog is. -/
inductive Line where
  | skip
  | more (token : String)
  | of (kind : Kind) (token : String)

/-- Splits a text at blanks into at most three words, the last one with all that is left. -/
def firstWords (s : String) : List String :=
  let cut (cs : List Char) : List Char × List Char :=
    (cs.takeWhile (!Text.isBlank ·), (cs.dropWhile (!Text.isBlank ·)).dropWhile Text.isBlank)
  let (a, rest) := cut (s.toList.dropWhile Text.isBlank)
  let (b, rest) := cut rest
  ([a, b, Text.dropTailWhile Text.isBlank rest].filter (!·.isEmpty)).map String.ofList

/-- Whether a quote stands inside a text without a backslash before it. -/
def hasLoneQuote (token : String) : Bool :=
  go none ((token.toList.drop 1).dropLast)
where
  /-- Looks at each character with the one before it. -/
  go (before : Option Char) : List Char → Bool
    | [] => false
    | c :: cs => (c == '"' && before != some '\\') || go (some c) cs

/-- The words that start a message. -/
def keywords : List (String × Kind) :=
  [("msgctxt", .context), ("msgid", .id), ("msgstr", .text), ("msgid_plural", .plural)]

/-- The words that start an earlier wording. -/
def previousKeywords : List (String × Kind) :=
  [("msgid_plural", .previousPlural), ("msgid", .previousId), ("msgctxt", .previousContext)]

/-- What a line that tells an earlier wording is. -/
def previousLine (n : Nat) (line : String) (words : List String) : Except Problem Line :=
  let rest := Text.dropLeading Text.isBlank (Text.drop line 2)
  match words with
  | _ :: word :: more =>
    if Text.startsWith word "\"" then .ok (.more rest)
    else if more.isEmpty then .error (.badContinuation n)
    else match previousKeywords.lookup word with
      | none => .error (.unknownKeyword n word)
      | some kind => .ok (.of kind (Text.dropLeading Text.isBlank (Text.drop rest word.length)))
  | _ => .error (.unknownLine n)

/-- What a line without keyword is, by its first word. -/
def markedLine (n : Nat) (line : String) (words : List String) : Except Problem Line :=
  let head := words.headD ""
  let alone := words.length ≤ 1
  if head == "#:" then .ok (if alone then .skip else .of .places line)
  else if Text.startsWith line "\"" then
    if hasLoneQuote line then .error (.loneQuote n) else .ok (.more line)
  else if Text.startsWith line "msgstr[" then .ok (.of .form line)
  else if head == "#," then .ok (if alone then .skip else .of .flags line)
  else if head == "#" || Text.startsWith head "##" then .ok (.of .note line)
  else if head == "#." then .ok (if alone then .skip else .of .comment line)
  else if head == "#|" then previousLine n line words
  else .error (.unknownLine n)

/-- Tells what a line is by its first words. -/
def lineOf (n : Nat) (line : String) (words : List String) : Except Problem Line :=
  match words with
  | head :: _ :: _ =>
    match keywords.lookup head with
    | some kind =>
      let token := Text.dropLeading Text.isBlank (Text.drop line head.length)
      if hasLoneQuote token then .error (.loneQuote n) else .ok (.of kind token)
    | none => markedLine n line words
  | _ => markedLine n line words

/-- Takes a line. -/
def State.take (s : State) (n : Nat) (obsolete : Bool) (l : Line) : Except Problem State :=
  let next : Option State := match l with
    | .skip => some s
    | .more token => s.extend token
    | .of kind token =>
      (kind.after? s.kind).bind fun k =>
        (s.apply n obsolete k token).map fun s => { s with kind := k }
  match next with
  | some s => .ok s
  | none => .error (.misplaced n)

/-- A text without the mark at its start. -/
def withoutMark (s : String) : String := if Text.startsWith s "\ufeff" then Text.drop s 1 else s

/-- Takes in a line, which may be marked as obsolete. -/
def State.readLine (s : State) (n : Nat) (raw : String) : Except Problem State :=
  let line := Text.strip (if n == 1 then withoutMark raw else raw)
  match firstWords line with
  | [] => .ok s
  | "#~|" :: _ => .ok { s with complete := false }
  | "#~" :: w :: rest => do
    let line := Text.strip (Text.drop line 3)
    let s := { s with complete := !Text.startsWith w "#" }
    s.take n true (← lineOf n line (w :: rest))
  | words => do
    let s := { s with complete := !Text.startsWith (words.headD "") "#" }
    s.take n false (← lineOf n line words)

/-! ## §5. Whole catalogs -/

/-- Takes in lines, the first of which has number `n`. -/
def readLines (s : State) (n : Nat) : List String → Except Problem State
  | [] => .ok s
  | line :: rest => do readLines (← s.readLine n line) (n + 1) rest

/-- All entries; comments after the last one are dropped. -/
def State.entries (s : State) : List Entry :=
  (if s.complete then s.current :: s.done else s.done).reverse

/-- The entry with the properties of the catalog: the last without context of those with an empty
    message, or else the first one. -/
def properties? (es : List Entry) : Option Entry :=
  let candidates := es.filter fun e => !e.obsolete && e.id == ""
  ((candidates.filter fun e => e.context.getD "" == "").getLast?).or candidates.head?

/-- Removes the first entry that equals a given one. -/
def removeSame (x : Entry) : List Entry → Except Fault (List Entry)
  | [] => .ok []
  | e :: es => do
    if e.line == x.line || (← e.same x) then return es
    return e :: (← removeSame x es)

def withoutProperties (es : List Entry) : Except Fault (List Entry) :=
  match properties? es with
  | some x => removeSame x es
  | none => .ok es

/-! ## §6. Catalog files -/

/-- The encoding that a line names, if it is known. -/
def charsetOf? (line : List UInt8) : Option Text.Encoding := do
  let cs := line.map fun b => Char.ofNat b.toNat
  let (_, rest) ← Text.cutFirst? "Content-Type:".toList cs
  let (_, name) ← Text.cutFirst? " charset=".toList (rest.drop 1)
  Text.Encoding.ofName? (String.ofList (name.takeWhile fun c =>
    c.isAlphanum || c == '_' || c == '-' || c == ':' || c == '.'))

/-- Splits bytes after every line feed. -/
def byteLines (bytes : List UInt8) : List (List UInt8) :=
  go [] bytes
where
  /-- Collects a line, its last byte first. -/
  go (line : List UInt8) : List UInt8 → List (List UInt8)
    | [] => if line.isEmpty then [] else [line.reverse]
    | b :: bs => if b == 10 then (b :: line).reverse :: go [] bs else go (b :: line) bs

/-- The encoding that a catalog names, or the usual one. -/
def encodingOf (bytes : List UInt8) : Text.Encoding :=
  ((byteLines bytes).findSome? charsetOf?).getD .utf8

/-- The fault of a catalog that cannot be read. -/
def faultOf (file : Option String) (p : Problem) : Fault := .badCatalog (p.message file)

/-- The entries of a catalog. -/
def entriesOf (file : Option String) (lines : List String) : Except Fault (List Entry) := do
  let s ← (readLines {} 1 lines).mapError (faultOf file)
  withoutProperties s.entries

/-- Reads a catalog file.  Lines before bytes that cannot be read are still looked at. -/
def readFile (w : World) (path : String) : Except Fault (List Entry) := do
  let bytes := (← w.readBytes path).toList
  let (cs, fault) ← w.readPieces (encodingOf bytes) path
  let lines := (Text.feedLines (Text.unifyNewlines cs)).map String.ofList
  match fault with
  | none => entriesOf (some path) lines
  | some f => do
    let _ ← (readLines {} 1 lines.dropLast).mapError (faultOf (some path))
    throw f

/-- Reads a catalog; a path that leads to no file is read as the catalog's own text. -/
def read (w : World) (path : String) : Except Fault (List Entry) :=
  if w.isFile path then readFile w path else entriesOf none (Text.linesOf path)

end AddonAudit.Catalog
