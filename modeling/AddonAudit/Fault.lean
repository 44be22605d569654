/-
  AddonAudit.Fault — why an operation cannot be carried out.

  A fault is a cause with the data that its message shows; the wording of every message is in
  `Fault.message`.
-/
import AddonAudit.Text.Quoted
import AddonAudit.Text.Utf8

namespace AddonAudit

/-- Comparisons between data. -/
inductive Order where
  | less
  | lessEq
  | greater
  | greaterEq
  deriving DecidableEq

def Order.sign : Order → String
  | .less => "<"
  | .lessEq => "<="
  | .greater => ">"
  | .greaterEq => ">="

/-- What is wrong with a text that should be JSON. -/
inductive JsonProblem where
  | noValue
  | noKey
  | noColon
  | noComma
  | unterminated
  | badEscape
  | badUnicodeEscape
  | controlCharacter
  | extraData
  | byteOrderMark
  deriving DecidableEq

def JsonProblem.message : JsonProblem → String
  | .noValue => "Expecting value"
  | .noKey => "Expecting property name enclosed in double quotes"
  | .noColon => "Expecting ':' delimiter"
  | .noComma => "Expecting ',' delimiter"
  | .unterminated => "Unterminated string starting at"
  | .badEscape => "Invalid \\escape"
  | .badUnicodeEscape => "Invalid \\uXXXX escape"
  | .controlCharacter => "Invalid control character at"
  | .extraData => "Extra data"
  | .byteOrderMark => "Unexpected UTF-8 BOM (decode using utf-8-sig)"

/-- The names of signals that end a process. -/
def signalNames : List (Nat × String) := [
  (1, "HUP"), (2, "INT"), (3, "QUIT"), (4, "ILL"), (5, "TRAP"), (6, "ABRT"), (7, "BUS"), (8, "FPE"),
  (9, "KILL"), (10, "USR1"), (11, "SEGV"), (12, "USR2"), (13, "PIPE"), (14, "ALRM"), (15, "TERM"),
  (16, "STKFLT"), (17, "CHLD"), (18, "CONT"), (19, "STOP"), (20, "TSTP"), (21, "TTIN"),
    (22, "TTOU"),
  (23, "URG"), (24, "XCPU"), (25, "XFSZ"), (26, "VTALRM"), (27, "PROF"), (28, "WINCH"), (29, "IO"),
  (30, "PWR"), (31, "SYS"), (34, "RTMIN"), (64, "RTMAX")]

/-- How a process ended that failed; a negative code is a signal. -/
def endingText (code : Int) : String :=
  if 0 ≤ code then "returned non-zero exit status " ++ toString code
  else match signalNames.lookup code.natAbs with
    | some name => "died with <Signals.SIG" ++ name ++ ": " ++ toString code.natAbs ++ ">"
    | none => "died with unknown signal " ++ toString code.natAbs

/-- Why an operation cannot be carried out. -/
inductive Fault where
  | missing (path : String)
  /-- A folder stands where a file is needed. -/
  | isFolder (path : String)
  /-- A file stands where a folder is needed. -/
  | notFolder (path : String)
  /-- Something stands where a new entry is to be made. -/
  | occupied (path : String)
  /-- A file that is to be copied onto itself: both paths in their written form. -/
  | sameFile (source target : String)
  /-- Bytes that an encoding cannot read: the span, its first byte and the reason. -/
  | undecodable (encoding : String) (start stop : Nat) (byte : UInt8) (reason : String)
  | noProgram (name : String)
  /-- A command that ended with a code other than zero. -/
  | commandFailed (argv : List String) (code : Int)
  | noOperation (kind operation : String)
  | notIterable (kind : String)
  /-- A datum of this kind has no members to look for. -/
  | noMembership (kind : String)
  /-- A datum of this kind cannot be a key. -/
  | unhashable (kind : String)
  | notAppendable (kind : String)
  | notText (index : Nat) (kind : String)
  | nullPath
  /-- A datum of this kind cannot be written in an exchange format. -/
  | notWritable (kind : String)
  /-- Entries of a datum of this kind cannot be set. -/
  | noAssignment (kind : String)
  | notAReal (kind : String)
  /-- A text where a number is to be laid out. -/
  | notANumber
  | noLength (kind : String)
  /-- A text or list was asked for a key. -/
  | keyOfSequence (ofText : Bool)
  /-- A datum of this kind has no items to join. -/
  | notJoinable
  | notBytes (kind : String)
  | notIndexed (kind : String)
  | notPath (kind : String)
  /-- Two kinds that cannot be compared. -/
  | notComparable (order : Order) (left right : String)
  /-- A datum of this kind has no such format. -/
  | noFormat (kind : String)
  /-- Two kinds that an operator does not combine. -/
  | notCombinable (operator left right : String)
  | bytesNeeded
  /-- A path made of texts and bytes. -/
  | mixedPath
  /-- A text stands where a pattern is needed, or the other way round. -/
  | notPattern
  | bytesPattern
  /-- A pattern that cannot be read, with what is wrong and where. -/
  | badPattern (what : String) (position : Option Nat) (lineAndColumn : Option (Nat × Nat))
  | noGroup (name : String)
  | tooManyRepetitions
  /-- More items than names to take them. -/
  | tooManyItems (expected : Nat)
  /-- Fewer items than names to take them. -/
  | tooFewItems (expected got : Nat)
  | noKey (written : String)
  | noIndex (sequence : String)
  /-- A date or time out of range. -/
  | badDate (what : String)
  /-- A code point beyond all characters. -/
  | noSuchCharacter
  /-- A whole number beyond all doubles. -/
  | numberTooLarge
  /-- More digits than a number may have. -/
  | tooManyDigits (count : Nat)
  | notWhole (base : Nat) (text : String)
  | notReal (text : String)
  /-- Text that is not JSON: what is wrong, and the line, column and position. -/
  | badJson (problem : JsonProblem) (line column position : Nat)
  /-- A message pattern that arguments do not fit, by the written form of the cause. -/
  | badPrintf (cause : String)
  /-- A brace pattern that arguments do not fit, by the written form of the cause. -/
  | badFormat (cause : String)
  | malformedLiteral
  /-- Source text that cannot be read. -/
  | malformedSource
  | malformedDocument
  | badCatalog (message : String)
  | badTable (message : String)
  /-- A configuration that cannot be read. -/
  | badSettings
  | exit (code : Int)
  | other (kind message : String)

/-- Position of undecodable bytes. -/
def spanText (start stop : Nat) (byte : UInt8) : String :=
  if start + 1 == stop then
    "byte 0x" ++ Text.hexPadded 2 byte.toNat ++ " in position " ++ toString start
  else "bytes in position " ++ toString start ++ "-" ++ toString (stop - 1)

def Fault.message : Fault → String
  | .missing p => "[Errno 2] No such file or directory: " ++ Text.quoted p
  | .isFolder p => "[Errno 21] Is a directory: " ++ Text.quoted p
  | .notFolder p => "[Errno 20] Not a directory: " ++ Text.quoted p
  | .occupied p => "[Errno 17] File exists: " ++ Text.quoted p
  | .undecodable enc start stop byte reason =>
    Text.quoted enc ++ " codec can't decode " ++ spanText start stop byte ++ ": " ++ reason
  | .sameFile a b => a ++ " and " ++ b ++ " are the same file"
  | .noProgram n => "[Errno 2] No such file or directory: " ++ Text.quoted n
  | .commandFailed argv code =>
    "Command '" ++ Text.quotedList argv ++ "' " ++ endingText code ++ "."
  | .noOperation kind op => "'" ++ kind ++ "' object has no attribute '" ++ op ++ "'"
  | .notIterable kind => "'" ++ kind ++ "' object is not iterable"
  | .noMembership kind => "argument of type '" ++ kind ++ "' is not iterable"
  | .unhashable kind => "unhashable type: '" ++ kind ++ "'"
  | .notAppendable kind => "can only concatenate list (not \"" ++ kind ++ "\") to list"
  | .notText i kind =>
    "sequence item " ++ toString i ++ ": expected str instance, " ++ kind ++ " found"
  | .nullPath => "embedded null byte"
  | .notWritable kind => "Object of type " ++ kind ++ " is not JSON serializable"
  | .noAssignment kind => "'" ++ kind ++ "' object does not support item assignment"
  | .notAReal kind => "float() argument must be a string or a real number, not '" ++ kind ++ "'"
  | .notANumber => "Unknown format code 'f' for object of type 'str'"
  | .noLength kind => "object of type '" ++ kind ++ "' has no len()"
  | .keyOfSequence ofText =>
    if ofText then "string indices must be integers, not 'str'"
    else "list indices must be integers or slices, not str"
  | .notJoinable => "can only join an iterable"
  | .notBytes kind => "decoding to str: need a bytes-like object, " ++ kind ++ " found"
  | .notIndexed kind => "'" ++ kind ++ "' object is not subscriptable"
  | .notPath kind => "expected str, bytes or os.PathLike object, not " ++ kind
  | .notComparable o a b =>
    "'" ++ o.sign ++ "' not supported between instances of '" ++ a ++ "' and '" ++ b ++ "'"
  | .noFormat kind => "unsupported format string passed to " ++ kind ++ ".__format__"
  | .notCombinable op a b =>
    "unsupported operand type(s) for " ++ op ++ ": '" ++ a ++ "' and '" ++ b ++ "'"
  | .bytesNeeded => "a bytes-like object is required, not 'str'"
  | .mixedPath => "Can't mix strings and bytes in path components"
  | .notPattern => "first argument must be string or compiled pattern"
  | .bytesPattern => "cannot use a bytes pattern on a string-like object"
  | .badPattern what position spot =>
    what ++ (position.map (" at position " ++ toString ·)).getD "" ++
      (spot.map fun (line, column) =>
        " (line " ++ toString line ++ ", column " ++ toString column ++ ")").getD ""
  | .noGroup name => "unknown group name " ++ Text.quoted name
  | .tooManyRepetitions => "the repetition number is too large"
  | .tooManyItems n => "too many values to unpack (expected " ++ toString n ++ ")"
  | .tooFewItems n got =>
    "not enough values to unpack (expected " ++ toString n ++ ", got " ++ toString got ++ ")"
  | .noKey w => w
  | .noIndex s => s ++ " index out of range"
  | .badDate what => what
  | .noSuchCharacter => "chr() arg not in range(0x110000)"
  | .numberTooLarge => "int too large to convert to float"
  | .tooManyDigits n =>
    "Exceeds the limit (4300 digits) for integer string conversion: value has " ++ toString n ++
      " digits; use sys.set_int_max_str_digits() to increase the limit"
  | .notWhole base s =>
    "invalid literal for int() with base " ++ toString base ++ ": " ++ Text.quoted s
  | .notReal s => "could not convert string to float: " ++ Text.quoted s
  | .badJson problem line col pos =>
    problem.message ++ ": line " ++ toString line ++ " column " ++ toString col ++ " (char " ++
      toString pos ++ ")"
  | .badPrintf cause => cause
  | .badFormat cause => cause
  | .malformedLiteral => "malformed literal"
  | .malformedSource => "invalid syntax"
  | .malformedDocument => "malformed XML"
  | .badCatalog m => m
  | .badTable m => m
  | .badSettings => ""
  | .exit code => toString code
  | .other _ m => m

/-- The name that a fault is reported under. -/
def Fault.title : Fault → String
  | .missing _ => "FileNotFoundError"
  | .isFolder _ => "IsADirectoryError"
  | .notFolder _ => "NotADirectoryError"
  | .occupied _ => "FileExistsError"
  | .undecodable _ _ _ _ _ => "UnicodeDecodeError"
  | .noProgram _ => "FileNotFoundError"
  | .commandFailed _ _ => "CalledProcessError"
  | .noOperation _ _ => "AttributeError"
  | .notIterable _ => "TypeError"
  | .noMembership _ => "TypeError"
  | .unhashable _ => "TypeError"
  | .notAppendable _ => "TypeError"
  | .notText _ _ => "TypeError"
  | .nullPath => "ValueError"
  | .notWritable _ => "TypeError"
  | .noAssignment _ => "TypeError"
  | .notAReal _ => "TypeError"
  | .notANumber => "ValueError"
  | .noLength _ => "TypeError"
  | .keyOfSequence _ => "TypeError"
  | .notJoinable => "TypeError"
  | .notBytes _ => "TypeError"
  | .notIndexed _ => "TypeError"
  | .notPath _ => "TypeError"
  | .notComparable _ _ _ => "TypeError"
  | .noFormat _ => "TypeError"
  | .notCombinable _ _ _ => "TypeError"
  | .bytesNeeded => "TypeError"
  | .mixedPath => "TypeError"
  | .notPattern => "TypeError"
  | .bytesPattern => "TypeError"
  | .badPattern _ _ _ => "error"
  | .noGroup _ => "IndexError"
  | .sameFile _ _ => "SameFileError"
  | .tooManyRepetitions => "OverflowError"
  | .tooManyItems _ => "ValueError"
  | .tooFewItems _ _ => "ValueError"
  | .noKey _ => "KeyError"
  | .noIndex _ => "IndexError"
  | .badDate _ => "ValueError"
  | .noSuchCharacter => "ValueError"
  | .numberTooLarge => "OverflowError"
  | .tooManyDigits _ => "ValueError"
  | .notWhole _ _ => "ValueError"
  | .notReal _ => "ValueError"
  | .badJson _ _ _ _ => "JSONDecodeError"
  | .badPrintf _ => "PrintfStringParseError"
  | .badFormat _ => "FormatStringParseError"
  | .malformedLiteral => "ValueError"
  | .malformedSource => "SyntaxError"
  | .malformedDocument => "XMLSyntaxError"
  | .badCatalog _ => "OSError"
  | .badTable _ => "Error"
  | .badSettings => "YAMLError"
  | .exit _ => "SystemExit"
  | .other kind _ => kind

/-- Whether a file or program could not be reached. -/
def Fault.isAccess : Fault → Bool
  | .missing _ => true
  | .isFolder _ => true
  | .notFolder _ => true
  | .occupied _ => true
  | .noProgram _ => true
  | .badCatalog _ => true
  | _ => false

/-- Whether data of the right kind had a value that cannot be used. -/
def Fault.isBadValue : Fault → Bool
  | .undecodable _ _ _ _ _ => true
  | .tooManyItems _ => true
  | .tooFewItems _ _ => true
  | .badDate _ => true
  | .noSuchCharacter => true
  | .tooManyDigits _ => true
  | .notWhole _ _ => true
  | .notReal _ => true
  | .badJson _ _ _ _ => true
  | .malformedLiteral => true
  | _ => false

/-- Whether a source text could not be read. -/
def Fault.isMalformedSource : Fault → Bool
  | .malformedSource => true
  | _ => false

end AddonAudit
