import FormulaDesk.Decimal.Numeral
import FormulaDesk.Json.Printer

/-!
# Failures

Everything that can go wrong, by cause. A `ValueFault` is a value that does not fit where it is
used; a `Problem` is an input that the catalog or a form rejects; an `HttpFault` comes from the
HTTP layer. Each has one wording. `Failure.described` is the text a user sees: causes with a message
of their own show it, all others show one generic message.
-/

namespace FormulaDesk

open Json (Kind)

/-- Shown when a failure carries no message of its own. -/
def genericMessage : String :=
  "Error al procesar la solicitud. Por favor, inténtelo de nuevo."

/-- How a call got its named arguments wrong. -/
inductive ArgumentFault where
  | repeated (name : String)
  | repeatedKeyword (name : String)
  | unexpected (name : String)
  | missing (names : List String)
  /-- A call with too many positional arguments, of which it takes `least` to `most`. -/
  | surplus (least most given : Nat)
deriving DecidableEq, Repr

namespace ArgumentFault

/-- Names in quotes, joined as in a sentence. -/
def nameList : List String → String
  | [] => ""
  | [a] => Text.quoted a
  | [a, b] => Text.quoted a ++ " and " ++ Text.quoted b
  | names =>
    ", ".intercalate (names.dropLast.map Text.quoted) ++ ", and " ++
      Text.quoted (names.getLastD "")

def message (callee : String) : ArgumentFault → String
  | .repeated name => callee ++ " got multiple values for argument " ++ Text.quoted name
  | .repeatedKeyword name =>
    callee ++ " got multiple values for keyword argument " ++ Text.quoted name
  | .unexpected name => callee ++ " got an unexpected keyword argument " ++ Text.quoted name
  | .missing names =>
    callee ++ s!" missing {names.length} required positional argument"
      ++ (if names.length = 1 then "" else "s") ++ ": " ++ nameList names
  | .surplus least most given =>
    let takes := if least = most then toString most else s!"from {least} to {most}"
    callee ++ s!" takes {takes} positional argument" ++ (if most = 1 then "" else "s")
      ++ s!" but {given} " ++ (if given = 1 then "was" else "were") ++ " given"

end ArgumentFault

/-- A value that does not fit where it is used. -/
inductive ValueFault where
  | noSize (kind : Kind)
  | notIterable (kind : Kind)
  | noItemAssignment (kind : Kind)
  | unhashable (kind : Kind)
  | badIndex (kind : Kind)
  | notWhole (kind : Kind)
  | notComparable (kind : Kind)
  | notReal (kind : Kind)
  | notNumeral (kind : Kind)
  | unformattable (kind : Kind)
  | wrongFormat (code : Char) (kind : Kind)
  | noAttribute (kind : Kind) (name : String)
  | arguments (callee : String) (fault : ArgumentFault)
  | unusedArguments
  | missingArguments
  | needsNumber (code : Char) (kind : Kind)
  | needsInteger (code : Char) (kind : Kind)
  | realText (text : String)
  | wholeText (text : String)
  | digitLimit (digits : Nat)
  | nanToWhole
  | notCompliant
  | formatCode (code : Char) (position : Nat)
  | incompleteFormat
  | incompleteKey
  | needsMapping
  | needsCharacter
  | characterRange
  | widthNotWhole
  | countTooBig (isWidth : Bool)
  | countOverflow (isWidth : Bool)
  | notRealNumber (kind : Kind)
  | notATime
  | timeOverflow
  | noDifference (left right : Kind)
  | negativeSamples (points : Int)
  | axisLimits
  | plotFormat (name : String)
  | yearRange (year : Int)
  | infinityToWhole
  | tooLargeForFloat
  | quotientTooLarge
  | tooLargeForSize
  | timeRange
  | itemRange
  | tupleRange
  | textRange
  | assignmentRange
  | tooLargeForIndex
  | missingKey (key : String)
  | moduloByZero (message : String)
  | undefinedName (name : String)
  | needsOneNumber
  | needsOneCount
  | tooLongToWrite
  | outOfMemory
deriving DecidableEq, Repr

namespace ValueFault

def message : ValueFault → String
  | .noSize kind => s!"object of type '{kind.name}' has no len()"
  | .notIterable kind => s!"'{kind.name}' object is not iterable"
  | .noItemAssignment kind => s!"'{kind.name}' object does not support item assignment"
  | .unhashable kind => s!"unhashable type: '{kind.name}'"
  | .badIndex kind => s!"list indices must be integers or slices, not {kind.name}"
  | .notWhole kind => s!"'{kind.name}' object cannot be interpreted as an integer"
  | .notComparable kind => s!"'<' not supported between instances of '{kind.name}' and 'int'"
  | .notReal kind => s!"float() argument must be a string or a real number, not '{kind.name}'"
  | .notNumeral kind =>
    "int() argument must be a string, a bytes-like object or a real number, not "
      ++ s!"'{kind.name}'"
  | .unformattable kind => s!"unsupported format string passed to {kind.name}.__format__"
  | .wrongFormat code kind =>
    s!"Unknown format code '{code.toString}' for object of type '{kind.name}'"
  | .noAttribute kind name => s!"'{kind.name}' object has no attribute '{name}'"
  | .arguments callee fault => fault.message callee
  | .unusedArguments => "not all arguments converted during string formatting"
  | .missingArguments => "not enough arguments for format string"
  | .needsNumber code kind =>
    s!"%{code.toString} format: a real number is required, not {kind.name}"
  | .needsInteger code kind =>
    s!"%{code.toString} format: an integer is required, not {kind.name}"
  | .realText text => "could not convert string to float: " ++ Text.quoted text
  | .wholeText text =>
    "invalid literal for int() with base 10: "
      ++ String.ofList ((Text.quotedChars text.toList).take 200)
  | .digitLimit digits =>
    s!"Exceeds the limit ({Numeral.maxDigits} digits) for integer string conversion: value has "
      ++ s!"{digits} digits; use sys.set_int_max_str_digits() to increase the limit"
  | .nanToWhole => "cannot convert float NaN to integer"
  | .notCompliant => "Out of range float values are not JSON compliant"
  | .formatCode code position =>
    let hex := String.ofList (Nat.toDigits 16 code.toNat)
    let shown := if 31 ≤ code.toNat ∧ code.toNat ≤ 126 then code else '?'
    s!"unsupported format character '{shown.toString}' (0x{hex}) at index {position}"
  | .incompleteFormat => "incomplete format"
  | .incompleteKey => "incomplete format key"
  | .needsMapping => "format requires a mapping"
  | .needsCharacter => "%c requires int or char"
  | .characterRange => "%c arg not in range(0x110000)"
  | .widthNotWhole => "* wants int"
  | .countTooBig isWidth => (if isWidth then "width" else "precision") ++ " too big"
  | .countOverflow isWidth =>
    "Python int too large to convert to C " ++ (if isWidth then "ssize_t" else "int")
  | .notRealNumber kind => s!"must be real number, not {kind.name}"
  | .notATime => "Invalid value NaN (not a number)"
  | .timeOverflow => "[Errno 75] Value too large for defined data type"
  | .noDifference left right =>
    s!"unsupported operand type(s) for -: '{left.name}' and '{right.name}'"
  | .negativeSamples points => s!"Number of samples, {points}, must be non-negative."
  | .axisLimits => "Axis limits cannot be NaN or Inf"
  | .plotFormat name =>
    s!"Format '{name}' is not supported (supported formats: eps, jpeg, jpg, pdf, pgf, png, ps, "
      ++ "raw, rgba, svg, svgz, tif, tiff, webp)"
  | .yearRange year => s!"year {year} is out of range"
  | .infinityToWhole => "cannot convert float infinity to integer"
  | .tooLargeForFloat => "int too large to convert to float"
  | .tooLargeForSize => "cannot fit 'int' into an index-sized integer"
  | .timeRange => "timestamp out of range for platform time_t"
  | .itemRange => "list index out of range"
  | .tupleRange => "tuple index out of range"
  | .textRange => "string index out of range"
  | .quotientTooLarge => "integer division result too large for a float"
  | .assignmentRange => "list assignment index out of range"
  | .tooLargeForIndex => "cannot fit 'int' into an index-sized integer"
  | .missingKey key => Text.quoted key
  | .moduloByZero message => message
  | .undefinedName name => s!"name '{name}' is not defined"
  | .needsOneNumber => "only 0-dimensional arrays can be converted to Python scalars"
  | .needsOneCount => "only integer scalar arrays can be converted to a scalar index"
  | .tooLongToWrite =>
    s!"Exceeds the limit ({Numeral.maxDigits} digits) for integer string conversion; "
      ++ "use sys.set_int_max_str_digits() to increase the limit"
  | .outOfMemory => ""

end ValueFault

/-- An input that the catalog, a form or the command line rejects. -/
inductive Problem where
  | unknownMethod (slug : String) (known : List String)
  | unknownFields (slug : String) (names : List String)
  | invalidFields (slug : String) (fault : ValueFault)
  | emptySystem
  | notSquare (size : Nat)
  | rhsSize (found size : Nat)
  | guessSize (found size : Nat)
  | notASystem (slug : String)
  | unknownExample (name : String)
  | missingEquation (slug : String)
  | noExpressionField (slug field : String)
  | noField (slug field : String)
  | noMatrix (slug : String)
  | invalidSize
  | unknownTab (name : String)
  /-- A problem that a caller words. -/
  | stated (message code : String)
deriving DecidableEq, Repr

namespace Problem

def message : Problem → String
  | .unknownMethod slug known =>
    s!"Unknown method '{slug}' (expected one of: " ++ ", ".intercalate known ++ ")"
  | .unknownFields slug names => s!"Unknown field(s) for {slug}: " ++ ", ".intercalate names
  | .invalidFields slug fault => s!"Invalid fields for {slug}: " ++ fault.message
  | .emptySystem => "Coefficient matrix is empty"
  | .notSquare size => s!"Coefficient matrix must be square ({size}x{size})"
  | .rhsSize found size => s!"Vector b has {found} entries, expected {size}"
  | .guessSize found size => s!"Initial guess has {found} entries, expected {size}"
  | .notASystem slug => s!"{slug} does not solve linear systems"
  | .unknownExample name => s!"Unknown example '{name}'"
  | .missingEquation slug => s!"{slug} needs an equation (-e or -m)"
  | .noExpressionField slug field => s!"{slug} has no expression field '{field}'"
  | .noField slug field => s!"{slug} has no field '{field}'"
  | .noMatrix slug => s!"{slug} has no matrix"
  | .invalidSize => "System size must be positive"
  | .unknownTab name => s!"Unknown tab '{name}'"
  | .stated message _ => message

def code : Problem → String
  | .unknownMethod .. => "UNKNOWN_METHOD"
  | .unknownFields .. => "UNKNOWN_FIELD"
  | .invalidFields .. => "VALIDATION_ERROR"
  | .emptySystem => "EMPTY_SYSTEM"
  | .notSquare .. => "NOT_SQUARE"
  | .rhsSize .. => "SIZE_MISMATCH"
  | .guessSize .. => "SIZE_MISMATCH"
  | .notASystem .. => "NOT_A_SYSTEM"
  | .unknownExample .. => "UNKNOWN_EXAMPLE"
  | .missingEquation .. => "MISSING_EQUATION"
  | .noExpressionField .. => "UNKNOWN_FIELD"
  | .noField .. => "UNKNOWN_FIELD"
  | .noMatrix .. => "NOT_A_SYSTEM"
  | .invalidSize => "INVALID_SIZE"
  | .unknownTab .. => "UNKNOWN_TAB"
  | .stated _ code => code

end Problem

/-- A fault of the HTTP layer, by name. Transport faults mean that no answer arrived. -/
structure HttpFault where
  name : String
  transport : Bool
deriving DecidableEq, Repr

namespace HttpFault

def transportNames : List String :=
  ["TransportError", "TimeoutException", "ConnectTimeout", "ReadTimeout", "WriteTimeout",
    "PoolTimeout", "NetworkError", "ConnectError", "ReadError", "WriteError", "CloseError",
    "ProxyError", "UnsupportedProtocol", "ProtocolError", "LocalProtocolError",
    "RemoteProtocolError"]

def otherNames : List String :=
  ["HTTPError", "RequestError", "TooManyRedirects", "DecodingError", "HTTPStatusError"]

def ofName? (name : String) : Option HttpFault :=
  if transportNames.contains name then some ⟨name, true⟩
  else if otherNames.contains name then some ⟨name, false⟩
  else none

end HttpFault

/-- Anything that ends an operation. -/
inductive Failure where
  | invalid (problem : Problem)
  /-- A solve that failed without a structured answer. -/
  | solver (message code : String) (transient : Bool)
  /-- The service answered with an error body. -/
  | remote (message : String) (status : Option Int) (body : Json)
  /-- The request never produced a structured answer. -/
  | transport (message : String)
  /-- A form was submitted while its request was outstanding. -/
  | inProgress (message : String)
  /-- An expression that cannot be used locally. -/
  | expression (message code : String)
  | http (fault : HttpFault) (message : String)
  | value (fault : ValueFault)
  | missingFile (path : String)
  | isDirectory (path : String)
  /-- Anything else that an outside layer raised. -/
  | foreign (kind message : String)
deriving Inhabited

namespace Failure

def message : Failure → String
  | .invalid problem => problem.message
  | .solver message _ _ => message
  | .remote message _ _ => message
  | .transport message => message
  | .inProgress message => message
  | .expression message _ => message
  | .http _ message => message
  | .value fault => fault.message
  | .missingFile path => "[Errno 2] No such file or directory: " ++ Text.quoted path
  | .isDirectory path => "[Errno 21] Is a directory: " ++ Text.quoted path
  | .foreign _ message => message

/-- The solve that failed in a way nobody described. -/
def unexpectedResponse : Failure := .solver genericMessage "UNEXPECTED_RESPONSE" false

/-- The code under which a failure is told apart, if it has one. -/
def code? : Failure → Option String
  | .invalid problem => some problem.code
  | .solver _ code _ => some code
  | .remote .. => some "REMOTE_ERROR"
  | .transport _ => some "TRANSPORT_ERROR"
  | .expression _ code => some code
  | _ => none

/-- Whether the same solve may go well another time, where a failure says so. -/
def transient? : Failure → Option Bool
  | .solver _ _ transient => some transient
  | .remote .. => some false
  | .transport _ => some true
  | _ => none

/-- Whether the message of a failure is meant for the user. -/
def speaksForItself : Failure → Bool
  | .invalid _ => true
  | .solver .. => true
  | .remote .. => true
  | .transport _ => true
  | .http .. => true
  | _ => false

/-- Whether a solve command reports the failure and ends in good order. -/
def isReported : Failure → Bool
  | .invalid _ => true
  | .solver .. => true
  | .remote .. => true
  | .transport _ => true
  | _ => false

/-- The text that a user sees. -/
def described (failure : Failure) : String :=
  if failure.speaksForItself && !failure.message.isEmpty then failure.message else genericMessage

end Failure

end FormulaDesk
