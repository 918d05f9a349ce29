import ThrustBench.Kind
import ThrustBench.Text.Quoted
import ThrustBench.Text.Utf8
import ThrustBench.Grammar.Mismatch

/-!
Everything that can go wrong, as causes.  The wording of each cause stands in `Fault.message`.
-/

namespace ThrustBench

inductive Fault where
  | throttleRange
  /-- A value has no such part; an absent device, for one, has no parts. -/
  | lacks (owner : Kind) (part : String)
  | deviceGone
  | operands (operation : String) (left right : Kind)
  | unordered (comparison : String) (left right : Kind)
  | wholeTooLarge
  | quotientTooLarge
  | infinityToWhole
  | nanToWhole
  | notWholeText (text : String)
  | tooManyDigits (count : Nat)
  | notRealText (text : String)
  | notReal (kind : Kind)
  | notWhole (kind : Kind)
  | divisionByZero
  | negativeSleep
  | waitTooLong
  | tooFewValues (expected got : Nat)
  | tooManyValues (expected : Nat)
  | noSuchItem
  | outOfBounds (index : Int) (size : Nat)
  | notCallable (kind : Kind)
  | notIterable (kind : Kind)
  | notHashable (kind : Kind)
  | notText (kind : Kind)
  | partNotText (kind : Kind)
  | notJoined (kind : Kind)
  | sliceIndex
  | notRepeatable (kind : Kind)
  | tooOften
  | outOfMemory
  /-- An error of another number of arguments; the bound says in which direction. -/
  | argumentCount (caller bound : String) (expected given : Nat)
  | argumentKind (caller : String) (place : Nat) (kind : Kind)
  | argumentTooLarge
  | amountTooLarge
  | endOffsetMissing
  | notBytes (kind : Kind)
  | notSequence
  | emptySequence
  | notError (index : Nat)
  | unknownKind (name : String)
  | notOneCharacter (length : Nat)
  | notCharacter (kind : Kind)
  | lengthMismatch (length : Nat)
  | namesNotUnique
  | noColumns
  | negativeSize
  | notIndex (kind : Kind)
  | integerRequired
  | notSize (shown : String)
  | sizeTooLarge
  | storeTooLarge
  | noRoom (size : Nat)
  | noAxis
  | ragged (sizes : List Nat)
  | indexTooLarge
  | notSubscript
  | realIndex
  | severalDimensions
  | notWholePlace
  | sequenceInPlace
  | pointRefused
  | aborted
  /-- A routine was stopped; the text says where it noticed. -/
  | interrupted (text : String)
  | undecodable (fault : Text.Utf8Fault)
  | mismatch (m : Grammar.Mismatch)
  | noSuchFile (path : String)
  | isDirectory (path : String)
  | notDirectory (path : String)
  | nameTooLong (path : String)
  | nullInPath
  | command (rule : String) (cause : Fault)
  | neverEnds
  deriving DecidableEq

namespace Fault

/-- The most digits that are read as a whole number. -/
def digitLimit : Nat := 4300

def sizesText : List Nat → String
  | [size] => "(" ++ toString size ++ ",)"
  | sizes => "(" ++ ", ".intercalate (sizes.map toString) ++ ")"

def byteUnits : List String := ["bytes", "KiB", "MiB", "GiB", "TiB", "PiB", "EiB"]

def threeDigits (count unit : Nat) : String :=
  let rounded (scale : Nat) : Nat := (2 * count * scale + unit) / (2 * unit)
  let fraction (scale width : Nat) : String :=
    let n := rounded scale
    let digits := toString (n % scale)
    toString (n / scale) ++ "." ++ String.ofList (List.replicate (width - digits.length) '0')
      ++ digits
  if rounded 100 < 1000 then fraction 100 2
  else if rounded 10 < 1000 then fraction 10 1
  else toString (rounded 1) ++ "."

def bytesText (count : Nat) : String :=
  let index := min (Nat.log2 count / 10) 6
  threeDigits count (Nat.pow 1024 index) ++ " " ++ byteUnits.getD index ""

def message : Fault → String
  | throttleRange => "throttle must be between 0 and 100"
  | lacks owner part => "'" ++ owner.name ++ "' object has no attribute '" ++ part ++ "'"
  | deviceGone => "device gone"
  | operands operation left right =>
    "unsupported operand type(s) for " ++ operation ++ ": '" ++ left.name ++ "' and '"
      ++ right.name ++ "'"
  | unordered comparison left right =>
    "'" ++ comparison ++ "' not supported between instances of '" ++ left.name ++ "' and '"
      ++ right.name ++ "'"
  | wholeTooLarge => "int too large to convert to float"
  | quotientTooLarge => "integer division result too large for a float"
  | infinityToWhole => "cannot convert float infinity to integer"
  | nanToWhole => "cannot convert float NaN to integer"
  | notWholeText text =>
    "invalid literal for int() with base 10: " ++ String.ofList ((Text.quoted text).toList.take 200)
  | tooManyDigits count =>
    "Exceeds the limit (" ++ toString digitLimit
      ++ " digits) for integer string conversion: value has " ++ toString count
      ++ " digits; use sys.set_int_max_str_digits() to increase the limit"
  | notRealText text => "could not convert string to float: " ++ Text.quoted text
  | notReal kind =>
    "float() argument must be a string or a real number, not '" ++ kind.name ++ "'"
  | notWhole kind =>
    "int() argument must be a string, a bytes-like object or a real number, not '"
      ++ kind.name ++ "'"
  | divisionByZero => "float division by zero"
  | negativeSleep => "sleep length must be non-negative"
  | waitTooLong => "timestamp out of range for platform time_t"
  | tooFewValues expected got =>
    "not enough values to unpack (expected " ++ toString expected ++ ", got " ++ toString got ++ ")"
  | tooManyValues expected => "too many values to unpack (expected " ++ toString expected ++ ")"
  | noSuchItem => "list index out of range"
  | outOfBounds index size =>
    "index " ++ toString index ++ " is out of bounds for axis 0 with size " ++ toString size
  | notCallable kind => "'" ++ kind.name ++ "' object is not callable"
  | notIterable kind => "'" ++ kind.name ++ "' object is not iterable"
  | notHashable kind => "unhashable type: '" ++ kind.name ++ "'"
  | notText kind => "expected string or bytes-like object, got '" ++ kind.name ++ "'"
  | partNotText kind => "attribute name must be string, not '" ++ kind.name ++ "'"
  | notJoined kind =>
    "can only concatenate " ++ kind.name ++ " (not \"int\") to " ++ kind.name
  | sliceIndex => "slice indices must be integers or None or have an __index__ method"
  | notRepeatable kind => "can't multiply sequence by non-int of type '" ++ kind.name ++ "'"
  | tooOften | amountTooLarge => "cannot fit 'int' into an index-sized integer"
  | outOfMemory => ""
  | argumentCount caller bound expected given =>
    caller ++ " takes " ++ bound ++ " " ++ toString expected ++ " arguments (" ++ toString given
      ++ " given)"
  | argumentKind caller place kind =>
    caller ++ "argument " ++ toString place ++ " must be str, not " ++ kind.givenName
  | argumentTooLarge => "Python int too large to convert to C ssize_t"
  | endOffsetMissing => "end_offset must be provided when end_lineno is provided"
  | notBytes kind => "a bytes-like object is required, not '" ++ kind.name ++ "'"
  | notSequence => "second argument (exceptions) must be a sequence"
  | emptySequence => "second argument (exceptions) must be a non-empty sequence"
  | notError index =>
    "Item " ++ toString index ++ " of second argument (exceptions) is not an exception"
  | unknownKind name => "module 'builtins' has no attribute '" ++ name ++ "'"
  | notOneCharacter length =>
    "ord() expected a character, but string of length " ++ toString length ++ " found"
  | notCharacter kind => "ord() expected string of length 1, but " ++ kind.name ++ " found"
  | lengthMismatch length =>
    "Length of values (" ++ toString length ++ ") does not match length of index (1)"
  | namesNotUnique => "Reindexing only valid with uniquely valued Index objects"
  | noColumns => "cannot set a frame with no defined columns"
  | negativeSize => "negative dimensions are not allowed"
  | notIndex kind => "'" ++ kind.name ++ "' object cannot be interpreted as an integer"
  | integerRequired => "an integer is required"
  | notSize shown => "expected a sequence of integers or a single integer, got '" ++ shown ++ "'"
  | sizeTooLarge => "Maximum allowed dimension exceeded"
  | storeTooLarge =>
    "array is too big; `arr.size * arr.dtype.itemsize` is larger than the maximum possible size."
  | noRoom size =>
    "Unable to allocate " ++ bytesText (8 * size) ++ " for an array with shape "
      ++ sizesText [size] ++ " and data type float64"
  | noAxis => "too many indices for array: array is 0-dimensional, but 1 were indexed"
  | ragged sizes =>
    "setting an array element with a sequence. The requested array has an inhomogeneous shape "
      ++ "after " ++ toString sizes.length ++ " dimensions. The detected shape was " ++ sizesText sizes
      ++ " + inhomogeneous part."
  | indexTooLarge => "Python int too large to convert to C long"
  | notSubscript =>
    "only integers, slices (`:`), ellipsis (`...`), numpy.newaxis (`None`) and integer or boolean "
      ++ "arrays are valid indices"
  | realIndex =>
    "Indexing with a float is no longer supported. Manually convert to an integer key instead."
  | severalDimensions =>
    "Multi-dimensional indexing (e.g. `obj[:, None]`) is no longer supported. Convert to a numpy "
      ++ "array before indexing instead."
  | notWholePlace => "iAt based indexing can only have integer indexers"
  | sequenceInPlace => "setting an array element with a sequence."
  | pointRefused => "point refused"
  | aborted => "User Abort"
  | interrupted text => text
  | undecodable fault => fault.message
  | mismatch m => m.message
  | noSuchFile path => "[Errno 2] No such file or directory: " ++ Text.quoted path
  | isDirectory path => "[Errno 21] Is a directory: " ++ Text.quoted path
  | notDirectory path => "[Errno 20] Not a directory: " ++ Text.quoted path
  | nameTooLong path => "[Errno 36] File name too long: " ++ Text.quoted path
  | nullInPath => "embedded null byte"
  | command rule cause => "Error trying to process rule \"" ++ rule ++ "\":\n\n" ++ cause.message
  | neverEnds => "the wait has no end"

end Fault

end ThrustBench
