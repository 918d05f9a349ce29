/-!
The kinds of errors, by name, and the families that tell more than their arguments.
-/

namespace ThrustBench.Incident

def commonKinds : List String :=
  ["ArithmeticError", "AssertionError", "AttributeError", "BaseException", "BaseExceptionGroup",
    "BlockingIOError", "BrokenPipeError", "BufferError", "BytesWarning", "ChildProcessError",
    "ConnectionAbortedError", "ConnectionError", "ConnectionRefusedError",
    "ConnectionResetError", "DeprecationWarning", "EOFError", "EncodingWarning",
    "EnvironmentError", "Exception", "ExceptionGroup", "FileExistsError", "FileNotFoundError",
    "FloatingPointError", "FutureWarning", "GeneratorExit", "IOError", "ImportError",
    "ImportWarning", "IndentationError", "IndexError", "InterruptedError", "IsADirectoryError",
    "KeyError", "KeyboardInterrupt", "LookupError", "MemoryError", "ModuleNotFoundError",
    "NameError", "NotADirectoryError", "NotImplementedError", "OSError", "OverflowError",
    "PendingDeprecationWarning", "PermissionError", "ProcessLookupError", "RecursionError",
    "ReferenceError", "ResourceWarning", "RuntimeError", "RuntimeWarning", "StopAsyncIteration",
    "StopIteration", "SyntaxError", "SyntaxWarning", "SystemError", "SystemExit", "TabError",
    "TimeoutError", "TypeError", "UnboundLocalError", "UnicodeDecodeError", "UnicodeEncodeError",
    "UnicodeError", "UnicodeTranslateError", "UnicodeWarning", "UserWarning", "ValueError",
    "Warning", "ZeroDivisionError"]

def ownKinds : List (String × String) :=
  [("SerialException", "serial.serialutil"), ("AbortExecution", "autoTest.reader")]

def isKind (name : String) : Bool :=
  commonKinds.contains name || (ownKinds.lookup name).isSome

def kindName (kind : String) : String :=
  match ownKinds.lookup kind with
  | some owner => owner ++ "." ++ kind
  | none => kind

def plainKind : String → String
  | "IOError" | "EnvironmentError" => "OSError"
  | kind => kind

def systemKind? : Int → Option String
  | 1 | 13 => some "PermissionError"
  | 2 => some "FileNotFoundError"
  | 3 => some "ProcessLookupError"
  | 4 => some "InterruptedError"
  | 10 => some "ChildProcessError"
  | 11 | 114 | 115 => some "BlockingIOError"
  | 17 => some "FileExistsError"
  | 20 => some "NotADirectoryError"
  | 21 => some "IsADirectoryError"
  | 32 | 108 => some "BrokenPipeError"
  | 103 => some "ConnectionAbortedError"
  | 104 => some "ConnectionResetError"
  | 110 => some "TimeoutError"
  | 111 => some "ConnectionRefusedError"
  | _ => none

def isSystemKind (kind : String) : Bool :=
  ["OSError", "SerialException", "PermissionError", "FileNotFoundError", "ProcessLookupError",
    "InterruptedError", "ChildProcessError", "BlockingIOError", "FileExistsError",
    "NotADirectoryError", "IsADirectoryError", "BrokenPipeError", "ConnectionError",
    "ConnectionAbortedError", "ConnectionResetError", "TimeoutError",
    "ConnectionRefusedError"].contains kind

def isTextKind (kind : String) : Bool :=
  ["SyntaxError", "IndentationError", "TabError"].contains kind

def isGroupKind (kind : String) : Bool :=
  ["ExceptionGroup", "BaseExceptionGroup"].contains kind

end ThrustBench.Incident
