import ThrustBench.Incident.Kind
import ThrustBench.Incident.Place

/-!
What an error is about, sorted by the families that have a way of their own to say it.
-/

namespace ThrustBench.Incident

inductive Wording where
  /-- Tells that a detail is not available. -/
  | full
  /-- Shows every detail as it is. -/
  | brief
  deriving DecidableEq

inductive Trouble where
  | plain (arguments : List Datum)
  | lookup (key : Datum)
  | system (number reason file target : Datum)
  | text (detail : Datum) (place : Place)
  | encoding (form : Option String) (subject : String) (start finish : Int) (reason : String)

namespace Trouble

def textAt (caller : String) (place : Nat) : Datum → Except Fault String
  | .text s => .ok s
  | d => .error (.argumentKind caller place d.kind)

def wordAt (d : Datum) : Except Fault Int :=
  match Place.word? d, d with
  | some n, _ => .ok n
  | none, .whole _ => .error .argumentTooLarge
  | none, _ => .error (.notIndex d.kind)

def encoding? : List Datum → Except Fault Trouble
  | [form, subject, start, finish, reason] => do
    let form ← textAt "" 1 form
    let subject ← textAt "" 2 subject
    let start ← wordAt start
    let finish ← wordAt finish
    return .encoding (some form) subject start finish (← textAt "" 5 reason)
  | ds => .error (.argumentCount "function" "exactly" 5 ds.length)

def replacement? : List Datum → Except Fault Trouble
  | [subject, start, finish, reason] => do
    let subject ← textAt "" 1 subject
    let start ← wordAt start
    let finish ← wordAt finish
    return .encoding none subject start finish (← textAt "" 4 reason)
  | ds => .error (.argumentCount "function" "exactly" 4 ds.length)

/-- A form, bytes, a beginning, an end and a reason; no value here is bytes. -/
def decoding? : List Datum → Except Fault Trouble
  | [form, bytes, start, finish, reason] => do
    let _ ← textAt "" 1 form
    let _ ← wordAt start
    let _ ← wordAt finish
    let _ ← textAt "" 5 reason
    .error (.notBytes bytes.kind)
  | ds => .error (.argumentCount "function" "exactly" 5 ds.length)

/-- A text and some errors; no value here is an error. -/
def group? : List Datum → Except Fault Trouble
  | [title, errors] => do
    let _ ← textAt "BaseExceptionGroup.__new__() " 1 title
    match errors with
    | .list [] | .text "" => .error .emptySequence
    | .list _ | .text _ => .error (.notError 0)
    | _ => .error .notSequence
  | ds => .error (.argumentCount "BaseExceptionGroup.__new__()" "exactly" 2 ds.length)

/-- A failure of the operating system.  A blocked operation may tell how much it has done in the
place of a file, and that has to be a number of 64 bits. -/
def system? (kind : String) (number reason file target : Datum) : Except Fault Trouble :=
  if kind = "BlockingIOError" ∧ file.number?.isSome then
    match Place.word? file, file with
    | some _, _ => .ok (.system number reason .nothing .nothing)
    | none, .whole _ => .error .amountTooLarge
    | none, _ => .error (.notIndex file.kind)
  else .ok (.system number reason file target)

def systemOf? (kind : String) (arguments : List Datum) : Except Fault Trouble :=
  match arguments with
  | [number, reason] => system? kind number reason .nothing .nothing
  | [number, reason, file] | [number, reason, file, _] => system? kind number reason file .nothing
  | [number, reason, file, _, target] => system? kind number reason file target
  | _ => .ok (.plain arguments)

def text? : List Datum → Except Fault Trouble
  | [detail, place] => do return .text detail (← Place.of? place)
  | ds => .ok (.text (ds.headD .nothing) {})

def toldKind (kind : String) (arguments : List Datum) : String :=
  if kind = "OSError" ∧ 2 ≤ arguments.length ∧ arguments.length ≤ 5 then
    match arguments.head? with
    | some (.whole n) => (systemKind? n).getD kind
    | some (.flag b) => (systemKind? (if b then 1 else 0)).getD kind
    | _ => kind
  else kind

def of? (kind : String) (arguments : List Datum) : Except Fault Trouble :=
  if isTextKind kind then text? arguments
  else if isSystemKind kind then systemOf? kind arguments
  else if isGroupKind kind then group? arguments
  else
    match kind, arguments with
    | "KeyError", [d] => .ok (.lookup d)
    | "UnicodeEncodeError", ds => encoding? ds
    | "UnicodeTranslateError", ds => replacement? ds
    | "UnicodeDecodeError", ds => decoding? ds
    | _, ds => .ok (.plain ds)

def tuple (ds : List Datum) : String :=
  "(" ++ ", ".intercalate (ds.map Datum.shownInside) ++ ")"

def plainText : List Datum → String
  | [] => ""
  | [d] => d.shown
  | ds => tuple ds

def filesText (file target : Datum) : String :=
  if file = .nothing then ""
  else if target = .nothing then ": " ++ file.shownInside
  else ": " ++ file.shownInside ++ " -> " ++ target.shownInside

def codeText (c : Char) : String :=
  if c.toNat < 0x100 then "\\x" ++ Text.hex 2 c.toNat
  else if c.toNat < 0x10000 then "\\u" ++ Text.hex 4 c.toNat
  else "\\U" ++ Text.hex 8 c.toNat

def rangeText (subject : String) (start finish : Int) : String :=
  match (if 0 ≤ start ∧ finish = start + 1 then subject.toList[start.toNat]? else none) with
  | some c => "character '" ++ codeText c ++ "' in position " ++ toString start
  | none => "characters in position " ++ toString start ++ "-" ++ toString (finish - 1)

def message : Trouble → String
  | .plain arguments => plainText arguments
  | .lookup key => key.shownInside
  | .system number reason file target =>
    "[Errno " ++ number.shown ++ "] " ++ reason.shown ++ filesText file target
  | .text detail _ => detail.shown
  | .encoding (some form) subject start finish reason =>
    "'" ++ form ++ "' codec can't encode " ++ rangeText subject start finish ++ ": " ++ reason
  | .encoding none subject start finish reason =>
    "can't translate " ++ rangeText subject start finish ++ ": " ++ reason

def line (kind message : String) : String :=
  (if message.isEmpty then kindName kind else kindName kind ++ ": " ++ message) ++ "\n"

def fullText (kind : String) (detail : Datum) (place : Place) : Except Fault String := do
  let detail := if detail.truth then detail.shown else "<no detail available>"
  return (← place.full) ++ line kind (detail ++ place.fullNote)

def briefText (kind : String) (detail : Datum) (place : Place) : String :=
  match place.brief? (kind = "SyntaxError") with
  | some excerpt => excerpt ++ line kind (if detail = .nothing then "" else detail.shown)
  | none => line kind (detail.shown ++ place.briefNote)

def told (w : Wording) (kind : String) : Trouble → Except Fault String
  | .text detail place =>
    match w with
    | .full => fullText kind detail place
    | .brief => .ok (briefText kind detail place)
  | t => .ok (line kind t.message)

end Trouble

end ThrustBench.Incident
