import ThrustBench.Datum
import ThrustBench.Text.Blank

/-!
The place of an error in a text: the file and the line, and an excerpt with marks below the part
that is meant.  Reports tell it in two wordings, which differ in what they make of white space, of
ends beyond the line, and of values that no place should have.
-/

namespace ThrustBench.Incident

/-- The place of an error in a text.  Offsets count from 1. -/
structure Place where
  file : Datum := .nothing
  line : Datum := .nothing
  offset : Datum := .nothing
  text : Datum := .nothing
  endLine : Datum := .nothing
  endOffset : Datum := .nothing

namespace Place

def parts : Datum → Except Fault (List Datum)
  | .list items => .ok items
  | .text s => .ok (s.toList.map fun c => .text (String.ofList [c]))
  | .record fields => .ok (fields.map fun field => .text field.1)
  | d => .error (.notIterable d.kind)

def of? (d : Datum) : Except Fault Place := do
  match ← parts d with
  | [file, line, offset, text] => return { file, line, offset, text }
  | [_, _, _, _, _] => .error .endOffsetMissing
  | [file, line, offset, text, endLine, endOffset] =>
    return { file, line, offset, text, endLine, endOffset }
  | values =>
    if values.length < 4 then .error (.argumentCount "function" "at least" 4 values.length)
    else .error (.argumentCount "function" "at most" 6 values.length)

def heading (file line : String) : String := "  File \"" ++ file ++ "\", line " ++ line ++ "\n"

def indented (cs : List Char) : String := "    " ++ String.ofList cs ++ "\n"

/-! The full wording. -/

def isIndent (c : Char) : Bool := c == ' ' || c == '\n' || c == '\x0c'

def successor (d : Datum) : Except Fault Number :=
  match d with
  | .text _ | .list _ => .error (.notJoined d.kind)
  | _ =>
    match d.number? with
    | some n => n.sub (.whole (-1))
    | none => .error (.operands "+" d.kind .whole)

/-- The end that marks go up to.  Without one of its own, or with one at the beginning of the marks,
it is right behind their beginning. -/
def markEnd (p : Place) : Except Fault Datum := do
  let finish ←
    match p.endOffset with
    | .list _ => .error (.notHashable .list)
    | .record _ => .error (.notHashable .record)
    | d => .ok (if d = .nothing ∨ d.equals (.whole 0) then p.offset else d)
  if p.offset.equals finish || finish.equals (.whole (-1)) then
    return .ofNumber (← successor p.offset)
  else return finish

def columnOf (offset : Datum) (lost : Nat) : Except Fault Number := do
  (← offset.sub (.whole 1)).sub (.whole lost)

def markLimit : Nat := Nat.pow 2 24

def marks : Number → Except Fault (List Char)
  | .real _ => .error (.notRepeatable .real)
  | .whole n =>
    if n < -(Int.pow 2 63) ∨ Int.pow 2 63 ≤ n then .error .tooOften
    else if markLimit < n.toNat then .error .outOfMemory
    else .ok (List.replicate n.toNat '^')

def markLine (p : Place) (line : List Char) (lost : Nat) : Except Fault String := do
  if p.offset = .nothing then return ""
  let finish ← p.markEnd
  let first ← columnOf p.offset lost
  let last ← columnOf finish lost
  if (Number.whole 0).lt first || first.eq (.whole 0) then
    match first with
    | .real _ => .error .sliceIndex
    | .whole n =>
      let blanks := (line.take n.toNat).map fun c => if Text.isBlank c then c else ' '
      return indented (blanks ++ (← marks (← last.sub first)))
  else return ""

def excerpt (p : Place) : Except Fault String :=
  match p.text with
  | .nothing => .ok ""
  | .text s => do
    let line := (s.toList.reverse.dropWhile (· == '\n')).reverse
    let shown := line.dropWhile isIndent
    return indented shown ++ (← p.markLine shown (line.length - shown.length))
  | d => .error (.lacks d.kind "rstrip")

def full (p : Place) : Except Fault String := do
  let file := if p.file.truth then p.file.shown else "<string>"
  return (if p.line = .nothing then "" else heading file p.line.shown) ++ (← p.excerpt)

def fullNote (p : Place) : String :=
  if p.line = .nothing ∧ p.file ≠ .nothing then " (" ++ p.file.shown ++ ")" else ""

/-! The brief wording, which counts in bytes. -/

def word? : Datum → Option Int
  | .flag b => some (if b then 1 else 0)
  | .whole n => if -(Int.pow 2 63) ≤ n ∧ n < Int.pow 2 63 then some n else none
  | _ => none

def wordOr (missing : Int) : Datum → Option Int
  | .nothing => some missing
  | d => word? d

def byteSize (cs : List Char) : Nat := cs.foldl (fun size c => size + c.utf8Size) 0

def dropLines : Nat → List Char → Int → List Char × Int
  | 0, text, offset => (text, offset)
  | bound + 1, text, offset =>
    let line := text.takeWhile (· != '\n')
    match text.dropWhile (· != '\n') with
    | [] => (text, offset)
    | _ :: rest =>
      if offset ≤ byteSize line then (text, offset)
      else dropLines bound rest (offset - byteSize line - 1)

def isBriefIndent (c : Char) : Bool := c == ' ' || c == '\t' || c == '\x0c'

def briefExcerpt (text : List Char) (offset : Int) (count : Nat) : String :=
  let shown := text.dropWhile isBriefIndent
  let offset := offset - 1 - (text.length - shown.length : Nat)
  let closed := shown.getLast? == some '\n'
  let size : Int := byteSize shown - (if closed then 1 else 0 : Nat)
  let (shown, offset) := dropLines shown.length shown (min offset size)
  let line := "    " ++ String.ofList shown ++ (if closed then "" else "\n")
  if offset < 0 then line
  else line ++ indented (List.replicate offset.toNat ' ' ++ List.replicate count '^')

def markCount (offset finish : Int) : Nat :=
  if 0 < finish ∧ offset < finish then (finish - offset).toNat else 1

/-- The place in the brief wording, if all of it is given by numbers of 64 bits.  Only some errors
have an end. -/
def brief? (p : Place) (ended : Bool) : Option String := do
  let line ← word? p.line
  let offset ← wordOr (-1) p.offset
  let endLine ← if ended then wordOr line p.endLine else some line
  let endOffset ← if ended then wordOr (-1) p.endOffset else some (-1)
  let file := if p.file = .nothing then "<string>" else p.file.shown
  let excerpt :=
    match p.text with
    | .text s =>
      let size : Int := byteSize s.toList
      let finish := min (size + 1) (if line < endLine then size else endOffset)
      briefExcerpt (s.toList.takeWhile (· != '\x00')) offset (markCount offset finish)
    | _ => ""
  return heading file (toString line) ++ excerpt

def baseName (path : String) : String :=
  String.ofList ((path.toList.reverse.takeWhile (· != '/')).reverse)

def briefNote (p : Place) : String :=
  let line? : Option Int :=
    match p.line with
    | .whole n => some (if -(Int.pow 2 63) ≤ n ∧ n < Int.pow 2 63 then n else -1)
    | _ => none
  match p.file, line? with
  | .text file, some n => " (" ++ baseName file ++ ", line " ++ toString n ++ ")"
  | .text file, none => " (" ++ baseName file ++ ")"
  | _, some n => " (line " ++ toString n ++ ")"
  | _, none => ""

end Place

end ThrustBench.Incident
