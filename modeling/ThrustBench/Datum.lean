import ThrustBench.Number

/-!
Values: readings, offsets, cells of a sheet and arguments of commands.
-/

namespace ThrustBench

inductive Datum where
  | nothing
  | flag (b : Bool)
  | whole (n : Int)
  | real (x : Binary64)
  | text (s : String)
  | list (items : List Datum)
  | record (fields : List (String × Datum))

namespace Datum

instance : Inhabited Datum := ⟨nothing⟩

mutual

def same : Datum → Datum → Bool
  | nothing, nothing => true
  | flag a, flag b => a == b
  | whole m, whole n => m == n
  | real x, real y => x == y
  | text s, text t => s == t
  | list a, list b => sameItems a b
  | record a, record b => sameFields a b
  | _, _ => false

def sameItems : List Datum → List Datum → Bool
  | [], [] => true
  | a :: as, b :: bs => same a b && sameItems as bs
  | _, _ => false

def sameFields : List (String × Datum) → List (String × Datum) → Bool
  | [], [] => true
  | (m, a) :: as, (n, b) :: bs => m == n && same a b && sameFields as bs
  | _, _ => false

end

mutual

theorem same_iff : ∀ a b : Datum, same a b = true ↔ a = b
  | nothing, b => by cases b <;> simp [same]
  | flag _, b => by cases b <;> simp [same]
  | whole _, b => by cases b <;> simp [same]
  | real _, b => by cases b <;> simp [same]
  | text _, b => by cases b <;> simp [same]
  | list as, b => by cases b <;> simp [same, sameItems_iff as]
  | record as, b => by cases b <;> simp [same, sameFields_iff as]

theorem sameItems_iff : ∀ as bs : List Datum, sameItems as bs = true ↔ as = bs
  | [], bs => by cases bs <;> simp [sameItems]
  | a :: as, bs => by cases bs <;> simp [sameItems, same_iff a, sameItems_iff as]

theorem sameFields_iff : ∀ as bs : List (String × Datum), sameFields as bs = true ↔ as = bs
  | [], bs => by cases bs <;> simp [sameFields]
  | (_, a) :: as, bs => by
    cases bs with
    | nil => simp [sameFields]
    | cons b bs =>
      obtain ⟨_, b⟩ := b
      simp [sameFields, same_iff a, sameFields_iff as, and_assoc]

end

instance : DecidableEq Datum := fun a b => decidable_of_iff (same a b = true) (same_iff a b)

def kind : Datum → Kind
  | nothing => .nothing
  | flag _ => .flag
  | whole _ => .whole
  | real _ => .real
  | text _ => .text
  | list _ => .list
  | record _ => .record

def ofNumber : Number → Datum
  | .whole n => whole n
  | .real x => real x

def ofNumber? : Option Number → Datum
  | some n => ofNumber n
  | none => nothing

def number? : Datum → Option Number
  | flag b => some (.whole (if b then 1 else 0))
  | whole n => some (.whole n)
  | real x => some (.real x)
  | _ => none

mutual

def shownInside : Datum → String
  | nothing => "None"
  | flag true => "True"
  | flag false => "False"
  | whole n => wholeText n
  | real x => x.text
  | text s => Text.quoted s
  | list items => "[" ++ shownItems items ++ "]"
  | record fields => "\x7b" ++ shownFields fields ++ "\x7d"

def shownItems : List Datum → String
  | [] => ""
  | [d] => d.shownInside
  | d :: e :: ds => d.shownInside ++ ", " ++ shownItems (e :: ds)

def shownFields : List (String × Datum) → String
  | [] => ""
  | [(name, d)] => Text.quoted name ++ ": " ++ d.shownInside
  | (name, d) :: f :: fs =>
    Text.quoted name ++ ": " ++ d.shownInside ++ ", " ++ shownFields (f :: fs)

end

def shown : Datum → String
  | text s => s
  | d => d.shownInside

def equals (a b : Datum) : Bool :=
  match a.number?, b.number? with
  | some m, some n => m.eq n
  | none, none => a == b
  | _, _ => false

def sub (a b : Datum) : Except Fault Number :=
  match a.number?, b.number? with
  | some m, some n => m.sub n
  | _, _ => .error (.operands "-" a.kind b.kind)

def div (a b : Datum) : Except Fault Binary64 :=
  match a.number?, b.number? with
  | some m, some n => m.div n
  | _, _ => .error (.operands "/" a.kind b.kind)

def lt (a b : Datum) : Except Fault Bool :=
  match a, b with
  | text s, text t => .ok (decide (s < t))
  | _, _ =>
    match a.number?, b.number? with
    | some m, some n => .ok (m.lt n)
    | _, _ => .error (.unordered "<" a.kind b.kind)

def toReal : Datum → Except Fault Binary64
  | text s => Numeral.real? s
  | flag b => .ok (Binary64.ofInt (if b then 1 else 0))
  | whole n => (Number.whole n).toReal
  | real x => .ok x
  | d => .error (.notReal d.kind)

def wholeOfReal : Binary64 → Except Fault Int
  | .nan => .error .nanToWhole
  | .infinity _ => .error .infinityToWhole
  | x => .ok x.truncate

def toWhole : Datum → Except Fault Int
  | text s => Numeral.whole? s
  | flag b => .ok (if b then 1 else 0)
  | whole n => .ok n
  | real x => wholeOfReal x
  | d => .error (.notWhole d.kind)

def truth : Datum → Bool
  | nothing => false
  | flag b => b
  | whole n => n != 0
  | real x => !x.isZero
  | text s => !s.isEmpty
  | list items => !items.isEmpty
  | record fields => !fields.isEmpty

end Datum

end ThrustBench
