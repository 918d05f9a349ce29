import ThrustBench.Proofs.CsvReading
import ThrustBench.Proofs.RecordedCells
import ThrustBench.Proofs.WrittenDoubles

/-!
What the cells of a sheet are worth.  Two cells are alike if both are missing or if they are equal
as numbers; that is so if they are worth the same.  Storing a cell in another form, beside or below
other cells, or in a file, keeps what it is worth.
-/

namespace ThrustBench

inductive Worth where
  | missing
  | infinite (negative : Bool)
  | steps (count : Int)
  | other (d : Datum)

namespace Number

def worth : Number → Worth
  | whole n => .steps (n * Binary64.unit)
  | real .nan => .missing
  | real (.infinity negative) => .infinite negative
  | real (.finite negative steps) => .steps (Binary64.signed negative steps)

theorem eq_iff (m n : Number) : m.eq n = true ↔ m.worth = n.worth ∧ m.worth ≠ .missing := by
  cases m with
  | whole m =>
      cases n with
      | whole n =>
          simp only [eq, steps?, worth, decide_eq_true_eq, Worth.steps.injEq, ne_eq, reduceCtorEq,
            not_false_eq_true, and_true]
      | real y =>
          cases y <;> simp only [eq, steps?, worth, decide_eq_true_eq, Worth.steps.injEq, ne_eq,
            reduceCtorEq, not_false_eq_true, and_true, Bool.false_eq_true]
  | real x =>
      cases n with
      | whole n =>
          cases x <;> simp only [eq, steps?, worth, decide_eq_true_eq, Worth.steps.injEq, ne_eq,
            reduceCtorEq, not_false_eq_true, and_true, Bool.false_eq_true, false_and]
      | real y =>
          cases x <;> cases y <;> simp only [eq, Binary64.eq, worth, decide_eq_true_eq, beq_iff_eq,
            Worth.steps.injEq, Worth.infinite.injEq, ne_eq, reduceCtorEq, not_false_eq_true,
            not_true_eq_false, and_true, and_false, Bool.false_eq_true]

theorem worth_ne_other (n : Number) (d : Datum) : n.worth ≠ .other d := by
  cases n with
  | whole n => simp only [worth, ne_eq, reduceCtorEq, not_false_eq_true]
  | real x => cases x <;> simp only [worth, ne_eq, reduceCtorEq, not_false_eq_true]

end Number

namespace Datum

def worth (d : Datum) : Worth :=
  match d.number? with
  | some n => n.worth
  | none => if d = nothing then .missing else .other d

/-- A value as the bench records it: missing, a whole number that a double holds, or a double. -/
inductive Fair : Datum → Prop
  | nothing : Fair nothing
  | whole {n : Int} (small : n.natAbs < Nat.pow 2 53) : Fair (whole n)
  | real {x : Binary64} (held : x.Representable) : Fair (real x)

end Datum

namespace Sheet

/-- Are two cells alike: both missing, or equal?  Numbers are compared as numbers. -/
def alike (a b : Datum) : Bool := (isMissing a && isMissing b) || a.equals b

theorem isMissing_iff (d : Datum) : isMissing d = true ↔ d.worth = .missing := by
  cases d with
  | real x =>
      cases x <;> simp only [isMissing, Datum.worth, Datum.number?, Number.worth, reduceCtorEq,
        Bool.false_eq_true]
  | nothing => simp only [isMissing, Datum.worth, Datum.number?, if_true]
  | _ =>
      simp only [isMissing, Datum.worth, Datum.number?, Number.worth, reduceCtorEq, if_false,
        Bool.false_eq_true]

theorem alike_iff (a b : Datum) : alike a b = true ↔ a.worth = b.worth := by
  rw [alike, Bool.or_eq_true, Bool.and_eq_true, isMissing_iff, isMissing_iff]
  cases first : a.number? with
  | some m =>
      cases second : b.number? with
      | some n =>
          simp only [Datum.equals, Datum.worth, first, second, Number.eq_iff]
          by_cases missing : m.worth = .missing
          · rw [missing]
            simp [eq_comm]
          · simp [missing]
      | none =>
          simp only [Datum.equals, Datum.worth, first, second, Bool.false_eq_true, or_false]
          by_cases nothing : b = .nothing
          · simp [nothing]
          · simp [nothing, m.worth_ne_other]
  | none =>
      cases second : b.number? with
      | some n =>
          have apart (d : Datum) := (n.worth_ne_other d).symm
          simp only [Datum.equals, Datum.worth, first, second, Bool.false_eq_true, or_false]
          by_cases nothing : a = .nothing
          · simp [nothing, eq_comm]
          · simp [nothing, apart]
      | none =>
          simp only [Datum.equals, Datum.worth, first, second, beq_iff_eq]
          by_cases left : a = .nothing
          · by_cases right : b = .nothing
            · simp [left, right]
            · simp [left, right, eq_comm]
          · by_cases right : b = .nothing
            · simp [left, right]
            · simp [left, right]

end Sheet

namespace Datum

def KeptBy (f : Datum → Datum) (d : Datum) : Prop := (f d).Fair ∧ (f d).worth = d.worth

variable {d : Datum}

theorem KeptBy.comp {f g : Datum → Datum} (first : d.KeptBy f) (second : (f d).KeptBy g) :
    d.KeptBy fun d => g (f d) :=
  ⟨second.1, second.2.trans first.2⟩

theorem Fair.missing : Sheet.missing.Fair := .real .nan

end Datum

namespace Sheet

open Datum (Fair KeptBy)

variable {d : Datum}

theorem Form.cast_keeps (form : Form) (fair : d.Fair) : d.KeptBy form.cast := by
  by_cases real : form = .real
  · subst real
    cases fair with
    | nothing => exact ⟨.missing, rfl⟩
    | whole small =>
        rename_i n
        refine ⟨.real (Binary64.ofInt_representable n), ?_⟩
        simp only [cast, Binary64.ofInt_of_small small, Datum.worth, Datum.number?, Number.worth,
          Binary64.signed_natAbs]
    | real held => exact ⟨.real held, rfl⟩
  · have same : form.cast d = d := by
      cases fair <;> cases form <;> first | rfl | exact absurd rfl real
    exact ⟨same.symm ▸ fair, by rw [same]⟩

structure Filled (form : Form) (columns : List (List Datum)) : Prop where
  present : form ≠ .absent
  fair : ∀ cells ∈ columns, ∀ d ∈ cells, d.Fair

variable {form : Form} {columns : List (List Datum)} {cells : List Datum}

theorem Side.blank_fair (form : Form) (columns : List (List Datum)) :
    (Side.ofColumns form columns).blank.Fair ∧
      (Side.ofColumns form columns).blank.worth = .missing := by
  simp only [ofColumns]
  split
  · exact ⟨.nothing, rfl⟩
  · exact ⟨.missing, rfl⟩

theorem Side.missing_of_void (filled : Filled form columns)
    (void : (Side.ofColumns form columns).void = true) (inside : cells ∈ columns)
    (member : d ∈ cells) : d.worth = .missing := by
  simp only [ofColumns, Bool.or_eq_true, decide_eq_true_eq, Bool.and_eq_true, List.all_eq_true]
    at void
  rcases void with absent | ⟨_, all⟩
  · exact absurd absent filled.present
  · exact (isMissing_iff d).mp (all cells inside d member)

namespace Joint

theorem settle_keeps (common : Form) (filled : Filled form columns) (inside : cells ∈ columns)
    (member : d ∈ cells) : d.KeptBy (settle common (.ofColumns form columns)).2 := by
  have fair := filled.fair cells inside d member
  unfold settle
  split
  · rename_i gives
    rw [Bool.and_eq_true] at gives
    have missing := Side.missing_of_void filled gives.1 inside member
    obtain ⟨blank, none⟩ := Side.blank_fair form columns
    rw [KeptBy, missing]
    simp only
    split
    · exact ⟨.missing, rfl⟩
    · exact ⟨blank, none⟩
  · exact ⟨fair, rfl⟩

theorem upper_keeps (filled : Filled form columns) (lower : Side) (inside : cells ∈ columns)
    (member : d ∈ cells) : d.KeptBy (ofSides (.ofColumns form columns) lower).upper := by
  unfold ofSides
  split
  · exact Form.cast_keeps _ (filled.fair cells inside d member)
  · have settled := settle_keeps (agreed (.ofColumns form columns) lower) filled inside member
    exact settled.comp (Form.cast_keeps _ settled.1)

theorem lower_keeps (filled : Filled form columns) (upper : Side) (inside : cells ∈ columns)
    (member : d ∈ cells) : d.KeptBy (ofSides upper (.ofColumns form columns)).lower := by
  unfold ofSides
  split
  · exact Form.cast_keeps _ (filled.fair cells inside d member)
  · have settled := settle_keeps (agreed upper (.ofColumns form columns)) filled inside member
    exact settled.comp (Form.cast_keeps _ settled.1)

end Joint

namespace Form

variable {a b : Form}

theorem merge_present (first : a ≠ .absent) (second : b ≠ .absent) : a.merge b ≠ .absent := by
  unfold merge
  split
  · exact first
  · split
    · decide
    · split
      · exact second
      · split
        · exact first
        · decide

theorem mergeApart_present (first : a ≠ .absent) (second : b ≠ .absent) :
    a.mergeApart b ≠ .absent := by
  unfold mergeApart
  split
  · exact first
  · split
    · decide
    · exact merge_present first second

end Form

namespace Joint

variable {upper lower : Side}

theorem agreed_present (first : upper.form ≠ .absent) (second : lower.form ≠ .absent) :
    agreed upper lower ≠ .absent := by
  have merged := Form.mergeApart_present first second
  unfold agreed
  split
  · exact first
  · simp only [first, second, or_self, if_false]
    split <;> assumption

theorem settle_present {common : Form} {side : Side} (agreed : common ≠ .absent)
    (present : side.form ≠ .absent) : (settle common side).1 ≠ .absent := by
  unfold settle
  split <;> assumption

theorem form_present (first : upper.form ≠ .absent) (second : lower.form ≠ .absent) :
    (ofSides upper lower).form ≠ .absent := by
  unfold ofSides
  split
  · exact Form.merge_present first second
  · have form := agreed_present first second
    simp only
    split
    · decide
    · exact Form.merge_present (settle_present form first) (settle_present form second)

end Joint

namespace Csv

def value (field : List Char) : Datum :=
  if field = [] then .nothing
  else
    match Numeral.real? (String.ofList field) with
    | .ok x => .real x
    | .error _ => .text (String.ofList field)

theorem real?_shown (fair : d.Fair) (given : isMissing d = false) :
    ∃ x, Numeral.real? d.shown = .ok x ∧ (Datum.real x).worth = d.worth := by
  cases fair with
  | nothing => simp [isMissing] at given
  | whole small =>
      rename_i n
      exact ⟨_, Binary64.real?_wholeText n, (Form.cast_keeps .real (.whole small)).2⟩
  | real held => exact ⟨_, Binary64.real?_text held, rfl⟩

theorem value_cellText (fair : d.Fair) :
    alike (value (cellText d)) d = true ∧ (cellText d = [] ↔ isMissing d = true) := by
  rw [alike_iff]
  by_cases given : isMissing d = true
  · rw [cellText, if_pos given, (isMissing_iff d).mp given]
    exact ⟨rfl, by simp [given]⟩
  · obtain ⟨x, read, same⟩ := real?_shown fair (Bool.eq_false_iff.mpr given)
    have filled : d.shown.toList ≠ [] := by
      intro none
      have empty : Numeral.real? (String.ofList []) = .error (.notRealText "") := by decide +kernel
      rw [← String.ofList_toList (s := d.shown), none, empty] at read
      cases read
    rw [cellText, if_neg given, value, if_neg filled, String.ofList_toList, read]
    exact ⟨same, by simp [given, filled]⟩

end Csv

end Sheet

end ThrustBench
