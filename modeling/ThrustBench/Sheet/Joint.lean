import ThrustBench.Sheet.Form

/-!
Putting values below others.  What becomes of the values on either side depends on the forms of
the sides, and on whether a side has nothing but missing values, for such a side gives way.
-/

namespace ThrustBench.Sheet

structure Side where
  form : Form
  void : Bool
  blank : Datum

/-- The side of some columns of one form.  Missing values are written as the first one is. -/
def Side.ofColumns (form : Form) (columns : List (List Datum)) : Side where
  form := form
  void := form = .absent || (form.holdsMissing && columns.all fun cells => cells.all isMissing)
  blank := if columns.head?.bind List.head? = some .nothing then .nothing else missing

structure Joint where
  form : Form
  upper : Datum → Datum
  lower : Datum → Datum

namespace Joint

/-- Can the values of two sides be stored together at once?  No side may give way, and reals may
not come below other numbers. -/
def isDirect (upper lower : Side) : Bool :=
  !upper.void && !lower.void &&
    (upper.form = lower.form ||
      (upper.form.isNumeric && lower.form.isNumeric && lower.form ≠ .real))

/-- The form that two sides agree on.  A side with nothing but missing values has no say, unless
the other one has none either. -/
def agreed (upper lower : Side) : Form :=
  if upper.form = lower.form then upper.form
  else
    let form :=
      match upper.void, lower.void with
      | false, false => upper.form.mergeApart lower.form
      | false, true => upper.form
      | true, false => lower.form
      | true, true =>
        if upper.form = .absent then lower.form
        else if lower.form = .absent then upper.form
        else upper.form.mergeApart lower.form
    if upper.form = .absent ∨ lower.form = .absent then form.withMissing else form

/-- What a side brings into a form: missing values are written anew if the form holds them, and
all else stays as it is. -/
def settle (form : Form) (side : Side) : Form × (Datum → Datum) :=
  if side.void && form.holdsMissing then
    (form, fun _ => if form = .real then missing else side.blank)
  else (side.form, id)

/-- Two sides together.  Flags that were made numbers stand beside them as values of any kind. -/
def ofSides (upper lower : Side) : Joint :=
  if isDirect upper lower then
    let form := upper.form.merge lower.form
    ⟨form, form.cast, form.cast⟩
  else
    let form := agreed upper lower
    let (above, f) := settle form upper
    let (below, g) := settle form lower
    let common := above.merge below
    let stored := if (above = .flag ∨ below = .flag) ∧ common.isNumeric then .mixed else common
    ⟨stored, fun d => common.cast (f d), fun d => common.cast (g d)⟩

end Joint

end ThrustBench.Sheet
