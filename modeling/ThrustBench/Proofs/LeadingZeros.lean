import ThrustBench.Proofs.ClosestDoubles
import ThrustBench.Proofs.WrittenDoubles
import ThrustBench.Stopwatch

/-!
The label of the stopwatch.  A reader of marked-up text gives back the letters of a label, each with
the tag that stands before it.  They spell the seconds to one decimal place, with at least three
digits before the point, and what is grey are the zeros that lead (`label_greys_leading_zeros`).
-/

namespace ThrustBench.Stopwatch

open Binary64 (Rounds amount finite fixed overflow unit)

section Markup

structure Letter where
  tag : List Char
  char : Char

/-- Reads marked-up text behind a tag, and perhaps from within the next one. -/
def letters : List Char → Option (List Char) → List Char → List Letter
  | _, _, [] => []
  | tag, none, c :: cs =>
    if c = '<' then letters tag (some []) cs else ⟨tag, c⟩ :: letters tag none cs
  | tag, some begun, c :: cs =>
    if c = '>' then letters begun none cs else letters tag (some (begun ++ [c])) cs

def shown (label : String) : List Letter := letters [] none label.toList

def opening (color : String) : List Char :=
  "span style=\"color:".toList ++ color.toList ++ ";\"".toList

def Letter.Grey (l : Letter) : Prop := l.tag = opening grey

def Letter.White (l : Letter) : Prop := l.tag = opening white

theorem Letter.White.not_grey {l : Letter} (isWhite : l.White) : ¬l.Grey := by
  rw [Letter.White] at isWhite
  rw [Letter.Grey, isWhite]
  decide

theorem letters_tag {inside : List Char} (inner : '>' ∉ inside) (tag rest : List Char) :
    letters tag none ('<' :: (inside ++ '>' :: rest)) = letters inside none rest := by
  have step : ∀ begun, letters tag (some begun) (inside ++ '>' :: rest) =
      letters (begun ++ inside) none rest := by
    induction inside with
    | nil => simp [letters]
    | cons c inside ih =>
        intro begun
        obtain ⟨other, later⟩ := List.ne_and_not_mem_of_not_mem_cons inner
        rw [List.cons_append, letters, if_neg other.symm, ih later, List.append_assoc,
          List.singleton_append]
  rw [letters, if_pos rfl, step, List.nil_append]

theorem toList_span (color : String) (c : Char) (rest : List Char) :
    (span color c).toList ++ rest =
      '<' :: (opening color ++ '>' :: c :: '<' :: ("/span".toList ++ '>' :: rest)) := by
  -- said of any texts, since the texts themselves are slow to compare
  have joined : ∀ {start middle ending : String} {a b e : List Char}, start.toList = '<' :: a →
      middle.toList = b ++ ['>'] → ending.toList = '<' :: (e ++ ['>']) →
      (start ++ color ++ middle ++ String.singleton c ++ ending).toList ++ rest =
        '<' :: (a ++ color.toList ++ b ++ '>' :: c :: '<' :: (e ++ '>' :: rest)) := by
    intro start middle ending a b e starts closes ends
    simp [starts, closes, ends]
  exact joined (by decide) (by decide) (by decide)

theorem letters_span {color : String} (plain : '>' ∉ opening color) {c : Char} (shows : c ≠ '<')
    (tag rest : List Char) :
    letters tag none ((span color c).toList ++ rest) =
      ⟨opening color, c⟩ :: letters "/span".toList none rest := by
  rw [toList_span, letters_tag plain, letters, if_neg shows, letters_tag (by decide)]

theorem letters_spans {color : String} (plain : '>' ∉ opening color) {cs : List Char}
    (shows : '<' ∉ cs) (tag rest : List Char) :
    ∃ last, letters tag none ((String.join (cs.map (span color))).toList ++ rest) =
      cs.map (Letter.mk (opening color)) ++ letters last none rest := by
  induction cs generalizing tag with
  | nil => exact ⟨tag, rfl⟩
  | cons c cs ih =>
      obtain ⟨other, later⟩ := List.ne_and_not_mem_of_not_mem_cons shows
      obtain ⟨last, same⟩ := ih later "/span".toList
      refine ⟨last, ?_⟩
      rw [List.map_cons, String.join_cons, String.toList_append, List.append_assoc,
        letters_span plain other.symm, same]
      rfl

theorem shown_colored {time : List Char} (shows : '<' ∉ time) :
    shown (colored time) = (time.take (greyCount time)).map (Letter.mk (opening grey)) ++
      (time.drop (greyCount time)).map (Letter.mk (opening white)) := by
  have first : '<' ∉ time.take (greyCount time) := mt List.mem_of_mem_take shows
  have second : '<' ∉ time.drop (greyCount time) := mt List.mem_of_mem_drop shows
  obtain ⟨middle, greys⟩ := @letters_spans grey (by decide) _ first []
    (String.join ((time.drop (greyCount time)).map (span white))).toList
  obtain ⟨last, whites⟩ := @letters_spans white (by decide) _ second middle []
  rw [List.append_nil, letters, List.append_nil] at whites
  rw [shown, colored, String.join_append, String.toList_append, greys, whites]

theorem char_shown {time : List Char} (shows : '<' ∉ time) :
    (shown (colored time)).map Letter.char = time := by
  have chars (tag : List Char) : Letter.char ∘ Letter.mk tag = id := rfl
  rw [shown_colored shows, List.map_append, List.map_map, List.map_map, chars, chars, List.map_id,
    List.map_id, List.take_append_drop]

end Markup

section Zeros

/-- What is grey comes first.  A digit is grey exactly if it is a zero behind nothing but zeros, and
a point exactly if every digit is a zero. -/
structure GreyZeros (letters : List Letter) : Prop where
  front : ∃ dim bright, letters = dim ++ bright ∧ (∀ l ∈ dim, l.Grey) ∧ ∀ l ∈ bright, l.White
  digit : ∀ before l after, letters = before ++ l :: after → l.char.isDigit = true →
    (l.Grey ↔ l.char = '0' ∧ ∀ m ∈ before, m.char.isDigit = true → m.char = '0')
  point : ∀ l ∈ letters, l.char = '.' →
    (l.Grey ↔ ∀ m ∈ letters, m.char.isDigit = true → m.char = '0')

structure Parted (dim bright : List Char) : Prop where
  zeros : ∀ c ∈ dim, c.isDigit = true → c = '0'
  rest : bright = [] ∨ '.' ∉ dim ∧ ∃ skipped d after, bright = skipped ++ d :: after ∧
    d.isDigit = true ∧ d ≠ '0' ∧ ∀ c ∈ skipped, c.isDigit = false

theorem append_cases {α : Type} {first second before after : List α} {x : α}
    (split : first ++ second = before ++ x :: after) :
    (∃ others, first = before ++ x :: others) ∨
      ∃ others, before = first ++ others ∧ second = others ++ x :: after := by
  rcases List.append_eq_append_iff.mp split with ⟨others, here, there⟩ | ⟨others, here, there⟩
  · exact Or.inr ⟨others, here, there⟩
  · cases others with
    | nil => exact Or.inr ⟨[], by simp [here], by simpa using there.symm⟩
    | cons y others =>
        obtain ⟨rfl, -⟩ := List.cons.inj there
        exact Or.inl ⟨others, here⟩

variable {dim bright : List Char}

theorem Parted.exists_other (parted : Parted dim bright) {before after : List Char}
    (split : bright = before ++ '0' :: after) : ∃ d ∈ before, d.isDigit = true ∧ d ≠ '0' := by
  rcases parted.rest with rfl | ⟨-, skipped, d, later, rfl, digit, other, none⟩
  · simp at split
  · rcases append_cases split with ⟨others, rfl⟩ | ⟨others, rfl, behind⟩
    · exact absurd (none '0' (by simp)) (by decide)
    · cases others with
      | nil => exact absurd (List.cons.inj behind).1 other
      | cons c others =>
          obtain ⟨rfl, -⟩ := List.cons.inj behind
          exact ⟨d, by simp, digit, other⟩

theorem Parted.greyZeros (parted : Parted dim bright) :
    GreyZeros (dim.map (Letter.mk (opening grey)) ++ bright.map (Letter.mk (opening white))) := by
  have greys : ∀ l ∈ dim.map (Letter.mk (opening grey)), l.Grey ∧ l.char ∈ dim := by
    simp [Letter.Grey]
  have whites : ∀ l ∈ bright.map (Letter.mk (opening white)), l.White := by
    simp [Letter.White]
  have zeros : ∀ l ∈ dim.map (Letter.mk (opening grey)), l.char.isDigit = true → l.char = '0' :=
    fun l member => parted.zeros _ (greys l member).2
  refine ⟨⟨_, _, rfl, fun l member => (greys l member).1, whites⟩, ?_, ?_⟩
  · intro before l after split digit
    rcases append_cases split with ⟨others, within⟩ | ⟨others, rfl, behind⟩
    · rw [within] at greys zeros
      refine iff_of_true (greys l (by simp)).1 ⟨zeros l (by simp) digit, ?_⟩
      exact fun m member => zeros m (by simp [member])
    · refine iff_of_false (whites l (by simp [behind])).not_grey ?_
      rintro ⟨zero, all⟩
      obtain ⟨earlier, later, cut, rfl, same⟩ := List.map_eq_append_iff.mp behind
      obtain ⟨c, rest, rfl, rfl, -⟩ := List.map_eq_cons_iff.mp same
      obtain rfl : c = '0' := zero
      obtain ⟨d, member, isDigit, other⟩ := parted.exists_other cut
      exact other (all ⟨opening white, d⟩ (by simp [member]) isDigit)
  · intro l member point
    rcases parted.rest with rfl | ⟨noPoint, skipped, d, later, rfl, isDigit, other, -⟩
    · rw [List.map_nil, List.append_nil] at member ⊢
      exact iff_of_true (greys l member).1 zeros
    · rcases List.mem_append.mp member with inDim | inBright
      · exact absurd (point ▸ (greys l inDim).2) noPoint
      · refine iff_of_false (whites l inBright).not_grey fun all => ?_
        exact other (all ⟨opening white, d⟩ (by simp) isDigit)

variable {front : List Char} {tenth : Char}

theorem filter_time (digits : ∀ c ∈ front ++ [tenth], c.isDigit = true) :
    (front ++ ['.', tenth]).filter (· != '.') = front ++ [tenth] := by
  have noPoint : ∀ c ∈ front ++ [tenth], (c != '.') = true := by
    intro c member
    have digit := digits c member
    rw [bne_iff_ne]
    rintro rfl
    exact absurd digit (by decide)
  have kept := List.filter_eq_self.mpr noPoint
  rw [List.filter_append] at kept ⊢
  rw [← kept]
  rfl

theorem greyCount_time (digits : ∀ c ∈ front ++ [tenth], c.isDigit = true)
    {leading rest : List Char} (split : front ++ [tenth] = leading ++ rest)
    (zeros : (front ++ [tenth]).takeWhile (· == '0') = leading) :
    greyCount (front ++ ['.', tenth]) =
      if rest = [] then (front ++ ['.', tenth]).length else leading.length := by
  have all : leading.length = (front ++ [tenth]).length ↔ rest = [] := by
    rw [split, List.length_append, ← List.length_eq_zero_iff]
    omega
  simp only [greyCount, filter_time digits, zeros, all]

/-- The zeros are counted without the point, and yet the count cuts the time right: if another digit
follows them, no more are counted than stand before the point. -/
theorem parted_time (digits : ∀ c ∈ front ++ [tenth], c.isDigit = true) :
    Parted ((front ++ ['.', tenth]).take (greyCount (front ++ ['.', tenth])))
      ((front ++ ['.', tenth]).drop (greyCount (front ++ ['.', tenth]))) := by
  have split := (List.takeWhile_append_dropWhile (p := (· == '0')) (l := front ++ [tenth])).symm
  have zeros : ∀ c ∈ (front ++ [tenth]).takeWhile (· == '0'), c = '0' := by
    intro c member
    simpa using List.mem_takeWhile_imp member
  have next := List.head?_dropWhile_not (· == '0') (front ++ [tenth])
  rw [greyCount_time digits split rfl]
  generalize (front ++ [tenth]).takeWhile (· == '0') = leading at split zeros ⊢
  generalize (front ++ [tenth]).dropWhile (· == '0') = rest at split next ⊢
  cases rest with
  | nil =>
      rw [if_pos rfl, List.take_length, List.drop_length]
      rw [List.append_nil] at split
      refine ⟨fun c member digit => ?_, Or.inl rfl⟩
      rcases List.mem_append.mp member with before | behind
      · exact zeros c (by simp [← split, before])
      · rcases List.mem_pair.mp behind with rfl | rfl
        · exact absurd digit (by decide)
        · exact zeros c (by simp [← split])
  | cons d rest =>
      have other : d ≠ '0' := by simpa using next
      have isDigit : d.isDigit = true := digits d (by simp [split])
      have noPoint : '.' ∉ leading := fun member => absurd (zeros '.' member) (by decide)
      rw [if_neg (by simp)]
      -- the other digit is the one behind the point, or stands before it
      rcases List.eq_nil_or_concat rest with rfl | ⟨middle, last, rfl⟩
      · obtain ⟨rfl, rfl⟩ : front = leading ∧ tenth = d := by simpa using split
        rw [List.take_left, List.drop_left]
        exact ⟨fun c member _ => zeros c member,
          Or.inr ⟨noPoint, ['.'], tenth, [], rfl, isDigit, other, by simp⟩⟩
      · obtain ⟨rfl, rfl⟩ : front = leading ++ d :: middle ∧ tenth = last := by
          rw [List.concat_eq_append, ← List.cons_append, ← List.append_assoc] at split
          simpa using List.append_inj' split rfl
        rw [List.append_assoc, List.take_left, List.drop_left]
        exact ⟨fun c member _ => zeros c member,
          Or.inr ⟨noPoint, [], d, _, rfl, isDigit, other, by simp⟩⟩

end Zeros

section Times

/-- Seconds are written to the nearest tenth, a half to the even one, with three digits before the
point or as many more as it takes. -/
inductive Displays (seconds : ℚ) : List Char → Prop
  | intro {front : List Char} {tenth : Char} (digits : ∀ c ∈ front ++ [tenth], c.isDigit = true)
      (filled : 3 ≤ front.length) (needed : 3 < front.length → front.head? ≠ some '0')
      (close : |10 * seconds - Text.digitsValue (front ++ [tenth])| ≤ 1 / 2)
      (even : |10 * seconds - Text.digitsValue (front ++ [tenth])| = 1 / 2 →
        Even (Text.digitsValue (front ++ [tenth]))) :
      Displays seconds (front ++ ['.', tenth])

theorem toList_pointed {units : Nat} {front : List Char} {tenth : Char}
    (written : (padZeros 2 (toString units)).toList = front ++ [tenth]) :
    (Binary64.pointed 1 units).toList = front ++ ['.', tenth] := by
  rw [Binary64.pointed, written]
  simp

theorem toList_fixedText (steps : Nat) :
    (Binary64.fixedText 1 5 (finite false steps)).toList =
      (padZeros 5 (Binary64.pointed 1 (fixed 1 steps))).toList := by
  have none : Binary64.sign false = "" := rfl
  rw [Binary64.fixedText, none, String.empty_append, String.length_empty]

theorem timeText_eq (steps : Nat) :
    ∃ front tenth, timeText (finite false steps) = front ++ ['.', tenth] ∧
      front ++ [tenth] = List.replicate (4 - Decimal.width (fixed 1 steps)) '0' ++
        Nat.toDigits 10 (fixed 1 steps) := by
  rw [timeText, toList_fixedText]
  generalize fixed 1 steps = units
  have digits : (padZeros 2 (toString units)).toList =
      List.replicate (2 - Decimal.width units) '0' ++ Nat.toDigits 10 units := by
    rw [toList_padZeros, Nat.toString_eq_ofList_toDigits, String.toList_ofList, Decimal.width]
  obtain ⟨front, tenth, written⟩ : ∃ front tenth,
      (padZeros 2 (toString units)).toList = front ++ [tenth] := by
    have given : (padZeros 2 (toString units)).toList ≠ [] := by
      rw [digits]
      exact List.append_ne_nil_of_right_ne_nil _ Nat.toDigits_ne_nil
    exact ⟨_, _, (List.dropLast_append_getLast given).symm⟩
  have length : front.length + 1 = 2 - Decimal.width units + Decimal.width units := by
    simpa [Decimal.width] using congrArg List.length (written.symm.trans digits)
  have filling : 5 - (front.length + 2) = 3 - front.length := by omega
  have total : 3 - front.length + (2 - Decimal.width units) = 4 - Decimal.width units := by omega
  refine ⟨List.replicate (3 - front.length) '0' ++ front, tenth, ?_, ?_⟩
  · rw [toList_padZeros, toList_pointed written, List.length_append, List.length_cons,
      List.length_singleton, filling, List.append_assoc]
  · rw [List.append_assoc, ← written, digits, ← List.append_assoc, List.replicate_append_replicate,
      total]

theorem tenths_eq (steps : Nat) : 10 * amount false steps = ((steps * 10 : Nat) : ℚ) / unit := by
  rw [Binary64.amount_eq, Nat.cast_mul, Nat.cast_ofNat]
  generalize (unit : ℚ) = step
  ring

theorem displays_timeText (steps : Nat) :
    Displays (amount false steps) (timeText (finite false steps)) := by
  obtain ⟨front, tenth, shape, digits⟩ := timeText_eq steps
  have value : Text.digitsValue (front ++ [tenth]) = fixed 1 steps := by
    rw [digits, Text.digitsValue_append, Text.digitsValue_zeros, Text.digitsValue_toDigits,
      Nat.zero_mul, Nat.zero_add]
  have length : front.length + 1 =
      4 - Decimal.width (fixed 1 steps) + Decimal.width (fixed 1 steps) := by
    simpa [Decimal.width] using congrArg List.length digits
  obtain ⟨close, even⟩ := Binary64.roundDiv_nearest (steps * 10) Binary64.unit_pos
  rw [shape]
  refine .intro ?_ (by omega) ?_ ?_ ?_
  · intro c member
    rcases List.mem_append.mp (digits ▸ member) with zero | digit
    · rw [List.eq_of_mem_replicate zero]
      decide
    · exact Nat.isDigit_of_mem_toDigits (by decide) (by decide) digit
  · intro long zero
    -- with more than three digits before the point none was put there
    have first : (front ++ [tenth]).head? = some '0' := by rw [List.head?_append, zero]; rfl
    rw [digits, show 4 - Decimal.width (fixed 1 steps) = 0 by omega] at first
    refine Text.head?_toDigits_ne (fun none => ?_) first
    rw [none] at length
    have one : Decimal.width 0 = 1 := rfl
    omega
  · rw [value, tenths_eq]
    exact close
  · rw [value, tenths_eq]
    exact even

end Times

section Labels

inductive Counts : Number → ℚ → Prop
  | whole (n : Nat) : Counts (.whole n) n
  | real {steps : Nat} (held : (finite false steps).Representable) :
      Counts (.real (finite false steps)) (amount false steps)

theorem Counts.nonneg {m : Number} {q : ℚ} (counts : Counts m q) : 0 ≤ q := by
  cases counts with
  | whole n => exact Nat.cast_nonneg n
  | real =>
      rw [Binary64.amount_eq]
      exact div_nonneg (Nat.cast_nonneg _) (Nat.cast_nonneg _)

theorem thousandth_lt {steps : Nat} (held : (finite false steps).Representable) :
    amount false steps / 1000 < overflow := by
  obtain ⟨e, carried, middle⟩ := Binary64.exists_limit_eq
  have step : (0 : ℚ) < unit := Nat.cast_pos.mpr Binary64.unit_pos
  have small : steps * 2 < (Nat.pow 2 54 - 1) * Nat.pow 2 e * 1000 := by
    have lower : Nat.pow 2 53 = 9007199254740992 := rfl
    have upper : Nat.pow 2 54 - 1 = 18014398509481983 := rfl
    cases held with
    | finite inside =>
        rw [carried, lower] at inside
        rw [upper]
        omega
  rw [Binary64.amount_eq, div_right_comm, div_lt_iff₀ step, middle,
    div_lt_div_iff₀ (by norm_num) two_pos]
  exact_mod_cast small

theorem whole_div (n : Nat) :
    Number.div (.whole n) (.whole 1000) =
      if (Binary64.ofSteps false (n * unit) 1000).isInfinite then .error .quotientTooLarge
      else .ok (Binary64.ofSteps false (n * unit) 1000) := by
  have sign : decide ((n : Int) < 0) = false := decide_eq_false (by omega)
  have size : (1000 : Int).natAbs = 1000 := rfl
  have positive : ¬(1000 : Int) < 0 := by decide
  rw [Number.div, if_neg (by decide), if_neg positive, Binary64.ofQuotient, sign, size,
    Int.natAbs_natCast]

theorem real_div (negative : Bool) (steps : Nat) :
    Number.div (.real (finite negative steps)) (.whole 1000) =
      .ok (Binary64.ofSteps negative (steps * unit) (1000 * unit)) := by
  have thousand := Binary64.ofInt_of_small (n := 1000) (by decide)
  have sign : decide ((1000 : Int) < 0) = false := rfl
  have size : (1000 : Int).natAbs = 1000 := rfl
  have given : 1000 * unit ≠ 0 := (Nat.mul_pos (by decide) Binary64.unit_pos).ne'
  rw [sign, size] at thousand
  simp only [Number.div, Number.toReal, thousand]
  generalize 1000 * unit = den at given ⊢
  simp [Binary64.isInfinite, Binary64.isZero, Binary64.div, given, bind, Except.bind]

theorem div_thousand {m : Number} {q : ℚ} (counts : Counts m q) :
    ∃ x, Rounds false (q / 1000) x ∧
      m.div (.whole 1000) = if x.isInfinite then .error .quotientTooLarge else .ok x := by
  cases counts with
  | whole n =>
      have rounds := @Binary64.quotient_rounds 1000 (by decide) false n
      exact ⟨_, rounds, whole_div n⟩
  | @real steps held =>
      have rounds := Binary64.quotient_rounds (Nat.mul_pos (by decide : 0 < 1000) Binary64.unit_pos)
        false steps
      rw [Nat.cast_mul, Nat.cast_ofNat, mul_comm, ← div_div, ← amount] at rounds
      refine ⟨_, rounds, ?_⟩
      -- a double is divided without a check, and needs none
      have least := div_nonneg (Counts.real held).nonneg (by norm_num : (0 : ℚ) ≤ 1000)
      have below := thousandth_lt held
      rw [real_div]
      generalize Binary64.ofSteps false (steps * unit) (1000 * unit) = x at rounds ⊢
      cases rounds with
      | finite => rfl
      | infinity outside =>
          rw [abs_of_nonneg least] at outside
          exact absurd outside (not_le.mpr below)

theorem setLabel_eq (s : Stopwatch) (m : Number) :
    s.setLabel (.ofNumber m) =
      (m.div (.whole 1000)).map fun x => { s with label := colored (timeText x) } := by
  have number : (Datum.ofNumber m).number? = some m := by cases m <;> rfl
  have quotient : (Datum.ofNumber m).div (.whole 1000) = m.div (.whole 1000) := by
    rw [Datum.div, number]
    rfl
  rw [setLabel, labelFor, quotient]
  cases m.div (.whole 1000) <;> rfl

theorem shown_timeText (steps : Nat) :
    Displays (amount false steps)
        ((shown (colored (timeText (finite false steps)))).map Letter.char) ∧
      GreyZeros (shown (colored (timeText (finite false steps)))) := by
  have displays := displays_timeText steps
  generalize timeText (finite false steps) = time at displays ⊢
  have shows : '<' ∉ time ∧ Parted (time.take (greyCount time)) (time.drop (greyCount time)) := by
    cases displays with
    | @intro front tenth digits =>
        have plain : '<' ∉ front ++ [tenth] := fun member => absurd (digits '<' member) (by decide)
        exact ⟨by simpa using plain, parted_time digits⟩
  rw [char_shown shows.1, shown_colored shows.1]
  exact ⟨displays, shows.2.greyZeros⟩

/-- A number of milliseconds that is not negative is shown in seconds, the zeros that lead in grey
and all behind them in white.  There is no label only if the seconds are beyond the doubles. -/
theorem label_greys_leading_zeros (s : Stopwatch) {m : Number} {q : ℚ} (counts : Counts m q) :
    (q / 1000 < overflow → ∃ label steps,
      s.setLabel (.ofNumber m) = .ok { s with label := label } ∧
      Rounds false (q / 1000) (finite false steps) ∧
      Displays (amount false steps) ((shown label).map Letter.char) ∧ GreyZeros (shown label)) ∧
    (overflow ≤ q / 1000 → s.setLabel (.ofNumber m) = .error .quotientTooLarge) := by
  have least : |q / 1000| = q / 1000 := abs_of_nonneg (div_nonneg counts.nonneg (by norm_num))
  obtain ⟨x, rounds, quotient⟩ := div_thousand counts
  rw [setLabel_eq, quotient]
  cases rounds with
  | @finite steps held inside closest even =>
      refine ⟨fun _ => ?_, fun large => absurd large (not_le.mpr (least ▸ inside))⟩
      exact ⟨_, steps, rfl, .finite held inside closest even, shown_timeText steps⟩
  | infinity outside =>
      rw [least] at outside
      exact ⟨fun small => absurd small (not_lt.mpr outside), fun _ => rfl⟩

theorem label_greys_leading_zeros_half :
    ∃ label, setLabel { origin := 0 } (.whole 500) = .ok { origin := 0, label := label } ∧
      (shown label).map Letter.char = "000.5".toList ∧ GreyZeros (shown label) := by
  have quotient : Number.div (.whole (500 : Nat)) (.whole 1000) =
      .ok (finite false (Nat.pow 2 1073)) := by decide +kernel
  have time : timeText (finite false (Nat.pow 2 1073)) = "000.5".toList := by decide +kernel
  have written : setLabel { origin := 0 } (.ofNumber (.whole (500 : Nat))) =
      .ok { origin := 0, label := colored "000.5".toList } := by
    rw [setLabel_eq, quotient, Except.map, time]
  obtain ⟨shows, fails⟩ := label_greys_leading_zeros { origin := 0 } (.whole 500)
  rw [written] at shows fails
  obtain ⟨label, -, made, -, -, zeros⟩ := shows (not_le.mp fun large => by simpa using fails large)
  obtain rfl : colored "000.5".toList = label := by simpa using made
  exact ⟨_, written, char_shown (by decide), zeros⟩

/-- Beyond the doubles there is no label, and zero with a sign is neither filled up nor grey. -/
theorem label_missing_or_white :
    setLabel { origin := 0 } (.whole (10 ^ 312)) = .error .quotientTooLarge ∧
      ∃ label, setLabel { origin := 0 } (.real (.zero true)) = .ok { origin := 0, label := label } ∧
        (shown label).map Letter.char = "-00.0".toList ∧ ∀ l ∈ shown label, l.White := by
  have large : Number.div (.whole (10 ^ 312)) (.whole 1000) = .error .quotientTooLarge := by
    decide +kernel
  have zero : Number.div (.real (.zero true)) (.whole 1000) = .ok (.zero true) := by decide +kernel
  have time : timeText (.zero true) = "-00.0".toList := by decide +kernel
  have none : greyCount "-00.0".toList = 0 := by decide
  refine ⟨?_, colored "-00.0".toList, ?_, char_shown (by decide), ?_⟩
  · exact (setLabel_eq _ (.whole (10 ^ 312))).trans (by rw [large, Except.map])
  · exact (setLabel_eq _ (.real (.zero true))).trans (by rw [zero, Except.map, time])
  · rw [shown_colored (by decide), none]
    simp [Letter.White]

end Labels

end ThrustBench.Stopwatch
