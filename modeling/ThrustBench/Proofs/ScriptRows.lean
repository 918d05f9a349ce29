import ThrustBench.Proofs.RecordsInStep

/-!
The time and the throttle of the points that a script adds.  The throttle is always the script's
own.  The time is so too, unless it is zero: then it is taken for no time, and the stopwatch gives
it.
-/

namespace ThrustBench

theorem Binary64.ofInt_zero : ofInt 0 = finite false 0 := by
  have small : (0 : Int).natAbs < Nat.pow 2 53 := by decide
  rw [ofInt_of_small small, Int.natAbs_zero, Nat.zero_mul]
  rfl

theorem Binary64.ofInt_ne_zero {n : Int} (nonzero : n ≠ 0) : ofInt n ≠ ofInt 0 := by
  rw [ofInt_zero]
  have one : 1 ≤ n.natAbs := by omega
  have large : unit ≤ nearest (n.natAbs * unit) 1 := by
    have wide : 53 ≤ 1074 := by decide
    unfold unit
    generalize 1074 = exponent at wide ⊢
    refine le_nearest Nat.one_pos wide ?_
    rw [Nat.mul_one]
    exact Nat.le_mul_of_pos_left _ one
  have positive := unit_pos
  unfold ofInt ofQuotient ofSteps
  intro same
  generalize nearest (n.natAbs * unit) 1 = steps at large same
  dsimp only at same
  split at same
  · rw [finite.injEq] at same
    omega
  · cases same

theorem Datum.own_of_count {d : Datum} (count : d.isCount = true) :
    Sheet.Form.own d = .whole ∨ Sheet.Form.own d = .word ∨ Sheet.Form.own d = .mixed := by
  cases d with
  | nothing => exact .inr (.inr rfl)
  | whole n =>
      simp only [Sheet.Form.own, Sheet.Form.ofWhole]
      split
      · exact .inl rfl
      · split
        · exact .inr (.inl rfl)
        · exact .inr (.inr rfl)
  | _ => cases count

theorem Datum.eq_nothing_of_count {d : Datum} (count : d.isCount = true)
    (missing : Sheet.isMissing d = true) : d = .nothing := by
  cases d with
  | nothing => rfl
  | whole n => cases missing
  | _ => cases count

/-- Does a cell hold a value, as it is or in the form of the doubles? -/
def Datum.Shows (cell d : Datum) : Prop := cell = d ∨ cell = Sheet.Form.real.cast d

namespace Sheet

/-- Below values of any kind a side takes their form, and its values stay as they are.  Where it has
nothing but missing values they are written as `blank`. -/
theorem Joint.lower_of_mixed (upper : Side) {lower : Side} {d : Datum}
    (above : upper.form = .mixed)
    (below : lower.form = .whole ∨ lower.form = .word ∨ lower.form = .mixed)
    (blank : lower.void = true → lower.blank = d) :
    (ofSides upper lower).form = .mixed ∧ (ofSides upper lower).lower d = d := by
  obtain ⟨form, void, filler⟩ := upper
  obtain ⟨form', void', filler'⟩ := lower
  simp only at above below blank
  subst above
  cases void' with
  | false =>
      rcases below with rfl | rfl | rfl <;> cases void <;> exact ⟨rfl, rfl⟩
  | true =>
      rw [← blank rfl]
      rcases below with rfl | rfl | rfl <;> cases void <;> exact ⟨rfl, rfl⟩

variable {row : List (String × Datum)} {name : String} {d : Datum}

theorem band_of_mem_groups {slots group : List Slot} (member : group ∈ groups row slots) :
    ∀ s ∈ group, ∀ t ∈ group, s.band = t.band := by
  obtain ⟨stretch, _, split⟩ := List.mem_flatMap.mp member
  exact alike_of_mem_splitBy split

theorem Slot.join_free {group : List Slot} {column : String × List Datum}
    (forms : ∀ s ∈ group, ∀ t ∈ group, s.form = t.form)
    (alike : ∀ s ∈ group, ∀ t ∈ group, s.valueForm = t.valueForm)
    (member : column ∈ (join group).columns) :
    ∃ t ∈ group, t.name = column.1 ∧
      (t.form = .mixed → t.value = some d → d.isCount = true →
        (join group).form = .mixed ∧ column.2.getLast? = some d) := by
  cases group with
  | nil => simp [join] at member
  | cons s group =>
      simp only [join, List.mem_map] at member
      obtain ⟨t, inside, rfl⟩ := member
      refine ⟨t, inside, rfl, fun free given count => ?_⟩
      have above : s.form = .mixed := (forms s List.mem_cons_self t inside).trans free
      have below : s.valueForm = .own d := by
        rw [alike s List.mem_cons_self t inside, Slot.valueForm, given]
        rfl
      -- where all values of the group are missing, the first of them is `nothing`, as `d` is
      have blank : (Side.ofColumns s.valueForm
          ((s :: group).map fun t => [t.value.getD missing])).void = true →
          (Side.ofColumns s.valueForm
            ((s :: group).map fun t => [t.value.getD missing])).blank = d := by
        intro void
        simp only [Side.ofColumns, below, Bool.or_eq_true, decide_eq_true_eq, Form.own_present,
          false_or, Bool.and_eq_true, List.all_eq_true, List.mem_map] at void
        obtain ⟨_, all⟩ := void
        have gone (u : Slot) (among : u ∈ s :: group) : isMissing (u.value.getD missing) = true :=
          all _ ⟨u, among, rfl⟩ _ List.mem_cons_self
        have none : d = .nothing := by
          have bottom := gone t inside
          rw [given] at bottom
          exact Datum.eq_nothing_of_count count bottom
        have first : s.value = some .nothing := by
          have top := gone s List.mem_cons_self
          rw [none] at below
          cases value : s.value with
          | none => simp [Slot.valueForm, value, Form.own] at below
          | some v =>
              rw [value] at top
              simp only [Slot.valueForm, value, Option.map_some, Option.getD_some] at below
              cases v with
              | nothing => rfl
              | real x => cases below
              | _ => cases top
        simp [Side.ofColumns, first, none]
      obtain ⟨form, lower⟩ := Joint.lower_of_mixed
        (.ofColumns s.form ((s :: group).map Slot.cells)) above
        (below ▸ Datum.own_of_count count) blank
      refine ⟨form, ?_⟩
      rw [List.getLast?_concat, given]
      exact congrArg some lower

namespace Datasheet

variable {s : Datasheet}

def Free (s : Datasheet) (name : String) : Prop :=
  ∀ band ∈ s.bands, name ∈ band.columns.map Prod.fst → band.form = .mixed

theorem slots_form (known : ∀ entry ∈ row, entry.1 ∈ s.names) {t u : Slot}
    (first : t ∈ s.slots row) (second : u ∈ s.slots row) (same : t.band = u.band) :
    t.form = u.form := by
  rw [slots_of_known known] at first second
  obtain ⟨⟨band, index⟩, here, inside⟩ := List.mem_flatMap.mp first
  obtain ⟨⟨other, place⟩, there, among⟩ := List.mem_flatMap.mp second
  obtain ⟨_, _, rfl⟩ := List.mem_map.mp inside
  obtain ⟨_, _, rfl⟩ := List.mem_map.mp among
  simp only at same
  rw [List.mem_zipIdx_iff_getElem?] at here there
  simp only [same] at here there
  rw [here, Option.some.injEq] at there
  rw [there]

theorem slots_free (known : ∀ entry ∈ row, entry.1 ∈ s.names) (free : s.Free name) {t : Slot}
    (member : t ∈ s.slots row) (named : t.name = name) : t.form = .mixed := by
  rw [slots_of_known known] at member
  obtain ⟨⟨band, index⟩, here, inside⟩ := List.mem_flatMap.mp member
  obtain ⟨column, standing, rfl⟩ := List.mem_map.mp inside
  refine free band (List.fst_mem_of_mem_zipIdx here) ?_
  rw [← named]
  exact List.mem_map_of_mem standing

theorem isPlain_of_count (given : row.lookup name = some d) (count : d.isCount = true) :
    s.isPlain row = false := by
  obtain ⟨before, after, split, _⟩ := List.lookup_eq_some_iff.mp given
  have other : Form.own d ≠ .real := by
    rcases Datum.own_of_count count with own | own | own <;> rw [own] <;> decide
  simp [isPlain, split, other]

theorem Free.addRow (free : s.Free name) (listed : name ∈ s.names)
    (known : ∀ entry ∈ row, entry.1 ∈ s.names) (given : row.lookup name = some d)
    (count : d.isCount = true) :
    (s.addRow row).Free name ∧ (s.addRow row).last? name = some d := by
  have occupied : s.bands.isEmpty = false := by simpa using bands_ne_nil listed
  have added : (s.addRow row).bands = (groups row (s.slots row)).map Slot.join := by
    simp only [Datasheet.addRow, occupied, isPlain_of_count given count, Bool.false_and,
      Bool.false_eq_true, if_false]
  have joined {group : List Slot} (chosen : group ∈ groups row (s.slots row))
      {column : String × List Datum} (standing : column ∈ (Slot.join group).columns)
      (named : column.1 = name) :
      (Slot.join group).form = .mixed ∧ column.2.getLast? = some d := by
    have within (t : Slot) (among : t ∈ group) : t ∈ s.slots row := by
      rw [← flatten_groups row (s.slots row)]
      exact List.mem_flatten.mpr ⟨group, chosen, among⟩
    have forms : ∀ t ∈ group, ∀ u ∈ group, t.form = u.form := fun t first u second =>
      slots_form known (within t first) (within u second)
        (band_of_mem_groups chosen t first u second)
    obtain ⟨t, among, same, kept⟩ := Slot.join_free forms (alike_of_mem_groups chosen) standing
    rw [named] at same
    refine kept (slots_free known free (within t among) same) ?_ count
    rw [slots_value known (within t among), same, given]
  refine ⟨?_, ?_⟩
  · intro band member inside
    rw [added] at member
    obtain ⟨group, chosen, rfl⟩ := List.mem_map.mp member
    obtain ⟨column, standing, named⟩ := List.mem_map.mp inside
    exact (joined chosen standing named).1
  · have kept : name ∈ (s.addRow row).names := by rwa [(addRow_names listed known).1]
    obtain ⟨cells, found, member⟩ := lookup_of_mem_keys kept
    rw [columns, added, List.flatMap_map] at member
    obtain ⟨group, chosen, standing⟩ := List.mem_flatMap.mp member
    rw [last?, found]
    exact (joined chosen standing rfl).2

end Datasheet

theorem Form.cast_nothing (form : Form) (gone : d = .nothing ∨ d = missing) :
    (form.cast d).Shows .nothing := by
  rcases gone with rfl | rfl
  · cases form with
    | real => exact .inr rfl
    | _ => exact .inl rfl
  · cases form <;> exact .inr rfl

theorem Joint.lower_nothing (upper : Side) {lower : Side} (void : lower.void = true)
    (blank : lower.blank = .nothing) : ((ofSides upper lower).lower .nothing).Shows .nothing := by
  have settled (form : Form) :
      (settle form lower).2 .nothing = .nothing ∨ (settle form lower).2 .nothing = missing := by
    unfold settle
    split
    · by_cases real : form = .real
      · exact .inr (if_pos real)
      · exact .inl ((if_neg real).trans blank)
    · exact .inl rfl
  have indirect : isDirect upper lower = false := by simp [isDirect, void]
  simp only [ofSides, indirect, Bool.false_eq_true, if_false]
  exact Form.cast_nothing _ (settled _)

theorem Column.push_shows (c : Column) (count : d.isCount = true) :
    ∃ cell, (c.push d).cells.getLast? = some cell ∧ cell.Shows d := by
  cases d with
  | whole k => exact c.push_last k
  | nothing =>
      unfold push
      split
      · exact ⟨.nothing, rfl, .inl rfl⟩
      · exact ⟨_, List.getLast?_concat, Joint.lower_nothing _ rfl rfl⟩
  | _ => cases count

theorem Table.accepted_of_append {t t' : Table} (several : 1 < t.columns.length)
    (taken : t.append row = .ok t') :
    ∀ column ∈ t.columns, refusal? (valueOf row column.1) = none := by
  rw [← List.findSome?_eq_none_iff]
  cases found : t.columns.findSome? fun column => refusal? (valueOf row column.1) with
  | none => rfl
  | some fault =>
      rw [append_eq several, found] at taken
      cases taken

structure Datasheet.Gains (before : Datasheet) (time throttle : Datum) (after : Datasheet) :
    Prop where
  height : after.height = before.height + 1
  time : after.last? "Time" = some time
  throttle : after.last? "Throttle" = some throttle

structure Table.Gains (before : Table) (time throttle : Datum) (after : Table) : Prop where
  height : after.height = before.height + 1
  time : ∃ cell, after.last? "Time" = some cell ∧ cell.Shows time
  throttle : ∃ cell, after.last? "Throttle" = some cell ∧ cell.Shows throttle

end Sheet

namespace Recorder

variable {r : Recorder} {time throttle : Datum}

structure Counts (r : Recorder) : Prop where
  named : r.InColumns
  time : r.sheet.Free "Time"
  throttle : r.sheet.Free "Throttle"

theorem Counts.empty : empty.Counts := by
  refine ⟨.empty, ?_, ?_⟩ <;>
  · intro band member _
    rw [List.mem_singleton.mp member]

theorem Counts.clear (r : Recorder) : r.clear.Counts := ⟨.clear r, empty.time, empty.throttle⟩

theorem Counts.addPoint (counts : r.Counts) (values : Channels Number)
    (first : time.isCount = true) (second : throttle.isCount = true) :
    ∃ sheet, r.sheet.addPoint (row time throttle values) = .ok sheet ∧
      r.sheet.Gains time throttle sheet ∧ sheet.Free "Time" ∧ sheet.Free "Throttle" := by
  have known : ∀ entry ∈ row time throttle values, entry.1 ∈ r.sheet.names :=
    counts.named.known rfl
  have plain : ∀ entry ∈ row time throttle values,
      Sheet.Datasheet.single entry.2 = .ok entry.2 := by
    have single {d : Datum} (count : d.isCount = true) : Sheet.Datasheet.single d = .ok d := by
      cases Datum.plain_of_count count <;> rfl
    simp [row, single first, single second, single_ofNumber]
  have apart : Sheet.Datasheet.hasTwins r.sheet.names = false := by
    rw [counts.named.sheet]
    decide
  have listed : "Time" ∈ r.sheet.names := by
    rw [counts.named.sheet]
    decide
  obtain ⟨timed, bottom⟩ := counts.time.addRow listed known (d := time) rfl first
  obtain ⟨set, lowest⟩ := counts.throttle.addRow counts.named.listed known (d := throttle) rfl
    second
  exact ⟨_, Sheet.Datasheet.addPoint_of_plain apart plain,
    ⟨(Sheet.Datasheet.addRow_names listed known).2, bottom, lowest⟩, timed, set⟩

theorem Counts.add (counts : r.Counts) (values : Channels Number)
    (first : time.isCount = true) (second : throttle.isCount = true) :
    (r.add (row time throttle values)).1.Counts := by
  obtain ⟨sheet, added, _, timed, set⟩ := counts.addPoint values first second
  have named : (r.add (row time throttle values)).1.InColumns := counts.named.add rfl
  have same : (r.add (row time throttle values)).1.sheet = sheet := by
    unfold Recorder.add
    rw [added]
    cases r.table.append (row time throttle values) <;> rfl
  exact ⟨named, same ▸ timed, same ▸ set⟩

def CountedRow (row : List (String × Datum)) : Prop :=
  ∃ time throttle values, row = Recorder.row time throttle values ∧
    time.isCount = true ∧ throttle.isCount = true

theorem Counts.addAll {rows : List (List (String × Datum))} (counts : r.Counts)
    (given : ∀ row ∈ rows, CountedRow row) : (r.addAll rows).Counts := by
  induction rows generalizing r with
  | nil => exact counts
  | cons row rows ih =>
      obtain ⟨time, throttle, values, rfl, first, second⟩ := given row List.mem_cons_self
      apply ih (counts.add values first second)
      intro later member
      exact given later (List.mem_cons_of_mem _ member)

theorem InColumns.accepts_iff (named : r.InColumns) {row : List (String × Datum)}
    (given : row.map Prod.fst = columns) :
    (∀ column ∈ r.table.columns, Sheet.Table.refusal? (Sheet.Table.valueOf row column.1) = none) ↔
      ∀ entry ∈ row, Sheet.Table.refusal? entry.2 = none := by
  have apart : (row.map Prod.fst).Nodup := by
    rw [given]
    decide
  have values := Sheet.values_of_names apart
  rw [given, ← named.table, List.map_map] at values
  constructor
  · intro accepted entry member
    have value : entry.2 ∈ row.map Prod.snd := List.mem_map_of_mem member
    rw [← values] at value
    obtain ⟨column, inside, same⟩ := List.mem_map.mp value
    rw [← same]
    exact accepted column inside
  · intro accepted column inside
    have value := List.mem_map_of_mem (f := Sheet.Table.valueOf row ∘ Prod.fst) inside
    rw [values] at value
    obtain ⟨entry, member, same⟩ := List.mem_map.mp value
    have passed := accepted entry member
    rw [same] at passed
    exact passed

theorem Counts.add_gains (counts : r.Counts) (values : Channels Number)
    (first : time.isCount = true) (second : throttle.isCount = true) :
    let added := r.add (row time throttle values)
    r.sheet.Gains time throttle added.1.sheet ∧
      (added.2 = none → r.table.Gains time throttle added.1.table) ∧
      (added.2 ≠ none → added.1.table = r.table) ∧
      (added.2 = none ↔
        ∀ entry ∈ row time throttle values, Sheet.Table.refusal? entry.2 = none) := by
  obtain ⟨sheet, stored, gains, _⟩ := counts.addPoint values first second
  have accepts : _ ↔ ∀ entry ∈ row time throttle values, _ := counts.named.accepts_iff rfl
  intro added
  simp only [added, Recorder.add, stored]
  cases appended : r.table.append (row time throttle values) with
  | error fault =>
      refine ⟨gains, fun accepted => (by cases accepted), fun _ => rfl, ?_⟩
      rw [← accepts]
      constructor
      · intro accepted
        cases accepted
      · intro accepted
        rw [Sheet.Table.append_of_accepted counts.named.several accepted] at appended
        cases appended
  | ok table =>
      have bottom {name : String} (listed : name ∈ columns) :=
        Sheet.Table.append_bottom counts.named.several appended (counts.named.table ▸ listed)
      refine ⟨gains, fun _ => ⟨?_, ?_, ?_⟩, fun refused => absurd rfl refused, ?_⟩
      · rw [Sheet.Table.append_ok counts.named.several appended]
      · obtain ⟨c, lowest⟩ := bottom (by decide : "Time" ∈ columns)
        rw [lowest]
        exact c.push_shows first
      · obtain ⟨c, lowest⟩ := bottom (by decide : "Throttle" ∈ columns)
        rw [lowest]
        exact c.push_shows second
      · rw [← accepts]
        exact ⟨fun _ => Sheet.Table.accepted_of_append counts.named.several appended, fun _ => rfl⟩

end Recorder

def Stopwatch.reading (s : Stopwatch) (clock : Clock) : Datum :=
  Datum.ofNumber? ((s.value clock).map Number.whole)

theorem Stopwatch.reading_isCount (s : Stopwatch) (clock : Clock) :
    (s.reading clock).isCount = true := by
  unfold reading
  cases s.value clock <;> rfl

theorem Stopwatch.not_shows_zero (s : Stopwatch) (clock : Clock) {cell : Datum}
    (shown : cell.Shows (s.reading clock)) : ¬cell.Shows (.whole 0) := by
  by_cases none : s.count clock = 0
  · have nothing : s.reading clock = .nothing := by simp [reading, value, none, Datum.ofNumber?]
    rw [nothing] at shown
    rintro (rfl | rfl)
    · rcases shown with same | same <;> cases same
    · rw [Sheet.Form.cast, Binary64.ofInt_zero] at shown
      rcases shown with same | same <;> cases same
  · have some : s.reading clock = .whole (s.count clock) := by
      simp [reading, value, none, Datum.ofNumber?, Datum.ofNumber]
    rw [some] at shown
    have apart := Binary64.ofInt_ne_zero none
    rintro (rfl | rfl)
    · rcases shown with same | same
      · exact none (Datum.whole.inj same).symm
      · cases same
    · rcases shown with same | same
      · cases same
      · exact apart (Datum.real.inj same).symm

namespace Session

theorem isNoTime_whole (t : Int) : isNoTime (.whole t) = true ↔ t = 0 := by
  have positive : (Binary64.unit : Int) ≠ 0 := by
    have natural := Binary64.unit_pos
    omega
  simp only [isNoTime, Datum.number?, Number.eq_iff, Number.worth, Worth.steps.injEq, ne_eq,
    reduceCtorEq, not_false_eq_true, and_true]
  exact Int.mul_eq_mul_right_iff positive

def scriptTime (s : Session) (p : Script.Point) : Datum :=
  if p.timer = 0 then s.stopwatch.reading { s.clock with now := p.moment } else .whole p.timer

theorem scriptTime_isCount (s : Session) (p : Script.Point) : (s.scriptTime p).isCount = true := by
  unfold scriptTime
  split
  · exact s.stopwatch.reading_isCount _
  · rfl

theorem scriptRow_eq (s : Session) (p : Script.Point) :
    s.scriptRow p = Recorder.row (s.scriptTime p) (.whole p.throttle) p.values := by
  have time : (if isNoTime (.whole p.timer) then
      s.stopwatch.reading { s.clock with now := p.moment } else .whole p.timer) =
      s.scriptTime p := by
    by_cases zero : p.timer = 0
    · rw [if_pos ((isNoTime_whole _).mpr zero), scriptTime, if_pos zero]
    · rw [if_neg (mt (isNoTime_whole _).mp zero), scriptTime, if_neg zero]
  rw [← time]
  rfl

theorem rows_counted {s : Session} {x : Happening} (counted : x.isCounted = true) :
    ∀ row ∈ x.rows s, Recorder.CountedRow row := by
  have point {timer throttle : Datum} (clock : Clock) (values : Channels Number)
      (first : timer.isCount = true) (second : throttle.isCount = true) :
      Recorder.CountedRow (s.pointRow clock values timer throttle) := by
    refine ⟨_, _, _, rfl, ?_, ?_⟩
    · split
      · exact s.stopwatch.reading_isCount clock
      · exact first
    · split
      · rfl
      · exact second
  have hand : ∀ row ∈ [s.pointRow s.clock s.stand.board.value .nothing .nothing],
      Recorder.CountedRow row := by
    intro row member
    rw [List.mem_singleton.mp member]
    exact point _ _ rfl rfl
  have script (points : List Script.Point) : ∀ row ∈ points.map s.scriptRow,
      Recorder.CountedRow row := by
    intro row member
    obtain ⟨p, _, rfl⟩ := List.mem_map.mp member
    exact point _ _ rfl rfl
  unfold Happening.rows
  split
  · exact hand
  · split
    · exact hand
    · simp
  · intro row member
    rw [List.mem_singleton.mp member]
    simp only [Happening.isCounted, Bool.and_eq_true] at counted
    exact point _ _ counted.1 counted.2
  · exact script _
  · simp
  · exact script _

theorem happen_counts {s : Session} {x : Happening} (counts : s.recorder.Counts)
    (counted : x.isCounted = true) : (s.happen x).recorder.Counts := by
  cases keeps : x.clears with
  | true =>
      rw [happen_of_clears keeps]
      exact .clear s.recorder
  | false =>
      have all := counts.addAll (rows_counted (s := s) counted)
      rw [s.happen_recorder keeps]
      exact ⟨⟨all.named.sheet, all.named.table⟩, all.time, all.throttle⟩

theorem after_counts (ports : List String) (clock : Clock) (history : List Happening)
    (counted : ∀ x ∈ history, x.isCounted = true) :
    ((start ports clock).after history).recorder.Counts := by
  induction history using List.reverseRecOn with
  | nil => exact .empty
  | append_singleton history x ih =>
      rw [after_snoc]
      exact happen_counts (ih fun y member => counted y (by simp [member])) (counted x (by simp))

def handed (s : Session) (run : Script.Run) : Script.Point :=
  Script.Run.handPoint { run with stand := s.stand, clock := s.clock, events := [] } |>.2

theorem obey_addPoint (s : Session) (plan : Script.Plan) {run : Script.Run} {c : Script.Command}
    (going : run.abort = false) (adds : c.verb = .addPoint) :
    (s.obey plan run c).recorder = (s.record (s.scriptRow (s.handed run))).1.recorder := by
  let fresh : Script.Run := { run with stand := s.stand, clock := s.clock, events := [] }
  have attempted : s.attempt plan run c = fresh.addPoint plan := by
    rw [attempt, adds]
    exact Script.Run.perform_of_running (r := fresh) going plan .addPoint c.data
  have events : (fresh.addPoint plan).1.events = [.point (s.handed run)] := by
    unfold Script.Run.addPoint
    simp only
    split <;> rfl
  have shown (q : Script.Point) : (s.replayAll [.point q]).1.recorder =
      (s.record (s.scriptRow q)).1.recorder := rfl
  rw [← shown, ← events, ← attempted]
  rfl

end Session

/-- The row of a point that a script adds, whatever happened before, has the script's throttle, in
the sheet and unless it is refused in the table.  It has the script's time exactly if that is not
zero; otherwise it has the time of the stopwatch, which is never zero. -/
theorem script_time_kept_iff (ports : List String) (clock : Clock) (history : List Happening)
    (counted : ∀ x ∈ history, x.isCounted = true) (p : Script.Point) :
    let s := (Session.start ports clock).after history
    let added := s.record (s.scriptRow p)
    let time := if p.timer = 0 then s.stopwatch.reading { s.clock with now := p.moment }
      else .whole p.timer
    s.recorder.sheet.Gains time (.whole p.throttle) added.1.recorder.sheet ∧
      (s.recorder.sheet.Gains (.whole p.timer) (.whole p.throttle) added.1.recorder.sheet ↔
        p.timer ≠ 0) ∧
      (added.2 = none →
        s.recorder.table.Gains time (.whole p.throttle) added.1.recorder.table ∧
        (s.recorder.table.Gains (.whole p.timer) (.whole p.throttle) added.1.recorder.table ↔
          p.timer ≠ 0)) ∧
      (added.2 ≠ none → added.1.recorder.table = s.recorder.table) ∧
      (added.2 = none ↔ ∀ entry ∈ s.scriptRow p, Sheet.Table.refusal? entry.2 = none) ∧
      -- which is what a script's command does, and a call with these numbers
      (∀ plan run c, run.abort = false → c.verb = .addPoint → s.handed run = p →
        (s.obey plan run c).recorder = added.1.recorder) ∧
      (p.values = s.stand.board.value → p.moment = s.clock.now →
        s.addPoint (.whole p.timer) (.whole p.throttle) = added) := by
  intro s added time
  have counts : s.recorder.Counts := Session.after_counts ports clock history counted
  have set : (Datum.whole p.throttle).isCount = true := rfl
  have gains := counts.add_gains p.values (s.scriptTime_isCount p) set
  rw [← s.scriptRow_eq p] at gains
  obtain ⟨sheet, table, refused, accepted⟩ := gains
  have own (nonzero : p.timer ≠ 0) : time = .whole p.timer := if_neg nonzero
  -- the stopwatch does not show zero, so a row with its time does not have the script's
  have other (zero : p.timer = 0) {cell : Datum} (shown : cell.Shows time) :
      ¬cell.Shows (.whole p.timer) := by
    rw [zero]
    have counted : time = s.stopwatch.reading { s.clock with now := p.moment } := if_pos zero
    rw [counted] at shown
    exact s.stopwatch.not_shows_zero _ shown
  refine ⟨sheet, ?_, fun taken => ⟨table taken, ?_⟩, refused, accepted, ?_, ?_⟩
  · constructor
    · intro gains zero
      have same := Option.some.inj (sheet.time.symm.trans gains.time)
      exact other zero (.inl rfl) (.inl same)
    · intro nonzero
      rw [← own nonzero]
      exact sheet
  · constructor
    · intro gains zero
      obtain ⟨cell, bottom, shown⟩ := (table taken).time
      obtain ⟨twin, lowest, script⟩ := gains.time
      have same := Option.some.inj (bottom.symm.trans lowest)
      exact other zero shown (same ▸ script)
    · intro nonzero
      rw [← own nonzero]
      exact table taken
  · intro plan run c going adds handed
    rw [s.obey_addPoint plan going adds, handed]
  · intro values moment
    simp only [added, Session.scriptRow, values, moment]
    rfl

def fiveSecondsRunning : List Happening := [.action .pressStopwatch, .action (.advance 5000000)]

theorem script_time_kept_iff_running :
    (∀ x ∈ fiveSecondsRunning, x.isCounted = true) ∧
      (((Session.start [] {}).after fiveSecondsRunning).handed
        (.begin {} { now := 1005000000 })).timer = 0 ∧
      (((Session.start [] {}).after fiveSecondsRunning).obey {} (.begin {} { now := 1005000000 })
        ⟨.addPoint, []⟩).recorder.sheet.last? "Time" = some (.whole 5000) ∧
      ¬((Session.start [] {}).after fiveSecondsRunning).recorder.sheet.Gains (.whole 0) (.whole 0)
        (((Session.start [] {}).after fiveSecondsRunning).obey {}
          (.begin {} { now := 1005000000 }) ⟨.addPoint, []⟩).recorder.sheet ∧
      ∀ values, ((Session.start [] {}).after fiveSecondsRunning).recorder.sheet.Gains (.whole 12)
        (.whole 30) (((Session.start [] {}).after fiveSecondsRunning).record
          (((Session.start [] {}).after fiveSecondsRunning).scriptRow
            ⟨12, 30, values, 1005012000⟩)).1.recorder.sheet := by
  have counted : ∀ x ∈ fiveSecondsRunning, x.isCounted = true := by
    simp [fiveSecondsRunning, Happening.isCounted]
  have zero : (((Session.start [] {}).after fiveSecondsRunning).handed
      (.begin {} { now := 1005000000 })).timer = 0 := by decide +kernel
  have still : (((Session.start [] {}).after fiveSecondsRunning).handed
      (.begin {} { now := 1005000000 })).throttle = 0 := rfl
  obtain ⟨_, kept, _, _, _, obeyed, _⟩ := script_time_kept_iff [] {} fiveSecondsRunning counted
    (((Session.start [] {}).after fiveSecondsRunning).handed (.begin {} { now := 1005000000 }))
  rw [zero, still, ← obeyed {} _ ⟨.addPoint, []⟩ rfl rfl rfl] at kept
  refine ⟨counted, zero, by decide +kernel, fun own => kept.mp own rfl, fun values => ?_⟩
  exact (script_time_kept_iff [] {} fiveSecondsRunning counted
    ⟨12, 30, values, 1005012000⟩).2.1.mpr (by decide : (12 : Int) ≠ 0)

end ThrustBench
