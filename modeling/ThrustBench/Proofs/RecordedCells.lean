import Mathlib.Data.List.SplitBy
import ThrustBench.Recorder
import ThrustBench.Proofs.Running
import ThrustBench.Proofs.WholeDoubles

/-!
What becomes of a whole number that is recorded.  The sheet and the table may store it as a double,
but it stays the same number.
-/

namespace ThrustBench

def Datum.Stores (d : Datum) (k : Int) : Prop := d = .whole k ∨ d = .real (.ofInt k)

theorem Datum.Stores.equals_iff {d : Datum} {k : Int} (stored : d.Stores k)
    (small : k.natAbs < Nat.pow 2 53) (j : Int) : d.equals (.whole j) = true ↔ k = j := by
  have positive : (Binary64.unit : Int) ≠ 0 := by
    have natural := Binary64.unit_pos
    omega
  have steps : d.number?.bind Number.steps? = some (k * Binary64.unit) := by
    rcases stored with rfl | rfl
    · rfl
    · rw [Binary64.ofInt_of_small small, ← Binary64.signed_natAbs k Binary64.unit]
      rfl
  have compared : d.equals (.whole j) = decide (k * Binary64.unit = j * Binary64.unit) := by
    rcases stored with rfl | rfl
    · rfl
    · rw [Binary64.ofInt_of_small small] at steps ⊢
      simp only [Datum.number?, Option.bind_some, Number.steps?, Option.some.injEq] at steps
      simp only [Datum.equals, Datum.number?, Number.eq, Number.steps?, steps]
  rw [compared, decide_eq_true_iff]
  exact Int.mul_eq_mul_right_iff positive

theorem lookup_of_mem_keys {β : Type} {entries : List (String × β)} {name : String}
    (listed : name ∈ entries.map Prod.fst) :
    ∃ value, entries.lookup name = some value ∧ (name, value) ∈ entries := by
  obtain ⟨entry, member, rfl⟩ := List.mem_map.mp listed
  have found : (entries.lookup entry.1).isSome = true :=
    List.lookup_isSome_iff.mpr ⟨entry, member, beq_self_eq_true _⟩
  obtain ⟨value, found⟩ := Option.isSome_iff_exists.mp found
  obtain ⟨before, after, split, _⟩ := List.lookup_eq_some_iff.mp found
  exact ⟨value, found, by simp [split]⟩

namespace Sheet

theorem Form.cast_whole (form : Form) (k : Int) : (form.cast (.whole k)).Stores k := by
  cases form with
  | real => exact .inr rfl
  | _ => exact .inl rfl

theorem Form.own_present (d : Datum) : own d ≠ .absent := by
  cases d with
  | whole n =>
      simp only [own, ofWhole]
      split
      · decide
      · split <;> decide
  | _ => simp [own]

theorem Joint.lower_ofSides (upper : Side) {lower : Side} (solid : lower.void = false) :
    ∃ form : Form, ∀ d, (ofSides upper lower).lower d = form.cast d := by
  unfold ofSides
  split
  · exact ⟨_, fun _ => rfl⟩
  · simp only [settle, solid, Bool.false_and, Bool.false_eq_true, if_false, id]
    exact ⟨_, fun _ => rfl⟩

theorem Side.void_of_whole (columns : List (List Datum)) :
    (Side.ofColumns .whole columns).void = false := rfl

theorem Joint.lower_whole (upper : Side) (columns : List (List Datum)) (k : Int) :
    ((ofSides upper (.ofColumns .whole columns)).lower (.whole k)).Stores k := by
  obtain ⟨form, lower⟩ := lower_ofSides upper (Side.void_of_whole columns)
  rw [lower]
  exact form.cast_whole k

namespace Slot

theorem join_names (group : List Slot) :
    (join group).columns.map Prod.fst = group.map Slot.name := by
  cases group with
  | nil => rfl
  | cons s group => simp [join, Function.comp_def]

theorem join_last {group : List Slot} {column : String × List Datum}
    (alike : ∀ s ∈ group, ∀ t ∈ group, s.valueForm = t.valueForm)
    (member : column ∈ (join group).columns) :
    ∃ t ∈ group, t.name = column.1 ∧ ∀ k, t.value = some (.whole k) → t.valueForm = .whole →
      ∃ last, column.2.getLast? = some last ∧ last.Stores k := by
  cases group with
  | nil => simp [join] at member
  | cons s group =>
      simp only [join, List.mem_map] at member
      obtain ⟨t, inside, rfl⟩ := member
      refine ⟨t, inside, rfl, ?_⟩
      intro k given form
      have first : s.valueForm = .whole := (alike s List.mem_cons_self t inside).trans form
      refine ⟨_, List.getLast?_concat, ?_⟩
      rw [first, given]
      exact Joint.lower_whole _ _ k

end Slot

theorem flatten_loosen (row : List (String × Datum)) (slots : List Slot) :
    (loosen row slots).flatten = slots := by
  simp only [loosen]
  split
  · simp
  · cases slots with
    | nil => rfl
    | cons s slots => simp [← List.flatMap_def]

theorem flatten_groups (row : List (String × Datum)) (slots : List Slot) :
    (groups row slots).flatten = slots := by
  have bands (stretches : List (List Slot)) :
      (stretches.flatMap fun stretch => stretch.splitBy fun s t => s.band == t.band).flatten =
        stretches.flatten := by
    induction stretches with
    | nil => rfl
    | cons stretch stretches ih => simp [List.flatMap_cons, ih]
  have runs (stretches : List (List Slot)) :
      (stretches.flatMap (loosen row)).flatten = stretches.flatten := by
    induction stretches with
    | nil => rfl
    | cons stretch stretches ih => simp [List.flatMap_cons, flatten_loosen, ih]
  rw [groups, bands, runs, List.flatten_splitBy]

theorem alike_of_mem_splitBy {β : Type} [BEq β] [LawfulBEq β] {key : Slot → β}
    {run slots : List Slot} (member : run ∈ slots.splitBy fun s t => key s == key t) :
    ∀ s ∈ run, ∀ t ∈ run, key s = key t := by
  have chain := List.isChain_of_mem_splitBy member
  have same : run.IsChain fun s t => key s = key t := by
    simpa only [beq_iff_eq] using chain
  have pairwise : run.Pairwise fun s t => key s = key t := by
    have : IsTrans Slot fun s t => key s = key t := ⟨fun _ _ _ => Eq.trans⟩
    exact List.isChain_iff_pairwise.mp same
  have : Std.Symm fun s t : Slot => key s = key t := ⟨fun _ _ => Eq.symm⟩
  intro s first t second
  exact List.Pairwise.forall_of_forall (R := fun s t : Slot => key s = key t)
    (fun _ _ => rfl) pairwise first second

theorem mem_of_mem_loosen {row : List (String × Datum)} {slots stretch : List Slot}
    (member : stretch ∈ loosen row slots) : stretch ⊆ slots := by
  intro s inside
  have joined : s ∈ (loosen row slots).flatten := List.mem_flatten.mpr ⟨stretch, member, inside⟩
  rwa [flatten_loosen] at joined

theorem alike_of_mem_groups {row : List (String × Datum)} {slots group : List Slot}
    (member : group ∈ groups row slots) : ∀ s ∈ group, ∀ t ∈ group, s.valueForm = t.valueForm := by
  obtain ⟨stretch, loosened, split⟩ := List.mem_flatMap.mp member
  obtain ⟨run, gathered, inside⟩ := List.mem_flatMap.mp loosened
  have within : group ⊆ run := by
    intro s given
    have joined : s ∈ (stretch.splitBy fun s t => s.band == t.band).flatten :=
      List.mem_flatten.mpr ⟨group, split, given⟩
    rw [List.flatten_splitBy] at joined
    exact mem_of_mem_loosen inside joined
  intro s first t second
  exact alike_of_mem_splitBy gathered s (within first) t (within second)

namespace Datasheet

def last? (s : Datasheet) (name : String) : Option Datum :=
  (s.columns.lookup name).bind List.getLast?

variable {s : Datasheet} {row : List (String × Datum)}

theorem slots_of_known (known : ∀ entry ∈ row, entry.1 ∈ s.names) :
    s.slots row = s.bands.zipIdx.flatMap fun (band, index) =>
      band.columns.map fun (name, cells) => ⟨name, index, band.form, cells, row.lookup name⟩ := by
  have none : (row.filter fun value => !s.names.contains value.1) = [] := by
    rw [List.filter_eq_nil_iff]
    intro entry member
    simpa using known entry member
  simp only [slots, none, List.map_nil, List.append_nil]

theorem slots_names (known : ∀ entry ∈ row, entry.1 ∈ s.names) :
    (s.slots row).map Slot.name = s.names := by
  have indexed : s.names =
      (s.bands.zipIdx.map Prod.fst).flatMap fun band => band.columns.map Prod.fst := by
    rw [List.zipIdx_map_fst, names, columns, List.map_flatMap]
  rw [slots_of_known known, indexed, List.map_flatMap, List.flatMap_map]
  simp [Function.comp_def]

theorem slots_value (known : ∀ entry ∈ row, entry.1 ∈ s.names) {t : Slot}
    (member : t ∈ s.slots row) : t.value = row.lookup t.name := by
  rw [slots_of_known known] at member
  obtain ⟨⟨band, index⟩, _, inside⟩ := List.mem_flatMap.mp member
  obtain ⟨⟨name, cells⟩, _, rfl⟩ := List.mem_map.mp inside
  rfl

theorem bands_ne_nil {name : String} (listed : name ∈ s.names) : s.bands ≠ [] := by
  intro none
  simp [names, columns, none] at listed

theorem addRow_names {name : String} (listed : name ∈ s.names)
    (known : ∀ entry ∈ row, entry.1 ∈ s.names) :
    (s.addRow row).names = s.names ∧ (s.addRow row).height = s.height + 1 := by
  have occupied : s.bands.isEmpty = false := by simpa using bands_ne_nil listed
  simp only [addRow, occupied, Bool.false_and, Bool.false_eq_true, if_false]
  split
  · refine ⟨?_, rfl⟩
    rw [← slots_names known]
    simp [names, columns, Function.comp_def]
  · refine ⟨?_, rfl⟩
    have joined : ((groups row (s.slots row)).map Slot.join).flatMap
        (fun band => band.columns.map Prod.fst) = (s.slots row).map Slot.name := by
      rw [List.flatMap_map]
      simp only [Slot.join_names]
      rw [List.flatMap_def, ← List.map_flatten, flatten_groups]
    rw [← slots_names known, ← joined, names, columns, List.map_flatMap]

theorem isPlain_of_whole {name : String} {k : Int} (given : row.lookup name = some (.whole k))
    (small : Form.ofWhole k = .whole) : s.isPlain row = false := by
  obtain ⟨before, after, split, _⟩ := List.lookup_eq_some_iff.mp given
  simp [isPlain, split, Form.own, small]

theorem addRow_last {name : String} {k : Int} (listed : name ∈ s.names)
    (known : ∀ entry ∈ row, entry.1 ∈ s.names) (given : row.lookup name = some (.whole k))
    (small : Form.ofWhole k = .whole) :
    ∃ last, (s.addRow row).last? name = some last ∧ last.Stores k := by
  have occupied : s.bands.isEmpty = false := by simpa using bands_ne_nil listed
  have kept : name ∈ (s.addRow row).names := by rwa [(addRow_names listed known).1]
  obtain ⟨cells, found, member⟩ := lookup_of_mem_keys kept
  have grouped : (s.addRow row).columns =
      ((groups row (s.slots row)).map Slot.join).flatMap Band.columns := by
    simp only [addRow, occupied, isPlain_of_whole given small, Bool.false_and, Bool.false_eq_true,
      if_false, columns]
  rw [grouped, List.flatMap_map] at member
  obtain ⟨group, chosen, inside⟩ := List.mem_flatMap.mp member
  obtain ⟨t, among, rfl, bottom⟩ := Slot.join_last (alike_of_mem_groups chosen) inside
  have slot : t ∈ s.slots row := by
    rw [← flatten_groups row (s.slots row)]
    exact List.mem_flatten.mpr ⟨group, chosen, among⟩
  have value : t.value = some (.whole k) := (slots_value known slot).trans given
  have form : t.valueForm = .whole := by simp [Slot.valueForm, value, Form.own, small]
  obtain ⟨last, lowest, stored⟩ := bottom k value form
  exact ⟨last, by rw [last?, found]; exact lowest, stored⟩

theorem names_of_singles {point : List (String × Datum)} : ∀ {row : List (String × Datum)},
    (point.mapM fun entry => do return (entry.1, ← single entry.2)) = Except.ok row →
      row.map Prod.fst = point.map Prod.fst := by
  induction point with
  | nil =>
      intro row taken
      cases taken
      rfl
  | cons entry point ih =>
      intro row taken
      rw [List.mapM_cons] at taken
      cases first : single entry.2 with
      | error fault =>
          rw [first] at taken
          cases taken
      | ok value =>
          rw [first] at taken
          cases rest : point.mapM fun entry => do return (entry.1, ← single entry.2) with
          | error fault =>
              rw [rest] at taken
              cases taken
          | ok entries =>
              rw [rest] at taken
              cases taken
              simp [ih rest]

theorem singles_of_plain {point : List (String × Datum)}
    (plain : ∀ entry ∈ point, single entry.2 = .ok entry.2) :
    (point.mapM fun entry => do return (entry.1, ← single entry.2)) = Except.ok point := by
  induction point with
  | nil => rfl
  | cons entry point ih =>
      rw [List.mapM_cons, plain entry List.mem_cons_self,
        ih fun e member => plain e (List.mem_cons_of_mem entry member)]
      rfl

theorem addPoint_ok {s' : Datasheet} {point : List (String × Datum)}
    (added : s.addPoint point = .ok s') :
    ∃ row, row.map Prod.fst = point.map Prod.fst ∧ s' = s.addRow row := by
  unfold addPoint at added
  cases taken : point.mapM fun entry => do return (entry.1, ← single entry.2) with
  | error fault =>
      rw [taken] at added
      cases added
  | ok row =>
      rw [taken] at added
      refine ⟨row, names_of_singles taken, ?_⟩
      by_cases twins : (!row.isEmpty && hasTwins s.names) = true
      · simp [bind, Except.bind, twins] at added
      · simpa [bind, Except.bind, twins] using added.symm

theorem addPoint_of_plain {point : List (String × Datum)} (apart : hasTwins s.names = false)
    (plain : ∀ entry ∈ point, single entry.2 = .ok entry.2) :
    s.addPoint point = .ok (s.addRow point) := by
  unfold addPoint
  rw [singles_of_plain plain]
  simp [bind, Except.bind, apart]

end Datasheet

theorem Column.push_last (c : Column) (k : Int) :
    ∃ last, (c.push (.whole k)).cells.getLast? = some last ∧ last.Stores k := by
  unfold push
  split
  · exact ⟨.whole k, rfl, .inl rfl⟩
  · refine ⟨_, List.getLast?_concat, ?_⟩
    have solid : (Side.ofColumns (.own (.whole k)) [[.whole k]]).void = false := by
      simp [Side.ofColumns, Form.own_present, isMissing]
    obtain ⟨form, lower⟩ := Joint.lower_ofSides (.ofColumns c.form [c.cells]) solid
    rw [lower]
    exact form.cast_whole k

namespace Table

def last? (t : Table) (name : String) : Option Datum :=
  (t.columns.lookup name).bind fun column => column.cells.getLast?

theorem append_eq {t : Table} (several : 1 < t.columns.length) (row : List (String × Datum)) :
    t.append row =
      (t.columns.findSome? fun column => refusal? (valueOf row column.1)).elim
        (.ok ⟨t.columns.map fun column => (column.1, column.2.push (valueOf row column.1)),
          t.height + 1⟩) .error := by
  have apart : t.isUniform = false := by
    unfold isUniform
    split
    · rename_i single
      rw [single, List.length_singleton] at several
      omega
    · rfl
  have occupied : t.columns.isEmpty = false := by
    rw [List.isEmpty_eq_false_iff]
    intro gone
    rw [gone, List.length_nil] at several
    omega
  simp only [append, apart, occupied, Bool.false_eq_true, if_false]
  cases t.columns.findSome? fun column => refusal? (valueOf row column.1) <;> rfl

theorem append_ok {t t' : Table} {row : List (String × Datum)} (several : 1 < t.columns.length)
    (taken : t.append row = .ok t') :
    t' = ⟨t.columns.map fun column => (column.1, column.2.push (valueOf row column.1)),
      t.height + 1⟩ := by
  rw [append_eq several] at taken
  cases found : t.columns.findSome? fun column => refusal? (valueOf row column.1) with
  | some fault =>
      rw [found] at taken
      cases taken
  | none =>
      rw [found] at taken
      cases taken
      rfl

theorem append_bottom {t t' : Table} {row : List (String × Datum)} {name : String}
    (several : 1 < t.columns.length) (taken : t.append row = .ok t')
    (listed : name ∈ t.columns.map Prod.fst) :
    ∃ c : Column, t'.last? name = (c.push (valueOf row name)).cells.getLast? := by
  have names : t'.columns.map Prod.fst = t.columns.map Prod.fst := by
    rw [append_ok several taken]
    simp [Function.comp_def]
  obtain ⟨column, found, member⟩ := lookup_of_mem_keys (names ▸ listed)
  rw [append_ok several taken] at member
  obtain ⟨old, _, same⟩ := List.mem_map.mp member
  rw [Prod.mk.injEq] at same
  obtain ⟨rfl, rfl⟩ := same
  refine ⟨old.2, ?_⟩
  rw [last?, found]
  rfl

theorem append_last {t t' : Table} {row : List (String × Datum)} {name : String} {k : Int}
    (several : 1 < t.columns.length) (taken : t.append row = .ok t')
    (listed : name ∈ t.columns.map Prod.fst) (given : row.lookup name = some (.whole k)) :
    ∃ last, t'.last? name = some last ∧ last.Stores k := by
  obtain ⟨c, bottom⟩ := append_bottom several taken listed
  have value : valueOf row name = .whole k := by simp [valueOf, given]
  rw [bottom, value]
  exact c.push_last k

end Table

end Sheet

namespace Recorder

structure InColumns (r : Recorder) : Prop where
  sheet : r.sheet.names = columns
  table : r.table.columns.map Prod.fst = columns

variable {r : Recorder} {row : List (String × Datum)}

theorem InColumns.empty : InColumns .empty := ⟨rfl, rfl⟩

theorem InColumns.clear (r : Recorder) : r.clear.InColumns := ⟨rfl, rfl⟩

theorem InColumns.toggle (kept : r.InColumns) : r.toggle.InColumns := ⟨kept.sheet, kept.table⟩

theorem InColumns.several (kept : r.InColumns) : 1 < r.table.columns.length := by
  have count := congrArg List.length kept.table
  rw [List.length_map] at count
  rw [count]
  decide

theorem InColumns.known (kept : r.InColumns) (named : row.map Prod.fst = columns) :
    ∀ entry ∈ row, entry.1 ∈ r.sheet.names := by
  intro entry member
  rw [kept.sheet, ← named]
  exact List.mem_map_of_mem member

theorem InColumns.listed (kept : r.InColumns) : "Throttle" ∈ r.sheet.names := by
  rw [kept.sheet]
  decide

theorem InColumns.addPoint {sheet : Sheet.Datasheet} (kept : r.InColumns)
    (named : row.map Prod.fst = columns) (added : r.sheet.addPoint row = .ok sheet) :
    sheet.names = columns := by
  obtain ⟨singles, same, rfl⟩ := Sheet.Datasheet.addPoint_ok added
  rw [(Sheet.Datasheet.addRow_names kept.listed (kept.known (same.trans named))).1, kept.sheet]

theorem InColumns.add (kept : r.InColumns) (named : row.map Prod.fst = columns) :
    (r.add row).1.InColumns := by
  unfold Recorder.add
  cases added : r.sheet.addPoint row with
  | error fault => exact kept
  | ok sheet =>
      have names := kept.addPoint named added
      cases appended : r.table.append row with
      | error fault => exact ⟨names, kept.table⟩
      | ok table =>
          refine ⟨names, ?_⟩
          rw [Sheet.Table.append_ok kept.several appended, ← kept.table]
          simp [Function.comp_def]

theorem single_ofNumber (n : Number) :
    Sheet.Datasheet.single (.ofNumber n) = .ok (.ofNumber n) := by
  cases n <;> rfl

theorem add_throttle (kept : r.InColumns) {time : Datum} {k : Int} (values : Channels Number)
    (alone : Sheet.Datasheet.single time = .ok time) (small : Sheet.Form.ofWhole k = .whole) :
    let added := r.add (Recorder.row time (.whole k) values)
    added.1.sheet.height = r.sheet.height + 1 ∧
      (∃ cell, added.1.sheet.last? "Throttle" = some cell ∧ cell.Stores k) ∧
      (added.2 = none → ∃ cell, added.1.table.last? "Throttle" = some cell ∧ cell.Stores k) := by
  have named : (Recorder.row time (.whole k) values).map Prod.fst = columns := rfl
  have given : (Recorder.row time (.whole k) values).lookup "Throttle" = some (.whole k) := rfl
  have plain : ∀ entry ∈ Recorder.row time (.whole k) values,
      Sheet.Datasheet.single entry.2 = .ok entry.2 := by
    have whole : Sheet.Datasheet.single (.whole k) = .ok (.whole k) := rfl
    simp [Recorder.row, alone, single_ofNumber, whole]
  have apart : Sheet.Datasheet.hasTwins r.sheet.names = false := by
    rw [kept.sheet]
    decide
  have known := kept.known named
  have sheet := Sheet.Datasheet.addPoint_of_plain apart plain
  have height := (Sheet.Datasheet.addRow_names kept.listed known).2
  have bottom := Sheet.Datasheet.addRow_last kept.listed known given small
  intro added
  simp only [added, Recorder.add, sheet]
  cases appended : r.table.append (Recorder.row time (.whole k) values) with
  | error fault => exact ⟨height, bottom, fun accepted => by cases accepted⟩
  | ok table =>
      have listed : "Throttle" ∈ r.table.columns.map Prod.fst := by
        rw [kept.table]
        decide
      exact ⟨height, bottom, fun _ =>
        Sheet.Table.append_last kept.several appended listed given⟩

end Recorder

end ThrustBench
