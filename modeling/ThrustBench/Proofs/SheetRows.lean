import Mathlib.Data.List.Forall2
import ThrustBench.Proofs.CellValues

/-!
What a row does to the sheet and to the table.  Both keep the points that were added: in each column
the cells are worth what the points have for it, from the first to the last.  So the rows of the
sheet, of the table and of the exported file stand for the points.
-/

namespace ThrustBench

namespace Binary64

theorem isInfinite_finite (negative : Bool) (steps : Nat) :
    (finite negative steps).isInfinite = false := by
  simp only [isInfinite]

theorem isInfinite_ofInt {n : Int} (small : n.natAbs < Nat.pow 2 53) :
    (ofInt n).isInfinite = false := by
  rw [ofInt_of_small small]
  exact isInfinite_finite _ _

end Binary64

namespace Sheet

open Datum (Fair KeptBy)

/-- Do the cells of a column tell of some points, one by one? -/
structure Tells (points : List (List (String × Datum))) (name : String) (cells : List Datum) :
    Prop where
  fair : ∀ d ∈ cells, d.Fair
  worth : cells.map Datum.worth = points.map fun row => (Table.valueOf row name).worth

def Datasheet.rows (s : Datasheet) : List (List Datum) := (List.range s.height).map s.row

def Table.row (t : Table) (index : Nat) : List Datum :=
  t.columns.map fun column => column.2.cells[index]?.getD missing

def Table.rows (t : Table) : List (List Datum) := (List.range t.height).map t.row

variable {points : List (List (String × Datum))} {row : List (String × Datum)}
variable {name : String} {cells : List Datum}

theorem Tells.snoc {f : Datum → Datum} {last : Datum} (before : Tells points name cells)
    (kept : ∀ d ∈ cells, d.KeptBy f) (fair : last.Fair)
    (worth : last.worth = (Table.valueOf row name).worth) :
    Tells (points ++ [row]) name (cells.map f ++ [last]) where
  fair := by
    intro d member
    rcases List.mem_append.mp member with above | bottom
    · obtain ⟨old, inside, rfl⟩ := List.mem_map.mp above
      exact (kept old inside).1
    · rw [List.mem_singleton.mp bottom]
      exact fair
  worth := by
    have above : (cells.map f).map Datum.worth = cells.map Datum.worth := by
      rw [List.map_map]
      exact List.map_congr_left fun d member => (kept d member).2
    rw [List.map_append, above, before.worth, List.map_append, List.map_singleton,
      List.map_singleton, worth]

theorem Tells.getElem? (told : Tells points name cells) {index : Nat}
    (found : points[index]? = some row) :
    ∃ d, cells[index]? = some d ∧ d.Fair ∧ d.worth = (Table.valueOf row name).worth := by
  have both := congrArg (fun worths => worths[index]?) told.worth
  simp only [List.getElem?_map, found, Option.map_some] at both
  obtain ⟨d, cell, worth⟩ := Option.map_eq_some_iff.mp both
  exact ⟨d, cell, told.fair d (List.mem_of_getElem? cell), worth⟩

def Complete (names : List String) (row : List (String × Datum)) : Prop :=
  ∀ name ∈ names, ∃ d, row.lookup name = some d ∧ d.Fair

theorem Complete.valueOf {names : List String} (complete : Complete names row)
    (listed : name ∈ names) : (Table.valueOf row name).Fair := by
  obtain ⟨d, found, fair⟩ := complete name listed
  rw [Table.valueOf, found]
  exact fair

theorem Filled.single {form : Form} (present : form ≠ .absent) (fair : ∀ d ∈ cells, d.Fair) :
    Filled form [cells] where
  present := present
  fair := by
    intro others member
    rw [List.mem_singleton.mp member]
    exact fair

namespace Slot

structure Ready (points : List (List (String × Datum))) (row : List (String × Datum)) (t : Slot) :
    Prop where
  present : t.form ≠ .absent
  tells : Tells points t.name t.cells
  value : t.value = row.lookup t.name
  given : ∃ d, t.value = some d ∧ d.Fair

theorem Ready.last {t : Slot} (ready : t.Ready points row) :
    (t.value.getD missing).Fair ∧
      (t.value.getD missing).worth = (Table.valueOf row t.name).worth := by
  obtain ⟨d, found, fair⟩ := ready.given
  rw [Table.valueOf, ← ready.value, found]
  exact ⟨fair, rfl⟩

theorem Ready.valueForm {t : Slot} (ready : t.Ready points row) : t.valueForm ≠ .absent := by
  obtain ⟨d, found, _⟩ := ready.given
  rw [Slot.valueForm, found]
  exact Form.own_present d

theorem join_tells {group : List Slot} (ready : ∀ t ∈ group, t.Ready points row)
    {column : String × List Datum} (member : column ∈ (join group).columns) :
    (join group).form ≠ .absent ∧ Tells (points ++ [row]) column.1 column.2 := by
  cases group with
  | nil => simp [join] at member
  | cons s group =>
      have first := ready s List.mem_cons_self
      have above : Filled s.form ((s :: group).map Slot.cells) := by
        refine ⟨first.present, fun cells inside => ?_⟩
        obtain ⟨t, among, rfl⟩ := List.mem_map.mp inside
        exact (ready t among).tells.fair
      have below : Filled s.valueForm ((s :: group).map fun t => [t.value.getD missing]) := by
        refine ⟨first.valueForm, fun cells inside => ?_⟩
        obtain ⟨t, among, rfl⟩ := List.mem_map.mp inside
        intro d bottom
        rw [List.mem_singleton.mp bottom]
        exact (ready t among).last.1
      refine ⟨Joint.form_present first.present first.valueForm, ?_⟩
      simp only [join, List.mem_map] at member
      obtain ⟨t, among, rfl⟩ := member
      have last := (ready t among).last
      have lower := Joint.lower_keeps below (.ofColumns s.form ((s :: group).map Slot.cells))
        (List.mem_map_of_mem among) List.mem_cons_self
      refine (ready t among).tells.snoc (fun d inside => ?_) lower.1 (lower.2.trans last.2)
      exact Joint.upper_keeps above _ (List.mem_map_of_mem among) inside

end Slot

namespace Datasheet

variable {s : Datasheet}

structure Holds (s : Datasheet) (points : List (List (String × Datum))) : Prop where
  height : s.height = points.length
  present : ∀ band ∈ s.bands, band.columns ≠ [] → band.form ≠ .absent
  tells : ∀ column ∈ s.columns, Tells points column.1 column.2

theorem Holds.empty (names : List String) : (empty names).Holds [] := by
  have bands : (Datasheet.empty names).bands = [] ∨ (Datasheet.empty names).bands =
      [⟨.mixed, names.map fun name => (name, [])⟩] := by
    simp only [Datasheet.empty]
    split
    · exact .inl rfl
    · exact .inr rfl
  refine ⟨rfl, ?_, ?_⟩
  · intro band member _
    rcases bands with none | one
    · simp [none] at member
    · rw [one, List.mem_singleton] at member
      rw [member]
      exact Form.noConfusion
  · intro column member
    have fresh : column.2 = [] := by
      rcases bands with none | one
      · simp [columns, none] at member
      · simp only [columns, one, List.flatMap_cons, List.flatMap_nil, List.append_nil,
          List.mem_map] at member
        obtain ⟨name, _, rfl⟩ := member
        rfl
    exact ⟨by simp [fresh], by simp [fresh]⟩

theorem Holds.ready (held : s.Holds points) (known : ∀ entry ∈ row, entry.1 ∈ s.names)
    (complete : Complete s.names row) {t : Slot} (member : t ∈ s.slots row) :
    t.Ready points row := by
  rw [slots_of_known known] at member
  obtain ⟨⟨band, index⟩, indexed, inside⟩ := List.mem_flatMap.mp member
  obtain ⟨⟨name, cells⟩, standing, rfl⟩ := List.mem_map.mp inside
  have among : band ∈ s.bands := List.fst_mem_of_mem_zipIdx indexed
  have column : (name, cells) ∈ s.columns := List.mem_flatMap.mpr ⟨band, among, standing⟩
  exact {
    present := held.present band among (List.ne_nil_of_mem standing)
    tells := held.tells (name, cells) column
    value := rfl
    given := complete name (List.mem_map_of_mem column)
  }

theorem Holds.addRow (held : s.Holds points) (listed : name ∈ s.names)
    (known : ∀ entry ∈ row, entry.1 ∈ s.names) (complete : Complete s.names row) :
    (s.addRow row).Holds (points ++ [row]) := by
  have occupied : s.bands.isEmpty = false := by simpa using bands_ne_nil listed
  have ready := fun t => held.ready known complete (t := t)
  have height : (s.addRow row).height = (points ++ [row]).length := by
    rw [(addRow_names listed known).2, held.height, List.length_append, List.length_singleton]
  by_cases plain : s.isPlain row = true
  · have added : (s.addRow row).bands =
        [⟨.real, (s.slots row).map fun t => (t.name, t.cells ++ [t.value.getD missing])⟩] := by
      simp only [Datasheet.addRow, occupied, plain, Bool.false_and, Bool.false_eq_true, if_false,
        if_true]
    refine ⟨height, ?_, ?_⟩
    · intro band member _
      rw [added, List.mem_singleton] at member
      rw [member]
      exact Form.noConfusion
    · intro column member
      simp only [columns, added, List.flatMap_cons, List.flatMap_nil, List.append_nil,
        List.mem_map] at member
      obtain ⟨t, inside, rfl⟩ := member
      have last := (ready t inside).last
      have same := (ready t inside).tells.snoc (f := id)
        (fun d among => ⟨(ready t inside).tells.fair d among, rfl⟩) last.1 last.2
      rwa [List.map_id] at same
  · have added : (s.addRow row).bands = (groups row (s.slots row)).map Slot.join := by
      simp only [Datasheet.addRow, occupied, plain, Bool.false_and, Bool.false_eq_true, if_false]
    have joined {group : List Slot} (chosen : group ∈ groups row (s.slots row))
        {column : String × List Datum} (standing : column ∈ (Slot.join group).columns) :
        (Slot.join group).form ≠ .absent ∧ Tells (points ++ [row]) column.1 column.2 := by
      refine Slot.join_tells (fun t among => ready t ?_) standing
      rw [← flatten_groups row (s.slots row)]
      exact List.mem_flatten.mpr ⟨group, chosen, among⟩
    refine ⟨height, ?_, ?_⟩
    · intro band member filled
      rw [added] at member
      obtain ⟨group, chosen, rfl⟩ := List.mem_map.mp member
      obtain ⟨column, standing⟩ := List.exists_mem_of_ne_nil _ filled
      exact (joined chosen standing).1
    · intro column member
      rw [columns, added, List.flatMap_map] at member
      obtain ⟨group, chosen, standing⟩ := List.mem_flatMap.mp member
      exact (joined chosen standing).2

end Datasheet

theorem Column.push_tells {c : Column} {d : Datum} (present : c.form ≠ .absent)
    (told : Tells points name c.cells) (fair : d.Fair)
    (worth : d.worth = (Table.valueOf row name).worth) :
    (c.push d).form ≠ .absent ∧ Tells (points ++ [row]) name (c.push d).cells := by
  unfold push
  split
  · rename_i fresh
    rw [List.isEmpty_iff] at fresh
    have first := told.snoc (f := id) (by simp [fresh]) fair worth
    rw [fresh] at first
    exact ⟨Form.own_present d, first⟩
  · have above := Filled.single present told.fair
    have below : Filled (.own d) [[d]] :=
      .single (Form.own_present d) (by simpa using fair)
    have lower := Joint.lower_keeps below (.ofColumns c.form [c.cells]) List.mem_cons_self
      List.mem_cons_self
    refine ⟨Joint.form_present present (Form.own_present d), ?_⟩
    refine told.snoc (fun d inside => ?_) lower.1 (lower.2.trans worth)
    exact Joint.upper_keeps above _ List.mem_cons_self inside

namespace Table

variable {t : Table}

structure Holds (t : Table) (points : List (List (String × Datum))) : Prop where
  height : t.height = points.length
  present : ∀ column ∈ t.columns, column.2.form ≠ .absent
  tells : ∀ column ∈ t.columns, Tells points column.1 column.2.cells

theorem Holds.empty (names : List String) : (empty names).Holds [] := by
  refine ⟨rfl, ?_, ?_⟩
  · intro column member
    obtain ⟨name, _, rfl⟩ := List.mem_map.mp member
    exact Form.noConfusion
  · intro column member
    obtain ⟨name, _, rfl⟩ := List.mem_map.mp member
    exact ⟨by simp, by simp⟩

theorem refusal?_of_fair {d : Datum} (fair : d.Fair) : refusal? d = none := by
  cases fair with
  | nothing => simp only [refusal?]
  | whole small => rw [refusal?, Binary64.isInfinite_ofInt small, if_neg Bool.false_ne_true]
  | real held => simp only [refusal?]

theorem append_of_accepted (several : 1 < t.columns.length)
    (accepted : ∀ column ∈ t.columns, refusal? (valueOf row column.1) = none) :
    t.append row =
      .ok ⟨t.columns.map fun column => (column.1, column.2.push (valueOf row column.1)),
        t.height + 1⟩ := by
  have none : t.columns.findSome? (fun column => refusal? (valueOf row column.1)) = none := by
    rw [List.findSome?_eq_none_iff]
    exact accepted
  rw [append_eq several, none]
  rfl

theorem Holds.append (held : t.Holds points) (several : 1 < t.columns.length)
    (complete : Complete (t.columns.map Prod.fst) row) :
    ∃ t', t.append row = .ok t' ∧ t'.Holds (points ++ [row]) := by
  have fair (column : String × Column) (member : column ∈ t.columns) :
      (valueOf row column.1).Fair :=
    complete.valueOf (List.mem_map_of_mem member)
  have pushed (column : String × Column) (member : column ∈ t.columns) :=
    Column.push_tells (held.present column member) (held.tells column member) (fair column member)
      rfl
  refine ⟨_, append_of_accepted several fun column member =>
    refusal?_of_fair (fair column member), ?_, ?_, ?_⟩
  · rw [held.height, List.length_append, List.length_singleton]
  · intro column member
    obtain ⟨old, inside, rfl⟩ := List.mem_map.mp member
    exact (pushed old inside).1
  · intro column member
    obtain ⟨old, inside, rfl⟩ := List.mem_map.mp member
    exact (pushed old inside).2

end Table

def StandFor : List Datum → List Datum → Prop :=
  List.Forall₂ fun cell d => cell.Fair ∧ cell.worth = d.worth

def Alike : List Datum → List Datum → Prop := List.Forall₂ fun a b => alike a b = true

/-- Are fields of a file read as some values?  An empty field is read as a missing one. -/
def ReadAs : List (List Char) → List Datum → Prop :=
  List.Forall₂ fun field d =>
    alike (Csv.value field) d = true ∧ (field = [] ↔ isMissing d = true)

theorem forall₂_of_common {α β γ : Type} {A : α → γ → Prop} {B : β → γ → Prop} {C : α → β → Prop}
    (joins : ∀ x y z, A x z → B y z → C x y) {xs : List α} {ys : List β} {zs : List γ}
    (first : List.Forall₂ A xs zs) (second : List.Forall₂ B ys zs) : List.Forall₂ C xs ys := by
  induction first generalizing ys with
  | nil =>
      cases second
      exact .nil
  | cons here _ ih =>
      cases second with
      | cons there rest => exact .cons (joins _ _ _ here there) (ih rest)

theorem StandFor.alike {cells values : List Datum} (stand : StandFor cells values) :
    Alike cells values :=
  stand.imp fun cell d both => (alike_iff cell d).mpr both.2

theorem StandFor.alike_of_common {cells others values : List Datum}
    (first : StandFor cells values) (second : StandFor others values) : Alike cells others :=
  forall₂_of_common (fun cell other _ here there =>
    (alike_iff cell other).mpr (here.2.trans there.2.symm)) first second

theorem StandFor.readAs {cells values : List Datum} (stand : StandFor cells values) :
    ReadAs (cells.map Csv.cellText) values := by
  unfold ReadAs
  rw [List.forall₂_map_left_iff]
  refine stand.imp fun cell d both => ?_
  obtain ⟨fair, worth⟩ := both
  obtain ⟨read, empty⟩ := Csv.value_cellText fair
  rw [alike_iff] at read
  rw [isMissing_iff, worth, ← isMissing_iff] at empty
  exact ⟨(alike_iff _ d).mpr (read.trans worth), empty⟩

theorem values_of_names (apart : (row.map Prod.fst).Nodup) :
    (row.map Prod.fst).map (Table.valueOf row) = row.map Prod.snd := by
  induction row with
  | nil => rfl
  | cons entry row ih =>
      obtain ⟨name, d⟩ := entry
      rw [List.map_cons, List.nodup_cons] at apart
      have first : Table.valueOf ((name, d) :: row) name = d := by
        simp [Table.valueOf]
      have later : ∀ other ∈ row.map Prod.fst,
          Table.valueOf ((name, d) :: row) other = Table.valueOf row other := by
        intro other member
        have differs : (other == name) = false := by
          rw [beq_eq_false_iff_ne]
          intro same
          exact apart.1 (same ▸ member)
        simp [Table.valueOf, List.lookup_cons, differs]
      rw [List.map_cons, List.map_cons, List.map_cons, first, List.map_congr_left later,
        ih apart.2]

theorem rows_stand {names : List String} {columns : List (String × List Datum)}
    (apart : names.Nodup) (named : columns.map Prod.fst = names)
    (tells : ∀ column ∈ columns, Tells points column.1 column.2)
    (given : ∀ row ∈ points, row.map Prod.fst = names) :
    List.Forall₂ (fun cells row => StandFor cells (row.map Prod.snd))
      ((List.range points.length).map fun index =>
        columns.map fun column => column.2[index]?.getD missing) points := by
  rw [List.forall₂_iff_get]
  refine ⟨by simp, fun index bound inside => ?_⟩
  have found : points[index]? = some points[index] := List.getElem?_eq_getElem inside
  have same := given points[index] (List.getElem_mem inside)
  have values : points[index].map Prod.snd =
      columns.map fun column => Table.valueOf points[index] column.1 := by
    rw [← values_of_names (same ▸ apart), same, ← named, List.map_map]
    rfl
  simp only [List.get_eq_getElem, List.getElem_map, List.getElem_range, values]
  unfold StandFor
  rw [List.forall₂_map_left_iff, List.forall₂_map_right_iff, List.forall₂_same]
  intro column member
  obtain ⟨cell, standing, fair, worth⟩ := (tells column member).getElem? found
  rw [standing]
  exact ⟨fair, worth⟩

theorem Datasheet.Holds.rows {s : Datasheet} {names : List String} (held : s.Holds points)
    (apart : names.Nodup) (named : s.names = names)
    (given : ∀ row ∈ points, row.map Prod.fst = names) :
    List.Forall₂ (fun cells row => StandFor cells (row.map Prod.snd)) s.rows points := by
  rw [Datasheet.rows, held.height]
  exact rows_stand apart named held.tells given

theorem Table.Holds.rows {t : Table} {names : List String} (held : t.Holds points)
    (apart : names.Nodup) (named : t.columns.map Prod.fst = names)
    (given : ∀ row ∈ points, row.map Prod.fst = names) :
    List.Forall₂ (fun cells row => StandFor cells (row.map Prod.snd)) t.rows points := by
  have tells : ∀ column ∈ t.columns.map fun column => (column.1, column.2.cells),
      Tells points column.1 column.2 := by
    intro column member
    obtain ⟨old, inside, rfl⟩ := List.mem_map.mp member
    exact held.tells old inside
  have same : (t.columns.map fun column => (column.1, column.2.cells)).map Prod.fst = names := by
    rw [List.map_map]
    exact named
  have stand := rows_stand apart same tells given
  simp only [List.map_map] at stand
  rw [Table.rows, held.height]
  exact stand

theorem Datasheet.read_csv {s : Datasheet} (filled : s.names ≠ []) :
    Csv.read s.csv.toList = some (s.names.map String.toList ::
      s.rows.map fun cells => cells.map Csv.cellText) := by
  have written : s.csv.toList = (s.names.map String.toList ::
      s.rows.map fun cells => cells.map Csv.cellText).flatMap Csv.line := by
    rw [csv, String.toList_ofList, header, List.flatMap_cons, rows, List.map_map, List.flatMap_map]
    rfl
  rw [written]
  refine Csv.read_lines _ fun fields member => ?_
  rcases List.mem_cons.mp member with rfl | line
  · simpa using filled
  · obtain ⟨cells, inside, rfl⟩ := List.mem_map.mp line
    obtain ⟨index, _, rfl⟩ := List.mem_map.mp inside
    simpa [row, names] using filled

theorem Datasheet.single_of_fair {d : Datum} (fair : d.Fair) : single d = .ok d := by
  cases fair <;> rfl

end Sheet

namespace Recorder

variable {r : Recorder} {points rows : List (List (String × Datum))} {row : List (String × Datum)}

structure FairRow (row : List (String × Datum)) : Prop where
  names : row.map Prod.fst = columns
  fair : ∀ entry ∈ row, entry.2.Fair

theorem FairRow.complete (given : FairRow row) : Sheet.Complete columns row := by
  intro name listed
  rw [← given.names] at listed
  obtain ⟨d, found, member⟩ := lookup_of_mem_keys listed
  exact ⟨d, found, given.fair _ member⟩

structure Holds (r : Recorder) (points : List (List (String × Datum))) : Prop where
  named : r.InColumns
  sheet : r.sheet.Holds points
  table : r.table.Holds points

theorem Holds.empty : empty.Holds [] := ⟨.empty, .empty _, .empty _⟩

theorem Holds.clear (r : Recorder) : r.clear.Holds [] := ⟨.clear r, .empty _, .empty _⟩

theorem Holds.add (held : r.Holds points) (given : FairRow row) :
    (r.add row).1.Holds (points ++ [row]) := by
  have apart : Sheet.Datasheet.hasTwins r.sheet.names = false := by
    rw [held.named.sheet]
    decide
  have plain : ∀ entry ∈ row, Sheet.Datasheet.single entry.2 = .ok entry.2 := fun entry member =>
    Sheet.Datasheet.single_of_fair (given.fair entry member)
  have added := Sheet.Datasheet.addPoint_of_plain apart plain
  have sheet := held.sheet.addRow held.named.listed (held.named.known given.names)
    (held.named.sheet ▸ given.complete)
  obtain ⟨table, appended, holds⟩ :=
    held.table.append held.named.several (held.named.table ▸ given.complete)
  have columns := held.named.add given.names
  simp only [Recorder.add, added, appended] at columns ⊢
  exact ⟨columns, sheet, holds⟩

def addAll (r : Recorder) (rows : List (List (String × Datum))) : Recorder :=
  rows.foldl (fun r row => (r.add row).1) r

theorem Holds.addAll (held : r.Holds points) (given : ∀ row ∈ rows, FairRow row) :
    (r.addAll rows).Holds (points ++ rows) := by
  induction rows generalizing r points with
  | nil => simpa [Recorder.addAll] using held
  | cons row rows ih =>
      have first := held.add (given row (by simp))
      have rest := ih first fun later member => given later (by simp [member])
      simpa [Recorder.addAll] using rest

end Recorder

end ThrustBench
