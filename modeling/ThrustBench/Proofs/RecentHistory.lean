import Mathlib.Data.List.DropRight
import ThrustBench.Proofs.ChannelHistory
import ThrustBench.Proofs.OrderedDoubles
import ThrustBench.Watch

/-!
What a history of the recent past holds.  It drops samples from the front only, and for good; since
the clock does not go back, what it holds is what a look through everything added since it was
cleared would select, and a question about ages that it reaches back to is answered as if nothing
had been dropped.
-/

namespace ThrustBench

/-- The double that a value is taken as in a difference: a whole number as the nearest one, if there
is any. -/
def Datum.double? (d : Datum) : Option Binary64 := d.number?.bind fun n => n.toReal.toOption

namespace Watch

inductive Use where
  | add (value : Datum)
  | hear (line : String)
  | clear
  deriving DecidableEq

structure Moment where
  clock : Clock
  use : Use

def apply (w : Watch) (m : Moment) : Watch :=
  match m.use with
  | .add value => ({ w with clock := m.clock }.add value).1
  | .hear line => ({ w with clock := m.clock }.hear line).1
  | .clear => { w with clock := m.clock, history := w.history.clear }

def after (w : Watch) (moments : List Moment) : Watch := moments.foldl apply w

def value? (w : Watch) : Use → Option Datum
  | .add value => some value
  | .hear line =>
    ((w.board.decode line).2.toOption.join.filter fun a => w.channel = some a.channel).map
      fun a => .ofNumber a.value
  | .clear => none

def sample? (w : Watch) (m : Moment) : Option Sample :=
  (w.value? m.use).map fun value => ⟨Clock.seconds m.clock.now, value⟩

def added (w : Watch) (moments : List Moment) : List Sample :=
  (moments.rtakeWhile fun m => m.use ≠ .clear).filterMap w.sample?

end Watch

namespace History

/-- The samples whose time is not below the time of the last one less a greatest age; all of them if
that difference has no value. -/
def recent (maxAge : Datum) (samples : List Sample) : List Sample :=
  match samples.getLast? with
  | none => []
  | some last =>
    match (Datum.real last.time).sub maxAge with
    | .ok cutoff => samples.filter fun s => !(Number.real s.time).lt cutoff
    | .error _ => samples

end History

theorem Number.real_sub (t : Binary64) (n : Number) :
    (real t).sub n = n.toReal.map fun y => real (t.sub y) := by
  have own : (real t).toReal = .ok t := rfl
  cases double : n.toReal with
  | error fault =>
      cases n <;> simp only [sub, own, double] <;> rfl
  | ok y =>
      cases n <;> simp only [sub, own, double] <;> rfl

section Cutoffs

variable {maxAge : Datum}

theorem Datum.double?_eq_some {age : Binary64} (known : maxAge.double? = some age) :
    ∃ n, maxAge.number? = some n ∧ n.toReal = .ok age := by
  obtain ⟨n, number, found⟩ := Option.bind_eq_some_iff.mp known
  refine ⟨n, number, ?_⟩
  cases outcome : n.toReal with
  | error fault => simp [outcome, Except.toOption] at found
  | ok x => simpa [outcome, Except.toOption] using found

theorem Datum.sub_of_double {age : Binary64} (known : maxAge.double? = some age) (t : Binary64) :
    (Datum.real t).sub maxAge = .ok (.real (t.sub age)) := by
  obtain ⟨n, number, double⟩ := double?_eq_some known
  have plain : (Datum.real t).number? = some (.real t) := rfl
  simp only [sub, plain, number, Number.real_sub, double, Except.map]

theorem Datum.sub_of_no_double (unknown : maxAge.double? = none) (t : Binary64) :
    ∃ fault, (Datum.real t).sub maxAge = .error fault := by
  have plain : (Datum.real t).number? = some (.real t) := rfl
  cases number : maxAge.number? with
  | none =>
      refine ⟨.operands "-" .real maxAge.kind, ?_⟩
      simp only [sub, plain, number, kind]
  | some n =>
      cases double : n.toReal with
      | ok x => simp [double?, number, double, Except.toOption] at unknown
      | error fault =>
          exact ⟨fault, by simp only [sub, plain, number, Number.real_sub, double, Except.map]⟩

end Cutoffs

def History.InOrder (samples : List Sample) : Prop :=
  samples.Pairwise fun s later => s.time.le later.time = true

theorem dropWhile_eq_filter {α : Type} {p : α → Bool} {as : List α}
    (ordered : as.Pairwise fun a b => p b = true → p a = true) :
    as.dropWhile p = as.filter fun a => !p a := by
  induction as with
  | nil => rfl
  | cons a as ih =>
      rw [List.pairwise_cons] at ordered
      by_cases first : p a = true
      · simp [first, ih ordered.2]
      · -- what comes behind one that is kept is kept as well
        have rest : ∀ b ∈ as, (!p b) = true := by
          intro b member
          have kept : p b ≠ true := fun dropped => first (ordered.1 b member dropped)
          simpa using kept
        simp [first, List.filter_eq_self.mpr rest]

namespace History

variable {maxAge : Datum} {samples : List Sample}

theorem recent_of_double {age : Binary64} (known : maxAge.double? = some age)
    (samples : List Sample) (last : Sample) :
    recent maxAge (samples ++ [last]) =
      (samples ++ [last]).filter fun s => !s.time.lt (last.time.sub age) := by
  simp only [recent, List.getLast?_append, List.getLast?_singleton, Option.some_or,
    Datum.sub_of_double known, Number.lt]

theorem recent_of_no_double (unknown : maxAge.double? = none) (samples : List Sample) :
    recent maxAge samples = samples := by
  unfold recent
  cases last : samples.getLast? with
  | none => exact (List.getLast?_eq_none_iff.mp last).symm
  | some s =>
      obtain ⟨fault, failed⟩ := Datum.sub_of_no_double unknown s.time
      simp only [failed]

section Adding

variable (h : History) (clock : Clock) (value : Datum)

theorem add_of_double {age : Binary64} (known : h.maxAge.double? = some age) :
    (h.add clock value).1 =
      { h with
        samples := (h.samples ++ [(⟨Clock.seconds clock.now, value⟩ : Sample)]).dropWhile fun s =>
          s.time.lt ((Clock.seconds clock.now).sub age) } := by
  simp only [add, Clock.look, pruneAt]
  generalize Clock.seconds clock.now = now
  rw [Datum.sub_of_double known]
  rfl

theorem add_of_no_double (unknown : h.maxAge.double? = none) :
    (h.add clock value).1 =
      { h with samples := h.samples ++ [⟨Clock.seconds clock.now, value⟩] } := by
  simp only [add, Clock.look, pruneAt]
  generalize Clock.seconds clock.now = now
  obtain ⟨fault, failed⟩ := Datum.sub_of_no_double unknown now
  rw [failed]
  rfl

theorem add_maxAge : (h.add clock value).1.maxAge = h.maxAge := by
  cases known : h.maxAge.double? with
  | none => rw [add_of_no_double h clock value known]
  | some age => rw [add_of_double h clock value known]

end Adding

theorem filter_recent {age now : Binary64} (known : maxAge.double? = some age)
    (later : ∀ s ∈ samples, s.time.le now = true) :
    ((recent maxAge samples).filter fun s => !s.time.lt (now.sub age)) =
      samples.filter fun s => !s.time.lt (now.sub age) := by
  cases samples using List.reverseRecOn with
  | nil => rfl
  | append_singleton samples last =>
      rw [recent_of_double known, List.filter_filter]
      apply List.filter_congr
      intro s _
      by_cases dropped : s.time.lt (last.time.sub age) = true
      · have still := Binary64.lt_sub_mono (later last (by simp)) dropped
        simp [still]
      · simp [dropped]

theorem recent_sublist (maxAge : Datum) (samples : List Sample) :
    (recent maxAge samples).Sublist samples := by
  unfold recent
  split
  · exact List.nil_sublist _
  · split
    · exact List.filter_sublist
    · exact List.Sublist.refl _

theorem add_recent (h : History) (clock : Clock) (value : Datum)
    (held : h.samples = recent h.maxAge samples)
    (ordered : InOrder (samples ++ [⟨Clock.seconds clock.now, value⟩])) :
    (h.add clock value).1.samples =
      recent h.maxAge (samples ++ [⟨Clock.seconds clock.now, value⟩]) := by
  cases known : h.maxAge.double? with
  | none =>
      rw [recent_of_no_double known] at held ⊢
      rw [add_of_no_double h clock value known, held]
  | some age =>
      rw [add_of_double h clock value known, recent_of_double known, held]
      generalize Clock.seconds clock.now = now at ordered ⊢
      have later := (List.pairwise_append.mp ordered).2.2
      have shorter : InOrder (recent h.maxAge samples ++ [⟨now, value⟩]) :=
        ordered.sublist ((recent_sublist h.maxAge samples).append (List.Sublist.refl _))
      have dropped := dropWhile_eq_filter <| shorter.imp fun {s later} order =>
        Binary64.lt_of_le_of_lt (z := now.sub age) order
      simp only [dropped, List.filter_append]
      rw [filter_recent known fun s member => later s member ⟨now, value⟩ List.mem_cons_self]

end History

theorem Board.decode_outcome {b b' : Board} (same : b'.offset = b.offset) (line : String) :
    (b'.decode line).2 = (b.decode line).2 := by
  unfold decode
  split
  · rfl
  · split
    · rfl
    · rfl
    · simp only [same]
      split <;> rfl

namespace Watch

variable (w : Watch) (m : Moment) (moments : List Moment)

theorem hear_spec (line : String) :
    let w' := (w.hear line).1
    w'.channel = w.channel ∧ w'.board = (w.board.decode line).1 ∧
      w'.history = (w.value? (.hear line)).elim w.history fun value =>
        (w.history.add w.clock value).1 := by
  rcases decoded : w.board.decode line with ⟨board, outcome⟩
  cases outcome with
  | error fault => simp [hear, value?, decoded, Except.toOption]
  | ok announced =>
      cases announced with
      | none => simp [hear, value?, decoded, Except.toOption]
      | some a =>
          by_cases own : w.channel = some a.channel
          · have found : w.value? (.hear line) = some (.ofNumber a.value) := by
              simp [value?, decoded, Except.toOption, own]
            rcases grown : w.history.add w.clock (.ofNumber a.value) with ⟨history, clock, result⟩
            cases result <;> simp [hear, decoded, own, found, add, grown]
          · have found : w.value? (.hear line) = none := by
              simp [value?, decoded, Except.toOption, own]
            simp [hear, decoded, own, found]

theorem apply_spec :
    let w' := w.apply m
    w'.channel = w.channel ∧ w'.board.offset = w.board.offset ∧
      w'.history.maxAge = w.history.maxAge ∧
      w'.history = (w.value? m.use).elim
        (if m.use = .clear then w.history.clear else w.history) fun value =>
          (w.history.add m.clock value).1 := by
  unfold apply
  cases use : m.use with
  | add value => exact ⟨rfl, rfl, History.add_maxAge _ _ _, rfl⟩
  | clear => exact ⟨rfl, rfl, rfl, rfl⟩
  | hear line =>
      obtain ⟨channel, board, history⟩ := hear_spec { w with clock := m.clock } line
      have same : value? { w with clock := m.clock } (.hear line) = w.value? (.hear line) := rfl
      rw [same] at history
      refine ⟨channel, ?_, ?_, by simpa using history⟩
      · rw [board]
        exact Board.decode_offset _ _
      · rw [history]
        cases w.value? (.hear line) with
        | none => rfl
        | some value => exact History.add_maxAge _ _ _

theorem value?_congr {w w' : Watch} (channel : w'.channel = w.channel)
    (offset : w'.board.offset = w.board.offset) : w'.value? = w.value? := by
  funext use
  cases use with
  | add value => rfl
  | clear => rfl
  | hear line => simp only [value?, channel, Board.decode_outcome offset]

theorem after_snoc : w.after (moments ++ [m]) = (w.after moments).apply m := by
  simp [after]

theorem added_snoc :
    w.added (moments ++ [m]) =
      if m.use = .clear then [] else w.added moments ++ (w.sample? m).toList := by
  unfold added
  rw [List.rtakeWhile_concat]
  by_cases clears : m.use = .clear
  · simp [clears]
  · cases found : w.sample? m <;> simp [clears, found]

theorem added_inOrder (ordered : (moments.map fun m => m.clock.now).Pairwise (· ≤ ·)) :
    History.InOrder (w.added moments) := by
  have since := (List.pairwise_map.mp ordered).sublist
    (List.rtakeWhile_suffix (fun m => m.use ≠ .clear) moments).sublist
  refine since.filterMap w.sample? ?_
  intro m later order s made s' made'
  obtain ⟨value, _, rfl⟩ := Option.map_eq_some_iff.mp made
  obtain ⟨value', _, rfl⟩ := Option.map_eq_some_iff.mp made'
  dsimp only at order ⊢
  exact Clock.seconds_mono order

theorem after_constant :
    (w.after moments).value? = w.value? ∧
      (w.after moments).history.maxAge = w.history.maxAge := by
  induction moments using List.reverseRecOn with
  | nil => exact ⟨rfl, rfl⟩
  | append_singleton moments m ih =>
      obtain ⟨channel, offset, maxAge, _⟩ := (w.after moments).apply_spec m
      rw [after_snoc]
      exact ⟨(value?_congr channel offset).trans ih.1, maxAge.trans ih.2⟩

theorem after_recent (fresh : w.history.samples = [])
    (ordered : (moments.map fun m => m.clock.now).Pairwise (· ≤ ·)) :
    (w.after moments).history.samples =
      History.recent w.history.maxAge (w.added moments) := by
  induction moments using List.reverseRecOn with
  | nil => exact fresh
  | append_singleton moments m ih =>
      have together := w.added_inOrder _ ordered
      rw [List.map_append, List.pairwise_append] at ordered
      have held := ih ordered.1
      obtain ⟨values, maxAge⟩ := w.after_constant moments
      obtain ⟨_, _, _, history⟩ := (w.after moments).apply_spec m
      rw [after_snoc, history, values]
      rw [added_snoc] at together ⊢
      cases found : w.value? m.use with
      | none =>
          have none : w.sample? m = none := by simp [sample?, found]
          by_cases clears : m.use = .clear
          · simp [clears, History.clear, History.recent]
          · simpa [clears, none] using held
      | some value =>
          have some : w.sample? m = some ⟨Clock.seconds m.clock.now, value⟩ := by
            simp [sample?, found]
          have keeps : m.use ≠ .clear := by
            intro clears
            simp [clears, value?] at found
          rw [← maxAge] at held ⊢
          simp only [keeps, if_false, some, Option.toList_some] at together ⊢
          exact History.add_recent _ _ _ held together

end Watch

/-- At every moment of an ordered course of uses, by hand or by announcements, the history holds
those of the samples added since it was cleared last, all of them and in their order, whose time is
not below the time of the last one less the greatest age.  An age for which that difference has no
value drops nothing. -/
theorem history_keeps_recent (channel : Option Channel) (board : Board) (maxAge : Datum)
    (moments : List Watch.Moment)
    (ordered : (moments.map fun m => m.clock.now).Pairwise (· ≤ ·)) :
    let w : Watch := { channel, board, history := { maxAge } }
    let kept := (w.after moments).history.samples
    let added := w.added moments
    (added = [] → kept = []) ∧
      ∀ last ∈ added.getLast?,
        (∀ cutoff, (Datum.real last.time).sub maxAge = .ok cutoff →
          kept = added.filter fun s => !(Number.real s.time).lt cutoff) ∧
        ∀ fault, (Datum.real last.time).sub maxAge = .error fault → kept = added := by
  intro w kept added
  have recent : kept = History.recent maxAge added := w.after_recent moments rfl ordered
  refine ⟨fun none => by rw [recent, none]; rfl, ?_⟩
  intro last final
  rw [Option.mem_def] at final
  refine ⟨fun cutoff known => ?_, fun fault failed => ?_⟩
  · simp only [recent, History.recent, final, known]
  · simp only [recent, History.recent, final, failed]

def watchedCell : List Watch.Moment :=
  [⟨⟨900000000, 0⟩, .add (.whole 1)⟩, ⟨⟨950000000, 0⟩, .clear⟩,
    ⟨⟨1000000000, 0⟩, .hear "lc1(5)"⟩, ⟨⟨1000000000, 0⟩, .hear "lc2(7)"⟩,
    ⟨⟨1001000000, 0⟩, .add (.whole 8)⟩, ⟨⟨1001500000, 0⟩, .hear "lc1(-6)"⟩,
    ⟨⟨1003500000, 0⟩, .add .nothing⟩]

def watchedSamples : List Sample :=
  [⟨.ofInt 1000, .whole 5⟩, ⟨.ofInt 1001, .whole 8⟩, ⟨Clock.seconds 1001500000, .whole (-6)⟩,
    ⟨Clock.seconds 1003500000, .nothing⟩]

theorem history_keeps_recent_watchedCell :
    let w : Watch := { channel := some .cell1, history := { maxAge := .whole 2 } }
    w.added watchedCell = watchedSamples ∧
      (w.after watchedCell).history.samples = watchedSamples.drop 2 := by
  intro w
  have added : w.added watchedCell = watchedSamples := by decide +kernel
  have two : (Datum.whole 2).double? = some (.ofInt 2) := by decide +kernel
  have told := (history_keeps_recent (some .cell1) {} (.whole 2) watchedCell (by decide)).2
  rw [added] at told
  refine ⟨added, ?_⟩
  rw [(told ⟨Clock.seconds 1003500000, .nothing⟩ rfl).1 _ (Datum.sub_of_double two _)]
  decide +kernel

namespace History

theorem ageBetween_of_numbers {older younger : Datum} {o y : Number} (first : older.number? = some o)
    (second : younger.number? = some y) (age : Binary64) :
    ageBetween older younger age = .ok (o.lt (.real age) && (Number.real age).lt y) := by
  have low : older.lt (.real age) = .ok (o.lt (.real age)) := by
    cases older <;> simp_all [Datum.lt, Datum.number?]
  have high : (Datum.real age).lt younger = .ok ((Number.real age).lt y) := by
    cases younger <;> simp_all [Datum.lt, Datum.number?]
  unfold ageBetween
  rw [low, high]
  cases o.lt (.real age) <;> rfl

theorem selectByAge_of_numbers {older younger : Datum} {o y : Number}
    (first : older.number? = some o) (second : younger.number? = some y) (now : Binary64)
    (samples : List Sample) :
    selectByAge older younger now samples = .ok (samples.filter fun s =>
      o.lt (.real (now.sub s.time)) && (Number.real (now.sub s.time)).lt y) := by
  induction samples with
  | nil => rfl
  | cons s samples ih =>
      simp only [selectByAge, ageBetween_of_numbers first second, ih, List.filter_cons]
      rfl

end History

theorem Number.toReal_representable {n : Number} {x : Binary64}
    (double : ∀ y, n = .real y → y.Representable) (known : n.toReal = .ok x) :
    x.Representable := by
  cases n with
  | whole k =>
      have held := Binary64.ofInt_representable k
      simp only [toReal] at known
      generalize Binary64.ofInt k = nearest at held known
      split at known
      · simp at known
      · exact Except.ok.inj known ▸ held
  | real y => exact Except.ok.inj known ▸ double y rfl

theorem Datum.double?_representable {d : Datum} {age : Binary64}
    (double : ∀ x, d = .real x → x.Representable) (known : d.double? = some age) :
    age.Representable := by
  obtain ⟨n, number, real⟩ := double?_eq_some known
  refine Number.toReal_representable ?_ real
  rintro y rfl
  cases d with
  | real x =>
      simp only [number?, Option.some.injEq, Number.real.injEq] at number
      exact number ▸ double x rfl
  | _ => simp [number?] at number

theorem History.not_younger_of_dropped {age now now' t : Binary64} {y : Number}
    (held : age.Representable) (time : t.Representable) (later : now.le now' = true)
    (within : (Number.real age).lt y = false) (dropped : t.lt (now.sub age) = true) :
    (Number.real (now'.sub t)).lt y = false := by
  have given : age ≠ .nan := by
    rintro rfl
    cases now <;> simp [Binary64.sub, Binary64.neg, Binary64.add, Binary64.not_lt_nan] at dropped
  have old := Binary64.not_sub_lt time held (Binary64.lt_sub_mono later dropped)
  rw [Number.lt_eq] at within
  rw [Bool.eq_false_iff]
  intro younger
  rw [Number.lt_eq] at younger
  have below := Binary64.lt_of_lt_of_not_lt younger within given
  exact absurd (below.symm.trans old) (by decide)

theorem History.filter_recent_by_age {maxAge : Datum} {samples : List Sample} {now : Binary64}
    {y : Number} (double : ∀ x, maxAge = .real x → x.Representable)
    (within : ∀ age ∈ maxAge.double?, (Number.real age).lt y = false)
    (earlier : ∀ s ∈ samples, s.time.Representable ∧ s.time.le now = true) (old : Sample → Bool) :
    ((recent maxAge samples).filter fun s => old s && (Number.real (now.sub s.time)).lt y) =
      samples.filter fun s => old s && (Number.real (now.sub s.time)).lt y := by
  cases known : maxAge.double? with
  | none => rw [recent_of_no_double known]
  | some age =>
      cases samples using List.reverseRecOn with
      | nil => rfl
      | append_singleton samples last =>
          rw [recent_of_double known, List.filter_filter]
          apply List.filter_congr
          intro s member
          by_cases dropped : s.time.lt (last.time.sub age) = true
          · have notYounger := not_younger_of_dropped (Datum.double?_representable double known)
              (earlier s member).1 (earlier last (by simp)).2 (within age known) dropped
            simp [notYounger]
          · simp [dropped]

theorem Watch.time_of_added {w : Watch} {moments : List Moment} {s : Sample}
    (member : s ∈ w.added moments) : ∃ m ∈ moments, s.time = Clock.seconds m.clock.now := by
  obtain ⟨m, since, made⟩ := List.mem_filterMap.mp member
  obtain ⟨value, _, rfl⟩ := Option.map_eq_some_iff.mp made
  refine ⟨m, (List.rtakeWhile_suffix _ _).subset since, ?_⟩
  dsimp only

/-- A question about ages up to the one that the history reaches back to is answered as if nothing
had ever been dropped.  A whole number as the greatest age reaches back as far as the double nearest
to it, and what is no number, or lies beyond the doubles, without end. -/
theorem query_as_if_unpruned (channel : Option Channel) (board : Board) (maxAge : Datum)
    (moments : List Watch.Moment) (clock : Clock) (older younger : Datum) (o y : Number)
    (ordered : ((moments.map fun m => m.clock.now) ++ [clock.now]).Pairwise (· ≤ ·))
    (double : ∀ x, maxAge = .real x → x.Representable)
    (first : older.number? = some o) (second : younger.number? = some y)
    (within : ∀ age ∈ maxAge.double?, (Number.real age).lt y = false) :
    let w : Watch := { channel, board, history := { maxAge } }
    let now := Clock.seconds clock.now
    let selected := (w.added moments).filter fun s =>
      o.lt (.real (now.sub s.time)) && (Number.real (now.sub s.time)).lt y
    ((w.after moments).history.byAge clock older younger).1 = .ok selected ∧
      (History.byAge ⟨maxAge, w.added moments⟩ clock older younger).1 = .ok selected := by
  intro w now selected
  rw [List.pairwise_append] at ordered
  have recent := w.after_recent moments rfl ordered.1
  have earlier : ∀ s ∈ w.added moments, s.time.Representable ∧ s.time.le now = true := by
    intro s member
    obtain ⟨m, used, time⟩ := Watch.time_of_added member
    rw [time]
    refine ⟨Clock.seconds_representable _, Clock.seconds_mono ?_⟩
    exact ordered.2.2 _ (List.mem_map_of_mem used) _ List.mem_cons_self
  have same := History.filter_recent_by_age double within earlier
    fun s => o.lt (.real (now.sub s.time))
  refine ⟨?_, History.selectByAge_of_numbers first second now (w.added moments)⟩
  have kept : selected = (w.after moments).history.samples.filter fun s =>
      o.lt (.real (now.sub s.time)) && (Number.real (now.sub s.time)).lt y := by
    rw [recent]
    exact same.symm
  rw [kept]
  exact History.selectByAge_of_numbers first second now (w.after moments).history.samples

def longAgo : List Watch.Moment :=
  [⟨⟨200000000, 0⟩, .add (.whole 1)⟩, ⟨⟨1152921504606847232000000, 0⟩, .add (.whole 2)⟩]

/-- The greatest age, `2 ^ 60 + 100` seconds, is rounded down to a double, so that a sample is dropped
which is younger than that. -/
theorem query_misses_rounded_age :
    let age : Int := 1152921504606847076
    let clock : Clock := ⟨1152921504606847232000000, 0⟩
    let w : Watch := { history := { maxAge := .whole age } }
    ((longAgo.map fun m => m.clock.now) ++ [clock.now]).Pairwise (· ≤ ·) ∧
      (Number.whole age).lt (.whole age) = false ∧
      ((w.after longAgo).history.byAge clock (.whole 0) (.whole age)).1.toOption = some [] ∧
      (History.byAge ⟨.whole age, w.added longAgo⟩ clock (.whole 0) (.whole age)).1.toOption =
        some [⟨.ofInt 200, .whole 1⟩] := by
  decide +kernel

theorem query_as_if_unpruned_betweenAges :
    let clock : Clock := ⟨1003750000, 0⟩
    let w : Watch := { channel := some .cell1, history := { maxAge := .whole 3 } }
    let answer : Except Fault (List Sample) :=
      .ok [⟨.ofInt 1001, .whole 8⟩, ⟨Clock.seconds 1001500000, .whole (-6)⟩]
    ((w.after watchedCell).history.byAge clock (.whole 1) (.whole 3)).1 = answer ∧
      (History.byAge ⟨.whole 3, w.added watchedCell⟩ clock (.whole 1) (.whole 3)).1 = answer := by
  intro clock w answer
  have three : (Datum.whole 3).double? = some (.ofInt 3) := by decide +kernel
  have bound : (Number.real (.ofInt 3)).lt (.whole 3) = false := by decide +kernel
  have within : ∀ age ∈ (Datum.whole 3).double?, (Number.real age).lt (.whole 3) = false := by
    intro age known
    rw [Option.mem_def, three, Option.some.injEq] at known
    rw [← known, bound]
  have selected : ((w.added watchedCell).filter fun s =>
      (Number.whole 1).lt (.real ((Clock.seconds clock.now).sub s.time)) &&
        (Number.real ((Clock.seconds clock.now).sub s.time)).lt (.whole 3)) =
      [⟨.ofInt 1001, .whole 8⟩, ⟨Clock.seconds 1001500000, .whole (-6)⟩] := by
    decide +kernel
  obtain ⟨kept, whole⟩ := query_as_if_unpruned (some .cell1) {} (.whole 3) watchedCell clock
    (.whole 1) (.whole 3) (.whole 1) (.whole 3) (by decide) (by simp) rfl rfl within
  exact ⟨kept.trans (congrArg Except.ok selected), whole.trans (congrArg Except.ok selected)⟩

end ThrustBench
