import Mathlib.Data.List.Infix
import Mathlib.Logic.Relation
import ThrustBench.Proofs.Derivation

/-!
What rules find.  `Sound` says that a rule finds nothing wrong; here a rule is shown to miss
nothing.  Several derivations that end at one place are kept as one, so that only their ends can be
asked for: a rule finds a language if it reaches every place to which the language has a piece of
the text.  Together with soundness and with a language that has one reading of each text, this says
what a text is derived to (`derive_eq_ok_iff`).  `Exact` carries both through the composition of
rules.
-/

namespace ThrustBench.Grammar

theorem takeWhile_run {p : Char → Bool} {run rest : List Char} (all : ∀ c ∈ run, p c = true)
    (stop : ∀ c ∈ rest.head?, p c = false) : (run ++ rest).takeWhile p = run := by
  rw [List.takeWhile_append_of_pos all]
  cases rest with
  | nil => simp
  | cons c cs => simp [stop c (by simp)]

theorem dropWhile_run {p : Char → Bool} {run rest : List Char} (all : ∀ c ∈ run, p c = true)
    (stop : ∀ c ∈ rest.head?, p c = false) : (run ++ rest).dropWhile p = rest := by
  rw [List.dropWhile_append_of_pos all]
  cases rest with
  | nil => rfl
  | cons c cs => simp [stop c (by simp)]

theorem head?_dropWhile_stops {p : Char → Bool} {cs : List Char} :
    ∀ c ∈ (cs.dropWhile p).head?, p c = false := by
  intro c first
  have stop := List.head?_dropWhile_not p cs
  rw [Option.mem_def.mp first] at stop
  exact stop

def Lexicon.Takes {τ : Type} (lexicon : Lexicon τ) (lexeme : τ × List Char)
    (cs rest : List Char) : Prop :=
  lexicon.cut lexeme.1 (lexicon.skip cs) = some (lexeme.2, rest)

namespace Rule

variable {τ α β : Type} {L M : List Char → List Char → Prop}

def Finds (p : Rule τ α) (L : List Char → List Char → Prop) : Prop :=
  ∀ cs rest, L cs rest → ∃ a, (a, rest) ∈ (p cs).found

def Trims (p : Rule τ α) : Prop := Sound p fun _ cs rest => rest <:+ cs

def Shrinks (p : Rule τ α) : Prop :=
  Sound p fun _ cs rest => rest <:+ cs ∧ rest.length < cs.length

theorem Sound.and {p : Rule τ α} {R S : α → List Char → List Char → Prop} (first : Sound p R)
    (second : Sound p S) : Sound p fun a cs rest => R a cs rest ∧ S a cs rest := by
  intro cs a rest found
  exact ⟨first cs a rest found, second cs a rest found⟩

theorem Finds.mono {p : Rule τ α} (finds : Finds p L) (smaller : ∀ cs rest, M cs rest → L cs rest) :
    Finds p M := by
  intro cs rest piece
  exact finds cs rest (smaller cs rest piece)

theorem Finds.pure (a : α) : Finds (Rule.pure a : Rule τ α) fun cs rest => rest = cs := by
  rintro cs rest rfl
  exact ⟨a, by simp [Rule.pure]⟩

theorem Finds.terminal (lexicon : Lexicon τ) (t : τ) :
    Finds (Rule.terminal lexicon t) fun cs rest =>
      ∃ text, lexicon.Takes (t, text) cs rest := by
  rintro cs rest ⟨text, takes⟩
  exact ⟨text, by simpa [Rule.terminal, Lexicon.Takes] using takes⟩

theorem Finds.bind {p : Rule τ α} {f : α → Rule τ β} (first : Finds p L)
    (second : ∀ a, Finds (f a) M) :
    Finds (p.bind f) fun cs rest => ∃ middle, L cs middle ∧ M middle rest := by
  rintro cs rest ⟨middle, before, behind⟩
  obtain ⟨a, foundFirst⟩ := first cs middle before
  obtain ⟨b, foundSecond⟩ := second a middle rest behind
  refine ⟨b, ?_⟩
  simp only [Rule.bind, List.mem_flatMap, List.mem_map]
  exact ⟨f a middle, ⟨(a, middle), foundFirst, rfl⟩, foundSecond⟩

theorem suffix_unique {left right cs : List Char} (one : left <:+ cs) (other : right <:+ cs)
    (same : left.length = right.length) : left = right :=
  (List.suffix_of_suffix_length_le one other (by omega)).eq_of_length same

theorem either_keeps {p q : Rule τ α} (first : Trims p) (second : Trims q) {cs rest : List Char}
    {a : α} (found : (a, rest) ∈ (q cs).found) :
    ∃ b, (b, rest) ∈ (Rule.either p q cs).found := by
  by_cases twice : (p cs).found.any (fun s => s.2.length == rest.length) = true
  · obtain ⟨⟨b, other⟩, inFirst, same⟩ := List.any_eq_true.mp twice
    have alike : other = rest :=
      suffix_unique (first cs b other inFirst) (second cs a rest found) (by simpa using same)
    rw [alike] at inFirst
    exact ⟨b, by simp [Rule.either, inFirst]⟩
  · refine ⟨a, ?_⟩
    simp only [Rule.either, List.mem_append, List.mem_filter]
    exact Or.inr ⟨found, by simpa using twice⟩

theorem Trims.oneOf {ps : List (Rule τ α)} (each : ∀ p ∈ ps, Trims p) : Trims (Rule.oneOf ps) :=
  Sound.oneOf each

theorem Finds.oneOf {ps : List (Rule τ α)} (trims : ∀ p ∈ ps, Trims p) {p : Rule τ α}
    (member : p ∈ ps) (finds : Finds p L) : Finds (Rule.oneOf ps) L := by
  induction ps with
  | nil => simp at member
  | cons q qs ih =>
      have trimsLater : ∀ r ∈ qs, Trims r := fun r later => trims r (by simp [later])
      intro cs rest piece
      rcases List.mem_cons.mp member with rfl | later
      · obtain ⟨a, found⟩ := finds cs rest piece
        exact ⟨a, by simp [Rule.oneOf, Rule.either, found]⟩
      · obtain ⟨a, found⟩ := ih trimsLater later cs rest piece
        exact either_keeps (trims q (by simp)) (Trims.oneOf trimsLater) found

def InOrder (ways : List (Way α)) : Prop :=
  ways.Pairwise fun way later => later.2.length < way.2.length

theorem mem_enqueue_of_mem {ways : List (Way α)} {way other : Way α} (member : other ∈ ways) :
    other ∈ enqueue ways way := by
  induction ways with
  | nil => simp at member
  | cons first rest ih =>
      simp only [enqueue]
      split
      · simp [member]
      · split
        · exact member
        · rcases List.mem_cons.mp member with rfl | later
          · simp
          · simp [ih later]

theorem enqueue_reaches (ways : List (Way α)) (way : Way α) :
    ∃ other ∈ enqueue ways way, other.2.length = way.2.length := by
  induction ways with
  | nil => exact ⟨way, by simp [enqueue]⟩
  | cons first rest ih =>
      simp only [enqueue]
      split
      · exact ⟨way, by simp⟩
      · split
        · rename_i same
          exact ⟨first, by simp, same⟩
        · obtain ⟨other, member, same⟩ := ih
          exact ⟨other, by simp [member], same⟩

theorem InOrder.enqueue {ways : List (Way α)} (ordered : InOrder ways) (way : Way α) :
    InOrder (enqueue ways way) := by
  induction ways with
  | nil => simp [Rule.enqueue, InOrder]
  | cons first rest ih =>
      obtain ⟨before, later⟩ := List.pairwise_cons.mp ordered
      simp only [Rule.enqueue]
      split
      · rename_i shorter
        refine List.pairwise_cons.mpr ⟨?_, ordered⟩
        intro other member
        rcases List.mem_cons.mp member with rfl | behind
        · exact shorter
        · have := before other behind
          omega
      · split
        · exact ordered
        · refine List.pairwise_cons.mpr ⟨?_, ih later⟩
          intro other member
          rcases mem_enqueue member with rfl | old
          · omega
          · exact before other old

theorem mem_foldl_enqueue_of_mem (new : List (Way α)) : ∀ {ways : List (Way α)} {way : Way α},
    way ∈ ways → way ∈ new.foldl enqueue ways := by
  induction new with
  | nil => intro ways way member; exact member
  | cons first rest ih => intro ways way member; exact ih (mem_enqueue_of_mem member)

theorem foldl_enqueue_reaches {new : List (Way α)} : ∀ (ways : List (Way α)) {way : Way α},
    way ∈ new → ∃ other ∈ new.foldl enqueue ways, other.2.length = way.2.length := by
  induction new with
  | nil => intro ways way member; simp at member
  | cons first rest ih =>
      intro ways way member
      rcases List.mem_cons.mp member with rfl | later
      · obtain ⟨other, queued, same⟩ := enqueue_reaches ways way
        exact ⟨other, mem_foldl_enqueue_of_mem rest queued, same⟩
      · exact ih (enqueue ways first) later

theorem InOrder.foldl_enqueue (new : List (Way α)) : ∀ {ways : List (Way α)},
    InOrder ways → InOrder (new.foldl Rule.enqueue ways) := by
  induction new with
  | nil => intro ways ordered; exact ordered
  | cons first rest ih => intro ways ordered; exact ih (ordered.enqueue first)

section Queue

variable {p : Rule τ α} {start : List Char} {bound : Nat} {first : Way α} {others : List (Way α)}

def queued (p : Rule τ α) (first : Way α) (others : List (Way α)) : List (Way α) :=
  ((p first.2).found.map fun r => (r.1 :: first.1, r.2)).foldl enqueue others

theorem queued_inside (shrinks : Shrinks p) (ordered : InOrder (first :: others))
    (inside : ∀ way ∈ first :: others, way.2 <:+ start ∧ way.2.length < bound + 1) :
    ∀ next ∈ queued p first others, next.2 <:+ start ∧ next.2.length < bound := by
  obtain ⟨before, _⟩ := List.pairwise_cons.mp ordered
  obtain ⟨firstEnds, firstBound⟩ := inside first (by simp)
  intro next member
  rcases mem_foldl_enqueue member with new | old
  · obtain ⟨⟨a, left⟩, derived, rfl⟩ := List.mem_map.mp new
    obtain ⟨ends, shorter⟩ := shrinks first.2 a left derived
    exact ⟨ends.trans firstEnds, by dsimp only at shorter ⊢; omega⟩
  · have shorter := before next old
    exact ⟨(inside next (by simp [old])).1, by omega⟩

theorem InOrder.queued (ordered : InOrder (first :: others)) : InOrder (queued p first others) :=
  InOrder.foldl_enqueue _ (List.pairwise_cons.mp ordered).2

/-- Each piece behind the first way leads to a place in the queue.  The place may have been queued
before, with another reading of the same text. -/
theorem queued_reaches (shrinks : Shrinks p) (ordered : InOrder (first :: others))
    (inside : ∀ way ∈ first :: others, way.2 <:+ start ∧ way.2.length < bound + 1)
    {a : α} {middle : List Char} (derived : (a, middle) ∈ (p first.2).found) :
    ∃ next ∈ queued p first others, next.2 = middle := by
  obtain ⟨next, member, same⟩ := foldl_enqueue_reaches others
    (List.mem_map_of_mem (f := fun r => (r.1 :: first.1, r.2)) derived)
  refine ⟨next, member, suffix_unique (queued_inside shrinks ordered inside next member).1 ?_ same⟩
  exact (shrinks first.2 a middle derived).1.trans (inside first (by simp)).1

end Queue

/-- Following ways reaches every place that a chain of pieces leads to from one of them.  Each way
that is followed lies further in the text than the one before, so that the bound is never met. -/
theorem follow_finds {p : Rule τ α} (shrinks : Shrinks p) (finds : Finds p L) (start : List Char) :
    ∀ bound ways, InOrder ways → (∀ way ∈ ways, way.2 <:+ start ∧ way.2.length < bound) →
      ∀ way ∈ ways, ∀ rest, Relation.ReflTransGen L way.2 rest →
        ∃ as, (as, rest) ∈ (follow p bound ways).found := by
  intro bound
  induction bound with
  | zero =>
      intro ways _ inside way member
      have := (inside way member).2
      omega
  | succ bound ih =>
      intro ways ordered inside way member rest pieces
      cases ways with
      | nil => simp at member
      | cons first others =>
          have further := ih (queued p first others) ordered.queued
            (queued_inside shrinks ordered inside)
          simp only [follow, List.mem_append, List.mem_singleton, Prod.mk.injEq]
          rcases List.mem_cons.mp member with rfl | old
          · rcases Relation.ReflTransGen.cases_head pieces with rfl | ⟨middle, piece, pieces⟩
            · exact ⟨way.1.reverse, Or.inr ⟨rfl, rfl⟩⟩
            · obtain ⟨a, derived⟩ := finds way.2 middle piece
              obtain ⟨next, member, rfl⟩ := queued_reaches shrinks ordered inside derived
              obtain ⟨as, found⟩ := further next member rest pieces
              exact ⟨as, Or.inl found⟩
          · obtain ⟨as, found⟩ := further way (mem_foldl_enqueue_of_mem _ old) rest pieces
            exact ⟨as, Or.inl found⟩

theorem Finds.star {p : Rule τ α} (shrinks : Shrinks p) (finds : Finds p L) :
    Finds (Rule.star p) (Relation.ReflTransGen L) := by
  intro cs rest pieces
  refine follow_finds shrinks finds cs _ [([], cs)] (by simp [InOrder]) ?_ ([], cs) (by simp) rest
    pieces
  intro way member
  rw [List.mem_singleton.mp member]
  exact ⟨List.suffix_rfl, by simp⟩

theorem Finds.plus {p : Rule τ α} (shrinks : Shrinks p) (finds : Finds p L) :
    Finds (Rule.plus p) (Relation.TransGen L) := by
  change Finds (p.bind fun first => p.star.bind fun others => Rule.pure (first :: others)) _
  refine (finds.bind fun first => (Finds.star shrinks finds).bind fun others =>
    Finds.pure (first :: others)).mono ?_
  intro cs rest pieces
  obtain ⟨middle, piece, more⟩ := Relation.TransGen.head'_iff.mp pieces
  exact ⟨middle, piece, rest, more, rfl⟩

theorem Chain.pieces {R : α → List Char → List Char → Prop} {as : List α} {cs rest : List Char}
    (chain : Chain R as cs rest) :
    Relation.ReflTransGen (fun cs rest => ∃ a, R a cs rest) cs rest := by
  induction chain with
  | nil => exact .refl
  | cons first _ ih => exact .head ⟨_, first⟩ ih

theorem Chain.pieces_of {R : α → List Char → List Char → Prop} {P : α → Prop} {as : List α}
    {cs rest : List Char} (chain : Chain R as cs rest) (all : ∀ a ∈ as, P a) :
    Relation.ReflTransGen (fun cs rest => ∃ a, P a ∧ R a cs rest) cs rest := by
  induction chain with
  | nil => exact .refl
  | cons first _ ih =>
      exact .head ⟨_, all _ (by simp), first⟩ (ih fun a later => all a (by simp [later]))

theorem Chain.append {R : α → List Char → List Char → Prop} {as bs : List α}
    {cs middle rest : List Char} (first : Chain R as cs middle) (second : Chain R bs middle rest) :
    Chain R (as ++ bs) cs rest := by
  induction first with
  | nil => exact second
  | cons here _ ih => exact .cons here (ih second)

theorem Chain.split {R : α → List Char → List Char → Prop} {as bs : List α} :
    ∀ {cs rest : List Char}, Chain R (as ++ bs) cs rest →
      ∃ middle, Chain R as cs middle ∧ Chain R bs middle rest := by
  induction as with
  | nil => intro cs rest chain; exact ⟨cs, .nil, chain⟩
  | cons a as ih =>
      intro cs rest chain
      cases chain with
      | cons here later =>
          obtain ⟨middle, first, second⟩ := ih later
          exact ⟨middle, .cons here first, second⟩

theorem Chain.takes_unique {lexicon : Lexicon τ} {left right : List (τ × List Char)} :
    ∀ {cs leftRest rightRest : List Char}, left.map Prod.fst = right.map Prod.fst →
      Chain lexicon.Takes left cs leftRest → Chain lexicon.Takes right cs rightRest →
      left = right ∧ leftRest = rightRest := by
  induction left generalizing right with
  | nil =>
      intro cs leftRest rightRest same one other
      have none : right = [] := by simpa using same.symm
      subst none
      cases one
      cases other
      exact ⟨rfl, rfl⟩
  | cons l ls ih =>
      intro cs leftRest rightRest same one other
      cases other with
      | nil => simp at same
      | @cons r rs _ _ _ here later =>
          cases one with
          | cons hereToo laterToo =>
              simp only [List.map_cons, List.cons.injEq] at same
              simp only [Lexicon.Takes] at here hereToo
              rw [same.1, here] at hereToo
              simp only [Option.some.injEq, Prod.mk.injEq] at hereToo
              rw [← hereToo.2] at laterToo
              obtain ⟨rfl, rfl⟩ := ih same.2 laterToo later
              exact ⟨by rw [Prod.ext same.1 hereToo.1.symm], rfl⟩

theorem derive_finds (lexicon : Lexicon τ) {p : Rule τ α} (finds : Finds p L)
    {text rest : List Char} (piece : L text rest) (whole : lexicon.skip rest = []) :
    ∃ a, derive lexicon p text = .ok a := by
  obtain ⟨b, found⟩ := finds text rest piece
  simp only [derive]
  split
  · exact ⟨_, rfl⟩
  · rename_i nothing
    have refused := List.find?_eq_none.mp nothing (b, rest) found
    simp [whole] at refused

/-- What a text is derived to, if a rule is sound and misses nothing, and if what it derives from
a text that is taken up whole is determined by the text. -/
theorem derive_eq_ok_iff (lexicon : Lexicon τ) {p : Rule τ α}
    {R : α → List Char → List Char → Prop} (sound : Sound p R)
    (finds : Finds p fun cs rest => ∃ a, R a cs rest) (text : List Char)
    (unique : ∀ a b left right, R a text left → lexicon.skip left = [] → R b text right →
      lexicon.skip right = [] → a = b) (a : α) :
    derive lexicon p text = .ok a ↔ ∃ rest, R a text rest ∧ lexicon.skip rest = [] := by
  constructor
  · exact derive_sound sound
  · rintro ⟨rest, derivation, whole⟩
    obtain ⟨c, derived⟩ := derive_finds lexicon finds ⟨a, derivation⟩ whole
    -- what is derived may belong to another rest, but the text has one reading
    obtain ⟨left, other, wholeToo⟩ := derive_sound sound derived
    rw [derived, unique c a left rest other wholeToo derivation whole]

section Exact

variable {R : α → List Char → List Char → Prop}

structure Exact (p : Rule τ α) (R : α → List Char → List Char → Prop)
    (L : List Char → List Char → Prop) : Prop where
  sound : Sound p R
  finds : Finds p L

theorem Exact.mono {p : Rule τ α} {S : α → List Char → List Char → Prop} (given : Exact p R L)
    (weaker : ∀ a cs rest, R a cs rest → S a cs rest)
    (smaller : ∀ cs rest, M cs rest → L cs rest) : Exact p S M :=
  ⟨given.sound.mono weaker, given.finds.mono smaller⟩

theorem Exact.weaken {p : Rule τ α} {S : α → List Char → List Char → Prop} (given : Exact p R L)
    (weaker : ∀ a cs rest, R a cs rest → S a cs rest) : Exact p S L :=
  given.mono weaker fun _ _ piece => piece

theorem Exact.pure (a : α) : Exact (Pure.pure a : Rule τ α) (fun b cs rest => b = a ∧ rest = cs)
    fun cs rest => rest = cs :=
  ⟨.pure a, .pure a⟩

theorem Exact.terminal (lexicon : Lexicon τ) (t : τ) :
    Exact (Rule.terminal lexicon t) (fun text cs rest => lexicon.Takes (t, text) cs rest)
      fun cs rest => ∃ text, lexicon.Takes (t, text) cs rest :=
  ⟨.terminal lexicon t, .terminal lexicon t⟩

theorem Exact.bind {p : Rule τ α} {f : α → Rule τ β} {S : α → β → List Char → List Char → Prop}
    (first : Exact p R L) (second : ∀ a, Exact (f a) (S a) M) :
    Exact (p >>= f) (fun b cs rest => ∃ a middle, R a cs middle ∧ S a b middle rest)
      fun cs rest => ∃ middle, L cs middle ∧ M middle rest :=
  ⟨first.sound.bind fun a => (second a).sound, first.finds.bind fun a => (second a).finds⟩

theorem Exact.none : Exact (Rule.none : Rule τ α) R fun _ _ => False := by
  constructor
  · intro cs a rest found
    simp [Rule.none] at found
  · intro cs rest piece
    exact piece.elim

theorem Exact.either {p q : Rule τ α} (trims : ∀ a cs rest, R a cs rest → rest <:+ cs)
    (first : Exact p R L) (second : Exact q R M) :
    Exact (Rule.either p q) R fun cs rest => L cs rest ∨ M cs rest := by
  refine ⟨first.sound.either second.sound, ?_⟩
  rintro cs rest (one | other)
  · obtain ⟨a, found⟩ := first.finds cs rest one
    exact ⟨a, by simp [Rule.either, found]⟩
  · obtain ⟨a, found⟩ := second.finds cs rest other
    exact either_keeps (first.sound.mono trims) (second.sound.mono trims) found

theorem Exact.oneOf_map {ι : Type} {f : ι → Rule τ α} {N : ι → List Char → List Char → Prop}
    (trims : ∀ a cs rest, R a cs rest → rest <:+ cs) (each : ∀ i, Exact (f i) R (N i))
    (is : List ι) : Exact (Rule.oneOf (is.map f)) R fun cs rest => ∃ i ∈ is, N i cs rest := by
  induction is with
  | nil => exact Exact.none.mono (fun _ _ _ related => related) (by simp)
  | cons i is ih =>
      refine (Exact.either trims (each i) ih).mono (fun _ _ _ related => related) ?_
      rintro cs rest ⟨j, member, piece⟩
      rcases List.mem_cons.mp member with rfl | later
      · exact Or.inl piece
      · exact Or.inr ⟨j, later, piece⟩

theorem Exact.optional {p : Rule τ α} (trims : ∀ a cs rest, R a cs rest → rest <:+ cs)
    (once : Exact p R L) :
    Exact (Rule.optional p) (fun o cs rest => (∃ a, o = some a ∧ R a cs rest) ∨
      o = Option.none ∧ rest = cs) fun cs rest => L cs rest ∨ rest = cs := by
  refine Exact.either ?_ ((once.bind fun a => .pure (some a)).mono ?_ ?_)
    ((Exact.pure _).mono ?_ ?_)
  · rintro o cs rest (⟨a, rfl, here⟩ | ⟨rfl, rfl⟩)
    · exact trims a cs rest here
    · exact List.suffix_rfl
  · rintro o cs rest ⟨a, middle, here, rfl, rfl⟩
    exact Or.inl ⟨a, rfl, here⟩
  · intro cs rest piece
    exact ⟨rest, piece, rfl⟩
  · rintro o cs rest ⟨rfl, rfl⟩
    exact Or.inr ⟨rfl, rfl⟩
  · intro cs rest same
    exact same

theorem Exact.star {p : Rule τ α}
    (shrinks : ∀ a cs rest, R a cs rest → rest <:+ cs ∧ rest.length < cs.length)
    (once : Exact p R L) : Exact (Rule.star p) (Chain R) (Relation.ReflTransGen L) :=
  ⟨once.sound.star, .star (once.sound.mono shrinks) once.finds⟩

end Exact

end Rule

end ThrustBench.Grammar
