import ThrustBench.Proofs.Recognition

/-!
Which terminals rules look for, and where.  What a rule tries is told by the pieces of the text that
lead to a place, so that a refusal names the terminals that could come next at the furthest place
that any of them leads to.
-/

namespace ThrustBench.Grammar

namespace Rule

variable {τ α β : Type} {R : α → List Char → List Char → Prop}
  {N M : List Char → Nat → τ → Prop}

/-- A rule looks for a terminal, with so many characters left, in exactly these cases. -/
def Tries (p : Rule τ α) (N : List Char → Nat → τ → Prop) : Prop :=
  ∀ cs left t, (left, t) ∈ (p cs).tried ↔ N cs left t

structure Leads (p : Rule τ α) (R : α → List Char → List Char → Prop) : Prop where
  sound : Sound p R
  finds : Finds p fun cs rest => ∃ a, R a cs rest

theorem Leads.terminal (lexicon : Lexicon τ) (t : τ) :
    Leads (Rule.terminal lexicon t) fun text cs rest => lexicon.Takes (t, text) cs rest where
  sound := .terminal lexicon t
  finds := .terminal lexicon t

theorem Tries.congr {p : Rule τ α} (tries : Tries p N)
    (same : ∀ cs left t, N cs left t ↔ M cs left t) : Tries p M := by
  intro cs left t
  rw [tries, same]

theorem Tries.pure (a : α) : Tries (Rule.pure a : Rule τ α) fun _ _ _ => False := by
  intro cs left t
  simp [Rule.pure]

theorem Tries.terminal (lexicon : Lexicon τ) (t : τ) :
    Tries (Rule.terminal lexicon t) fun cs left u => left = (lexicon.skip cs).length ∧ u = t := by
  intro cs left u
  simp [Rule.terminal]

theorem Tries.bind {p : Rule τ α} {f : α → Rule τ β} (leads : Leads p R) (first : Tries p N)
    (second : ∀ a, Tries (f a) M) :
    Tries (p.bind f) fun cs left t =>
      N cs left t ∨ ∃ middle, (∃ a, R a cs middle) ∧ M middle left t := by
  intro cs left t
  simp only [Rule.bind, List.mem_append, List.mem_flatMap, List.mem_map, first cs left t]
  refine or_congr_right ⟨?_, ?_⟩
  · rintro ⟨scan, ⟨⟨a, middle⟩, found, rfl⟩, tried⟩
    exact ⟨middle, ⟨a, leads.sound cs a middle found⟩, (second a middle left t).mp tried⟩
  · rintro ⟨middle, piece, tried⟩
    obtain ⟨a, found⟩ := leads.finds cs middle piece
    exact ⟨f a middle, ⟨(a, middle), found, rfl⟩, (second a middle left t).mpr tried⟩

theorem Tries.map {p : Rule τ α} (tries : Tries p N) (f : α → β) :
    Tries (p.bind fun a => Rule.pure (f a)) N := by
  intro cs left t
  simp [Rule.bind, Rule.pure, tries cs left t]

theorem Tries.oneOf {ι : Type} {f : ι → Rule τ α} {N : ι → List Char → Nat → τ → Prop}
    (each : ∀ i, Tries (f i) (N i)) (is : List ι) :
    Tries (Rule.oneOf (is.map f)) fun cs left t => ∃ i ∈ is, N i cs left t := by
  intro cs left t
  induction is with
  | nil => simp [Rule.oneOf, Rule.none]
  | cons i is ih =>
      simp only [List.map_cons, Rule.oneOf, Rule.either, List.mem_append, each i cs left t, ih,
        List.exists_mem_cons_iff]

theorem follow_tries {p : Rule τ α} (shrinks : Shrinks p) (leads : Leads p R) (tries : Tries p N)
    (start : List Char) {left : Nat} {t : τ} :
    ∀ bound ways, InOrder ways → (∀ way ∈ ways, way.2 <:+ start ∧ way.2.length < bound) →
      ((left, t) ∈ (follow p bound ways).tried ↔ ∃ way ∈ ways, ∃ middle,
        Relation.ReflTransGen (fun cs rest => ∃ a, R a cs rest) way.2 middle ∧
          N middle left t) := by
  intro bound
  induction bound with
  | zero =>
      intro ways _ inside
      simp only [follow, List.not_mem_nil, false_iff]
      rintro ⟨way, member, _⟩
      have none := (inside way member).2
      omega
  | succ bound ih =>
      intro ways ordered inside
      cases ways with
      | nil => simp [follow]
      | cons first others =>
          have further := ih (queued p first others) ordered.queued
            (queued_inside shrinks ordered inside)
          simp only [follow, List.mem_append, tries first.2 left t]
          rw [← queued, further]
          constructor
          · rintro (here | ⟨next, member, middle, pieces, tried⟩)
            · exact ⟨first, by simp, first.2, .refl, here⟩
            · rcases mem_foldl_enqueue member with new | old
              · obtain ⟨⟨a, rest⟩, derived, rfl⟩ := List.mem_map.mp new
                exact ⟨first, by simp, middle, .head ⟨a, leads.sound _ _ _ derived⟩ pieces, tried⟩
              · exact ⟨next, by simp [old], middle, pieces, tried⟩
          · rintro ⟨way, member, middle, pieces, tried⟩
            rcases List.mem_cons.mp member with rfl | old
            · rcases Relation.ReflTransGen.cases_head pieces with rfl | ⟨next, piece, pieces⟩
              · exact .inl tried
              · obtain ⟨a, derived⟩ := leads.finds way.2 next piece
                obtain ⟨other, member, rfl⟩ := queued_reaches shrinks ordered inside derived
                exact .inr ⟨other, member, middle, pieces, tried⟩
            · exact .inr ⟨way, mem_foldl_enqueue_of_mem _ old, middle, pieces, tried⟩

theorem Tries.star {p : Rule τ α} (shrinks : Shrinks p) (leads : Leads p R) (tries : Tries p N) :
    Tries (Rule.star p) fun cs left t => ∃ middle,
      Relation.ReflTransGen (fun cs rest => ∃ a, R a cs rest) cs middle ∧ N middle left t := by
  intro cs left t
  rw [Rule.star, follow_tries shrinks leads tries cs _ _ (by simp [InOrder]) (by simp)]
  simp

theorem Leads.star {p : Rule τ α} (shrinks : Shrinks p) (leads : Leads p R) :
    Leads (Rule.star p) (Chain R) where
  sound := leads.sound.star
  finds := (Finds.star shrinks leads.finds).mono fun _ _ chained => chained.choose_spec.pieces

theorem exists_chain {cs rest : List Char}
    (pieces : Relation.ReflTransGen (fun cs rest => ∃ a, R a cs rest) cs rest) :
    ∃ as, Chain R as cs rest := by
  induction pieces using Relation.ReflTransGen.head_induction_on with
  | refl => exact ⟨[], .nil⟩
  | head first _ ih =>
      obtain ⟨a, here⟩ := first
      obtain ⟨as, later⟩ := ih
      exact ⟨a :: as, .cons here later⟩

theorem Tries.plus {p : Rule τ α} (shrinks : Shrinks p) (leads : Leads p R) (tries : Tries p N) :
    Tries (Rule.plus p) fun cs left t => ∃ middle,
      Relation.ReflTransGen (fun cs rest => ∃ a, R a cs rest) cs middle ∧ N middle left t := by
  change Tries (p.bind fun first => p.star.bind fun others => Rule.pure (first :: others)) _
  refine (Tries.bind leads tries fun first => Tries.bind (leads.star shrinks)
    (Tries.star shrinks leads tries) fun others => Tries.pure (first :: others)).congr ?_
  intro cs left t
  constructor
  · rintro (here | ⟨middle, piece, ⟨further, pieces, tried⟩ | ⟨_, _, impossible⟩⟩)
    · exact ⟨cs, .refl, here⟩
    · exact ⟨further, .head piece pieces, tried⟩
    · exact impossible.elim
  · rintro ⟨further, pieces, tried⟩
    rcases Relation.ReflTransGen.cases_head pieces with rfl | ⟨middle, piece, pieces⟩
    · exact .inl tried
    · exact .inr ⟨middle, piece, .inl ⟨further, pieces, tried⟩⟩

section Refusals

theorem foldl_min_spec (tried : List (Nat × τ)) (length : Nat) :
    let left := tried.foldl (fun left attempt => min left attempt.1) length
    (left = length ∨ ∃ t, (left, t) ∈ tried) ∧ left ≤ length ∧
      ∀ attempt ∈ tried, left ≤ attempt.1 := by
  induction tried generalizing length with
  | nil => simp
  | cons first tried ih =>
      obtain ⟨reached, bounded, least⟩ := ih (min length first.1)
      refine ⟨?_, ?_, ?_⟩
      · rcases reached with same | ⟨t, later⟩
        · rcases Nat.le_total length first.1 with less | less
          · left
            simpa [Nat.min_eq_left less] using same
          · right
            refine ⟨first.2, ?_⟩
            rw [List.foldl_cons, same, Nat.min_eq_right less]
            exact List.mem_cons_self
        · exact .inr ⟨t, List.mem_cons_of_mem first later⟩
      · exact bounded.trans (Nat.min_le_left _ _)
      · intro attempt member
        rcases List.mem_cons.mp member with rfl | later
        · exact bounded.trans (Nat.min_le_right _ _)
        · exact least attempt later

theorem mem_names {lexicon : Lexicon τ} {ts : List τ} {name : String} :
    name ∈ names lexicon ts ↔ ∃ t ∈ ts, lexicon.name t = name := by
  simp [names, List.mem_mergeSort, List.mem_eraseDups]

/-- What a refusal tells: the furthest place where something was looked for, and the names of what
was looked for there. -/
theorem derive_eq_error {lexicon : Lexicon τ} {p : Rule τ α} {text : List Char} {m : Mismatch}
    (tries : Tries p N) {first : Nat} {t : τ} (some : N text first t) (inside : first ≤ text.length)
    (refused : derive lexicon p text = .error m) :
    m.text = text ∧ ∃ left, left ≤ text.length ∧ m.position = text.length - left ∧
      (∃ u, N text left u) ∧ (∀ n u, N text n u → left ≤ n) ∧
      ∀ name, name ∈ m.expected ↔ ∃ u, N text left u ∧ lexicon.name u = name := by
  simp only [derive] at refused
  split at refused
  · simp at refused
  · obtain rfl := Except.error.inj refused
    obtain ⟨reached, bounded, least⟩ := foldl_min_spec (p text).tried text.length
    simp only [furthest, mem_names, List.mem_map, List.mem_filter, beq_iff_eq, Prod.exists]
    generalize (p text).tried.foldl (fun left attempt => min left attempt.1) text.length = left at *
    refine ⟨trivial, left, bounded, rfl, ?_, ?_, ?_⟩
    · rcases reached with same | ⟨u, tried⟩
      · have low := least (first, t) ((tries text first t).mpr some)
        obtain rfl : first = left := by simp only at low; omega
        exact ⟨t, some⟩
      · exact ⟨u, (tries text left u).mp tried⟩
    · intro n u tried
      exact least (n, u) ((tries text n u).mpr tried)
    · intro name
      simp [← tries text]

end Refusals

end Rule

end ThrustBench.Grammar
