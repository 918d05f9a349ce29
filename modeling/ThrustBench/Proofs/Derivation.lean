import ThrustBench.Grammar.Rule

/-!
What the derivations that a rule finds have in common, from what those of its parts have.
-/

namespace ThrustBench.Grammar.Rule

variable {τ α β : Type}

def Sound (p : Rule τ α) (R : α → List Char → List Char → Prop) : Prop :=
  ∀ cs a rest, (a, rest) ∈ (p cs).found → R a cs rest

/-- One value after another, each behind the text of the one before. -/
inductive Chain (R : α → List Char → List Char → Prop) : List α → List Char → List Char → Prop
  | nil {cs} : Chain R [] cs cs
  | cons {a as cs middle rest} : R a cs middle → Chain R as middle rest → Chain R (a :: as) cs rest

variable {R : α → List Char → List Char → Prop}

theorem Chain.snoc {as : List α} {a : α} {cs middle rest : List Char}
    (chain : Chain R as cs middle) (last : R a middle rest) : Chain R (as ++ [a]) cs rest := by
  induction chain with
  | nil => exact .cons last .nil
  | cons first _ ih => exact .cons first (ih last)

theorem Sound.mono {p : Rule τ α} {S : α → List Char → List Char → Prop} (sound : Sound p R)
    (weaker : ∀ a cs rest, R a cs rest → S a cs rest) : Sound p S := by
  intro cs a rest found
  exact weaker a cs rest (sound cs a rest found)

theorem Sound.pure (a : α) : Sound (Rule.pure a : Rule τ α) fun b cs rest => b = a ∧ rest = cs := by
  intro cs b rest found
  simp only [Rule.pure, List.mem_singleton, Prod.mk.injEq] at found
  exact found

theorem Sound.bind {p : Rule τ α} {f : α → Rule τ β} {S : α → β → List Char → List Char → Prop}
    (first : Sound p R) (second : ∀ a, Sound (f a) (S a)) :
    Sound (p.bind f) fun b cs rest => ∃ a middle, R a cs middle ∧ S a b middle rest := by
  intro cs b rest found
  simp only [Rule.bind, List.mem_flatMap, List.mem_map] at found
  obtain ⟨scan, ⟨⟨a, middle⟩, foundFirst, rfl⟩, foundSecond⟩ := found
  exact ⟨a, middle, first cs a middle foundFirst, second a middle b rest foundSecond⟩

theorem Sound.terminal (lexicon : Lexicon τ) (t : τ) :
    Sound (Rule.terminal lexicon t) fun text cs rest =>
      lexicon.cut t (lexicon.skip cs) = some (text, rest) := by
  intro cs text rest found
  simp only [Rule.terminal, Option.mem_toList] at found
  exact found

theorem Sound.either {p q : Rule τ α} (first : Sound p R) (second : Sound q R) :
    Sound (Rule.either p q) R := by
  intro cs a rest found
  simp only [Rule.either, List.mem_append, List.mem_filter] at found
  rcases found with inFirst | inSecond
  · exact first cs a rest inFirst
  · exact second cs a rest inSecond.1

theorem Sound.oneOf {ps : List (Rule τ α)} (each : ∀ p ∈ ps, Sound p R) :
    Sound (Rule.oneOf ps) R := by
  induction ps with
  | nil =>
      intro cs a rest found
      simp [Rule.oneOf, Rule.none] at found
  | cons p ps ih =>
      apply Sound.either
      · exact each p (by simp)
      · exact ih fun q member => each q (by simp [member])

theorem mem_enqueue {ways : List (Way α)} {way other : Way α} (found : other ∈ enqueue ways way) :
    other = way ∨ other ∈ ways := by
  induction ways with
  | nil => simpa [enqueue] using found
  | cons first rest ih =>
      simp only [enqueue] at found
      split at found
      · simpa using found
      · split at found
        · exact Or.inr found
        · rcases List.mem_cons.mp found with same | later
          · exact Or.inr (by simp [same])
          · rcases ih later with new | old
            · exact Or.inl new
            · exact Or.inr (by simp [old])

theorem mem_foldl_enqueue {new : List (Way α)} : ∀ {ways : List (Way α)} {way : Way α},
    way ∈ new.foldl enqueue ways → way ∈ new ∨ way ∈ ways := by
  induction new with
  | nil => intro ways way found; exact Or.inr found
  | cons first rest ih =>
      intro ways way found
      rcases ih found with later | here
      · exact Or.inl (by simp [later])
      · rcases mem_enqueue here with same | old
        · exact Or.inl (by simp [same])
        · exact Or.inr old

theorem follow_chain {p : Rule τ α} (sound : Sound p R) (start : List Char) : ∀ bound ways,
    (∀ way ∈ ways, Chain R way.1.reverse start way.2) →
    ∀ as rest, (as, rest) ∈ (follow p bound ways).found → Chain R as start rest := by
  intro bound
  induction bound with
  | zero => intro ways _ as rest found; simp [follow] at found
  | succ bound ih =>
      intro ways chains as rest found
      cases ways with
      | nil => simp [follow] at found
      | cons way ways =>
          simp only [follow, List.mem_append, List.mem_singleton, Prod.mk.injEq] at found
          rcases found with later | here
          · apply ih _ _ as rest later
            intro next member
            rcases mem_foldl_enqueue member with new | old
            · obtain ⟨⟨a, left⟩, derived, rfl⟩ := List.mem_map.mp new
              simp only [List.reverse_cons]
              exact (chains way (by simp)).snoc (sound way.2 a left derived)
            · exact chains next (by simp [old])
          · rw [here.1, here.2]
            exact chains way (by simp)

theorem Sound.star {p : Rule τ α} (sound : Sound p R) : Sound (Rule.star p) (Chain R) := by
  intro cs as rest found
  apply follow_chain sound cs _ _ _ as rest found
  intro way member
  rw [List.mem_singleton.mp member]
  exact .nil

theorem Sound.plus {p : Rule τ α} (sound : Sound p R) :
    Sound (Rule.plus p) fun as cs rest => as ≠ [] ∧ Chain R as cs rest := by
  change Sound (p.bind fun first => p.star.bind fun others => Rule.pure (first :: others)) _
  refine (sound.bind fun first => sound.star.bind fun others =>
    Sound.pure (first :: others)).mono ?_
  rintro as cs rest ⟨first, middle, one, others, left, more, rfl, rfl⟩
  exact ⟨by simp, .cons one more⟩

theorem derive_sound {lexicon : Lexicon τ} {p : Rule τ α} (sound : Sound p R) {text : List Char}
    {a : α} (derived : derive lexicon p text = .ok a) :
    ∃ rest, R a text rest ∧ lexicon.skip rest = [] := by
  simp only [derive] at derived
  split at derived
  · rename_i r found
    simp only [Except.ok.injEq] at derived
    subst derived
    refine ⟨r.2, sound text r.1 r.2 (List.mem_of_find?_eq_some found), ?_⟩
    simpa using List.find?_some found
  · simp at derived

end ThrustBench.Grammar.Rule
