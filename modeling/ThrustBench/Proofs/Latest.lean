import Mathlib.Data.List.Basic
import Mathlib.Data.List.Induction

/-!
The latest place of a history at which something happens.
-/

namespace ThrustBench

variable {α β : Type}

def latestBack? (rule : List α → α → Option β) : List α → Option β
  | [] => none
  | a :: earlier => (rule earlier.reverse a).or (latestBack? rule earlier)

/-- What a rule makes of the latest place of a history at which it makes anything.  It sees what
happened before that place, too. -/
def latest? (rule : List α → α → Option β) (history : List α) : Option β :=
  latestBack? rule history.reverse

theorem snoc_split_iff {history before after : List α} {last a : α} :
    history ++ [last] = before ++ a :: after ↔
      (history = before ∧ last = a ∧ after = []) ∨
        ∃ rest, history = before ++ a :: rest ∧ after = rest ++ [last] := by
  constructor
  · intro split
    rcases List.eq_nil_or_concat' after with rfl | ⟨rest, other, rfl⟩
    · obtain ⟨same, here⟩ := List.append_singleton_inj.mp split
      exact .inl ⟨same, here, rfl⟩
    · rw [← List.cons_append, ← List.append_assoc] at split
      obtain ⟨same, rfl⟩ := List.append_singleton_inj.mp split
      exact .inr ⟨rest, same, rfl⟩
  · rintro (⟨rfl, rfl, rfl⟩ | ⟨rest, rfl, rfl⟩)
    · rfl
    · simp

section

variable (rule : List α → α → Option β)

@[simp] theorem latest?_nil : latest? rule [] = none := rfl

theorem latest?_snoc (history : List α) (a : α) :
    latest? rule (history ++ [a]) = (rule history a).or (latest? rule history) := by
  simp [latest?, latestBack?]

end

theorem latest?_eq_some_iff {rule : List α → α → Option β} {history : List α} {b : β} :
    latest? rule history = some b ↔
      ∃ before a after, history = before ++ a :: after ∧ rule before a = some b ∧
        ∀ between c later, after = between ++ c :: later →
          rule (before ++ a :: between) c = none := by
  induction history using List.reverseRecOn with
  | nil => simp
  | append_singleton history last ih =>
      rw [latest?_snoc, Option.or_eq_some_iff, ih]
      constructor
      · rintro (here | ⟨nothing, before, a, after, rfl, made, silent⟩)
        · exact ⟨history, last, [], rfl, here, by simp⟩
        · refine ⟨before, a, after ++ [last], by simp, made, ?_⟩
          intro between c later split
          rcases snoc_split_iff.mp split with ⟨rfl, rfl, rfl⟩ | ⟨rest, rfl, rfl⟩
          · exact nothing
          · exact silent between c rest rfl
      · rintro ⟨before, a, after, split, made, silent⟩
        rcases snoc_split_iff.mp split with ⟨rfl, rfl, rfl⟩ | ⟨rest, rfl, rfl⟩
        · exact .inl made
        · refine .inr ⟨silent rest last [] rfl, before, a, rest, rfl, made, ?_⟩
          rintro between c later rfl
          exact silent between c (later ++ [last]) (by simp)

theorem forall_split_iff {p : α → Prop} {history : List α} :
    (∀ before a after, history = before ++ a :: after → p a) ↔ ∀ a ∈ history, p a := by
  constructor
  · intro everywhere a member
    obtain ⟨before, after, split⟩ := List.append_of_mem member
    exact everywhere before a after split
  · rintro all before a after rfl
    exact all a (by simp)

theorem forall_split_cons {p : List α → α → Prop} {first : α} {history : List α} :
    (∀ before a after, first :: history = before ++ a :: after → p before a) ↔
      p [] first ∧ ∀ before a after, history = before ++ a :: after → p (first :: before) a := by
  constructor
  · intro everywhere
    refine ⟨everywhere [] first history rfl, ?_⟩
    rintro before a after rfl
    exact everywhere (first :: before) a after rfl
  · rintro ⟨here, later⟩ before a after split
    cases before with
    | nil =>
        obtain ⟨rfl, rfl⟩ := List.cons.inj split
        exact here
    | cons b before =>
        obtain ⟨rfl, rest⟩ := List.cons.inj split
        exact later before a after rest

end ThrustBench
