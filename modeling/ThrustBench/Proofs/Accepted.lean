import Mathlib.Data.List.Forall2
import Mathlib.Data.List.Induction
import Mathlib.Data.List.TakeWhile
import Mathlib.Data.Nat.Digits.Defs
import ThrustBench.Proofs.Derivation
import ThrustBench.Script.Runner

/-!
The commands of a script that was read, and the whole numbers that stand in it.
-/

namespace ThrustBench

def decimal (digits : List Char) : Nat :=
  Nat.ofDigits 10 (digits.reverse.map fun c => c.toNat - '0'.toNat)

theorem Text.toNat_toLower (c : Char) :
    c.toLower.toNat = if 65 ≤ c.toNat ∧ c.toNat ≤ 90 then c.toNat + 32 else c.toNat := by
  have shift : ('a'.val - 'A'.val).toNat = 32 := rfl
  by_cases capital : 65 ≤ c.toNat ∧ c.toNat ≤ 90
  · have inside : c.val ≥ 'A'.val ∧ c.val ≤ 'Z'.val := capital
    have lowered : c.toLower.val = c.val + ('a'.val - 'A'.val) := by
      unfold Char.toLower
      rw [dif_pos inside]
    rw [Char.toNat, lowered, UInt32.toNat_add, shift, if_pos capital]
    have same : c.val.toNat = c.toNat := rfl
    omega
  · have outside : ¬(c.val ≥ 'A'.val ∧ c.val ≤ 'Z'.val) := capital
    have kept : c.toLower = c := dif_neg outside
    rw [kept, if_neg capital]

theorem Text.toNat_toUpper (c : Char) :
    c.toUpper.toNat = if 97 ≤ c.toNat ∧ c.toNat ≤ 122 then c.toNat - 32 else c.toNat := by
  have shift : ('A'.val - 'a'.val).toNat = 2 ^ 32 - 32 := rfl
  by_cases small : 97 ≤ c.toNat ∧ c.toNat ≤ 122
  · have inside : 'a'.val ≤ c.val ∧ c.val ≤ 'z'.val := small
    have raised : c.toUpper.val = c.val + ('A'.val - 'a'.val) := by
      unfold Char.toUpper
      rw [dif_pos inside]
    rw [Char.toNat, raised, UInt32.toNat_add, shift, if_pos small]
    have same : c.val.toNat = c.toNat := rfl
    omega
  · have outside : ¬('a'.val ≤ c.val ∧ c.val ≤ 'z'.val) := small
    have kept : c.toUpper = c := dif_neg outside
    rw [kept, if_neg small]

theorem Text.toLower_eq_iff (c lower upper : Char) (capital : 65 ≤ upper.toNat ∧ upper.toNat ≤ 90)
    (pair : lower.toNat = upper.toNat + 32) : c.toLower = lower ↔ c.toUpper = upper := by
  rw [← Char.toNat_inj, ← Char.toNat_inj, Text.toNat_toLower, Text.toNat_toUpper, pair]
  split <;> split <;> omega

theorem Text.toNat_of_plain {c : Char} (plain : c.isDigit = true) :
    48 ≤ c.toNat ∧ c.toNat ≤ 57 := by
  simp only [Char.isDigit, Bool.and_eq_true, decide_eq_true_eq] at plain
  exact ⟨plain.1, plain.2⟩

theorem Text.digit?_of_plain {c : Char} (plain : c.isDigit = true) :
    Text.digit? c = some (c.toNat - '0'.toNat) := by
  have bounds := Text.toNat_of_plain plain
  have first : (48 ≤ c.toNat ∧ c.toNat < 48 + 10) = True := eq_true ⟨bounds.1, by omega⟩
  simp only [digit?, zeroDigits, List.find?_cons, first, decide_true, Option.map_some]
  rfl

theorem Text.isDigit_of_plain {c : Char} (plain : c.isDigit = true) : Text.isDigit c = true := by
  rw [Text.isDigit, Text.digit?_of_plain plain]
  rfl

theorem Text.trimBy_of_none {drop : Char → Bool} {cs : List Char}
    (none : ∀ c ∈ cs, drop c = false) : Text.trimBy drop cs = cs := by
  have keeps (ds : List Char) (same : ∀ d ∈ ds, drop d = false) : ds.dropWhile drop = ds := by
    rw [List.dropWhile_eq_self_iff]
    intro bound
    simp [same (ds[0]) (by simp)]
  rw [Text.trimBy, keeps cs none, keeps cs.reverse (by simpa using none), List.reverse_reverse]

theorem Text.digitsValue_eq_decimal (digits : List Char) (plain : ∀ c ∈ digits, c.isDigit = true) :
    Text.digitsValue digits = decimal digits := by
  induction digits using List.reverseRecOn with
  | nil => rfl
  | append_singleton digits last ih =>
      have before := ih fun c member => plain c (by simp [member])
      have value := Text.digit?_of_plain (plain last (by simp))
      have longer : decimal (digits ++ [last]) =
          (last.toNat - '0'.toNat) + 10 * decimal digits := by
        simp only [decimal, List.reverse_append, List.reverse_singleton, List.singleton_append,
          List.map_cons, Nat.ofDigits_cons]
      rw [longer, ← before]
      simp only [Text.digitsValue, List.foldl_append, List.foldl_cons, List.foldl_nil, value,
        Option.getD_some]
      omega

namespace Numeral

theorem isBlank_of_digit {c : Char} (digit : Text.isDigit c = true) : isBlank c = false := by
  obtain ⟨first, member, inside⟩ := Text.exists_zeroDigit digit
  have runs : ∀ first ∈ Text.zeroDigits, first = 48 ∨ 0x660 ≤ first ∧ first + 10 ≤ 0x1680 ∨
      0x1681 ≤ first ∧ first + 10 ≤ 0x2000 ∨ 0x3001 ≤ first := by decide
  have apart := runs first member
  simp only [isBlank, Text.isPlainBlank, Text.isBlank, Text.loneBlanks, List.contains_cons,
    List.contains_nil]
  split <;> simp only [Bool.or_eq_false_iff, beq_eq_false_iff_ne, Bool.and_eq_false_iff,
    decide_eq_false_iff_not, Bool.or_false] <;> omega

theorem splitSign_of_plain {digits : List Char} (plain : ∀ c ∈ digits, c.isDigit = true) :
    splitSign digits = (false, digits) := by
  unfold splitSign
  split
  · have impossible := plain '-' (by simp)
    simp [Char.isDigit] at impossible
  · have impossible := plain '+' (by simp)
    simp [Char.isDigit] at impossible
  · rfl

theorem underscoresFit_of_none (cs : List Char) (none : ∀ c ∈ cs, c ≠ '_') :
    ∀ afterDigit, underscoresFit afterDigit cs = true := by
  induction cs with
  | nil => intro afterDigit; simp [underscoresFit]
  | cons c cs ih =>
      intro afterDigit
      have other := none c (by simp)
      have later := ih (fun d member => none d (by simp [member])) (Text.isDigit c)
      unfold underscoresFit
      split
      · rfl
      · simp_all
      · simp_all
      · simp_all

theorem whole?_of_plain {digits : List Char} (given : digits ≠ [])
    (plain : ∀ c ∈ digits, c.isDigit = true) :
    whole? (String.ofList digits) =
      if Fault.digitLimit < digits.length then .error (.tooManyDigits digits.length)
      else .ok (decimal digits) := by
  have run : digits.takeWhile (fun c => Text.isDigit c || c == '_') = digits := by
    rw [List.takeWhile_eq_self_iff]
    intro c member
    simp [Text.isDigit_of_plain (plain c member)]
  have rest : digits.dropWhile (fun c => Text.isDigit c || c == '_') = [] := by
    rw [List.dropWhile_eq_nil_iff]
    intro c member
    simp [Text.isDigit_of_plain (plain c member)]
  have all : digits.filter Text.isDigit = digits := by
    rw [List.filter_eq_self]
    intro c member
    exact Text.isDigit_of_plain (plain c member)
  have trimmed : Text.trimBy isBlank digits = digits :=
    Text.trimBy_of_none fun c member => isBlank_of_digit (Text.isDigit_of_plain (plain c member))
  have notEmpty : digits.isEmpty = false := by simpa using given
  have noUnderscore : ∀ c ∈ digits, c ≠ '_' := by
    rintro c member rfl
    exact absurd (plain '_' member) (by decide)
  simp only [whole?, String.toList_ofList, trimmed, splitSign_of_plain plain, run, rest, all,
    notEmpty, underscoresFit_of_none digits noUnderscore, Text.digitsValue_eq_decimal digits plain]
  simp

end Numeral

end ThrustBench

namespace ThrustBench.Script

open Grammar (Rule)

def Argument.Fits : Argument → List Char → Prop
  | .whole, text => text ≠ [] ∧ ∀ c ∈ text, c.isDigit = true
  | .switch, text =>
    List.Forall₂ (fun w c => sameLetter w c = true) ['T', 'R', 'U', 'E'] text ∨
      List.Forall₂ (fun w c => sameLetter w c = true) ['F', 'A', 'L', 'S', 'E'] text

def Command.WellFormed (c : Command) : Prop :=
  List.Forall₂ Argument.Fits c.verb.signature c.arguments

theorem cutWord_spells {same : Char → Char → Bool} {word : List Char} :
    ∀ {cs text rest : List Char}, cutWord same word cs = some (text, rest) →
      List.Forall₂ (fun w c => same w c = true) word text := by
  induction word with
  | nil =>
      intro cs text rest found
      simp only [cutWord, Option.some.injEq, Prod.mk.injEq] at found
      rw [← found.1]
      exact .nil
  | cons w ws ih =>
      intro cs text rest found
      cases cs with
      | nil => simp [cutWord] at found
      | cons c cs =>
          simp only [cutWord] at found
          split at found
          · rename_i first
            obtain ⟨⟨taken, left⟩, later, whole⟩ := Option.map_eq_some_iff.mp found
            simp only [Prod.mk.injEq] at whole
            rw [← whole.1]
            exact .cons first (ih later)
          · simp at found

theorem cut_fits {sort : Argument} {cs text rest : List Char}
    (found : cut (.argument sort) cs = some (text, rest)) : sort.Fits text := by
  cases sort with
  | whole =>
      simp only [cut, cutDigits] at found
      split at found
      · simp at found
      · rename_i given
        simp only [Option.some.injEq, Prod.mk.injEq] at found
        rw [← found.1]
        refine ⟨by simpa using given, ?_⟩
        intro c member
        exact List.mem_takeWhile_imp member
  | switch =>
      simp only [cut] at found
      rcases Option.or_eq_some_iff.mp found with yes | no
      · exact Or.inl (cutWord_spells yes)
      · exact Or.inr (cutWord_spells no.2)

theorem arguments_fit (sorts : List Argument) :
    Rule.Sound (arguments sorts) fun texts _ _ => List.Forall₂ Argument.Fits sorts texts := by
  induction sorts with
  | nil =>
      change Rule.Sound (Rule.pure []) _
      refine (Rule.Sound.pure []).mono ?_
      rintro texts cs rest ⟨rfl, _⟩
      exact .nil
  | cons sort sorts ih =>
      change Rule.Sound (Rule.bind (Rule.terminal lexicon (.argument sort)) fun text =>
        (arguments sorts).bind fun texts => Rule.pure (text :: texts)) _
      refine ((Rule.Sound.terminal lexicon (.argument sort)).bind fun text =>
        ih.bind fun texts => Rule.Sound.pure (text :: texts)).mono ?_
      rintro all cs rest ⟨text, middle, found, texts, left, others, rfl, _⟩
      exact .cons (cut_fits found) others

theorem command_wellFormed (v : Verb) :
    Rule.Sound (command v) fun c _ _ => c.verb = v ∧ c.WellFormed := by
  change Rule.Sound (Rule.bind (Rule.terminal lexicon (.keyword v)) fun _ =>
    (arguments v.signature).bind fun texts => Rule.pure (⟨v, texts⟩ : Command)) _
  refine ((Rule.Sound.terminal lexicon (.keyword v)).bind fun _ =>
    (arguments_fit v.signature).bind fun texts =>
      Rule.Sound.pure (⟨v, texts⟩ : Command)).mono ?_
  rintro c cs rest ⟨_, _, _, texts, _, fits, rfl, _⟩
  exact ⟨rfl, fits⟩

theorem chain_forall {P : Command → Prop} {script : List Command} {cs rest : List Char}
    (chain : Rule.Chain (fun c _ _ => P c) script cs rest) : ∀ c ∈ script, P c := by
  induction chain with
  | nil => simp
  | cons first _ ih =>
      intro c member
      rcases List.mem_cons.mp member with rfl | later
      · exact first
      · exact ih c later

theorem parse_wellFormed {text : String} {script : List Command}
    (accepted : parse text = .ok script) : script ≠ [] ∧ ∀ c ∈ script, c.WellFormed := by
  have sound : Rule.Sound (Rule.oneOf (Verb.all.map command)) fun c _ _ => c.WellFormed := by
    apply Rule.Sound.oneOf
    intro p member
    obtain ⟨v, _, rfl⟩ := List.mem_map.mp member
    exact (command_wellFormed v).mono fun _ _ _ both => both.2
  simp only [parse] at accepted
  split at accepted
  · rename_i commands derived
    simp only [Except.ok.injEq] at accepted
    subst accepted
    obtain ⟨rest, ⟨given, chain⟩, _⟩ := Rule.derive_sound sound.plus derived
    exact ⟨given, chain_forall chain⟩
  · simp at accepted

/-- A script that was read has commands, each with the arguments that its verb takes. -/
theorem parseFile_wellFormed {bytes : List UInt8} {script : List Command}
    (accepted : parseFile bytes = .ok script) : script ≠ [] ∧ ∀ c ∈ script, c.WellFormed := by
  simp only [parseFile] at accepted
  split at accepted
  · exact parse_wellFormed accepted
  · simp at accepted

theorem Command.one_whole (verb : Verb) {digits : List Char} (given : digits ≠ [])
    (plain : ∀ c ∈ digits, c.isDigit = true) :
    unpackOne (Command.data ⟨verb, [digits]⟩) >>= Datum.toWhole =
      if Fault.digitLimit < digits.length then .error (.tooManyDigits digits.length)
      else .ok (decimal digits) := by
  have read : unpackOne (Command.data ⟨verb, [digits]⟩) >>= Datum.toWhole =
      Numeral.whole? (String.ofList digits) := by
    simp only [Command.data, List.map_cons, List.map_nil, unpackOne, bind, Except.bind,
      Datum.toWhole]
  rw [read, Numeral.whole?_of_plain given plain]

end ThrustBench.Script
