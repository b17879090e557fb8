import Sidewalk.Foundation.Pattern

/-!
Owns shell patterns for file names: `*`, `?` and quoting by a backslash, compiled
to patterns that match a whole name. The main law describes the names that match
a plain text, a star and a plain text.

Does not own bracket expressions: a pattern with one is not compiled. Does not
own directories: a pattern is for the names of one directory.
-/

set_option autoImplicit false

namespace Sidewalk.Foundation.Glob

/-- A shell pattern as a pattern, after a backslash that quotes the next character
or without one. -/
def compileFrom : Bool → List Char → Option (Pattern Char)
  | false, [] => some .empty
  | true, [] => some (.literal ['\\'])
  | true, c :: rest => (compileFrom false rest).map (.seq (.one fun d => d = c))
  | false, c :: rest =>
      if c = '*' then (compileFrom false rest).map (.seq (.lazyMany fun d => d ≠ '/'))
      else if c = '?' then (compileFrom false rest).map (.seq (.one fun d => d ≠ '/'))
      else if c = '[' then none
      else if c = '\\' then compileFrom true rest
      else (compileFrom false rest).map (.seq (.one fun d => d = c))

/-- A shell pattern as a pattern. -/
def compile (pattern : List Char) : Option (Pattern Char) := compileFrom false pattern

/-- Whether a shell pattern matches a file name. A leading period is only matched
by a period. -/
def matchesName (pattern name : List Char) : Bool :=
  match compile pattern with
  | none => false
  | some compiled =>
      compiled.fullmatch name && (name.head? ≠ some '.' || pattern.head? = some '.')

/-- A character without a meaning of its own in a shell pattern. -/
def Plain (c : Char) : Prop := c ∉ ['*', '?', '[', '\\']

instance (c : Char) : Decidable (Plain c) := inferInstanceAs (Decidable (c ∉ _))

/-! ## A star between plain texts -/

theorem compile_cons {c : Char} (plain : Plain c) (rest : List Char) :
    compile (c :: rest) = (compile rest).map (.seq (.one fun d => d = c)) := by
  unfold Plain at plain
  simp only [List.mem_cons, List.not_mem_nil, or_false, not_or] at plain
  obtain ⟨notStar, notMark, notBracket, notQuote⟩ := plain
  rw [compile, compileFrom, if_neg notStar, if_neg notMark, if_neg notBracket, if_neg notQuote]
  rfl

/-- A plain text in front of a shell pattern matches itself. -/
theorem compile_append {front : List Char} (plain : ∀ c ∈ front, Plain c) {rest : List Char}
    {compiled : Pattern Char} (restCompiles : compile rest = some compiled) :
    ∃ whole, compile (front ++ rest) = some whole ∧
      ∀ name, whole.Matches name ↔ ∃ left, name = front ++ left ∧ compiled.Matches left := by
  induction front with
  | nil => exact ⟨compiled, restCompiles, fun name => by simp⟩
  | cons c front inductionHypothesis =>
      obtain ⟨plainHead, plainTail⟩ := List.forall_mem_cons.mp plain
      obtain ⟨whole, compiles, matchesIff⟩ := inductionHypothesis plainTail
      refine ⟨.seq (.one fun d => d = c) whole, ?_, ?_⟩
      · rw [List.cons_append, compile_cons plainHead, compiles]
        rfl
      · intro name
        show (∃ head back, name = head ++ back ∧ (∃ d, head = [d] ∧ decide (d = c) = true) ∧
          whole.Matches back) ↔ _
        constructor
        · intro matched
          obtain ⟨head, back, rfl, ⟨d, rfl, same⟩, backMatches⟩ := matched
          obtain ⟨left, rfl, leftMatches⟩ := (matchesIff back).mp backMatches
          rw [of_decide_eq_true same]
          exact ⟨left, rfl, leftMatches⟩
        · intro split
          obtain ⟨left, rfl, leftMatches⟩ := split
          exact ⟨[c], front ++ left, rfl, ⟨c, rfl, decide_eq_true rfl⟩,
            (matchesIff _).mpr ⟨left, rfl, leftMatches⟩⟩

/-- The texts that match a plain text, a star and a plain text: those that start
and end with the two texts and have no slash between them. -/
theorem compile_star {front back : List Char} (plainFront : ∀ c ∈ front, Plain c)
    (plainBack : ∀ c ∈ back, Plain c) :
    ∃ whole, compile (front ++ '*' :: back) = some whole ∧
      ∀ name, whole.Matches name ↔ ∃ middle, '/' ∉ middle ∧ name = front ++ (middle ++ back) := by
  obtain ⟨ending, endingCompiles, endingIff⟩ := compile_append plainBack
    (show compile [] = some .empty from rfl)
  rw [List.append_nil] at endingCompiles
  have starCompiles : compile ('*' :: back) = some (.seq (.lazyMany fun d => d ≠ '/') ending) := by
    rw [compile, compileFrom, if_pos rfl, ← compile, endingCompiles]
    rfl
  obtain ⟨whole, compiles, wholeIff⟩ := compile_append plainFront starCompiles
  refine ⟨whole, compiles, ?_⟩
  intro name
  rw [wholeIff]
  constructor
  · intro matched
    obtain ⟨left, rfl, middle, tail, rfl, noSlash, tailMatches⟩ := matched
    obtain ⟨none, rfl, rfl⟩ := (endingIff tail).mp tailMatches
    refine ⟨middle, ?_, by rw [List.append_nil]⟩
    intro slash
    exact absurd rfl (of_decide_eq_true (noSlash '/' slash))
  · intro split
    obtain ⟨middle, noSlash, rfl⟩ := split
    refine ⟨_, rfl, middle, back, rfl, ?_, (endingIff back).mpr ⟨[], by simp, rfl⟩⟩
    intro c member
    rw [decide_eq_true_eq]
    exact ne_of_mem_of_not_mem member noSlash

theorem matchesName_between {front back name : List Char} (some : front ≠ [])
    (plainFront : ∀ c ∈ front, Plain c) (plainBack : ∀ c ∈ back, Plain c) :
    matchesName (front ++ '*' :: back) name = true ↔
      ∃ middle, '/' ∉ middle ∧ name = front ++ (middle ++ back) := by
  obtain ⟨whole, compiles, described⟩ := compile_star plainFront plainBack
  unfold matchesName
  rw [compiles, Bool.and_eq_true, Pattern.fullmatch_iff, described name]
  constructor
  · intro both
    exact both.1
  · intro split
    obtain ⟨middle, noSlash, nameEq⟩ := split
    refine ⟨⟨middle, noSlash, nameEq⟩, ?_⟩
    -- the name starts like the pattern, so a leading period is matched by a period
    rw [nameEq, List.head?_append_of_ne_nil _ some, List.head?_append_of_ne_nil _ some]
    by_cases period : front.head? = Option.some '.'
    · simp [period]
    · simp [period]

theorem matchesName_ending {back name : List Char} (plainBack : ∀ c ∈ back, Plain c) :
    matchesName ('*' :: back) name = true ↔
      (∃ middle, '/' ∉ middle ∧ name = middle ++ back) ∧ name.head? ≠ some '.' := by
  obtain ⟨whole, compiles, described⟩ := compile_star
    (show ∀ c ∈ ([] : List Char), Plain c by simp) plainBack
  rw [List.nil_append] at compiles
  unfold matchesName
  rw [compiles, Bool.and_eq_true, Pattern.fullmatch_iff, described name]
  simp

end Sidewalk.Foundation.Glob
