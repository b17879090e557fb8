import Mathlib.Data.List.Basic

/-!
Owns backtracking patterns over an arbitrary alphabet, in the manner of Python's
`re`: the ways a pattern matches at the start of a text in the order in which
they are tried, the texts it describes, a match with a group, and a match of a
whole text. The main law says that the ways tried are exactly the prefixes that
the pattern describes, so a match that is the only one is found whatever the
order.

Does not own the syntax of patterns, nor captures other than a leading group.
-/

set_option autoImplicit false

namespace Sidewalk.Foundation

/-- The constructs of `re` that are covered. -/
inductive Pattern (α : Type) where
  /-- the empty text -/
  | empty
  /-- one character of a class -/
  | one (inClass : α → Bool)
  | seq (first second : Pattern α)
  /-- `p?`, greedy -/
  | opt (inner : Pattern α)
  /-- `c*?`, lazy -/
  | lazyMany (inClass : α → Bool)
  /-- `c+`, greedy -/
  | oneOrMore (inClass : α → Bool)

namespace Pattern

variable {α : Type}

/-! ## Matching -/

/-- The prefixes of characters of a class with what follows, the shortest first. -/
def runs (inClass : α → Bool) : List α → List (List α × List α)
  | [] => [([], [])]
  | c :: rest =>
      ([], c :: rest) ::
        if inClass c then (runs inClass rest).map fun (taken, left) => (c :: taken, left) else []

/-- The ways a pattern matches at the start of a text, in the order they are
tried: what is matched and what is left. -/
def results : Pattern α → List α → List (List α × List α)
  | empty, text => [([], text)]
  | one _, [] => []
  | one inClass, c :: rest => if inClass c then [([c], rest)] else []
  | seq first second, text =>
      (first.results text).flatMap fun (front, rest) =>
        (second.results rest).map fun (back, left) => (front ++ back, left)
  | opt inner, text => inner.results text ++ [([], text)]
  | lazyMany inClass, text => runs inClass text
  | oneOrMore inClass, text => ((runs inClass text).filter fun result => result.1 ≠ []).reverse

/-- `re.match("(group)tail", text).group(1)`; `none` when there is no match. -/
def firstGroup (group tail : Pattern α) (text : List α) : Option (List α) :=
  ((group.results text).find? fun result => !(tail.results result.2).isEmpty).map Prod.fst

/-- Whether `re.fullmatch(pattern, text)` finds a match. -/
def fullmatch (pattern : Pattern α) (text : List α) : Bool :=
  (pattern.results text).any fun result => result.2.isEmpty

/-! ## The described texts -/

/-- The text is one the pattern describes. -/
def Matches : Pattern α → List α → Prop
  | empty, text => text = []
  | one inClass, text => ∃ c, text = [c] ∧ inClass c = true
  | seq first second, text =>
      ∃ front back, text = front ++ back ∧ first.Matches front ∧ second.Matches back
  | opt inner, text => inner.Matches text ∨ text = []
  | lazyMany inClass, text => ∀ c ∈ text, inClass c = true
  | oneOrMore inClass, text => text ≠ [] ∧ ∀ c ∈ text, inClass c = true

theorem mem_runs_cons (inClass : α → Bool) {c : α} {rest taken left : List α} :
    (taken, left) ∈ runs inClass (c :: rest) ↔
      (taken = [] ∧ left = c :: rest) ∨
        ∃ more, taken = c :: more ∧ inClass c = true ∧ (more, left) ∈ runs inClass rest := by
  rw [runs, List.mem_cons, Prod.mk.injEq]
  apply or_congr Iff.rfl
  split
  next inside =>
    simp only [List.mem_map, Prod.exists, Prod.mk.injEq, inside, true_and]
    constructor
    · intro found
      obtain ⟨more, left, member, rfl, rfl⟩ := found
      exact ⟨more, rfl, member⟩
    · intro found
      obtain ⟨more, rfl, member⟩ := found
      exact ⟨more, left, member, rfl, rfl⟩
  next outside => simp [outside]

theorem mem_runs_iff (inClass : α → Bool) {text taken left : List α} :
    (taken, left) ∈ runs inClass text ↔ text = taken ++ left ∧ ∀ c ∈ taken, inClass c = true := by
  induction text generalizing taken with
  | nil =>
      rw [runs, List.mem_singleton, Prod.mk.injEq]
      constructor
      · intro both
        obtain ⟨rfl, rfl⟩ := both
        simp
      · intro split
        exact List.append_eq_nil_iff.mp split.1.symm
  | cons c rest inductionHypothesis =>
      rw [mem_runs_cons]
      constructor
      · intro found
        rcases found with ⟨rfl, rfl⟩ | ⟨more, rfl, inside, member⟩
        · simp
        · obtain ⟨split, all⟩ := inductionHypothesis.mp member
          exact ⟨congrArg (c :: ·) split, List.forall_mem_cons.mpr ⟨inside, all⟩⟩
      · intro found
        obtain ⟨split, all⟩ := found
        cases taken with
        | nil => exact Or.inl ⟨rfl, split.symm⟩
        | cons first more =>
            obtain ⟨rfl, restSplit⟩ := List.cons_eq_cons.mp split
            obtain ⟨inside, all⟩ := List.forall_mem_cons.mp all
            exact Or.inr ⟨more, rfl, inside, inductionHypothesis.mpr ⟨restSplit, all⟩⟩

theorem mem_one_iff (inClass : α → Bool) {text taken left : List α} :
    (taken, left) ∈ (one inClass).results text ↔
      text = taken ++ left ∧ (one inClass).Matches taken := by
  constructor
  · intro tried
    cases text with
    | nil => exact absurd tried List.not_mem_nil
    | cons c rest =>
        rw [results] at tried
        split at tried
        next inside =>
          obtain ⟨rfl, rfl⟩ := Prod.mk.inj (List.mem_singleton.mp tried)
          exact ⟨rfl, c, rfl, inside⟩
        next => exact absurd tried List.not_mem_nil
  · intro described
    obtain ⟨rfl, c, rfl, inside⟩ := described
    rw [List.singleton_append, results, if_pos inside]
    exact List.mem_singleton_self _

/-- The ways tried are exactly the prefixes the pattern describes. -/
theorem mem_results_iff (pattern : Pattern α) {text taken left : List α} :
    (taken, left) ∈ pattern.results text ↔ text = taken ++ left ∧ pattern.Matches taken := by
  induction pattern generalizing text taken left with
  | empty =>
      rw [results, List.mem_singleton, Prod.mk.injEq, Matches]
      constructor
      · intro both
        obtain ⟨rfl, rfl⟩ := both
        exact ⟨rfl, rfl⟩
      · intro both
        obtain ⟨rfl, rfl⟩ := both
        exact ⟨rfl, rfl⟩
  | one inClass => exact mem_one_iff inClass
  | seq first second firstHypothesis secondHypothesis =>
      simp only [results, List.mem_flatMap, List.mem_map, Prod.exists, Prod.mk.injEq, Matches,
        firstHypothesis, secondHypothesis]
      constructor
      · intro tried
        obtain ⟨front, rest, ⟨rfl, frontMatches⟩, back, left, ⟨rfl, backMatches⟩, rfl, rfl⟩ := tried
        exact ⟨(List.append_assoc _ _ _).symm, front, back, rfl, frontMatches, backMatches⟩
      · intro described
        obtain ⟨rfl, front, back, rfl, frontMatches, backMatches⟩ := described
        exact ⟨front, back ++ left, ⟨List.append_assoc _ _ _, frontMatches⟩, back, left,
          ⟨rfl, backMatches⟩, rfl, rfl⟩
  | opt inner inductionHypothesis =>
      rw [results, List.mem_append, inductionHypothesis, List.mem_singleton, Prod.mk.injEq, Matches]
      constructor
      · intro tried
        rcases tried with ⟨split, matched⟩ | ⟨rfl, rfl⟩
        · exact ⟨split, Or.inl matched⟩
        · exact ⟨rfl, Or.inr rfl⟩
      · intro described
        obtain ⟨rfl, matched | rfl⟩ := described
        · exact Or.inl ⟨rfl, matched⟩
        · exact Or.inr ⟨rfl, rfl⟩
  | lazyMany inClass => exact mem_runs_iff inClass
  | oneOrMore inClass =>
      rw [results, List.mem_reverse, List.mem_filter, mem_runs_iff, decide_eq_true_eq, Matches,
        and_assoc]
      exact and_congr_right fun _ => and_comm

/-! ## Literals -/

/-- The pattern that describes one text. -/
def literal [DecidableEq α] (text : List α) : Pattern α :=
  text.foldr (fun c rest => seq (one fun other => other = c) rest) empty

theorem matches_literal [DecidableEq α] {text other : List α} :
    (literal text).Matches other ↔ other = text := by
  induction text generalizing other with
  | nil => exact Iff.rfl
  | cons c rest inductionHypothesis =>
      show (∃ front back, other = front ++ back ∧
        (∃ d, front = [d] ∧ decide (d = c) = true) ∧ (literal rest).Matches back) ↔ _
      constructor
      · intro described
        obtain ⟨front, back, rfl, ⟨d, rfl, same⟩, backMatches⟩ := described
        rw [inductionHypothesis.mp backMatches, of_decide_eq_true same]
        rfl
      · intro same
        subst same
        exact ⟨[c], rest, rfl, ⟨c, rfl, decide_eq_true rfl⟩, inductionHypothesis.mpr rfl⟩

/-! ## Whole texts and leading groups -/

theorem fullmatch_iff (pattern : Pattern α) (text : List α) :
    pattern.fullmatch text = true ↔ pattern.Matches text := by
  unfold fullmatch
  rw [List.any_eq_true]
  constructor
  · intro found
    obtain ⟨⟨taken, left⟩, tried, ended⟩ := found
    obtain rfl := List.isEmpty_iff.mp ended
    obtain ⟨rfl, matched⟩ := (mem_results_iff pattern).mp tried
    rwa [List.append_nil]
  · intro matched
    exact ⟨(text, []), (mem_results_iff pattern).mpr ⟨(List.append_nil text).symm, matched⟩, rfl⟩

theorem results_ne_nil_iff (pattern : Pattern α) (text : List α) :
    pattern.results text ≠ [] ↔ ∃ taken left, text = taken ++ left ∧ pattern.Matches taken := by
  constructor
  · intro some
    obtain ⟨⟨taken, left⟩, tried⟩ := List.exists_mem_of_ne_nil _ some
    exact ⟨taken, left, (mem_results_iff pattern).mp tried⟩
  · intro described
    obtain ⟨taken, left, split⟩ := described
    exact List.ne_nil_of_mem ((mem_results_iff pattern).mpr split)

/-- A group that is the only one that can be followed by the tail is found. -/
theorem firstGroup_eq {group tail : Pattern α} {text found : List α}
    (there : ∃ follow left, text = found ++ (follow ++ left) ∧ group.Matches found ∧
      tail.Matches follow)
    (only : ∀ taken follow left, text = taken ++ (follow ++ left) → group.Matches taken →
      tail.Matches follow → taken = found) :
    firstGroup group tail text = some found := by
  have followed : ∀ left : List α, (!(tail.results left).isEmpty) = true ↔
      ∃ follow rest, left = follow ++ rest ∧ tail.Matches follow := by
    intro left
    rw [← results_ne_nil_iff tail left]
    simp
  unfold firstGroup
  cases search : (group.results text).find? fun result => !(tail.results result.2).isEmpty with
  | none =>
      obtain ⟨follow, left, split, groupMatches, tailMatches⟩ := there
      have tried := (mem_results_iff group).mpr ⟨split, groupMatches⟩
      have missed := List.find?_eq_none.mp search _ tried
      exact absurd ((followed _).mpr ⟨follow, left, rfl, tailMatches⟩) missed
  | some result =>
      obtain ⟨taken, rest⟩ := result
      obtain ⟨split, groupMatches⟩ := (mem_results_iff group).mp (List.mem_of_find?_eq_some search)
      have holds : (!(tail.results rest).isEmpty) = true := List.find?_some
        (p := fun result : List α × List α => !(tail.results result.2).isEmpty) search
      obtain ⟨follow, left, restSplit, tailMatches⟩ := (followed rest).mp holds
      have same := only taken follow left (restSplit ▸ split) groupMatches tailMatches
      rw [Option.map_some, same]

end Pattern

end Sidewalk.Foundation
