import Mathlib.Data.List.Basic
import Mathlib.Data.List.Induction
import Mathlib.Data.List.TakeWhile

/-!
Owns the library of separator-delimited text over an arbitrary alphabet: the
tokens a `while (std::getline(stream, token, sep))` loop produces, the
separator-before-item append that builds a delimited text one item at a time,
and the laws that relate both to `List.splitOn` and `List.intercalate`.

Does not own any concrete grammar, nor number formats.
-/

set_option autoImplicit false

namespace Sidewalk.Foundation.Delimited

variable {α : Type*}

/-! ## Building a delimited text -/

/-- Append one item, with a separator before it unless the text is still empty. -/
def appendItem (sep : α) (text item : List α) : List α :=
  (if text.isEmpty then text else text ++ [sep]) ++ item

theorem intercalate_concat (sep : α) {items : List (List α)} (some : items ≠ []) (item : List α) :
    [sep].intercalate (items ++ [item]) = [sep].intercalate items ++ sep :: item := by
  induction items with
  | nil => exact absurd rfl some
  | cons head tail inductionHypothesis =>
      by_cases last : tail = []
      · subst last
        simp
      · rw [List.cons_append, List.intercalate_cons_of_ne_nil (by simp),
          List.intercalate_cons_of_ne_nil last, inductionHypothesis last]
        simp

theorem mem_intercalate {sep c : α} {items : List (List α)}
    (member : c ∈ [sep].intercalate items) : c = sep ∨ ∃ item ∈ items, c ∈ item := by
  induction items with
  | nil => simp at member
  | cons head tail inductionHypothesis =>
      by_cases last : tail = []
      · subst last
        exact Or.inr ⟨head, by simp, by simpa using member⟩
      · rw [List.intercalate_cons_of_ne_nil last, List.append_assoc, List.mem_append,
          List.mem_append, List.mem_singleton] at member
        rcases member with inHead | separator | inTail
        · exact Or.inr ⟨head, by simp, inHead⟩
        · exact Or.inl separator
        · rcases inductionHypothesis inTail with separator | ⟨item, itemMember, inItem⟩
          · exact Or.inl separator
          · exact Or.inr ⟨item, List.mem_cons_of_mem head itemMember, inItem⟩

theorem intercalate_eq_nil_iff (sep : α) {items : List (List α)}
    (nonempty : ∀ item ∈ items, item ≠ []) :
    [sep].intercalate items = [] ↔ items = [] := by
  cases items with
  | nil => simp
  | cons head tail =>
      have headNonempty := nonempty head (by simp)
      cases tail with
      | nil => simpa using headNonempty
      | cons next rest => simp

theorem appendItem_intercalate (sep : α) {items : List (List α)}
    (nonempty : ∀ item ∈ items, item ≠ []) (item : List α) :
    appendItem sep ([sep].intercalate items) item = [sep].intercalate (items ++ [item]) := by
  unfold appendItem
  by_cases none : items = []
  · subst none
    simp
  · have started : [sep].intercalate items ≠ [] :=
      fun empty => none ((intercalate_eq_nil_iff sep nonempty).mp empty)
    rw [if_neg (by simpa using started), intercalate_concat sep none]
    simp

theorem foldl_appendItem (sep : α) {items : List (List α)}
    (nonempty : ∀ item ∈ items, item ≠ []) :
    items.foldl (appendItem sep) [] = [sep].intercalate items := by
  induction items using List.reverseRecOn with
  | nil => rfl
  | append_singleton items item inductionHypothesis =>
      have earlier : ∀ item ∈ items, item ≠ [] :=
        fun item member => nonempty item (by simp [member])
      rw [List.foldl_append, inductionHypothesis earlier]
      exact appendItem_intercalate sep earlier item

/-! ## Reading tokens -/

variable [DecidableEq α]

/-- One `std::getline(stream, token, sep)`: it fails on an exhausted stream, and
otherwise returns the characters before the next separator and the stream past
that separator. -/
def getline (sep : α) : List α → Option (List α × List α)
  | [] => none
  | text => some (text.takeWhile (· ≠ sep), (text.dropWhile (· ≠ sep)).drop 1)

/-- The tokens of at most `fuel` successful calls of `getline`. -/
def getlinesFrom (sep : α) : Nat → List α → List (List α)
  | 0, _ => []
  | fuel + 1, text =>
      match getline sep text with
      | none => []
      | some (token, rest) => token :: getlinesFrom sep fuel rest

/-- Every token of the loop `while (std::getline(stream, token, sep))`. Each call
consumes a character, so the length of the text bounds the number of calls. -/
def getlines (sep : α) (text : List α) : List (List α) :=
  getlinesFrom sep text.length text

/-- A list of fields without its last one when that one is empty. -/
def dropTrailingEmpty (fields : List (List α)) : List (List α) :=
  if fields.getLast? = some [] then fields.dropLast else fields

theorem dropTrailingEmpty_cons (field : List α) {fields : List (List α)}
    (nonempty : fields ≠ []) :
    dropTrailingEmpty (field :: fields) = field :: dropTrailingEmpty fields := by
  unfold dropTrailingEmpty
  rw [List.getLast?_cons_of_ne_nil nonempty, List.dropLast_cons_of_ne_nil nonempty]
  split <;> rfl

theorem getline_append_cons (sep : α) {token : List α} (plain : sep ∉ token) (rest : List α) :
    getline sep (token ++ sep :: rest) = some (token, rest) := by
  have taken : (token ++ sep :: rest).takeWhile (· ≠ sep) = token := by
    rw [List.takeWhile_append_of_pos
      (by simpa using fun c member => ne_of_mem_of_not_mem member plain)]
    simp
  have dropped : (token ++ sep :: rest).dropWhile (· ≠ sep) = sep :: rest := by
    rw [List.dropWhile_append_of_pos
      (by simpa using fun c member => ne_of_mem_of_not_mem member plain)]
    simp
  unfold getline
  split
  next empty => simp at empty
  next => rw [taken, dropped]; rfl

theorem getline_plain (sep : α) {token : List α} (plain : sep ∉ token) (nonempty : token ≠ []) :
    getline sep token = some (token, []) := by
  have keep : ∀ c ∈ token, decide (c ≠ sep) = true := by
    simpa using fun c member => ne_of_mem_of_not_mem member plain
  cases token with
  | nil => exact absurd rfl nonempty
  | cons head tail =>
      simp only [getline]
      rw [List.takeWhile_eq_self_iff.mpr keep, List.dropWhile_eq_nil_iff.mpr keep]
      rfl

@[simp] theorem getlinesFrom_nil (sep : α) (fuel : Nat) : getlinesFrom sep fuel [] = [] := by
  cases fuel <;> rfl

theorem getlinesFrom_eq (sep : α) (fuel : Nat) (text : List α) (enough : text.length ≤ fuel) :
    getlinesFrom sep fuel text = dropTrailingEmpty (text.splitOn sep) := by
  induction fuel generalizing text with
  | zero =>
      have empty : text = [] := List.eq_nil_of_length_eq_zero (by omega)
      subst empty
      simp [getlinesFrom, dropTrailingEmpty]
  | succ fuel inductionHypothesis =>
      by_cases member : sep ∈ text
      · obtain ⟨token, rest, rfl, plain⟩ := List.eq_append_cons_of_mem member
        have shorter : rest.length ≤ fuel := by simp at enough; omega
        rw [getlinesFrom, getline_append_cons sep plain,
          List.splitOn_append_cons_self_of_not_mem plain,
          dropTrailingEmpty_cons _ (List.splitOn_ne_nil _ _)]
        exact congrArg (token :: ·) (inductionHypothesis rest shorter)
      · rw [List.splitOn_eq_singleton member]
        by_cases empty : text = []
        · subst empty
          simp [dropTrailingEmpty]
        · rw [getlinesFrom, getline_plain sep member empty]
          simp [dropTrailingEmpty, empty]

/-- A `getline` loop reads the fields between separators, except that an empty
field at the very end of the text is not seen. -/
theorem getlines_eq (sep : α) (text : List α) :
    getlines sep text = dropTrailingEmpty (text.splitOn sep) :=
  getlinesFrom_eq sep text.length text (Nat.le_refl _)

/-- Reading a joined text back gives the items, provided no item contains the
separator and none is empty. -/
theorem getlines_intercalate (sep : α) {items : List (List α)}
    (plain : ∀ item ∈ items, sep ∉ item) (nonempty : ∀ item ∈ items, item ≠ []) :
    getlines sep ([sep].intercalate items) = items := by
  by_cases none : items = []
  · subst none
    rfl
  · rw [getlines_eq, List.splitOn_intercalate sep plain none, dropTrailingEmpty, if_neg]
    rw [List.getLast?_eq_some_getLast none]
    simpa using nonempty _ (List.getLast_mem none)

/-- One separator after a joined text is not seen by the loop. -/
theorem getlines_intercalate_concat (sep : α) {items : List (List α)}
    (plain : ∀ item ∈ items, sep ∉ item) (some : items ≠ []) :
    getlines sep ([sep].intercalate items ++ [sep]) = items := by
  have joined : [sep].intercalate items ++ [sep] = [sep].intercalate (items ++ [[]]) :=
    (intercalate_concat sep some []).symm
  have allPlain : ∀ item ∈ items ++ [[]], sep ∉ item := by
    intro item member
    rcases List.mem_append.mp member with earlier | last
    · exact plain item earlier
    · simp_all
  rw [getlines_eq, joined, List.splitOn_intercalate sep allPlain (by simp), dropTrailingEmpty,
    if_pos (by simp), List.dropLast_concat]

/-- The texts that read as given items, none of them empty: the joined items, with
at most one separator after them, or the empty text for no item. -/
theorem getlines_eq_iff (sep : α) {items : List (List α)} (plain : ∀ item ∈ items, sep ∉ item)
    (nonempty : ∀ item ∈ items, item ≠ []) (text : List α) :
    getlines sep text = items ↔
      (text = [] ∧ items = []) ∨
        (items ≠ [] ∧
          (text = [sep].intercalate items ∨ text = [sep].intercalate items ++ [sep])) := by
  constructor
  · intro read
    rw [getlines_eq] at read
    have joined : [sep].intercalate (text.splitOn sep) = text := List.intercalate_splitOn sep
    by_cases trailing : (text.splitOn sep).getLast? = some []
    · rw [dropTrailingEmpty, if_pos trailing] at read
      have fields : text.splitOn sep = items ++ [[]] := by
        rw [← read]
        exact (List.dropLast_append_getLast? [] trailing).symm
      rw [fields] at joined
      by_cases none : items = []
      · subst none
        exact Or.inl ⟨joined.symm, rfl⟩
      · rw [intercalate_concat sep none] at joined
        exact Or.inr ⟨none, Or.inr joined.symm⟩
    · rw [dropTrailingEmpty, if_neg trailing] at read
      rw [read] at joined
      exact Or.inr ⟨read ▸ List.splitOn_ne_nil sep text, Or.inl joined.symm⟩
  · intro written
    rcases written with ⟨rfl, rfl⟩ | ⟨some, rfl | rfl⟩
    · rfl
    · exact getlines_intercalate sep plain nonempty
    · exact getlines_intercalate_concat sep plain some

end Sidewalk.Foundation.Delimited
