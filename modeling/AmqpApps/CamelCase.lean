import AmqpApps.Wire
import Mathlib

/-! # Camel case can be undone

A snake-case name is read back from its camel-case form by putting an
underscore before each capital and making it small. So no two names collide,
and a record keeps one key for each of its fields.
-/

namespace AmqpApps

/-- One or more segments of lower-case ASCII letters, none of them empty. -/
def SnakeCase (name : String) : Prop :=
  ∀ segment ∈ name.toList.splitOn '_', segment ≠ [] ∧ ∀ letter ∈ segment, letter.isLower

instance (name : String) : Decidable (SnakeCase name) :=
  decidable_of_iff (∀ segment ∈ name.toList.splitOn '_',
    segment ≠ [] ∧ segment.all Char.isLower = true) (by simp only [SnakeCase, List.all_eq_true])

def snakeLetter (letter : Char) : List Char :=
  if letter.isUpper then ['_', letter.toLower] else [letter]

def snakeLetters (name : List Char) : List Char := name.flatMap snakeLetter

@[simp] theorem snakeLetters_append (first second : List Char) :
    snakeLetters (first ++ second) = snakeLetters first ++ snakeLetters second :=
  List.flatMap_append

section Segments

variable {letter : Char} {segment : List Char}

private theorem toLower_of_isLower (lower : letter.isLower) : letter.toLower = letter :=
  Char.toLower_eq_of_not_isUpper (Char.not_isUpper_of_isLower lower)

private theorem isAlpha_of_isLower (lower : letter.isLower) : letter.isAlpha = true := by
  simp [Char.isAlpha, lower]

private theorem titleFrom_inside (lower : ∀ letter ∈ segment, letter.isLower) :
    titleFrom true segment = segment := by
  induction segment with
  | nil => rfl
  | cons letter segment induction =>
      have first := lower letter List.mem_cons_self
      rw [titleFrom, isAlpha_of_isLower first, if_pos rfl, toLower_of_isLower first,
        induction fun other member => lower other (List.mem_cons_of_mem _ member)]

private theorem snakeLetters_lower (lower : ∀ letter ∈ segment, letter.isLower) :
    snakeLetters segment = segment := by
  induction segment with
  | nil => rfl
  | cons letter segment induction =>
      have small := Char.not_isUpper_of_isLower (lower letter List.mem_cons_self)
      rw [snakeLetters, List.flatMap_cons, snakeLetter, if_neg small]
      exact congrArg (letter :: ·)
        (induction fun other member => lower other (List.mem_cons_of_mem _ member))

/-- The capital that `title` makes marks where the segment began. -/
theorem snakeLetters_title (filled : segment ≠ [])
    (lower : ∀ letter ∈ segment, letter.isLower) :
    snakeLetters (title segment) = '_' :: segment := by
  cases segment with
  | nil => exact absurd rfl filled
  | cons letter segment =>
      have first := lower letter List.mem_cons_self
      have rest : ∀ other ∈ segment, other.isLower :=
        fun other member => lower other (List.mem_cons_of_mem _ member)
      have capital : letter.toUpper.isUpper = true := by
        rw [Char.isUpper_toUpper_eq_isAlpha, isAlpha_of_isLower first]
      rw [title, titleFrom, isAlpha_of_isLower first, titleFrom_inside rest]
      rw [snakeLetters, List.flatMap_cons, ← snakeLetters, snakeLetters_lower rest]
      simp [snakeLetter, capital, toLower_of_isLower first]

end Segments

private theorem intercalate_underscore (head : List Char) (rest : List (List Char)) :
    ['_'].intercalate (head :: rest) = head ++ (rest.map ('_' :: ·)).flatten := by
  induction rest generalizing head with
  | nil => simp [List.intercalate]
  | cons next rest induction =>
      rw [List.intercalate_cons_of_ne_nil (List.cons_ne_nil next rest), induction]
      simp

private theorem snakeLetters_titles {segments : List (List Char)}
    (snake : ∀ segment ∈ segments, segment ≠ [] ∧ ∀ letter ∈ segment, letter.isLower) :
    snakeLetters (segments.map title).flatten = (segments.map ('_' :: ·)).flatten := by
  induction segments with
  | nil => rfl
  | cons segment segments induction =>
      rcases snake segment List.mem_cons_self with ⟨filled, lower⟩
      simp only [List.map_cons, List.flatten_cons, snakeLetters_append,
        snakeLetters_title filled lower]
      rw [induction fun other member => snake other (List.mem_cons_of_mem _ member)]

/-- A snake-case name is read back from its camel-case form. -/
theorem snakeLetters_camel {name : String} (snake : SnakeCase name) :
    snakeLetters (camel name).toList = name.toList := by
  have joined : ['_'].intercalate (name.toList.splitOn '_') = name.toList :=
    List.intercalate_splitOn '_'
  rw [camel, String.toList_ofList, camelLetters]
  rw [SnakeCase] at snake
  cases segments : name.toList.splitOn '_' with
  | nil => exact absurd segments (List.splitOn_ne_nil _ _)
  | cons head rest =>
      rw [segments] at snake joined
      rw [intercalate_underscore] at joined
      simp only [snakeLetters_append, snakeLetters_lower (snake head List.mem_cons_self).2]
      rw [snakeLetters_titles fun other member => snake other (List.mem_cons_of_mem _ member)]
      exact joined

theorem camel_injective {first second : String} (snakeFirst : SnakeCase first)
    (snakeSecond : SnakeCase second) (same : camel first = camel second) : first = second := by
  apply String.toList_inj.mp
  rw [← snakeLetters_camel snakeFirst, ← snakeLetters_camel snakeSecond, same]

end AmqpApps
