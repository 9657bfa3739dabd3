import Mathlib.Data.List.Basic
import Mathlib.Logic.Relation

/-! # Searching a line for a regular expression

Extended regular expressions with anchors and word edges, as `grep -i` reads them. A
position in a line is the character before it and those after it, and an expression is a
relation between the positions where it begins and ends.
-/

namespace AmqpApps

/-! ## Characters -/

/-- What a search needs to know of characters. ASCII is the same everywhere, and a symbol
is never the upper or lower case of an ASCII character. -/
structure Locale where
  fold : Char → Char
  isSpace : Char → Bool
  isWord : Char → Bool
  fold_ascii : ∀ character : Char, character.toNat < 128 → fold character = character.toLower
  fold_symbol : ∀ character : Char, 0x2200 ≤ character.toNat → 128 ≤ (fold character).toNat
  isSpace_ascii : ∀ character : Char, character.toNat < 128 →
    isSpace character = [' ', '\t', '\n', '\x0b', '\x0c', '\r'].contains character
  isWord_ascii : ∀ character : Char, character.toNat < 128 →
    isWord character = (character.isAlphanum || character == '_')

def Locale.posix : Locale where
  fold := Char.toLower
  isSpace character := [' ', '\t', '\n', '\x0b', '\x0c', '\r'].contains character
  isWord character := character.isAlphanum || character == '_'
  fold_ascii _ _ := rfl
  fold_symbol character symbol := by
    have notUpper : ¬('A'.val ≤ character.val ∧ character.val ≤ 'Z'.val) := by
      intro letter
      have upper := letter.2
      have bound : character.toNat ≤ 90 := upper
      omega
    have same : character.toLower = character := dif_neg notUpper
    rw [same]
    omega
  isSpace_ascii _ _ := rfl
  isWord_ascii _ _ := rfl

inductive CharSet
  | any
  | letter (character : Char)
  | space
deriving DecidableEq

def Locale.accepts (locale : Locale) : CharSet → Char → Bool
  | .any, _ => true
  | .letter character, other => locale.fold other == locale.fold character
  | .space, character => locale.isSpace character

/-- A character that may not be there, as at either end of a line, is in no word. -/
def Locale.inWord (locale : Locale) (character : Option Char) : Bool :=
  character.any locale.isWord

/-! ## Expressions -/

structure Position where
  before : Option Char
  rest : List Char
deriving DecidableEq

inductive Regex
  | fail
  | empty
  | one (set : CharSet)
  | seq (first second : Regex)
  | alt (left right : Regex)
  | star (repeated : Regex)
  | atStart
  | atEnd
  /-- Between a character of a word and one of none. -/
  | wordEdge
deriving DecidableEq

namespace Regex

def literal (text : String) : Regex :=
  text.toList.foldr (fun character => seq (one (.letter character))) empty

def inOrder (parts : List Regex) : Regex := parts.foldr seq empty

def oneOf (alternatives : List Regex) : Regex := alternatives.foldr alt fail

def optional (regex : Regex) : Regex := alt empty regex

def anything : Regex := star (one .any)

def Matches (locale : Locale) : Regex → Position → Position → Prop
  | fail => fun _ _ => False
  | empty => fun first last => first = last
  | one set => fun first last =>
      ∃ character, locale.accepts set character = true ∧
        first.rest = character :: last.rest ∧ last.before = some character
  | seq first second => Relation.Comp (first.Matches locale) (second.Matches locale)
  | alt left right => fun first last => left.Matches locale first last ∨
      right.Matches locale first last
  | star repeated => Relation.ReflTransGen (repeated.Matches locale)
  | atStart => fun first last => first = last ∧ first.before = none
  | atEnd => fun first last => first = last ∧ first.rest = []
  | wordEdge => fun first last => first = last ∧
      locale.inWord first.before ≠ locale.inWord first.rest.head?

def Found (locale : Locale) (regex : Regex) (line : List Char) : Prop :=
  ∃ last, (seq anything regex).Matches locale ⟨none, line⟩ last

/-! ## Searching -/

/-- What is reached by steps that each leave less to read, or none. -/
def starEnds (step : Position → List Position) : Nat → Position → List Position
  | 0, position => [position]
  | fuel + 1, position => position ::
      ((step position).filter fun next =>
        decide (next.rest.length < position.rest.length)).flatMap (starEnds step fuel)

def ends (locale : Locale) : Regex → Position → List Position
  | fail, _ => []
  | empty, position => [position]
  | one set, position =>
      match position.rest with
      | [] => []
      | character :: rest =>
          if locale.accepts set character then [⟨some character, rest⟩] else []
  | seq first second, position => (first.ends locale position).flatMap (second.ends locale)
  | alt left right, position => left.ends locale position ++ right.ends locale position
  | star repeated, position =>
      starEnds (repeated.ends locale) position.rest.length position
  | atStart, position => if position.before = none then [position] else []
  | atEnd, position => if position.rest = [] then [position] else []
  | wordEdge, position =>
      if locale.inWord position.before ≠ locale.inWord position.rest.head? then [position]
      else []

/-! ## A match reads forward -/

variable {locale : Locale}

theorem matches_anything_cases {first last : Position}
    (reaches : anything.Matches locale first last) :
    first = last ∨ last.rest.length < first.rest.length := by
  induction reaches with
  | refl => exact .inl rfl
  | tail _ step induction =>
      rcases step with ⟨character, -, read, -⟩
      right
      rw [read] at induction
      rcases induction with rfl | shorter
      · rw [read]
        exact Nat.lt_succ_self _
      · exact Nat.lt_trans (Nat.lt_succ_self _) shorter

theorem suffix_of_anything {first last : Position}
    (reaches : anything.Matches locale first last) : last.rest <:+ first.rest := by
  induction reaches with
  | refl => exact List.suffix_refl _
  | tail _ step induction =>
      rcases step with ⟨character, -, read, -⟩
      rw [read] at induction
      exact (List.suffix_cons _ _).trans induction

theorem Matches.anything {regex : Regex} {first last : Position}
    (holds : regex.Matches locale first last) : anything.Matches locale first last := by
  induction regex generalizing first last with
  | fail => exact holds.elim
  | empty =>
      cases holds
      exact .refl
  | one set =>
      rcases holds with ⟨character, -, read, before⟩
      exact .single ⟨character, rfl, read, before⟩
  | seq left right leftInduction rightInduction =>
      rcases holds with ⟨middle, early, late⟩
      exact (leftInduction early).trans (rightInduction late)
  | alt left right leftInduction rightInduction =>
      rcases holds with early | late
      · exact leftInduction early
      · exact rightInduction late
  | star repeated induction =>
      induction holds with
      | refl => exact .refl
      | tail _ step earlier => exact earlier.trans (induction step)
  | atStart =>
      cases holds.1
      exact .refl
  | atEnd =>
      cases holds.1
      exact .refl
  | wordEdge =>
      cases holds.1
      exact .refl

/-! ## The search finds what matches -/

theorem mem_starEnds_self (step : Position → List Position) (fuel : Nat)
    (position : Position) : position ∈ starEnds step fuel position := by
  cases fuel <;> exact List.mem_cons_self

theorem reflTransGen_of_starEnds {step : Position → List Position} {fuel : Nat}
    {first last : Position} (member : last ∈ starEnds step fuel first) :
    Relation.ReflTransGen (fun first last => last ∈ step first) first last := by
  induction fuel generalizing first with
  | zero =>
      rw [List.mem_singleton.mp member]
  | succ fuel induction =>
      rcases List.mem_cons.mp member with rfl | later
      · exact .refl
      · rcases List.mem_flatMap.mp later with ⟨next, stepped, rest⟩
        exact .head (List.mem_filter.mp stepped).1 (induction rest)

/-- Steps that read nothing can be left out. -/
theorem mem_starEnds {step : Position → List Position}
    (forward : ∀ first, ∀ last ∈ step first,
      first = last ∨ last.rest.length < first.rest.length)
    {fuel : Nat} {first last : Position} (enough : first.rest.length ≤ fuel)
    (steps : Relation.ReflTransGen (fun first last => last ∈ step first) first last) :
    last ∈ starEnds step fuel first := by
  induction steps using Relation.ReflTransGen.head_induction_on generalizing fuel with
  | refl => exact mem_starEnds_self step fuel last
  | head stepped _ induction =>
      rename_i position next _
      rcases forward position next stepped with rfl | shorter
      · exact induction enough
      · cases fuel with
        | zero => omega
        | succ fuel =>
            apply List.mem_cons_of_mem
            apply List.mem_flatMap.mpr
            exact ⟨next, List.mem_filter.mpr ⟨stepped, decide_eq_true shorter⟩,
              induction (by omega)⟩

theorem mem_ends {regex : Regex} {first last : Position} :
    last ∈ regex.ends locale first ↔ regex.Matches locale first last := by
  induction regex generalizing first last with
  | fail => simp [ends, Matches]
  | empty => simp [ends, Matches, eq_comm]
  | one set =>
      rcases first with ⟨before, rest⟩
      rcases last with ⟨after, left⟩
      cases rest with
      | nil => simp [ends, Matches]
      | cons character rest =>
          by_cases accepted : locale.accepts set character = true
          · simp only [ends, Matches, accepted, if_true, List.mem_singleton, Position.mk.injEq,
              List.cons.injEq]
            constructor
            · intro next
              rcases next with ⟨rfl, rfl⟩
              exact ⟨character, accepted, ⟨rfl, rfl⟩, rfl⟩
            · intro read
              rcases read with ⟨other, -, ⟨rfl, rfl⟩, rfl⟩
              exact ⟨rfl, rfl⟩
          · simp only [ends, Matches, accepted, Bool.false_eq_true, if_false,
              List.not_mem_nil, List.cons.injEq, false_iff]
            intro read
            rcases read with ⟨other, holds, ⟨rfl, -⟩, -⟩
            exact accepted holds
  | seq left right leftInduction rightInduction =>
      simp [ends, Matches, Relation.Comp, leftInduction, rightInduction]
  | alt left right leftInduction rightInduction =>
      simp [ends, Matches, leftInduction, rightInduction]
  | star repeated induction =>
      have same : (fun first last => last ∈ repeated.ends locale first) =
          repeated.Matches locale := by
        funext first last
        exact propext induction
      rw [Matches, ← same]
      constructor
      · exact reflTransGen_of_starEnds
      · apply mem_starEnds _ (Nat.le_refl _)
        intro first last member
        exact matches_anything_cases (induction.mp member).anything
  | atStart => simp [ends, Matches, eq_comm, and_comm]
  | atEnd => simp [ends, Matches, eq_comm, and_comm]
  | wordEdge => simp [ends, Matches, eq_comm, and_comm]

/-- `Found`, searched. -/
instance (locale : Locale) (regex : Regex) (line : List Char) :
    Decidable (regex.Found locale line) :=
  decidable_of_iff ((seq anything regex).ends locale ⟨none, line⟩ ≠ []) <| by
    rw [← List.isEmpty_eq_false_iff, List.isEmpty_eq_false_iff_exists_mem]
    exact exists_congr fun _ => mem_ends

end Regex

end AmqpApps
