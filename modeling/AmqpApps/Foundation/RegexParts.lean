import AmqpApps.Foundation.Regex

/-! # Searching the parts of a line

A line that is put together from parts is searched by searching the parts, where the
expression cannot match across the characters between them.
-/

namespace AmqpApps.Regex

/-! ## What an expression can read -/

/-- The expression does not ask where in the line it is. -/
def anchorFree : Regex → Bool
  | fail | empty | one _ | wordEdge => true
  | seq left right | alt left right => left.anchorFree && right.anchorFree
  | star repeated => repeated.anchorFree
  | atStart | atEnd => false

def reads (locale : Locale) (character : Char) : Regex → Bool
  | fail | empty | atStart | atEnd | wordEdge => false
  | one set => locale.accepts set character
  | seq left right | alt left right =>
      left.reads locale character || right.reads locale character
  | star repeated => repeated.reads locale character

def nullable : Regex → Bool
  | fail | one _ => false
  | empty | star _ | atStart | atEnd | wordEdge => true
  | seq left right => left.nullable && right.nullable
  | alt left right => left.nullable || right.nullable

/-- A match may have read the character last. -/
def endsIn (locale : Locale) (character : Char) : Regex → Bool
  | fail | empty | atStart | atEnd | wordEdge => false
  | one set => locale.accepts set character
  | seq left right =>
      right.endsIn locale character || right.nullable && left.endsIn locale character
  | alt left right => left.endsIn locale character || right.endsIn locale character
  | star repeated => repeated.endsIn locale character

/-- A match may read nothing outside the alphabet. -/
def possible (locale : Locale) (alphabet : List Char) : Regex → Bool
  | fail => false
  | empty | star _ | atStart | atEnd | wordEdge => true
  | one set => alphabet.any (locale.accepts set)
  | seq left right => left.possible locale alphabet && right.possible locale alphabet
  | alt left right => left.possible locale alphabet || right.possible locale alphabet

variable {locale : Locale}

theorem possible_of_matches {alphabet : List Char} {regex : Regex} {first last : Position}
    (within : ∀ character ∈ first.rest, character ∈ alphabet)
    (holds : regex.Matches locale first last) : regex.possible locale alphabet = true := by
  induction regex generalizing first last with
  | fail => exact holds.elim
  | one set =>
      rcases holds with ⟨character, accepted, read, -⟩
      apply List.any_eq_true.mpr
      exact ⟨character, within character (by rw [read]; exact List.mem_cons_self), accepted⟩
  | seq left right leftInduction rightInduction =>
      rcases holds with ⟨middle, early, late⟩
      have later : ∀ character ∈ middle.rest, character ∈ alphabet := fun character member =>
        within character ((suffix_of_anything early.anything).subset member)
      rw [possible, leftInduction within early, rightInduction later late]
      rfl
  | alt left right leftInduction rightInduction =>
      rw [possible, Bool.or_eq_true]
      rcases holds with early | late
      · exact .inl (leftInduction within early)
      · exact .inr (rightInduction within late)
  | _ => rfl

theorem not_found_of_alphabet {alphabet : List Char} {regex : Regex}
    (impossible : regex.possible locale alphabet = false) {line : List Char}
    (within : ∀ character ∈ line, character ∈ alphabet) : ¬regex.Found locale line := by
  intro found
  rcases found with ⟨last, first, reached, holds⟩
  have possible := possible_of_matches
    (fun character member => within character ((suffix_of_anything reached).subset member)) holds
  rw [impossible] at possible
  cases possible

theorem endsIn_of_matches {regex : Regex} {first last : Position}
    (holds : regex.Matches locale first last) :
    (first = last ∧ regex.nullable = true) ∨
      ∃ character, last.before = some character ∧ regex.endsIn locale character = true := by
  induction regex generalizing first last with
  | fail => exact holds.elim
  | empty => exact .inl ⟨holds, rfl⟩
  | one set =>
      rcases holds with ⟨character, accepted, -, before⟩
      exact .inr ⟨character, before, accepted⟩
  | seq left right leftInduction rightInduction =>
      rcases holds with ⟨middle, early, late⟩
      rcases rightInduction late with ⟨rfl, rightNull⟩ | ⟨character, before, ending⟩
      · rcases leftInduction early with ⟨rfl, leftNull⟩ | ⟨character, before, ending⟩
        · exact .inl ⟨rfl, by rw [nullable, leftNull, rightNull]; rfl⟩
        · exact .inr ⟨character, before, by rw [endsIn, rightNull, ending, Bool.and_true,
            Bool.or_true]⟩
      · exact .inr ⟨character, before, by rw [endsIn, ending]; rfl⟩
  | alt left right leftInduction rightInduction =>
      rcases holds with early | late
      · rcases leftInduction early with ⟨same, null⟩ | ⟨character, before, ending⟩
        · exact .inl ⟨same, by rw [nullable, null]; rfl⟩
        · exact .inr ⟨character, before, by rw [endsIn, ending]; rfl⟩
      · rcases rightInduction late with ⟨same, null⟩ | ⟨character, before, ending⟩
        · exact .inl ⟨same, by rw [nullable, null, Bool.or_true]⟩
        · exact .inr ⟨character, before, by rw [endsIn, ending, Bool.or_true]⟩
  | star repeated induction =>
      induction holds with
      | refl => exact .inl ⟨rfl, rfl⟩
      | tail _ step earlier =>
          rcases induction step with ⟨rfl, -⟩ | ending
          · exact earlier
          · exact .inr ending
  | atStart => exact .inl ⟨holds.1, rfl⟩
  | atEnd => exact .inl ⟨holds.1, rfl⟩
  | wordEdge => exact .inl ⟨holds.1, rfl⟩

/-! ## What follows a line -/

def within (tail : List Char) (position : Position) : Position :=
  ⟨position.before, position.rest ++ tail⟩

theorem within_injective {tail : List Char} {first last : Position}
    (same : within tail first = within tail last) : first = last := by
  rcases first with ⟨before, rest⟩
  rcases last with ⟨after, left⟩
  simp only [within, Position.mk.injEq, List.append_cancel_right_eq] at same
  rw [same.1, same.2]

theorem within_of_anything {tail : List Char} {middle last : Position}
    (reaches : anything.Matches locale middle (within tail last)) :
    ∃ position, middle = within tail position := by
  rcases suffix_of_anything reaches with ⟨read, parts⟩
  refine ⟨⟨middle.before, read ++ last.rest⟩, ?_⟩
  rw [within, List.append_assoc]
  change middle = ⟨middle.before, read ++ (within tail last).rest⟩
  rw [parts]

/-- A match that ends before a character that is in no word does not depend on what comes
from there on. -/
theorem matches_within {regex : Regex} (free : regex.anchorFree = true) {separator : Char}
    (apart : locale.isWord separator = false) {tail : List Char} {first last : Position} :
    regex.Matches locale (within (separator :: tail) first) (within (separator :: tail) last) ↔
      regex.Matches locale first last := by
  induction regex generalizing first last with
  | fail => exact Iff.rfl
  | empty => exact ⟨within_injective, congrArg _⟩
  | one set =>
      rcases first with ⟨before, rest⟩
      rcases last with ⟨after, left⟩
      simp only [Matches, within]
      constructor
      · intro step
        rcases step with ⟨character, accepted, read, same⟩
        exact ⟨character, accepted, List.append_cancel_right (by simpa using read), same⟩
      · intro step
        rcases step with ⟨character, accepted, rfl, same⟩
        exact ⟨character, accepted, rfl, same⟩
  | seq left right leftInduction rightInduction =>
      rw [anchorFree, Bool.and_eq_true] at free
      constructor
      · intro steps
        rcases steps with ⟨middle, early, late⟩
        rcases within_of_anything late.anything with ⟨position, rfl⟩
        exact ⟨position, (leftInduction free.1).mp early, (rightInduction free.2).mp late⟩
      · intro steps
        rcases steps with ⟨middle, early, late⟩
        exact ⟨within (separator :: tail) middle, (leftInduction free.1).mpr early,
          (rightInduction free.2).mpr late⟩
  | alt left right leftInduction rightInduction =>
      rw [anchorFree, Bool.and_eq_true] at free
      exact or_congr (leftInduction free.1) (rightInduction free.2)
  | star repeated induction =>
      constructor
      · intro steps
        generalize start : within (separator :: tail) first = position at steps
        induction steps using Relation.ReflTransGen.head_induction_on generalizing first with
        | refl =>
            rw [within_injective start]
            exact .refl
        | head step rest later =>
            subst start
            have reaches : (star repeated).Matches locale _ _ := rest
            rcases within_of_anything reaches.anything with ⟨middle, rfl⟩
            exact .head ((induction free).mp step) (later rfl)
      · intro steps
        exact Relation.ReflTransGen.lift (within (separator :: tail))
          (fun _ _ step => (induction free).mpr step) first last steps
  | atStart => cases free
  | atEnd => cases free
  | wordEdge =>
      have same : locale.inWord (within (separator :: tail) first).rest.head? =
          locale.inWord first.rest.head? := by
        rcases first with ⟨before, rest⟩
        cases rest with
        | nil => simp [within, Locale.inWord, apart]
        | cons character rest => rfl
      simp only [Matches]
      rw [same]
      exact and_congr_left' ⟨within_injective, congrArg _⟩

/-- An expression that does not read the separator does not match across it. -/
theorem within_of_matches {regex : Regex} {separator : Char}
    (stops : regex.reads locale separator = false) {tail : List Char} {first last : Position}
    (holds : regex.Matches locale (within (separator :: tail) first) last) :
    ∃ position, last = within (separator :: tail) position := by
  induction regex generalizing first last with
  | fail => exact holds.elim
  | empty => exact ⟨first, holds.symm⟩
  | one set =>
      rcases first with ⟨before, rest⟩
      rcases last with ⟨after, left⟩
      rcases holds with ⟨character, accepted, read, same⟩
      cases rest with
      | nil =>
          cases read
          rw [reads] at stops
          rw [stops] at accepted
          cases accepted
      | cons other rest =>
          cases read
          exact ⟨⟨after, rest⟩, rfl⟩
  | seq left right leftInduction rightInduction =>
      rw [reads, Bool.or_eq_false_iff] at stops
      rcases holds with ⟨middle, early, late⟩
      rcases leftInduction stops.1 early with ⟨position, rfl⟩
      exact rightInduction stops.2 late
  | alt left right leftInduction rightInduction =>
      rw [reads, Bool.or_eq_false_iff] at stops
      rcases holds with early | late
      · exact leftInduction stops.1 early
      · exact rightInduction stops.2 late
  | star repeated induction =>
      induction holds with
      | refl => exact ⟨first, rfl⟩
      | tail _ step earlier =>
          rcases earlier with ⟨position, rfl⟩
          exact induction stops step
  | atStart => exact ⟨first, holds.1.symm⟩
  | atEnd => exact ⟨first, holds.1.symm⟩
  | wordEdge => exact ⟨first, holds.1.symm⟩

/-! ## What precedes a line -/

/-- The same is to come, after characters of which both or neither are in a word. -/
structure Alike (locale : Locale) (first second : Position) : Prop where
  rest : first.rest = second.rest
  before : locale.inWord first.before = locale.inWord second.before

theorem matches_alike {regex : Regex} (free : regex.anchorFree = true)
    {first second last : Position} (alike : Alike locale first second)
    (holds : regex.Matches locale first last) :
    ∃ other, Alike locale last other ∧ regex.Matches locale second other := by
  induction regex generalizing first second last with
  | fail => exact holds.elim
  | empty =>
      cases holds
      exact ⟨second, alike, rfl⟩
  | one set =>
      rcases holds with ⟨character, accepted, read, same⟩
      exact ⟨last, ⟨rfl, rfl⟩, character, accepted, alike.rest ▸ read, same⟩
  | seq left right leftInduction rightInduction =>
      rw [anchorFree, Bool.and_eq_true] at free
      rcases holds with ⟨middle, early, late⟩
      rcases leftInduction free.1 alike early with ⟨between, alikeBetween, earlyToo⟩
      rcases rightInduction free.2 alikeBetween late with ⟨other, alikeOther, lateToo⟩
      exact ⟨other, alikeOther, between, earlyToo, lateToo⟩
  | alt left right leftInduction rightInduction =>
      rw [anchorFree, Bool.and_eq_true] at free
      rcases holds with early | late
      · rcases leftInduction free.1 alike early with ⟨other, alikeOther, earlyToo⟩
        exact ⟨other, alikeOther, .inl earlyToo⟩
      · rcases rightInduction free.2 alike late with ⟨other, alikeOther, lateToo⟩
        exact ⟨other, alikeOther, .inr lateToo⟩
  | star repeated induction =>
      induction holds with
      | refl => exact ⟨second, alike, .refl⟩
      | tail _ step earlier =>
          rcases earlier with ⟨between, alikeBetween, steps⟩
          rcases induction free alikeBetween step with ⟨other, alikeOther, stepToo⟩
          exact ⟨other, alikeOther, .tail steps stepToo⟩
  | atStart => cases free
  | atEnd => cases free
  | wordEdge =>
      rcases holds with ⟨rfl, edge⟩
      rw [alike.rest, alike.before] at edge
      exact ⟨second, alike, rfl, edge⟩

/-! ## Lines of two parts -/

theorem anything_to (read left : List Char) (before : Option Char) :
    ∃ after, anything.Matches locale ⟨before, read ++ left⟩ ⟨after, left⟩ := by
  induction read generalizing before with
  | nil => exact ⟨before, .refl⟩
  | cons character read induction =>
      rcases induction (some character) with ⟨after, steps⟩
      exact ⟨after, .head ⟨character, rfl, rfl, rfl⟩ steps⟩

theorem anything_past (separator : Char) (read tail : List Char) (before : Option Char) :
    anything.Matches locale ⟨before, read ++ separator :: tail⟩ ⟨some separator, tail⟩ := by
  rcases anything_to read (separator :: tail) before with ⟨after, steps⟩
  exact .tail steps ⟨separator, rfl, rfl, rfl⟩

theorem anything_cases (first : Position) {separator : Char} {tail : List Char}
    {last : Position}
    (reaches : anything.Matches locale (within (separator :: tail) first) last) :
    (∃ position, last = within (separator :: tail) position) ∨
      anything.Matches locale ⟨some separator, tail⟩ last := by
  induction reaches with
  | refl => exact .inl ⟨first, rfl⟩
  | tail _ step earlier =>
      rcases earlier with ⟨⟨before, rest⟩, rfl⟩ | steps
      · rename_i last _
        rcases last with ⟨after, left⟩
        rcases step with ⟨character, -, read, rfl⟩
        cases rest with
        | nil =>
            cases read
            exact .inr .refl
        | cons other rest =>
            cases read
            exact .inl ⟨⟨some character, rest⟩, rfl⟩
      · exact .inr (.tail steps step)

theorem anchorFree_anything_seq {regex : Regex} (free : regex.anchorFree = true) :
    (seq anything regex).anchorFree = true := by
  rw [anchorFree, free]
  rfl

/-- An expression that does not read the character between two parts is found in one of
them. -/
theorem found_separated {regex : Regex} (free : regex.anchorFree = true) {separator : Char}
    (apart : locale.isWord separator = false) (stops : regex.reads locale separator = false)
    (left right : List Char) :
    regex.Found locale (left ++ separator :: right) ↔
      regex.Found locale left ∨ regex.Found locale right := by
  have freely := anchorFree_anything_seq free
  have alike : Alike locale ⟨some separator, right⟩ ⟨none, right⟩ := ⟨rfl, apart⟩
  constructor
  · intro found
    rcases found with ⟨last, middle, reaches, holds⟩
    rcases anything_cases ⟨none, left⟩ reaches with ⟨position, rfl⟩ | after
    · rcases within_of_matches stops holds with ⟨last, rfl⟩
      exact .inl ⟨last, (matches_within freely apart).mp ⟨_, reaches, holds⟩⟩
    · rcases matches_alike freely alike ⟨middle, after, holds⟩ with ⟨other, -, found⟩
      exact .inr ⟨other, found⟩
  · intro either
    rcases either with ⟨last, found⟩ | ⟨last, found⟩
    · exact ⟨within (separator :: right) last, (matches_within freely apart).mpr found⟩
    · rcases matches_alike freely ⟨alike.rest.symm, alike.before.symm⟩ found with
        ⟨other, -, middle, reaches, holds⟩
      exact ⟨other, middle, (anything_past separator left right none).trans reaches, holds⟩

theorem found_concat {regex : Regex} (free : regex.anchorFree = true) {separator : Char}
    (apart : locale.isWord separator = false) (reading : regex.nullable = false)
    (stops : regex.endsIn locale separator = false) (line : List Char) :
    regex.Found locale (line ++ [separator]) ↔ regex.Found locale line := by
  have freely := anchorFree_anything_seq free
  constructor
  · intro found
    rcases found with ⟨last, middle, reaches, holds⟩
    rcases anything_cases ⟨none, line⟩ (reaches.trans holds.anything) with
      ⟨position, rfl⟩ | after
    · exact ⟨position, (matches_within freely apart).mp ⟨middle, reaches, holds⟩⟩
    · -- Nothing is left to read behind the separator.
      have ended : (⟨some separator, []⟩ : Position) = last := by
        rcases matches_anything_cases after with same | shorter
        · exact same
        · exact absurd shorter (Nat.not_lt_zero _)
      rcases endsIn_of_matches holds with ⟨-, null⟩ | ⟨character, before, ending⟩
      · rw [reading] at null
        cases null
      · rw [← ended] at before
        cases before
        rw [stops] at ending
        cases ending
  · intro shorter
    rcases shorter with ⟨last, found⟩
    exact ⟨within [separator] last, (matches_within freely apart).mpr found⟩

theorem not_found_nil {regex : Regex} (reading : regex.nullable = false) :
    ¬regex.Found locale [] := by
  intro found
  rcases found with ⟨last, middle, reaches, holds⟩
  have start : (⟨none, []⟩ : Position) = last := by
    rcases matches_anything_cases (reaches.trans holds.anything) with same | shorter
    · exact same
    · exact absurd shorter (Nat.not_lt_zero _)
  rcases endsIn_of_matches holds with ⟨-, null⟩ | ⟨character, before, -⟩
  · rw [reading] at null
    cases null
  · rw [← start] at before
    cases before

/-! ## Expressions that read ASCII and symbols -/

theorem toLower_ascii {character : Char} (ascii : character.toNat < 128) :
    character.toLower.toNat < 128 := by
  have all : ∀ code < 128, (Char.ofNat code).toLower.toNat < 128 := by decide +kernel
  rw [← Char.ofNat_toNat character]
  exact all character.toNat ascii

def plainSet : CharSet → Bool
  | .any | .space => true
  | .letter character => decide (character.toNat < 128) || decide (0x2200 ≤ character.toNat)

def plain : Regex → Bool
  | fail | empty | atStart | atEnd | wordEdge => true
  | one set => plainSet set
  | seq left right | alt left right => left.plain && right.plain
  | star repeated => repeated.plain

/-- All locales agree on what such an expression reads of ASCII. -/
theorem accepts_ascii {set : CharSet} (plain : plainSet set = true) {character : Char}
    (ascii : character.toNat < 128) :
    locale.accepts set character = Locale.posix.accepts set character := by
  cases set with
  | any => rfl
  | space => exact locale.isSpace_ascii character ascii
  | letter letter =>
      have folded := locale.fold_ascii character ascii
      rw [plainSet, Bool.or_eq_true, decide_eq_true_eq, decide_eq_true_eq] at plain
      rcases plain with letterAscii | symbol
      · simp only [Locale.accepts, folded, locale.fold_ascii letter letterAscii]
        rfl
      · have apart : ∀ other : Locale, other.accepts (.letter letter) character = false := by
          intro other
          have far := other.fold_symbol letter symbol
          have near := toLower_ascii ascii
          rw [Locale.accepts, other.fold_ascii character ascii, beq_eq_false_iff_ne]
          intro same
          rw [same] at near
          omega
        rw [apart, apart]

theorem reads_posix {regex : Regex} (plain : regex.plain = true) {character : Char}
    (ascii : character.toNat < 128) :
    regex.reads locale character = regex.reads Locale.posix character := by
  induction regex with
  | one set => exact accepts_ascii plain ascii
  | seq left right leftInduction rightInduction =>
      rw [Regex.plain, Bool.and_eq_true] at plain
      rw [reads, reads, leftInduction plain.1, rightInduction plain.2]
  | alt left right leftInduction rightInduction =>
      rw [Regex.plain, Bool.and_eq_true] at plain
      rw [reads, reads, leftInduction plain.1, rightInduction plain.2]
  | star repeated induction => exact induction plain
  | _ => rfl

theorem endsIn_posix {regex : Regex} (plain : regex.plain = true) {character : Char}
    (ascii : character.toNat < 128) :
    regex.endsIn locale character = regex.endsIn Locale.posix character := by
  induction regex with
  | one set => exact accepts_ascii plain ascii
  | seq left right leftInduction rightInduction =>
      rw [Regex.plain, Bool.and_eq_true] at plain
      rw [endsIn, endsIn, leftInduction plain.1, rightInduction plain.2]
  | alt left right leftInduction rightInduction =>
      rw [Regex.plain, Bool.and_eq_true] at plain
      rw [endsIn, endsIn, leftInduction plain.1, rightInduction plain.2]
  | star repeated induction => exact induction plain
  | _ => rfl

theorem possible_posix {regex : Regex} (plain : regex.plain = true) {alphabet : List Char}
    (ascii : ∀ character ∈ alphabet, character.toNat < 128) :
    regex.possible locale alphabet = regex.possible Locale.posix alphabet := by
  induction regex with
  | one set =>
      rw [possible, possible, Bool.eq_iff_iff, List.any_eq_true, List.any_eq_true]
      apply exists_congr
      intro character
      apply and_congr_right
      intro member
      rw [accepts_ascii plain (ascii character member)]
  | seq left right leftInduction rightInduction =>
      rw [Regex.plain, Bool.and_eq_true] at plain
      rw [possible, possible, leftInduction plain.1, rightInduction plain.2]
  | alt left right leftInduction rightInduction =>
      rw [Regex.plain, Bool.and_eq_true] at plain
      rw [possible, possible, leftInduction plain.1, rightInduction plain.2]
  | _ => rfl

/-! ## Alternatives and literals -/

theorem matches_oneOf {alternatives : List Regex} {first last : Position} :
    (oneOf alternatives).Matches locale first last ↔
      ∃ regex ∈ alternatives, regex.Matches locale first last := by
  induction alternatives with
  | nil => simp [oneOf, Matches]
  | cons regex alternatives induction =>
      rw [oneOf] at induction
      simp [oneOf, Matches, induction]

theorem found_oneOf {alternatives : List Regex} {line : List Char} :
    (oneOf alternatives).Found locale line ↔
      ∃ regex ∈ alternatives, regex.Found locale line := by
  constructor
  · intro found
    rcases found with ⟨last, middle, reaches, holds⟩
    rcases matches_oneOf.mp holds with ⟨regex, member, matched⟩
    exact ⟨regex, member, last, middle, reaches, matched⟩
  · intro found
    rcases found with ⟨regex, member, last, middle, reaches, matched⟩
    exact ⟨last, middle, reaches, matches_oneOf.mpr ⟨regex, member, matched⟩⟩

theorem found_oneOf_append {alternatives others : List Regex} {line : List Char} :
    (oneOf (alternatives ++ others)).Found locale line ↔
      (oneOf alternatives).Found locale line ∨ (oneOf others).Found locale line := by
  simp only [found_oneOf, List.mem_append, or_and_right, exists_or]

theorem found_oneOf_of_subset {alternatives more : List Regex} (subset : alternatives ⊆ more)
    {line : List Char} (found : (oneOf alternatives).Found locale line) :
    (oneOf more).Found locale line := by
  rcases found_oneOf.mp found with ⟨regex, member, holds⟩
  exact found_oneOf.mpr ⟨regex, subset member, holds⟩

theorem matches_literal_append {left right : String} {first last : Position} :
    (literal (left ++ right)).Matches locale first last ↔
      (seq (literal left) (literal right)).Matches locale first last := by
  simp only [literal, String.toList_append]
  induction left.toList generalizing first with
  | nil => simp [Matches, Relation.Comp]
  | cons character characters induction =>
      constructor
      · intro whole
        rcases whole with ⟨next, read, rest⟩
        rcases induction.mp rest with ⟨middle, early, late⟩
        exact ⟨middle, ⟨next, read, early⟩, late⟩
      · intro parts
        rcases parts with ⟨middle, ⟨next, read, early⟩, late⟩
        exact ⟨next, read, induction.mpr ⟨middle, early, late⟩⟩

end AmqpApps.Regex
