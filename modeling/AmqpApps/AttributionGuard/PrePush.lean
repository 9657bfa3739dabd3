import AmqpApps.AttributionGuard.Scans
import AmqpApps.Foundation.Pipe

/-! # The hook `pre-push`

The hook runs `git log | grep -q` under `pipefail`, and then checks the version tags. Where
`grep` has found what it looks for it leaves, and `git log` may have more to write.
-/

namespace AmqpApps.AttributionGuard

open Regex

/-! ## `git log | grep -q` -/

def endedFrom : List Char → List (List Char)
  | [] => []
  | character :: rest =>
      if character = '\n' then [] :: endedFrom rest
      else
        match endedFrom rest with
        | [] => []
        | line :: lines => (character :: line) :: lines

private theorem endedFrom_mono {part text : List Char} (early : part <+: text) :
    endedFrom part <+: endedFrom text := by
  induction part generalizing text with
  | nil => exact List.nil_prefix
  | cons character part induction =>
      rcases early with ⟨rest, rfl⟩
      have smaller := induction (List.prefix_append part rest)
      rw [List.cons_append, endedFrom, endedFrom]
      by_cases newline : character = '\n'
      · rw [if_pos newline, if_pos newline]
        exact (List.prefix_cons_inj _).mpr smaller
      · rw [if_neg newline, if_neg newline]
        cases ended : endedFrom part with
        | nil => exact List.nil_prefix
        | cons line lines =>
            rw [ended] at smaller
            rcases smaller with ⟨more, joined⟩
            rw [← joined]
            exact ⟨more, rfl⟩

private theorem endedFrom_lines (text : List Char) : endedFrom text <+: linesFrom text := by
  induction text with
  | nil => exact List.nil_prefix
  | cons character text induction =>
      rw [endedFrom, linesFrom]
      by_cases newline : character = '\n'
      · rw [if_pos newline, if_pos newline]
        exact (List.prefix_cons_inj _).mpr induction
      · rw [if_neg newline, if_neg newline]
        cases ended : endedFrom text with
        | nil => exact List.nil_prefix
        | cons line lines =>
            rw [ended] at induction
            rcases induction with ⟨more, joined⟩
            rw [← joined]
            exact ⟨more, rfl⟩

private theorem linesFrom_ne_nil {text : List Char} (nonempty : text ≠ []) :
    linesFrom text ≠ [] := by
  cases text with
  | nil => exact absurd rfl nonempty
  | cons character rest =>
      rw [linesFrom]
      split
      · exact List.cons_ne_nil _ _
      · split <;> exact List.cons_ne_nil _ _

theorem endedFrom_line (text : List Char) :
    endedFrom (text ++ ['\n']) = linesFrom (text ++ ['\n']) := by
  induction text with
  | nil => rfl
  | cons character text induction =>
      rw [List.cons_append, endedFrom, linesFrom, induction]
      by_cases newline : character = '\n'
      · rw [if_pos newline, if_pos newline]
      · rw [if_neg newline, if_neg newline]
        cases lines : linesFrom (text ++ ['\n']) with
        | nil => exact absurd lines (linesFrom_ne_nil (by simp))
        | cons line lines => rfl

private theorem grepQuiet_of_subset {locale : Locale} {regex : Regex} {some all : List (List Char)}
    (members : some ⊆ all) (found : grepQuiet locale regex some = true) :
    grepQuiet locale regex all = true := by
  rw [grepQuiet_iff] at found ⊢
  rcases found with ⟨line, member, found⟩
  exact ⟨line, members member, found⟩

/-- `grep -q` reads on until a line that it has read to its end is one it looks for. -/
def grepSearch (locale : Locale) (regex : Regex) : Search Char where
  enough text := grepQuiet locale regex (endedFrom text)
  holds text := grepQuiet locale regex (linesFrom text)
  enough_mono early enough := grepQuiet_of_subset (endedFrom_mono early).subset enough
  holds_of_enough enough := grepQuiet_of_subset (endedFrom_lines _).subset enough

def logText (log : List Commit) : List Char := (String.join (log.map hookFormat)).toList

/-! ## The tags -/

/-- A line that git feeds to the hook. A ref can be deleted as well. -/
structure PushedRef where
  tip : Option Commit
  remoteRef : String

def versionOf (remoteRef : String) : Option String :=
  let tags := "refs/tags/v".toList
  let version := remoteRef.toList.drop tags.length
  if tags.isPrefixOf remoteRef.toList ∧ version.head?.any Char.isDigit then
    some (String.ofList version)
  else none

/-- What the hook writes to stderr of the tags, if there is a `release-preflight.sh` and if
there is none. -/
def checkTags (preflight : Option (String → Bool)) : List PushedRef → Ran
  | [] => ⟨[], 0⟩
  | ref :: refs =>
      match versionOf ref.remoteRef with
      | none => checkTags preflight refs
      | some version =>
          match preflight with
          | some passes =>
              if passes version then checkTags preflight refs
              else
                ⟨["",
                  s!"ERROR: refusing to push v{version}. Fix the above, or pass --no-verify if",
                  "you are certain -- but a pushed tag cannot be withdrawn."], 1⟩
          | none =>
              let rest := checkTags preflight refs
              { rest with
                stderr :=
                  s!"pre-push: no etc/release-preflight.sh here, so v{version} is unchecked" ::
                    rest.stderr }

def attributionFound : Ran := ⟨["ERROR: AI attribution found in commits about to be pushed."], 1⟩

def prePushHook (preflight : Option (String → Bool)) (scan : Pipeline Char)
    (pushed : List PushedRef) : Ran :=
  if scan.succeeds then attributionFound else checkTags preflight pushed

theorem checkTags_passes (preflight : Option (String → Bool)) (pushed : List PushedRef) :
    (checkTags preflight pushed).status = 0 ↔
      ∀ passes ∈ preflight, ∀ ref ∈ pushed, ∀ version ∈ versionOf ref.remoteRef,
        passes version = true := by
  induction pushed with
  | nil => simp [checkTags]
  | cons ref pushed induction =>
      rw [checkTags]
      cases tag : versionOf ref.remoteRef with
      | none => simp [induction, tag]
      | some version =>
          cases preflight with
          | none => simpa using induction
          | some passes =>
              by_cases passed : passes version = true
              · simp [passed, induction, tag]
              · simp [passed, tag]

private theorem checkTags_ne_attributionFound (preflight : Option (String → Bool))
    (pushed : List PushedRef) : checkTags preflight pushed ≠ attributionFound := by
  induction pushed with
  | nil =>
      intro same
      cases same
  | cons ref pushed induction =>
      rw [checkTags]
      cases versionOf ref.remoteRef with
      | none => exact induction
      | some version =>
          cases preflight with
          | none =>
              intro same
              have first := congrArg (fun ran => ran.stderr.head?.map fun said =>
                said.toList.head?) same
              simp [attributionFound, toString] at first
          | some passes =>
              by_cases passed : passes version = true
              · simp only [passed, if_true]
                exact induction
              · simp only [passed, Bool.false_eq_true, if_false]
                intro same
                have first := congrArg (fun ran => ran.stderr.head?) same
                simp [attributionFound] at first

/-- The hook refuses a push for what its scan finds, unless `git log` is killed. -/
theorem prePushHook_found_iff {locale : Locale} {log : List Commit} {room : Nat}
    {scan : Pipeline Char}
    (reached : (pipeline (grepSearch locale hookPattern) room (logText log)).Reached
      TransitionSystem.anyStep scan) (ended : scan.Ended)
    (preflight : Option (String → Bool)) (pushed : List PushedRef) :
    prePushHook preflight scan pushed = attributionFound ↔
      (∃ line ∈ linesFrom (logText log), hookPattern.Found locale line) ∧
        scan.writer ≠ .killed := by
  rw [← grepQuiet_iff]
  have succeeds : scan.succeeds = true ↔
      grepQuiet locale hookPattern (linesFrom (logText log)) = true ∧ scan.writer ≠ .killed :=
    Pipeline.succeeds_iff reached ended
  rw [← succeeds, prePushHook]
  split
  · rename_i found
    exact iff_of_true rfl found
  · rename_i nothing
    exact iff_of_false (checkTags_ne_attributionFound preflight pushed) nothing

end AmqpApps.AttributionGuard
