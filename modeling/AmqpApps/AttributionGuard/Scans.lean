import AmqpApps.Foundation.Regex

/-! # The attribution scans

`commit-msg` and `pre-push` run on a developer's machine, `attribution-guard.sh` in CI.
Each has its own copy of what it looks for, and `grep` reads it line by line.
-/

namespace AmqpApps.AttributionGuard

open Regex

/-! ## What is looked for -/

def spaces : Regex := star (one .space)

/-- The expression of `commit-msg`, and that of `pre-push`. -/
def hookPattern : Regex :=
  oneOf
    [literal "claude",
      literal "anthropic",
      inOrder [literal "co-authored-by", spaces, literal ":"],
      inOrder [wordEdge, literal "generated with", wordEdge],
      literal "🤖"]

def pattern : Regex :=
  oneOf
    [literal "claude",
      literal "anthropic",
      inOrder [literal "co-authored-by", spaces, literal ":"],
      inOrder [wordEdge, literal "generated with", wordEdge],
      inOrder [literal "assisted by ", optional (literal "an "), literal "ai"],
      literal "ai-generated",
      literal "🤖"]

def dependabotCoauthor : Regex :=
  inOrder
    [atStart, spaces, literal "co-authored-by:", spaces, literal "dependabot[bot]", spaces,
      literal "<49699333+dependabot[bot]@users.noreply.github.com>", spaces, atEnd]

/-! ## `grep` -/

/-- The lines of a text. A last one need not be ended. -/
def linesFrom : List Char → List (List Char)
  | [] => []
  | character :: rest =>
      if character = '\n' then [] :: linesFrom rest
      else
        match linesFrom rest with
        | [] => [[character]]
        | line :: lines => (character :: line) :: lines

def linesOf (text : String) : List (List Char) := linesFrom text.toList

def grepQuiet (locale : Locale) (regex : Regex) (lines : List (List Char)) : Bool :=
  lines.any fun line => decide (regex.Found locale line)

theorem grepQuiet_iff {locale : Locale} {regex : Regex} {lines : List (List Char)} :
    grepQuiet locale regex lines = true ↔ ∃ line ∈ lines, regex.Found locale line := by
  simp [grepQuiet]

def grepNumbered (locale : Locale) (regex : Regex) (lines : List (List Char)) : List String :=
  ((lines.zipIdx 1).filter fun numbered => decide (regex.Found locale numbered.1)).map
    fun numbered => s!"{numbered.2}:{String.ofList numbered.1}"

def notDependabot (locale : Locale) (lines : List (List Char)) : List (List Char) :=
  lines.filter fun line => !decide (dependabotCoauthor.Found locale line)

/-! ## The scans -/

structure Ident where
  name : String
  email : String
  name_line : '\n' ∉ name.toList
  email_line : '\n' ∉ email.toList

def hexDigits : List Char := "0123456789abcdef".toList

structure Commit where
  hash : String
  body : String
  author : Ident
  committer : Ident
  hash_hex : ∀ character ∈ hash.toList, character ∈ hexDigits

/-- `git log --format='%H%n%B%n%an <%ae>%n%cn <%ce>'` -/
def guardFormat (commit : Commit) : String :=
  s!"{commit.hash}\n{commit.body}\n{commit.author.name} <{commit.author.email}>\n" ++
    s!"{commit.committer.name} <{commit.committer.email}>\n"

/-- `git log --format='%B%n%an%n%ae%n%cn%n%ce'` -/
def hookFormat (commit : Commit) : String :=
  s!"{commit.body}\n{commit.author.name}\n{commit.author.email}\n" ++
    s!"{commit.committer.name}\n{commit.committer.email}\n"

structure Ran where
  stderr : List String
  status : Nat
deriving DecidableEq

def commitMsg (locale : Locale) (message : String) : Ran :=
  if grepQuiet locale hookPattern (linesOf message) then
    ⟨"ERROR: AI attribution is not permitted in commit messages." ::
      grepNumbered locale hookPattern (linesOf message), 1⟩
  else ⟨[], 0⟩

def report (what : String) : String := s!"ATTRIBUTION VIOLATION — {what}"

/-- `attribution-guard.sh --msg-file`. -/
def scanMessage (locale : Locale) (message : String) : Ran :=
  let lines := notDependabot locale (linesOf message)
  if grepQuiet locale pattern lines then
    ⟨report "commit message contains forbidden attribution" ::
      grepNumbered locale pattern lines, 1⟩
  else ⟨[], 0⟩

def scanRange (locale : Locale) (range : String) (commits : List Commit) : List String :=
  let hits := grepNumbered locale pattern
    (notDependabot locale (linesOf (String.join (commits.map guardFormat))))
  if hits ≠ [] then report s!"commit history in range '{range}'" :: hits else []

end AmqpApps.AttributionGuard
