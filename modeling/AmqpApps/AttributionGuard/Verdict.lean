import AmqpApps.AttributionGuard.Agreement

/-! # What `pre-push` lets through

The commits that the hook scans are those of the branch that is checked out, whatever is pushed.
-/

namespace AmqpApps.AttributionGuard

open Regex

structure Clone where
  parents : Commit → List Commit
  head : Commit
  /-- `git rev-parse --abbrev-ref HEAD` -/
  branch : String
  /-- What is known of the branches of `origin`. -/
  origin : String → Option Commit

namespace Clone

def Reaches (clone : Clone) : Commit → Commit → Prop :=
  Relation.ReflTransGen fun later earlier => earlier ∈ clone.parents later

/-- Where the range begins, if not with the first commit of all. -/
def base (clone : Clone) : Option Commit :=
  if (clone.origin clone.branch).isSome then clone.origin clone.branch
  else if (clone.origin "HEAD").isSome then clone.origin "HEAD"
  else clone.origin "main"

def InRange (clone : Clone) (commit : Commit) : Prop :=
  clone.Reaches clone.head commit ∧ ∀ base ∈ clone.base, ¬clone.Reaches base commit

end Clone

variable {locale : Locale}

private theorem found_range {clone : Clone} {log : List Commit}
    (lists : ∀ commit, commit ∈ log ↔ clone.InRange commit) :
    (∃ line ∈ linesFrom (logText log), hookPattern.Found locale line) ↔
      ∃ commit, clone.InRange commit ∧ Attributed locale commit := by
  rw [← grepQuiet_iff, found_logText]
  exact exists_congr fun commit => and_congr_left fun _ => lists commit

private theorem prePushHook_passes {clone : Clone} {log : List Commit}
    (lists : ∀ commit, commit ∈ log ↔ clone.InRange commit) {room : Nat} {scan : Pipeline Char}
    (reached : (pipeline (grepSearch locale hookPattern) room (logText log)).Reached
      TransitionSystem.anyStep scan) (ended : scan.Ended)
    (preflight : Option (String → Bool)) (pushed : List PushedRef) :
    (prePushHook preflight scan pushed).status = 0 ↔
      (scan.writer = .killed ∨ ∀ commit, clone.InRange commit → ¬Attributed locale commit) ∧
      ∀ passes ∈ preflight, ∀ ref ∈ pushed, ∀ version ∈ versionOf ref.remoteRef,
        passes version = true := by
  have found := prePushHook_found_iff reached ended preflight pushed
  rw [found_range lists] at found
  by_cases refused : prePushHook preflight scan pushed = attributionFound
  · rcases found.mp refused with ⟨⟨commit, listed, attributed⟩, alive⟩
    rw [refused]
    constructor
    · intro accepted
      cases accepted
    · rintro ⟨gone | clean, -⟩
      · exact absurd gone alive
      · exact absurd attributed (clean commit listed)
  · have checked : prePushHook preflight scan pushed = checkTags preflight pushed := by
      rw [prePushHook] at refused ⊢
      split at refused
      · exact absurd rfl refused
      · rename_i nothing
        rw [if_neg nothing]
    rw [checked, checkTags_passes]
    refine (and_iff_right ?_).symm
    by_cases killed : scan.writer = .killed
    · exact .inl killed
    · refine .inr ?_
      intro commit listed attributed
      exact refused (found.mpr ⟨⟨commit, listed, attributed⟩, killed⟩)

/-- The hook accepts a push where `git log` was killed for writing on, or nothing is to be found
in the commits of its range, and every version tag passes; of the history of the branch that is
checked out, what is new is in the range. `git log` is killed only where there is something to
be found, and always where more than the pipe can hold twice follows the commit in which it is
found. -/
theorem pre_push_verdict {clone : Clone} {log : List Commit}
    (lists : ∀ commit, commit ∈ log ↔ clone.InRange commit) {room : Nat} {scan : Pipeline Char}
    (reached : (pipeline (grepSearch locale hookPattern) room (logText log)).Reached
      TransitionSystem.anyStep scan) (ended : scan.Ended)
    (preflight : Option (String → Bool)) (pushed : List PushedRef) :
    ((prePushHook preflight scan pushed).status = 0 ↔
      (scan.writer = .killed ∨ ∀ commit, clone.InRange commit → ¬Attributed locale commit) ∧
      ∀ passes ∈ preflight, ∀ ref ∈ pushed, ∀ version ∈ versionOf ref.remoteRef,
        passes version = true) ∧
    ((prePushHook preflight scan pushed).status = 0 → scan.writer = .returned →
      ∀ ref ∈ pushed, ∀ tip ∈ ref.tip, clone.Reaches clone.head tip →
        ∀ commit, clone.Reaches tip commit → (∀ base ∈ clone.base, ¬clone.Reaches base commit) →
          ¬Attributed locale commit) ∧
    (scan.writer = .killed → ∃ commit, clone.InRange commit ∧ Attributed locale commit) ∧
    ∀ before commit after, log = before ++ commit :: after → Attributed locale commit →
      2 * room < (logText after).length → scan.writer = .killed := by
  have passes := prePushHook_passes lists reached ended preflight pushed
  refine ⟨passes, ?_, ?_, ?_⟩
  · intro accepted returned ref _ tip _ own commit leaves new
    rcases (passes.mp accepted).1 with killed | clean
    · rw [returned] at killed
      cases killed
    · exact clean commit ⟨own.trans leaves, new⟩
  · intro killed
    exact (found_range lists).mp (grepQuiet_iff.mp (Pipeline.holds_of_killed reached killed))
  · intro before commit after listed attributed long
    exact killed_of_attributed reached ended listed attributed long

def twoCommits : Clone where
  parents commit := if commit.body = "Parser\n" then [] else [commitOf "Parser\n"]
  head := commitOf "Generated with care\n"
  branch := "parser"
  origin _ := none

private theorem mem_twoCommits (commit : Commit) :
    commit ∈ [commitOf "Generated with care\n", commitOf "Parser\n"] ↔
      twoCommits.InRange commit := by
  have root : ∀ commit, twoCommits.Reaches (commitOf "Parser\n") commit →
      commit = commitOf "Parser\n" := by
    intro commit reaches
    rcases Relation.ReflTransGen.cases_head reaches with same | ⟨parent, member, -⟩
    · exact same.symm
    · cases member
  have single : twoCommits.parents twoCommits.head = [commitOf "Parser\n"] := by
    simp [twoCommits, commitOf]
  constructor
  · intro member
    refine ⟨?_, by rintro base ⟨⟩⟩
    rcases List.mem_cons.mp member with same | other
    · rw [same]
      exact .refl
    · rw [List.mem_singleton.mp other]
      exact .single (by rw [single]; exact List.mem_singleton_self _)
  · rintro ⟨reaches, -⟩
    rcases Relation.ReflTransGen.cases_head reaches with same | ⟨parent, member, rest⟩
    · rw [← same]
      exact List.mem_cons_self
    · rw [single] at member
      rw [List.mem_singleton.mp member] at rest
      rw [root commit rest]
      exact List.mem_cons_of_mem _ List.mem_cons_self

/-- `grep` leaves when it has read the first of them, and `git log` writes on: the push is
accepted. -/
theorem second_commit_lets_first_through :
    ∃ scan : Pipeline Char, (prePushHook none scan []).status = 0 ∧
      ∃ commit, twoCommits.InRange commit ∧ Attributed .posix commit := by
  let printed := (logText [commitOf "Generated with care\n"]).length
  have reached := TransitionSystem.Reached.of_isSome_run
    (pipeline (grepSearch .posix hookPattern) 65536
      (logText [commitOf "Generated with care\n", commitOf "Parser\n"]))
    TransitionSystem.anyStep (.start rfl) [.write printed, .read printed, .leave, .kill]
    (by decide +kernel)
  have verdict := pre_push_verdict mem_twoCommits reached (by decide +kernel) none []
  exact ⟨_, verdict.1.mpr ⟨.inl (by decide +kernel), by simp⟩,
    verdict.2.2.1 (by decide +kernel)⟩

end AmqpApps.AttributionGuard
