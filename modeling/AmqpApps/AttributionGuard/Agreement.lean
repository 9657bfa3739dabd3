import AmqpApps.AttributionGuard.PrePush
import AmqpApps.Foundation.RegexParts

/-! # Where the hooks and the guard disagree

The guard looks for two things more than the hooks do, and passes over the lines that
Dependabot's merges carry. Where `pre-push` has found something and `git log` is killed for
writing on, it lets the commits through.
-/

namespace AmqpApps.AttributionGuard

open Regex

def guardOnly : Regex :=
  oneOf
    [inOrder [literal "assisted by ", optional (literal "an "), literal "ai"],
      literal "ai-generated"]

/-- There is something for the guard, and nothing for the hooks. -/
structure HooksMiss (locale : Locale) (lines : List (List Char)) : Prop where
  present : ∃ line ∈ lines, guardOnly.Found locale line
  nothing : ¬∃ line ∈ lines, hookPattern.Found locale line

/-- There is a line of Dependabot's, and nothing in the others. -/
structure GuardSpares (locale : Locale) (lines : List (List Char)) : Prop where
  present : ∃ line ∈ lines, dependabotCoauthor.Found locale line
  nothing : ¬∃ line ∈ lines,
    ¬dependabotCoauthor.Found locale line ∧ pattern.Found locale line

/-! ## The expressions -/

variable {locale : Locale}

private theorem found_pattern {line : List Char} :
    pattern.Found locale line ↔ hookPattern.Found locale line ∨ guardOnly.Found locale line := by
  rw [hookPattern, guardOnly, ← found_oneOf_append]
  exact ⟨found_oneOf_of_subset (by decide +kernel), found_oneOf_of_subset (by decide +kernel)⟩

private theorem found_hookPattern_of_dependabot {line : List Char}
    (dependabot : dependabotCoauthor.Found locale line) : hookPattern.Found locale line := by
  rcases dependabot with ⟨last, first, reached, start, anchored, name, spaced, colon, titled, -⟩
  have parts : "co-authored-by:" = "co-authored-by" ++ ":" := by decide +kernel
  rw [parts] at titled
  rcases matches_literal_append.mp titled with ⟨title, authored, punctuated⟩
  have holds : (inOrder [literal "co-authored-by", spaces, literal ":"]).Matches locale name
      colon := ⟨title, authored, title, .refl, colon, punctuated, rfl⟩
  have begun : anything.Matches locale ⟨none, line⟩ name :=
    (reached.trans anchored.anything).trans spaced.anything
  exact found_oneOf.mpr ⟨_, List.mem_of_elem_eq_true rfl, colon, name, begun, holds⟩

private theorem hexDigits_ascii : ∀ character ∈ hexDigits, character.toNat < 128 := by
  have all : hexDigits.all (fun character => decide (character.toNat < 128)) = true := by
    decide +kernel
  intro character member
  exact of_decide_eq_true (List.all_eq_true.mp all character member)

private theorem not_found_hash {hash : List Char}
    (hex : ∀ character ∈ hash, character ∈ hexDigits) :
    ¬hookPattern.Found locale hash := by
  apply not_found_of_alphabet _ hex
  rw [possible_posix (by decide +kernel) hexDigits_ascii]
  decide +kernel

private theorem found_ident (name email : List Char) :
    hookPattern.Found locale (name ++ ' ' :: '<' :: (email ++ ['>'])) ↔
      hookPattern.Found locale name ∨ hookPattern.Found locale email := by
  have free : hookPattern.anchorFree = true := by decide +kernel
  have plain : hookPattern.plain = true := by decide +kernel
  have reading : hookPattern.nullable = false := by decide +kernel
  have opens : hookPattern.reads locale '<' = false := by
    rw [reads_posix plain (by decide)]
    decide +kernel
  have closes : hookPattern.reads locale '>' = false := by
    rw [reads_posix plain (by decide)]
    decide +kernel
  have blank : hookPattern.endsIn locale ' ' = false := by
    rw [endsIn_posix plain (by decide)]
    decide +kernel
  have apart : ∀ separator ∈ [' ', '<', '>'], locale.isWord separator = false := by
    intro separator member
    simp only [List.mem_cons, List.not_mem_nil, or_false] at member
    rcases member with rfl | rfl | rfl
    · exact locale.isWord_ascii ' ' (by decide)
    · exact locale.isWord_ascii '<' (by decide)
    · exact locale.isWord_ascii '>' (by decide)
  have whole : name ++ ' ' :: '<' :: (email ++ ['>']) =
      (name ++ [' ']) ++ '<' :: (email ++ '>' :: []) := by simp
  rw [whole, found_separated free (apart '<' (by simp)) opens,
    found_concat free (apart ' ' (by simp)) reading blank,
    found_separated free (apart '>' (by simp)) closes, or_iff_left (not_found_nil reading)]

/-! ## The lines -/

private theorem linesFrom_line {line : List Char} (one : '\n' ∉ line) (rest : List Char) :
    linesFrom (line ++ '\n' :: rest) = line :: linesFrom rest := by
  induction line with
  | nil => rfl
  | cons character line induction =>
      rw [List.mem_cons, not_or] at one
      rw [List.cons_append, linesFrom, if_neg (Ne.symm one.1), induction one.2]

private theorem linesFrom_append (text rest : List Char) :
    linesFrom (text ++ '\n' :: rest) = linesFrom (text ++ ['\n']) ++ linesFrom rest := by
  induction text with
  | nil => rfl
  | cons character text induction =>
      rw [List.cons_append, List.cons_append, linesFrom, linesFrom]
      by_cases newline : character = '\n'
      · rw [if_pos newline, if_pos newline, induction]
        rfl
      · rw [if_neg newline, if_neg newline, induction]
        cases ended : linesFrom (text ++ ['\n']) with
        | nil =>
            cases text with
            | nil => cases ended
            | cons next text =>
                simp only [List.cons_append, linesFrom] at ended
                split at ended
                · cases ended
                · split at ended <;> cases ended
        | cons line lines => rfl

def Ident.line (ident : Ident) : List Char :=
  ident.name.toList ++ ' ' :: '<' :: (ident.email.toList ++ ['>'])

private theorem Ident.line_line (ident : Ident) : '\n' ∉ ident.line := by
  simp [line, ident.name_line, ident.email_line]

private theorem Commit.hash_line (commit : Commit) : '\n' ∉ commit.hash.toList := by
  intro member
  exact absurd (commit.hash_hex '\n' member) (by decide +kernel)

def bodyLines (commit : Commit) : List (List Char) :=
  linesFrom (commit.body.toList ++ ['\n'])

private theorem linesFrom_guardFormat (commit : Commit) (rest : List Char) :
    linesFrom ((guardFormat commit).toList ++ rest) =
      commit.hash.toList :: (bodyLines commit ++
        commit.author.line :: commit.committer.line :: linesFrom rest) := by
  have text : (guardFormat commit).toList ++ rest =
      commit.hash.toList ++ '\n' :: (commit.body.toList ++ '\n' ::
        (commit.author.line ++ '\n' :: (commit.committer.line ++ '\n' :: rest))) := by
    simp [guardFormat, Ident.line, toString]
  rw [text, linesFrom_line commit.hash_line, linesFrom_append,
    linesFrom_line commit.author.line_line, linesFrom_line commit.committer.line_line]
  rfl

private theorem linesFrom_hookFormat (commit : Commit) (rest : List Char) :
    linesFrom ((hookFormat commit).toList ++ rest) =
      bodyLines commit ++ commit.author.name.toList :: commit.author.email.toList ::
        commit.committer.name.toList :: commit.committer.email.toList :: linesFrom rest := by
  have text : (hookFormat commit).toList ++ rest =
      commit.body.toList ++ '\n' :: (commit.author.name.toList ++ '\n' ::
        (commit.author.email.toList ++ '\n' :: (commit.committer.name.toList ++ '\n' ::
          (commit.committer.email.toList ++ '\n' :: rest)))) := by
    simp [hookFormat, toString]
  rw [text, linesFrom_append, linesFrom_line commit.author.name_line,
    linesFrom_line commit.author.email_line, linesFrom_line commit.committer.name_line,
    linesFrom_line commit.committer.email_line]
  rfl

def guardLines (commits : List Commit) : List (List Char) :=
  linesOf (String.join (commits.map guardFormat))

def hookLines (commits : List Commit) : List (List Char) := linesFrom (logText commits)

private theorem found_hookLines (commits : List Commit) :
    (∃ line ∈ hookLines commits, hookPattern.Found locale line) ↔
      ∃ line ∈ guardLines commits, hookPattern.Found locale line := by
  induction commits with
  | nil => exact Iff.rfl
  | cons commit commits induction =>
      have hashless : ¬hookPattern.Found locale commit.hash.toList :=
        not_found_hash commit.hash_hex
      simp only [hookLines, logText, guardLines, linesOf, List.map_cons, String.join_cons,
        String.toList_append, linesFrom_hookFormat, linesFrom_guardFormat] at induction ⊢
      simp only [List.mem_append, List.mem_cons, or_and_right, exists_or, exists_eq_left,
        induction, Ident.line, found_ident, hashless, false_or, or_assoc]

def Attributed (locale : Locale) (commit : Commit) : Prop :=
  ∃ line ∈ linesOf (hookFormat commit), hookPattern.Found locale line

private theorem logText_append (before after : List Commit) :
    logText (before ++ after) = logText before ++ logText after := by
  simp [logText, String.join_append]

private theorem logText_line (before : List Commit) (commit : Commit) :
    ∃ text, logText (before ++ [commit]) = text ++ ['\n'] := by
  have ended : logText [commit] =
      (commit.body.toList ++ '\n' :: (commit.author.name.toList ++ '\n' ::
        (commit.author.email.toList ++ '\n' :: (commit.committer.name.toList ++ '\n' ::
          commit.committer.email.toList)))) ++ ['\n'] := by
    simp [logText, hookFormat, toString]
  rw [logText_append, ended, ← List.append_assoc]
  exact ⟨_, rfl⟩

private theorem linesFrom_logText (commit : Commit) (log : List Commit) :
    linesFrom (logText (commit :: log)) =
      linesOf (hookFormat commit) ++ linesFrom (logText log) := by
  have text : logText (commit :: log) = (hookFormat commit).toList ++ logText log := by
    simp [logText]
  have own := linesFrom_hookFormat commit []
  rw [List.append_nil] at own
  rw [text, linesFrom_hookFormat, linesOf, own]
  simp [linesFrom]

theorem found_logText (log : List Commit) :
    grepQuiet locale hookPattern (linesFrom (logText log)) = true ↔
      ∃ commit ∈ log, Attributed locale commit := by
  rw [grepQuiet_iff]
  induction log with
  | nil => simp [logText, linesFrom]
  | cons commit log induction =>
      rw [linesFrom_logText]
      simp only [List.mem_append, or_and_right, exists_or, induction, List.mem_cons,
        exists_eq_left, Attributed]

/-- `git log` is killed where more follows a commit than the pipe can hold twice. -/
theorem killed_of_attributed {log : List Commit} {room : Nat} {scan : Pipeline Char}
    (reached : (pipeline (grepSearch locale hookPattern) room (logText log)).Reached
      TransitionSystem.anyStep scan) (ended : scan.Ended) {before after : List Commit}
    {commit : Commit} (listed : log = before ++ commit :: after)
    (attributed : Attributed locale commit) (long : 2 * room < (logText after).length) :
    scan.writer = .killed := by
  rcases logText_line before commit with ⟨text, lined⟩
  have whole : logText (before ++ [commit]) ++ logText after = logText log := by
    rw [← logText_append, listed, List.append_assoc]
    rfl
  have enough : grepQuiet locale hookPattern (endedFrom (logText (before ++ [commit]))) =
      true := by
    rw [lined, endedFrom_line, ← lined, found_logText]
    exact ⟨commit, by simp, attributed⟩
  exact Pipeline.killed_of_long reached ended whole enough long

/-! ## The scans -/

private theorem grepNumbered_ne_nil {regex : Regex} {lines : List (List Char)} :
    grepNumbered locale regex lines ≠ [] ↔ ∃ line ∈ lines, regex.Found locale line := by
  rw [grepNumbered, ← List.isEmpty_eq_false_iff, List.isEmpty_map,
    List.isEmpty_eq_false_iff_exists_mem]
  constructor
  · intro hits
    rcases hits with ⟨numbered, hit⟩
    rcases List.mem_filter.mp hit with ⟨member, found⟩
    exact ⟨numbered.1, List.fst_mem_of_mem_zipIdx member, of_decide_eq_true found⟩
  · intro finding
    rcases finding with ⟨line, member, found⟩
    rw [← List.zipIdx_map_fst 1 lines] at member
    rcases List.mem_map.mp member with ⟨numbered, counted, rfl⟩
    exact ⟨numbered, List.mem_filter.mpr ⟨counted, decide_eq_true found⟩⟩

private theorem mem_notDependabot {lines : List (List Char)} {line : List Char} :
    line ∈ notDependabot locale lines ↔
      line ∈ lines ∧ ¬dependabotCoauthor.Found locale line := by
  simp [notDependabot]

private theorem commitMsg_accepts (message : String) :
    (commitMsg locale message).status = 0 ↔
      ¬∃ line ∈ linesOf message, hookPattern.Found locale line := by
  rw [commitMsg, ← grepQuiet_iff]
  split <;> simp_all

private theorem found_notDependabot {lines : List (List Char)} :
    (∃ line ∈ notDependabot locale lines, pattern.Found locale line) ↔
      ∃ line ∈ lines, ¬dependabotCoauthor.Found locale line ∧ pattern.Found locale line := by
  simp only [mem_notDependabot, and_assoc]

private theorem scanMessage_accepts (message : String) :
    (scanMessage locale message).status = 0 ↔
      ¬∃ line ∈ linesOf message,
        ¬dependabotCoauthor.Found locale line ∧ pattern.Found locale line := by
  rw [scanMessage, ← found_notDependabot, ← grepQuiet_iff]
  split <;> simp_all

private theorem prePush_refuses {commits : List Commit} {room : Nat} {scan : Pipeline Char}
    (reached : (pipeline (grepSearch locale hookPattern) room (logText commits)).Reached
      TransitionSystem.anyStep scan) (ended : scan.Ended)
    (preflight : Option (String → Bool)) (pushed : List PushedRef) :
    prePushHook preflight scan pushed = attributionFound ↔
      (∃ line ∈ guardLines commits, hookPattern.Found locale line) ∧ scan.writer ≠ .killed := by
  rw [← found_hookLines]
  exact prePushHook_found_iff reached ended preflight pushed

private theorem scanRange_reports (range : String) (commits : List Commit) :
    scanRange locale range commits ≠ [] ↔
      ∃ line ∈ guardLines commits,
        ¬dependabotCoauthor.Found locale line ∧ pattern.Found locale line := by
  rw [← found_notDependabot, ← grepNumbered_ne_nil, scanRange, guardLines]
  simp

/-- Where the two findings are the same. -/
theorem findings_agree_iff (lines : List (List Char)) :
    ((∃ line ∈ lines, hookPattern.Found locale line) ↔
      ∃ line ∈ lines, ¬dependabotCoauthor.Found locale line ∧ pattern.Found locale line) ↔
    ¬HooksMiss locale lines ∧ ¬GuardSpares locale lines := by
  constructor
  · intro agree
    constructor
    · intro missed
      rcases missed with ⟨⟨line, member, found⟩, nothing⟩
      have notDependabot : ¬dependabotCoauthor.Found locale line := fun dependabot =>
        nothing ⟨line, member, found_hookPattern_of_dependabot dependabot⟩
      exact nothing (agree.mpr ⟨line, member, notDependabot, found_pattern.mpr (.inr found)⟩)
    · intro spared
      rcases spared with ⟨⟨line, member, dependabot⟩, nothing⟩
      exact nothing (agree.mp ⟨line, member, found_hookPattern_of_dependabot dependabot⟩)
  · intro neither
    rcases neither with ⟨notMissed, notSpared⟩
    constructor
    · intro finding
      rcases finding with ⟨line, member, found⟩
      rcases Classical.em (dependabotCoauthor.Found locale line) with dependabot | dependabot
      · by_contra nothing
        exact notSpared ⟨⟨line, member, dependabot⟩, nothing⟩
      · exact ⟨line, member, dependabot, found_pattern.mpr (.inl found)⟩
    · intro finding
      rcases finding with ⟨line, member, -, found⟩
      rcases found_pattern.mp found with hook | only
      · exact ⟨line, member, hook⟩
      · by_contra nothing
        exact notMissed ⟨⟨line, member, only⟩, nothing⟩

private theorem guardSpares_iff (lines : List (List Char)) :
    GuardSpares locale lines ↔
      (∃ line ∈ lines, hookPattern.Found locale line) ∧
        ¬∃ line ∈ lines, ¬dependabotCoauthor.Found locale line ∧ pattern.Found locale line := by
  constructor
  · rintro ⟨⟨line, member, dependabot⟩, nothing⟩
    exact ⟨⟨line, member, found_hookPattern_of_dependabot dependabot⟩, nothing⟩
  · rintro ⟨⟨line, member, found⟩, nothing⟩
    refine ⟨⟨line, member, ?_⟩, nothing⟩
    by_contra other
    exact nothing ⟨line, member, other, found_pattern.mpr (.inl found)⟩

/-- The scan of a push and that of a range, by how `git log` has ended. -/
theorem scans_agree_iff {commits : List Commit} {room : Nat} {scan : Pipeline Char}
    (reached : (pipeline (grepSearch locale hookPattern) room (logText commits)).Reached
      TransitionSystem.anyStep scan) (ended : scan.Ended) (range : String)
    (preflight : Option (String → Bool)) (pushed : List PushedRef) :
    (prePushHook preflight scan pushed = attributionFound ↔
        scanRange locale range commits ≠ []) ↔
      if scan.writer = .killed then GuardSpares locale (guardLines commits)
      else ¬HooksMiss locale (guardLines commits) ∧ ¬GuardSpares locale (guardLines commits) := by
  rw [prePush_refuses reached ended, scanRange_reports]
  split
  · rename_i killed
    have found := (found_hookLines commits).mp
      (grepQuiet_iff.mp (Pipeline.holds_of_killed reached killed))
    simp only [killed, ne_eq, not_true_eq_false, and_false, false_iff, guardSpares_iff]
    exact (and_iff_right found).symm
  · rename_i alive
    rw [and_iff_left alive]
    exact findings_agree_iff (guardLines commits)

/-- The hooks and the guard agree on a message but where the hooks miss what the guard looks
for, or the guard spares Dependabot; so they do on a list of commits, unless `git log` is killed.
Then nothing is said of the commits, and so nothing should have been found in them. It is killed
only where the commits go on after a line that `grep` finds, and always where they go on for more
than the pipe can hold twice. -/
theorem hooks_agree_with_guard_iff (locale : Locale) :
    (∀ message,
      ((commitMsg locale message).status = 0 ↔ (scanMessage locale message).status = 0) ↔
        ¬HooksMiss locale (linesOf message) ∧ ¬GuardSpares locale (linesOf message)) ∧
    ∀ commits room scan,
      (pipeline (grepSearch locale hookPattern) room (logText commits)).Reached
        TransitionSystem.anyStep scan → scan.Ended →
      (∀ range preflight pushed,
        (prePushHook preflight scan pushed = attributionFound ↔
            scanRange locale range commits ≠ []) ↔
          if scan.writer = .killed then GuardSpares locale (guardLines commits)
          else
            ¬HooksMiss locale (guardLines commits) ∧
              ¬GuardSpares locale (guardLines commits)) ∧
      (scan.writer = .killed → ∃ part, part <+: logText commits ∧ part ≠ logText commits ∧
        ∃ line ∈ endedFrom part, hookPattern.Found locale line) ∧
      ∀ before commit after, commits = before ++ commit :: after → Attributed locale commit →
        2 * room < (logText after).length → scan.writer = .killed := by
  constructor
  · intro message
    rw [commitMsg_accepts, scanMessage_accepts, not_iff_not]
    exact findings_agree_iff (linesOf message)
  · intro commits room scan reached ended
    refine ⟨?_, ?_, ?_⟩
    · intro range preflight pushed
      exact scans_agree_iff reached ended range preflight pushed
    · intro killed
      rcases Pipeline.enough_of_killed reached killed with ⟨part, early, short, enough⟩
      exact ⟨part, early, short, grepQuiet_iff.mp enough⟩
    · intro before commit after listed attributed long
      exact killed_of_attributed reached ended listed attributed long

def generatedMessage : String := "Parser, AI-generated\n"

def dependabotMessage : String :=
  "Co-authored-by: dependabot[bot] <49699333+dependabot[bot]@users.noreply.github.com>\n"

def commitOf (body : String) : Commit where
  hash := "0a1b2c3d"
  body := body
  author := ⟨"dev", "dev@example.org", by decide +kernel, by decide +kernel⟩
  committer := ⟨"GitHub", "noreply@github.com", by decide +kernel, by decide +kernel⟩
  hash_hex := by
    intro character member
    have all : "0a1b2c3d".toList.all hexDigits.contains = true := by decide +kernel
    exact List.contains_iff_mem.mp (List.all_eq_true.mp all character member)

def twoMessages : List Commit := [commitOf "Generated with care\n", commitOf "Parser\n"]

def leave (all : Bool) : List PipeStep :=
  let first := (logText (twoMessages.take 1)).length
  if all then [.write (logText twoMessages).length, .read first, .close, .leave]
  else [.write first, .read first, .leave, .kill]

def scanOf (steps : List PipeStep) : Option (Pipeline Char) :=
  (pipeline (grepSearch .posix hookPattern) 65536 (logText twoMessages)).run
    TransitionSystem.anyStep (.start (logText twoMessages)) steps

/-- Of the same two commits, what the hook says and what the guard says agree in the one run and
not in the other. -/
theorem agreement_by_schedule :
    (∃ scan ∈ scanOf (leave true), scan.Ended ∧
      (prePushHook none scan [] = attributionFound ↔
        scanRange .posix "HEAD" twoMessages ≠ [])) ∧
    ∃ scan ∈ scanOf (leave false), scan.Ended ∧
      ¬(prePushHook none scan [] = attributionFound ↔
        scanRange .posix "HEAD" twoMessages ≠ []) := by
  have sound := (hooks_agree_with_guard_iff .posix).2 twoMessages 65536
  have found : ∃ line ∈ guardLines twoMessages, ¬dependabotCoauthor.Found .posix line ∧
      hookPattern.Found .posix line :=
    ⟨"Generated with care".toList, by decide +kernel, by decide +kernel, by decide +kernel⟩
  have spares : ¬GuardSpares .posix (guardLines twoMessages) := by
    rcases found with ⟨line, member, other, found⟩
    exact fun spared => spared.nothing ⟨line, member, other, found_pattern.mpr (.inl found)⟩
  have misses : ¬HooksMiss .posix (guardLines twoMessages) := by
    rcases found with ⟨line, member, -, found⟩
    exact fun missed => missed.nothing ⟨line, member, found⟩
  have ends (all : Bool) : (scanOf (leave all)).any (fun scan =>
      decide (scan.Ended ∧ (scan.writer = .killed ↔ all = false))) = true := by
    cases all <;> decide +kernel
  constructor
  · rcases (Option.any_eq_true _ _).mp (ends true) with ⟨scan, ran, holds⟩
    rcases of_decide_eq_true holds with ⟨ended, returned⟩
    have agree := (sound scan (.of_run (leave true) (.start rfl) ran) ended).1 "HEAD" none []
    rw [if_neg (by simp [returned])] at agree
    exact ⟨scan, ran, ended, agree.mpr ⟨misses, spares⟩⟩
  · rcases (Option.any_eq_true _ _).mp (ends false) with ⟨scan, ran, holds⟩
    rcases of_decide_eq_true holds with ⟨ended, killed⟩
    have agree := (sound scan (.of_run (leave false) (.start rfl) ran) ended).1 "HEAD" none []
    rw [if_pos (killed.mpr rfl)] at agree
    exact ⟨scan, ran, ended, fun same => spares (agree.mp same)⟩

/-- What passes here and fails there, and the other way round; and a push that the scan lets
through since `git log` is killed. -/
theorem hooks_and_guard_disagree :
    ((commitMsg .posix generatedMessage).status = 0 ∧
      (scanMessage .posix generatedMessage).status = 1) ∧
    ((commitMsg .posix dependabotMessage).status = 1 ∧
      (scanMessage .posix dependabotMessage).status = 0) ∧
    (scanOf (leave false)).any (fun scan =>
      decide scan.Ended && decide ((prePushHook none scan []).status = 0)) = true ∧
    scanRange .posix "HEAD" twoMessages ≠ [] := by
  decide +kernel

end AmqpApps.AttributionGuard
