import Idryx.Remediation.Artifacts
import Idryx.Ingest.Egress

/-!
# The pull request

`internal/enforce/pr.go`: the artifacts on a branch of their own, proposed as a pull request. Any step may fail.

* `Cmd`, `Runner`: the commands that are run, and what becomes of them;
* `Repo`: the branches, and what is changed in the working tree; `Repo.effect`: what a command does that succeeds;
* `preflight`, `propose`, `openPR`;
* `Passes`: the preflight lets the call through; `Completes`: no step after the checkout fails;
* `LeavesNoTrace`: a call that fails leaves the repository as it was, and can be repeated;
* **`leavesNoTrace_iff`**: it does unless a step fails after the branch was created.
-/

namespace Idryx.Enforce

open Ingest (intText)
open LastWrite (Dict)
open Remediation (Recommendation Disk writeArtifacts)

/-! ## Commands -/

/-- The commands that are run. -/
inductive Cmd where
  | revParse
  | status
  | authStatus
  | checkout (branch : GoString)
  | add (dir : GoString)
  | commit (title : GoString)
  | push (branch : GoString)
  | prCreate (base head title body : GoString)
  deriving DecidableEq

/-- The program and its arguments. -/
def Cmd.argv : Cmd → List GoString
  | .revParse => ["git", "rev-parse", "--is-inside-work-tree"]
  | .status => ["git", "status", "--porcelain"]
  | .authStatus => ["gh", "auth", "status"]
  | .checkout branch => ["git", "checkout", "-b", branch]
  | .add dir => ["git", "add", dir]
  | .commit title => ["git", "commit", "-m", title]
  | .push branch => ["git", "push", "-u", "origin", branch]
  | .prCreate base head title body =>
    ["gh", "pr", "create", "--base", base, "--head", head, "--title", title, "--body", body]

/-- An error, and what the command printed. -/
structure Failure where
  err : GoString
  out : GoString

/-- `%s: %w\n%s`. -/
def failed (what : GoString) (f : Failure) : GoString := what ++ ": " ++ f.err ++ "\n" ++ f.out

/-- What becomes of the programs that a call runs, each of them at most once, by their arguments: one fails, or git
refuses it, or it prints something. -/
structure Runner where
  failure : List GoString → Option Failure
  refused : List GoString → Failure
  printed : List GoString → GoString

namespace Runner

/-- How a command fails, what is said of it, and what it prints. -/
def fails (r : Runner) (c : Cmd) : Option Failure := r.failure c.argv

@[inherit_doc fails]
def refusal (r : Runner) (c : Cmd) : Failure := r.refused c.argv

@[inherit_doc fails]
def output (r : Runner) (c : Cmd) : GoString := r.printed c.argv

end Runner

/-! ## The repository -/

/-- A repository: its branches, the files of the current one, and the changes to them. -/
structure Repo where
  branch : GoString
  branches : List GoString
  tip : Dict GoString GoString
  staged : List (GoString × GoString)
  unstaged : List (GoString × GoString)
  current : branch ∈ branches

namespace Repo

/-- `git status` has nothing to say. -/
def Clean (repo : Repo) : Prop := repo.staged = [] ∧ repo.unstaged = []

/-- The line of a file that is staged. -/
def stagedLine (repo : Repo) (file : GoString × GoString) : GoString :=
  (if (repo.tip file.1).isSome then ("M  " : GoString) else "A  ") ++ file.1 ++ "\n"

/-- The line of a file that is changed or new. -/
def statusLine (repo : Repo) (file : GoString × GoString) : GoString :=
  (if (repo.tip file.1).isSome then (" M " : GoString) else "?? ") ++ file.1 ++ "\n"

/-- What `git status --porcelain` prints. -/
def porcelain (repo : Repo) : GoString :=
  repo.staged.flatMap repo.stagedLine ++ repo.unstaged.flatMap repo.statusLine

/-- Whether git does it: no branch is created twice, and no commit is empty. -/
def allows (repo : Repo) : Cmd → Bool
  | .checkout branch => branch ∉ repo.branches
  | .commit _ => !repo.staged.isEmpty
  | _ => true

/-- The file is in the directory. -/
def underDir (dir : GoString) (file : GoString × GoString) : Bool := Strings.hasPrefix file.1 (dir ++ "/")

/-- What a command does to the repository, when it succeeds. -/
def effect (repo : Repo) : Cmd → Repo
  | .checkout branch =>
    { repo with branch := branch, branches := branch :: repo.branches, current := List.mem_cons_self }
  | .add dir =>
    { repo with
      staged := repo.staged ++ repo.unstaged.filter (underDir dir)
      unstaged := repo.unstaged.filter fun file => !underDir dir file }
  | .commit _ => { repo with tip := repo.tip.sets some repo.staged, staged := [] }
  | _ => repo

/-- A file is written; it is changed if the branch holds something else. -/
def write (repo : Repo) (file : GoString × GoString) : Repo :=
  if repo.tip file.1 = some file.2 then repo else { repo with unstaged := repo.unstaged ++ [file] }

end Repo

/-! ## A call -/

/-- What a call has done. -/
inductive Step where
  | run (c : Cmd)
  | write (path : GoString)
  deriving DecidableEq

/-- A step that changes the repository or the one it came from. -/
def Step.mutates : Step → Bool
  | .write _ => true
  | .run (.checkout _) => true
  | .run (.add _) => true
  | .run (.commit _) => true
  | .run (.push _) => true
  | .run _ => false

/-- The repository, and the steps so far. -/
structure World where
  repo : Repo
  log : List Step

/-- `Runner.Run`. -/
def World.run (w : World) (r : Runner) (c : Cmd) : World × Except Failure GoString :=
  let log := w.log ++ [.run c]
  match r.fails c with
  | some f => (⟨w.repo, log⟩, .error f)
  | none =>
    if w.repo.allows c then
      (⟨w.repo.effect c, log⟩, .ok (match c with
        | .status => w.repo.porcelain
        | c => r.output c))
    else (⟨w.repo, log⟩, .error (r.refusal c))

/-- The path of an artifact. -/
def inDir (dir name : GoString) : GoString := dir ++ "/" ++ name

/-- The files that `WriteArtifacts` wrote. -/
def World.write (dir : GoString) (w : World) (file : GoString × GoString) : World :=
  ⟨w.repo.write (inDir dir file.1, file.2), w.log ++ [.write (inDir dir file.1)]⟩

/-- Where the pull request goes and what it says; an empty field has a default. -/
structure Options where
  repoDir : GoString
  subDir : GoString
  base : GoString
  branch : GoString
  title : GoString
  body : GoString

/-- The line of the description for a recommendation. -/
def bodyLine (rem : Recommendation) : GoString :=
  "- **" ++ rem.identityID ++ "** (`" ++ rem.kind ++ "`): " ++ rem.explanation ++ "\n"

/-- `defaultBody`. -/
def defaultBody (recs : List Recommendation) : GoString :=
  "Automated least-privilege and credential-rotation remediations proposed by idryx.\n\n" ++
    "idryx is read-only against your cloud and IdP — this PR is a proposal. " ++
    "The files under the artifacts directory are human-readable proposed diffs, not drop-in Terraform: review each one, fold the change into your own configuration, and apply through your normal plan/apply workflow.\n\n" ++
    recs.flatMap bodyLine

/-- `preflight`; `none` where everything is in order. -/
def preflight (r : Runner) (repoDir : GoString) (w : World) : World × Option GoString :=
  match w.run r .revParse with
  | (w, .error f) => (w, some (failed (repoDir ++ " is not a git repository") f))
  | (w, .ok _) =>
    match w.run r .status with
    | (w, .error f) => (w, some (failed "git status" f))
    | (w, .ok out) =>
      if Strings.trimSpace out ≠ "" then
        (w, some ("the IaC repo at " ++ repoDir ++ " has uncommitted changes; commit or stash them first so the remediation PR contains only idryx's artifacts"))
      else
        match w.run r .authStatus with
        | (w, .error f) => (w, some (failed "gh is not authenticated (run `gh auth login`)" f))
        | (w, .ok _) => (w, none)

/-- The steps after the branch was created. -/
def propose (r : Runner) (D : Disk) (recs : List Recommendation) (subDir base branch title body : GoString) (w : World) :
    World × Except GoString GoString :=
  let written := writeArtifacts D recs
  let w := written.writes.foldl (World.write subDir) w
  match written.result with
  | .error err => (w, .error err)
  | .ok _ =>
    match w.run r (.add subDir) with
    | (w, .error f) => (w, .error (failed ("git add " ++ subDir) f))
    | (w, .ok _) =>
      match w.run r (.commit title) with
      | (w, .error f) => (w, .error (failed "git commit" f))
      | (w, .ok _) =>
        match w.run r (.push branch) with
        | (w, .error f) => (w, .error (failed "git push" f))
        | (w, .ok _) =>
          match w.run r (.prCreate base branch title body) with
          | (w, .error f) => (w, .error (failed "gh pr create" f))
          | (w, .ok out) => (w, .ok (Strings.trimSpace out))

/-- What an option defaults to. -/
def orElse (option default : GoString) : GoString := if option = "" then default else option

namespace Options

/-- A field with its default. -/
def subDirOr (opts : Options) : GoString := orElse opts.subDir "idryx"

/-- The branch of the pull request, which is named after the time by default. -/
def branchOr (opts : Options) (now : Time) : GoString :=
  orElse opts.branch ("idryx/remediation-" ++ intText (now.ext - 62135596800))

@[inherit_doc subDirOr]
def titleOr (opts : Options) (recs : List Recommendation) : GoString :=
  orElse opts.title ("idryx: least-privilege & rotation remediations (" ++ Strconv.itoa recs.length ++ ")")

@[inherit_doc subDirOr]
def bodyOr (opts : Options) (recs : List Recommendation) : GoString := orElse opts.body (defaultBody recs)

end Options

/-- `OpenPR`. -/
def openPR (r : Runner) (D : Disk) (now : Time) (recs : List Recommendation) (opts : Options) (w : World) :
    World × Except GoString GoString :=
  if recs = [] then (w, .error "no remediations to open a PR for")
  else if opts.repoDir = "" then (w, .error "RepoDir is required")
  else
    let branch := opts.branchOr now
    match preflight r opts.repoDir w with
    | (w, some err) => (w, .error err)
    | (w, none) =>
      match w.run r (.checkout branch) with
      | (w, .error f) => (w, .error (failed ("git checkout -b " ++ branch) f))
      | (w, .ok _) =>
        propose r D recs opts.subDirOr (orElse opts.base "main") branch (opts.titleOr recs) (opts.bodyOr recs) w

/-! ## What a failed call leaves -/

/-- The environment lets the call through. -/
def Passes (r : Runner) (repo : Repo) : Prop :=
  r.fails .revParse = none ∧ r.fails .status = none ∧ repo.Clean ∧ r.fails .authStatus = none

/-- The branch is created: nothing keeps the call from it. -/
def Creates (r : Runner) (now : Time) (recs : List Recommendation) (opts : Options) (repo : Repo) : Prop :=
  recs ≠ [] ∧ opts.repoDir ≠ "" ∧ Passes r repo ∧ r.fails (.checkout (opts.branchOr now)) = none ∧
    opts.branchOr now ∉ repo.branches

/-- Nothing fails from there on: the artifacts are written, they are not what the branch holds already, and no command
fails. -/
def Completes (r : Runner) (D : Disk) (now : Time) (recs : List Recommendation) (opts : Options) (repo : Repo) : Prop :=
  (∃ manifest, (writeArtifacts D recs).result = .ok manifest) ∧ r.fails (.add opts.subDirOr) = none ∧
    (∃ file ∈ (writeArtifacts D recs).writes, repo.tip (inDir opts.subDirOr file.1) ≠ some file.2) ∧
    r.fails (.commit (opts.titleOr recs)) = none ∧ r.fails (.push (opts.branchOr now)) = none ∧
    r.fails (.prCreate (orElse opts.base "main") (opts.branchOr now) (opts.titleOr recs) (opts.bodyOr recs)) = none

/-- The branch, the branches and the changes are those of before. -/
def Restored (before after : Repo) : Prop :=
  after.branch = before.branch ∧ after.branches = before.branches ∧ after.staged = before.staged ∧
    after.unstaged = before.unstaged

/-- The steps of a preflight that goes through. -/
def preflightSteps : List Step := [.run .revParse, .run .status, .run .authStatus]

/-- A call that fails leaves the repository as it was, and can be repeated. -/
structure LeavesNoTrace (r : Runner) (D : Disk) (now : Time) (recs : List Recommendation) (opts : Options)
    (repo : Repo) : Prop where
  restored : ∀ err, (openPR r D now recs opts ⟨repo, []⟩).2 = .error err →
    (∀ s ∈ (openPR r D now recs opts ⟨repo, []⟩).1.log, s.mutates = false) ∨
      Restored repo (openPR r D now recs opts ⟨repo, []⟩).1.repo
  ordered : ∀ pre s post, (openPR r D now recs opts ⟨repo, []⟩).1.log = pre ++ s :: post → s.mutates = true →
    Passes r repo ∧ preflightSteps <+: pre
  repeatable : ∀ err, (openPR r D now recs opts ⟨repo, []⟩).2 = .error err → Passes r repo →
    (openPR r D now recs opts ⟨repo, []⟩).1.repo.Clean ∧
      ∀ r' : Runner, r'.fails .revParse = none → r'.fails .status = none → r'.fails .authStatus = none →
        (preflight r' opts.repoDir ⟨(openPR r D now recs opts ⟨repo, []⟩).1.repo, []⟩).2 = none

/-! ## One command -/

theorem run_ok {w : World} {r : Runner} {c : Cmd} (hfails : r.fails c = none) (hallows : w.repo.allows c = true) :
    ∃ out, w.run r c = (⟨w.repo.effect c, w.log ++ [.run c]⟩, .ok out) := by
  unfold World.run
  rw [hfails]
  dsimp only
  rw [if_pos hallows]
  exact ⟨_, rfl⟩

theorem run_error {w : World} {r : Runner} {c : Cmd} (h : ¬ (r.fails c = none ∧ w.repo.allows c = true)) :
    ∃ f, w.run r c = (⟨w.repo, w.log ++ [.run c]⟩, .error f) := by
  unfold World.run
  cases hfails : r.fails c with
  | some f => exact ⟨f, rfl⟩
  | none =>
    dsimp only
    rw [if_neg fun hallows => h ⟨hfails, hallows⟩]
    exact ⟨_, rfl⟩

theorem run_query (w : World) (r : Runner) :
    w.run r .revParse = (⟨w.repo, w.log ++ [.run .revParse]⟩,
      (r.fails .revParse).elim (.ok (r.output .revParse)) .error) ∧
    w.run r .status = (⟨w.repo, w.log ++ [.run .status]⟩, (r.fails .status).elim (.ok w.repo.porcelain) .error) ∧
    w.run r .authStatus = (⟨w.repo, w.log ++ [.run .authStatus]⟩,
      (r.fails .authStatus).elim (.ok (r.output .authStatus)) .error) := by
  unfold World.run
  refine ⟨?_, ?_, ?_⟩
  · cases r.fails .revParse <;> rfl
  · cases r.fails .status <;> rfl
  · cases r.fails .authStatus <;> rfl

theorem printable_line (repo : Repo) (file : GoString × GoString) :
    (∃ b ∈ repo.stagedLine file, Strings.Printable b) ∧ ∃ b ∈ repo.statusLine file, Strings.Printable b := by
  have hmark : (∃ b ∈ ("M  " : GoString), Strings.Printable b) ∧ (∃ b ∈ ("A  " : GoString), Strings.Printable b) ∧
      (∃ b ∈ (" M " : GoString), Strings.Printable b) ∧ ∃ b ∈ ("?? " : GoString), Strings.Printable b := by decide
  obtain ⟨⟨m, hm, hm'⟩, ⟨a, ha, ha'⟩, ⟨n, hn, hn'⟩, ⟨q, hq, hq'⟩⟩ := hmark
  unfold Repo.stagedLine Repo.statusLine
  split_ifs
  · exact ⟨⟨m, List.mem_append_left _ (List.mem_append_left _ hm), hm'⟩,
      ⟨n, List.mem_append_left _ (List.mem_append_left _ hn), hn'⟩⟩
  · exact ⟨⟨a, List.mem_append_left _ (List.mem_append_left _ ha), ha'⟩,
      ⟨q, List.mem_append_left _ (List.mem_append_left _ hq), hq'⟩⟩

/-- **The status is blank** exactly if nothing is changed. -/
theorem porcelain_blank_iff (repo : Repo) : Strings.trimSpace repo.porcelain = "" ↔ repo.Clean := by
  refine Strings.trimSpace_eq_nil_iff.trans ?_
  constructor
  · intro hblank
    constructor
    · refine List.eq_nil_iff_forall_not_mem.mpr fun file hfile => ?_
      obtain ⟨b, hb, hprint⟩ := (printable_line repo file).1
      exact hblank.not_mem hprint (List.mem_append_left _ (List.mem_flatMap.mpr ⟨file, hfile, hb⟩))
    · refine List.eq_nil_iff_forall_not_mem.mpr fun file hfile => ?_
      obtain ⟨b, hb, hprint⟩ := (printable_line repo file).2
      exact hblank.not_mem hprint (List.mem_append_right _ (List.mem_flatMap.mpr ⟨file, hfile, hb⟩))
  · rintro ⟨hstaged, hunstaged⟩
    rw [Repo.porcelain, hstaged, hunstaged]
    exact Strings.blank_nil

/-! ## The preflight -/

/-- **The preflight** changes nothing, and goes through exactly if everything is in order. -/
theorem preflight_spec (r : Runner) (dir : GoString) (w : World) :
    (Passes r w.repo ∧ preflight r dir w = (⟨w.repo, w.log ++ preflightSteps⟩, none)) ∨
      (¬ Passes r w.repo ∧ ∃ err steps, preflight r dir w = (⟨w.repo, w.log ++ steps⟩, some err) ∧
        ∀ s ∈ steps, s.mutates = false) := by
  unfold preflight Passes
  rw [(run_query w r).1]
  cases hrev : r.fails .revParse with
  | some f => exact Or.inr ⟨fun h => absurd h.1 (by simp), _, [.run .revParse], rfl, by decide⟩
  | none =>
    dsimp only [Option.elim]
    rw [(run_query _ r).2.1]
    cases hstatus : r.fails .status with
    | some f =>
      exact Or.inr ⟨fun h => absurd h.2.1 (by simp), _, [.run .revParse, .run .status],
        by rw [List.append_assoc]; rfl, by decide⟩
    | none =>
      dsimp only [Option.elim]
      rw [← porcelain_blank_iff]
      by_cases hblank : Strings.trimSpace w.repo.porcelain = ""
      · rw [if_neg (not_not.mpr hblank), (run_query _ r).2.2]
        cases hauth : r.fails .authStatus with
        | some f =>
          exact Or.inr ⟨fun h => absurd h.2.2.2 (by simp), _, preflightSteps,
            by rw [List.append_assoc, List.append_assoc]; rfl, by decide⟩
        | none => exact Or.inl ⟨⟨rfl, rfl, hblank, rfl⟩, by rw [List.append_assoc, List.append_assoc]; rfl⟩
      · rw [if_pos hblank]
        exact Or.inr ⟨fun h => hblank h.2.2.1, _, [.run .revParse, .run .status],
          by rw [List.append_assoc]; rfl, by decide⟩

/-! ## After the checkout -/

theorem writes_spec (dir : GoString) (writes : List (GoString × GoString)) (w : World) :
    (writes.foldl (World.write dir) w).repo.branch = w.repo.branch ∧
    (writes.foldl (World.write dir) w).repo.branches = w.repo.branches ∧
    (writes.foldl (World.write dir) w).repo.tip = w.repo.tip ∧
    (writes.foldl (World.write dir) w).repo.staged = w.repo.staged ∧
    (writes.foldl (World.write dir) w).repo.unstaged = w.repo.unstaged ++
      (writes.map fun file => (inDir dir file.1, file.2)).filter (fun file => w.repo.tip file.1 ≠ some file.2) ∧
    (writes.foldl (World.write dir) w).log = w.log ++ writes.map fun file => .write (inDir dir file.1) := by
  induction writes generalizing w with
  | nil => simp
  | cons file writes ih =>
    obtain ⟨hbranch, hbranches, htip, hstaged, hunstaged, hlog⟩ := ih (w.write dir file)
    rw [List.foldl_cons, hbranch, hbranches, htip, hstaged, hunstaged, hlog]
    unfold World.write Repo.write
    dsimp only
    split_ifs with hsame
    · refine ⟨rfl, rfl, rfl, rfl, ?_, by simp⟩
      rw [List.map_cons, List.filter_cons_of_neg (by simpa using hsame)]
    · refine ⟨rfl, rfl, rfl, rfl, ?_, by simp⟩
      rw [List.map_cons, List.filter_cons_of_pos (by simpa using hsame), List.append_assoc]
      rfl

/-- The call goes on, on the same branch. -/
structure Extends (w w' : World) : Prop where
  branch : w'.repo.branch = w.repo.branch
  branches : w'.repo.branches = w.repo.branches
  log : w.log <+: w'.log

theorem Extends.trans {u v w : World} (h : Extends u v) (h' : Extends v w) : Extends u w :=
  ⟨h'.branch.trans h.branch, h'.branches.trans h.branches, h.log.trans h'.log⟩

theorem extends_run {r : Runner} {w w' : World} {c : Cmd} {out : Except Failure GoString}
    (hc : ∀ branch, c ≠ .checkout branch) (h : w.run r c = (w', out)) : Extends w w' := by
  have heffect : (w.repo.effect c).branch = w.repo.branch ∧ (w.repo.effect c).branches = w.repo.branches := by
    cases c with
    | checkout branch => exact absurd rfl (hc branch)
    | _ => exact ⟨rfl, rfl⟩
  by_cases hok : r.fails c = none ∧ w.repo.allows c = true
  · obtain ⟨_, hrun⟩ := run_ok (w := w) hok.1 hok.2
    rw [hrun, Prod.mk.injEq] at h
    rw [← h.1]
    exact ⟨heffect.1, heffect.2, List.prefix_append _ _⟩
  · obtain ⟨_, hrun⟩ := run_error (w := w) hok
    rw [hrun, Prod.mk.injEq] at h
    rw [← h.1]
    exact ⟨rfl, rfl, List.prefix_append _ _⟩

/-- **Whatever fails**, the new branch stays checked out. -/
theorem propose_extends (r : Runner) (D : Disk) (recs : List Recommendation) (dir base branch title body : GoString)
    (w : World) : Extends w (propose r D recs dir base branch title body w).1 := by
  obtain ⟨hbranch, hbranches, -, -, -, hlog⟩ := writes_spec dir (writeArtifacts D recs).writes w
  have hwrites : Extends w ((writeArtifacts D recs).writes.foldl (World.write dir) w) :=
    ⟨hbranch, hbranches, hlog ▸ List.prefix_append _ _⟩
  unfold propose
  dsimp only
  generalize (writeArtifacts D recs).writes.foldl (World.write dir) w = v at hwrites
  cases (writeArtifacts D recs).result with
  | error err => exact hwrites
  | ok manifest =>
    dsimp only
    rcases hadd : v.run r (.add dir) with ⟨v₁, f | out⟩
    · exact hwrites.trans (extends_run (by simp) hadd)
    have h₁ := hwrites.trans (extends_run (by simp) hadd)
    dsimp only
    rcases hcommit : v₁.run r (.commit title) with ⟨v₂, f | out⟩
    · exact h₁.trans (extends_run (by simp) hcommit)
    have h₂ := h₁.trans (extends_run (by simp) hcommit)
    dsimp only
    rcases hpush : v₂.run r (.push branch) with ⟨v₃, f | out⟩
    · exact h₂.trans (extends_run (by simp) hpush)
    have h₃ := h₂.trans (extends_run (by simp) hpush)
    dsimp only
    rcases hpr : v₃.run r (.prCreate base branch title body) with ⟨v₄, f | out⟩
    · exact h₃.trans (extends_run (by simp) hpr)
    · exact h₃.trans (extends_run (by simp) hpr)

theorem allows_commit_iff {dir : GoString} {writes : List (GoString × GoString)} {w : World} (hclean : w.repo.Clean)
    (title : GoString) : (((writes.foldl (World.write dir) w).repo.effect (.add dir)).allows (.commit title)) = true ↔
      ∃ file ∈ writes, w.repo.tip (inDir dir file.1) ≠ some file.2 := by
  obtain ⟨-, -, -, hstaged, hunstaged, -⟩ := writes_spec dir writes w
  have hunder : ∀ file : GoString × GoString, Repo.underDir dir (inDir dir file.1, file.2) = true := fun file =>
    List.isPrefixOf_iff_prefix.mpr (List.prefix_append _ _)
  unfold Repo.effect Repo.allows
  dsimp only
  rw [hstaged, hunstaged, hclean.1, hclean.2, List.nil_append, List.nil_append, Bool.not_eq_true',
    List.isEmpty_eq_false_iff, Ne, List.filter_filter, List.filter_eq_nil_iff]
  simp only [List.forall_mem_map, hunder, Bool.true_and, decide_eq_true_eq, not_forall, not_not, exists_prop]

theorem propose_ok_iff {r : Runner} {D : Disk} {recs : List Recommendation} {dir base branch title body : GoString}
    {w : World} (hclean : w.repo.Clean) : (∃ url, (propose r D recs dir base branch title body w).2 = .ok url) ↔
      (∃ manifest, (writeArtifacts D recs).result = .ok manifest) ∧ r.fails (.add dir) = none ∧
        (∃ file ∈ (writeArtifacts D recs).writes, w.repo.tip (inDir dir file.1) ≠ some file.2) ∧
        r.fails (.commit title) = none ∧ r.fails (.push branch) = none ∧
        r.fails (.prCreate base branch title body) = none := by
  rw [← allows_commit_iff hclean title]
  unfold propose
  dsimp only
  generalize (writeArtifacts D recs).writes.foldl (World.write dir) w = v
  cases (writeArtifacts D recs).result with
  | error err => simp
  | ok manifest =>
    dsimp only
    by_cases hadd : r.fails (.add dir) = none
    · obtain ⟨_, hrun⟩ := run_ok (w := v) hadd rfl
      rw [hrun]
      dsimp only
      by_cases hcommit : r.fails (.commit title) = none ∧ (v.repo.effect (.add dir)).allows (.commit title) = true
      · obtain ⟨_, hrun⟩ := run_ok (w := ⟨v.repo.effect (.add dir), v.log ++ [.run (.add dir)]⟩) hcommit.1 hcommit.2
        rw [hrun]
        dsimp only
        by_cases hpush : r.fails (.push branch) = none
        · obtain ⟨_, hrun⟩ := run_ok (w := ⟨(v.repo.effect (.add dir)).effect (.commit title),
            v.log ++ [.run (.add dir)] ++ [.run (.commit title)]⟩) hpush rfl
          rw [hrun]
          dsimp only
          by_cases hpr : r.fails (.prCreate base branch title body) = none
          · obtain ⟨_, hrun⟩ := run_ok (w := ⟨((v.repo.effect (.add dir)).effect (.commit title)).effect (.push branch),
              v.log ++ [.run (.add dir)] ++ [.run (.commit title)] ++ [.run (.push branch)]⟩) hpr rfl
            rw [hrun]
            simp [hadd, hcommit, hpush, hpr]
          · obtain ⟨_, hrun⟩ := run_error (r := r) (w := ⟨((v.repo.effect (.add dir)).effect (.commit title)).effect
              (.push branch), v.log ++ [.run (.add dir)] ++ [.run (.commit title)] ++ [.run (.push branch)]⟩)
              (c := .prCreate base branch title body) fun h => hpr h.1
            rw [hrun]
            simp [hpr]
        · obtain ⟨_, hrun⟩ := run_error (r := r) (w := ⟨(v.repo.effect (.add dir)).effect (.commit title),
            v.log ++ [.run (.add dir)] ++ [.run (.commit title)]⟩) (c := .push branch) fun h => hpush h.1
          rw [hrun]
          simp [hpush]
      · obtain ⟨_, hrun⟩ := run_error (w := ⟨v.repo.effect (.add dir), v.log ++ [.run (.add dir)]⟩) hcommit
        rw [hrun]
        simp only [reduceCtorEq, exists_false, false_iff]
        exact fun h => hcommit ⟨h.2.2.2.1, h.2.2.1⟩
    · obtain ⟨_, hrun⟩ := run_error (r := r) (w := v) (c := .add dir) fun h => hadd h.1
      rw [hrun]
      simp [hadd]

/-! ## The whole call -/

section Call

variable {r : Runner} {D : Disk} {now : Time} {recs : List Recommendation} {opts : Options} {repo : Repo}

/-- The steps up to the checkout. -/
def firstSteps (branch : GoString) : List Step := preflightSteps ++ [.run (.checkout branch)]

theorem openPR_stopped (h : ¬ Creates r now recs opts repo) : ∃ err log,
    openPR r D now recs opts ⟨repo, []⟩ = (⟨repo, log⟩, .error err) ∧
      ((∀ s ∈ log, s.mutates = false) ∨ Passes r repo ∧ log = firstSteps (opts.branchOr now)) := by
  unfold openPR
  by_cases hrecs : recs = []
  · rw [if_pos hrecs]
    exact ⟨_, [], rfl, Or.inl fun s hs => absurd hs List.not_mem_nil⟩
  rw [if_neg hrecs]
  by_cases hdir : opts.repoDir = ""
  · rw [if_pos hdir]
    exact ⟨_, [], rfl, Or.inl fun s hs => absurd hs List.not_mem_nil⟩
  rw [if_neg hdir]
  dsimp only
  rcases preflight_spec r opts.repoDir ⟨repo, []⟩ with ⟨hpasses, hrun⟩ | ⟨-, err, steps, hrun, hsteps⟩
  · have hcheckout : ¬ (r.fails (.checkout (opts.branchOr now)) = none ∧
        repo.allows (.checkout (opts.branchOr now)) = true) := fun hok =>
      h ⟨hrecs, hdir, hpasses, hok.1, of_decide_eq_true hok.2⟩
    obtain ⟨f, hfail⟩ := run_error (w := ⟨repo, [] ++ preflightSteps⟩) hcheckout
    rw [hrun]
    dsimp only
    rw [hfail]
    exact ⟨_, _, rfl, Or.inr ⟨hpasses, rfl⟩⟩
  · rw [hrun]
    exact ⟨err, _, rfl, Or.inl fun s hs => hsteps s hs⟩

theorem openPR_created (h : Creates r now recs opts repo) : openPR r D now recs opts ⟨repo, []⟩ =
    propose r D recs opts.subDirOr (orElse opts.base "main") (opts.branchOr now) (opts.titleOr recs) (opts.bodyOr recs)
      ⟨repo.effect (.checkout (opts.branchOr now)), firstSteps (opts.branchOr now)⟩ := by
  obtain ⟨hrecs, hdir, hpasses, hcheckout, hnew⟩ := h
  unfold openPR
  rw [if_neg hrecs, if_neg hdir]
  dsimp only
  rcases preflight_spec r opts.repoDir ⟨repo, []⟩ with ⟨-, hrun⟩ | ⟨hnot, -⟩
  · obtain ⟨_, hok⟩ := run_ok (w := ⟨repo, [] ++ preflightSteps⟩) (c := .checkout (opts.branchOr now)) hcheckout
      (decide_eq_true hnew)
    rw [hrun]
    dsimp only
    rw [hok]
    rfl
  · exact absurd hpasses hnot

theorem prefix_of_mutates {pre post rest : List Step} {s : Step} (h : preflightSteps ++ rest = pre ++ s :: post)
    (hs : s.mutates = true) : preflightSteps <+: pre := by
  rcases List.append_eq_append_iff.mp h with ⟨mid, hpre, -⟩ | ⟨mid, hsteps, hrest⟩
  · exact ⟨mid, hpre.symm⟩
  · cases mid with
    | nil => exact ⟨[], by rw [hsteps, List.append_nil]; exact List.append_nil _⟩
    | cons x mid =>
      obtain ⟨rfl, -⟩ := List.cons.inj hrest
      have hquiet : ∀ s ∈ preflightSteps, s.mutates = false := by decide
      rw [hquiet s (hsteps ▸ List.mem_append_right _ List.mem_cons_self)] at hs
      exact absurd hs Bool.false_ne_true

theorem preflight_of_clean {r' : Runner} {repo : Repo} (hclean : repo.Clean) (hrev : r'.fails .revParse = none)
    (hstatus : r'.fails .status = none) (hauth : r'.fails .authStatus = none) (dir : GoString) :
    (preflight r' dir ⟨repo, []⟩).2 = none := by
  rcases preflight_spec r' dir ⟨repo, []⟩ with ⟨-, hrun⟩ | ⟨hnot, -⟩
  · rw [hrun]
  · exact absurd ⟨hrev, hstatus, hclean, hauth⟩ hnot

/-- **A call that fails leaves no trace** exactly if, once the branch is created, no step fails. -/
theorem leavesNoTrace_iff (r : Runner) (D : Disk) (now : Time) (recs : List Recommendation) (opts : Options) (repo : Repo) :
    LeavesNoTrace r D now recs opts repo ↔
      (Creates r now recs opts repo → Completes r D now recs opts repo) := by
  constructor
  · intro h hcreates
    have hopen := openPR_created (D := D) hcreates
    have hclean : (repo.effect (.checkout (opts.branchOr now))).Clean := hcreates.2.2.1.2.2.1
    have hextends := propose_extends r D recs opts.subDirOr (orElse opts.base "main") (opts.branchOr now)
      (opts.titleOr recs) (opts.bodyOr recs)
      ⟨repo.effect (.checkout (opts.branchOr now)), firstSteps (opts.branchOr now)⟩
    rw [← hopen] at hextends
    refine (propose_ok_iff (w := ⟨repo.effect (.checkout (opts.branchOr now)), firstSteps (opts.branchOr now)⟩)
      hclean).mp ?_
    rw [← hopen]
    cases hresult : (openPR r D now recs opts ⟨repo, []⟩).2 with
    | ok url => exact ⟨url, rfl⟩
    | error err =>
      rcases h.restored err hresult with hquiet | hrestored
      · have hmem : Step.run (.checkout (opts.branchOr now)) ∈ (openPR r D now recs opts ⟨repo, []⟩).1.log :=
          hextends.log.subset (List.mem_append_right _ List.mem_cons_self)
        exact absurd (hquiet _ hmem) (by simp [Step.mutates])
      · -- the branch that is checked out is the new one
        have hbranch : opts.branchOr now = repo.branch := hextends.branch.symm.trans hrestored.1
        exact absurd (hbranch ▸ repo.current) hcreates.2.2.2.2
  · intro h
    by_cases hcreates : Creates r now recs opts repo
    · have hopen := openPR_created (D := D) hcreates
      have hclean : (repo.effect (.checkout (opts.branchOr now))).Clean := hcreates.2.2.1.2.2.1
      obtain ⟨url, hok⟩ := (propose_ok_iff (w := ⟨repo.effect (.checkout (opts.branchOr now)),
        firstSteps (opts.branchOr now)⟩) hclean).mpr (h hcreates)
      rw [← hopen] at hok
      have hlog := (propose_extends r D recs opts.subDirOr (orElse opts.base "main") (opts.branchOr now)
        (opts.titleOr recs) (opts.bodyOr recs)
        ⟨repo.effect (.checkout (opts.branchOr now)), firstSteps (opts.branchOr now)⟩).log
      rw [← hopen] at hlog
      refine ⟨fun err herr => ?_, fun pre s post hsplit hs => ⟨hcreates.2.2.1, ?_⟩, fun err herr => ?_⟩
      · rw [hok] at herr
        cases herr
      · obtain ⟨rest, hrest⟩ := hlog
        rw [firstSteps, List.append_assoc] at hrest
        exact prefix_of_mutates (hrest.trans hsplit) hs
      · rw [hok] at herr
        cases herr
    · obtain ⟨err, log, hopen, hlog⟩ := openPR_stopped (D := D) hcreates
      refine ⟨fun _ _ => Or.inr ?_, fun pre s post hsplit hs => ?_, fun _ _ hpasses => ?_⟩
      · rw [hopen]
        exact ⟨rfl, rfl, rfl, rfl⟩
      · rw [hopen] at hsplit
        dsimp only at hsplit
        rcases hlog with hquiet | ⟨hpasses, rfl⟩
        · rw [hquiet s (hsplit ▸ List.mem_append_right _ List.mem_cons_self)] at hs
          exact absurd hs Bool.false_ne_true
        · exact ⟨hpasses, prefix_of_mutates hsplit hs⟩
      · rw [hopen]
        exact ⟨hpasses.2.2.1, fun r' hrev hstatus hauth => preflight_of_clean hpasses.2.2.1 hrev hstatus hauth _⟩

end Call

/-- A remote that takes no push. -/
def noPush : Runner where
  failure argv :=
    if argv.take 2 = ["git", "push"] then some ⟨"exit status 128", "fatal: could not read from remote repository"⟩
    else none
  refused _ := ⟨"exit status 1", "nothing to commit, working tree clean"⟩
  printed _ := ""

/-- A fresh clone. -/
def clone : Repo := ⟨"main", ["main"], Dict.empty, [], [], by simp⟩

/-- A branch is named and nothing else. -/
def inClone : Options := ⟨"/srv/iac", "", "", "idryx/remediation", "", ""⟩

/-- **A push that fails** leaves the new branch checked out, and the next call cannot create it. -/
theorem noPush_leaves_branch : (∃ err, (openPR noPush Remediation.goodDisk Time.zero Remediation.alike inClone
      ⟨clone, []⟩).2 = .error err) ∧
    (openPR noPush Remediation.goodDisk Time.zero Remediation.alike inClone ⟨clone, []⟩).1.repo.branch =
      "idryx/remediation" ∧
    ¬ LeavesNoTrace noPush Remediation.goodDisk Time.zero Remediation.alike inClone clone := by
  have hrecs : Remediation.alike ≠ [] := by
    rw [← List.length_pos_iff]
    decide +kernel
  have hcreates : Creates noPush Time.zero Remediation.alike inClone clone :=
    ⟨hrecs, by decide, ⟨rfl, rfl, ⟨rfl, rfl⟩, rfl⟩, rfl, by decide⟩
  have hfails : ¬ Completes noPush Remediation.goodDisk Time.zero Remediation.alike inClone clone :=
    fun h => Option.some_ne_none _ h.2.2.2.2.1
  have hopen := openPR_created (D := Remediation.goodDisk) hcreates
  have hextends := propose_extends noPush Remediation.goodDisk Remediation.alike inClone.subDirOr "main"
    (inClone.branchOr Time.zero) (inClone.titleOr Remediation.alike) (inClone.bodyOr Remediation.alike)
    ⟨clone.effect (.checkout (inClone.branchOr Time.zero)), firstSteps (inClone.branchOr Time.zero)⟩
  have hbranch : (openPR noPush Remediation.goodDisk Time.zero Remediation.alike inClone ⟨clone, []⟩).1.repo.branch =
      "idryx/remediation" := by
    rw [hopen]
    exact hextends.branch
  have herror : ∃ err, (openPR noPush Remediation.goodDisk Time.zero Remediation.alike inClone ⟨clone, []⟩).2 =
      .error err := by
    cases hresult : (openPR noPush Remediation.goodDisk Time.zero Remediation.alike inClone ⟨clone, []⟩).2 with
    | error err => exact ⟨err, rfl⟩
    | ok url =>
      rw [hopen] at hresult
      exact absurd ((propose_ok_iff ⟨rfl, rfl⟩).mp ⟨url, hresult⟩) hfails
  refine ⟨herror, hbranch, fun h => ?_⟩
  obtain ⟨err, herr⟩ := herror
  rcases h.restored err herr with hquiet | hrestored
  · have hmem : Step.run (.checkout (inClone.branchOr Time.zero)) ∈
        (openPR noPush Remediation.goodDisk Time.zero Remediation.alike inClone ⟨clone, []⟩).1.log := by
      rw [hopen]
      exact hextends.log.subset (List.mem_append_right _ List.mem_cons_self)
    exact absurd (hquiet _ hmem) (by simp [Step.mutates])
  · rw [hrestored.1] at hbranch
    exact absurd hbranch (by decide)

end Idryx.Enforce
