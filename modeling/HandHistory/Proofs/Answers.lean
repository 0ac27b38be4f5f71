import HandHistory.Program
import HandHistory.Proofs.Progress

/-!
# Answers of the program

A run is answered with one of two codes. `Request.Granted` says of each request when the code
is that of success: a load needs settings and a directory, but nothing of what the directory
holds, while a parse needs a file with a game. Whatever fails is told before anything is
printed, so that the answer of a failure prints nothing (`Answer.Tells`).

A run that is to parse a file reads it by itself, and is lost with a file that abandons its
task (`isAbandoned`). A load is not: there the file is lost, and the load goes on.
-/

namespace HandHistory

/-- When a request is answered with success. -/
def Request.Granted (reader : SettingsReader) (tree : FileTree) (environment : Environment) :
    Request → Prop
  | .load overrides => ∃ settings dir,
      Settings.resolve reader tree environment overrides = .ok settings ∧
      settings.historyDir.value = some dir
  | .parse file overrides => ∃ settings site,
      Settings.resolve reader tree environment overrides = .ok settings ∧
      tree.isFile file = true ∧
      (HistoryFile.load settings.room.value tree file).value = .finished (some site)
  | .settings => ∃ settings, Settings.load reader tree environment = .ok settings

/-- The code of an answer tells whether the request is granted. If it is not, nothing is
printed. -/
structure Answer.Tells (granted : Prop) (answer : Answer) : Prop where
  code : answer.code = 0 ∨ answer.code = 2
  silent : answer.code = 2 → answer.output = .text []
  code_iff : answer.code = 0 ↔ granted

namespace Program

variable {granted : Prop}

theorem tells_of_success {answer : Answer} (succeeds : answer.code = success) (yes : granted) :
    answer.Tells granted := by
  refine ⟨Or.inl succeeds, fun failed => ?_, iff_of_true succeeds yes⟩
  rw [succeeds] at failed
  cases failed

theorem tells_of_failure {answer : Answer} (fails : answer.code = failure)
    (silent : answer.output = .text []) (no : ¬ granted) : answer.Tells granted := by
  refine ⟨Or.inr fails, fun _ => silent, iff_of_false (fun succeeded => ?_) no⟩
  rw [fails] at succeeded
  cases succeeded

theorem tells_fail (error : CommandError) (no : ¬ granted) : (fail error).Tells granted :=
  tells_of_failure rfl rfl no

section

variable (readers : Readers) (tree : FileTree) (environment : Environment)

/-- What a directory holds, and whether there is a pool to load it on, makes no difference. -/
theorem tells_runLoad {runtime : Runtime} (overrides : Overrides) (shared : SharedPool runtime) :
    (runLoad readers tree environment overrides shared).Tells
      ((Request.load overrides).Granted readers.settings tree environment) := by
  rw [runLoad, Request.Granted]
  cases resolved : Settings.resolve readers.settings tree environment overrides with
  | error cause =>
    refine tells_fail _ ?_
    rintro ⟨settings, dir, impossible, -⟩
    cases impossible
  | ok settings =>
    dsimp only
    cases dir : settings.historyDir.value with
    | none =>
      refine tells_fail _ ?_
      rintro ⟨others, name, same, named⟩
      cases same
      rw [dir] at named
      cases named
    | some name => exact tells_of_success rfl ⟨settings, name, rfl, dir⟩

theorem tells_runSettings : (runSettings readers tree environment).Tells
    (Request.settings.Granted readers.settings tree environment) := by
  rw [runSettings, Request.Granted]
  cases loaded : Settings.load readers.settings tree environment with
  | error cause =>
    refine tells_fail _ ?_
    rintro ⟨settings, impossible⟩
    cases impossible
  | ok settings => exact tells_of_success rfl ⟨settings, rfl⟩

theorem tells_runParse (file : Text) (overrides : Overrides)
    (whole : ∀ settings, Settings.resolve readers.settings tree environment overrides =
      .ok settings → HistoryFile.isAbandoned settings.room.value tree file = false) :
    ∃ answer, runParse readers tree environment file overrides = .finished answer ∧
      answer.Tells ((Request.parse file overrides).Granted readers.settings tree environment) := by
  rw [runParse, Request.Granted]
  cases resolved : Settings.resolve readers.settings tree environment overrides with
  | error cause =>
    refine ⟨_, rfl, tells_fail _ ?_⟩
    rintro ⟨settings, site, impossible, -⟩
    cases impossible
  | ok settings =>
    dsimp only
    by_cases isFile : tree.isFile file = true
    · rw [if_neg (by simp [isFile])]
      have survives := whole settings resolved
      rw [HistoryFile.isAbandoned] at survives
      cases read : (HistoryFile.load settings.room.value tree file).value with
      | abandoned =>
        rw [read] at survives
        cases survives
      | finished site? =>
        cases site? with
        | none =>
          refine ⟨_, rfl, tells_of_failure rfl rfl ?_⟩
          rintro ⟨others, site, same, -, made⟩
          cases same
          rw [read] at made
          cases made
        | some site =>
          exact ⟨_, rfl, tells_of_success rfl ⟨settings, site, rfl, isFile, read⟩⟩
    · rw [if_pos (by simp [isFile])]
      refine ⟨_, rfl, tells_fail _ ?_⟩
      rintro ⟨others, site, -, impossible, -⟩
      exact isFile impossible

end

/-- Whatever reads the command line and the configuration file, and whatever the pool runs
on, a run ends with code 0 or 2, and prints nothing if the code is 2, unless it is to parse a
file that abandons its task. Words that are refused have the code 2, and those that ask for a
text are given it with the code 0; words that are accepted have the code 0 just if what they
ask for is granted. -/
theorem run_answered {runtime : Runtime} {readers : Readers} {tree : FileTree}
    {environment : Environment} {words : List Text} (shared : SharedPool runtime)
    (whole : ∀ file overrides settings, readers.words words = .ok (.parse file overrides) →
      Settings.resolve readers.settings tree environment overrides = .ok settings →
      HistoryFile.isAbandoned settings.room.value tree file = false) :
    ∃ answer, run readers tree environment shared words = .finished answer ∧
      (answer.code = 0 ∨ answer.code = 2) ∧
      (answer.code = 2 → answer.output = .text []) ∧
      (∀ text, readers.words words = .error (.wanted text) →
        answer.code = 0 ∧ answer.output = .text text) ∧
      (∀ text, readers.words words = .error (.refusal text) → answer.code = 2) ∧
      ∀ request, readers.words words = .ok request →
        (answer.code = 0 ↔ request.Granted readers.settings tree environment) := by
  rw [run]
  cases accepted : readers.words words with
  | error notice =>
    cases notice with
    | wanted text =>
      refine ⟨notify (.wanted text), rfl, Or.inl rfl, nofun, ?_, nofun, nofun⟩
      intro other same
      cases same
      exact ⟨rfl, rfl⟩
    | refusal text =>
      exact ⟨notify (.refusal text), rfl, Or.inr rfl, fun _ => rfl, nofun, fun _ _ => rfl, nofun⟩
  | ok request =>
    have tells : ∃ answer,
        Program.answer readers tree environment shared request = .finished answer ∧
        answer.Tells (request.Granted readers.settings tree environment) := by
      cases request with
      | load overrides => exact ⟨_, rfl, tells_runLoad readers tree environment overrides shared⟩
      | parse file overrides =>
        exact tells_runParse readers tree environment file overrides fun settings =>
          whole file overrides settings accepted
      | settings => exact ⟨_, rfl, tells_runSettings readers tree environment⟩
    obtain ⟨answer, finished, told⟩ := tells
    refine ⟨answer, finished, told.code, told.silent, nofun, nofun, ?_⟩
    intro other same
    cases same
    exact told.code_iff

/-- A file with one hand is parsed, and a file that there is not is refused. -/
theorem run_answered_one_hand :
    let text : Text := "PokerStars Hand #1: Hold'em No Limit ($1/$2) - 2014/10/31 0:45:01\n" ++
      "Table 'A' 9-max\nSeat 1: ann ($5)\n"
    let file : FileNode := .file (text.map fun c => c.toNat.toUInt8)
    let tree : FileTree := { root := .dir [("a.txt".toList, file)] }
    let parse (path : Text) : List Text := ["parse", "--file", path, "--site=pokerstars"]
    let shared : SharedPool .sequential := {}
    (∃ answer, run readers tree {} shared (parse "a.txt") = .finished answer ∧
      answer.code = 0) ∧
    ∃ answer, run readers tree {} shared (parse "b.txt") = .finished answer ∧
      answer.code = 2 ∧ answer.output = .text [] := by
  intro text file tree parse shared
  let overrides : Overrides := { room? := some .pokerStars }
  let settings : Settings := { room := ⟨.pokerStars, .commandLine⟩ }
  have acceptedA : readers.words (parse "a.txt") = .ok (.parse "a.txt" overrides) := rfl
  have acceptedB : readers.words (parse "b.txt") = .ok (.parse "b.txt" overrides) := rfl
  have resolved : Settings.resolve readers.settings tree {} overrides = .ok settings := rfl
  have whole {words : List Text} {path : Text}
      (accepted : readers.words words = .ok (.parse path overrides))
      (survives : HistoryFile.isAbandoned .pokerStars tree path = false) :
      ∀ file others found, readers.words words = .ok (.parse file others) →
        Settings.resolve readers.settings tree {} others = .ok found →
        HistoryFile.isAbandoned found.room.value tree file = false := by
    intro file others found same alike
    rw [accepted] at same
    cases same
    rw [resolved] at alike
    cases alike
    exact survives
  constructor
  · obtain ⟨answer, finished, -, -, -, -, granted⟩ :=
      @run_answered _ readers tree {} (parse "a.txt") shared
        (whole acceptedA (by decide +kernel))
    refine ⟨answer, finished, (granted _ acceptedA).2 ?_⟩
    have isSome : (HistoryFile.site? settings.room.value tree "a.txt").isSome = true := by
      decide +kernel
    obtain ⟨site, given⟩ := Option.isSome_iff_exists.1 isSome
    exact ⟨settings, site, resolved, by decide +kernel, HistoryFile.site?_eq_some_iff.1 given⟩
  · obtain ⟨answer, finished, code, silent, -, -, granted⟩ :=
      @run_answered _ readers tree {} (parse "b.txt") shared
        (whole acceptedB (by decide +kernel))
    have refused : ¬ answer.code = 0 := by
      rw [granted _ acceptedB]
      rintro ⟨others, site, -, isFile, -⟩
      exact absurd isFile (by decide +kernel)
    exact ⟨answer, finished, code.resolve_left refused, silent (code.resolve_left refused)⟩

end Program

end HandHistory
