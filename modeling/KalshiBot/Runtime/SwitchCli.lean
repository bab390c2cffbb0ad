import KalshiBot.Library.TextFiles
import KalshiBot.Runtime.KillSwitch

/-! # The operator's command line of the kill switch

The switch file is on disk or missing. `engage` writes a reason into it, `release` removes it,
and `status` tells by its exit code which of the two it is.
-/

namespace KalshiBot.Runtime

open PythonText

set_option autoImplicit false

/-- The text of the switch file, while there is one. -/
abbrev SwitchFile := Option String

def SwitchFile.readText : SwitchFile → ReadText
  | some contents => .text (String.ofList (universalNewlines contents.toList))
  | none => .osError

namespace KillSwitch

/-- The directory is made if it is missing, and an older file is written over. -/
def engage (s : KillSwitch) (reason : String) : KillSwitch × SwitchFile :=
  (s.invalidate, some (reason ++ "\n"))

def release (s : KillSwitch) : KillSwitch × SwitchFile := (s.invalidate, none)

end KillSwitch

structure CliRun where
  exitCode : ℕ
  printed : List String
  switch : KillSwitch
  file : SwitchFile

def noReasonGiven : String := "engaged via scripts/killswitch.py, no reason given"

/-- The reason that `engage` records for the words after it. -/
def givenReason (words : List String) : String :=
  let joined := String.ofList (strip (" ".intercalate words).toList)
  if joined = "" then noReasonGiven else joined

/-- What `status` and a refused fire show of a reason that was read. -/
def shownReason (read : Option String) : String :=
  if read.getD "" = "" then "(no reason recorded)" else read.getD ""

def engageCli (words : List String) (path : String) (s : KillSwitch) : CliRun :=
  let reason := givenReason words
  let (switch, file) := s.engage reason
  { exitCode := 0
    printed := ["ENGAGED at " ++ path ++ ": " ++ reason,
      "New order dispatch is halted. Ingest and telemetry keep running."]
    switch, file }

def releaseCli (path : String) (s : KillSwitch) (file : SwitchFile) (nowNs : ℤ) : CliRun :=
  let (wasEngaged, checked) := s.isEngaged file.isSome nowNs
  let (switch, file) := checked.release
  { exitCode := 0
    printed := ["RELEASED (" ++ path ++ (if wasEngaged then " removed" else " was not present") ++
      ")."]
    switch, file }

def statusCli (path : String) (s : KillSwitch) (file : SwitchFile) (nowNs : ℤ) : CliRun :=
  let (engaged, switch) := s.isEngaged file.isSome nowNs
  if engaged then
    { exitCode := 2
      printed := ["ENGAGED at " ++ path ++ ": " ++
        shownReason ((KillSwitch.reason file.readText).getD none)]
      switch, file }
  else { exitCode := 0, printed := ["released (" ++ path ++ " not present)"], switch, file }

def runCli (argv : List String) (path : String) (s : KillSwitch) (file : SwitchFile) (nowNs : ℤ) :
    CliRun :=
  match argv with
  | "engage" :: words => engageCli words path s
  | "release" :: _ => releaseCli path s file nowNs
  | "status" :: _ => statusCli path s file nowNs
  | _ =>
    { exitCode := 1
      printed := ["usage: killswitch.py \x7bengage [reason...] | release | status\x7d"]
      switch := s, file }

/-- What a shell does to the file: a command line, a bare `touch`, or an `rm`. -/
inductive SwitchCommand where
  | cli (argv : List String)
  | touch
  | rm

/-- A command line runs in a process of its own, on a switch that has read nothing yet. -/
def SwitchCommand.run (path : String) (nowNs : ℤ) (file : SwitchFile) : SwitchCommand → SwitchFile
  | .cli argv => (runCli argv path {} file nowNs).file
  | .touch => some (file.getD "")
  | .rm => none

/-- Whether it may write, create or remove the file. -/
def SwitchCommand.touches : SwitchCommand → Bool
  | .cli ("engage" :: _) => true
  | .cli ("release" :: _) => true
  | .cli _ => false
  | .touch | .rm => true

/-- The order that stands after a command: the reason to halt, if there is one. -/
def SwitchCommand.obey (order : Option String) : SwitchCommand → Option String
  | .cli ("engage" :: words) =>
    some (String.ofList (universalNewlines (givenReason words).toList))
  | .cli ("release" :: _) => none
  | .cli _ => order
  | .touch => some (order.getD "(no reason recorded)")
  | .rm => none

/-- The order that a file gives to those who read it. -/
def SwitchFile.order (file : SwitchFile) : Option String :=
  if file.isSome then some (shownReason ((KillSwitch.reason file.readText).getD none)) else none

theorem givenReason_trimmed (words : List String) : Trimmed (givenReason words).toList := by
  simp only [givenReason]
  split
  · constructor
    · intro c hHead
      obtain rfl : 'e' = c := Option.some.inj hHead
      decide
    · intro c hLast
      obtain rfl : 'n' = c := Option.some.inj hLast
      decide
  · rw [String.toList_ofList]
    exact strip_trimmed _

theorem givenReason_ne_empty (words : List String) : (givenReason words).toList ≠ [] := by
  simp only [givenReason]
  split
  · decide
  next hSome =>
    intro hNone
    exact hSome (String.toList_inj.mp hNone)

/-- The words given to `engage` are what any process shows as the reason. -/
theorem order_engaged (words : List String) :
    SwitchFile.order (some (givenReason words ++ "\n")) =
      some (String.ofList (universalNewlines (givenReason words).toList)) := by
  have hShown : universalNewlines (givenReason words).toList ≠ [] :=
    mt universalNewlines_eq_nil (givenReason_ne_empty words)
  have hNotEmpty : String.ofList (universalNewlines (givenReason words).toList) ≠ "" := by
    intro hEmpty
    rw [← String.toList_inj, String.toList_ofList] at hEmpty
    exact hShown hEmpty
  have hRead : strip (universalNewlines (givenReason words ++ "\n").toList) =
      universalNewlines (givenReason words).toList := by
    rw [String.toList_append]
    exact (givenReason_trimmed words).strip_line
  simp only [SwitchFile.order, SwitchFile.readText, KillSwitch.reason, Option.isSome_some, if_true,
    String.toList_ofList, hRead, shownReason, Option.getD_some, if_neg hNotEmpty]

theorem statusCli_file (path : String) (s : KillSwitch) (file : SwitchFile) (nowNs : ℤ) :
    (statusCli path s file nowNs).file = file := by
  simp only [statusCli]
  split <;> rfl

/-- A command line engages, releases, or leaves the file alone. -/
theorem cli_cases (argv : List String) :
    (∃ words, argv = "engage" :: words) ∨ (∃ words, argv = "release" :: words) ∨
      (SwitchCommand.cli argv).touches = false ∧
        (∀ order, (SwitchCommand.cli argv).obey order = order) ∧
          ∀ path s file nowNs, (runCli argv path s file nowNs).file = file := by
  rcases argv with _ | ⟨word, words⟩
  · exact .inr (.inr ⟨rfl, fun _ => rfl, fun _ _ _ _ => rfl⟩)
  · by_cases hEngage : word = "engage"
    · exact .inl ⟨words, by rw [hEngage]⟩
    · by_cases hRelease : word = "release"
      · exact .inr (.inl ⟨words, by rw [hRelease]⟩)
      · refine .inr (.inr ⟨?_, fun order => ?_, fun path s file nowNs => ?_⟩)
        · simp [SwitchCommand.touches, hEngage, hRelease]
        · simp [SwitchCommand.obey, hEngage, hRelease]
        · by_cases hStatus : word = "status"
          · rw [hStatus]
            exact statusCli_file path s file nowNs
          · simp [runCli, hEngage, hRelease, hStatus]

theorem run_order (path : String) (nowNs : ℤ) (file : SwitchFile) (command : SwitchCommand) :
    (command.run path nowNs file).order = command.obey file.order := by
  cases command with
  | touch =>
    cases file with
    | none =>
      have hEmpty : SwitchFile.order (some "") = some "(no reason recorded)" := by decide
      exact hEmpty
    | some contents =>
      obtain ⟨reason, hReason⟩ : ∃ reason, SwitchFile.order (some contents) = some reason :=
        ⟨_, rfl⟩
      rw [SwitchCommand.run, Option.getD_some, hReason]
      rfl
  | rm => rfl
  | cli argv =>
    obtain ⟨words, rfl⟩ | ⟨words, rfl⟩ | ⟨-, hOrder, hFile⟩ := cli_cases argv
    · exact order_engaged words
    · rfl
    · rw [hOrder, SwitchCommand.run, hFile]

theorem run_of_not_touches {command : SwitchCommand} (h : command.touches = false) (path : String)
    (nowNs : ℤ) (file : SwitchFile) : command.run path nowNs file = file := by
  cases command with
  | touch | rm => cases h
  | cli argv =>
    obtain ⟨words, rfl⟩ | ⟨words, rfl⟩ | ⟨-, -, hFile⟩ := cli_cases argv
    · cases h
    · cases h
    · exact hFile path {} file nowNs

/-- `status` in a process of its own tells the order that the file gives. -/
theorem status_tells (path : String) (file : SwitchFile) (nowNs : ℤ) :
    (runCli ["status"] path {} file nowNs).exitCode = (if file.order.isSome then 2 else 0) ∧
      ∀ reason ∈ file.order, (runCli ["status"] path {} file nowNs).printed =
        ["ENGAGED at " ++ path ++ ": " ++ reason] := by
  cases file with
  | none => exact ⟨rfl, fun reason hReason => by cases hReason⟩
  | some contents =>
    refine ⟨rfl, fun reason hReason => ?_⟩
    rw [← Option.some_inj.mp hReason]
    rfl

end KalshiBot.Runtime
