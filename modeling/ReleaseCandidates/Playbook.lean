import ReleaseCandidates.Configuration
import ReleaseCandidates.TestRun

set_option autoImplicit false

/-! # Playbooks

The tests of a snapshot are an external program that is given a playbook and an inventory. It runs
with the variables of the snapshot on top of the environment, and tells by its exit code whether
the tests passed. -/

namespace ReleaseCandidates

/-- Starts a program with arguments and variables and waits for its end. The answer is the exit
code, none if the program was ended by a signal; while it runs, it may change the file system. -/
abbrev Launcher (τ : Type) :=
  String → List String → Variables → StateM (FileSystem × τ) (Except OsError (Option Int))

/-- What is run, on what, and where. -/
structure Playbook where
  program : String
  playbook : String
  inventory : String
  deriving DecidableEq, Repr

namespace Playbook

/-- What is run when nothing else is configured. -/
def default : Playbook where
  program := "ansible-playbook"
  playbook := "test/playbooks/run_test.yaml"
  inventory := "test/playbooks/inventories/remote_host.yaml"

/-- What is run under a configuration. -/
def ofConfiguration (config : Configuration) : Playbook :=
  match config.testAction with
  | none => default
  | some command => {
      program := command.program.getD default.program
      playbook := command.playbook.getD default.playbook
      inventory := command.inventory.getD default.inventory }

/-- The command line, for people. -/
def describe (p : Playbook) : String :=
  p.program ++ " " ++ p.playbook ++ " -i " ++ p.inventory

/-- The arguments of the program. -/
def arguments (p : Playbook) : List String :=
  [p.playbook, "-i", p.inventory]

/-- The playbook as an action. -/
def action {τ : Type} (p : Playbook) (launch : Launcher τ) : TestAction τ where
  describe := p.describe
  run vars := do
    match ← launch p.program p.arguments vars with
    | .ok exitCode => return .ok { success := exitCode == some 0, exitCode := exitCode }
    | .error error => return .error (.within (.actionStart p.describe) (.os error))

end Playbook

end ReleaseCandidates
