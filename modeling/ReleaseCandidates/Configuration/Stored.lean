import ReleaseCandidates.Configuration.Layout
import ReleaseCandidates.FileSystem.Path
import ReleaseCandidates.FileSystem.Regular

set_option autoImplicit false

/-! # The configuration file

A configuration file that is asked for by name has to be there. Otherwise one is looked for under a
fixed name in a directory, and without one nothing is set. Links are followed. -/

namespace ReleaseCandidates.Configuration

/-- The name under which a configuration file is looked for. -/
def fileName : String := "rc-tracker.config.yml"

/-- Reads and checks the configuration file at `path`. -/
def loadFile (path : String) (fs : FileSystem) : Except Failure Configuration :=
  match fs.readThrough path with
  | .error error => .error (.within (.configRead path) (.os error))
  | .ok content =>
    match parse content with
    | .error fault => .error (.within (.configParse path) (.yaml fault))
    | .ok config =>
      match config.check with
      | .error failure => .error failure
      | .ok () => .ok config

/-- Reads the configuration file in a directory, if there is one. -/
def discover (directory : String) (fs : FileSystem) : Except Failure Configuration :=
  let path := FileSystem.child directory fileName
  if fs.exists? path then loadFile path fs else .ok .empty

/-- The configuration in the file asked for, else the one found in a directory. -/
def load (explicit : Option String) (directory : String) (fs : FileSystem) :
    Except Failure Configuration :=
  match explicit with
  | some path => loadFile path fs
  | none => discover directory fs

end ReleaseCandidates.Configuration
