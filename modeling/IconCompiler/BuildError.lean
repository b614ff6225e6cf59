import IconCompiler.FileSystem
import IconCompiler.Glob.Pattern
import IconCompiler.Json.Cursor
import IconCompiler.Markup.Fault

/-!
# Errors of a build
-/

namespace IconCompiler

/-- What is wrong with the content of a configuration file. -/
inductive ConfigFault where
  | json (fault : Json.Fault)
  /-- No job at all is allowed. -/
  | noJobs
  deriving Repr, DecidableEq

/-- The wording of a fault. -/
def ConfigFault.message : ConfigFault → String
  | .json fault => fault.message
  | .noJobs => "jobs must be at least 1"

/-- Why a build, or one asset of it, failed. -/
inductive BuildError where
  /-- A file or directory could not be read or written. -/
  | io (path : Path) (fault : IoFault)
  /-- The pattern of the sources is faulty. -/
  | pattern (pattern : String) (fault : Glob.PatternFault)
  /-- A source has no file name that is a text. -/
  | invalidPath (path : Path)
  /-- Two sources have the same component name. -/
  | duplicateName (category name filename existing : String)
  /-- A manifest is faulty. -/
  | manifest (fault : Json.Fault)
  /-- A configuration file is faulty. -/
  | config (path : Path) (fault : ConfigFault)
  /-- The source of an asset is faulty. -/
  | asset (filepath : String) (error : Markup.SourceError)
  deriving Repr, DecidableEq

namespace BuildError

/-- The wording of an error. -/
def message : BuildError → String
  | .io p fault => "IO error at " ++ p.display ++ ": " ++ fault.message
  | .pattern text fault => "Invalid glob pattern " ++ text ++ ": " ++ fault.message
  | .invalidPath p => "Invalid source path: " ++ p.display
  | .duplicateName category name filename existing =>
    "Duplicate icon data " ++ category ++ "/" ++ name ++ ", " ++ filename ++
      " (already defined by " ++ existing ++ ")"
  | .manifest fault => "Serialization error: " ++ fault.message
  | .config p fault => "Invalid config " ++ p.display ++ ": " ++ fault.message
  | .asset filepath error => "Failed to compile " ++ filepath ++ ": " ++ error.message

/-- Whether the error is the fault of one asset, which a build can leave out. -/
def isAsset : BuildError → Bool
  | .asset _ _ => true
  | _ => false

end BuildError

end IconCompiler
