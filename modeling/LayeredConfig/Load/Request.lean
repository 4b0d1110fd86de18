import LayeredConfig.Import.Loader
import LayeredConfig.Schema.Conformance
import LayeredConfig.Tag.Standard

namespace LayeredConfig.Load

inductive Source where
  | given (environment : Environment)
  | process (vars : List (String × Option String))

def Source.environment : Source → Environment
  | .given environment => environment
  | .process vars => .ofTexts (vars.filterMap fun (name, text?) => text?.map (name, ·))

def Source.log : Source → Log
  | .given _ => []
  | .process vars => (vars.filter (·.2.isNone)).map fun (name, _) => .skippedVariable name

structure Request where
  entry : Option Path
  workingDir : Path
  files : FileSystem
  source : Source
  symbols : Mapping
  registry : Tag.Registry

inductive Failure where
  | missingEntry
  | document (failure : Import.Failure)
  | tag (failure : Tag.Failure)
  | schema (mismatch : Schema.Mismatch)
  | shape

def Failure.message : Failure → String
  | .missingEntry => "no entry document given; call .with_file() before loading"
  | .document failure => "configuration error: " ++ failure.message
  | .tag failure => "tag error: " ++ failure.message
  | .schema mismatch => "schema error: " ++ mismatch.message
  | .shape => "configuration error: the configuration does not have the wanted shape"

end LayeredConfig.Load
