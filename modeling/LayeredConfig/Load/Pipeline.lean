import LayeredConfig.Load.Request
import LayeredConfig.Resolution
import LayeredConfig.Schema.Validation

namespace LayeredConfig.Load

abbrev Run := ExceptT Failure (StateM Log)

structure Loaded where
  config : Node
  metadata : Import.Metadata

def note (events : List Event) : Run Unit := modify (· ++ events)

def importing {α : Type} (run : Import.Run α) : Run α := fun log =>
  let (result, progress) := run.run ⟨[], [], log⟩
  (result.mapError .document, progress.log)

def resolving {α : Type} (run : Resolution.Run α) : Run α := fun log =>
  let (result, log) := run.run log
  (result.mapError .tag, log)

/-- A schema that the loader did not take, because its key was annotated. -/
def leftoverSchema (tree : Node) : Option Mapping :=
  match tree with
  | .mapping fields =>
    match Fields.get? fields Import.schemaKey with
    | some (.mapping schema) => some schema
    | _ => none
  | _ => none

def modeLog : Schema.Mode → Log
  | .nothing => []
  | .annotated annotations => [.validatingPaths annotations.length]
  | .suffixed _ => [.validatingSuffixes]

def validateWith (tree : Node) (annotations : Fields String) (schema : Mapping) : Run Unit := do
  note [.validating schema.length annotations.length]
  note (modeLog (Schema.mode tree schema annotations))
  match Schema.validate tree schema annotations with
  | .ok () => return
  | .error mismatch => throw (.schema mismatch)

def Request.entryPath (request : Request) (entry : Path) : Path :=
  if entry.isAbsolute then entry else request.workingDir.join entry

def resolveTwice (ctx : Resolution.Context) (symbols : Mapping) (tree : Node) :
    Resolution.Run Node := do
  let first ← Resolution.resolve { ctx with symbols := none } tree
  Resolution.resolve { ctx with symbols := some symbols } first

def load (request : Request) : Run Loaded := do
  match request.entry with
  | none => throw .missingEntry
  | some entry =>
    note request.source.log
    let loaded ← importing (Import.loadDocument request.files (request.entryPath entry))
    let annotations := Ascription.extract loaded.tree
    let place : Tag.Place :=
      ⟨request.source.environment, loaded.metadata.baseDir, request.files⟩
    let tree ← resolving (resolveTwice ⟨place, none, request.registry⟩ request.symbols loaded.tree)
    let schema := loaded.metadata.schema.or (leftoverSchema tree)
    match schema with
    | some schema => validateWith tree annotations schema
    | none => pure ()
    return ⟨tree, { loaded.metadata with schema := schema }⟩

end LayeredConfig.Load
