import LayeredConfig.Event
import LayeredConfig.FileSystem
import LayeredConfig.Import.Directives
import LayeredConfig.Import.HeaderLine
import LayeredConfig.Node.Layering
import LayeredConfig.Outline.Reader

/-! Loading a document and all that it imports, each file once. -/

namespace LayeredConfig.Import

inductive Failure where
  | fileNotFound (path : Path)
  | unreadable (path : Path) (error : ReadError)
  | wrongHeader (path : Path) (header : String)
  | misindented (path : Path) (underflow : Outline.Underflow)
  deriving Repr, DecidableEq

def Failure.message : Failure → String
  | .fileNotFound path => "config file not found: " ++ path.text
  | .unreadable path error =>
    "failed to read config file '" ++ path.text ++ "': " ++ error.message
  | .wrongHeader path header => "invalid WAFL header in '" ++ path.text ++ "': " ++ header
  | .misindented path underflow =>
    "failed to parse config file '" ++ path.text ++ "': " ++ underflow.message

structure Metadata where
  imports : List String
  schema : Option Mapping
  eval : Option Node
  baseDir : Path

structure Document where
  tree : Node
  metadata : Metadata

def Document.nothing : Document := ⟨.mapping [], ⟨[], none, none, ⟨""⟩⟩⟩

structure Progress where
  visited : List Path
  reads : List Path
  log : Log

abbrev Run := ExceptT Failure (StateM Progress)

def note (e : Event) : Run Unit := modify fun p => { p with log := p.log ++ [e] }

def isVisited (path : Path) : Run Bool := return (← get).visited.any path.same

def markVisited (path : Path) : Run Unit :=
  modify fun p => { p with visited := p.visited ++ [path] }

def readFile (files : FileSystem) (path : Path) : Run (Except ReadError String) := do
  modify fun p => { p with reads := p.reads ++ [path] }
  return files.read path

def sourceOf (path : Path) : Except ReadError String → Except Failure String
  | .ok source =>
    match wrongHeader? source.toList with
    | some header => .error (.wrongHeader path (String.ofList header))
    | none => .ok source
  | .error error =>
    if error.kind = .notFound then .error (.fileNotFound path) else .error (.unreadable path error)

def directivesOf (path : Path) (answer : Except ReadError String) : Except Failure Directives := do
  let source ← sourceOf path answer
  match Outline.parse? source.toList with
  | .ok tree => return .split tree
  | .error underflow => throw (.misindented path underflow)

def noteSchema (d : Directives) : Run Unit :=
  match d.schema with
  | some n => if n.kind = .object then pure () else note (.ignoredSchema n.kind)
  | none => pure ()

def importTarget (files : FileSystem) (dir : Path) (written : String) : Path :=
  let path : Path := ⟨written⟩
  if path.isAbsolute then path else files.realPath (dir.join path)

/-- An imported document is laid over what there is, and its directives count where none of that
kind were found before. -/
def Document.add (d imported : Document) : Document where
  tree := d.tree.merge imported.tree
  metadata := { d.metadata with
    schema := d.metadata.schema.or imported.metadata.schema
    eval := d.metadata.eval.or imported.metadata.eval }

/-- Loads a document. Each level of imports takes one unit of fuel. -/
def loadWith (files : FileSystem) : (fuel : Nat) → Path → Run Document
  | 0, _ => return .nothing
  | fuel + 1, path => do
    let here := files.realPath path
    if ← isVisited here then
      note (.skippedDocument here)
      return .nothing
    markVisited here
    let d ← directivesOf here (← readFile files here)
    noteSchema d
    note (.loadedDocument here d.imports.length)
    let start : Document := ⟨.null, ⟨d.imports, d.schemaMapping, d.eval, here.parent⟩⟩
    let below ← d.imports.foldlM
      (fun acc written =>
        return acc.add (← loadWith files fuel (importTarget files here.parent written))) start
    return { below with tree := below.tree.merge d.content }

/-- As many levels as there are files are never exceeded, since each level reads another file. -/
def loadDocument (files : FileSystem) (entry : Path) : Run Document := do
  let path := files.realPath entry
  if files.isFile path then
    let loaded ← loadWith files (files.files.length + 1) path
    return { loaded with metadata := { loaded.metadata with baseDir := path.parent } }
  else throw (.fileNotFound path)

end LayeredConfig.Import
