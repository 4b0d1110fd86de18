import LayeredConfig.Environment
import LayeredConfig.Event
import LayeredConfig.FileSystem

namespace LayeredConfig.Tag

open Text

inductive Failure where
  | unknown (name : String)
  | arity (name : String) (expected got : Nat)
  | fileNotFound (path : Path)
  | unreadable (path : Path) (error : ReadError)
  | custom (name message : String)
  deriving Repr, DecidableEq

def Failure.message : Failure → String
  | .unknown name => "unknown tag \"!" ++ name ++ "\""
  | .arity name expected got =>
    "!" ++ name ++ " expects " ++ toString expected ++ " arguments, got " ++ toString got
  | .fileNotFound path => "file not found for !file: " ++ path.text
  | .unreadable path error =>
    "failed to read file for !file '" ++ path.text ++ "': " ++ error.message
  | .custom name message => "!" ++ name ++ " failed: " ++ message

structure Place where
  environment : Environment
  baseDir : Path
  files : FileSystem

structure Call where
  args : List String
  place : Place
  earlierRuns : List (String × List String)

abbrev Handler := Call → Except Failure Node

abbrev Registry := Fields Handler

def earlierRuns (log : Log) : List (String × List String) :=
  log.filterMap fun
    | .runningTag name args => some (name, args)
    | _ => none

def Registry.run (registry : Registry) (name : String) (args : List String) (place : Place)
    (log : Log) : Except Failure Node × Log :=
  match Fields.get? registry name with
  | none => (.error (.unknown name), log)
  | some handler => (handler ⟨args, place, earlierRuns log⟩, log ++ [.runningTag name args])

def Registry.describe (registry : Registry) : String :=
  "TagRegistry \x7b tags: " ++ quotedList (Fields.keys (Fields.sorted registry)) ++ " \x7d"

def Place.describe (place : Place) : String :=
  "TagContext \x7b base_dir: " ++ quoted place.baseDir.text ++ ", .. \x7d"

end LayeredConfig.Tag
