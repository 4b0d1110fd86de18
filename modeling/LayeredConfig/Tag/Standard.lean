import LayeredConfig.Number.Literal
import LayeredConfig.Tag.Registry
import LayeredConfig.Text.Blank

/-! The tags that are always there: `!rgb(r, g, b)` and `!file(path)`. -/

namespace LayeredConfig.Tag

open Number Text

def leadingInt (s : String) : Int64 :=
  match Literal.scan (trim s.toList) with
  | none => 0
  | some (l, _) => l.int64?.getD l.toDouble.toInt64

def rgb : Handler := fun call =>
  match call.args.map leadingInt with
  | [r, g, b] =>
    .ok (.string ("rgb(" ++ toString r.toInt ++ ", " ++ toString g.toInt ++ ", " ++
      toString b.toInt ++ ")"))
  | channels => .error (.arity "rgb" 3 channels.length)

def file : Handler := fun call =>
  let files := call.place.files
  let path := files.realPath (call.place.baseDir.join ⟨call.args.headD ""⟩)
  if files.isFile path then
    match files.read path with
    | .ok text => .ok (.string text)
    | .error error => .error (.unreadable path error)
  else .error (.fileNotFound path)

def standard : Registry := Fields.ofPairs [("rgb", rgb), ("file", file)]

end LayeredConfig.Tag
