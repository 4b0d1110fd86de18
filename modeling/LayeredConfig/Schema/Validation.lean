import LayeredConfig.Node.View
import LayeredConfig.Schema.Conformance

/-! Checking a whole document against the named types of a schema. -/

namespace LayeredConfig.Schema

/-- What is checked: nothing, the values at recorded paths, or the keys that still carry their
annotation. -/
inductive Mode where
  | nothing
  | annotated (annotations : Fields String)
  | suffixed (fields : Mapping)

def mode (doc : Node) (schema : Mapping) (annotations : Fields String) : Mode :=
  if schema.isEmpty then .nothing
  else if !annotations.isEmpty then .annotated annotations
  else match doc with
    | .mapping fields => .suffixed fields
    | _ => .nothing

def checkPath (doc : Node) (schema : Mapping) (path typeName : String) : Except Mismatch Unit :=
  match Fields.get? schema typeName with
  | none => .ok ()
  | some spec =>
    match doc.getPath? path with
    | none | some .null => .ok ()
    | some value => check (Spec.ofNode spec) path value

def checkPaths (doc : Node) (schema : Mapping) : Fields String → Except Mismatch Unit
  | [] => .ok ()
  | (path, typeName) :: rest => do
    checkPath doc schema path typeName
    checkPaths doc schema rest

def checkSuffix (schema : Mapping) (key : String) (value : Node) : Except Mismatch Unit :=
  match Ascription.read? key with
  | none => .ok ()
  | some ascription =>
    match Fields.get? schema ascription.typeName with
    | none => .ok ()
    | some spec => check (Spec.ofNode spec) ascription.base value

def checkSuffixes (schema : Mapping) : Mapping → Except Mismatch Unit
  | [] => .ok ()
  | (key, value) :: rest => do
    checkSuffix schema key value
    checkSuffixes schema rest

def validate (doc : Node) (schema : Mapping) (annotations : Fields String) : Except Mismatch Unit :=
  match mode doc schema annotations with
  | .nothing => .ok ()
  | .annotated annotations => checkPaths doc schema annotations
  | .suffixed fields => checkSuffixes schema fields

end LayeredConfig.Schema
