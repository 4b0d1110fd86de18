import LayeredConfig.Formula.Lexeme
import LayeredConfig.Path

namespace LayeredConfig

open Text

inductive Event where
  | loadedDocument (path : Path) (imports : Nat)
  | skippedDocument (path : Path)
  | ignoredSchema (kind : Kind)
  | runningTag (name : String) (args : List String)
  | deferredExpression (text : String)
  | deferredConditional (condition : String)
  | keptText (text : String) (fault : Formula.Fault)
  | validating (types annotations : Nat)
  | validatingPaths (annotations : Nat)
  | validatingSuffixes
  | skippedVariable (name : String)
  deriving Repr

abbrev Log := List Event

namespace Event

def isTrace : Event → Bool
  | .deferredExpression _ | .deferredConditional _ | .keptText _ _ | .skippedVariable _ => true
  | _ => false

def level (e : Event) : String := if e.isTrace then "TRACE" else "DEBUG"

def message : Event → String
  | .loadedDocument _ _ => "loaded document"
  | .skippedDocument _ => "skipping already loaded document"
  | .ignoredSchema _ => "ignoring non-mapping @schema block"
  | .runningTag _ _ => "running tag"
  | .deferredExpression _ => "expression deferred until symbols are bound"
  | .deferredConditional _ => "conditional deferred until symbols are bound"
  | .keptText _ _ => "expression left as text"
  | .validating _ _ => "validating against schema"
  | .validatingPaths _ => "validating annotated paths"
  | .validatingSuffixes => "validating <Type> suffixed keys"
  | .skippedVariable _ => "skipping non UTF-8 environment variable"

def fields : Event → List (String × String)
  | .loadedDocument path imports => [("imports", toString imports), ("path", path.text)]
  | .skippedDocument path => [("path", path.text)]
  | .ignoredSchema kind => [("kind", kind.name)]
  | .runningTag name args => [("args", quotedList args), ("tag", name)]
  | .deferredExpression text => [("expr", text)]
  | .deferredConditional condition => [("condition", condition)]
  | .keptText text fault => [("error", fault.message), ("expr", text)]
  | .validating types annotations =>
    [("annotations", toString annotations), ("types", toString types)]
  | .validatingPaths annotations => [("annotations", toString annotations)]
  | .validatingSuffixes => []
  | .skippedVariable name => [("key", "Ok(" ++ quoted name ++ ")")]

end Event

end LayeredConfig
