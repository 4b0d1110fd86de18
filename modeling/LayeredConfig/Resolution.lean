import LayeredConfig.Ascription
import LayeredConfig.Formula.Evaluation
import LayeredConfig.Tag.Registry

/-! Replacing expressions, tags and conditionals by what they stand for. -/

namespace LayeredConfig.Resolution

open Tag

structure Context where
  place : Place
  symbols : Option Mapping
  registry : Registry

def Context.scope (ctx : Context) : Formula.Scope := ⟨ctx.place.environment, ctx.symbols.getD []⟩

abbrev Run := ExceptT Failure (StateM Log)

def note (e : Event) : Run Unit := modify (· ++ [e])

def runTag (ctx : Context) (name : String) (args : List String) : Run Node := fun log =>
  ctx.registry.run name args ctx.place log

def Context.defers (ctx : Context) (text : String) : Bool :=
  ctx.symbols.isNone && Formula.referencesSymbols text.toList

def evaluated (ctx : Context) (text : String) : Run Node := do
  let evaluation := Formula.evaluate ctx.scope text.toList
  match evaluation.failure with
  | some (part, fault) => note (.keptText part fault)
  | none => pure ()
  return evaluation.value

def resolveExpression (ctx : Context) (text : String) : Run Node :=
  if ctx.defers text then do
    note (.deferredExpression text)
    return .expression text
  else evaluated ctx text

/-- What is left of a conditional: all of it as long as its condition has to wait, its resolved
value if the condition holds, and else nothing. Only in the second case its value is looked at. -/
def keepIf (ctx : Context) (condition : String) (value : Node) (resolved : Run Node) :
    Run (Option Node) :=
  if ctx.defers condition then do
    note (.deferredConditional condition)
    return some (.conditional condition value)
  else do
    if (← evaluated ctx condition).truthy then return some (← resolved) else return none

mutual

/-- The annotations of keys go away here. Only a tag can make the resolution fail. -/
def resolve (ctx : Context) : Node → Run Node
  | .mapping fields => do return .mapping (← resolveFields ctx [] fields)
  | .sequence items => do return .sequence (← resolveItems ctx items)
  | .expression text => resolveExpression ctx text
  | .tag name args => runTag ctx name args
  | .conditional condition value => do
    return (← keepIf ctx condition value (resolve ctx value)).getD .null
  | n => return n

def resolveItems (ctx : Context) : List Node → Run (List Node)
  | [] => return []
  | .conditional condition value :: rest => do
    let kept ← keepIf ctx condition value (resolve ctx value)
    return kept.toList ++ (← resolveItems ctx rest)
  | item :: rest => do
    let item ← resolve ctx item
    return item :: (← resolveItems ctx rest)

/-- Adds fields to those that are done; of keys that agree without their annotations, the last
one counts. -/
def resolveFields (ctx : Context) (done : Mapping) : List (String × Node) → Run Mapping
  | [] => return done
  | (key, value) :: rest => do
    let value ← resolve ctx value
    resolveFields ctx (Fields.insert done (Ascription.strip key) value) rest

end

end LayeredConfig.Resolution
