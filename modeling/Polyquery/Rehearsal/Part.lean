import Polyquery.Session.Policy
import Polyquery.Session.World

/-! The parts that layers and guards play in a rehearsal. -/

namespace Polyquery.Rehearsal

/-- The part of a layer. -/
inductive LayerPart where
  /-- Tells when a context comes in, and how its outcome goes out. -/
  | trace (name : Option String)
  /-- Answers itself. -/
  | short (result : Result)
  /-- Lets another text through, of the same operation. -/
  | rewrite (sql : String) (params : List Value)
  /-- Fails. -/
  | fail (failure : Failure)
  /-- Adds notes. -/
  | annotate (notes : Row)
  /-- Tells all of the context. -/
  | tell
  /-- Lets the context through twice. -/
  | twice
  /-- Turns a failure of execution into an empty result. -/
  | rescue (name : Option String)

namespace LayerPart

/-- The outcome of what a plan lets through, unchanged. -/
def passOn (context : Context) : Plan := .proceed context .finish

/-- What a layer that plays a part does. -/
def plan : LayerPart → Context → Plan
  | trace name, c => .tell (.layerEntered name) (.proceed c fun outcome => match outcome with
    | .ok result => .tell (.layerLeft name result.rowcount) (.finish (.ok result))
    | .error f => .tell (.layerFailed name f) (.finish (.error f)))
  | short result, _ => .finish (.ok result)
  | rewrite sql params, c => passOn { sql, params, operation := c.operation }
  | fail f, _ => .finish (.error f)
  | annotate notes, c => match c.annotated notes with
    | .ok c => passOn c
    | .error f => .finish (.error f)
  | tell, c => .tell (.layerSaw c) (passOn c)
  | twice, c => .proceed c fun first => match first with
    | .ok _ => passOn c
    | .error f => .finish (.error f)
  | rescue name, c => .proceed c fun outcome => match outcome with
    | .ok result => .finish (.ok result)
    | .error f =>
      if f.isExecution then .tell (.layerCaught name f.message) (.finish (.ok {})) else .finish (.error f)

end LayerPart

/-- The part of a guard: it answers a value, fails, or declines contexts of one operation, table or route. -/
inductive GuardPart where
  | answer (value : Value)
  | fail (failure : Failure)
  | operation (given : Value)
  | table (given : Value)
  | route (given : Value)

namespace GuardPart

/-- The guard of a name that plays a part. -/
def guard (name : Option String) (part : GuardPart) : Guard where
  name := name
  answer c := match part with
    | answer value => .ok value
    | fail f => .error f
    | operation given => .ok (.bool !(given.same (.text c.operation.name)))
    | table given => .ok (.bool !(given.same (.ofText? c.table)))
    | route given => .ok (.bool !(given.same (.ofText? c.route)))

end GuardPart

end Polyquery.Rehearsal
