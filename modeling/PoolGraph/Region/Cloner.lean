import PoolGraph.Region.Basic

/-!
# Cloning object graphs

A `Cloner` copies objects of one region, with everything they refer to, into another region
of the same schema.  It remembers the copy of every object, so that shared and circular
references stay shared and circular.
-/

namespace PoolGraph

/-- A copying of `source` into `target` under way: the position of the copy of each object that
has one, and the copies whose fields are still to be filled, each behind the object that it is
a copy of. -/
structure Cloner where
  source : Region
  target : Region
  copies : List (Array (Option Nat))
  pending : List (Instance × Instance)

namespace Cloner

/-- A copying that has not begun, between regions of equal schemas. -/
def start (source target : Region) : Except SchemaError Cloner :=
  if source.schema = target.schema then
    .ok ⟨source, target, source.pools.map fun pool => Array.replicate pool.size none, []⟩
  else .error (.mismatch target.schema.name source.schema.name)

/-- The copy of an existing object, if there is one. -/
def copy? (c : Cloner) (old : Instance) : Except Fault (Option Instance) :=
  match c.copies[old.struct]? with
  | none => .error (.noStruct old.struct)
  | some positions =>
    match positions[old.index]? with
    | none => .error (.noObject old)
    | some position => .ok (position.map fun index => ⟨old.struct, index⟩)

/-- Computations that extend a copying. -/
abbrev CloneM := StateT Cloner (Except Fault)

/-- The copy of an object.  When there is none, one is allocated, to be filled later. -/
def visit (old : Instance) : CloneM Instance := fun c => do
  match ← c.copy? old with
  | some copy => return (copy, c)
  | none =>
    let ⟨source, target, copies, pending⟩ := c
    let (copy, target) ← target.allocateStruct old.struct
    let copies := copies.modify old.struct fun positions =>
      positions.setIfInBounds old.index (some copy.index)
    return (copy, ⟨source, target, copies, (old, copy) :: pending⟩)

mutual

/-- A value with every reference replaced by the copy of what it refers to. -/
def copyValue : Value → CloneM Value
  | .ref target => do return .ref (← visit target)
  | .list items => do return .list (← copyItems [] items)
  | value => pure value

/-- The copies of items, behind those that stand in `before` in reverse. -/
def copyItems (before : List Value) : List Value → CloneM (List Value)
  | [] => pure before.reverse
  | item :: rest => do copyItems ((← copyValue item) :: before) rest

end

/-- Fills the pending copies, the latest first, and those that come up meanwhile; at most as
many as the first argument says. -/
def fill : Nat → CloneM Unit
  | 0 => pure ()
  | more + 1 => do
    match (← get).pending with
    | [] => pure ()
    | (old, copy) :: pending =>
      modify fun c => { c with pending }
      let object ← copyItems [] (← (← get).source.object old)
      modify fun c => { c with target := c.target.setObject copy object }
      fill more

/-- Fills all pending copies.  Each object is pending once, so there are never more to fill
than the source has objects. -/
def fillAll : CloneM Unit := do
  fill (← get).source.sizes.sum

/-- Copies an object and everything it leads to. -/
def cloneInstance (old : Instance) : CloneM Instance := do
  let copy ← visit old
  fillAll
  return copy

/-- Copies a value and everything it leads to. -/
def cloneValue (value : Value) : CloneM Value := do
  let copy ← copyValue value
  fillAll
  return copy

end Cloner

end PoolGraph
