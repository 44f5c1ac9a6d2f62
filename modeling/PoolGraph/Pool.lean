/-!
# Pools

A `Pool` holds objects in the order in which they came in, and a `Ref` is the position of one
of them.  Objects are never removed, so a reference stays valid.
-/

namespace PoolGraph

/-- The position of an object in a pool of `α`. -/
structure Ref (α : Type) where
  index : Nat

namespace Ref

instance : DecidableEq (Ref α) := fun r s =>
  if h : r.index = s.index then isTrue (by cases r; cases s; congr)
  else isFalse fun e => h (congrArg index e)

/-- A reference as it is shown alone. -/
def label (r : Ref α) : String := s!"#{r.index}"

end Ref

/-- Objects in order of arrival. -/
structure Pool (α : Type) where
  objects : Array α

namespace Pool

/-- The pool without objects. -/
def empty : Pool α := ⟨#[]⟩

instance : Inhabited (Pool α) := ⟨empty⟩

def size (pool : Pool α) : Nat := pool.objects.size

def isEmpty (pool : Pool α) : Bool := pool.objects.isEmpty

/-- Adds an object at the end and tells its position. -/
def push (pool : Pool α) (object : α) : Ref α × Pool α :=
  (⟨pool.size⟩, ⟨pool.objects.push object⟩)

def get? (pool : Pool α) (r : Ref α) : Option α := pool.objects[r.index]?

/-- Replaces the object at a position by its image; positions past the end change nothing. -/
def modify (pool : Pool α) (r : Ref α) (f : α → α) : Pool α :=
  ⟨pool.objects.modify r.index f⟩

/-- The image of every object, in order. -/
def map (f : α → β) (pool : Pool α) : Pool β := ⟨pool.objects.map f⟩

def toList (pool : Pool α) : List α := pool.objects.toList

def ofList (objects : List α) : Pool α := ⟨objects.toArray⟩

/-- The references to all objects, in order. -/
def refs (pool : Pool α) : List (Ref α) :=
  (List.range pool.size).map Ref.mk

/-- A new object stands behind the others. -/
@[simp]
theorem toList_push (pool : Pool α) (object : α) :
  (pool.push object).2.toList = pool.toList ++ [object]
  := by
  simp [push, toList]

theorem toList_modify (pool : Pool α) (r : Ref α) (f : α → α) :
  (pool.modify r f).toList = pool.toList.modify r.index f
  := Array.toList_modify ..

@[simp]
theorem toList_ofList (objects : List α) :
  (ofList objects).toList = objects
  := rfl

@[simp]
theorem size_ofList (objects : List α) :
  (ofList objects).size = objects.length
  := by
  simp [ofList, size]

@[simp]
theorem length_toList (pool : Pool α) :
  pool.toList.length = pool.size
  := by
  simp [toList, size]

/-- A reference is followed by its position. -/
theorem get?_eq_getElem? (pool : Pool α) (r : Ref α) :
  pool.get? r = pool.toList[r.index]?
  := Array.getElem?_toList.symm

/-- The object just added is found at the position that `push` tells. -/
theorem get?_push_self (pool : Pool α) (object : α) :
  (pool.push object).2.get? (pool.push object).1 = some object
  := by
  simp [push, get?, size]

end Pool

end PoolGraph
