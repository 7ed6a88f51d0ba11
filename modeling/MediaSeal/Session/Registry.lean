/-!
# Registries

Things that can be changed and that others refer to: each has a place of its
own, for good, and may go by a name. A name can be given to a newer thing; the
older one keeps its place, and whoever refers to the place still finds it.
-/

namespace MediaSeal

/-- The kinds of things that are referred to. -/
inductive Asset
  | entropy
  | store
  | ring
  | handle
  | hook
  | path
  | endpoint
  | observer
deriving DecidableEq, Repr

/-- A place in the registry of a kind. -/
structure Ref (kind : Asset) where
  place : Nat
deriving DecidableEq, Repr

/-- Things of a kind by place, and places by name. -/
structure Registry (kind : Asset) (α : Type) where
  entries : List α
  names : List (String × Ref kind)

namespace Registry

variable {kind : Asset} {α : Type}

/-- A registry without entries. -/
def empty : Registry kind α := ⟨[], []⟩

/-- The thing at a place. -/
def get? (registry : Registry kind α) (ref : Ref kind) : Option α := registry.entries[ref.place]?

/-- The place that goes by a name. -/
def find? (registry : Registry kind α) (name : String) : Option (Ref kind) := registry.names.lookup name

/-- The place that the next thing will get. -/
def next (registry : Registry kind α) : Ref kind := ⟨registry.entries.length⟩

/-- A new thing in a place of its own. -/
def add (registry : Registry kind α) (value : α) : Registry kind α :=
  { registry with entries := registry.entries ++ [value] }

/-- A name given to a place, whatever it stood for before. -/
def assign (registry : Registry kind α) (name : String) (ref : Ref kind) : Registry kind α :=
  { registry with names := (name, ref) :: registry.names.filter (·.1 ≠ name) }

/-- A name that stands for nothing any more. -/
def forget (registry : Registry kind α) (name : String) : Registry kind α :=
  { registry with names := registry.names.filter (·.1 ≠ name) }

/-- A new thing under a name. -/
def addNamed (registry : Registry kind α) (name : String) (value : α) : Registry kind α :=
  (registry.add value).assign name registry.next

/-- Another thing in the same place. -/
def set (registry : Registry kind α) (ref : Ref kind) (value : α) : Registry kind α :=
  { registry with entries := registry.entries.set ref.place value }

/-- The thing at a place changed. -/
def modify (registry : Registry kind α) (ref : Ref kind) (change : α → α) : Registry kind α :=
  { registry with entries := registry.entries.modify ref.place change }

/-- Every thing changed in the same way. -/
def map (registry : Registry kind α) (change : α → α) : Registry kind α :=
  { registry with entries := registry.entries.map change }

@[simp] theorem get?_modify_same (registry : Registry kind α) (ref : Ref kind) (change : α → α) :
    (registry.modify ref change).get? ref = (registry.get? ref).map change := by
  simp [get?, modify]

theorem get?_modify_of_ne (registry : Registry kind α) {ref other : Ref kind} (change : α → α)
    (h : ref ≠ other) : (registry.modify ref change).get? other = registry.get? other := by
  have : ref.place ≠ other.place := fun e => h (by cases ref; cases other; simp_all)
  simp [get?, modify, this]

@[simp] theorem get?_add_next (registry : Registry kind α) (value : α) :
    (registry.add value).get? registry.next = some value := by
  simp [get?, add, next]

end Registry

end MediaSeal
