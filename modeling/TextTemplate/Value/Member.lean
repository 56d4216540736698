import TextTemplate.Value.Basic
/-! # Steps into a value

A path leads into a value by names and indices. Besides the keys of objects and the places of
arrays there are the members `size`, `first` and `last`, which are worked out.
-/

namespace TextTemplate

/-- One step into a value. -/
inductive Key where
  | name (s : String)
  | index (i : Int)
deriving DecidableEq, Repr

namespace Value

/-- The value one step further, if there is one. A key of an object hides its `size`; an index
counts from zero and is never negative. -/
def get? : Value → Key → Option Value
  | .object members, .name name =>
    match member? name members with
    | some value => some value
    | none => if name = "size" then some (ofNat members.length) else none
  | .array items, .index i => if i < 0 then none else items[i.toNat]?
  | .array items, .name name =>
    if name = "size" then some (ofNat items.length)
    else if name = "first" then items.head?
    else if name = "last" then items.getLast?
    else none
  | .string s, .name name => if name = "size" then some (ofNat s.toList.length) else none
  | _, _ => none

end Value

end TextTemplate
