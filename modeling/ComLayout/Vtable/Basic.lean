/-!
# Vtables

A method record is one slot of a vtable: its index, its name, the line on which it is declared, and the
interface that declares it with its identifier. The three slots that every COM interface inherits come
from no header, so they have neither line nor identifier. A vtable without a source stands for an
interface that was not found.
-/

namespace ComLayout

/-- One slot of a vtable. -/
structure Method where
  index : Int
  name : String
  line : Option Int
  interface : String
  iid : Option String
deriving DecidableEq, Repr

/-- The slots of an interface, and the path of the header that declares it. -/
structure Vtable where
  interface : String
  methods : List Method
  source : Option String
deriving DecidableEq, Repr

namespace Vtable

/-- The interface that every COM interface derives from. -/
def rootInterface : String := "IUnknown"

/-- The slots of the root interface. -/
def rootMethods : List Method :=
  [⟨0, "QueryInterface", none, rootInterface, none⟩, ⟨1, "AddRef", none, rootInterface, none⟩,
   ⟨2, "Release", none, rootInterface, none⟩]

/-- A vtable was found if it has a source. -/
def found (vtable : Vtable) : Bool := vtable.source.isSome

/-- The number of slots. -/
def size (vtable : Vtable) : Nat := vtable.methods.length

end Vtable

end ComLayout
