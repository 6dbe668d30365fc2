import ComLayout.StatusLine
import ComLayout.Vtable.Lookup

/-!
# Progress of a lookup

The events of a lookup as calls on a status display: each header is shown while it is read, and the
display is cleared at the end. Remarks are not shown. Without a handle no call is made.
-/

namespace ComLayout.Lookup

/-- The call for an event, under a handle. -/
def statusCall? (handle : String) : LookupEvent → Option StatusCall
  | .reading path => some (.show_ handle path)
  | .remark _ => none
  | .over => some (.clear handle)

/-- The calls for events, under a handle that may be empty. -/
def statusCalls (handle : String) (events : List LookupEvent) : List StatusCall :=
  if handle.isEmpty then [] else events.filterMap (statusCall? handle)

end ComLayout.Lookup
