import ComLayout.Report.Json
import ComLayout.Vtable.Summary

/-!
# The JSON report

The report holds the pattern and the time of the lookup, the interface, the header, all slots and the
summary. What is absent is null.
-/

namespace ComLayout.Report

/-- An object whose keys are given as strings. -/
def fields (entries : List (String × Json)) : Json :=
  .object (entries.map fun entry => (entry.1.toList, entry.2))

/-- The object for one slot. -/
def methodObject (m : Method) : Json :=
  fields [("index", .int m.index), ("name", .text m.name.toList), ("line", .ofInt? m.line),
    ("interface", .text m.interface.toList), ("iid", .ofText? m.iid)]

/-- The object for a summary. -/
def summaryObject (s : Summary) : Json :=
  fields [("total_methods", .int s.total), ("own_methods", .int s.own),
    ("inherited_methods", .int s.inherited),
    ("by_interface", fields (s.byInterface.map fun entry => (entry.1, .int entry.2)))]

/-- The object for a vtable that was looked up by a pattern at a time. -/
def document (vtable : Vtable) (pattern : Option String) (time : String) : Json :=
  fields [
    ("scan_metadata", fields [("tool", .text "vtabscan".toList), ("timestamp", .text time.toList),
      ("pattern", .ofText? pattern)]),
    ("interface", .text vtable.interface.toList),
    ("source_path", .ofText? vtable.source),
    ("methods", .list (vtable.methods.map methodObject)),
    ("summary", summaryObject (Summary.ofVtable vtable))]

/-- The text of the JSON report. -/
def json (vtable : Vtable) (pattern : Option String) (time : String) : List Char :=
  (document vtable pattern time).render ++ ['\n']

end ComLayout.Report
