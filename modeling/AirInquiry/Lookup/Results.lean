import AirInquiry.Json.Basic

/-!
# Collected results

The results of several lookups are collected table by table. Lists are put one behind the other,
objects are united key by key, and in any other case the newer value takes the place of the older.
-/

set_option autoImplicit false
set_option relaxedAutoImplicit false

namespace AirInquiry.Lookup

/-- The value of a table after a newer one. -/
def mergeValue : Option Json → Json → Json
  | some (.array older), .array newer => .array (older ++ newer)
  | some (.object older), .object newer => .object (Json.Entries.union older newer)
  | _, newer => newer

/-- Collected results with the value of one more table. -/
def mergeEntry (collected : Json.Entries) (entry : String × Json) : Json.Entries :=
  collected.insert entry.1 (mergeValue (collected.get? entry.1) entry.2)

/-- Collected results with those of one more lookup. -/
def merge (collected newer : Json.Entries) : Json.Entries := newer.foldl mergeEntry collected

end AirInquiry.Lookup
