import AnonymousObjects.Types.Registry

/-!
# Listings

A listing of the anonymous types and templates of a store that does not depend on the order in which
they were created: without ids and indices, and sorted.
-/

namespace AnonymousObjects

/-- The fields of the anonymous types with the types that are shown for them, and the field names of
the templates, both sorted. -/
structure Listing where
  types : List (List (String × String))
  templates : List (List String)
deriving DecidableEq, Repr

namespace Listing

/-- Rows in order, compared from their first item on. -/
def sorted {α : Type} (words : α → List String) (rows : List α) : List α :=
  rows.mergeSort fun a b => decide (¬ words b < words a)

/-- A row of pairs as a row of words. -/
def words (row : List (String × String)) : List String :=
  row.flatMap fun (name, shown) => [name, shown]

/-- The listing of a store. -/
def ofStore (s : Store) : Listing :=
  let shown (id : TypeId) : String := ((s.table.get? id).map (·.name)).getD ""
  { types := sorted words (s.registry.types.map fun a =>
      a.key.map fun (name, type) => (name, shown type))
    templates := sorted id (s.registry.templates.map (·.fieldNames)) }

end Listing

end AnonymousObjects
