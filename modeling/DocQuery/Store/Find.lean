import DocQuery.Query.Concrete
import DocQuery.Error

/-!
# Store reads

A store answers reads: a collection, a selector and find options give rows, or an error.
-/

namespace DocQuery

/-- One read of a store. -/
structure FindRequest where
  collection : String
  selector : Document
  options : FindOptions
  deriving Repr, Inhabited

/-- How a store answers reads. -/
abbrev Reader := FindRequest → Except Error (List Document)

end DocQuery
