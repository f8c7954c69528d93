/-!
# Configuration

How a client names its count methods, how deep bodies may nest, and what a one-to-one
relation does with several matches.
-/

namespace DocQuery

/-- What a one-to-one relation does when several rows match one parent. -/
inductive OneToOnePolicy where
  /-- Keep the first row in the child's sort order. -/
  | firstBySort
  /-- Fail with `Error.ambiguousOneToOne`. -/
  | reject
  deriving DecidableEq, Repr

/-- Settings of a client. -/
structure Config where
  /-- Appended to a query name to form its count method. -/
  countSuffix : String := ".count"
  /-- The deepest relation level a body may reach; `none` for no bound. -/
  maxDepth : Option Nat := none
  oneToOne : OneToOnePolicy := .firstBySort
  deriving Repr

/-- The name of the count method of a query. -/
def Config.countMethod (c : Config) (name : String) : String := name ++ c.countSuffix

end DocQuery
