import DocQuery.Keyed
import DocQuery.Json.Basic

/-!
# Parameters

Parameters bind placeholder names to values. They are kept in name order, and setting a
name that is present replaces its value.
-/

namespace DocQuery

/-- Values bound to placeholder names, in name order. -/
structure Params where
  entries : List (String × Json) := []
  deriving Repr, Inhabited

namespace Params

/-- No parameters. -/
def empty : Params := {}

/-- The value bound to a name. -/
def get? (p : Params) (name : String) : Option Json := Keyed.get? p.entries name

/-- The parameters with a name bound to a value. -/
def insert (p : Params) (name : String) (v : Json) : Params := ⟨Keyed.insert name v p.entries⟩

/-- `other` laid over `p`: its names take its values. -/
def merge (p other : Params) : Params := other.entries.foldl (fun acc e => acc.insert e.1 e.2) p

/-- The parameters built from pairs, a later pair of an equal name winning. -/
def ofList (l : List (String × Json)) : Params := ⟨Keyed.ofList l⟩

/-- No name is bound. -/
def isEmpty (p : Params) : Bool := p.entries.isEmpty

/-- The parameters as a JSON object in name order. -/
def toJson (p : Params) : Json := .obj p.entries

end Params

end DocQuery
