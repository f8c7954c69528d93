import DocQuery.Json.Print

/-!
# Errors

Every failure of resolving a query has one cause below, and `Error.message` is its text.
A failure of the remote side is carried as the remote sent it.
-/

namespace DocQuery

/-- An error reported by the remote side: a code, an optional reason and optional details. -/
structure RemoteError where
  error : String
  reason : Option String := none
  details : Option Json := none
  deriving Repr

/-- The reason followed by the code in brackets, or the bracketed code alone. -/
def RemoteError.message (e : RemoteError) : String :=
  match e.reason with
  | some r => r ++ " [" ++ e.error ++ "]"
  | none => "[" ++ e.error ++ "]"

/-- Why a query could not be resolved. -/
inductive Error where
  /-- A placeholder has neither a parameter nor a default. -/
  | missingParameter (name : String)
  /-- A body follows a relation that the collection does not declare. -/
  | unknownRelation (collection relation : String)
  /-- The remote side failed. -/
  | remote (e : RemoteError)
  /-- A one-to-one relation found several rows for one parent. -/
  | ambiguousOneToOne (collection relation : String) (count : Nat)
  /-- An option has a value it cannot take. -/
  | invalidOption (option reason : String)
  /-- A body nests relations deeper than allowed. -/
  | depthExceeded (max : Nat)
  /-- The store failed. -/
  | store (message : String)
  /-- A value does not have the shape that was expected. -/
  | decode (message : String)
  deriving Repr

/-- The text of an error. -/
def Error.message : Error → String
  | .missingParameter name => "Missing parameter: " ++ name
  | .unknownRelation collection relation =>
    "Unknown relation `" ++ relation ++ "` on collection `" ++ collection ++ "`"
  | .remote e => e.message
  | .ambiguousOneToOne collection relation count =>
    "One-to-one relation `" ++ relation ++ "` on `" ++ collection ++ "` matched " ++
      toString count ++ " rows for a single parent"
  | .invalidOption option reason => "Invalid option `" ++ option ++ "`: " ++ reason
  | .depthExceeded max => "Query depth exceeds configured maximum of " ++ toString max
  | .store message => "Store error: " ++ message
  | .decode message => "Decode error: " ++ message

end DocQuery
