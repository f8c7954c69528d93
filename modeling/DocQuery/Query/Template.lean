import DocQuery.Json.Basic

/-!
# Templates

A template is a JSON value in which some places are placeholders, bound per call from
parameters. In JSON text a placeholder is a string `"$name"`; `"$$text"` stands for the
literal string `"$text"`, and `"$"` alone is literal. An object or array without any
placeholder is a single literal, so a template that is not a literal holds a placeholder.
-/

namespace DocQuery

/-- A value known up front, or bound per call. -/
inductive Template where
  /-- A known value. -/
  | literal (v : Json)
  /-- A placeholder with an optional default. -/
  | param (name : String) (default : Option Json)
  /-- An object holding a placeholder, entries in order. -/
  | object (entries : List (String × Template))
  /-- An array holding a placeholder. -/
  | array (items : List Template)
  deriving Repr, Inhabited

namespace Template

/-- The value of a literal. -/
def literal? : Template → Option Json
  | .literal v => some v
  | _ => none

/-- The template of a JSON string: `"$$x"` is the literal `"$x"`, `"$x"` the placeholder
`x`, anything else a literal string. -/
def ofString (s : String) : Template :=
  match s.toList with
  | '$' :: '$' :: rest => .literal (.str (String.ofList ('$' :: rest)))
  | '$' :: c :: rest => .param (String.ofList (c :: rest)) none
  | _ => .literal (.str s)

mutual
/-- The template of a JSON value: strings as in `ofString`, objects and arrays read member
by member and collapsed to a literal when no member is a placeholder. -/
def ofJson : Json → Template
  | .str s => ofString s
  | .arr xs =>
    let ts := ofJsonItems xs
    match ts.mapM literal? with
    | some vs => .literal (.arr vs)
    | none => .array ts
  | .obj es =>
    let ts := ofJsonEntries es
    match ts.mapM (fun e => e.2.literal?.map (e.1, ·)) with
    | some o => .literal (.obj o)
    | none => .object ts
  | v => .literal v

/-- The templates of array items. -/
def ofJsonItems : List Json → List Template
  | [] => []
  | x :: xs => ofJson x :: ofJsonItems xs

/-- The templates of object entries. -/
def ofJsonEntries : List (String × Json) → List (String × Template)
  | [] => []
  | (k, v) :: es => (k, ofJson v) :: ofJsonEntries es
end

mutual
/-- The placeholder names of a template, in order of appearance. -/
def paramNames : Template → List String
  | .literal _ => []
  | .param name _ => [name]
  | .object es => entryParamNames es
  | .array ts => itemParamNames ts

/-- The placeholder names of a list of templates. -/
def itemParamNames : List Template → List String
  | [] => []
  | t :: ts => paramNames t ++ itemParamNames ts

/-- The placeholder names of a list of entries. -/
def entryParamNames : List (String × Template) → List String
  | [] => []
  | (_, t) :: es => paramNames t ++ entryParamNames es
end

end Template

end DocQuery
