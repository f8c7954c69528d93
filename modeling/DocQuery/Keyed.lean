/-!
# Lists kept in key order

Several parts of a query are maps from names to values that are iterated in the byte
order of their keys: selectors of a body, relations, parameters, placeholder names. They
are lists of pairs kept sorted by key with distinct keys; `Keyed.insert` keeps that shape,
replacing the value of an equal key and otherwise going before the first larger key. The
order of strings is the order of their characters' code points, which is the byte order of
their UTF-8 encoding.
-/

namespace DocQuery

namespace Keyed

/-- Inserts `(key, v)` into a list sorted by key: the value of an equal key is replaced,
otherwise the pair goes before the first larger key. -/
def insert {α : Type} (key : String) (v : α) : List (String × α) → List (String × α)
  | [] => [(key, v)]
  | (k, w) :: rest =>
    if key < k then (key, v) :: (k, w) :: rest
    else if key = k then (key, v) :: rest
    else (k, w) :: insert key v rest

/-- The value of a key. -/
def get? {α : Type} (l : List (String × α)) (key : String) : Option α :=
  (l.find? (·.1 == key)).map (·.2)

/-- The pairs inserted one by one, so that a later pair of an equal key wins. -/
def ofList {α : Type} (l : List (String × α)) : List (String × α) :=
  l.foldl (fun acc e => insert e.1 e.2 acc) []

/-- Inserts a name into a list of names sorted without repeats. -/
def insertName (name : String) : List String → List String
  | [] => [name]
  | n :: rest =>
    if name < n then name :: n :: rest
    else if name = n then n :: rest
    else n :: insertName name rest

/-- The names sorted without repeats. -/
def nameSet (names : List String) : List String :=
  names.foldl (fun acc n => insertName n acc) []

theorem get?_insert_self {α : Type} (key : String) (v : α) (l : List (String × α)) :
    get? (insert key v l) key = some v := by
  induction l with
  | nil => simp [insert, get?]
  | cons e rest ih =>
    obtain ⟨k, w⟩ := e
    unfold insert
    by_cases hlt : key < k
    · simp [hlt, get?]
    · by_cases heq : key = k
      · simp [heq, get?]
      · simp only [hlt, heq, if_false]
        simp only [get?, List.find?_cons] at ih ⊢
        have hne : (k == key) = false := by
          simp only [beq_eq_false_iff_ne]; exact fun h => heq h.symm
        simpa [hne] using ih

end Keyed

end DocQuery
