/-
Tables: values under names, in the order in which the names first came.

Writing under a name that is present keeps its place and replaces its value, so
the order of a table is that of first insertions and its names never repeat.
-/
namespace RecordQuery

abbrev Table (α : Type) := List (String × α)

namespace Table

variable {α : Type}

def get? : Table α → String → Option α
  | [], _ => none
  | (name, value) :: rest, key => if name = key then some value else get? rest key

def has (table : Table α) (key : String) : Bool :=
  (table.get? key).isSome

def put : Table α → String → α → Table α
  | [], key, value => [(key, value)]
  | (name, old) :: rest, key, value =>
    if name = key then (name, value) :: rest else (name, old) :: put rest key value

def names (table : Table α) : List String :=
  table.map Prod.fst

/-- The table of the given pairs; of several pairs with one name the first gives
the place and the last the value. -/
def ofPairs (pairs : List (String × α)) : Table α :=
  pairs.foldl (fun table pair => table.put pair.1 pair.2) []

@[simp] theorem get?_nil (key : String) : get? ([] : Table α) key = none := rfl

theorem get?_cons (name key : String) (value : α) (rest : Table α) :
    get? ((name, value) :: rest) key = if name = key then some value else get? rest key := rfl

/-- A name reads back what was last put under it, and other names are unmoved. -/
theorem get?_put (table : Table α) (key other : String) (value : α) :
    (table.put key value).get? other = if key = other then some value else table.get? other := by
  induction table with
  | nil => simp [put, get?]
  | cons pair rest ih =>
    obtain ⟨name, old⟩ := pair
    by_cases h : name = key
    · subst h
      by_cases h' : name = other <;> simp [put, get?, h']
    · by_cases h' : name = other
      · have : key ≠ other := fun e => h (h'.trans e.symm)
        simp [put, get?, h', this, h' ▸ h]
      · simp [put, get?, h, h', ih]

/-- A table has the names it had and the one that was put. -/
theorem has_put (table : Table α) (key other : String) (value : α) :
    (table.put key value).has other = (decide (key = other) || table.has other) := by
  simp only [has, get?_put]
  by_cases h : key = other <;> simp [h]

/-- A new name comes last; a known one leaves the names as they are. -/
theorem names_put (table : Table α) (key : String) (value : α) :
    (table.put key value).names =
      if key ∈ table.names then table.names else table.names ++ [key] := by
  induction table with
  | nil => simp [put, names]
  | cons pair rest ih =>
    obtain ⟨name, old⟩ := pair
    simp only [names] at ih ⊢
    by_cases h : name = key
    · simp [put, h]
    · have h' : key ≠ name := fun e => h e.symm
      by_cases hm : key ∈ rest.map Prod.fst <;> simp_all [put]

end Table

end RecordQuery
