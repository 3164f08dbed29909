/-!
# Tables

A table maps names to values and keeps them in the order in which the names came
first; giving a name a new value leaves it at its place.
-/

namespace BridgeBindings

structure Table (α : Type) where
  entries : List (String × α)
  deriving Repr, Inhabited

namespace Table

variable {α : Type}

def empty : Table α := ⟨[]⟩

/-- The value of the first entry of this name. -/
def find (key : String) : List (String × α) → Option α
  | [] => none
  | (k, v) :: rest => if k = key then some v else find key rest

def get? (t : Table α) (key : String) : Option α := find key t.entries

def contains (t : Table α) (key : String) : Bool := (t.get? key).isSome

def put (key : String) (value : α) : List (String × α) → List (String × α)
  | [] => [(key, value)]
  | (k, v) :: rest =>
      if k = key then (k, value) :: rest else (k, v) :: put key value rest

def insert (t : Table α) (key : String) (value : α) : Table α :=
  ⟨put key value t.entries⟩

/-- Adds an entry only for a name that has none. -/
def insertNew (t : Table α) (key : String) (value : α) : Table α :=
  if t.contains key then t else t.insert key value

def keys (t : Table α) : List String := t.entries.map (·.1)

def values (t : Table α) : List α := t.entries.map (·.2)

def ofList (entries : List (String × α)) : Table α :=
  entries.foldl (fun t (k, v) => t.insert k v) empty

def map {β : Type} (f : α → β) (t : Table α) : Table β :=
  ⟨t.entries.map fun (k, v) => (k, f v)⟩

theorem find_put_self (key : String) (value : α) (es : List (String × α)) :
    find key (put key value es) = some value := by
  induction es with
  | nil => simp [put, find]
  | cons e es ih => by_cases h : e.1 = key <;> simp [put, find, h, ih]

theorem find_put_of_ne {key other : String} (h : other ≠ key) (value : α)
    (es : List (String × α)) :
    find other (put key value es) = find other es := by
  induction es with
  | nil => simp [put, find, Ne.symm h]
  | cons e es ih =>
    by_cases hk : e.1 = key
    · simp [put, find, hk, Ne.symm h]
    · simp [put, find, hk, ih]

@[simp] theorem get?_insert_self (t : Table α) (key : String) (value : α) :
    (t.insert key value).get? key = some value :=
  find_put_self key value t.entries

theorem get?_insert_of_ne {key other : String} (h : other ≠ key)
    (t : Table α) (value : α) :
    (t.insert key value).get? other = t.get? other :=
  find_put_of_ne h value t.entries

end Table

/-! ## Sorted lists of names -/

/-- Names in the order of their characters' numbers. -/
def sortNames (names : List String) : List String :=
  names.mergeSort (fun a b => decide (a ≤ b))

/-- Names in order, each once. -/
def sortedSet (names : List String) : List String := (sortNames names).eraseReps

end BridgeBindings
