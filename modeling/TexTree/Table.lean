/-!
# Tables

A table is a finite map from names to values that keeps its entries in the order
in which the names were first inserted.
-/

namespace TexTree

/-- A finite map from names. -/
structure Table (α : Type) where
  entries : List (String × α)
  deriving Repr

namespace Table

variable {α : Type}

/-- The table without entries. -/
def empty : Table α := ⟨[]⟩

instance : Inhabited (Table α) := ⟨empty⟩

/-- The value of a name. -/
def get? (table : Table α) (name : String) : Option α :=
  (table.entries.find? fun entry => entry.1 == name).map Prod.snd

/-- Whether the name has a value. -/
def contains (table : Table α) (name : String) : Bool := (table.get? name).isSome

/-- Replace the value of a name in a list of entries, or add it at the end. -/
def insertInto (name : String) (value : α) : List (String × α) → List (String × α)
  | [] => [(name, value)]
  | entry :: rest =>
      if entry.1 == name then (name, value) :: rest
      else entry :: insertInto name value rest

/-- Give a name a value in place of the one it had. -/
def insert (table : Table α) (name : String) (value : α) : Table α :=
  ⟨insertInto name value table.entries⟩

/-- Take the value from a name. -/
def erase (table : Table α) (name : String) : Table α :=
  ⟨table.entries.filter fun entry => entry.1 != name⟩

/-- The names in the order of their first insertion. -/
def names (table : Table α) : List String := table.entries.map Prod.fst

/-- The table with the given entries, later ones taking precedence. -/
def ofList (entries : List (String × α)) : Table α :=
  entries.foldl (fun table entry => table.insert entry.1 entry.2) empty

@[simp] theorem get?_empty (name : String) : (empty : Table α).get? name = none := rfl

theorem get?_insert (table : Table α) (name other : String) (value : α) :
    (table.insert name value).get? other =
      if name = other then some value else table.get? other := by
  obtain ⟨entries⟩ := table
  induction entries with
  | nil => by_cases equal : name = other <;> simp [insert, insertInto, get?, equal]
  | cons entry rest ih =>
      obtain ⟨key, stored⟩ := entry
      simp only [insert, insertInto, get?] at ih ⊢
      by_cases found : key = name
      · by_cases equal : name = other <;> simp_all
      · by_cases equal : key = other
        · subst equal
          simp [found, Ne.symm found]
        · simpa [found, equal] using ih

@[simp] theorem get?_insert_self (table : Table α) (name : String) (value : α) :
    (table.insert name value).get? name = some value := by
  simp [get?_insert]

theorem get?_erase (table : Table α) (name other : String) :
    (table.erase name).get? other = if name = other then none else table.get? other := by
  obtain ⟨entries⟩ := table
  simp only [erase, get?]
  induction entries with
  | nil => simp
  | cons entry rest ih =>
      obtain ⟨key, stored⟩ := entry
      by_cases dropped : key = name
      · by_cases equal : name = other <;> simp_all
      · by_cases equal : key = other
        · subst equal
          simp [dropped, Ne.symm dropped]
        · simpa [dropped, equal] using ih

end Table

end TexTree
