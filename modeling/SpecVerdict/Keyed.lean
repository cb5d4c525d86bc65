namespace SpecVerdict

variable {κ α : Type} [BEq κ]

def lookupKey (key : κ) (fields : List (κ × α)) : Option α :=
  (fields.find? (·.1 == key)).map (·.2)

def setKey (key : κ) (value : α) : List (κ × α) → List (κ × α)
  | [] => [(key, value)]
  | (k, v) :: rest => if k == key then (k, value) :: rest else (k, v) :: setKey key value rest

def updateKeys (fields changes : List (κ × α)) : List (κ × α) :=
  changes.foldl (fun acc (key, value) => setKey key value acc) fields

def dropKey (key : κ) (fields : List (κ × α)) : List (κ × α) := fields.filter (·.1 != key)

end SpecVerdict
