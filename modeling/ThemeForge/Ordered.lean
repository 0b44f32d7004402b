/-!
# Ordered tables

A list of keys with their values in the order in which the keys first came. Changing a value keeps
the place of its key.
-/

namespace ThemeForge.Ordered

variable {α : Type}

/-- The table with the value of `key` made from the one it has, if any. A new key comes last. -/
def update (key : String) (value : Option α → α) : List (String × α) → List (String × α)
  | [] => [(key,value none)]
  | (k,old) :: rest =>
    if k = key then (k,value (some old)) :: rest else (k,old) :: update key value rest

def put (key : String) (value : α) (table : List (String × α)) : List (String × α) :=
  update key (fun _ => value) table

def putAll (table entries : List (String × α)) : List (String × α) :=
  entries.foldl (fun t e => put e.1 e.2 t) table

/-- The keys after a change are those before, and the new one last. -/
theorem map_fst_update (key : String) (value : Option α → α) (table : List (String × α)) :
    (update key value table).map Prod.fst =
      if key ∈ table.map Prod.fst then table.map Prod.fst else table.map Prod.fst ++ [key] := by
  induction table with
  | nil => simp [update]
  | cons entry rest ih =>
    obtain ⟨k,old⟩ := entry
    by_cases same : k = key
    · simp [update, same]
    · have different : key ≠ k := fun h => same h.symm
      simp only [update, same, if_false, List.map_cons, ih, List.mem_cons, different, false_or]
      split <;> simp

theorem lookup_update (key : String) (value : Option α → α) (table : List (String × α))
    (k : String) :
    (update key value table).lookup k =
      if k = key then some (value (table.lookup key)) else table.lookup k := by
  induction table with
  | nil =>
    by_cases same : k = key
    · simp [update, same]
    · have no : (k == key) = false := by simpa using same
      simp [update, List.lookup_cons, same, no]
  | cons entry rest ih =>
    obtain ⟨other,old⟩ := entry
    by_cases here : other = key
    · by_cases same : k = key
      · simp [update, here, same]
      · have no : (k == key) = false := by simpa using same
        simp [update, here, same, List.lookup_cons, no]
    · have there : (key == other) = false := by simpa using fun h => here h.symm
      simp only [update, here, if_false, List.lookup_cons, ih, there]
      by_cases same : k = key
      · simp [same, there]
      · simp [same]

end ThemeForge.Ordered
