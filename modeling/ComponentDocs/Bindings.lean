/-! Tables from names to values that remember the order in which names first came up. -/

namespace ComponentDocs

abbrev Bindings (ν α : Type) := List (ν × α)

namespace Bindings

variable {ν α : Type} [DecidableEq ν]

/-- A new name goes to the end; a name that is there keeps its place and takes the new value. -/
def put (name : ν) (value : α) : Bindings ν α → Bindings ν α
  | [] => [(name, value)]
  | (key, old) :: rest =>
    if key = name then (key, value) :: rest else (key, old) :: put name value rest

def get? (name : ν) : Bindings ν α → Option α
  | [] => none
  | (key, value) :: rest => if key = name then some value else get? name rest

def ofPairs (pairs : List (ν × α)) : Bindings ν α :=
  pairs.foldl (fun table pair => table.put pair.1 pair.2) []

theorem get?_put (name other : ν) (value : α) (table : Bindings ν α) :
    (table.put name value).get? other = if name = other then some value else table.get? other := by
  induction table with
  | nil => simp [put, get?]
  | cons entry rest ih =>
    obtain ⟨key, old⟩ := entry
    by_cases same : key = name
    · by_cases wanted : name = other <;> simp_all [put, get?]
    · by_cases first : key = other
      · subst first
        simp [put, get?, same, Ne.symm same]
      · simp [put, get?, same, first, ih]

theorem get?_foldl_put (name : ν) (pairs : List (ν × α)) (table : Bindings ν α) :
    (pairs.foldl (fun table pair => table.put pair.1 pair.2) table).get? name =
      ((pairs.reverse.find? fun pair => pair.1 == name).map (·.2)).or (table.get? name) := by
  induction pairs generalizing table with
  | nil => simp
  | cons pair rest ih =>
    obtain ⟨key, value⟩ := pair
    rw [List.foldl_cons, ih, get?_put, List.reverse_cons, List.find?_append]
    by_cases same : key = name <;>
      cases List.find? (fun pair => pair.1 == name) rest.reverse <;> simp [same]

theorem get?_ofPairs (name : ν) (pairs : List (ν × α)) :
    (ofPairs pairs).get? name = (pairs.reverse.find? fun pair => pair.1 == name).map (·.2) := by
  simp [ofPairs, get?_foldl_put, get?]

end Bindings

end ComponentDocs
