/-!
# Dictionaries

Entries in increasing order of their names, each name once. They are looked up with `List.lookup`.
-/

namespace CorpusQuery

/-- Values under names, in increasing order of the names. -/
abbrev Dictionary (α : Type) := List (String × α)

namespace Dictionary

variable {α : Type}

/-- The dictionary with one more entry, in place of the one of the same name if there is one. -/
def insert (name : String) (value : α) : Dictionary α → Dictionary α
  | [] => [(name, value)]
  | (n, v) :: rest =>
    match compare name n with
    | .lt => (name, value) :: (n, v) :: rest
    | .eq => (name, value) :: rest
    | .gt => (n, v) :: insert name value rest

/-- The dictionary of the given entries; of those with one name the last counts. -/
def ofList (entries : List (String × α)) : Dictionary α :=
  entries.foldl (fun sorted entry => insert entry.1 entry.2 sorted) []

end Dictionary

end CorpusQuery
