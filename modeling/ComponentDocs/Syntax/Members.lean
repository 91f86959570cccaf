import ComponentDocs.Syntax.Imports

namespace ComponentDocs

variable {κ : Type} [DecidableEq κ]

inductive MemberSource (κ : Type) where
  | interface (members : List (Member κ)) (bases : List String)
  | object (members : List (Member κ))

def HeritageEntry.baseName (entry : HeritageEntry κ) : String := (entry.base.map (·.text)).getD ""

def baseNames (heritage : List (HeritageClause κ)) : List String :=
  heritage.flatMap fun clause => clause.entries.map HeritageEntry.baseName

namespace Statement

def name? (statement : Statement κ) : Option (Token κ) :=
  match statement.form with
  | .classOf name _ _ => name
  | .function name _ _ => name
  | .interface name _ _ => name
  | .typeAlias name _ => name
  | _ => none

def memberSource? (catalog : Catalog κ) (statement : Statement κ) : Except Malformed (Option (MemberSource κ)) :=
  if catalog.isInterface statement.kind then
    match statement.form with
    | .interface _ heritage members => .ok (some (.interface members (baseNames heritage)))
    | .classOf _ heritage members => .ok (some (.interface members (baseNames heritage)))
    | _ => .error .missingPart
  else if catalog.isTypeAlias statement.kind then
    match statement.form with
    | .typeAlias _ (some type) => .ok (if catalog.isObjectType type.kind then some (.object type.members) else none)
    | .typeAlias _ none => .ok none
    | _ => .error .missingPart
  else .ok none

def findMembers (catalog : Catalog κ) (name : String) : List (Statement κ) → Except Malformed (Option (MemberSource κ))
  | [] => .ok none
  | first :: rest =>
    if first.name?.any fun token => token.text == name then do
      match ← first.memberSource? catalog with
      | some found => return some found
      | none => findMembers catalog name rest
    else findMembers catalog name rest

end Statement

def Member.occursIn (member : Member κ) (members : List (Member κ)) : Bool :=
  match member.name with
  | none => false
  | some name => members.any fun other => other.name.any fun token => token.text == name.text

def absorb (members inherited : List (Member κ)) : List (Member κ) :=
  inherited.foldl (fun members member => if member.occursIn members then members else members ++ [member]) members

namespace SourceFile

/-- A base that is written in another module contributes nothing. -/
def isLocal (imports : Bindings String String) (name : String) : Bool :=
  name != "" && ((imports.get? name).getD "") == ""

/-- The members of a type that the file itself declares, and the names visited so far with those visited now. A name is
visited once, so a base that is reached again contributes nothing; `depth` bounds how far bases are followed. -/
def localMembers (catalog : Catalog κ) (imports : Bindings String String) (file : SourceFile κ) :
    (depth : Nat) → (name : String) → (visited : List String) → Except Malformed (List (Member κ) × List String)
  | 0, _, visited => .ok ([], visited)
  | depth + 1, name, visited =>
    if name ∈ visited then .ok ([], visited)
    else do
      match ← Statement.findMembers catalog name file.statements with
      | none => return ([], name :: visited)
      | some (.object members) => return (members, name :: visited)
      | some (.interface members bases) =>
        (bases.filter (isLocal imports)).foldlM
          (fun state base => do
            let (inherited, visited) ← localMembers catalog imports file depth base state.2
            return (absorb state.1 inherited, visited))
          (members, name :: visited)

/-- The members of a type by its name. Of a type from another module none are known. Every visit that goes further takes
a declared name off, so the number of statements and two more is depth enough. -/
def membersOf (catalog : Catalog κ) (file : SourceFile κ) (name : String) : Except Malformed (List (Member κ)) := do
  let imports ← file.imports catalog
  if ((imports.get? name).getD "") == "" then
    return (← file.localMembers catalog imports (file.statements.length + 2) name []).1
  else return []

end SourceFile

end ComponentDocs
