/-!
# Names of record files

When several deals are played, every record has a file of its own.  Its name is that of the given
file without its extension, followed by the number of the deal.  A path is a list of components
with `/` between them; repeated slashes and components that name the present folder do not count.
-/

namespace FrenchTarot.CommandLine

/-- The components of a path, last first, without those that are empty or a single dot. -/
def componentsReversed (path : List Char) : List (List Char) :=
  let step := fun (parts : List (List Char)) c =>
    match parts with
    | [] => [[c]]
    | part :: rest => if c = '/' then [] :: part :: rest else (part ++ [c]) :: rest
  (path.foldl step [[]]).filter fun part => part ≠ [] && part ≠ ['.']

/-- The name of the file that a path leads to. -/
def fileName? (path : List Char) : Option (List Char) :=
  match componentsReversed path with
  | [] => none
  | name :: _ => if name = ['.', '.'] then none else some name

/-- A file name without its extension; a dot in front does not begin an extension. -/
def stem (name : List Char) : List Char :=
  match name.reverse.dropWhile (· ≠ '.') with
  | [] => name
  | [_] => name
  | _ :: before => before.reverse

/-- The folder of the file that a path leads to, as it is written, with the slash at its end. -/
def folder (path : List Char) : List Char :=
  match fileName? path with
  | none =>
    match path.getLast? with
    | none => []
    | some c => if c = '/' then path else path ++ ['/']
  | some name =>
    -- what follows the name in the path is slashes and dots only
    let atName := (List.range (path.length + 1)).reverse.find? fun i =>
      ((path.drop i).take name.length) = name && (i = 0 || path[i - 1]? = some '/')
    path.take (atName.getD 0)

/-- The file for the record of one deal of a game. -/
def recordPath (base : String) (deal deals : Nat) : String :=
  if deals = 1 then base
  else
    let path := base.toList
    let name := ((fileName? path).map stem).getD "deal".toList
    String.ofList (folder path ++ name ++ ("-" ++ toString deal ++ ".json").toList)

end FrenchTarot.CommandLine
