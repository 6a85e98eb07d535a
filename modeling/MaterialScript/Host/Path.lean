/-
Paths: components separated by slashes.

Empty components and single dots inside a path have no meaning of their own.
-/
namespace MaterialScript.Path

/-- The pieces between the slashes of a path; an absolute path starts with an empty one. -/
def pieces : List Char → List (List Char)
  | [] => [[]]
  | '/' :: cs => [] :: pieces cs
  | c :: cs =>
    match pieces cs with
    | [] => [[c]]
    | piece :: more => (c :: piece) :: more

/-- The components of a path, as strings. -/
def components (path : String) : List String := (pieces path.toList).map String.ofList

/-- Drops what has no meaning from the end of reversed components; the first one stays. -/
def trimReversed : List String → List String
  | c :: c' :: more => if c = "" ∨ c = "." then trimReversed (c' :: more) else c :: c' :: more
  | cs => cs

/-- The path of reversed components. -/
def ofReversed : List String → String
  | [] => ""
  | [""] => "/"
  | cs => "/".intercalate cs.reverse

/-- The path without its last component; the root and the empty path have none. -/
def parent? (path : String) : Option String :=
  match trimReversed (components path).reverse with
  | [""] => none
  | _ :: above => some (ofReversed (trimReversed above))
  | [] => none

/-- A path below a directory. -/
def join (directory name : String) : String := directory ++ "/" ++ name

/-- Splits a file name at its last dot; a name whose only dot comes first is all stem. -/
def splitName (name : String) : String × Option String :=
  let reversed := name.toList.reverse
  match reversed.dropWhile (· != '.') with
  | _ :: stem@(_ :: _) =>
    (String.ofList stem.reverse, some (String.ofList (reversed.takeWhile (· != '.')).reverse))
  | _ => (name, none)

end MaterialScript.Path
