/-!
# Paths

A path leads from one directory to a file by names between slashes. It starts at
the root when a slash comes first, and at the current directory otherwise. One
point as a name stays where it is, two points lead out of a directory, and
several slashes are as good as one. Only the slash behind the last name means
something more: what has that name has to be a directory.

A path can be shown from the current directory, which is how messages name a
file. A name can also be given an ending, behind the one it may have already.

## Main definitions

* `Path`: A path taken apart.
* `Path.ofText`: The path that a text spells.
* `Path.shownFrom`: A path as it is shown in a directory.
* `Path.ending?`: The ending of the last name.
* `Path.withEnding?`: The text of a path with an ending added to its last name.
-/

namespace PanelSketch

/-- A path taken apart. -/
structure Path where
  /-- Whether the path starts at the root. -/
  fromRoot : Bool
  /-- The names between the slashes, none of them empty. -/
  names : List String
  /-- Whether a slash stands behind the last name. -/
  endsInSlash : Bool
  deriving DecidableEq, Repr

namespace Path

/-- The parts of a text between its slashes. -/
def splitSlashes : List Char → List (List Char)
  | [] => [[]]
  | '/' :: cs => [] :: splitSlashes cs
  | c :: cs =>
    match splitSlashes cs with
    -- There is a last part always, so this does not arise.
    | [] => [[c]]
    | part :: parts => (c :: part) :: parts

/-- The path that a text spells. -/
def ofText (text : String) : Path :=
  { fromRoot := text.toList.head? = some '/'
    names := ((splitSlashes text.toList).filter (· ≠ [])).map String.ofList
    endsInSlash := text.toList.getLast? = some '/' }

/-- The names that lead somewhere else. -/
def plainNames (path : Path) : List String :=
  path.names.filter (· ≠ ".")

/-- What is left of two lists of names behind the names they begin with in
    common. -/
def dropCommon : List String → List String → List String × List String
  | a :: as, b :: bs => if a = b then dropCommon as bs else (a :: as, b :: bs)
  | as, bs => (as, bs)

/-- A path as it is shown in a directory, which is given by its names from the
    root: without detours, and leading out of the directory where it has to. -/
def shownFrom (current : List String) (path : Path) : String :=
  if path.fromRoot then
    let (outward, inward) := dropCommon current path.plainNames
    "/".intercalate (outward.map (fun _ => "..") ++ inward)
  else "/".intercalate path.plainNames

/-- The last name of a path, empty when a slash comes last. -/
def lastName (text : String) : List Char :=
  ((splitSlashes text.toList).getLast?).getD []

/-- The ending of the last name: what stands behind its last point, when
    something stands before that point, too. -/
def ending? (text : String) : Option String :=
  let name := (lastName text).reverse
  -- The name is read backwards: a point, and something in front of it.
  match name.dropWhile (· ≠ '.') with
  | '.' :: _ :: _ => some (String.ofList (name.takeWhile (· ≠ '.')).reverse)
  | _ => none

/-- A text from its end on, without slashes and single points behind the last
    name. -/
def dropStay : List Char → List Char
  | '/' :: cs => dropStay cs
  | '.' :: '/' :: cs => dropStay ('/' :: cs)
  | cs => cs

/-- The text of a path with an ending added to its last name. A directory that
    only the way to it names gets none. -/
def withEnding? (text ending : String) : Option String :=
  let bare := String.ofList (dropStay text.toList.reverse).reverse
  match lastName bare with
  | [] | ['.'] | ['.', '.'] => none
  | _ => some (bare ++ "." ++ ending)

end Path

end PanelSketch
