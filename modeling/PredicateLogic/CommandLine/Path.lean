/-
Module: PredicateLogic.CommandLine.Path
Purpose: The names of files.
Main exports:
  Path, Path.ofString, Path.text
-/
import PredicateLogic.Text.Separated

namespace PredicateLogic.CommandLine

/-!
### Paths

A path is a chain of names, from the root or from the working directory.  Empty names and single
points say nothing and are dropped; two points lead up and are kept.  A path that starts with
exactly two slashes is told apart from one that starts with one.
-/

/-- A chain of names, and the slashes it starts with. -/
structure Path where
  root : String
  names : List String
deriving Repr, DecidableEq

namespace Path

/-- The root that a text starts with, by the number of its leading slashes. -/
def rootOf (text : String) : String :=
  match (text.toList.takeWhile (· == '/')).length with
  | 0 => ""
  | 2 => "//"
  | _ => "/"

/-- The path that a text writes. -/
def ofString (text : String) : Path :=
  { root := rootOf text
    names := (text.splitOn "/").filter fun name => name != "" && name != "." }

/-- The text of a path, in its shortest form. -/
def text (path : Path) : String :=
  if path.root == "" && path.names.isEmpty then "."
  else path.root ++ Text.separated "/" path.names

end Path

end PredicateLogic.CommandLine
