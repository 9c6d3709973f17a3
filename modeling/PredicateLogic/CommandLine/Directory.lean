/-
Module: PredicateLogic.CommandLine.Directory
Purpose: Files below a working directory, and why one of them cannot be read.
Main exports:
  FileError, File, Directory, Directory.read
-/
import PredicateLogic.CommandLine.Path
import PredicateLogic.Text.Encoded
import PredicateLogic.Text.Quoted

namespace PredicateLogic.CommandLine

/-!
### Files that cannot be read

A message names the path in its shortest form.  What the system says about a file is told with its
number and its wording.
-/

/-- Why there is no formula in a file. -/
inductive FileError where
  | notFound
  /-- The system does not open the file. -/
  | unopened (number : Nat) (reason : String)
  /-- The system opens the file and does not read it to its end. -/
  | unread (number : Nat) (reason : String)
  | nullCharacter
  /-- The content of the file is no text. -/
  | undecodable (bytes : Text.Undecodable)
  | blank
deriving Repr, DecidableEq

namespace FileError

/-- A path goes on behind the name of a file. -/
def notDirectory : FileError := .unopened 20 "Not a directory"

/-- A path leads to a directory. -/
def isDirectory : FileError := .unopened 21 "Is a directory"

/-- A path, or a name in it, has too many bytes. -/
def nameTooLong : FileError := .unopened 36 "File name too long"

/-- The wording of an error about the file at a path. -/
def message (path : String) : FileError → String
  | .notFound => "Formula file not found: " ++ path
  | .unopened number reason =>
      "Error reading formula file: [Errno " ++ number.repr ++ "] " ++ reason ++ ": " ++
        Text.quoted path
  | .unread number reason => "Error reading formula file: [Errno " ++ number.repr ++ "] " ++ reason
  | .nullCharacter => "embedded null byte"
  | .undecodable bytes => bytes.message
  | .blank => "Formula file is empty"

end FileError

/-!
### Directories

A directory is given by the files in it and below it, each with the names that lead to it.  Of what
lies outside nothing is known but that there are directories further up.
-/

/-- A file and the names that lead to it. -/
structure File where
  names : List String
  content : String
deriving Repr, DecidableEq

/-- The files in and below a directory. -/
structure Directory where
  files : List File
deriving Repr, DecidableEq

/-- A place that a path leads to: names below the working directory, or somewhere outside. -/
inductive Place where
  | inside (names : List String)
  | outside
deriving Repr, DecidableEq

namespace Directory

/-- The directory with files given by path and content. -/
def ofFiles (files : List (String × String)) : Directory :=
  { files := files.map fun file =>
      { names := (Path.ofString file.1).names, content := file.2 } }

/-- The content of the file that names lead to. -/
def content? (directory : Directory) (names : List String) : Option String :=
  (directory.files.find? fun file => file.names == names).map File.content

/-- Whether names lead to a directory. -/
def hasDirectory (directory : Directory) (names : List String) : Bool :=
  names.isEmpty ||
    directory.files.any fun file => names.isPrefixOf file.names && file.names != names

/-- The place that one more name leads to. -/
def step (directory : Directory) (place : Place) (name : String) : Except FileError Place :=
  match place with
  | .outside =>
      if name == ".." then .ok .outside
      else if 255 < name.utf8ByteSize then .error .nameTooLong
      else .error .notFound
  | .inside names =>
      if !directory.hasDirectory names then .error .notDirectory
      else if name == ".." then
        if names.isEmpty then .ok .outside else .ok (.inside names.dropLast)
      else if 255 < name.utf8ByteSize then .error .nameTooLong
      else
        let longer := names ++ [name]
        if directory.hasDirectory longer || (directory.content? longer).isSome then
          .ok (.inside longer)
        else .error .notFound

/-- The place that names lead to, one after the other. -/
def walk (directory : Directory) (place : Place) : List String → Except FileError Place
  | [] => .ok place
  | name :: rest => do
      let next ← directory.step place name
      directory.walk next rest

/-- The content of the file at a path. -/
def read (directory : Directory) (path : Path) : Except FileError String :=
  if path.text.contains (Char.ofNat 0) then .error .nullCharacter
  else if 4095 < path.text.utf8ByteSize then .error .nameTooLong
  else do
    let start : Place := if path.root == "" then .inside [] else .outside
    let place ← directory.walk start path.names
    match place with
    | .outside => .error .isDirectory
    | .inside names =>
        match directory.content? names with
        | some content => .ok content
        | none => .error .isDirectory

end Directory

end PredicateLogic.CommandLine
