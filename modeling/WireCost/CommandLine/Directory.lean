/-! # What is found at a path

A run sees files through their paths: a path leads to a text, or it fails for one of a few reasons.

* **`ReadFailure`** — why a path leads to no text; `ReadFailure.message` is its wording.
* **`Directory.read`** — what a path leads to from a directory that holds only files. -/

namespace WireCost

/-- Why a path leads to no text. -/
inductive ReadFailure where
  /-- Nothing is there. -/
  | missing
  /-- The path goes on below a file. -/
  | belowFile
  /-- A directory is there. -/
  | directory
  /-- The path or one of its names is longer than a file system takes. -/
  | nameTooLong
  /-- A file is there, but its bytes are no text. -/
  | notText
  /-- A file is there that cannot be read. -/
  | refused (reason : String)
deriving DecidableEq, Repr

namespace ReadFailure

/-- What is said about a path that leads to no text. -/
def message : ReadFailure → String
  | missing => "No such file or directory (os error 2)"
  | belowFile => "Not a directory (os error 20)"
  | directory => "Is a directory (os error 21)"
  | nameTooLong => "File name too long (os error 36)"
  | notText => "stream did not contain valid UTF-8"
  | refused reason => reason

/-- Whether there is a file at the path all the same. -/
def atFile : ReadFailure → Bool
  | notText | refused _ => true
  | missing | belowFile | directory | nameTooLong => false

end ReadFailure

/-- The most bytes that a name may have. -/
def maxNameSize : Nat := 255

/-- The most bytes that a path may have. -/
def maxPathSize : Nat := 4095

/-- A directory that holds only files: their names and texts. Of what lies outside, only the
directories above it are known. -/
structure Directory where
  files : List (String × String)

namespace Directory

/-- The text of the file of that name. -/
def text? (d : Directory) (name : String) : Option String := d.files.lookup name

/-- What the names of a path lead to, one after the other, from the directory (`inside`) or from one
above it. An empty name and `.` stay where they are, and `..` goes up. -/
def walk (d : Directory) (inside : Bool) : List String → Except ReadFailure String
  | [] => .error .directory
  | name :: rest =>
    if name = "" ∨ name = "." then d.walk inside rest
    else if name = ".." then d.walk false rest
    else if name.utf8ByteSize > maxNameSize then .error .nameTooLong
    else
      match if inside then d.text? name else none with
      | none => .error .missing
      | some text => if rest.isEmpty then .ok text else .error .belowFile

/-- **What a path leads to.** The empty path leads nowhere, and one that starts with a slash starts
outside the directory. -/
def read (d : Directory) (path : String) : Except ReadFailure String :=
  if path.isEmpty then .error .missing
  else if path.utf8ByteSize > maxPathSize then .error .nameTooLong
  else d.walk (!path.startsWith "/") (path.splitOn "/")

end Directory

end WireCost
