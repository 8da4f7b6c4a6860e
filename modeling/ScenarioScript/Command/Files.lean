import ScenarioScript.NameTable

/-!
# Files

The files in the working directory and below it, and what comes of reading the file at a path. Of
the directories outside nothing is known but that they are there.
-/

namespace ScenarioScript

/-- Why a file cannot be read. -/
inductive ReadFault where
  | notFound
  | notDirectory
  | isDirectory
  | nameTooLong
  | notText
  | other (message : String)
deriving DecidableEq, Repr

def ReadFault.message : ReadFault → String
  | notFound => "No such file or directory (os error 2)"
  | notDirectory => "Not a directory (os error 20)"
  | isDirectory => "Is a directory (os error 21)"
  | nameTooLong => "File name too long (os error 36)"
  | notText => "stream did not contain valid UTF-8"
  | other message => message

structure ReadError where
  path : String
  fault : ReadFault

def ReadError.message (error : ReadError) : String := error.path ++ ": " ++ error.fault.message

inductive FileEntry where
  | directory
  | file (content : ByteArray)

/-- The entries below the working directory by their paths. -/
structure FileTree where
  entries : NameTable FileEntry

namespace FileTree

def empty : FileTree := ⟨.empty⟩

def addFile (tree : FileTree) (path : String) (content : ByteArray) : FileTree :=
  ⟨tree.entries.set path (.file content)⟩

def addDirectory (tree : FileTree) (path : String) : FileTree :=
  ⟨tree.entries.set path .directory⟩

/-! ## Paths -/

/-- Where a path has led. The names of a place inside are listed from the innermost. -/
inductive Place where
  | outside
  | inside (names : List String)

def entry? (tree : FileTree) : Place → Option FileEntry
  | .outside => some .directory
  | .inside [] => some .directory
  | .inside names => tree.entries.get? ("/".intercalate names.reverse)

def Place.parent : Place → Place
  | outside => outside
  | inside [] => outside
  | inside (_ :: names) => inside names

/-- A name may have at most this many bytes. -/
def nameLimit : Nat := 255

/-- A path must have fewer bytes than this. -/
def pathLimit : Nat := 4096

/-- Goes on from a place by one name. -/
def step (tree : FileTree) (place : Place) (name : String) : Except ReadFault Place :=
  match tree.entry? place with
  | none => .error .notFound
  | some (.file _) => .error .notDirectory
  | some .directory =>
    if name = "" ∨ name = "." then .ok place
    else if name = ".." then .ok place.parent
    else if nameLimit < name.utf8ByteSize then .error .nameTooLong
    else match place with
      | .outside => .error .notFound
      | .inside names =>
        let child := .inside (name :: names)
        if (tree.entry? child).isSome then .ok child else .error .notFound

/-- The place that a path leads to. One that begins with a slash begins outside. -/
def walk (tree : FileTree) (path : String) : Except ReadFault Place :=
  match path.splitToList (· = '/') with
  | "" :: names => names.foldlM tree.step .outside
  | names => names.foldlM tree.step (.inside [])

def read (tree : FileTree) (path : String) : Except ReadFault ByteArray := do
  if path = "" then throw .notFound
  if pathLimit ≤ path.utf8ByteSize then throw .nameTooLong
  match tree.entry? (← tree.walk path) with
  | some (.file content) => return content
  | some .directory => throw .isDirectory
  | none => throw .notFound

end FileTree

end ScenarioScript
