import PushDispatch.Text.Encoding

/-! The working directory as far as log files go: the folders there are, and the texts of files. -/

namespace PushDispatch

/-- The names on the way to a place, from the working directory or, after a slash, from the root. -/
abbrev Place := List String

structure Folder where
  folders : List Place := []
  files : List (Place × String) := []

inductive OpenError where
  /-- What is on the way is no folder, or a name or the path is too long. -/
  | barred
  /-- The path holds the null character, which ends every path. -/
  | nullCharacter
  deriving DecidableEq, Repr

def OpenError.message : OpenError → String
  | .barred => "Not a directory"
  | .nullCharacter => "embedded null byte"

namespace Folder

/-- The longest name that a file or folder can have, in bytes. -/
def maxName : Nat := 255

/-- The longest path that can be followed, in bytes. -/
def maxPath : Nat := 4095

def splitSlash : List Char → List (List Char)
  | [] => [[]]
  | c :: rest =>
    if c = '/' then [] :: splitSlash rest
    else
      match splitSlash rest with
      | part :: parts => (c :: part) :: parts
      | [] => [[c]]

/-- The names in a path. Empty ones and single points lead nowhere. -/
def parts (path : String) : List String :=
  ((splitSlash path.toList).filter fun p => p != [] && p != ['.']).map String.ofList

def isAbsolute (path : String) : Bool := path.toList.head? = some '/'

def start (path : String) : Place := if isAbsolute path then ["/"] else []

/-- The folder that holds a folder; above the working directory it has no name of its own. -/
def above (here : Place) : Place :=
  match here.getLast? with
  | none | some ".." => here ++ [".."]
  | some "/" => here
  | some _ => here.dropLast

def resolve (here : Place) (names : List String) : Place :=
  names.foldl (fun p name => if name = ".." then above p else p ++ [name]) here

def target (directory file : String) : Place :=
  if isAbsolute file then resolve ["/"] (parts file)
  else resolve (start directory) (parts directory ++ parts file)

def isFolder (f : Folder) (p : Place) : Bool :=
  f.folders.contains p || p.all fun n => n == ".." || n == "/"

def isFile (f : Folder) (p : Place) : Bool := (f.files.lookup p).isSome

def nameFits (name : String) : Bool := decide (name.utf8ByteSize ≤ maxName)

def pathTo : Place → String
  | "/" :: names => "/" ++ "/".intercalate names
  | names => "/".intercalate names

def pathFits (p : Place) : Bool := decide ((pathTo p).utf8ByteSize ≤ maxPath)

/--
Goes down a path, making the folders that are missing. A file on the way bars it, and so does a
name that is too long; the folders before it are made all the same.
-/
def enter (f : Folder) (here : Place) : List String → Folder × Except OpenError Place
  | [] => (f, .ok here)
  | name :: rest =>
    if name = ".." then enter f (above here) rest
    else
      let p := here ++ [name]
      if f.isFile p || !nameFits name then (f, .error .barred)
      else enter { f with folders := if f.isFolder p then f.folders else p :: f.folders } p rest

def make (f : Folder) (path : String) : Folder × Except OpenError Place :=
  if path.toList.contains '\x00' then (f, .error .nullCharacter)
  else if pathFits (start path ++ parts path) then f.enter (start path) (parts path)
  else (f, .error .barred)

def addFile (f : Folder) (p : Place) : Folder :=
  if f.isFile p then f else { f with files := f.files ++ [(p, "")] }

def openFile (f : Folder) (p : Place) : Folder × Except OpenError Place :=
  if p.any fun name => name.toList.contains '\x00' then (f, .error .nullCharacter)
  else if f.isFolder p.dropLast && p.all nameFits && pathFits p && !f.isFolder p then
    (f.addFile p, .ok p)
  else (f, .error .barred)

def openIn (f : Folder) (directory file : String) : Folder × Except OpenError Place :=
  match f.make directory with
  | (f, .ok _) => f.openFile (target directory file)
  | (f, .error cause) => (f, .error cause)

def append (f : Folder) (p : Place) (text : String) : Folder :=
  { f with files := f.files.map fun e => if e.1 = p then (e.1, e.2 ++ text) else e }

end Folder
end PushDispatch
