import Closures.Text.Split

/-!
# Hosts

What commands ask of their surroundings: to read and write files, and to print
lines. `Directory` is a host that holds a directory of files and what was
printed. A path is followed name by name, from that directory or from the root;
outside of the directory there are the directories above it, a few of the
system's, and the devices that stand for nothing and for the two channels.
-/

set_option autoImplicit false

namespace Closures

/-- Why a file cannot be used. -/
inductive FileError where
  | notFound
  | notDirectory
  | isDirectory
  | nameTooLong
  | other (text : String)
deriving DecidableEq, Repr, Inhabited

/-- The reason in words. -/
def FileError.text : FileError → String
  | notFound => "No such file or directory (os error 2)"
  | notDirectory => "Not a directory (os error 20)"
  | isDirectory => "Is a directory (os error 21)"
  | nameTooLong => "File name too long (os error 36)"
  | other text => text

/-- Where lines are printed. -/
inductive Channel where
  | out
  | err
deriving DecidableEq, Repr, Inhabited

/-- Surroundings in which commands run. -/
class Host (m : Type → Type) where
  /-- Whether there is something at a path. -/
  isThere : String → m Bool
  /-- The text of a file. -/
  read : String → m (Except FileError String)
  /-- Make a file, or replace its text. -/
  write : String → String → m (Except FileError Unit)
  /-- Print a line. -/
  print : Channel → String → m Unit
  /-- Whether lines are printed to a terminal. -/
  isTerminal : Channel → m Bool

/-- A directory of files, and what was printed. -/
structure Directory where
  /-- The files by the names that lead to them. -/
  files : List (List String × String)
  /-- Printed lines, last first. -/
  printed : List (Channel × String)
deriving DecidableEq, Repr, Inhabited

namespace Directory

/-- What is at a place. -/
inductive Place where
  | file (text : String)
  | directory
  /-- What is written is lost, and nothing is there to be read. -/
  | null
  /-- What is written is printed. -/
  | channel (channel : Channel)
  | vacant
deriving DecidableEq, Repr, Inhabited

/-- The pieces of a path between slashes. -/
def pieces (path : String) : List String := (split '/' path.toList).map String.ofList

/-- A directory with the given files. -/
def ofFiles (files : List (String × String)) : Directory where
  files := files.map fun (path, text) => ((pieces path).filter fun n => n != "" && n != ".", text)
  printed := []

/-- The directories of the system. -/
def systemDirectories : List (List String) := [["/"], ["/", "dev"], ["/", "tmp"]]

/-- The devices of the system. -/
def devices : List (List String × Place) :=
  [(["/", "dev", "null"], .null), (["/", "dev", "stdout"], .channel .out),
    (["/", "dev", "stderr"], .channel .err)]

/-- What is at the end of a way. A way has the names that lead from the
directory to a place; those that lead out of it start with `..` for each
directory above it, or with `/` for the root. A way that leads on to a file is a
directory. -/
def place (d : Directory) (way : List String) : Place :=
  match d.files.lookup way, devices.lookup way with
  | some text, _ => .file text
  | none, some device => device
  | none, none =>
    if (way.all (· = "..")) || systemDirectories.contains way
        || (d.files.any fun (w, _) => way.isPrefixOf w) then
      .directory
    else .vacant

/-- The way to the directory above a directory. -/
def above (way : List String) : List String :=
  if way.all (· = "..") then ".." :: way
  else if way = ["/"] then way
  else way.dropLast

/-- The bytes of a name, at most. -/
def nameLimit : Nat := 255

/-- The bytes of a path are fewer. -/
def pathLimit : Nat := 4096

/-- Follow names from the end of a way. -/
def follow (d : Directory) (way : List String) : List String → Except FileError (List String)
  | [] => .ok way
  | name :: names =>
    match d.place way with
    | .vacant => .error .notFound
    | .file _ | .null | .channel _ => .error .notDirectory
    | .directory =>
      if name = "" || name = "." then d.follow way names
      else if name = ".." then d.follow (above way) names
      else if nameLimit < name.utf8ByteSize then .error .nameTooLong
      else d.follow (way ++ [name]) names

/-- The way that names mean, from the root or from the directory. -/
def wayOf (d : Directory) (path : String) (names : List String) : Except FileError (List String) :=
  if path = "" then .error .notFound
  else if pathLimit ≤ path.utf8ByteSize then .error .nameTooLong
  else d.follow (if path.startsWith "/" then ["/"] else []) names

/-- The way that a path means. -/
def way (d : Directory) (path : String) : Except FileError (List String) := d.wayOf path (pieces path)

/-- The text of a file. -/
def read (d : Directory) (path : String) : Except FileError String := do
  match d.place (← d.way path) with
  | .file text => .ok text
  | .directory => .error .isDirectory
  | .null | .channel _ => .ok ""
  | .vacant => .error .notFound

/-- The last name of a path for a file to be made is not looked up when a slash
follows it: only a directory can be meant. The names that are followed then. -/
def slashed? (path : String) : Option (List String) :=
  let names := (pieces path).filter (· != "")
  match path.endsWith "/", names.getLast? with
  | true, some last => if last = "." || last = ".." then none else some (names.dropLast ++ ["."])
  | _, _ => none

/-- Set the text at a way. -/
def put (way : List String) (text : String) :
    List (List String × String) → List (List String × String)
  | [] => [(way, text)]
  | (w, t) :: files => if w = way then (w, text) :: files else (w, t) :: put way text files

/-- Print a line. -/
def print (d : Directory) (channel : Channel) (line : String) : Directory :=
  { d with printed := (channel, line) :: d.printed }

/-- Make a file, or replace its text. -/
def write (d : Directory) (path text : String) : Except FileError Directory := do
  match slashed? path with
  | some names =>
    let _ ← d.wayOf path names
    .error .isDirectory
  | none =>
    let way ← d.way path
    match d.place way with
    | .directory => .error .isDirectory
    | .file _ | .vacant => .ok { d with files := put way text d.files }
    | .null => .ok d
    | .channel channel => .ok (d.print channel (text.dropEndWhile '\n').toString)

/-- Whether there is something at a path. -/
def isThere (d : Directory) (path : String) : Bool :=
  match d.way path with
  | .ok way => d.place way != .vacant
  | .error _ => false

/-- The lines printed to a channel, in order. -/
def lines (d : Directory) (channel : Channel) : List String :=
  (d.printed.filter fun (c, _) => c = channel).reverse.map Prod.snd

instance : Host (StateM Directory) where
  isThere path := do return (← get).isThere path
  read path := do return (← get).read path
  write path text := do
    match (← get).write path text with
    | .ok d =>
      set d
      return .ok ()
    | .error e => return .error e
  print channel line := modify (·.print channel line)
  isTerminal _ := return false

end Directory

end Closures
