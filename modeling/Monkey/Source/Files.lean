/-! # Files to read

The files that a run may read, by path, and why reading one can fail. -/

namespace Monkey

inductive ReadError where
  | notFound
  | notDirectory
  | isDirectory
  | nameTooLong
  | notText
  /-- Any other refusal of the system, by its number. -/
  | refused (description : String) (number : Nat)
deriving DecidableEq

def ReadError.message : ReadError → String
  | notFound => "No such file or directory (os error 2)"
  | notDirectory => "Not a directory (os error 20)"
  | isDirectory => "Is a directory (os error 21)"
  | nameTooLong => "File name too long (os error 36)"
  | notText => "stream did not contain valid UTF-8"
  | refused description number => s!"{description} (os error {number})"

/-- The text that bytes encode. -/
def decodeText (bytes : ByteArray) : Except ReadError String :=
  match String.fromUTF8? bytes with
  | some text => .ok text
  | none => .error .notText

/-- What stands under a name. -/
inductive Entry where
  | file (bytes : ByteArray)
  | directory
deriving Inhabited

/-- The entries below a directory, each by the parts of its path. -/
structure Files where
  entries : List (List String × Entry)

namespace Files

def empty : Files := ⟨[]⟩

/-- The parts of a path between its slashes. -/
def parts (path : String) : List String := path.splitOn "/"

/-- A part of a path that names no entry and stays where it is. -/
def isIdle (part : String) : Bool := part == "" || part == "."

/-- The longest name that an entry can have, in bytes. -/
def longestName : Nat := 255

/-- The longest path that is followed, in bytes. -/
def longestPath : Nat := 4095

/-- Puts an entry at a path, over the one that stood there; the directories on its way
are there with it. -/
def add (files : Files) (path : String) (entry : Entry) : Files :=
  let place := (parts path).filter (!isIdle ·)
  ⟨files.entries.filter (·.1 != place) ++ [(place, entry)]⟩

/-- What stands at a place: an entry of its own, or a directory on the way to one. -/
def at? (files : Files) (place : List String) : Option Entry :=
  match files.entries.find? (·.1 == place) with
  | some entry => some entry.2
  | none =>
    if place.isEmpty || files.entries.any (place.isPrefixOf ·.1) then some .directory else none

/-- What every system has below its root: its directories, and the file that is always
empty. -/
def system : Files :=
  ["/bin", "/dev", "/etc", "/home", "/lib", "/proc", "/root", "/run", "/sbin", "/sys", "/tmp",
    "/usr", "/var"].foldl (·.add · .directory) (empty.add "/dev/null" (.file .empty))

/-- Follows the parts of a path from a place. The way up from the working directory leads
to the top of `above`, and so does every way up from there. -/
def walk (files above : Files) (place : List String) : List String → Except ReadError Entry
  | [] => (files.at? place).elim (.error .notFound) .ok
  | part :: rest =>
    match files.at? place with
    | none => .error .notFound
    | some (.file _) => .error .notDirectory
    | some .directory =>
      if isIdle part then files.walk above place rest
      else if part = ".." then
        if place.isEmpty then above.walk above [] rest else files.walk above place.dropLast rest
      else if part.utf8ByteSize > longestName then .error .nameTooLong
      else files.walk above (place ++ [part]) rest

/-- What stands at a path. A path that opens with a slash starts at the root of the
system, which is its own way up; any other starts at the working directory, above which
no entry is known. -/
def find (files : Files) (path : String) : Except ReadError Entry :=
  if path.isEmpty then .error .notFound
  else if path.utf8ByteSize > longestPath then .error .nameTooLong
  else if path.startsWith "/" then system.walk system [] (parts path)
  else files.walk empty [] (parts path)

/-- The text of the file at a path. -/
def read (files : Files) (path : String) : Except ReadError String :=
  match files.find path with
  | .error error => .error error
  | .ok .directory => .error .isDirectory
  | .ok (.file bytes) => decodeText bytes

end Files

end Monkey
