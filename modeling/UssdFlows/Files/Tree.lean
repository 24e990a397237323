import UssdFlows.Files.Path

/-!
# Trees of files

The files that a program can see: each with the names on the way to it and its
octets, and the directories.  A directory exists if it is listed or if something
lies in it.

The system may refuse to open a file, to list a directory, or even to say what a
path leads to, such as a path with a name that is too long; a refusal comes with
its wording.
-/

namespace UssdFlows

/-- A tree of files. -/
structure FileTree where
  /-- The files, each with its octets or the refusal to open it. -/
  files : List (List String × Except String ByteArray)
  directories : List (List String)
  /-- The refusal to say what a path leads to. -/
  barred? : FileName → Option String := fun _ => none
  /-- The refusal to list a directory. -/
  sealed? : FileName → Option String := fun _ => none

/-- What a path leads to. -/
inductive FileEntry where
  | file (octets : Except String ByteArray)
  | directory

namespace FileTree

/-- The paths of everything that is listed. -/
def listed (t : FileTree) : List (List String) := t.files.map Prod.fst ++ t.directories

/-- Whether a row of names leads to a directory. -/
def isDirectory (t : FileTree) (parts : List String) : Bool :=
  parts.isEmpty || t.directories.contains parts ||
    t.listed.any fun p => parts.length < p.length && parts.isPrefixOf p

/-- Follows names from a directory; two dots lead to the directory above. -/
def follow? (t : FileTree) (here : List String) : List String → Option (List String)
  | [] => some here
  | name :: rest =>
    if t.isDirectory here then
      t.follow? (if name = ".." then here.dropLast else here ++ [name]) rest
    else none

/-- What lies where a path leads to. -/
def found? (t : FileTree) (p : FileName) : Option FileEntry :=
  match t.follow? [] p.route with
  | none => none
  | some here =>
    match t.files.lookup here with
    | some octets => some (.file octets)
    | none => if t.isDirectory here then some .directory else none

/-- What a path leads to, or the refusal to say so. -/
def look (t : FileTree) (p : FileName) : Except String (Option FileEntry) :=
  match t.barred? p with
  | some why => .error why
  | none => .ok (t.found? p)

/-- Whether a path leads to anything. -/
def contains (t : FileTree) (p : FileName) : Except String Bool := Option.isSome <$> t.look p

/-- The names in a directory, sorted; none if there is no such directory. -/
def names (t : FileTree) (p : FileName) : Except String (List String) := do
  match ← t.look p, t.sealed? p, t.follow? [] p.route with
  | some .directory, some why, _ => throw why
  | some .directory, none, some here =>
    let inside := t.listed.filterMap fun q =>
      if here.isPrefixOf q then (q.drop here.length).head? else none
    return inside.eraseDups.mergeSort fun a b => a ≤ b
  | _, _, _ => return []

end FileTree

end UssdFlows
