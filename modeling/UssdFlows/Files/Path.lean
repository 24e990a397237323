/-!
# Names of files

A path is a row of names.  Empty names and single dots between slashes carry
nothing and are dropped; two dots stay, because they depend on the tree in
which the path is followed.
-/

namespace UssdFlows

/-- A path: where it starts, and the names on the way. -/
structure FileName where
  /-- Empty for a relative path, else one or two slashes. -/
  root : String
  parts : List String
  deriving DecidableEq, Repr

namespace FileName

/-- Reads a path. -/
def ofText (s : String) : FileName :=
  let slashes := (s.toList.takeWhile (· = '/')).length
  let root := if slashes = 0 then "" else if slashes = 2 then "//" else "/"
  ⟨root, ((s.toList.splitOn '/').map String.ofList).filter fun p => p ≠ "" && p ≠ "."⟩

/-- A path as text; the empty path is a dot. -/
def text (p : FileName) : String :=
  let s := p.root ++ "/".intercalate p.parts
  if s = "" then "." else s

/-- The path of an entry of a directory. -/
def child (p : FileName) (name : String) : FileName := ⟨p.root, p.parts ++ [name]⟩

/-- A path taken from a directory; an absolute one stands for itself. -/
def join (p q : FileName) : FileName := if q.root = "" then ⟨p.root, p.parts ++ q.parts⟩ else q

/-- The names that are followed from the top of a tree; an absolute path starts
with a slash of its own there. -/
def route (p : FileName) : List String := if p.root = "" then p.parts else "/" :: p.parts

/-- The last name. -/
def last (p : FileName) : String := p.parts.getLast?.getD ""

/-- The characters of a name before its last dot, and those from the dot on.
A dot at the start or at the end of a name does not count. -/
def splitSuffix (name : List Char) : List Char × List Char :=
  let ending := (name.reverse.takeWhile (· ≠ '.')).reverse
  let stem := name.take (name.length - ending.length - 1)
  if ending.isEmpty || stem.isEmpty || ending.length = name.length then (name, [])
  else (stem, '.' :: ending)

/-- The last name without its suffix. -/
def stem (p : FileName) : String := String.ofList (splitSuffix p.last.toList).1

/-- The suffix of the last name, with its dot; empty if there is none. -/
def suffix (p : FileName) : String := String.ofList (splitSuffix p.last.toList).2

example : (ofText "flows//./a.b.json").stem = "a.b" := by decide +kernel

example : (ofText ".json").suffix = "" := by decide +kernel

end FileName

end UssdFlows
