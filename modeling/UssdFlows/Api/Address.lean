import UssdFlows.Text.Percent

/-!
# Addresses

What a request asks for is named by a path and by parameters.  A path is a row
of names between slashes; its percent codes are resolved after dots are, and
parameters come as pairs of a name and a value.
-/

namespace UssdFlows

/-- Where a request goes. -/
structure Address where
  /-- The names between the slashes; the one before the first slash is empty. -/
  path : List String
  parameters : List (String × String)
  deriving DecidableEq, Repr

namespace Address

/-- Follows the dots of a path: one leads nowhere, two lead up but not above
the top. -/
def followDots (names : List String) : List String :=
  names.foldl (fun done name =>
    if name = "." then done
    else if name = ".." then (if done.isEmpty || done = [""] then done else done.dropLast)
    else done ++ [name]) []

/-- The names between the slashes of a text. -/
def names (cs : List Char) : List String := (cs.splitOn '/').map String.ofList

/-- Reads a path.  It starts with one slash, however many are written. -/
def readPath (cs : List Char) : List String :=
  let path := "/".intercalate (followDots (names ('/' :: cs.dropWhile (· = '/'))))
  names (Percent.decode (if path = "" then "/" else path)).toList

/-- A name or a value of a parameter; a plus sign stands for a blank. -/
def readWord (cs : List Char) : String :=
  Percent.decode (String.ofList (cs.map fun c => if c = '+' then ' ' else c))

/-- The parameters in a query; one without a value has the empty value. -/
def readQuery (cs : List Char) : List (String × String) :=
  ((cs.splitOn '&').filter fun item => !item.isEmpty).map fun item =>
    let (name, value) := item.span (· ≠ '=')
    (readWord name, readWord (value.drop 1))

/-- Reads an address. -/
def ofText (s : String) : Address :=
  let (path, query) := (s.toList.takeWhile (· ≠ '#')).span (· ≠ '?')
  ⟨readPath path, readQuery (query.drop 1)⟩

/-- The value of a parameter; of several, the last one. -/
def parameter? (a : Address) (name : String) : Option String := a.parameters.reverse.lookup name

/-- The path without empty names at its end. -/
def withoutFinalSlashes (path : List String) : List String :=
  (path.reverse.dropWhile (· = "")).reverse

example : (ofText "/flows/./a%2Fb/?x=1&x=2+3").path = ["", "flows", "a", "b", ""] := by cbv

example : (ofText "/stats?x=1&x=2+3").parameter? "x" = some "2 3" := by cbv

end Address

end UssdFlows
