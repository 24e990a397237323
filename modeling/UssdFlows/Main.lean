import UssdFlows.FlowTool

/-!
# The flow tool as a program

Reads what a command looks at from the disk, runs the tool on it, and prints
what the run comes to.
-/

namespace UssdFlows.FlowTool

/-- The names that lead to a path from the top of the tree. -/
def treeNames (path : FileName) : List String :=
  path.route.foldl (fun here name => if name = ".." then here.dropLast else here ++ [name]) []

/-- Does something on the disk; a refusal of the system is a result. -/
def attempt {α : Type} (act : IO α) : IO (Except String α) := do
  try return .ok (← act) catch e => return .error e.toString

/-- What the disk holds at a path: a file, or a directory with its files. -/
def readFiles (path : FileName) : IO FileTree := do
  let place := (← IO.currentDir) / path.text
  let names := treeNames path
  try
    if (← place.metadata).type != .dir then
      return { files := [(names, ← attempt (IO.FS.readBinFile place))], directories := [] }
  catch
    | .noFileOrDirectory .. => return { files := [], directories := [] }
    | e => return { files := [], directories := [],
                    barred? := fun p => if p = path then some e.toString else none }
  match ← attempt place.readDir with
  | .error why => return { files := [], directories := [names],
                           sealed? := fun p => if p = path then some why else none }
  | .ok entries =>
    let mut tree : FileTree := { files := [], directories := [names] }
    for entry in entries do
      let names := treeNames (path.child entry.fileName)
      if ← entry.path.isDir then
        tree := { tree with directories := names :: tree.directories }
      else
        let octets ← attempt (IO.FS.readBinFile entry.path)
        tree := { tree with files := (names, octets) :: tree.files }
    return tree

/-- What the disk holds at some paths. -/
def readTree (paths : List FileName) : IO FileTree := do
  let trees ← paths.mapM readFiles
  return { files := trees.flatMap (·.files), directories := trees.flatMap (·.directories),
           barred? := fun p => trees.findSome? (·.barred? p),
           sealed? := fun p => trees.findSome? (·.sealed? p) }

end UssdFlows.FlowTool

open UssdFlows in
/-- Lists, validates and shows flow files.  The directory of flows is the value
of `USSD_FLOWS_DIR`, or else `flows`. -/
def main (arguments : List String) : IO UInt32 := do
  let directory := FileName.ofText ((← IO.getEnv "USSD_FLOWS_DIR").getD "flows")
  let command := FlowTool.Command.ofArguments arguments
  let tree ← FlowTool.readTree (command.paths directory)
  match FlowTool.perform tree directory command with
  | .ok r =>
    IO.print r.output
    return ((r.exit.getD 0).toUInt32)
  | .error e =>
    IO.eprintln e.message
    return 1
