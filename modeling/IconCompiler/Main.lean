import IconCompiler.CommandLine

/-!
# The program

Runs a command line on the files of the computer. The directories in which the build reads and
writes are copied into a file system value, the run is computed on that, and what it changed is
written back. Links inside those directories are not followed.
-/

namespace IconCompiler.Program

/-- The key of the path `p`, as far as its text tells it, for the current directory `current`. -/
def keyOf (current : FileKey) (p : Path) : FileKey :=
  p.segments.foldl
    (fun key seg =>
      if Path.isVoid seg then key
      else if seg = FileName.dotDot then key.dropLast
      else key ++ [seg])
    (if p.isAbsolute then [] else current)

/-- The path of a key. -/
def pathText (key : FileKey) : String :=
  "/" ++ "/".intercalate (key.map fun n => String.ofList n.display)

/-- Copies what lies in a directory, and in the directories in it. -/
partial def copyBelow (fs : FileSystem) (key : FileKey) : IO FileSystem := do
  let dir ← IO.FS.realPath (pathText key)
  let mut fs := fs
  for entry in ← dir.readDir do
    let child := key ++ [FileName.ofChars entry.fileName.toList]
    match (← entry.path.symlinkMetadata).type with
    | .dir => fs ← copyBelow (fs.withDir child) child
    | .file => fs := fs.putFile child (← IO.FS.readBinFile entry.path)
    | _ => pure ()
  return fs

/-- Copies what stands under a key of the computer's files, if anything does. -/
def copyAt (fs : FileSystem) (key : FileKey) : IO FileSystem := do
  let type? : Option IO.FS.FileType ← try
      let place ← IO.FS.realPath (pathText key)
      pure (some (← place.metadata).type)
    catch _ => pure none
  match type? with
  | some .dir => copyBelow (fs.withDir key) key
  | some .file => return fs.putFile key (← IO.FS.readBinFile (pathText key))
  | _ => return fs

/-- The keys that lie below no other one. -/
def outermost (keys : List FileKey) : List FileKey :=
  keys.eraseDups.filter fun key => !keys.any fun k => k ≠ key && k.isPrefixOf key

/-- Copies what paths name. -/
def copyPaths (fs : FileSystem) (ps : List Path) : IO FileSystem :=
  (outermost (ps.map (keyOf fs.current))).foldlM copyAt fs

/-- The files that a command line concerns, in the current directory `current`. -/
def copyFiles (args : List String) (current : FileKey) : IO FileSystem := do
  let fs := FileSystem.fresh current
  match CommandLine.parse args with
  | .ok (.build options) =>
    let fs ← copyPaths fs (options.config.toList.map Path.ofString)
    match options.toConfig fs with
    | .ok config => copyPaths fs config.places
    | .error _ => return fs
  | _ => return fs

/-- Writes back what changed. -/
def writeBack (before after : FileSystem) : IO Unit := do
  for (key, _, t) in after.tree.listing (fun key name => key ++ [name]) [] do
    match t, before.tree.at? key with
    | .dir _, some (.dir _) => pure ()
    | .dir _, _ => IO.FS.createDirAll (pathText key)
    | .file content, some (.file content') =>
      if content.data ≠ content'.data then IO.FS.writeBinFile (pathText key) content
    | .file content, _ => IO.FS.writeBinFile (pathText key) content

end IconCompiler.Program

open IconCompiler in
/-- Runs the program. -/
def main (args : List String) : IO UInt32 := do
  let current := Program.keyOf [] (.ofString (← IO.currentDir).toString)
  let files ← Program.copyFiles args current
  let (exit, session) := CommandLine.run args files
  Program.writeBack files session.files
  IO.print exit.output
  IO.eprint exit.message
  return UInt32.ofNat exit.code
