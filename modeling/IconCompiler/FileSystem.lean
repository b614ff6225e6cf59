import IconCompiler.FileTree

/-!
# File systems

A file system is a tree of files with a current directory. Paths are resolved name by name, from the
root of the tree; a relative path goes on from the current directory. There are no links, and every
directory can be read and written.
-/

namespace IconCompiler

/-- Why an operation on files failed. -/
inductive IoFault where
  /-- The path holds the character with which the system ends a path. -/
  | nulByte
  /-- A name in the path takes more than 255 bytes, or the path more than 4095. -/
  | nameTooLong
  | notFound
  | alreadyExists
  | notDirectory
  | isDirectory
  /-- A directory cannot be removed under the name that it has for itself. -/
  | invalidArgument
  | notText
  deriving Repr, DecidableEq

/-- The wording of a fault. -/
def IoFault.message : IoFault → String
  | .nulByte => "file name contained an unexpected NUL byte"
  | .nameTooLong => "File name too long (os error 36)"
  | .notFound => "No such file or directory (os error 2)"
  | .alreadyExists => "File exists (os error 17)"
  | .notDirectory => "Not a directory (os error 20)"
  | .isDirectory => "Is a directory (os error 21)"
  | .invalidArgument => "Invalid argument (os error 22)"
  | .notText => "stream did not contain valid UTF-8"

/-- Files and directories, and the directory from which relative paths start. -/
structure FileSystem where
  /-- All files and directories. -/
  tree : FileTree
  /-- The key of the current directory. -/
  current : FileKey
  /-- No directory holds a name twice. -/
  distinct : tree.Distinct

namespace FileSystem

/-- The file system with nothing but the current directory `names` and those above it. -/
def fresh (names : FileKey) : FileSystem :=
  ⟨.chain names, names, FileTree.distinct_chain names⟩

/-! ## Changes -/

/-- The file system with a file put under a key. -/
def putFile (fs : FileSystem) (key : FileKey) (content : ByteArray) : FileSystem :=
  { fs with
    tree := fs.tree.put key (.file content)
    distinct := fs.distinct.put (.file content) key }

/-- The file system with a directory put under a key, in which nothing lies but the directories
    `names`, one in the other. -/
def putDir (fs : FileSystem) (key names : FileKey) : FileSystem :=
  { fs with
    tree := fs.tree.put key (.chain names)
    distinct := fs.distinct.put (FileTree.distinct_chain names) key }

/-- The file system with a directory under a key, which is made unless it is there. -/
def withDir (fs : FileSystem) (key : FileKey) : FileSystem :=
  if (fs.tree.at? key).any FileTree.isDir then fs else fs.putDir key []

/-- Whether the current directory stands under a key or below it. -/
def isInUse (fs : FileSystem) (key : FileKey) : Bool :=
  key.isPrefixOf fs.current

/-- The file system without what lies in a directory. The current directory and those above it
    stay. -/
def clear (fs : FileSystem) (key : FileKey) : FileSystem :=
  fs.putDir key (if fs.isInUse key then fs.current.drop key.length else [])

/-- The file system without what stands under a key. The current directory and those above it
    stay. -/
def erase (fs : FileSystem) (key : FileKey) : FileSystem :=
  if fs.isInUse key then fs.clear key
  else { fs with tree := fs.tree.erase key, distinct := fs.distinct.erase key }

/-! ## Resolving paths -/

/-- A way from the root of the tree: the names passed, each with what stands there, the last one
    first. -/
abbrev Trail := List (FileName × FileTree)

/-- The key to which a way leads. -/
def keyOf (trail : Trail) : FileKey :=
  (trail.map Prod.fst).reverse

/-- What stands where a way ends. -/
def treeAt (fs : FileSystem) : Trail → FileTree
  | [] => fs.tree
  | (_, t) :: _ => t

/-- The fault of a path that names nothing in any file system: one that holds the null character,
    one that is too long, or the path without text. -/
def pathFault? (p : Path) : Option IoFault :=
  if p.units.contains (.char '\x00') then some .nulByte
  else if p.units = [] then some .notFound
  else if 4096 ≤ FileName.byteLength p.units then some .nameTooLong
  else none

/-- Whether a name is longer than any file system allows. -/
def isTooLong (name : FileName) : Bool :=
  255 < name.byteLength

/-- The names before a path's own ones on the way from the root of the tree. -/
def startKey (fs : FileSystem) (p : Path) : FileKey :=
  if p.isAbsolute then [] else fs.current

/-- One step of the resolution: `seg` seen from where a way ends. -/
def resolveSegment (fs : FileSystem) (trail : Trail) (seg : FileName) : Except IoFault Trail :=
  match fs.treeAt trail with
  | .file _ => .error .notDirectory
  | .dir es =>
    if Path.isVoid seg then .ok trail
    else if seg = FileName.dotDot then .ok trail.tail
    else if isTooLong seg then .error .nameTooLong
    else
      match OrderedMap.lookup seg es with
      | some t => .ok ((seg, t) :: trail)
      | none => .error .notFound

/-- Resolves the parts of a path one after another, from the root of the tree. -/
def resolveSegments (fs : FileSystem) (segs : List FileName) : Except IoFault Trail :=
  segs.foldlM fs.resolveSegment []

/-- The way to what a path names. -/
def resolve (fs : FileSystem) (p : Path) : Except IoFault Trail :=
  match pathFault? p with
  | some e => .error e
  | none => fs.resolveSegments (fs.startKey p ++ p.segments)

/-- What a path names. -/
def find? (fs : FileSystem) (p : Path) : Option FileTree :=
  match fs.resolve p with
  | .ok trail => some (fs.treeAt trail)
  | .error _ => none

/-- Whether a path names a directory. -/
def isDir (fs : FileSystem) (p : Path) : Bool :=
  (fs.find? p).any FileTree.isDir

/-- Whether a path names a file. -/
def isFile (fs : FileSystem) (p : Path) : Bool :=
  (fs.find? p).any fun t => !t.isDir

/-- Whether a path names anything. -/
def contains (fs : FileSystem) (p : Path) : Bool :=
  (fs.find? p).isSome

/-- The names of what lies in the directory that a path names. -/
def children (fs : FileSystem) (p : Path) : List FileName :=
  match fs.find? p with
  | some t => t.entries.map Prod.fst
  | none => []

/-! ## Reading and writing -/

/-- The bytes of the file that a path names. -/
def readBytes (fs : FileSystem) (p : Path) : Except IoFault ByteArray :=
  match fs.resolve p with
  | .error e => .error e
  | .ok trail =>
    match fs.treeAt trail with
    | .file content => .ok content
    | .dir _ => .error .isDirectory

/-- The text of the file that a path names. -/
def readText (fs : FileSystem) (p : Path) : Except IoFault String :=
  match fs.readBytes p with
  | .error e => .error e
  | .ok content =>
    match String.fromUTF8? content with
    | some s => .ok s
    | none => .error .notText

/-- What a path asks to be created: the directory it has to lie in, its name there unless the path
    ends in a dot or double dot, and whether slashes follow the name. -/
structure Target where
  dir : FileKey
  /-- What lies in that directory. -/
  siblings : List (FileName × FileTree)
  name? : Option FileName
  slashes : Bool

/-- The place of a file or directory to be created. -/
def target (fs : FileSystem) (p : Path) : Except IoFault Target :=
  match pathFault? p with
  | some e => .error e
  | none =>
    let segs := (p.segments.reverse.dropWhile (· = [])).reverse
    match fs.resolveSegments (fs.startKey p ++ segs.dropLast) with
    | .error e => .error e
    | .ok trail =>
      match fs.treeAt trail with
      | .file _ => .error .notDirectory
      | .dir es =>
        let name? := segs.getLast?.filter fun seg => seg ≠ FileName.dot && seg ≠ FileName.dotDot
        .ok ⟨keyOf trail, es, name?, p.units.getLast? = some Path.slash⟩

/-- The key under which writing to a path puts a file. -/
def writeKey (fs : FileSystem) (p : Path) : Except IoFault FileKey :=
  match fs.target p with
  | .error e => .error e
  -- a path that ends in a dot, a double dot or a slash names a directory
  | .ok ⟨_, _, none, _⟩ => .error .isDirectory
  | .ok ⟨dir, siblings, some name, slashes⟩ =>
    if slashes then .error .isDirectory
    else if isTooLong name then .error .nameTooLong
    else if (OrderedMap.lookup name siblings).any FileTree.isDir then .error .isDirectory
    else .ok (dir ++ [name])

/-- Writes a file, which is replaced if it exists. -/
def write (fs : FileSystem) (p : Path) (content : ByteArray) : Except IoFault FileSystem :=
  match fs.writeKey p with
  | .error e => .error e
  | .ok key => .ok (fs.putFile key content)

/-- Makes a directory in one that exists. -/
def makeDir (fs : FileSystem) (p : Path) : Except IoFault FileSystem :=
  match fs.target p with
  | .error e => .error e
  | .ok ⟨_, _, none, _⟩ => .error .alreadyExists
  | .ok ⟨dir, siblings, some name, _⟩ =>
    if isTooLong name then .error .nameTooLong
    else if (OrderedMap.lookup name siblings).isSome then .error .alreadyExists
    else .ok (fs.putDir (dir ++ [name]) [])

/-- Makes a directory unless it exists. -/
def ensureDir (fs : FileSystem) (p : Path) : Except IoFault FileSystem :=
  match fs.makeDir p with
  | .ok fs' => .ok fs'
  | .error e => if fs.isDir p then .ok fs else .error e

/-- Makes the first of the given directories. If the one that it has to lie in is missing, those
    after it are made first; the path without text needs not be made. The file system is also given
    back if that fails, with what was made before. -/
def ensureDirs (fs : FileSystem) : List Path → FileSystem × Option IoFault
  | [] => (fs, none)
  | p :: above =>
    if p.units = [] then (fs, none)
    else
      match fs.ensureDir p with
      | .ok fs' => (fs', none)
      -- only a missing directory is made good; one that is a file is not
      | .error .notFound =>
        match fs.ensureDirs above with
        | (fs', some e) => (fs', some e)
        | (fs', none) =>
          match fs'.ensureDir p with
          | .ok fs'' => (fs'', none)
          | .error e => (fs', some e)
      | .error e => (fs, some e)

/-- Makes a directory and those above it that are missing. -/
def createDirs (fs : FileSystem) (p : Path) : FileSystem × Option IoFault :=
  fs.ensureDirs p.ancestors

/-- The last part of a path's text, slashes aside. -/
def lastSegment? (p : Path) : Option FileName :=
  (p.segments.reverse.dropWhile (· = [])).head?

/-- Removes a file, or a directory with everything in it. A directory that a dot or double dot names
    stays, and loses what is in it; if the path still names it after that, this is a fault. -/
def remove (fs : FileSystem) (p : Path) : FileSystem × Option IoFault :=
  match fs.resolve p with
  | .error e => (fs, some e)
  | .ok trail =>
    let key := keyOf trail
    if lastSegment? p = some FileName.dot || lastSegment? p = some FileName.dotDot then
      let fs' := fs.clear key
      (fs', if fs'.contains p then some .invalidArgument else none)
    else (fs.erase key, none)

end FileSystem

end IconCompiler
