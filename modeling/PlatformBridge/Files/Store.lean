import PlatformBridge.Files.Path

/-!
# File Stores

What the tool needs of a file system. Each operation of a store acts at once or fails with a cause
and changes nothing; whatever takes several of them is built from these, so that it can be run on
the files of a computer and reasoned about on a tree in memory alike.

## Main definitions

* `FileError`: Why an operation fails.
* `FileKind`: What a path can lead to.
* `FileStore`: The operations.
* `FileStore.createDirectories`: A directory with all that are missing above it.
-/

namespace PlatformBridge

/-- Why an operation on files fails. -/
inductive FileError where
  | notFound
  | notADirectory
  | isADirectory
  | alreadyExists
  | nameTooLong
  | tooManyLinks
  | denied
  /-- A path holds a character with the code zero. -/
  | zeroInPath
  /-- Every name that was tried for a temporary file is in use. -/
  | noTemporaryName
  | other (reason : String)
  deriving DecidableEq, Repr, Inhabited

/-- The message of an error. -/
def FileError.message : FileError → String
  | notFound => "No such file or directory (os error 2)"
  | notADirectory => "Not a directory (os error 20)"
  | isADirectory => "Is a directory (os error 21)"
  | alreadyExists => "File exists (os error 17)"
  | nameTooLong => "File name too long (os error 36)"
  | tooManyLinks => "Too many levels of symbolic links (os error 40)"
  | denied => "Permission denied (os error 13)"
  | zeroInPath => "file name contained an unexpected NUL byte"
  | noTemporaryName => "unable to allocate temporary output file"
  | other reason => reason

/-- What a path can lead to. -/
inductive FileKind where
  | file
  | directory
  | link
  deriving DecidableEq, Repr, Inhabited

/-- The operations of a file store. -/
class FileStore (m : Type → Type) where
  /-- What a path leads to; a link at its very end is followed or not. -/
  kind (follow : Bool) (path : Path) : m (Except FileError FileKind)
  /-- The content of a file. -/
  read (path : Path) : m (Except FileError ByteArray)
  /-- Whether a directory is empty. -/
  isEmpty (path : Path) : m (Except FileError Bool)
  /-- Makes a directory in one that is there. -/
  makeDirectory (path : Path) : m (Except FileError Unit)
  /-- Gives a file its content, where a link leads to it too. -/
  write (path : Path) (bytes : ByteArray) : m (Except FileError Unit)
  /-- Puts a file in place under a name as a whole, by way of a temporary file beside it. -/
  replace (path : Path) (bytes : ByteArray) : m (Except FileError Unit)
  /-- Removes a file. -/
  remove (path : Path) : m (Except FileError Unit)

namespace FileStore

variable {m : Type → Type} [Monad m] [FileStore m]

/-- Whether a path leads to a directory. -/
def isDirectory (path : Path) : m Bool := do
  match ← kind true path with
  | .ok .directory => return true
  | _ => return false

/-- Makes the first of some paths, each of which is the parent of the one before it, once those
    behind it that are missing are made. A directory that is there already does. -/
def createChain : List Path → m (Except FileError Unit)
  | [] => return .ok ()
  | path :: above => do
    if path.isEmpty then return .ok ()
    match ← makeDirectory path with
    | .ok () => return .ok ()
    | .error .notFound =>
      match ← createChain above with
      | .error e => return .error e
      | .ok () =>
        match ← makeDirectory path with
        | .ok () => return .ok ()
        | .error e => if ← isDirectory path then return .ok () else return .error e
    | .error e => if ← isDirectory path then return .ok () else return .error e

/-- Makes a directory, and those above it that are missing. -/
def createDirectories (path : Path) : m (Except FileError Unit) := createChain path.ancestors

end FileStore

end PlatformBridge
