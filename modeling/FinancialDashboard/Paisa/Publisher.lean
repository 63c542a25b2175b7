import FinancialDashboard.Lib.PyText

/-!
# The publisher

`services/paisa/publisher.py` writes the generated include file and nothing
else.  `checkPath` is the path safety of `_check_path`, `compose` the header and
body, and `publishJournal` the whole: refuse a file without the sentinel, skip a
file that already holds the bytes, otherwise write a temporary file and rename
it over the target.

The file system is what the publisher asks of it: how `expanduser` reads `~`,
which paths are directories, what the target holds, and whether the write of the
temporary file or the rename fails.  An `OSError` of the write is *not* wrapped
in `PublishError`; it leaves `publish_journal` as it is, and so does the
`RuntimeError` of an `expanduser` with no home.
-/

namespace FinancialDashboard.Paisa

open PyText

abbrev Bytes := List UInt8

/-- A POSIX path as `pathlib` keeps it: its root and its parts. -/
structure Path where
  root : String
  parts : List String
  deriving DecidableEq, Repr

namespace Path

def rootOf (raw : String) : String :=
  if startsWith raw "//" && !startsWith raw "///" then "//"
  else if startsWith raw "/" then "/" else ""

/-- Empty segments and `.` are dropped, `..` is kept. -/
def ofString (raw : String) : Path where
  root := rootOf raw
  parts := (raw.toList.splitOn '/').map String.ofList |>.filter fun p => p ≠ "" && p ≠ "."

def isAbsolute (p : Path) : Bool := p.root ≠ ""

def toString (p : Path) : String :=
  if p.root = "" && p.parts.isEmpty then "." else p.root ++ String.intercalate "/" p.parts

def parent (p : Path) : Path := { p with parts := p.parts.dropLast }

/-- `repr` of a `PosixPath`. -/
def repr [UnicodeTables] (p : Path) : String :=
  "PosixPath(" ++ UnicodeTables.repr p.toString ++ ")"

end Path

/-- What is at the target before a publish. -/
inductive TargetFile
  | absent
  | unreadable (error : String)
  | holds (bytes : Bytes)
  deriving DecidableEq, Repr

structure FileSystem where
  expanduser : String → Except String String
  isDir : Path → Bool
  read : Path → TargetFile
  /-- The `OSError` of the temporary file, its write, its fsync or the rename. -/
  writeError : Path → Option String

/-- What can leave `publish_journal` other than by returning. -/
inductive PublishException
  | publishError (message : String)
  | runtimeError (message : String)
  | osError (message : String)
  deriving DecidableEq, Repr

structure PublishResult where
  published : Bool
  path : String
  version : String
  bodyHash : String
  bytesWritten : Nat
  deriving DecidableEq, Repr

def generatedHeaderVersion : String := "3"

def sentinel : String := "; DO NOT EDIT — generated by financial-dashboard Paisa projection."

def headerLines : List String :=
  [sentinel, "; This file is overwritten on every generate/sync. Changes are lost.",
    "; version: " ++ generatedHeaderVersion]

def encode (s : String) : Bytes := s.toUTF8.data.toList

/-- `existing.split(b"\n", 1)[0]`. -/
def firstLine (bytes : Bytes) : Bytes := bytes.takeWhile (· ≠ 10)

section

variable [UnicodeTables] (fs : FileSystem) (sha256 : String → String)

def notConfiguredMessage : String := "Paisa generated_path is not configured."

def notAbsoluteMessage (path : String) : String :=
  "Paisa generated_path must be absolute, got " ++ UnicodeTables.repr path ++ "."

def traverseMessage (path : String) : String :=
  "Paisa generated_path must not traverse: " ++ UnicodeTables.repr path ++ "."

def parentMissingMessage (parent : Path) : String :=
  "Paisa generated_path parent directory does not exist: " ++ parent.repr ++ "."

def unreadableMessage (target : Path) (error : String) : String :=
  "Could not read existing " ++ target.repr ++ ": " ++ error

def unmanagedMessage (target : Path) : String :=
  "Refusing to overwrite " ++ target.repr ++
    ": not a generated Paisa file (missing the generated-header sentinel)."

/-- `_check_path`. -/
def checkPath (path : String) : Except PublishException Path := do
  if strip path = "" then throw (.publishError notConfiguredMessage)
  let target ← match fs.expanduser path with
    | .ok expanded => pure (Path.ofString expanded)
    | .error message => throw (.runtimeError message)
  if !target.isAbsolute then throw (.publishError (notAbsoluteMessage path))
  if ".." ∈ target.parts then throw (.publishError (traverseMessage path))
  if !fs.isDir target.parent then throw (.publishError (parentMissingMessage target.parent))
  return target

omit [UnicodeTables] in
/-- `_compose`: the bytes of the file and the hash its header carries. -/
def compose (body : String) : Bytes × String :=
  let digest := sha256 body
  (encode (String.intercalate "\n" headerLines ++ "\n; hash: " ++ digest ++ "\n\n" ++ body), digest)

/-- `publish_journal`, with the bytes the target holds afterwards. -/
def publishJournal (path body : String) : Except PublishException (PublishResult × Bytes) := do
  let target ← checkPath fs path
  let data := (compose sha256 body).1
  let digest := (compose sha256 body).2
  let write : Except PublishException (PublishResult × Bytes) :=
    match fs.writeError target with
    | some message => throw (.osError message)
    | none => pure (⟨true, target.toString, generatedHeaderVersion, digest, data.length⟩, data)
  match fs.read target with
  | .absent => write
  | .unreadable error => throw (.publishError (unreadableMessage target error))
  | .holds existing =>
    if firstLine existing ≠ encode sentinel then
      throw (.publishError (unmanagedMessage target))
    else if existing = data then
      return (⟨false, target.toString, generatedHeaderVersion, digest, existing.length⟩, existing)
    else write

end

end FinancialDashboard.Paisa
