import FinancialDashboard.Backups.Names
import FinancialDashboard.Lib.OrderedDict
import FinancialDashboard.Lib.Transition
import Mathlib.Data.List.Sort

/-!
# How a backup is made and removed

`_create_backup_for_database` of `services/system_backups.py`, call by call, for any number of
processes that share one backup directory.  An attempt fills a hidden directory while it holds a
lock in it, renames the directory to the name of the backup and prunes; before that it removes
what crashed attempts left.  Any call may fail, and any process may stop between two calls.

Directories are told apart by inode, since a removal goes on inside one that has been renamed.
`shutil.rmtree` unlinks the children one at a time and fails if the name is gone or the directory
is not empty by then.

Entries that are not directories, modes, and what of the manifest's schema its writer always meets
are left out.  A probe of the lock is one step.
-/

namespace FinancialDashboard.Backups

open PyTime Transition

abbrev Bytes := List UInt8

/-- `SystemBackupManifest`; its version and its quick check are constants. -/
structure Manifest where
  backupId : String
  createdAt : Int
  sizeBytes : Nat
  sha256 : String
  deriving DecidableEq

/-- `BackupSha256`: `^[0-9a-f]{64}$`. -/
def isBackupSha256 (digest : String) : Bool :=
  digest.toList.length = 64 && digest.toList.all isHexDigit

/-- What the schema asks of an identifier, its time, a size and a digest. -/
structure Manifest.Valid (manifest : Manifest) : Prop where
  isBackupId : isBackupId manifest.backupId = true
  createdAt : backupIdCreatedAt manifest.backupId = some manifest.createdAt
  size_pos : 0 < manifest.sizeBytes
  isDigest : isBackupSha256 manifest.sha256 = true

/-- What the service takes from its libraries. -/
class Platform where
  /-- `hashlib.sha256(...).hexdigest()`. -/
  sha256 : Bytes → String
  isDigest_sha256 : ∀ bytes, isBackupSha256 (sha256 bytes) = true
  /-- Whether `PRAGMA quick_check(1)` answers `ok`. -/
  quickCheck : Bytes → Bool
  /-- `json.dumps(manifest.model_dump(mode="json"), ...).encode("utf-8")`. -/
  dump : Manifest → Bytes
  /-- `SystemBackupManifest.model_validate_json`; `none` where it raises. -/
  load : Bytes → Option Manifest
  load_dump : ∀ manifest : Manifest, manifest.Valid → load (dump manifest) = some manifest

/-! ### The files -/

/-- `.active.lock`, `backup.sqlite3`, `manifest.json` and the files SQLite puts beside. -/
inductive Child
  | activeLock | backup | manifest
  | sidecar (name : String)
  deriving DecidableEq

/-- A directory under the backup root.  The lock file has the process that holds its lock. -/
structure Directory where
  activeLock : Option (Option Nat)
  backup : Option Bytes
  manifest : Option Bytes
  sidecars : List String
  mtime : Int

namespace Directory

def made (now : Int) : Directory := ⟨none, none, none, [], now⟩

def isEmpty (d : Directory) : Bool :=
  d.activeLock.isNone && d.backup.isNone && d.manifest.isNone && d.sidecars.isEmpty

/-- `unlink`; `none` where there is no such file. -/
def unlink (d : Directory) (now : Int) : Child → Option Directory
  | .activeLock =>
    if d.activeLock.isSome then some { d with activeLock := none, mtime := now } else none
  | .backup => if d.backup.isSome then some { d with backup := none, mtime := now } else none
  | .manifest => if d.manifest.isSome then some { d with manifest := none, mtime := now } else none
  | .sidecar name =>
    if name ∈ d.sidecars then
      some { d with sidecars := d.sidecars.filter (· ≠ name), mtime := now }
    else none

/-- A lock goes with the process that holds it. -/
def release (w : Nat) (d : Directory) : Directory :=
  if d.activeLock = some (some w) then { d with activeLock := some none } else d

end Directory

/-! ### The processes -/

structure Job where
  backupId : String
  createdAt : Int
  temporaryName : String
  deriving DecidableEq

/-- How far an attempt is, by what it does next. -/
inductive Stage
  /-- makes the temporary directory -/
  | drawn
  /-- makes the lock file -/
  | made
  /-- takes the lock -/
  | opened
  /-- makes the file of the backup -/
  | locked
  /-- copies the database -/
  | copying
  /-- removes the files beside, syncs -/
  | copied
  /-- checks the copy -/
  | synced
  /-- removes the files beside, hashes -/
  | checked
  /-- makes the file of the manifest -/
  | hashed (manifest : Manifest)
  /-- writes it -/
  | writing (manifest : Manifest)
  /-- gives the lock back -/
  | written (manifest : Manifest)
  /-- removes the lock file -/
  | unlocked (manifest : Manifest)
  /-- syncs the directory, looks for the final name -/
  | bare (manifest : Manifest)
  /-- renames -/
  | cleared (manifest : Manifest)
  /-- syncs the root, looks for what to prune -/
  | published (manifest : Manifest)
  deriving DecidableEq

/-- On whose behalf `_remove_backup_tree` is called. -/
inductive Errand
  | scavenge | prune | cleanup
  deriving DecidableEq

/-- How far a removal is with the first name of its list. -/
inductive Place
  | looking | condemned
  | inside (inode : Nat)
  deriving DecidableEq

inductive Worker
  | idle
  | attempt (job : Job) (stage : Stage)
  | removing (errand : Errand) (todo : List String) (place : Place)
  deriving DecidableEq

structure State where
  names : OrderedDict String Nat
  directories : Nat → Option Directory
  inodes : Nat
  workers : Nat → Worker
  /-- The temporary names drawn so far. -/
  drawn : List String
  /-- The directories a removal has opened so far. -/
  entered : List Nat
  now : Int

namespace State

def initial (now : Int) : State where
  names := ∅
  directories := fun _ => none
  inodes := 0
  workers := fun _ => .idle
  drawn := []
  entered := []
  now := now

def lookup (s : State) (name : String) : Option (Nat × Directory) := do
  let inode ← s.names.get? name
  let d ← s.directories inode
  return (inode, d)

def setDirectory (s : State) (inode : Nat) (d : Directory) : State :=
  { s with directories := Function.update s.directories inode (some d) }

def setWorker (s : State) (w : Nat) (worker : Worker) : State :=
  { s with workers := Function.update s.workers w worker }

def releaseLocks (s : State) (w : Nat) : State :=
  { s with directories := fun inode => (s.directories inode).map (Directory.release w) }

end State

/-! ### An attempt -/

def manifestMaxBytes : Nat := 16 * 1024

def staleTempMinAgeSeconds : Int := 24 * 60 * 60

def maxRetainedBackups : Nat := 20

/-- `candidates[_MAX_RETAINED_BACKUPS - 1 :]` of `_prune_old_backups`. -/
def staleBackups (names : List String) (currentBackupId : String) : List String :=
  ((names.filter fun name => name ≠ currentBackupId && isBackupId name).insertionSort
    (· ≥ ·)).drop (maxRetainedBackups - 1)

section

variable [Platform]

/-- The next call of an attempt; `none` where it raises. -/
def call (s : State) (w : Nat) (job : Job) : Stage → Option State
  | .drawn =>
    if s.names.get? job.temporaryName = none then
      some ({ s with
        names := s.names.set job.temporaryName s.inodes
        directories := Function.update s.directories s.inodes (some (.made s.now))
        inodes := s.inodes + 1 }.setWorker w (.attempt job .made))
    else none
  | .made =>
    match s.lookup job.temporaryName with
    | some (inode, d) =>
      if d.activeLock = none then
        some ((s.setDirectory inode { d with activeLock := some none, mtime := s.now }).setWorker w
          (.attempt job .opened))
      else none
    | none => none
  -- A file that is open can be locked, though it has been unlinked.
  | .opened =>
    match s.lookup job.temporaryName with
    | some (inode, d) =>
      match d.activeLock with
      | none => some (s.setWorker w (.attempt job .locked))
      | some none =>
        some ((s.setDirectory inode { d with activeLock := some (some w) }).setWorker w
          (.attempt job .locked))
      | some (some _) => none
    | none => some (s.setWorker w (.attempt job .locked))
  | .locked =>
    match s.lookup job.temporaryName with
    | some (inode, d) =>
      if d.backup = none then
        some ((s.setDirectory inode { d with backup := some [], mtime := s.now }).setWorker w
          (.attempt job .copying))
      else none
    | none => none
  | .copying => some (s.setWorker w (.attempt job .copied))
  | .copied =>
    match s.lookup job.temporaryName with
    | some (inode, d) =>
      if d.backup.isSome then
        some ((s.setDirectory inode { d with sidecars := [], mtime := s.now }).setWorker w
          (.attempt job .synced))
      else none
    | none => none
  | .synced =>
    match s.lookup job.temporaryName with
    | some (_, d) =>
      if d.backup.any Platform.quickCheck then some (s.setWorker w (.attempt job .checked)) else none
    | none => none
  | .checked =>
    match s.lookup job.temporaryName with
    | some (inode, d) =>
      match d.backup with
      | some bytes =>
        if 0 < bytes.length then
          some ((s.setDirectory inode { d with sidecars := [], mtime := s.now }).setWorker w
            (.attempt job (.hashed ⟨job.backupId, job.createdAt, bytes.length,
              Platform.sha256 bytes⟩)))
        else none
      | none => none
    | none => none
  | .hashed manifest =>
    match s.lookup job.temporaryName with
    | some (inode, d) =>
      if d.manifest = none ∧ (Platform.dump manifest).length ≤ manifestMaxBytes then
        some ((s.setDirectory inode { d with manifest := some [], mtime := s.now }).setWorker w
          (.attempt job (.writing manifest)))
      else none
    | none => none
  -- The file is written through its descriptor, whether it still has a name or not.
  | .writing manifest =>
    match s.lookup job.temporaryName with
    | some (inode, d) =>
      some ((s.setDirectory inode
        { d with manifest := d.manifest.map fun _ => Platform.dump manifest }).setWorker w
          (.attempt job (.written manifest)))
    | none => some (s.setWorker w (.attempt job (.written manifest)))
  | .written manifest =>
    match s.lookup job.temporaryName with
    | some (inode, d) =>
      some ((s.setDirectory inode (d.release w)).setWorker w (.attempt job (.unlocked manifest)))
    | none => some (s.setWorker w (.attempt job (.unlocked manifest)))
  | .unlocked manifest =>
    match s.lookup job.temporaryName with
    | some (inode, d) =>
      if d.activeLock.isSome then
        some ((s.setDirectory inode { d with activeLock := none, mtime := s.now }).setWorker w
          (.attempt job (.bare manifest)))
      else none
    | none => none
  | .bare manifest =>
    if (s.lookup job.temporaryName).isSome ∧ s.names.get? job.backupId = none then
      some (s.setWorker w (.attempt job (.cleared manifest)))
    else none
  -- An empty directory gives way to a rename.
  | .cleared manifest =>
    match s.lookup job.temporaryName with
    | some (inode, _) =>
      if (s.lookup job.backupId).all fun final => final.2.isEmpty then
        some ({ s with
          names := (s.names.pop job.temporaryName).set job.backupId inode }.setWorker w
            (.attempt job (.published manifest)))
      else none
    | none => none
  | .published _ =>
    some (s.setWorker w
      (.removing .prune (staleBackups s.names.keys job.backupId) .looking))

end

/-! ### A removal -/

/-- The tests before `_remove_backup_tree`. -/
def mayRemove (s : State) (errand : Errand) (name : String) : Bool :=
  match errand with
  | .scavenge =>
    isTemporaryName name && (s.lookup name).any fun found =>
      found.2.mtime ≤ s.now - staleTempMinAgeSeconds &&
        !found.2.activeLock.any fun holder => holder.isSome
  | .prune | .cleanup => true

/-- The names an attempt that failed removes, in the order it does. -/
def cleanupNames (job : Job) : Stage → List String
  | .drawn => []
  | .published _ => [job.temporaryName, job.backupId]
  | _ => [job.temporaryName]

inductive Event
  | start (w : Nat)
  | probe (w : Nat)
  | enter (w : Nat)
  | unlink (w : Nat) (child : Child)
  | rmdir (w : Nat)
  | giveUp (w : Nat)
  | finish (w : Nat)
  | draw (w : Nat) (createdAt : Int) (token temporaryToken : Token)
  | call (w : Nat)
  /-- SQLite writes a part of the copy. -/
  | copy (w : Nat) (bytes : Bytes)
  /-- SQLite leaves files beside the copy. -/
  | sidecars (w : Nat) (names : List String)
  /-- A part of the manifest is written. -/
  | flush (w : Nat) (n : Nat)
  | raise (w : Nat)
  | crash (w : Nat)
  | tick (n : Nat)

section

variable [Platform]

def step (s : State) : Event → Option State
  | .start w =>
    match s.workers w with
    | .idle => some (s.setWorker w (.removing .scavenge s.names.keys .looking))
    | _ => none
  | .probe w =>
    match s.workers w with
    | .removing errand (name :: rest) .looking =>
      if mayRemove s errand name then
        some (s.setWorker w (.removing errand (name :: rest) .condemned))
      else some (s.setWorker w (.removing errand rest .looking))
    | _ => none
  | .enter w =>
    match s.workers w with
    | .removing errand (name :: rest) .condemned =>
      match s.names.get? name with
      | some inode =>
        some ({ s with entered := inode :: s.entered }.setWorker w
          (.removing errand (name :: rest) (.inside inode)))
      | none => some (s.setWorker w (.removing errand rest .looking))
    | _ => none
  | .unlink w child =>
    match s.workers w with
    | .removing _ _ (.inside inode) =>
      match (s.directories inode).bind (·.unlink s.now child) with
      | some d => some (s.setDirectory inode d)
      | none => none
    | _ => none
  | .rmdir w =>
    match s.workers w with
    | .removing errand (name :: rest) (.inside _) =>
      if (s.lookup name).any fun found => found.2.isEmpty then
        some ({ s with names := s.names.pop name }.setWorker w (.removing errand rest .looking))
      else none
    | _ => none
  -- An `OSError` leaves the directory as it is by then.
  | .giveUp w =>
    match s.workers w with
    | .removing errand (_ :: rest) _ => some (s.setWorker w (.removing errand rest .looking))
    | _ => none
  | .finish w =>
    match s.workers w with
    | .removing .prune [] _ | .removing .cleanup [] _ => some (s.setWorker w .idle)
    | _ => none
  | .draw w createdAt token temporaryToken =>
    match s.workers w with
    | .removing .scavenge [] _ =>
      let backupId := newBackupId createdAt token
      let job : Job := ⟨backupId, createdAt, temporaryName backupId temporaryToken⟩
      if IsDate (dateOf createdAt) ∧ s.names.get? backupId = none then
        some ({ s with drawn := job.temporaryName :: s.drawn }.setWorker w (.attempt job .drawn))
      else some (s.setWorker w .idle)
    | _ => none
  | .call w =>
    match s.workers w with
    | .attempt job stage => call s w job stage
    | _ => none
  | .copy w bytes =>
    match s.workers w with
    | .attempt job .copying =>
      match s.lookup job.temporaryName with
      | some (inode, d) => some (s.setDirectory inode { d with backup := some bytes, mtime := s.now })
      | none => none
    | _ => none
  | .sidecars w names =>
    match s.workers w with
    | .attempt job .copying | .attempt job .synced =>
      match s.lookup job.temporaryName with
      | some (inode, d) =>
        some (s.setDirectory inode { d with sidecars := names, mtime := s.now })
      | none => none
    | _ => none
  | .flush w n =>
    match s.workers w with
    | .attempt job (.writing manifest) =>
      match s.lookup job.temporaryName with
      | some (inode, d) =>
        some (s.setDirectory inode
          { d with manifest := d.manifest.map fun _ => (Platform.dump manifest).take n })
      | none => none
    | _ => none
  | .raise w =>
    match s.workers w with
    | .attempt job stage =>
      some ((s.releaseLocks w).setWorker w (.removing .cleanup (cleanupNames job stage) .looking))
    | _ => none
  | .crash w => some ((s.releaseLocks w).setWorker w .idle)
  | .tick n => some { s with now := s.now + n }

/-- Any number of processes that make backups in one directory. -/
def backups : System State Event where
  step := step

/-! ### The listing -/

inductive BackupFileStatus
  | verified | missing | sizeMismatch
  deriving DecidableEq

/-- `SystemBackupMetadata`. -/
structure Metadata where
  backupId : String
  createdAt : Int
  sizeBytes : Nat
  sha256 : String
  status : BackupFileStatus
  deriving DecidableEq

def backupFileStatus (file : Option Bytes) (expectedSize : Nat) : BackupFileStatus :=
  match file with
  | none => .missing
  | some bytes => if bytes.length = expectedSize then .verified else .sizeMismatch

/-- `_manifest_metadata`; `none` where it ignores the directory. -/
def manifestMetadata (s : State) (name : String) : Option Metadata := do
  let (_, d) ← s.lookup name
  let payload ← d.manifest
  if manifestMaxBytes < payload.length then none
  else
    let manifest ← Platform.load payload
    if manifest.backupId = name ∧ backupIdCreatedAt manifest.backupId = some manifest.createdAt then
      some ⟨manifest.backupId, manifest.createdAt, manifest.sizeBytes, manifest.sha256,
        backupFileStatus d.backup manifest.sizeBytes⟩
    else none

/-- The loop over the candidates, which stops at one more than it may return. -/
def gather (s : State) (limit : Nat) : List Metadata → List String → List Metadata
  | backups, [] => backups
  | backups, name :: rest =>
    match manifestMetadata s name with
    | none => gather s limit backups rest
    | some metadata =>
      if limit < (backups ++ [metadata]).length then backups ++ [metadata]
      else gather s limit (backups ++ [metadata]) rest

def listCandidates (names : List String) : List String :=
  (names.filter fun name => isBackupId name && (backupIdCreatedAt name).isSome).insertionSort (· ≥ ·)

/-- `_list_backups_for_database`. -/
def listBackups (s : State) (limit : Nat) : List Metadata × Bool :=
  let backups := gather s limit [] (listCandidates s.names.keys)
  (backups.take limit, limit < backups.length)

end

/-! ### A plain platform -/

/-- Each number as so many ones before a zero. -/
def unary (numbers : List Nat) : Bytes := numbers.flatMap fun n => List.replicate n 1 ++ [0]

def readUnary (count : Nat) : Bytes → List Nat
  | [] => []
  | byte :: rest => if byte = 0 then count :: readUnary 0 rest else readUnary (count + 1) rest

theorem readUnary_replicate (n count : Nat) (rest : Bytes) :
    readUnary count (List.replicate n 1 ++ 0 :: rest) = (count + n) :: readUnary 0 rest := by
  induction n generalizing count with
  | zero => exact if_pos rfl
  | succ n ih =>
    rw [List.replicate_succ, List.cons_append, readUnary, if_neg (by decide), ih]
    congr 1
    omega

theorem readUnary_unary (numbers : List Nat) : readUnary 0 (unary numbers) = numbers := by
  induction numbers with
  | nil => rfl
  | cons n rest ih =>
    have hcons : unary (n :: rest) = List.replicate n 1 ++ 0 :: unary rest := by
      simp [unary]
    rw [hcons, readUnary_replicate, ih, Nat.zero_add]

def hexDigit (n : Nat) : Char := "0123456789abcdef".toList.getD n '0'

theorem isHexDigit_hexDigit (n : Nat) : isHexDigit (hexDigit n) = true := by
  unfold isHexDigit hexDigit
  rw [decide_eq_true_eq, List.getD_eq_getElem?_getD]
  cases h : "0123456789abcdef".toList[n]? with
  | none => decide
  | some c => exact List.mem_of_getElem? h

def nibbles (bytes : Bytes) : List Nat :=
  bytes.flatMap fun byte : UInt8 => [byte.toNat / 16, byte.toNat % 16]

/-- The first bytes in hexadecimal, filled up with zeros. -/
def plainDigest (bytes : Bytes) : String :=
  String.ofList (((nibbles bytes ++ List.replicate 64 0).take 64).map hexDigit)

theorem isBackupSha256_plainDigest (bytes : Bytes) : isBackupSha256 (plainDigest bytes) = true := by
  unfold isBackupSha256 plainDigest
  rw [String.toList_ofList, Bool.and_eq_true, decide_eq_true_eq, List.all_eq_true]
  constructor
  · rw [List.length_map, List.length_take, List.length_append, List.length_replicate]
    omega
  · intro c hc
    obtain ⟨n, -, rfl⟩ := List.mem_map.mp hc
    exact isHexDigit_hexDigit n

/-- A platform whose hash is the first bytes themselves and whose check wants a byte. -/
@[reducible] def plainPlatform : Platform where
  sha256 := plainDigest
  isDigest_sha256 := isBackupSha256_plainDigest
  quickCheck bytes := !bytes.isEmpty
  dump manifest := unary (manifest.sizeBytes :: manifest.backupId.toList.length ::
    (manifest.backupId.toList ++ manifest.sha256.toList).map Char.toNat)
  load payload :=
    match readUnary 0 payload with
    | sizeBytes :: n :: rest =>
      let text := rest.map Char.ofNat
      (backupIdCreatedAt (String.ofList (text.take n))).map fun createdAt =>
        ⟨String.ofList (text.take n), createdAt, sizeBytes, String.ofList (text.drop n)⟩
    | _ => none
  load_dump manifest h := by
    have hchars : ∀ chars : List Char, (chars.map Char.toNat).map Char.ofNat = chars := by
      intro chars
      rw [List.map_map]
      exact (List.map_congr_left fun c _ => Char.ofNat_toNat c).trans (List.map_id chars)
    rw [readUnary_unary]
    dsimp only
    rw [hchars, List.take_left, List.drop_left, String.ofList_toList, String.ofList_toList, h.createdAt]
    rfl

end FinancialDashboard.Backups
