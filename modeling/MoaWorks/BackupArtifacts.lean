-- The artifact of an operational backup: an archive of the database dump and of two live trees,
-- with a manifest, and the encrypted envelope that it is stored in.
import MoaWorks.Lib.Chunks
import MoaWorks.Lib.Encoding
import MoaWorks.Lib.Raise

namespace moaworks.backup_artifact

open Encoding (Bytes)

/-! ## Names and manifests -/

/-- The two trees, each in its folder of the archive. -/
inductive Root
  | storage | runtime
  deriving DecidableEq, Repr

def Root.folder : Root → String
  | .storage => "storage"
  | .runtime => "runtime"

/-- A path below a root. -/
structure RelPath where
  parts : List String
  some_part : parts ≠ []
  named : ∀ part ∈ parts, part ≠ ""
  free : ∀ part ∈ parts, Encoding.Free '/' part
  deriving DecidableEq

/-- `relative_to(root).as_posix()`, in the folder of its root. -/
def archiveName (root : Root) (path : RelPath) : String :=
  (String.ofList ['/']).intercalate (root.folder :: path.parts)

/-- `_validate_archive_name`, as a test. -/
def isArchiveName (name : String) : Bool :=
  name != "" && !(['/'].isPrefixOf name.toList) && !decide ('\\' ∈ name.toList) &&
    !(name.toList.splitOn '/').contains "..".toList

/-- A line of `files` in the manifest. -/
structure Entry where
  path : String
  sha256 : String
  sizeBytes : Nat
  deriving DecidableEq, Repr

/-- The metadata of the job, and the files; `schemaVersion` and `components` are constants. -/
structure Manifest where
  backupId : String
  companyId : String
  createdAt : String
  files : List Entry
  deriving DecidableEq, Repr

/-! ## The libraries -/

/-- What the libraries do: digests, ZIP files, JSON, and AES-GCM under a key and a nonce, which takes
its input in any number of calls of `update`. -/
structure Toolkit where
  sha256 : Bytes → String
  zip : List (String × Bytes) → Bytes
  unzip : Bytes → Option (List (String × Bytes))
  dumps : Manifest → Bytes
  loads : Bytes → Option Manifest
  /-- The body and the tag. -/
  encryptor : Bytes → Bytes → Bytes → List Bytes → Bytes × Bytes
  decryptor : Bytes → Bytes → Bytes → Bytes → List Bytes → Option Bytes

/-! ## Live trees -/

inductive Node
  | file (inode : Nat)
  | directory (size : Nat)
  deriving DecidableEq, Repr

/-- What a walk over a tree has found. -/
structure Listing where
  found : List RelPath
  nodup : found.Nodup

/-- The live trees at one moment. -/
structure FileSystem where
  /-- The regular files of a root, if it exists. -/
  listing : Root → Option Listing
  /-- What a path leads to, links followed. -/
  node : Root → RelPath → Option Node
  /-- The path resolves to a place below its root. -/
  inside : Root → RelPath → Bool
  contents : Nat → Bytes

/-- Why a file is read. -/
inductive Pass
  | digest | write
  deriving DecidableEq, Repr

/-- `stream.read(1024 * 1024)` of `_sha256_file`, and the chunks of `ZipFile.write`. -/
def Pass.chunk : Pass → Nat
  | .digest => 1024 * 1024
  | .write => 1024 * 8

/-- Where a backup looks at the live trees. Each of these comes at most once in it. -/
inductive Look
  | walk (root : Root)
  | resolve (root : Root) (path : RelPath)
  | size (root : Root) (path : RelPath)
  | inspect (root : Root) (path : RelPath)
  | opening (pass : Pass) (root : Root) (path : RelPath)
  | chunk (pass : Pass) (root : Root) (path : RelPath) (j : Nat)
  deriving DecidableEq

/-- The live trees at each of these moments: whatever other processes have left there. -/
abbrev Live := Look → FileSystem

variable (t : Toolkit) (live : Live) (turns : Nat)

/-- All that a pass reads of a file. The file stays open when its path leads elsewhere, and the
chunks are read one after another. -/
def readFile (pass : Pass) (root : Root) (path : RelPath) : Except String Bytes :=
  match (live (.opening pass root path)).node root path with
  | none => .error "FileNotFoundError"
  | some (.directory _) => .error "IsADirectoryError"
  | some (.file inode) =>
    let contents := fun j => (live (.chunk pass root path j)).contents inode
    match Chunks.readAll contents pass.chunk turns 0 0 with
    | none => .error "the file has grown all the time"
    | some chunks => .ok chunks.flatten

/-! ## Archives -/

inductive Source
  | dump
  | live (root : Root) (path : RelPath)
  deriving DecidableEq

/-- What `_append_member` appends, with the bytes that the digest was made of. -/
structure Member where
  source : Source
  archive_name : String
  digest : String
  digested : Bytes

def _append_member (source : Source) (archive_name : String) (read : Except String Bytes) :
    Except String Member := do
  Raise.require (isArchiveName archive_name = true) "백업 archive 경로가 올바르지 않습니다."
  let content ← read
  pure ⟨source, archive_name, t.sha256 content, content⟩

/-- One turn of the loop of `_append_tree`. -/
def appendFile (root : Root) (path : RelPath) : Except String Member := do
  Raise.require ((live (.resolve root path)).inside root path = true)
    "백업 대상 파일이 허용된 경계를 벗어났습니다."
  _append_member t (.live root path) (archiveName root path) (readFile live turns .digest root path)

def Listing.sorted (listing : Listing) : List RelPath :=
  listing.found.insertionSort (fun p q => p.parts ≤ q.parts)

def _append_tree (root : Root) : Except String (List Member) :=
  match (live (.walk root)).listing root with
  | none => .ok []
  | some listing => listing.sorted.mapM (appendFile t live turns root)

/-- `source.stat().st_size`, in the line of the manifest. -/
def statSize (dump : Bytes) : Source → Except String Nat
  | .dump => .ok dump.length
  | .live root path => match (live (.size root path)).node root path with
    | none => .error "FileNotFoundError"
    | some (.directory size) => .ok size
    | some (.file inode) => .ok ((live (.size root path)).contents inode).length

def manifestEntry (dump : Bytes) (m : Member) : Except String Entry := do
  let sizeBytes ← statSize live dump m.source
  pure ⟨m.archive_name, m.digest, sizeBytes⟩

/-- `archive.write(source, archive_name)`: a path that has become a directory gives an empty entry
under the name of a directory. -/
def writeMember (dump : Bytes) (m : Member) : Except String (String × Bytes) :=
  match m.source with
  | .dump => .ok (m.archive_name, dump)
  | .live root path => match (live (.inspect root path)).node root path with
    | none => .error "FileNotFoundError"
    | some (.directory _) => .ok (m.archive_name ++ "/", [])
    | some (.file _) => do
      let content ← readFile live turns .write root path
      pure (m.archive_name, content)

/-- What `create_archive` leaves: the ZIP file, and what it was made of. -/
structure Archive where
  members : List Member
  manifest : Manifest
  entries : List (String × Bytes)
  bytes : Bytes

def create_archive (dump : Bytes) (backupId companyId createdAt : String) :
    Except String Archive := do
  let database ← _append_member t .dump "database/database.dump" (.ok dump)
  let storage ← _append_tree t live turns .storage
  let runtime ← _append_tree t live turns .runtime
  let members := database :: (storage ++ runtime)
  let files ← members.mapM (manifestEntry live dump)
  let manifest : Manifest := ⟨backupId, companyId, createdAt, files⟩
  let entries ← members.mapM (writeMember live turns dump)
  pure ⟨members, manifest, entries, t.zip (entries ++ [("manifest.json", t.dumps manifest)])⟩

/-- `archive.read(name)`: of two entries of one name, the later one. -/
def readEntry (entries : List (String × Bytes)) (name : String) : Option Bytes :=
  entries.reverse.lookup name

structure BackupVerificationResult where
  valid : Bool
  failed_files : List String
  file_count : Nat
  deriving DecidableEq, Repr

/-- One turn of the loop of `verify_archive`: the name, if it fails. -/
def verifyEntry (entries : List (String × Bytes)) (item : Entry) : Except String (List String) :=
  if isArchiveName item.path = true then
    match readEntry entries item.path with
    | none => .ok [item.path]
    | some content =>
      if t.sha256 content ≠ item.sha256 ∨ content.length ≠ item.sizeBytes then .ok [item.path]
      else .ok []
  else .error "백업 archive 경로가 올바르지 않습니다."

def verify_archive (artifact : Bytes) : Except String BackupVerificationResult := do
  let entries ← Raise.found (t.unzip artifact) "BadZipFile"
  let text ← Raise.found (readEntry entries "manifest.json") "KeyError"
  let manifest ← Raise.found (t.loads text) "JSONDecodeError"
  let failed ← manifest.files.mapM (verifyEntry t entries)
  pure ⟨decide (failed.flatten = []), failed.flatten, manifest.files.length⟩

/-! ## Envelopes -/

def MAGIC : Bytes := Encoding.utf8 "MOAWORKS-BACKUP-V1\n"

def NONCE_BYTES : Nat := 12

def TAG_BYTES : Nat := 16

def header_size : Nat := MAGIC.length + NONCE_BYTES

/-- The chunks of the loops of `encrypt` and `decrypt`. -/
def chunkSize : Nat := 1024 * 1024

/-- What `os.urandom(NONCE_BYTES)` gives. -/
structure Nonce where
  bytes : Bytes
  length_bytes : bytes.length = NONCE_BYTES

def envelope (nonce body tag : Bytes) : Bytes := MAGIC ++ nonce ++ body ++ tag

/-- The file that `encrypt` writes. Its source is a file that nobody else knows of. -/
def encrypt (key : Bytes) (nonce : Nonce) (source : Bytes) : Bytes :=
  let chunks := (Chunks.readAll (fun _ => source) chunkSize (source.length + 1) 0 0).getD []
  let (body, tag) := t.encryptor key nonce.bytes MAGIC chunks
  envelope nonce.bytes body tag

def decrypt (key : Bytes) (source : Bytes) : Except String Bytes := do
  let total_size := source.length
  Raise.require (¬ total_size ≤ header_size + TAG_BYTES) "암호화 백업 파일이 손상되었습니다."
  Raise.require (source.take MAGIC.length = MAGIC) "지원하지 않는 백업 암호화 형식입니다."
  let nonce := (source.drop MAGIC.length).take NONCE_BYTES
  let tag := source.drop (total_size - TAG_BYTES)
  let encrypted_size := total_size - header_size - TAG_BYTES
  let chunks ← Raise.found
    (Chunks.readExactly chunkSize encrypted_size encrypted_size (source.drop header_size))
    "암호화 백업 파일이 잘렸습니다."
  Raise.found (t.decryptor key nonce MAGIC tag chunks) "InvalidTag"

/-! ## The job -/

/-- What the job leaves when it ends as `completed`. -/
structure Completed where
  archive : Archive
  artifact : Bytes
  artifact_sha256 : String

/-- `_run_backup`, from the dump that `pg_dump` has left: any exception fails the job. -/
def _run_backup (key : Bytes) (nonce : Nonce) (dump : Bytes)
    (backupId companyId createdAt : String) : Except String Completed := do
  Raise.require (dump ≠ []) "PostgreSQL 백업 파일이 생성되지 않았습니다."
  let archive ← create_archive t live turns dump backupId companyId createdAt
  let artifact := encrypt t key nonce archive.bytes
  pure ⟨archive, artifact, t.sha256 artifact⟩

end moaworks.backup_artifact
