import PqcLedger.Cli.MakeTx

/-!
# Key files

The loaders and savers of `crypto/pq.cpp` and `crypto/classical.cpp` on a file
system that is a parameter. An opened file is read to its end, or for 32 bytes
where an Ed25519 key is expected; a file opened for writing is replaced.
-/

namespace PqcLedger.Cli

open PqcLedger.Cxx PqcLedger.Crypto

/-- What lies on the disk, what a path reads and what a write leaves; `none` where
the stream does not open. The savers do not look at the stream after they have
written, so a write that opened may leave anything behind. -/
structure FileSystem where
  Disk : Type
  read : Disk → Text → Option Bytes
  write : Disk → Text → Bytes → Option Disk

/-- The paths name two files. -/
def FileSystem.Apart (fs : FileSystem) (left right : Text) : Prop :=
  ∀ disk bytes after, fs.write disk left bytes = some after →
    fs.read after right = fs.read disk right

/-- A write that opened its file is read back. -/
def FileSystem.Reliable (fs : FileSystem) : Prop :=
  ∀ disk path bytes after, fs.write disk path bytes = some after → fs.read after path = some bytes

/-- Two files opened one after the other hold what was written to them. -/
theorem FileSystem.Reliable.pair_read {fs : FileSystem} (reliable : fs.Reliable)
    {left right : Text} (apart : fs.Apart right left) {disk middle after : fs.Disk}
    {first second : Bytes} (leftOpened : fs.write disk left first = some middle)
    (rightOpened : fs.write middle right second = some after) :
    fs.read after left = some first ∧ fs.read after right = some second := by
  refine ⟨?_, reliable _ _ _ _ rightOpened⟩
  rw [apart _ _ _ rightOpened, reliable _ _ _ _ leftOpened]

/-- `load_private_key` has the body of `load_public_key`. -/
def loadPrivateKey (files : Files) (path : Text) : Result Bytes := loadPublicKey files path

/-- The savers, which are one function under two names. They report only a stream that
does not open. -/
def saveKey (fs : FileSystem) (disk : fs.Disk) (key : Bytes) (path : Text) :
    Result Unit × fs.Disk :=
  match fs.write disk path key with
  | none => (.err ⟨.FileWriteError, "Cannot open file for writing: " ++ path.message⟩, disk)
  | some after => (.ok (), after)

/-- Save a public key. -/
def savePublicKey (fs : FileSystem) (disk : fs.Disk) (pubkey : PublicKey) (path : Text) :
    Result Unit × fs.Disk :=
  saveKey fs disk pubkey path

/-- Save a private key. -/
def savePrivateKey (fs : FileSystem) (disk : fs.Disk) (privkey : Bytes) (path : Text) :
    Result Unit × fs.Disk :=
  saveKey fs disk privkey path

/-- The Ed25519 loaders read 32 bytes and ignore what follows them. -/
def loadEd25519Key (wrongSize : String) (openssl : Option OpenSsl) (files : Files) (path : Text) :
    Result Bytes :=
  match openssl with
  | none => .err ⟨.FileReadError, opensslMissing⟩
  | some _ =>
      match files path with
      | none => .err ⟨.FileReadError, "Cannot open file: " ++ path.message⟩
      | some contents =>
          if (contents.take 32).length ≠ 32 then .err ⟨.InvalidPublicKey, wrongSize⟩
          else .ok (contents.take 32)

/-- Load an Ed25519 public key. -/
def loadEd25519PublicKey (openssl : Option OpenSsl) (files : Files) (path : Text) :
    Result PublicKey :=
  loadEd25519Key "Invalid Ed25519 public key size" openssl files path

/-- Load an Ed25519 private key. -/
def loadEd25519PrivateKey (openssl : Option OpenSsl) (files : Files) (path : Text) :
    Result Bytes :=
  loadEd25519Key "Invalid Ed25519 private key size" openssl files path

/-- The Ed25519 savers refuse a key of another size before they open a file. -/
def saveEd25519Key (wrongSize : String) (openssl : Option OpenSsl) (fs : FileSystem)
    (disk : fs.Disk) (key : Bytes) (path : Text) : Result Unit × fs.Disk :=
  match openssl with
  | none => (.err ⟨.FileWriteError, opensslMissing⟩, disk)
  | some _ =>
      if key.length ≠ 32 then (.err ⟨.InvalidPublicKey, wrongSize⟩, disk)
      else saveKey fs disk key path

/-- Save an Ed25519 public key. -/
def saveEd25519PublicKey (openssl : Option OpenSsl) (fs : FileSystem) (disk : fs.Disk)
    (pubkey : PublicKey) (path : Text) : Result Unit × fs.Disk :=
  saveEd25519Key "Invalid Ed25519 public key size" openssl fs disk pubkey path

/-- Save an Ed25519 private key. -/
def saveEd25519PrivateKey (openssl : Option OpenSsl) (fs : FileSystem) (disk : fs.Disk)
    (privkey : Bytes) (path : Text) : Result Unit × fs.Disk :=
  saveEd25519Key "Invalid Ed25519 private key size" openssl fs disk privkey path

theorem loadPublicKey_ok_iff {files : Files} {path : Text} {key : Bytes} :
    loadPublicKey files path = .ok key ↔ files path = some key := by
  rw [loadPublicKey]
  cases files path <;> simp

/-! ## In memory -/

/-- A file system in memory, on which every stream opens. -/
def memoryFs : FileSystem where
  Disk := Text → Option Bytes
  read := fun disk path => disk path
  write := fun disk path bytes => some fun other => if other = path then some bytes else disk other

theorem memoryFs_reliable : memoryFs.Reliable := by
  intro disk path bytes after written
  cases written
  exact if_pos rfl

theorem memoryFs_apart {left right : Text} (different : left ≠ right) :
    memoryFs.Apart left right := by
  intro disk bytes after written
  cases written
  exact if_neg different.symm

end PqcLedger.Cli
