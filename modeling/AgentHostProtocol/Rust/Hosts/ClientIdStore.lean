import AgentHostProtocol.Library.FileSystem
import AgentHostProtocol.Library.PrefixCode
import Mathlib.Data.Nat.Notation

/-!
# The client ids of the Rust multi-host client in files

`FileClientIdStore`: one file for each host id in a directory, written under a temporary name
and renamed. The calls of a store hold its mutex, so a run of the store is a list of calls.
What the operating system refuses in a call is an input of the call.

* `host_ids_kept_apart` — the names of the files tell the host ids apart, and each load reads
  the client id that the last successful store of its host wrote.

A file under a host's name never has another writer: temporary names end otherwise.
-/

namespace AgentHostProtocol.Rust.Hosts

open Library

/-! ### The names of the files -/

/-- `b'A'..=b'Z' | b'a'..=b'z' | b'0'..=b'9' | b'-' | b'.' | b'_' | b'~'`. -/
def isUnreserved (byte : UInt8) : Bool :=
  ('A'.toUInt8 ≤ byte && byte ≤ 'Z'.toUInt8) || ('a'.toUInt8 ≤ byte && byte ≤ 'z'.toUInt8) ||
    ('0'.toUInt8 ≤ byte && byte ≤ '9'.toUInt8) || byte == '-'.toUInt8 || byte == '.'.toUInt8 ||
    byte == '_'.toUInt8 || byte == '~'.toUInt8

/-- A digit of `{:X}`. -/
def hexDigit (n : ℕ) : Char := if n < 10 then Char.ofNat (48 + n) else Char.ofNat (55 + n)

/-- `%{:02X}`. -/
def percentEncoded (byte : UInt8) : String :=
  String.ofList ['%', hexDigit (byte.toNat / 16), hexDigit (byte.toNat % 16)]

/-- `encode_host_id`. -/
def encodeHostId (id : String) : String :=
  id.toByteArray.data.toList.foldl
    (fun out byte =>
      if isUnreserved byte then out.push (Char.ofUInt8 byte) else out ++ percentEncoded byte) ""

/-- What `encode_host_id` writes for a byte. -/
def encodedByte (byte : UInt8) : List Char :=
  if isUnreserved byte then [Char.ofUInt8 byte] else (percentEncoded byte).toList

theorem toList_percentEncoded (byte : UInt8) :
    (percentEncoded byte).toList = ['%', hexDigit (byte.toNat / 16), hexDigit (byte.toNat % 16)] := by
  simp [percentEncoded]

private theorem toList_encoded_from (bytes : List UInt8) (out : String) :
    (bytes.foldl (fun out byte =>
      if isUnreserved byte then out.push (Char.ofUInt8 byte) else out ++ percentEncoded byte)
      out).toList = out.toList ++ bytes.flatMap encodedByte := by
  induction bytes generalizing out with
  | nil => simp
  | cons byte bytes ih =>
    rw [List.foldl_cons, ih, List.flatMap_cons, ← List.append_assoc]
    congr 1
    unfold encodedByte
    split
    · rw [String.toList_push]
    · rw [String.toList_append]

/-- Each byte is written by itself. -/
theorem toList_encodeHostId (id : String) :
    (encodeHostId id).toList = id.toByteArray.data.toList.flatMap encodedByte := by
  unfold encodeHostId
  rw [toList_encoded_from]
  simp

theorem hexDigit_inj : ∀ n < 16, ∀ m < 16, hexDigit n = hexDigit m → n = m := by
  decide

theorem ofUInt8_inj {a b : UInt8} (h : Char.ofUInt8 a = Char.ofUInt8 b) : a = b := by
  have hval : a.toUInt32 = b.toUInt32 := congrArg Char.val h
  have hnat : a.toUInt32.toNat = b.toUInt32.toNat := congrArg UInt32.toNat hval
  rw [UInt8.toNat_toUInt32, UInt8.toNat_toUInt32] at hnat
  exact UInt8.toNat_inj.mp hnat

/-- A byte that passes through is not written like one that the code adds. -/
theorem ofUInt8_ne {byte other : UInt8} (h : isUnreserved byte) (hother : isUnreserved other = false) :
    Char.ofUInt8 byte ≠ Char.ofUInt8 other := by
  intro heq
  rw [ofUInt8_inj heq, hother] at h
  cases h

/-- The first characters of an encoded id tell its first byte. -/
theorem encodedByte_prefixCode : PrefixCode encodedByte where
  ne_nil byte := by
    unfold encodedByte
    split
    · exact List.cons_ne_nil _ _
    · rw [toList_percentEncoded]
      exact List.cons_ne_nil _ _
  letter := by
    intro a b s t h
    unfold encodedByte at h
    split at h
    · next ha =>
      split at h
      · exact ofUInt8_inj (List.cons.inj h).1
      · rw [toList_percentEncoded] at h
        exact absurd (List.cons.inj h).1 (ofUInt8_ne ha (show isUnreserved '%'.toUInt8 = false by decide))
    · split at h
      · next hb =>
        rw [toList_percentEncoded] at h
        exact absurd (List.cons.inj h).1.symm (ofUInt8_ne hb (show isUnreserved '%'.toUInt8 = false by decide))
      · rw [toList_percentEncoded, toList_percentEncoded] at h
        obtain ⟨-, h⟩ := List.cons.inj h
        obtain ⟨hhigh, h⟩ := List.cons.inj h
        have ha : a.toNat < 256 := a.toNat_lt
        have hb : b.toNat < 256 := b.toNat_lt
        have hhigh := hexDigit_inj _ (by omega) _ (by omega) hhigh
        have hlow := hexDigit_inj _ (by omega) _ (by omega) (List.cons.inj h).1
        exact UInt8.toNat_inj.mp (by omega)

/-- Two host ids with the same encoding are the same. -/
theorem encodeHostId_inj {id id' : String} : encodeHostId id = encodeHostId id' ↔ id = id' := by
  refine ⟨fun h => ?_, fun h => congrArg encodeHostId h⟩
  have hlist := congrArg String.toList h
  rw [toList_encodeHostId, toList_encodeHostId] at hlist
  have hbytes := encodedByte_prefixCode.flatMap_injective hlist
  exact String.toByteArray_inj.mp (ByteArray.ext (Array.toList_inj.mp hbytes))

/-- `std::path::is_separator` on any platform. -/
def isSeparator (c : Char) : Bool := c = '/' || c = '\\'

theorem hexDigit_not_separator : ∀ n < 16, isSeparator (hexDigit n) = false := by
  decide

/-- An encoded host id is one part of a path. -/
theorem encodeHostId_no_separator {id : String} {c : Char} (h : c ∈ (encodeHostId id).toList) :
    isSeparator c = false := by
  rw [toList_encodeHostId, List.mem_flatMap] at h
  obtain ⟨byte, -, hc⟩ := h
  unfold encodedByte at hc
  split at hc
  · next hbyte =>
    rw [List.mem_singleton] at hc
    have hslash : c ≠ '/' := by
      rw [hc]
      exact ofUInt8_ne hbyte (show isUnreserved '/'.toUInt8 = false by decide)
    have hback : c ≠ '\\' := by
      rw [hc]
      exact ofUInt8_ne hbyte (show isUnreserved '\\'.toUInt8 = false by decide)
    simp [isSeparator, hslash, hback]
  · rw [toList_percentEncoded] at hc
    have hbyte : byte.toNat < 256 := byte.toNat_lt
    simp only [List.mem_cons, List.not_mem_nil, or_false] at hc
    rcases hc with rfl | rfl | rfl
    · decide
    · exact hexDigit_not_separator _ (by omega)
    · exact hexDigit_not_separator _ (by omega)

/-! ### The calls of a store -/

/-- `std::io::Error`: what the operating system reports, or an error with a text of its own. -/
inductive IoError where
  | os (kind : ErrorKind)
  | custom (kind : ErrorKind) (message : String)
  deriving DecidableEq

/-- `Error::kind`. -/
def IoError.kind : IoError → ErrorKind
  | .os kind => kind
  | .custom kind _ => kind

/-- What the operating system refuses in a call although the files would allow it. -/
structure Faults where
  /-- The runtime drops the blocking task before it starts. -/
  join : Option String
  metadata : Option IoError
  createDirAll : Option IoError
  /-- By the tries that are left. -/
  createNew : ℕ → Option IoError
  /-- With what was written before. -/
  write : Option (ByteArray × IoError)
  rename : Option IoError
  removeFile : Option IoError
  /-- A file that exists is not reported missing. -/
  read : Option {err : IoError // err.kind ≠ .notFound}

/-- Nothing is refused. -/
def Faults.clean : Faults := ⟨none, none, none, fun _ => none, none, none, none, none⟩

/-- A call to the operating system. -/
def systemCall {α : Type} (fault : Option IoError) (result : Except ErrorKind α) : Except IoError α :=
  match fault with
  | some err => .error err
  | none => result.mapError IoError.os

/-- The files, and what the process names its temporary files by. -/
structure World where
  fs : FileSystem
  pid : UInt32
  /-- `COUNTER`. -/
  counter : UInt64

/-- `ensure_directory`. -/
def ensureDirectory (dir : Path) (faults : Faults) (fs : FileSystem) :
    FileSystem × Except IoError Unit :=
  match systemCall faults.metadata (fs.metadata dir) with
  | .ok .directory => (fs, .ok ())
  | .ok (.file _) =>
    (fs, .error (.custom .invalidInput
      ("client id store path " ++ dir.display ++ " exists but is not a directory")))
  | .error err =>
    if err.kind = .notFound then
      match systemCall faults.createDirAll (fs.createDirAll dir) with
      | .ok fs' => (fs', .ok ())
      | .error err => (fs, .error err)
    else
      (fs, .error err)

/-- `let _ = remove_file(temp_path)`. -/
def discard (faults : Faults) (tempPath : Path) (fs : FileSystem) : FileSystem :=
  match faults.removeFile with
  | some _ => fs
  | none => fs.remove tempPath

/-- What `atomic_write` does with a temporary file that it has opened. -/
def writeAndRename (faults : Faults) (tempPath finalPath : Path) (content : ByteArray)
    (fs : FileSystem) : FileSystem × Except IoError Unit :=
  match faults.write with
  | some (written, err) => (discard faults tempPath (fs.write tempPath written), .error err)
  | none =>
    let fs := fs.write tempPath content
    match systemCall faults.rename (fs.rename tempPath finalPath) with
    | .ok fs' => (fs', .ok ())
    | .error err => (discard faults tempPath fs, .error err)

/-- `format!(".{file_name}.{pid}.{counter}.tmp")`. -/
def tempName (fileName : String) (pid : UInt32) (counter : UInt64) : String :=
  "." ++ fileName ++ "." ++ toString pid.toNat ++ "." ++ toString counter.toNat ++ ".tmp"

def maxTempRetries : ℕ := 8

/-- The loop of `atomic_write` with the tries that are left. -/
def tryTempNames (faults : Faults) (parent : Path) (fileName : String) (finalPath : Path)
    (content : ByteArray) : ℕ → Option IoError → World → World × Except IoError Unit
  | 0, lastErr, w =>
    (w, .error (lastErr.getD (.custom .alreadyExists
      "exhausted temp-file candidates while atomically writing client id")))
  | tries + 1, _, w =>
    let tempPath := parent.join (tempName fileName w.pid w.counter)
    let w := { w with counter := w.counter + 1 }
    match systemCall (faults.createNew tries) (w.fs.createNew tempPath) with
    | .ok fs =>
      let (fs, result) := writeAndRename faults tempPath finalPath content fs
      ({ w with fs }, result)
    | .error err =>
      if err.kind = .alreadyExists then
        tryTempNames faults parent fileName finalPath content tries (some err) w
      else
        (w, .error err)

/-- `atomic_write`. -/
def atomicWrite (faults : Faults) (finalPath : Path) (content : ByteArray) (w : World) :
    World × Except IoError Unit :=
  match finalPath.parent, finalPath.fileName with
  | none, _ => (w, .error (.custom .invalidInput "store path has no parent"))
  | some _, none => (w, .error (.custom .invalidInput "store path is not utf-8"))
  | some parent, some fileName =>
    tryTempNames faults parent fileName finalPath content maxTempRetries none w

structure FileClientIdStore where
  directory : Path
  deriving DecidableEq

namespace FileClientIdStore

/-- `file_path`. -/
def filePath (store : FileClientIdStore) (hostId : String) : Path :=
  store.directory.join (encodeHostId hostId ++ ".clientid")

/-- `read_to_string`. -/
def readToString (faults : Faults) (path : Path) (fs : FileSystem) : Except IoError String :=
  match systemCall (faults.read.map Subtype.val) (fs.read path) with
  | .ok contents =>
    match String.fromUTF8? contents with
    | some text => .ok text
    | none => .error (.custom .invalidData "stream did not contain valid UTF-8")
  | .error err => .error err

/-- `load`. -/
def load (store : FileClientIdStore) (hostId : String) (faults : Faults) (w : World) :
    Except IoError (Option String) :=
  match faults.join with
  | some joinErr => .error (.custom .other ("client id store load join error: " ++ joinErr))
  | none =>
    match readToString faults (store.filePath hostId) w.fs with
    | .ok contents => if contents.isEmpty then .ok none else .ok (some contents)
    | .error err => if err.kind = .notFound then .ok none else .error err

/-- `store`. -/
def store (store : FileClientIdStore) (hostId clientId : String) (faults : Faults) (w : World) :
    World × Except IoError Unit :=
  match faults.join with
  | some joinErr => (w, .error (.custom .other ("client id store store join error: " ++ joinErr)))
  | none =>
    match ensureDirectory store.directory faults w.fs with
    | (fs, .ok ()) => atomicWrite faults (store.filePath hostId) clientId.toByteArray { w with fs }
    | (fs, .error err) => ({ w with fs }, .error err)

/-- A call of the store. -/
inductive Call where
  | load (hostId : String)
  | store (hostId clientId : String)
  deriving DecidableEq

/-- What a call returns. -/
inductive Outcome where
  | loaded (result : Except IoError (Option String))
  | stored (result : Except IoError Unit)

/-- One call, with what is refused in it. -/
def call (store : FileClientIdStore) (w : World) (faults : Faults) : Call → World × Outcome
  | .load hostId => (w, .loaded (store.load hostId faults w))
  | .store hostId clientId =>
    let (w', result) := store.store hostId clientId faults w
    (w', .stored result)

/-- The calls one after the other, with a log of what they returned. -/
def run (store : FileClientIdStore) (w : World) (calls : List (Call × Faults)) :
    World × List (Call × Outcome) :=
  calls.foldl
    (fun s c => let (w', outcome) := store.call s.1 c.2 c.1; (w', s.2 ++ [(c.1, outcome)])) (w, [])

/-- What a successful store of the host wrote. -/
def storedFor (hostId : String) : Call × Outcome → Option String
  | (.store id clientId, .stored (.ok ())) => if id = hostId then some clientId else none
  | _ => none

/-- The client id of the last successful store of the host. -/
def lastStored (hostId : String) (log : List (Call × Outcome)) : Option String :=
  (log.filterMap (storedFor hostId)).getLast?

/-! ### The names in the directory -/

theorem encodeHostId_no_slash (id : String) : '/' ∉ (encodeHostId id).toList := by
  intro h
  have hsep := encodeHostId_no_separator h
  simp [isSeparator] at hsep

/-- The name of a host's file. -/
theorem plain_fileName (hostId : String) : Path.Plain (encodeHostId hostId ++ ".clientid") := by
  refine Path.Plain.of_length ?_ ?_
  · rw [String.toList_append, List.length_append]
    simp
  · rw [String.toList_append, List.mem_append]
    rintro (h | h)
    · exact encodeHostId_no_slash hostId h
    · simp at h

theorem no_slash_toDigits (n : ℕ) : '/' ∉ Nat.toDigits 10 n := by
  intro h
  have hdigit := Nat.isDigit_of_mem_toDigits (by decide) (by decide) h
  simp at hdigit

theorem plain_tempName {fileName : String} (h : '/' ∉ fileName.toList) (pid : UInt32)
    (counter : UInt64) : Path.Plain (tempName fileName pid counter) := by
  have hpid := no_slash_toDigits pid.toNat
  have hcounter := no_slash_toDigits counter.toNat
  refine Path.Plain.of_length ?_ ?_
  · simp [tempName]
    omega
  · simp [tempName, h, hpid, hcounter]

/-- A temporary name ends otherwise than the name of a host's file. -/
theorem tempName_ne (fileName : String) (pid : UInt32) (counter : UInt64) (hostId : String) :
    tempName fileName pid counter ≠ encodeHostId hostId ++ ".clientid" := by
  intro h
  have hlast := congrArg (fun name => name.toList.getLast?) h
  unfold tempName at hlast
  simp only [String.toList_append, List.getLast?_append] at hlast
  simp at hlast

/-- The path of a temporary file of the store. -/
def IsTemp (store : FileClientIdStore) (p : Path) : Prop :=
  ∃ fileName pid counter, '/' ∉ fileName.toList ∧ p = store.directory.join (tempName fileName pid counter)

/-! ### The store as a map from host ids to client ids -/

/-- The files hold the client ids of `ids`, and the path to them leads through directories. -/
structure Represents (store : FileClientIdStore) (fs : FileSystem) (ids : String → Option String) :
    Prop where
  clear : fs.Clear store.directory
  files : ∀ hostId, fs (store.filePath hostId) =
    (ids hostId).map fun clientId => .file clientId.toByteArray

/-- The client ids after a store with this result. -/
def stored (ids : String → Option String) (hostId clientId : String) :
    Except IoError Unit → String → Option String
  | .ok () => Function.update ids hostId (some clientId)
  | .error _ => ids

@[simp] theorem stored_ok (ids : String → Option String) (hostId clientId : String) (u : Unit) :
    stored ids hostId clientId (.ok u) = Function.update ids hostId (some clientId) := rfl

@[simp] theorem stored_error (ids : String → Option String) (hostId clientId : String) (err : IoError) :
    stored ids hostId clientId (.error err) = ids := rfl

variable {store : FileClientIdStore} {fs fs' : FileSystem} {ids : String → Option String}

theorem filePath_inj {hostId hostId' : String} :
    store.filePath hostId = store.filePath hostId' ↔ hostId = hostId' := by
  unfold filePath
  rw [Path.join_inj (plain_fileName hostId) (plain_fileName hostId'), String.append_left_inj,
    encodeHostId_inj]

theorem IsTemp.not_onTheWay {p : Path} (h : store.IsTemp p) : ¬ p.OnTheWay store.directory := by
  obtain ⟨fileName, pid, counter, hslash, rfl⟩ := h
  exact Path.not_onTheWay_join (plain_tempName hslash pid counter) _

theorem IsTemp.ne_filePath {p : Path} (h : store.IsTemp p) (hostId : String) :
    store.filePath hostId ≠ p := by
  obtain ⟨fileName, pid, counter, hslash, rfl⟩ := h
  intro heq
  exact tempName_ne fileName pid counter hostId
    ((Path.join_inj (plain_fileName hostId) (plain_tempName hslash pid counter)).mp heq).symm

namespace Represents

/-- A temporary file is none of the files that are read. -/
theorem put_temp (h : Represents store fs ids) {p : Path} (hp : store.IsTemp p) (node : Option Node) :
    Represents store (fs.put p node) ids where
  clear := h.clear.put hp.not_onTheWay node
  files hostId := by
    rw [FileSystem.put_of_ne fs (hp.ne_filePath hostId)]
    exact h.files hostId

/-- The file of a host is read for this host only. -/
theorem put_filePath (h : Represents store fs ids) (hostId clientId : String) :
    Represents store (fs.put (store.filePath hostId) (some (.file clientId.toByteArray)))
      (Function.update ids hostId (some clientId)) where
  clear := h.clear.put (Path.not_onTheWay_join (plain_fileName hostId) _) _
  files other := by
    by_cases hother : other = hostId
    · subst hother
      rw [FileSystem.put_self, Function.update_self, Option.map_some]
    · have hne : store.filePath other ≠ store.filePath hostId := fun heq => hother (filePath_inj.mp heq)
      rw [FileSystem.put_of_ne fs hne, Function.update_of_ne hother]
      exact h.files other

theorem createDirAll (h : Represents store fs ids) (hok : fs.createDirAll store.directory = .ok fs') :
    Represents store fs' ids where
  clear := h.clear.createDirAll hok
  files hostId := by
    have hway : ¬ (store.filePath hostId).OnTheWay store.directory :=
      Path.not_onTheWay_join (plain_fileName hostId) _
    rw [FileSystem.createDirAll_of_not_onTheWay hok hway]
    exact h.files hostId

end Represents

/-- What the system call returns it returns without a fault. -/
theorem systemCall_eq_ok {α : Type} {fault : Option IoError} {result : Except ErrorKind α} {a : α}
    (h : systemCall fault result = .ok a) : result = .ok a := by
  unfold systemCall at h
  split at h
  · cases h
  · cases result with
    | ok b => exact congrArg Except.ok (Except.ok.inj h)
    | error kind => cases h

theorem ensureDirectory_represents (h : Represents store fs ids) (faults : Faults) :
    Represents store (ensureDirectory store.directory faults fs).1 ids := by
  unfold ensureDirectory
  split
  · exact h
  · exact h
  · split
    · split
      · next hok => exact h.createDirAll (systemCall_eq_ok hok)
      · exact h
    · exact h

theorem discard_represents (h : Represents store fs ids) (faults : Faults) {tempPath : Path}
    (htemp : store.IsTemp tempPath) : Represents store (discard faults tempPath fs) ids := by
  unfold discard
  split
  · exact h
  · exact h.put_temp htemp none

/-- The rename alone changes what is read, and only where it succeeds. -/
theorem writeAndRename_represents (h : Represents store fs ids) (faults : Faults) {tempPath : Path}
    (htemp : store.IsTemp tempPath) (hostId clientId : String) :
    Represents store
      (writeAndRename faults tempPath (store.filePath hostId) clientId.toByteArray fs).1
      (stored ids hostId clientId
        (writeAndRename faults tempPath (store.filePath hostId) clientId.toByteArray fs).2) := by
  unfold writeAndRename
  split
  · exact discard_represents (h.put_temp htemp _) faults htemp
  · have hwritten := h.put_temp htemp (some (.file clientId.toByteArray))
    dsimp only
    split
    · next hok =>
      rw [FileSystem.rename_eq_ok (FileSystem.put_self _ _ _) (systemCall_eq_ok hok)]
      exact (hwritten.put_temp htemp none).put_filePath hostId clientId
    · exact discard_represents hwritten faults htemp

theorem tryTempNames_represents {w : World} (h : Represents store w.fs ids) (faults : Faults)
    (hostId clientId : String) {fileName : String} (hslash : '/' ∉ fileName.toList) (tries : ℕ)
    (lastErr : Option IoError) :
    Represents store
      (tryTempNames faults store.directory fileName (store.filePath hostId) clientId.toByteArray tries
        lastErr w).1.fs
      (stored ids hostId clientId
        (tryTempNames faults store.directory fileName (store.filePath hostId) clientId.toByteArray tries
          lastErr w).2) := by
  induction tries generalizing w lastErr with
  | zero => exact h
  | succ tries ih =>
    have htemp : store.IsTemp (store.directory.join (tempName fileName w.pid w.counter)) :=
      ⟨fileName, w.pid, w.counter, hslash, rfl⟩
    unfold tryTempNames
    dsimp only
    split
    · next hok =>
      rw [FileSystem.createNew_eq_ok (systemCall_eq_ok hok)]
      exact writeAndRename_represents (h.put_temp htemp _) faults htemp hostId clientId
    · split
      · exact @ih { w with counter := w.counter + 1 } h _
      · exact h

theorem atomicWrite_represents {w : World} (h : Represents store w.fs ids) (faults : Faults)
    (hostId clientId : String) :
    Represents store (atomicWrite faults (store.filePath hostId) clientId.toByteArray w).1.fs
      (stored ids hostId clientId
        (atomicWrite faults (store.filePath hostId) clientId.toByteArray w).2) := by
  have hplain := plain_fileName hostId
  have hparent : (store.filePath hostId).parent = some store.directory := Path.parent_join hplain _
  have hname : (store.filePath hostId).fileName = some (encodeHostId hostId ++ ".clientid") :=
    Path.fileName_join hplain _
  unfold atomicWrite
  rw [hparent, hname]
  exact tryTempNames_represents h faults hostId clientId hplain.no_separator _ _

/-- A store writes the client id of its host if it succeeds, and changes no other. -/
theorem store_represents {w : World} (h : Represents store w.fs ids) (hostId clientId : String)
    (faults : Faults) :
    Represents store (store.store hostId clientId faults w).1.fs
      (stored ids hostId clientId (store.store hostId clientId faults w).2) := by
  have hdir := ensureDirectory_represents h faults
  unfold FileClientIdStore.store
  split
  · exact h
  · split
    · next fs' hok =>
      rw [hok] at hdir
      exact atomicWrite_represents hdir faults hostId clientId
    · next fs' err herr =>
      rw [herr] at hdir
      exact hdir

/-- What the operating system refuses of a load. -/
def loadRefused (faults : Faults) : Option IoError :=
  match faults.join with
  | some joinErr => some (.custom .other ("client id store load join error: " ++ joinErr))
  | none => faults.read.map Subtype.val

theorem fromUTF8?_toByteArray (text : String) : String.fromUTF8? text.toByteArray = some text := by
  unfold String.fromUTF8?
  rw [dif_pos text.isValidUTF8]
  rfl

/-- Reading a file that was written gives its text, and one that was not is missing. -/
theorem readToString_represents (h : Represents store fs ids) {faults : Faults} (hread : faults.read = none)
    (hostId : String) :
    readToString faults (store.filePath hostId) fs =
      (ids hostId).elim (.error (.os .notFound)) Except.ok := by
  have hfile := h.files hostId
  have habsence : fs.absence (store.filePath hostId) = .notFound :=
    h.clear.absence_join (plain_fileName hostId)
  unfold readToString systemCall FileSystem.read
  rw [hread, hfile]
  cases ids hostId with
  | none =>
    simp only [Option.map_none, habsence]
    rfl
  | some clientId =>
    simp only [Option.map_some, Option.map_none, Except.mapError, fromUTF8?_toByteArray]
    rfl

/-- A load that is not refused returns what the map holds. -/
theorem load_represents {w : World} (h : Represents store w.fs ids)
    (hids : ∀ {hostId clientId}, ids hostId = some clientId → clientId ≠ "") (hostId : String)
    (faults : Faults) :
    store.load hostId faults w = (loadRefused faults).elim (.ok (ids hostId)) Except.error := by
  unfold load loadRefused
  cases hjoin : faults.join with
  | some joinErr => rfl
  | none =>
    dsimp only
    cases hread : faults.read with
    | some refusal =>
      obtain ⟨err, hkind⟩ := refusal
      unfold readToString systemCall
      simp [hread, hkind]
    | none =>
      rw [readToString_represents h hread]
      cases hvalue : ids hostId with
      | none => rfl
      | some clientId =>
        have hne := hids hvalue
        simp [String.isEmpty_iff, hne]

/-! ### Runs of a store -/

theorem lastStored_concat (hostId : String) (log : List (Call × Outcome)) (e : Call × Outcome) :
    lastStored hostId (log ++ [e]) = (storedFor hostId e).or (lastStored hostId log) := by
  unfold lastStored
  rw [List.filterMap_append, List.getLast?_append]
  cases h : storedFor hostId e <;> simp [h]

/-- The client ids that a log holds. -/
def held (log : List (Call × Outcome)) (hostId : String) : Option String := lastStored hostId log

theorem held_concat_store (log : List (Call × Outcome)) (hostId clientId : String)
    (result : Except IoError Unit) :
    held (log ++ [(.store hostId clientId, .stored result)]) = stored (held log) hostId clientId result := by
  funext other
  unfold held
  rw [lastStored_concat]
  cases result with
  | error err => rfl
  | ok _ =>
    by_cases hother : other = hostId
    · subst hother
      simp [storedFor]
    · have hne : hostId ≠ other := fun heq => hother heq.symm
      simp [storedFor, hne, hother, held]

theorem held_concat_load (log : List (Call × Outcome)) (hostId : String)
    (result : Except IoError (Option String)) :
    held (log ++ [(.load hostId, .loaded result)]) = held log := by
  funext other
  unfold held
  rw [lastStored_concat]
  rfl

/-- The client id of a store is not empty. -/
def Call.HasClientId : Call → Prop
  | .load _ => True
  | .store _ clientId => clientId ≠ ""

/-- Before the first store: no host has a file. -/
structure Vacant (store : FileClientIdStore) (fs : FileSystem) : Prop where
  clear : fs.Clear store.directory
  unwritten : ∀ hostId, fs (store.filePath hostId) = none

/-- What is kept along a run: the files hold what the log says was stored last. -/
structure Kept (store : FileClientIdStore) (s : World × List (Call × Outcome)) : Prop where
  represents : Represents store s.1.fs (held s.2)
  ne_empty : ∀ {hostId clientId}, held s.2 hostId = some clientId → clientId ≠ ""

theorem stored_ne_empty {hostId clientId : String} (hne : clientId ≠ "")
    (hids : ∀ {h c}, ids h = some c → c ≠ "") (result : Except IoError Unit) {h c : String}
    (hc : stored ids hostId clientId result h = some c) : c ≠ "" := by
  cases result with
  | error err => exact hids hc
  | ok _ =>
    by_cases hh : h = hostId
    · subst hh
      rw [stored_ok, Function.update_self] at hc
      cases hc
      exact hne
    · rw [stored_ok, Function.update_of_ne hh] at hc
      exact hids hc

theorem Kept.of_held {w : World} {log : List (Call × Outcome)} (hheld : held log = ids)
    (h : Represents store w.fs ids) (hids : ∀ {h c}, ids h = some c → c ≠ "") : Kept store (w, log) := by
  subst hheld
  exact ⟨h, hids⟩

/-- One call keeps it. -/
theorem Kept.call {w : World} {log : List (Call × Outcome)} (h : Kept store (w, log)) {c : Call}
    (hc : c.HasClientId) (faults : Faults) :
    Kept store ((store.call w faults c).1, log ++ [(c, (store.call w faults c).2)]) := by
  cases c with
  | load hostId => exact .of_held (held_concat_load log hostId _) h.represents h.ne_empty
  | store hostId clientId =>
    have hwritten := store_represents h.represents hostId clientId faults
    exact .of_held (held_concat_store log hostId clientId _) hwritten
      (stored_ne_empty hc h.ne_empty _)

theorem Vacant.kept {w : World} (h : Vacant store w.fs) : Kept store (w, []) where
  represents := ⟨h.clear, h.unwritten⟩
  ne_empty := by
    intro hostId clientId hheld
    cases hheld

/-- A run keeps it. -/
theorem kept_run {w : World} (h : Vacant store w.fs) {calls : List (Call × Faults)}
    (hcalls : ∀ c ∈ calls, c.1.HasClientId) : Kept store (store.run w calls) := by
  unfold run
  refine List.foldlRecOn calls _ h.kept ?_
  intro s hs c hc
  exact hs.call (hcalls c hc) c.2

/-- The names of the files tell the host ids apart and are no paths. Each load, unless it is
refused, returns the client id of the last successful store of its host. -/
theorem host_ids_kept_apart :
    Function.Injective encodeHostId ∧
    (∀ hostId, ∀ c ∈ (encodeHostId hostId).toList, isSeparator c = false) ∧
    ∀ (store : FileClientIdStore) (w : World), Vacant store w.fs →
      ∀ calls : List (Call × Faults), (∀ c ∈ calls, c.1.HasClientId) →
        ∀ (hostId : String) (faults : Faults),
          store.load hostId faults (store.run w calls).1 =
            (loadRefused faults).elim (.ok (lastStored hostId (store.run w calls).2)) Except.error := by
  refine ⟨fun _ _ => encodeHostId_inj.mp, fun _ _ => encodeHostId_no_separator, ?_⟩
  intro store w hvacant calls hcalls hostId faults
  have hkept := kept_run hvacant hcalls
  exact load_represents hkept.represents hkept.ne_empty hostId faults

/-- Ids of which one is the other's encoding, and a store that fails in the rename. -/
def lookalikes : List (Call × Faults) :=
  [(.store "a/b" "x", .clean), (.store "a%2Fb" "y", .clean),
    (.store "a/b" "z", { Faults.clean with rename := some (.os .other) })]

theorem host_ids_kept_apart_lookalikes :
    let store : FileClientIdStore := ⟨⟨true, ["client-ids"]⟩⟩
    let w := (store.run ⟨fun _ => none, 7, 0⟩ lookalikes).1
    store.load "a/b" .clean w = .ok (some "x") ∧ store.load "a%2Fb" .clean w = .ok (some "y") ∧
      store.load "a" .clean w = .ok none := by
  have hvacant : Vacant ⟨⟨true, ["client-ids"]⟩⟩ (fun _ => none) := ⟨fun _ _ => rfl, fun _ => rfl⟩
  have hcalls : ∀ c ∈ lookalikes, c.1.HasClientId := by
    simp [lookalikes, Call.HasClientId]
  have hload := host_ids_kept_apart.2.2 ⟨⟨true, ["client-ids"]⟩⟩ ⟨fun _ => none, 7, 0⟩ hvacant
    lookalikes hcalls
  exact ⟨hload "a/b" .clean, hload "a%2Fb" .clean, hload "a" .clean⟩

end FileClientIdStore

end AgentHostProtocol.Rust.Hosts
