import Mathlib.Data.List.Infix
import Mathlib.Logic.Function.Basic

/-!
# A file system

A map from paths to files and directories, and the calls a program makes on it. A path is the
list of its parts; two paths are the same file when they are the same list, letter by letter.

* `join_of_plain` — a name without separators is one more part of the path.
* `Clear.put`, `Clear.createDirAll` — a path to a directory stays free of files while only files in
  the directory are written.

Links, permissions and the renaming of directories are left out.
-/

namespace AgentHostProtocol.Library

/-- Why a call failed. -/
inductive ErrorKind where
  | notFound
  | alreadyExists
  | notADirectory
  | isADirectory
  | invalidInput
  | invalidData
  | other
  deriving DecidableEq

/-- A path with its parts from the root, or from the working directory. -/
structure Path where
  absolute : Bool
  parts : List String
  deriving DecidableEq

namespace Path

/-- The parts that a text names: what stands between the separators, without `.`. -/
def partsOf (name : String) : List String :=
  ((name.toList.splitOn '/').map String.ofList).filter fun part => part ≠ "" ∧ part ≠ "."

/-- The path with `name` behind it; a name that starts at the root replaces it. -/
def join (p : Path) (name : String) : Path :=
  if name.toList.head? = some '/' then ⟨true, partsOf name⟩ else ⟨p.absolute, p.parts ++ partsOf name⟩

/-- The path without its last part. -/
def parent (p : Path) : Option Path :=
  p.parts.getLast?.map fun _ => ⟨p.absolute, p.parts.dropLast⟩

/-- The last part. -/
def fileName (p : Path) : Option String := p.parts.getLast?.filter fun part => part ≠ ".."

/-- How the path is shown. -/
def display (p : Path) : String := (if p.absolute then "/" else "") ++ "/".intercalate p.parts

/-- The directories on the way to `p`. -/
def ancestors (p : Path) : List Path := p.parts.dropLast.inits.map fun parts => ⟨p.absolute, parts⟩

/-- One part of a path, other than the directory itself and its parent. -/
structure Plain (name : String) : Prop where
  ne_empty : name ≠ ""
  ne_dot : name ≠ "."
  ne_dots : name ≠ ".."
  no_separator : '/' ∉ name.toList

/-- A name of three characters or more is neither of the two. -/
theorem Plain.of_length {name : String} (hlen : 3 ≤ name.toList.length) (h : '/' ∉ name.toList) :
    Plain name where
  ne_empty := by
    rintro rfl
    simp at hlen
  ne_dot := by
    rintro rfl
    simp at hlen
  ne_dots := by
    rintro rfl
    simp at hlen
  no_separator := h

theorem partsOf_of_plain {name : String} (h : Plain name) : partsOf name = [name] := by
  unfold partsOf
  rw [List.splitOn_eq_singleton h.no_separator]
  simp [h.ne_empty, h.ne_dot]

/-- A name without separators is one more part of the path. -/
theorem join_of_plain {name : String} (h : Plain name) (p : Path) :
    p.join name = ⟨p.absolute, p.parts ++ [name]⟩ := by
  have hhead : name.toList.head? ≠ some '/' := by
    intro hhead
    exact h.no_separator (List.mem_of_mem_head? hhead)
  unfold join
  rw [if_neg hhead, partsOf_of_plain h]

theorem parent_join {name : String} (h : Plain name) (p : Path) : (p.join name).parent = some p := by
  rw [join_of_plain h]
  simp [parent]

theorem fileName_join {name : String} (h : Plain name) (p : Path) :
    (p.join name).fileName = some name := by
  rw [join_of_plain h]
  simp [fileName, h.ne_dots]

theorem join_inj {name name' : String} (h : Plain name) (h' : Plain name') {p : Path} :
    p.join name = p.join name' ↔ name = name' := by
  rw [join_of_plain h, join_of_plain h']
  simp

/-- `q` is `p` or a directory on the way to it. -/
def OnTheWay (q p : Path) : Prop := q.absolute = p.absolute ∧ q.parts <+: p.parts

/-- The directories on the way to a file in `p` are `p` and those on the way to it. -/
theorem mem_ancestors_join {name : String} (h : Plain name) {p q : Path} :
    q ∈ (p.join name).ancestors ↔ q.OnTheWay p := by
  rw [join_of_plain h]
  obtain ⟨absolute, parts⟩ := q
  simp [ancestors, OnTheWay, eq_comm, and_comm]

theorem onTheWay_of_mem_ancestors {p q : Path} (h : q ∈ p.ancestors) : q.OnTheWay p := by
  obtain ⟨parts, hparts, rfl⟩ := List.mem_map.mp h
  exact ⟨rfl, ((List.mem_inits _ _).mp hparts).trans (List.dropLast_prefix _)⟩

/-- A file in `p` is not on the way to `p`. -/
theorem not_onTheWay_join {name : String} (h : Plain name) (p : Path) : ¬ (p.join name).OnTheWay p := by
  intro hway
  have hlen : (p.join name).parts.length ≤ p.parts.length := hway.2.length_le
  rw [join_of_plain h, List.length_append, List.length_singleton] at hlen
  omega

end Path

/-- What a path is the name of. -/
inductive Node where
  | directory
  | file (contents : ByteArray)

/-- The node is a file. -/
def Node.isFile : Node → Bool
  | .file _ => true
  | .directory => false

/-- What each path is the name of. -/
abbrev FileSystem : Type := Path → Option Node

namespace FileSystem

variable (fs : FileSystem)

/-- The path names a file. -/
def isFile (p : Path) : Bool := (fs p).any Node.isFile

/-- Why a path names nothing. -/
def absence (p : Path) : ErrorKind :=
  if p.ancestors.any fs.isFile then .notADirectory else .notFound

/-- `stat`: what the path names. -/
def metadata (p : Path) : Except ErrorKind Node :=
  match fs p with
  | some node => .ok node
  | none => .error (fs.absence p)

/-- The contents of a file. -/
def read (p : Path) : Except ErrorKind ByteArray :=
  match fs p with
  | some (.file contents) => .ok contents
  | some .directory => .error .isADirectory
  | none => .error (fs.absence p)

/-- The path names `node` from now on. -/
def put (p : Path) (node : Option Node) : FileSystem := Function.update fs p node

/-- The directory and all that are missing on the way to it. -/
def createDirAll (p : Path) : Except ErrorKind FileSystem :=
  if p.ancestors.any fs.isFile then
    .error .notADirectory
  else if fs.isFile p then
    .error .alreadyExists
  else
    .ok fun q => if q = p ∨ q ∈ p.ancestors then some .directory else fs q

/-- `O_CREAT | O_EXCL`: an empty file under a name that is free. -/
def createNew (p : Path) : Except ErrorKind FileSystem :=
  match fs p with
  | some _ => .error .alreadyExists
  | none =>
    match p.parent.bind fs with
    | some .directory => .ok (fs.put p (some (.file ByteArray.empty)))
    | _ => .error (fs.absence p)

/-- The contents of a file that is open. -/
def write (p : Path) (contents : ByteArray) : FileSystem := fs.put p (some (.file contents))

/-- The file is gone. -/
def remove (p : Path) : FileSystem := fs.put p none

/-- The file gets another name; what had that name is gone. -/
def rename (p q : Path) : Except ErrorKind FileSystem :=
  match fs p with
  | some (.file contents) =>
    match fs q with
    | some .directory => .error .isADirectory
    | _ => .ok ((fs.put p none).put q (some (.file contents)))
  | some .directory => .error .notADirectory
  | none => .error (fs.absence p)

/-- No file stands where the path needs a directory. -/
def Clear (p : Path) : Prop := ∀ q : Path, q.OnTheWay p → fs.isFile q = false

@[simp] theorem put_self (p : Path) (node : Option Node) : fs.put p node p = node :=
  Function.update_self ..

theorem put_of_ne {p q : Path} (h : q ≠ p) (node : Option Node) : fs.put p node q = fs q :=
  Function.update_of_ne h ..

variable {fs} {fs' : FileSystem} {p q : Path}

theorem createNew_eq_ok (h : fs.createNew p = .ok fs') : fs' = fs.put p (some (.file ByteArray.empty)) := by
  unfold createNew at h
  split at h
  · cases h
  · split at h
    · exact (Except.ok.inj h).symm
    · cases h

/-- The name of a renamed file is free, and its new name has its contents. -/
theorem rename_eq_ok {contents : ByteArray} (hp : fs p = some (.file contents))
    (h : fs.rename p q = .ok fs') : fs' = (fs.put p none).put q (some (.file contents)) := by
  unfold rename at h
  rw [hp] at h
  dsimp only at h
  split at h
  · cases h
  · exact (Except.ok.inj h).symm

/-- What is not on the way to a directory is left alone when the directory is created. -/
theorem createDirAll_of_not_onTheWay (h : fs.createDirAll p = .ok fs') (hq : ¬ q.OnTheWay p) :
    fs' q = fs q := by
  unfold createDirAll at h
  split at h
  · cases h
  · split at h
    · cases h
    · cases h
      refine if_neg ?_
      rintro (rfl | hmem)
      · exact hq ⟨rfl, List.prefix_refl _⟩
      · exact hq (Path.onTheWay_of_mem_ancestors hmem)

theorem Clear.createDirAll (hclear : fs.Clear p) (h : fs.createDirAll p = .ok fs') : fs'.Clear p := by
  intro q hq
  unfold FileSystem.createDirAll at h
  split at h
  · cases h
  · split at h
    · cases h
    · cases h
      unfold isFile
      beta_reduce
      by_cases hmem : q = p ∨ q ∈ p.ancestors
      · rw [if_pos hmem]
        rfl
      · rw [if_neg hmem]
        exact hclear q hq

/-- What is put under another name leaves the path clear. -/
theorem Clear.put (hclear : fs.Clear p) (hq : ¬ q.OnTheWay p) (node : Option Node) :
    (fs.put q node).Clear p := by
  intro r hr
  have hne : r ≠ q := by
    rintro rfl
    exact hq hr
  unfold isFile
  rw [put_of_ne fs hne]
  exact hclear r hr

/-- A file is missing for no other reason in a directory with a clear path. -/
theorem Clear.absence_join (hclear : fs.Clear p) {name : String} (h : Path.Plain name) :
    fs.absence (p.join name) = .notFound := by
  refine if_neg ?_
  rw [List.any_eq_true]
  rintro ⟨q, hmem, hfile⟩
  rw [hclear q ((Path.mem_ancestors_join h).mp hmem)] at hfile
  cases hfile

end FileSystem

end AgentHostProtocol.Library
