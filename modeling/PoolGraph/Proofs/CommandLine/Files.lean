import Mathlib.Tactic.Use
import PoolGraph.CommandLine.Run
import PoolGraph.Proofs.LastPart
import PoolGraph.Proofs.Lookup

/-!
# Paths and files

A path is a folder and the name of a file in it (`FileSystem.names?_append`).  The path that
`Command.binaryPath` makes of it leads to the same folder (`FileSystem.names?_binaryPath`), and to
the same file exactly when the name has the extension `bin` already (`binaryName_eq_self_iff`).
Writing a file changes this file alone, and no path leads elsewhere than before
(`FileSystem.wrote_of_write?`).
-/

namespace PoolGraph

/-! ### Names with an extension -/

/-- What stands before the last dot of a name; nothing when it has no dot. -/
def nameStem (name : List Char) : List Char :=
  ((name.reverse.dropWhile (· != '.')).drop 1).reverse

/-- A name with its extension replaced by `bin`, or with that extension when it has none. -/
def binaryName (name : String) : String :=
  String.ofList (if (nameStem name.toList).isEmpty then name.toList else nameStem name.toList)
    ++ ".bin"

/-- Whether a name has the extension `bin`. -/
def HasBinaryExtension (name : String) : Prop :=
  ∃ stem, stem ≠ "" ∧ name = stem ++ ".bin"

theorem nameStem_append (stem : List Char) {extension : List Char} (h : '.' ∉ extension) :
  nameStem (stem ++ '.' :: extension) = stem
  := by
  have all : ∀ c ∈ extension.reverse, (c != '.') = true := by
    intro c hc
    apply bne_iff_ne.mpr
    rintro rfl
    apply h (List.mem_reverse.mp hc)
  rw [nameStem, List.reverse_append, List.reverse_cons, List.append_assoc,
    List.dropWhile_append_of_pos all, List.singleton_append, List.dropWhile_cons, bne_self_eq_false]
  apply List.reverse_reverse stem

theorem hasBinaryExtension_binaryName {name : String} (h : name ≠ "") :
  HasBinaryExtension (binaryName name)
  := by
  refine ⟨_, ?_, rfl⟩
  split
  · rwa [String.ofList_toList]
  · next h =>
    rw [List.isEmpty_iff] at h
    exact fun empty => h (String.ofList_eq_empty_iff.mp empty)

/-- Replacing the extension leaves just the names that have the new one as they are. -/
theorem binaryName_eq_self_iff {name : String} :
  binaryName name = name ↔ HasBinaryExtension name
  := by
  constructor
  · intro same
    rw [← same]
    apply hasBinaryExtension_binaryName
    rintro rfl
    exact absurd same (by decide)
  · rintro ⟨stem, filled, rfl⟩
    have found : nameStem (stem ++ ".bin").toList = stem.toList := by
      rw [String.toList_append]
      exact nameStem_append _ (by decide)
    have some : ¬ stem.toList.isEmpty = true := by
      rw [List.isEmpty_iff, String.toList_eq_nil_iff]
      apply filled
    rw [binaryName, found, if_neg some, String.ofList_toList]

namespace FileSystem

/-! ### Folders -/

theorem parts_ne_nil (path : List Char) :
  parts path ≠ []
  := by
  fun_cases parts path <;> exact List.cons_ne_nil _ _

theorem parts_append_slash (xs ys : List Char) :
  parts (xs ++ '/' :: ys) = parts xs ++ parts ys
  := by
  induction xs with
  | nil => rfl
  | cons c xs ih =>
    obtain ⟨first, others, split⟩ := List.exists_cons_of_ne_nil (parts_ne_nil xs)
    rw [List.cons_append, parts, parts, ih, split, List.cons_append]
    by_cases slash : c = '/'
    · rw [if_pos slash, if_pos slash, List.cons_append, List.cons_append]
    · rw [if_neg slash, if_neg slash, List.cons_append]

theorem parts_of_not_mem {name : List Char} (h : '/' ∉ name) :
  parts name = [name]
  := by
  induction name with
  | nil => rfl
  | cons c name ih =>
    have other : c ≠ '/' := fun same => h (same ▸ .head _)
    rw [parts, if_neg other, ih fun later => h (.tail _ later)]

/-- Whether characters are the front of a path, up to the name of its file. -/
def IsFolder (folder : List Char) : Prop :=
  folder = [] ∨ ∃ more, folder = more ++ ['/']

theorem parts_append {folder name : List Char} (hfolder : IsFolder folder) (h : '/' ∉ name) :
  parts (folder ++ name) = (parts folder).dropLast ++ [name]
  := by
  rcases hfolder with rfl | ⟨more, rfl⟩
  · rw [List.nil_append, parts_of_not_mem h]
    rfl
  · have slash : parts (more ++ ['/']) = parts more ++ [[]] := parts_append_slash more []
    rw [List.append_assoc, List.singleton_append, parts_append_slash, parts_of_not_mem h, slash,
      List.dropLast_concat]

variable {fs fs' : FileSystem}

/-- The directory that the front of a path leads to. -/
def folder? (fs : FileSystem) (folder : List Char) : Option (List String) :=
  (fs.walk? (if folder.head? = some '/' then [] else fs.working)
    ((parts folder).dropLast.map String.ofList)).filter fs.isDirectory

/-- A path leads to the directory of its folder and to a file with its name there. -/
theorem names?_append {folder name : List Char} (hfolder : IsFolder folder) (h : '/' ∉ name) :
  fs.names? (String.ofList (folder ++ name))
    = if String.ofList name = "" ∨ String.ofList name = "." ∨ String.ofList name = ".."
      then none
      else (fs.folder? folder).map (· ++ [String.ofList name])
  := by
  have head : (folder ++ name).head? = some '/' ↔ folder.head? = some '/' := by
    cases folder with
    | nil =>
      constructor
      · intro first
        exact absurd (List.mem_of_head? first) h
      · intro first
        cases first
    | cons c folder => rfl
  rw [names?, String.toList_ofList, parts_append hfolder h, List.map_append, List.map_singleton]
  simp only [List.getLast?_concat, List.dropLast_concat, Option.bind_eq_bind, Option.bind_some,
    Bool.or_eq_true, decide_eq_true_eq, head, folder?, or_assoc]
  split
  · rfl
  · generalize fs.walk? _ _ = walked
    cases walked with
    | none => rfl
    | some directory =>
      rw [Option.bind_some, Option.filter_some]
      split <;> rfl

/-! ### The path of the binary form -/

theorem not_mem_binaryName {c : Char} {name : String} (h : c ∉ name.toList)
    (other : c ∉ ".bin".toList) :
  c ∉ (binaryName name).toList
  := by
  rw [binaryName, String.toList_append, String.toList_ofList]
  refine List.not_mem_append (fun inside => h ?_) other
  split at inside
  · apply inside
  · rw [nameStem, List.mem_reverse] at inside
    apply List.mem_reverse.mp (List.dropWhile_subset _ (List.mem_of_mem_drop inside))

theorem binaryPath_append {folder name : List Char} (hfolder : IsFolder folder) (h : '/' ∉ name) :
  Command.binaryPath (String.ofList (folder ++ name))
    = String.ofList (folder ++ (binaryName (String.ofList name)).toList)
  := by
  have last : lastPart '/' (folder ++ name) = name := by
    rw [lastPart_append _ h]
    rcases hfolder with rfl | ⟨more, rfl⟩
    · rfl
    · rw [lastPart_concat, List.nil_append]
  have front : ((folder ++ name).reverse.dropWhile (· != '/')).reverse = folder := by
    have whole := List.takeWhile_append_dropWhile (p := (· != '/')) (l := (folder ++ name).reverse)
    have whole := congrArg List.reverse whole
    rw [List.reverse_append, List.reverse_reverse] at whole
    rw [lastPart] at last
    rw [last] at whole
    apply List.append_cancel_right whole
  have attached : ∀ text, String.ofList (text ++ ".bin".toList) = String.ofList text ++ ".bin" :=
    fun text => by rw [String.ofList_append, String.ofList_toList]
  rw [lastPart] at last
  rw [Command.binaryPath, String.toList_ofList]
  simp only [last, front]
  rw [binaryName, String.toList_ofList, String.toList_append, String.toList_ofList,
    ← List.append_assoc folder, attached]
  rfl

theorem ne_of_hasBinaryExtension {name : String} (h : HasBinaryExtension name) (short : String)
    (few : short.length ≤ 4) :
  name ≠ short
  := by
  obtain ⟨stem, filled, rfl⟩ := h
  rintro rfl
  have four : ".bin".length = 4 := rfl
  rw [String.length_append, four] at few
  exact filled (String.length_eq_zero_iff.mp (by omega))

/-- The binary form of a file has its place in the same folder, under a name of its own or, if it
ends in the extension already, the same one. -/
theorem names?_binaryPath {input : String} {file : List String} (h : fs.names? input = some file) :
  ∃ folder name, file = folder ++ [name] ∧ name ≠ ""
    ∧ fs.names? (Command.binaryPath input) = some (folder ++ [binaryName name])
  := by
  obtain ⟨folder, whole, plain, hfolder⟩ := exists_lastPart '/' input.toList
  have input_eq : input = String.ofList (folder ++ lastPart '/' input.toList) := by
    rw [← whole, String.ofList_toList]
  rw [input_eq] at h ⊢
  revert h plain
  generalize lastPart '/' input.toList = name
  intro h plain
  rw [names?_append hfolder plain] at h
  split at h
  · cases h
  · next proper =>
    obtain ⟨directory, found, rfl⟩ := Option.map_eq_some_iff.mp h
    have filled : String.ofList name ≠ "" := fun empty => proper (.inl empty)
    have extended := hasBinaryExtension_binaryName filled
    have distinct := ne_of_hasBinaryExtension extended
    use directory, String.ofList name, rfl, filled
    rw [binaryPath_append hfolder plain, names?_append hfolder, String.ofList_toList, if_neg, found]
    · rfl
    · rintro (same | same | same)
      · exact distinct _ (by decide) same
      · exact distinct _ (by decide) same
      · exact distinct _ (by decide) same
    · apply not_mem_binaryName _ (by decide)
      rwa [String.toList_ofList]

/-! ### Writing -/

/-- Whether a file system is another one after a file was written: this file has the contents, all
other files are as they were, and so is the rest. -/
structure Wrote (fs fs' : FileSystem) (file : List String) (data : ByteArray) : Prop where
  contents : fs'.files.lookup file = some data
  others : ∀ other, other ≠ file → fs'.files.lookup other = fs.files.lookup other
  rest : fs' = { fs with files := fs'.files }

/-- Paths lead to the same files in the same directories. -/
theorem names?_of_rest (rest : fs' = { fs with files := fs'.files }) (path : String) :
  fs'.names? path = fs.names? path
  := by
  have directory : fs'.isDirectory = fs.isDirectory := by
    funext names
    rw [rest]
    rfl
  have walked (here parts : List String) : fs'.walk? here parts = fs.walk? here parts := by
    induction parts generalizing here with
    | nil => rfl
    | cons part parts ih => rw [walk?, walk?, ih, ih, ih, directory]
  have start : fs'.working = fs.working := by
    rw [rest]
  simp only [names?, directory, walked, start]

/-- The written contents are read by the paths of the file, and by no other path. -/
theorem Wrote.read? {file : List String} {data : ByteArray} (wrote : fs.Wrote fs' file data)
    (path : String) :
  fs'.read? path = if fs.names? path = some file then (if fs.mayRead file then some data else none)
    else fs.read? path
  := by
  have allowed : fs'.mayRead = fs.mayRead := by
    rw [wrote.rest]
  rw [FileSystem.read?, FileSystem.read?, names?_of_rest wrote.rest, allowed]
  cases fs.names? path with
  | none => rfl
  | some other =>
    by_cases same : other = file
    · rw [same, if_pos rfl, ← wrote.contents]
      rfl
    · rw [if_neg fun h => same (Option.some.inj h)]
      simp only [Option.bind_eq_bind, Option.bind_some, wrote.others other same]

/-- A file can be written in a directory that exists, if this is allowed and there is no directory in
its place. -/
theorem isSome_write?_iff (fs : FileSystem) (path : String) (data : ByteArray) :
  (fs.write? path data).isSome
    ↔ ∃ file, fs.names? path = some file ∧ fs.isDirectory file = false ∧ fs.mayWrite file = true
  := by
  rw [write?]
  cases fs.names? path with
  | none => simp
  | some file =>
    simp only [Option.bind_eq_bind, Option.bind_some, Option.some.injEq, exists_eq_left']
    cases fs.isDirectory file
    · cases fs.mayWrite file
      · simp
      · simp only [Bool.not_true, Bool.or_false, Bool.false_eq_true, if_false, and_self, iff_true]
        split <;> rfl
    · simp

/-- Writing changes the file that the path stands for. -/
theorem wrote_of_write? {path : String} {data : ByteArray} (h : fs.write? path data = some fs') :
  ∃ file, fs.names? path = some file ∧ fs.Wrote fs' file data
  := by
  obtain ⟨file, named, h⟩ := Option.bind_eq_some_iff.mp h
  use file, named
  split at h
  · cases h
  · split at h
    · next old =>
      obtain rfl := Option.some.inj h
      constructor
      · obtain ⟨contents, hold⟩ := Option.isSome_iff_exists.mp old
        rw [lookup_put, if_pos rfl, hold, Option.map_some]
      · intro other apart
        rw [lookup_put, if_neg apart]
      · rfl
    · next free =>
      obtain rfl := Option.some.inj h
      rw [Option.not_isSome_iff_eq_none] at free
      constructor
      · rw [List.lookup_append, free, List.lookup_cons_self]
        rfl
      · intro other apart
        have passed : (other == file) = false := beq_false_of_ne apart
        simp only [List.lookup_append, List.lookup_cons, passed, List.lookup_nil, Option.or_none]
      · rfl

end FileSystem

end PoolGraph
