import Templating.Error.Basic
import Templating.Lists

/-!
# Files to read

A `FileSystem` is what a build can see of the files around it: finitely many files, each with its
contents or with the reason why it cannot be read.

## What is here

* `FileSystem.find?` looks a path up; spellings of one place are the same file.
* `FileSystem.readText` reads and decodes a file.
* `FileSystem.unvisited` counts the files that are not among some paths.
-/

set_option autoImplicit false

namespace Templating

/-- What can be read. -/
structure FileSystem where
  /-- The files; the first of several entries for one place counts. -/
  entries : List (Path × Except IoError Bytes)
  /-- What is said about a path that is no file. -/
  missing : Path → IoError

namespace FileSystem

/-- What is known about the file at a path. -/
def find? (fs : FileSystem) (p : Path) : Option (Except IoError Bytes) :=
  (fs.entries.find? fun entry => Path.Same entry.1 p).map Prod.snd

/-- The contents of a file. -/
def read (fs : FileSystem) (p : Path) : Except IoError Bytes :=
  (fs.find? p).getD (.error (fs.missing p))

/-- The file system with the contents of one file replaced. -/
def put (fs : FileSystem) (p : Path) (contents : Except IoError Bytes) : FileSystem :=
  { fs with entries := (p, contents) :: fs.entries.filter fun entry => !Path.Same entry.1 p }

/-- The file system without one file. -/
def erase (fs : FileSystem) (p : Path) : FileSystem :=
  { fs with entries := fs.entries.filter fun entry => !Path.Same entry.1 p }

theorem find?_congr (fs : FileSystem) {p q : Path} (h : Path.Same p q) : fs.find? p = fs.find? q := by
  have hp : (fun entry : Path × Except IoError Bytes => decide (Path.Same entry.1 p))
      = fun entry => decide (Path.Same entry.1 q) := by
    funext entry
    rw [decide_eq_decide]
    exact ⟨fun he => he.trans h, fun he => he.trans h.symm⟩
  rw [find?, find?, hp]

theorem find?_erase_self (fs : FileSystem) (p : Path) : (fs.erase p).find? p = none := by
  rw [find?, Option.map_eq_none_iff, List.find?_eq_none]
  intro entry he
  simpa using (List.mem_filter.1 he).2

theorem find?_erase_of_not_same (fs : FileSystem) {p q : Path} (h : ¬ Path.Same q p) :
    (fs.erase p).find? q = fs.find? q := by
  rw [find?, find?, erase, List.find?_filter_of_imp]
  intro entry he
  have : ¬ Path.Same entry.1 p := fun he' => h ((of_decide_eq_true he).symm.trans he')
  simp [this]

theorem find?_put_self (fs : FileSystem) (p : Path) (contents : Except IoError Bytes) :
    (fs.put p contents).find? p = some contents := by
  rw [find?, put, List.find?_cons_of_pos (by simpa using Path.Same.refl p)]
  rfl

theorem find?_put_of_not_same (fs : FileSystem) {p q : Path} (contents : Except IoError Bytes)
    (h : ¬ Path.Same q p) : (fs.put p contents).find? q = fs.find? q := by
  rw [← find?_erase_of_not_same fs h, find?, find?, put,
    List.find?_cons_of_neg (by simpa using fun he => h (Path.Same.symm he)), erase]

/-- The text of a file and its encoding, which is guessed if it is not given. -/
def readText (fs : FileSystem) (p : Path) (encoding : Option TextEncoding) :
    Except BuildError (Text × TextEncoding) :=
  match fs.read p with
  | .error cause => .error (.io .read p cause)
  | .ok bytes =>
    match encoding.or (TextEncoding.detect? bytes) with
    | none => .error (.unknownEncoding p)
    | some encoding =>
      match encoding.decode? bytes with
      | none => .error (.encoding p encoding)
      | some text => .ok (text, encoding)

/-- The number of files that are none of some paths. -/
def unvisited (fs : FileSystem) (visited : List Path) : Nat :=
  fs.entries.countP fun entry => !visited.any fun q => Path.Same entry.1 q

/-- Visiting a file that is there and was not visited leaves fewer to visit. -/
theorem unvisited_append_lt {fs : FileSystem} {visited : List Path} {p : Path}
    (hp : (fs.find? p).isSome = true) (hv : ¬ visited.any (fun q => Path.Same q p) = true) :
    fs.unvisited (visited ++ [p]) < fs.unvisited visited := by
  obtain ⟨contents, hc⟩ := Option.isSome_iff_exists.1 hp
  obtain ⟨entry, he, -⟩ := Option.map_eq_some_iff.1 hc
  have hsame : Path.Same entry.1 p := by simpa using List.find?_some he
  refine List.countP_lt_countP (a := entry) ?_ (List.mem_of_find?_eq_some he) ?_ ?_
  · intro b _
    simp only [List.any_append, Bool.not_or, Bool.and_eq_true]
    exact And.left
  · simp [hsame]
  · simp only [List.any_eq_true, decide_eq_true_eq, not_exists, not_and] at hv
    simp only [Bool.not_eq_true', List.any_eq_false, decide_eq_true_eq]
    exact fun q hq h => hv q hq (h.symm.trans hsame)

end FileSystem
end Templating
