import Templating.FileSystem
import Templating.Proofs.Encoding.RoundTrip

/-!
# Reading files

## What is here

* `FileSystem.isSome_find?_of_readText`: what can be read is there.
* `FileSystem.ofTexts` is a file system made of texts, and `FileSystem.readText_ofTexts` says that a
  text in it is read back, if it does not start with a character that looks like a byte-order mark.
-/

set_option autoImplicit false

namespace Templating
namespace FileSystem

/-- What can be read is there. -/
theorem isSome_find?_of_readText {fs : FileSystem} {p : Path} {encoding : Option TextEncoding}
    {r : Text × TextEncoding} (h : fs.readText p encoding = .ok r) :
    (fs.find? p).isSome = true := by
  cases hfind : fs.find? p with
  | some contents => rfl
  | none =>
    rw [readText, read, hfind] at h
    cases h

/-- The files at some paths, with the given texts. -/
def ofTexts (files : List (Path × Text)) : FileSystem where
  entries := files.map fun file => (file.1, .ok (Utf8.encode file.2))
  missing _ := ⟨.notFound, "no such file"⟩

theorem readText_ofTexts {files : List (Path × Text)} {p : Path} {t : Text}
    (hfind : ∃ q, files.find? (fun file => Path.Same file.1 p) = some (q, t))
    (ht : ∀ c, t.head? = some c → c.toNat < 128) :
    (ofTexts files).readText p none = .ok (t, .utf8) := by
  obtain ⟨q, hq⟩ := hfind
  have hread : (ofTexts files).read p = .ok (TextEncoding.utf8.encode t) := by
    rw [read, find?, ofTexts, List.find?_map]
    show ((Option.map _ (files.find? fun file => Path.Same file.1 p)).map _).getD _ = _
    rw [hq]
    rfl
  have hmark : ¬ t.head? = some byteOrderMark := fun h => absurd (ht _ h) (by decide)
  obtain ⟨hdetect, hdecode⟩ := TextEncoding.read_written (e := .utf8) fun h => hmark h.2
  rw [readText, hread]
  dsimp only
  rw [hdetect]
  dsimp only [Option.or]
  rw [hdecode]

/-- The only file there is. -/
theorem readText_singleton (file : Path × Text)
    (ht : ∀ c, file.2.head? = some c → c.toNat < 128) :
    (ofTexts [file]).readText file.1 none = .ok (file.2, .utf8) :=
  readText_ofTexts ⟨file.1, by simp [Path.Same.refl]⟩ ht

end FileSystem
end Templating
