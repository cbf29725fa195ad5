import Templating.Text.Basic

/-!
# Reading from the front of a text

A reader takes something off the front of a text.  What is left is shorter, which is why reading on
and on comes to an end.

* `Read` is what a reader found, with the rest of the text.
* `Read.mark?` reads a mark, `Read.break?` a line break.
* `Text.dropMarks` drops marks for as long as there are any.
-/

set_option autoImplicit false

namespace Templating

/-- Something read at the front of a text, and the rest of the text. -/
structure Read (α : Type) (t : Text) where
  value : α
  rest : Text
  shorter : rest.length < t.length

namespace Read

variable {α β : Type} {s t : Text}

/-- The same rest with another value. -/
def map (f : α → β) (r : Read α t) : Read β t := ⟨f r.value, r.rest, r.shorter⟩

/-- What is read at the front of a text is read in a longer text too. -/
def widen (r : Read α s) (h : s.length ≤ t.length) : Read α t :=
  ⟨r.value, r.rest, Nat.lt_of_lt_of_le r.shorter h⟩

/-- What is read behind something else. -/
def behind (r : Read α t) (next : Read β r.rest) : Read β t := next.widen (Nat.le_of_lt r.shorter)

/-- What is read behind one more character. -/
def cons (c : Char) (r : Read α t) : Read α (c :: t) := r.widen (Nat.le_succ _)

/-- Reads a mark, which must not be empty. -/
def mark? (mark t : Text) : Option (Read Unit t) :=
  match h : Text.after? mark t with
  | none => none
  | some rest =>
    if hm : mark = [] then none
    else
      some ⟨(), rest, by
        have := List.length_pos_iff.2 hm
        rw [Text.after?_eq_some_iff.1 h, List.length_append]
        omega⟩

/-- Reads a line break, which may have a carriage return. -/
def break? (t : Text) : Option (Read Unit t) := (mark? ['\n'] t).or (mark? ['\r', '\n'] t)

end Read

namespace Text

/-- A text without the marks at its front, however many there are. -/
def dropMarks (mark t : Text) : Text :=
  match Read.mark? mark t with
  | none => t
  | some ⟨_, rest, _⟩ => dropMarks mark rest
termination_by t.length

end Text
end Templating
