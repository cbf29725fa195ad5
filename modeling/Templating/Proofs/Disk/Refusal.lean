import Templating.Proofs.Disk.Replacement

/-!
# What a refusal leaves behind

Room is made for a file by removing what is there, and a read-only file or directory is made writable
first.  When one of these operations is refused, nothing was removed yet; but what could not be removed
stays writable.

## What is here

* `Node.writable` is a node that may be removed.
* `Disk.makeRoom_eq_error` says which operation was refused and what the disk is then.
* `Disk.writeText_of_refused` says the same of the replacement of a file, and when all is as it was.
-/

set_option autoImplicit false

namespace Templating

/-! ## What may be removed

A read-only node is made writable for everybody, which changes its permissions and nothing else.  One
that is not read-only is left as it is. -/

/-- A node that everybody may write to, if nobody might. -/
def Node.writable (node : Node) : Node :=
  if node.permissions.isReadOnly then node.withPermissions (.ofReadOnly false) else node

namespace Node

/-- It is a file or a directory as before. -/
theorem isDirectory_writable (node : Node) : node.writable.isDirectory = node.isDirectory := by
  rw [writable]
  split
  · cases node with
    | file => rfl
    | directory => rfl
  · rfl

/-- It has the contents that it had. -/
theorem contents?_writable (node : Node) : node.writable.contents? = node.contents? := by
  rw [writable]
  split
  · cases node with
    | file => rfl
    | directory => rfl
  · rfl

/-- And it is not read-only any more. -/
theorem isReadOnly_writable (node : Node) : node.writable.permissions.isReadOnly = false := by
  rw [writable]
  split
  · cases node with
    | file => exact Permissions.isReadOnly_ofReadOnly false
    | directory => exact Permissions.isReadOnly_ofReadOnly false
  · next h => exact Bool.eq_false_iff.2 h

/-- Only a read-only node is changed. -/
theorem writable_eq_self_iff (node : Node) :
    node.writable = node ↔ node.permissions.isReadOnly = false := by
  constructor
  · intro h
    rw [← h]
    exact node.isReadOnly_writable
  · intro h
    rw [writable, h]
    rfl

end Node

/-! ## What was refused

There are three operations: what is there is inspected, its permissions are changed if need be, and it
is removed.  Each can be refused, and the third one only after the second has been done. -/

namespace Disk

variable {d d' : Disk} {refused : Refusals} {cwd place : Place} {p : Path} {node : Node}
  {e : BuildError} {readOnly : Bool}

/-- Making something writable is refused when it cannot be inspected or changed. -/
theorem setReadOnly_eq_error (h : d.setReadOnly refused cwd p readOnly = .error e) :
    ∃ operation kind, (operation = .inspect ∨ operation = .changePermissions) ∧
      e = failure operation p kind := by
  rw [setReadOnly] at h
  split at h
  · cases h
    exact ⟨.inspect, _, .inl rfl, rfl⟩
  · cases h
    exact ⟨.inspect, _, .inl rfl, rfl⟩
  · split at h
    · cases h
    · split at h
      · cases h
        exact ⟨.changePermissions, _, .inr rfl, rfl⟩
      · cases h

/-- What is made writable keeps its kind and its contents, and nothing else changes. -/
theorem node?_of_setReadOnly (hfind : d.find cwd p = .ok (place, node))
    (h : d.setReadOnly refused cwd p false = .ok d') :
    d'.node? place = some node.writable ∧ ∀ q, q ≠ place → d'.node? q = d.node? q := by
  obtain ⟨hlocate, hnode, -⟩ := find_eq_ok_iff.1 hfind
  refine ⟨?_, (changedAt_setReadOnly hlocate h).others⟩
  rw [setReadOnly, hfind] at h
  cases hinspect : refused .inspect with
  | some kind => rw [hinspect] at h; cases h
  | none =>
    rw [hinspect] at h
    dsimp only at h
    split at h
    · next hsame =>
      cases h
      rw [hnode, (Node.writable_eq_self_iff node).2 hsame]
    · next hother =>
      have hreadOnly : node.permissions.isReadOnly = true := by simpa using hother
      split at h
      · cases h
      · cases h
        have hroot : place ≠ [] := by
          rintro rfl
          rw [node?_root] at hnode
          cases hnode
          cases hreadOnly
        rw [node?_set_self d _ hroot, Node.writable, if_pos hreadOnly]

/-- Making room can be refused only where something is.  If it cannot be inspected or its permissions
cannot be changed, the disk is as it was; if it cannot be removed, it was made writable. -/
theorem makeRoom_eq_error (h : d.makeRoom refused cwd p = (.error e, d')) :
    ∃ place node operation kind, d.find cwd p = .ok (place, node) ∧ e = failure operation p kind ∧
      ((operation = .inspect ∨ operation = .changePermissions) ∧ d' = d ∨
        operation = .remove ∧ d'.node? place = some node.writable ∧
          ∀ q, q ≠ place → d'.node? q = d.node? q) := by
  rw [makeRoom] at h
  -- Where nothing is, there is nothing to remove, and nothing can be refused.
  split at h
  · next hexists =>
    obtain ⟨⟨place, node⟩, hfind⟩ := exists?_iff.1 hexists
    refine ⟨place, node, ?_⟩
    split at h
    · next e' hrefused =>
      cases h
      obtain ⟨operation, kind, hoperation, rfl⟩ := setReadOnly_eq_error hrefused
      exact ⟨operation, kind, hfind, rfl, .inl ⟨hoperation, rfl⟩⟩
    · next d₁ hwritable =>
      split at h
      · next kind hrefused =>
        cases h
        exact ⟨.remove, kind, hfind, rfl, .inr ⟨rfl, node?_of_setReadOnly hfind hwritable⟩⟩
      · cases h
  · cases h

variable {t : Text} {encoding : TextEncoding}

/-- **A replacement that is refused before anything is removed** leaves the kind and the contents of
what is there, and everything else.  It leaves the permissions too, unless what is there is read-only
and could not be removed: then it stays writable. -/
theorem writeText_of_refused (h : d.makeRoom refused cwd p = (.error e, d')) :
    d.writeText refused cwd p t encoding readOnly = (.error e, d') ∧
    ∃ place node node' operation kind, d.find cwd p = .ok (place, node) ∧
      e = failure operation p kind ∧ operation ∈ [.inspect, .changePermissions, .remove] ∧
      d'.node? place = some node' ∧ (∀ q, q ≠ place → d'.node? q = d.node? q) ∧
      node'.isDirectory = node.isDirectory ∧ node'.contents? = node.contents? ∧
      (operation = .remove → node' = node.writable) ∧
      (node' = node ↔ ¬ (operation = .remove ∧ node.permissions.isReadOnly = true)) := by
  refine ⟨by rw [writeText, h], ?_⟩
  obtain ⟨place, node, operation, kind, hfind, he, hcases⟩ := makeRoom_eq_error h
  obtain ⟨-, hnode, -⟩ := find_eq_ok_iff.1 hfind
  rcases hcases with ⟨hoperation, rfl⟩ | ⟨rfl, hwritable, hothers⟩
  · have hremove : operation ≠ .remove := by
      rintro rfl
      rcases hoperation with h | h
      · cases h
      · cases h
    refine ⟨place, node, node, operation, kind, hfind, he, ?_, hnode, fun _ _ => rfl, rfl, rfl,
      fun h => absurd h hremove, iff_of_true rfl fun h => hremove h.1⟩
    rcases hoperation with rfl | rfl
    · decide
    · decide
  · refine ⟨place, node, node.writable, .remove, kind, hfind, he, by decide, hwritable, hothers,
      node.isDirectory_writable, node.contents?_writable, fun _ => rfl, ?_⟩
    rw [node.writable_eq_self_iff, and_iff_right rfl, Bool.not_eq_true]

/-- A read-only directory is where a file is to be written. -/
theorem writeText_refused_at_directory :
    let p : Path := .ofString "/d"
    let d : Disk := ⟨[([['d']], .directory (.ofReadOnly true))]⟩
    let d' : Disk := ⟨[([['d']], .directory (.ofReadOnly false))]⟩
    let e : BuildError := failure .remove p .isADirectory
    d.makeRoom .none [] p = (.error e, d') ∧
      d.writeText .none [] p ['x'] .utf8 false = (.error e, d') ∧
      d'.node? [['d']] ≠ d.node? [['d']] := by
  intro p d d' e
  have hrefused : d.makeRoom .none [] p = (.error e, d') := rfl
  exact ⟨hrefused, (writeText_of_refused hrefused).1, by decide⟩

end Disk
end Templating
