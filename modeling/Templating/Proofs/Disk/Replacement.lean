import Templating.Disk.Write
import Templating.Proofs.Except

/-!
# Replacing one file

Replacing a file takes several operations on the path that leads to it, and each of them changes the
disk on which the next one follows that path.  They all reach the same place: what is changed is never
a directory that the path passes through.

## What is here

* `Disk.ChangedAt` relates two disks that differ at one place at most, with the directories of the
  first still there.  A path that leads somewhere on the first leads there on the second
  (`ChangedAt.locate`).
* `Disk.changedAt_writeText` and `Disk.node?_writeText` say that replacing a file is such a change,
  whether it succeeds or not, and `Disk.find_of_writeText` what is there when it succeeds.
* `Disk.writeText_of_target`: it does succeed where a file can be, if nothing is refused.
-/

set_option autoImplicit false

namespace Templating
namespace Disk

/-! ## Following a path

A path is followed in two steps: `Disk.locate` finds the place, and `Disk.find` and `Disk.target` look
at what is there.  `find` is for what reads and removes, `target` for what writes; they differ in what
they make of a directory, of a missing file, and of a slash at the end.  Everything below uses them
through the two equivalences of this section. -/

section Following

variable {d : Disk} {cwd place : Place} {p : Path} {node : Node}

/-- A path leads to a node exactly if the node is at its place; with a slash at its end it leads to
directories only. -/
theorem find_eq_ok_iff :
    d.find cwd p = .ok (place, node) ↔ d.locate cwd p = .ok place ∧ d.node? place = some node ∧
      (endsInSlash p = true → node.isDirectory = true) := by
  rw [find, bind_eq_ok]
  constructor
  · rintro ⟨place', hlocate, h⟩
    split at h
    · cases h
    · next node' hnode =>
      split at h
      · cases h
      · next hslash =>
        cases h
        exact ⟨hlocate, hnode, by simpa using hslash⟩
  · rintro ⟨hlocate, hnode, hslash⟩
    refine ⟨place, hlocate, ?_⟩
    rw [hnode]
    dsimp only
    rw [if_neg (by simpa using hslash)]

/-- A file can be written at the place of a path exactly if there is no directory and the path does not
end in a slash.  Nothing need be there. -/
theorem target_eq_ok_iff :
    d.target cwd p = .ok place ↔ d.locate cwd p = .ok place ∧ endsInSlash p = false ∧
      ∀ permissions, d.node? place ≠ some (.directory permissions) := by
  rw [target, bind_eq_ok]
  constructor
  · rintro ⟨place', hlocate, h⟩
    split at h
    · cases h
    · next hslash =>
      split at h
      · cases h
      · next hnode =>
        cases h
        exact ⟨hlocate, by simpa using hslash, hnode⟩
  · rintro ⟨hlocate, hslash, hnode⟩
    refine ⟨place, hlocate, ?_⟩
    rw [if_neg (by simp [hslash])]
    split
    · next permissions hdirectory => exact absurd hdirectory (hnode permissions)
    · rfl

theorem exists?_iff : d.exists? cwd p = true ↔ ∃ found, d.find cwd p = .ok found := by
  rw [exists?]
  cases d.find cwd p with
  | error kind => exact ⟨nofun, nofun⟩
  | ok found => exact ⟨fun _ => ⟨found, rfl⟩, fun _ => rfl⟩

theorem node?_root (d : Disk) : d.node? [] = some (.directory .fresh) := rfl

/-- There is always something at the root. -/
theorem ne_root_of_not_directory (h : ∀ permissions, d.node? place ≠ some (.directory permissions)) :
    place ≠ [] := by
  rintro rfl
  exact h _ (node?_root d)

end Following

/-! ## Changes at one place

Between two operations on a file, the path to it is followed again on a disk that has changed.  What
makes this harmless is that directories stay directories: a path passes through directories only, and so
it finds the same way on both disks, even one that goes through the place that has changed.  This is why
`ChangedAt` has a second field, and it is all that the frame of a replacement needs. -/

variable {d d' d'' : Disk} {place : Place}

/-- The second disk is the first but for what is at one place, and a directory there is still one. -/
structure ChangedAt (place : Place) (d d' : Disk) : Prop where
  others : ∀ q, q ≠ place → d'.node? q = d.node? q
  directory : ∀ permissions, d.node? place = some (.directory permissions) →
    ∃ permissions', d'.node? place = some (.directory permissions')

theorem ChangedAt.refl (place : Place) (d : Disk) : ChangedAt place d d where
  others _ _ := rfl
  directory permissions h := ⟨permissions, h⟩

theorem ChangedAt.trans (h : ChangedAt place d d') (h' : ChangedAt place d' d'') :
    ChangedAt place d d'' where
  others q hq := (h'.others q hq).trans (h.others q hq)
  directory permissions hplace := by
    obtain ⟨permissions', hplace'⟩ := h.directory permissions hplace
    exact h'.directory permissions' hplace'

/-- What was a directory still is one, at the place of the change and everywhere else. -/
theorem ChangedAt.directories (h : ChangedAt place d d') {q : Place} {permissions : Permissions}
    (hq : d.node? q = some (.directory permissions)) :
    ∃ permissions', d'.node? q = some (.directory permissions') := by
  by_cases hplace : q = place
  · subst hplace
    exact h.directory permissions hq
  · exact ⟨permissions, (h.others q hplace).trans hq⟩

/-- A node that takes the place of a directory has to be a directory; otherwise anything may be put
anywhere. -/
theorem changedAt_set {node : Node}
    (h : ∀ permissions, d.node? place = some (.directory permissions) → node.isDirectory = true) :
    ChangedAt place d (d.set place node) where
  others q hq := node?_set_of_ne d node hq
  directory permissions hplace := by
    -- The root is no node of the list, so putting something there changes nothing.
    by_cases hroot : place = []
    · exact ⟨.fresh, by rw [hroot, node?_root]⟩
    · have hnode := h permissions hplace
      cases node with
      | file contents _ => cases hnode
      | directory permissions' => exact ⟨permissions', node?_set_self d _ hroot⟩

theorem changedAt_erase (h : ∀ permissions, d.node? place ≠ some (.directory permissions)) :
    ChangedAt place d (d.erase place) where
  others _ hq := node?_erase_of_ne d hq
  directory permissions hplace := absurd hplace (h permissions)

/-- Where a path leads through directories, it still does. -/
theorem ChangedAt.walk (h : ChangedAt place d d') {here q : Place} {segments : List Text}
    (hwalk : d.walk here segments = .ok q) : d'.walk here segments = .ok q := by
  -- Along the segments: the only thing a step asks of the disk is a directory where it stands.
  induction segments generalizing here with
  | nil => exact hwalk
  | cons segment segments ih =>
    rw [Disk.walk] at hwalk ⊢
    split at hwalk
    · next hempty =>
      rw [if_pos hempty]
      exact ih hwalk
    · next hempty =>
      rw [if_neg hempty]
      split at hwalk
      · cases hwalk
      · cases hwalk
      · next permissions hhere =>
        obtain ⟨permissions', hhere'⟩ := h.directories hhere
        rw [hhere']
        dsimp only
        split at hwalk
        · next hdot =>
          rw [if_pos hdot]
          exact ih hwalk
        · next hdot =>
          rw [if_neg hdot]
          split at hwalk
          · next hup =>
            rw [if_pos hup]
            exact ih hwalk
          · next hup =>
            rw [if_neg hup]
            split at hwalk
            · cases hwalk
            · next hlong =>
              rw [if_neg hlong]
              exact ih hwalk

/-- The tests on the text of a path do not look at the disk, and the walk goes the same way. -/
theorem ChangedAt.locate (h : ChangedAt place d d') {cwd q : Place} {p : Path}
    (hlocate : d.locate cwd p = .ok q) : d'.locate cwd p = .ok q := by
  rw [Disk.locate] at hlocate ⊢
  split at hlocate
  · cases hlocate
  · next hempty =>
    rw [if_neg hempty]
    split at hlocate
    · cases hlocate
    · next hnul =>
      rw [if_neg hnul]
      split at hlocate
      · cases hlocate
      · next hlong =>
        rw [if_neg hlong]
        exact h.walk hlocate

/-! ## Single operations

Each operation that succeeds is inverted once: what was there, and what the disk is afterwards.  Whether
it is a change at one place follows from that, for any refusals.  `Disk.writeFile` is the exception, as
it may change the disk and fail, leaving an empty file behind. -/

variable {refused : Refusals} {cwd : Place} {p : Path} {contents : Bytes} {readOnly : Bool}

/-- Either the permissions were what they should be and nothing is done, or they are changed. -/
theorem setReadOnly_eq_ok (h : d.setReadOnly refused cwd p readOnly = .ok d') :
    ∃ place node, d.find cwd p = .ok (place, node) ∧
      (node.permissions.isReadOnly = readOnly ∧ d' = d ∨
        d' = d.set place (node.withPermissions (.ofReadOnly readOnly))) := by
  rw [setReadOnly] at h
  split at h
  · cases h
  · cases h
  · next place node _ hfind =>
    refine ⟨place, node, hfind, ?_⟩
    split at h
    · next hsame =>
      cases h
      exact .inl ⟨hsame, rfl⟩
    · split at h
      · cases h
      · cases h
        exact .inr rfl

/-- Only a file is ever removed. -/
theorem removeFile_eq_ok (h : d.removeFile refused cwd p = .ok d') :
    ∃ place contents permissions, d.find cwd p = .ok (place, .file contents permissions) ∧
      d' = d.erase place := by
  rw [removeFile] at h
  split at h
  · cases h
  · cases h
  · cases h
  · next place contents permissions _ hfind =>
    cases h
    exact ⟨place, contents, permissions, hfind, rfl⟩

/-- A file that is written over keeps its permissions, and a new one gets those of new files. -/
theorem writeFile_eq_ok (h : d.writeFile refused cwd p contents = (.ok (), d')) :
    ∃ place, d.target cwd p = .ok place ∧
      d' = d.set place (.file contents (((d.node? place).map Node.permissions).getD .fresh)) := by
  rw [writeFile] at h
  split at h
  · cases h
  · next place htarget =>
    dsimp only at h
    split at h
    · cases h
    · cases h
      exact ⟨place, htarget, rfl⟩

theorem changedAt_setReadOnly (hlocate : d.locate cwd p = .ok place)
    (h : d.setReadOnly refused cwd p readOnly = .ok d') : ChangedAt place d d' := by
  obtain ⟨place', node, hfind, ⟨-, rfl⟩ | rfl⟩ := setReadOnly_eq_ok h
  · exact .refl place _
  · obtain ⟨hlocate', hnode, -⟩ := find_eq_ok_iff.1 hfind
    obtain rfl : place' = place := Except.ok.inj (hlocate'.symm.trans hlocate)
    refine changedAt_set fun permissions hdirectory => ?_
    rw [hnode, Option.some_inj] at hdirectory
    subst hdirectory
    rfl

theorem changedAt_removeFile (hlocate : d.locate cwd p = .ok place)
    (h : d.removeFile refused cwd p = .ok d') : ChangedAt place d d' := by
  obtain ⟨place', contents, permissions, hfind, rfl⟩ := removeFile_eq_ok h
  obtain ⟨hlocate', hnode, -⟩ := find_eq_ok_iff.1 hfind
  obtain rfl : place' = place := Except.ok.inj (hlocate'.symm.trans hlocate)
  exact changedAt_erase (by simp [hnode])

/-- This holds of a write that fails, too: what it leaves behind is at the same place. -/
theorem changedAt_writeFile (hlocate : d.locate cwd p = .ok place) :
    ChangedAt place d (d.writeFile refused cwd p contents).2 := by
  rw [writeFile]
  split
  · exact .refl place d
  · next place' htarget =>
    obtain ⟨hlocate', -, hfile⟩ := target_eq_ok_iff.1 htarget
    obtain rfl : place' = place := Except.ok.inj (hlocate'.symm.trans hlocate)
    dsimp only
    split
    · exact changedAt_set fun permissions h => absurd h (hfile permissions)
    · exact changedAt_set fun permissions h => absurd h (hfile permissions)

/-! ## Both steps

Changes at one place can be put one after the other (`ChangedAt.trans`), as long as the path still leads
to that place in between, which is what `ChangedAt.locate` is for.  So the proofs follow the operations
from one disk to the next, `d`, `d₁` and `d₂`, and at each failure they stop with what has been changed
so far. -/

theorem changedAt_makeRoom (hlocate : d.locate cwd p = .ok place) :
    ChangedAt place d (d.makeRoom refused cwd p).2 := by
  rw [makeRoom]
  split
  · split
    · exact .refl place d
    · next d₁ hwritable =>
      have hchanged := changedAt_setReadOnly hlocate hwritable
      split
      · exact hchanged
      · next d₂ hremove =>
        exact hchanged.trans (changedAt_removeFile (hchanged.locate hlocate) hremove)
  · exact .refl place d

theorem changedAt_fill (hlocate : d.locate cwd p = .ok place) :
    ChangedAt place d (d.fill refused cwd p contents readOnly).2 := by
  have hwritten : ChangedAt place d (d.writeFile refused cwd p contents).2 :=
    changedAt_writeFile hlocate
  rw [fill]
  -- The disk after the write is kept in both cases; only what happens to it next depends on the result.
  generalize d.writeFile refused cwd p contents = r at hwritten
  obtain ⟨kind | _, d₁⟩ := r
  · dsimp only
    -- The file that could not be written in full is removed, unless that fails as well.
    cases hremove : d₁.removeFile refused cwd p with
    | error _ => exact hwritten
    | ok d₂ => exact hwritten.trans (changedAt_removeFile (hwritten.locate hlocate) hremove)
  · dsimp only
    split
    · split
      · exact hwritten
      · next d₂ hmarked =>
        exact hwritten.trans (changedAt_setReadOnly (hwritten.locate hlocate) hmarked)
    · exact hwritten

variable {t : Text} {encoding : TextEncoding}

/-- Replacing a file changes nothing but the place it is at. -/
theorem changedAt_writeText (hlocate : d.locate cwd p = .ok place) :
    ChangedAt place d (d.writeText refused cwd p t encoding readOnly).2 := by
  have hroom : ChangedAt place d (d.makeRoom refused cwd p).2 := changedAt_makeRoom hlocate
  rw [writeText]
  generalize d.makeRoom refused cwd p = r at hroom
  obtain ⟨e | _, d₁⟩ := r
  · exact hroom
  · exact hroom.trans (changedAt_fill (hroom.locate hlocate))

/-- A path that leads nowhere lets nothing be changed. -/
theorem writeText_of_locate_eq_error {kind : IoKind} (hlocate : d.locate cwd p = .error kind) :
    d.writeText refused cwd p t encoding readOnly = (.error (failure .write p kind), d) := by
  have hfind : d.find cwd p = .error kind := by rw [find, hlocate]; rfl
  have htarget : d.target cwd p = .error kind := by rw [target, hlocate]; rfl
  have hremove : (d.removeFile refused cwd p).toOption.getD d = d := by
    rw [removeFile, hfind]
    cases refused .remove with
    | some _ => rfl
    | none => rfl
  rw [writeText, makeRoom, exists?, hfind]
  show d.fill refused cwd p (encoding.encode t) readOnly = _
  rw [fill, writeFile, htarget]
  show (_, (d.removeFile refused cwd p).toOption.getD d) = _
  rw [hremove]

/-- Replacing a file leaves everything else as it is.  That a path leads nowhere is a case of its own,
as there is no place then that could have changed. -/
theorem node?_writeText {q : Place} (h : d.locate cwd p ≠ .ok q) :
    (d.writeText refused cwd p t encoding readOnly).2.node? q = d.node? q := by
  cases hlocate : d.locate cwd p with
  | error kind => rw [writeText_of_locate_eq_error hlocate]
  | ok place =>
    refine (changedAt_writeText hlocate).others q ?_
    rintro rfl
    exact h hlocate

/-! ## Success

Success says more than that nothing else has changed.  Room is made only if nothing is left at the
place, and so the file that is made there is a new one: its contents and permissions owe nothing to the
file before it, longer or shorter, read-only or not. -/

/-- When room was made, there is nothing left. -/
theorem node?_of_makeRoom (hlocate : d.locate cwd p = .ok place) (hslash : endsInSlash p = false)
    (h : d.makeRoom refused cwd p = (.ok (), d')) : d'.node? place = none := by
  rw [makeRoom] at h
  split at h
  · split at h
    · cases h
    · next d₁ hwritable =>
      have hlocate₁ := (changedAt_setReadOnly hlocate hwritable).locate hlocate
      split at h
      · cases h
      · next d₂ hremove =>
        cases h
        -- The file was found again after its permissions were changed, at the same place.
        obtain ⟨place', contents, permissions, hfind, rfl⟩ := removeFile_eq_ok hremove
        obtain ⟨hlocate', hnode, -⟩ := find_eq_ok_iff.1 hfind
        obtain rfl : place' = place := Except.ok.inj (hlocate'.symm.trans hlocate₁)
        exact node?_erase_self d₁ (ne_root_of_not_directory (d := d₁) (by simp [hnode]))
  · next hexists =>
    cases h
    -- Nothing was found, so nothing is there: without a slash at its end a path finds whatever there
    -- is.
    cases hnode : d.node? place with
    | none => rfl
    | some node =>
      have hfind : d.find cwd p = .ok (place, node) :=
        find_eq_ok_iff.2 ⟨hlocate, hnode, by simp [hslash]⟩
      exact absurd (exists?_iff.2 ⟨_, hfind⟩) hexists

/-- A file that is put where no directory is, is what the path then leads to. -/
theorem find_set (htarget : d.target cwd p = .ok place) (contents : Bytes)
    (permissions : Permissions) :
    (d.set place (.file contents permissions)).find cwd p = .ok (place, .file contents permissions) := by
  obtain ⟨hlocate, hslash, hfile⟩ := target_eq_ok_iff.1 htarget
  have hchanged : ChangedAt place d (d.set place (.file contents permissions)) :=
    changedAt_set fun _ hplace => absurd hplace (hfile _)
  exact find_eq_ok_iff.2 ⟨hchanged.locate hlocate,
    node?_set_self d _ (ne_root_of_not_directory hfile), by simp [hslash]⟩

/-- Where a path leads to a file, a file can be written. -/
theorem target_of_find {permissions : Permissions}
    (hfind : d.find cwd p = .ok (place, .file contents permissions)) : d.target cwd p = .ok place := by
  obtain ⟨hlocate, hnode, hslash⟩ := find_eq_ok_iff.1 hfind
  exact target_eq_ok_iff.2 ⟨hlocate, by simpa [Node.isDirectory] using hslash, by simp [hnode]⟩

/-- Changing who may write to a file leaves its contents alone, and does what it says. -/
theorem find_of_setReadOnly {permissions : Permissions}
    (hfind : d.find cwd p = .ok (place, .file contents permissions))
    (h : d.setReadOnly refused cwd p readOnly = .ok d') :
    ∃ permissions', d'.find cwd p = .ok (place, .file contents permissions') ∧
      permissions'.isReadOnly = readOnly := by
  obtain ⟨place', node, hfind', ⟨hsame, rfl⟩ | rfl⟩ := setReadOnly_eq_ok h
  · rw [hfind] at hfind'
    cases hfind'
    exact ⟨permissions, hfind, hsame⟩
  · rw [hfind] at hfind'
    cases hfind'
    exact ⟨_, find_set (target_of_find hfind) _ _, Permissions.isReadOnly_ofReadOnly readOnly⟩

/-- A file that is made where nothing was is there afterwards, and nobody can write to it exactly if
that was asked for. -/
theorem find_of_fill (hlocate : d.locate cwd p = .ok place) (hnone : d.node? place = none)
    (h : d.fill refused cwd p contents readOnly = (.ok (), d')) :
    ∃ permissions, d'.find cwd p = .ok (place, .file contents permissions) ∧
      permissions.isReadOnly = readOnly := by
  rw [fill] at h
  cases hwrite : d.writeFile refused cwd p contents with
  | mk r d₁ =>
    rw [hwrite] at h
    cases r with
    | error kind => cases h
    | ok _ =>
      obtain ⟨place', htarget, rfl⟩ := writeFile_eq_ok hwrite
      obtain ⟨hlocate', -, -⟩ := target_eq_ok_iff.1 htarget
      obtain rfl : place' = place := Except.ok.inj (hlocate'.symm.trans hlocate)
      -- Nothing was there, and so the permissions are those of a new file.
      have hfind := find_set htarget contents .fresh
      rw [hnone] at h
      dsimp only [Option.map_none, Option.getD_none] at h
      cases readOnly with
      | false =>
        cases h
        exact ⟨.fresh, hfind, rfl⟩
      | true =>
        rw [if_pos rfl] at h
        split at h
        · cases h
        · next d₂ hmarked =>
          cases h
          exact find_of_setReadOnly hfind hmarked

/-- A file that was made was made where a file can be. -/
theorem target_of_fill (h : d.fill refused cwd p contents readOnly = (.ok (), d')) :
    ∃ place, d.target cwd p = .ok place := by
  rw [fill, writeFile] at h
  cases htarget : d.target cwd p with
  | ok place => exact ⟨place, rfl⟩
  | error kind =>
    rw [htarget] at h
    cases h

/-- **A file that was replaced holds the new text**, and nobody can write to it exactly if that was
asked for, whatever was there before. -/
theorem find_of_writeText (h : d.writeText refused cwd p t encoding readOnly = (.ok (), d')) :
    ∃ place permissions, d.locate cwd p = .ok place ∧
      d'.find cwd p = .ok (place, .file (encoding.encode t) permissions) ∧
      permissions.isReadOnly = readOnly := by
  cases hlocate : d.locate cwd p with
  | error kind =>
    rw [writeText_of_locate_eq_error hlocate] at h
    cases h
  | ok place =>
    have hchanged : ChangedAt place d (d.makeRoom refused cwd p).2 := changedAt_makeRoom hlocate
    rw [writeText] at h
    -- The disk with room for the file is the one that the path is followed on for the second step.
    cases hroom : d.makeRoom refused cwd p with
    | mk r d₁ =>
      rw [hroom] at h hchanged
      cases r with
      | error e => cases h
      | ok _ =>
        obtain ⟨_, htarget⟩ := target_of_fill h
        obtain ⟨-, hslash, -⟩ := target_eq_ok_iff.1 htarget
        have hnone := node?_of_makeRoom hlocate hslash hroom
        obtain ⟨permissions, hfind, hreadOnly⟩ := find_of_fill (hchanged.locate hlocate) hnone h
        exact ⟨place, permissions, rfl, hfind, hreadOnly⟩

/-! ## Where nothing is refused

The converse: without refusals of their own, the operations fail only for reasons that the disk gives,
and there are none where a file can be.  This is what keeps the theorems above from being about failures
only. -/

/-- Permissions can be changed of whatever there is. -/
theorem setReadOnly_of_find {node : Node} (hfind : d.find cwd p = .ok (place, node))
    (readOnly : Bool) : ∃ d', d.setReadOnly Refusals.none cwd p readOnly = .ok d' := by
  rw [setReadOnly, hfind]
  dsimp only [Refusals.none]
  split
  · exact ⟨_, rfl⟩
  · exact ⟨_, rfl⟩

/-- Room can be made, whether there is a file already or not. -/
theorem makeRoom_of_target (htarget : d.target cwd p = .ok place) :
    ∃ d', d.makeRoom Refusals.none cwd p = (.ok (), d') := by
  obtain ⟨hlocate, -, hfile⟩ := target_eq_ok_iff.1 htarget
  rw [makeRoom]
  split
  · next hexists =>
    obtain ⟨⟨place', node⟩, hfind⟩ := exists?_iff.1 hexists
    obtain ⟨hlocate', hnode, -⟩ := find_eq_ok_iff.1 hfind
    obtain rfl : place' = place := Except.ok.inj (hlocate'.symm.trans hlocate)
    cases node with
    | directory permissions => exact absurd hnode (hfile permissions)
    | file contents permissions =>
      obtain ⟨d₁, hwritable⟩ := setReadOnly_of_find hfind false
      -- Still a file, and still there, once everybody may write to it.
      obtain ⟨_, hfind₁, -⟩ := find_of_setReadOnly hfind hwritable
      have hremove : d₁.removeFile Refusals.none cwd p = .ok (d₁.erase place') := by
        rw [removeFile, hfind₁]
        rfl
      refine ⟨d₁.erase place', ?_⟩
      rw [hwritable]
      dsimp only
      rw [hremove]
  · exact ⟨d, rfl⟩

/-- A file can be made where a file can be. -/
theorem fill_of_target (htarget : d.target cwd p = .ok place) :
    (d.fill Refusals.none cwd p contents readOnly).1 = .ok () := by
  have hfind := find_set htarget contents (((d.node? place).map Node.permissions).getD .fresh)
  obtain ⟨d₁, hmarked⟩ := setReadOnly_of_find hfind true
  rw [fill, writeFile, htarget]
  dsimp only [Refusals.none] at hmarked ⊢
  cases readOnly with
  | false => rfl
  | true =>
    rw [if_pos rfl, hmarked]

/-- Where a file can be, it can be replaced, if nothing is refused. -/
theorem writeText_of_target (htarget : d.target cwd p = .ok place) :
    (d.writeText Refusals.none cwd p t encoding readOnly).1 = .ok () := by
  obtain ⟨hlocate, hslash, -⟩ := target_eq_ok_iff.1 htarget
  obtain ⟨d₁, hroom⟩ := makeRoom_of_target htarget
  have hchanged : ChangedAt place d (d.makeRoom Refusals.none cwd p).2 := changedAt_makeRoom hlocate
  rw [hroom] at hchanged
  have hnone := node?_of_makeRoom hlocate hslash hroom
  have htarget₁ : d₁.target cwd p = .ok place :=
    target_eq_ok_iff.2 ⟨hchanged.locate hlocate, hslash, by simp [hnone]⟩
  rw [writeText, hroom]
  exact fill_of_target htarget₁

end Disk
end Templating
