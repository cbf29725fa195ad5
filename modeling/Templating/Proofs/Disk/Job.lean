import Templating.Proofs.Disk.Replacement
import Templating.Proofs.Include.Memory

/-!
# Jobs that share a disk

A job builds a template and replaces its destination by the output.  Jobs that follow each other on one
disk find what the earlier ones left behind: outputs, some of them read-only, which may be templates,
included files or destinations of later jobs.

## What is here

* `Disk.Job` and `Disk.turns`: a turn is a job with the disk before and after it.
* `Disk.Turn.Sound` says what a turn does to the disk: it writes its output or changes nothing, and
  nothing but its destination.
* `Disk.turns_sound`: all turns are sound, and in the end every place holds what the last turn that
  wrote to it left there.
-/

set_option autoImplicit false

namespace Templating

/-! ## Outputs

An output is made in two steps that can fail: the template becomes a program, and the program is run.
What it puts out and in which encoding are settled by then, before anything is written. -/

namespace FileSystem

variable {fs : FileSystem} {p : Path} {encoding : Option TextEncoding} {text : Text}
  {used : TextEncoding}

/-- A file is read in the encoding that was asked for, or in the one that it tells. -/
theorem encoding_of_readText (h : fs.readText p encoding = .ok (text, used)) :
    ∃ bytes, fs.read p = .ok bytes ∧ encoding.or (TextEncoding.detect? bytes) = some used := by
  rw [readText] at h
  cases hread : fs.read p with
  | error cause =>
    rw [hread] at h
    cases h
  | ok bytes =>
    rw [hread] at h
    dsimp only at h
    refine ⟨bytes, rfl, ?_⟩
    split at h
    · cases h
    · next found hfound =>
      split at h
      · cases h
      · cases h
        exact hfound

end FileSystem

namespace Generator

variable {g : Generator} {serial : Nat} {template : Path} {encoding : Option TextEncoding}
  {run : Program → Except String Text}

/-- A template has an output exactly if its program can be made and runs to its end. -/
theorem source_eq_ok_iff {s : GeneratedSource} :
    (g.source serial template encoding run).result = .ok s ↔
      ∃ p, (g.program serial template encoding).result = .ok p ∧ run p = .ok s.text ∧
        p.encoding = s.encoding := by
  refine bind_eq_ok.trans (exists_congr fun p => and_congr_right fun _ => ?_)
  cases run p with
  | error cause => exact ⟨nofun, nofun⟩
  | ok text =>
    constructor
    · rintro ⟨⟩
      exact ⟨rfl, rfl⟩
    · rintro ⟨htext, hencoding⟩
      rw [Except.ok.inj htext, hencoding]

/-- Otherwise there is the error of the build, or else that of the run. -/
theorem source_eq_error_iff {e : BuildError} :
    (g.source serial template encoding run).result = .error e ↔
      (g.program serial template encoding).result = .error e ∨
        ∃ p cause, (g.program serial template encoding).result = .ok p ∧ run p = .error cause ∧
          e = .execution p.template cause := by
  refine bind_eq_error.trans (or_congr_right ?_)
  constructor
  · rintro ⟨p, hp, h⟩
    split at h
    · cases h
    · next cause hcause => exact ⟨p, cause, hp, hcause, (Except.error.inj h).symm⟩
  · rintro ⟨p, cause, hp, hcause, rfl⟩
    exact ⟨p, hp, by rw [hcause]⟩

/-- The output of a template has the encoding that was asked for, or else that of the template. -/
theorem encoding_of_source {s : GeneratedSource}
    (h : (g.source serial template encoding run).result = .ok s) :
    ∃ path bytes, g.absolute template = .ok path ∧ g.files.read path = .ok bytes ∧
      encoding.or (TextEncoding.detect? bytes) = some s.encoding := by
  obtain ⟨p, hp, -, hencoding⟩ := source_eq_ok_iff.1 h
  obtain ⟨t, ht, hdocument⟩ := bind_eq_ok.1 hp
  obtain ⟨plan, -, rfl⟩ := map_eq_ok.1 hdocument
  rw [result_expand] at ht
  obtain ⟨path, hpath, ht⟩ := bind_eq_ok.1 ht
  obtain ⟨⟨text, used⟩, hread, ht⟩ := bind_eq_ok.1 ht
  obtain ⟨d, -, ht⟩ := bind_eq_ok.1 ht
  cases ht
  obtain ⟨bytes, hbytes, hused⟩ := FileSystem.encoding_of_readText hread
  exact ⟨path, bytes, hpath, hbytes, hused.trans (congrArg some hencoding)⟩

end Generator

namespace Disk

/-! ## Jobs

A job says all that is asked for.  How its program runs is part of the job: it may put out any text or
fail, and the same program may do one in one job and the other in the next.  So are the operations that
are refused to it. -/

/-- A template to be built, and the file its output goes to. -/
structure Job where
  toolsVersion : Version
  banner : Bool
  template : Path
  destination : Path
  encoding : Option TextEncoding
  /-- What the program of the template puts out, or why it fails. -/
  run : Program → Except String Text
  readOnly : Bool
  /-- What is refused while the output is written. -/
  refused : Refusals

/-- A job with the disk before it, its result and the disk after it. -/
structure Turn where
  job : Job
  start : Disk
  result : Except BuildError Unit
  finish : Disk

namespace Job

/-- What builds the templates of a job on a disk. -/
def generator (job : Job) (cwd : Place) (d : Disk) : Generator :=
  d.generator cwd job.toolsVersion job.banner

/-- The program that a job makes on a disk. -/
def program (job : Job) (cwd : Place) (d : Disk) : Except BuildError Program :=
  ((job.generator cwd d).program 0 job.template job.encoding).result

/-- The output of a job on a disk. -/
def output (job : Job) (cwd : Place) (d : Disk) : Except BuildError GeneratedSource :=
  ((job.generator cwd d).source 0 job.template job.encoding job.run).result

/-- A job as it goes on a disk. -/
def turn (job : Job) (cwd : Place) (d : Disk) : Turn :=
  let written := d.generate job.refused (job.generator cwd d) cwd job.template job.destination
    job.encoding job.run job.readOnly
  ⟨job, d, written.1, written.2⟩

end Job

/-- Some jobs as they go one after the other, each on the disk that the one before it left. -/
def turns (cwd : Place) : List Job → Disk → List Turn
  | [], _ => []
  | job :: jobs, d => job.turn cwd d :: turns cwd jobs (job.turn cwd d).finish

/-- The disk that some jobs leave. -/
def after (cwd : Place) : List Job → Disk → Disk
  | [], d => d
  | job :: jobs, d => after cwd jobs (job.turn cwd d).finish

/-! ## One turn

A turn is looked at by the disk before and the disk after it.  It is cut in two where the output is
there: up to that point nothing is changed, and from there on only the destination is. -/

variable {cwd : Place} {job : Job} {d : Disk}

/-- What a turn does to the disk. -/
structure Turn.Sound (cwd : Place) (turn : Turn) : Prop where
  /-- There is an output exactly if the program is made and runs to its end. -/
  output : ∀ s, turn.job.output cwd turn.start = .ok s ↔
    ∃ p, turn.job.program cwd turn.start = .ok p ∧ turn.job.run p = .ok s.text ∧
      p.encoding = s.encoding
  /-- Otherwise it is the making of the program that fails, or its run. -/
  noOutput : ∀ e, turn.job.output cwd turn.start = .error e ↔
    turn.job.program cwd turn.start = .error e ∨
      ∃ p cause, turn.job.program cwd turn.start = .ok p ∧ turn.job.run p = .error cause ∧
        e = .execution p.template cause
  /-- After a success the destination is a file with the output in it, which nobody can write to
  exactly if the job asked for that. -/
  written : turn.result = .ok () → ∃ s place permissions,
    turn.job.output cwd turn.start = .ok s ∧
    turn.finish.find cwd turn.job.destination =
      .ok (place, .file (s.encoding.encode s.text) permissions) ∧
    permissions.isReadOnly = turn.job.readOnly
  /-- The encoding is that of the job, or else that of the template. -/
  encoded : ∀ s, turn.job.output cwd turn.start = .ok s → ∃ path bytes,
    (turn.job.generator cwd turn.start).absolute turn.job.template = .ok path ∧
    turn.start.fileSystem.read path = .ok bytes ∧
    turn.job.encoding.or (TextEncoding.detect? bytes) = some s.encoding
  /-- Without an output nothing is changed. -/
  unbuilt : ∀ e, turn.job.output cwd turn.start = .error e →
    turn.result = .error e ∧ turn.finish = turn.start
  /-- Nothing but the destination is changed. -/
  others : ∀ place, turn.start.locate cwd turn.job.destination ≠ .ok place →
    turn.finish.node? place = turn.start.node? place
  /-- If nothing is refused, an output is written wherever a file can be. -/
  succeeds : turn.job.refused = Refusals.none →
    (∃ s, turn.job.output cwd turn.start = .ok s) →
    (∃ place, turn.start.target cwd turn.job.destination = .ok place) → turn.result = .ok ()

/-- Without an output the disk stays as it is. -/
theorem Job.turn_of_output_eq_error {e : BuildError} (h : job.output cwd d = .error e) :
    job.turn cwd d = ⟨job, d, .error e, d⟩ := by
  rw [turn, generate]
  change (Generator.source ..).result = _ at h
  rw [h]

/-- With one it is written to the destination. -/
theorem Job.turn_of_output_eq_ok {s : GeneratedSource} (h : job.output cwd d = .ok s) :
    job.turn cwd d =
      let written := d.writeText job.refused cwd job.destination s.text s.encoding job.readOnly
      ⟨job, d, written.1, written.2⟩ := by
  rw [turn, generate]
  change (Generator.source ..).result = _ at h
  rw [h]

/-- Every turn is sound, whatever is on the disk. -/
theorem Job.sound_turn (job : Job) (cwd : Place) (d : Disk) : (job.turn cwd d).Sound cwd := by
  have hok (s : GeneratedSource) : job.output cwd d = .ok s ↔ _ := Generator.source_eq_ok_iff
  have herror (e : BuildError) : job.output cwd d = .error e ↔ _ := Generator.source_eq_error_iff
  have hencoded : ∀ s, job.output cwd d = .ok s → _ := fun s h => Generator.encoding_of_source h
  cases houtput : job.output cwd d with
  | error e =>
    rw [turn_of_output_eq_error houtput]
    refine ⟨hok, herror, nofun, hencoded, fun e' h => ?_, fun _ _ => rfl, fun _ ⟨s, hs⟩ _ => ?_⟩
    · dsimp only at h
      rw [houtput] at h
      exact ⟨congrArg Except.error (Except.error.inj h), rfl⟩
    · dsimp only at hs
      rw [houtput] at hs
      cases hs
  | ok s =>
    rw [turn_of_output_eq_ok houtput]
    refine ⟨hok, herror, fun h => ?_, hencoded, fun e h => ?_, fun place h => node?_writeText h,
      fun hrefused _ ⟨place, htarget⟩ => ?_⟩
    · obtain ⟨place, permissions, -, hfind, hreadOnly⟩ := find_of_writeText (Prod.ext h rfl)
      exact ⟨s, place, permissions, houtput, hfind, hreadOnly⟩
    · dsimp only at h
      rw [houtput] at h
      cases h
    · dsimp only at hrefused htarget ⊢
      rw [hrefused]
      exact writeText_of_target htarget

/-! ## All turns

Each turn starts on the disk that the one before it left, and being sound does not depend on what is
there.  So the turns are followed one by one, and a place keeps what it holds until a turn writes to it. -/

/-- Every turn of some jobs is sound. -/
theorem sound_of_mem_turns {jobs : List Job} {turn : Turn} (h : turn ∈ turns cwd jobs d) :
    turn.Sound cwd := by
  induction jobs generalizing d with
  | nil => exact absurd h List.not_mem_nil
  | cons job jobs ih =>
    rcases List.mem_cons.1 h with rfl | h
    · exact job.sound_turn cwd d
    · exact ih h

/-- Whether the destination of a turn is at a place. -/
def Turn.writesTo (cwd : Place) (place : Place) (turn : Turn) : Bool :=
  (turn.start.locate cwd turn.job.destination).toOption = some place

/-- A turn that writes elsewhere leaves a place alone. -/
theorem Turn.Sound.node?_finish {turn : Turn} (h : turn.Sound cwd) {place : Place}
    (hplace : turn.writesTo cwd place = false) :
    turn.finish.node? place = turn.start.node? place := by
  refine h.others place fun hlocate => ?_
  rw [writesTo, hlocate] at hplace
  simp [Except.toOption] at hplace

/-- What is at a place after some turns is what the last turn that wrote to it left there. -/
theorem node?_after (jobs : List Job) (d : Disk) (place : Place) :
    (after cwd jobs d).node? place =
      match ((turns cwd jobs d).filter (Turn.writesTo cwd place)).getLast? with
      | none => d.node? place
      | some turn => turn.finish.node? place := by
  induction jobs generalizing d with
  | nil => rfl
  | cons job jobs ih =>
    -- Either a later turn writes to the place, or the first one is the last that does.
    rw [after, ih, turns]
    cases hwrites : (job.turn cwd d).writesTo cwd place with
    | true =>
      rw [List.filter_cons_of_pos hwrites, List.getLast?_cons]
      cases ((turns cwd jobs (job.turn cwd d).finish).filter (Turn.writesTo cwd place)).getLast? with
      | none => rfl
      | some turn => rfl
    | false =>
      rw [List.filter_cons_of_neg (Bool.eq_false_iff.1 hwrites)]
      cases ((turns cwd jobs (job.turn cwd d).finish).filter (Turn.writesTo cwd place)).getLast? with
      | none => exact (job.sound_turn cwd d).node?_finish hwrites
      | some turn => rfl

/-- **Jobs write what they put out, and nothing else.**  This is said of every turn that some jobs take
on one disk, whatever was on the disk in the beginning, and of the disk that they leave. -/
theorem turns_sound (cwd : Place) (jobs : List Job) (d : Disk) :
    (∀ turn ∈ turns cwd jobs d, turn.Sound cwd) ∧
      ∀ place, (after cwd jobs d).node? place =
        match ((turns cwd jobs d).filter (Turn.writesTo cwd place)).getLast? with
        | none => d.node? place
        | some turn => turn.finish.node? place :=
  ⟨fun _ => sound_of_mem_turns, node?_after jobs d⟩

end Disk
end Templating
