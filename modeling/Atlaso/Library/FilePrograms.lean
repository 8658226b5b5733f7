import Mathlib.Logic.Relation

/-!
Programs whose only effects are reads of a disk and atomic updates of it.

A program is a tree: it is finished, it reads the disk, or it updates the disk in one
atomic step and continues with whether the update was reported as done. The same tree
is run to its end without faults, stopped after any of its steps, or run with failing
updates. `Kind` names the place of an update in the program.
-/

namespace Atlaso.Library.FilePrograms

inductive Program (Disk Kind Result : Type) where
  | done (result : Result)
  | observe (next : Disk → Program Disk Kind Result)
  | update (kind : Kind) (effect : Disk → Disk) (next : Bool → Program Disk Kind Result)

namespace Program

variable {Disk Kind Result Next : Type}

def bind (program : Program Disk Kind Result) (next : Result → Program Disk Kind Next) :
    Program Disk Kind Next :=
  match program with
  | .done result => next result
  | .observe after => .observe fun disk => (after disk).bind next
  | .update kind effect after => .update kind effect fun reported => (after reported).bind next

def run : Program Disk Kind Result → Disk → Result × Disk
  | .done result, disk => (result, disk)
  | .observe next, disk => (next disk).run disk
  | .update _ effect next, disk => (next true).run (effect disk)

section

variable (program : Program Disk Kind Result) (next : Result → Program Disk Kind Next)
include program next

theorem run_bind (disk : Disk) :
    (program.bind next).run disk = (next (program.run disk).1).run (program.run disk).2 := by
  induction program generalizing disk with
  | done result => rfl
  | observe after induction => exact induction disk disk
  | update kind effect after induction => exact induction true (effect disk)

def trace : Program Disk Kind Result → Disk → List Disk
  | .done _, _ => []
  | .observe next, disk => (next disk).trace disk
  | .update _ effect next, disk => effect disk :: (next true).trace (effect disk)

theorem trace_bind (disk : Disk) :
    (program.bind next).trace disk =
      program.trace disk ++ (next (program.run disk).1).trace (program.run disk).2 := by
  induction program generalizing disk with
  | done result => rfl
  | observe after induction => exact induction disk disk
  | update kind effect after induction =>
    exact congrArg (effect disk :: ·) (induction true (effect disk))

theorem bind_assoc {Last : Type} (last : Next → Program Disk Kind Last) :
    (program.bind next).bind last = program.bind fun result => (next result).bind last := by
  induction program with
  | done result => rfl
  | observe after induction =>
    simp only [bind]
    congr 1
    funext disk
    exact induction disk
  | update kind effect after induction =>
    simp only [bind]
    congr 1
    funext reported
    exact induction reported

end

end Program

/-! ### Faults -/

/-- What can happen to an update: it is applied; it fails with no effect; or it is
applied and then reported as failed. -/
inductive Outcome where
  | applied | refused | appliedLate
  deriving DecidableEq, Repr

namespace Outcome

variable {Disk : Type}

def change (outcome : Outcome) (effect : Disk → Disk) (disk : Disk) : Disk :=
  match outcome with
  | .applied | .appliedLate => effect disk
  | .refused => disk

def reported : Outcome → Bool
  | .applied => true
  | .refused | .appliedLate => false

end Outcome

variable {Disk Kind Result Next : Type}

/-- An update may always succeed; `faults` says which failures a kind of update has. -/
def Possible (faults : Kind → Outcome → Prop) (kind : Kind) (outcome : Outcome) : Prop :=
  outcome = .applied ∨ faults kind outcome

inductive Step (faults : Kind → Outcome → Prop) :
    Program Disk Kind Result × Disk → Program Disk Kind Result × Disk → Prop
  | observe (next : Disk → Program Disk Kind Result) (disk : Disk) :
      Step faults (.observe next, disk) (next disk, disk)
  | update (kind : Kind) (effect : Disk → Disk) (next : Bool → Program Disk Kind Result)
      (disk : Disk) (outcome : Outcome) (possible : Possible faults kind outcome) :
      Step faults (.update kind effect next, disk)
        (next outcome.reported, outcome.change effect disk)

/-- Every run of the program from the disk, with any possible faults, changes the disk
only as `guarantee` allows and ends only as `post` allows. -/
def Safe (faults : Kind → Outcome → Prop) (guarantee : Disk → Disk → Prop)
    (post : Result → Disk → Prop) : Program Disk Kind Result → Disk → Prop
  | .done result, disk => post result disk
  | .observe next, disk => Safe faults guarantee post (next disk) disk
  | .update kind effect next, disk =>
    ∀ outcome, Possible faults kind outcome →
      guarantee disk (outcome.change effect disk) ∧
        Safe faults guarantee post (next outcome.reported) (outcome.change effect disk)

variable {faults : Kind → Outcome → Prop} {guarantee : Disk → Disk → Prop}

variable {program : Program Disk Kind Result} {disk : Disk}

theorem safe_weaken {post after : Result → Disk → Prop}
    (safe : Safe faults guarantee post program disk)
    (weaker : ∀ result disk, post result disk → after result disk) :
    Safe faults guarantee after program disk := by
  induction program generalizing disk with
  | done result => exact weaker result disk safe
  | observe next induction => exact induction disk safe
  | update kind effect next induction =>
    intro outcome possible
    obtain ⟨allowed, rest⟩ := safe outcome possible
    exact ⟨allowed, induction _ rest⟩

theorem safe_bind {post : Next → Disk → Prop} {next : Result → Program Disk Kind Next}
    (safe : Safe faults guarantee (fun result disk => Safe faults guarantee post (next result) disk)
      program disk) :
    Safe faults guarantee post (program.bind next) disk := by
  induction program generalizing disk with
  | done result => exact safe
  | observe after induction => exact induction disk safe
  | update kind effect after induction =>
    intro outcome possible
    obtain ⟨allowed, rest⟩ := safe outcome possible
    exact ⟨allowed, induction _ rest⟩

theorem safe_step {post : Result → Disk → Prop} {later : Program Disk Kind Result} {after : Disk}
    (safe : Safe faults guarantee post program disk)
    (step : Step faults (program, disk) (later, after)) :
    (after = disk ∨ guarantee disk after) ∧ Safe faults guarantee post later after := by
  cases step with
  | observe next => exact ⟨.inl rfl, safe⟩
  | update kind effect next _ outcome possible =>
    obtain ⟨allowed, rest⟩ := safe outcome possible
    exact ⟨.inr allowed, rest⟩

/-! ### Steps that leave the disk -/

inductive Idles (disk : Disk) : Program Disk Kind Result → Program Disk Kind Result → Prop
  | observe (next : Disk → Program Disk Kind Result) : Idles disk (.observe next) (next disk)
  | update {kind : Kind} {effect : Disk → Disk} (next : Bool → Program Disk Kind Result)
      (keeps : effect disk = disk) : Idles disk (.update kind effect next) (next true)

theorem idles_step {later : Program Disk Kind Result} (idles : Idles disk program later) :
    Step faults (program, disk) (later, disk) := by
  cases idles with
  | observe next => exact .observe next disk
  | @update kind effect next keeps =>
    have step : Step faults (.update kind effect next, disk) (next true, effect disk) :=
      .update kind effect next disk .applied (.inl rfl)
    rwa [keeps] at step

theorem idles_before {later : Program Disk Kind Result}
    (idles : Relation.ReflTransGen (Idles disk) program later)
    (next : Result → Program Disk Kind Next) :
    Relation.ReflTransGen (Idles disk) (program.bind next) (later.bind next) := by
  induction idles with
  | refl => exact .refl
  | tail _ step induction =>
    refine induction.tail ?_
    cases step with
    | observe after => exact .observe fun disk => (after disk).bind next
    | update after keeps => exact .update (fun reported => (after reported).bind next) keeps

theorem idles_bind {result : Result}
    (idles : Relation.ReflTransGen (Idles disk) program (.done result))
    (next : Result → Program Disk Kind Next) :
    Relation.ReflTransGen (Idles disk) (program.bind next) (next result) :=
  idles_before idles next

end Atlaso.Library.FilePrograms
