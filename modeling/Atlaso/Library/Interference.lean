import Atlaso.Library.FilePrograms

/-!
A program on a disk that others change between its steps.

What such a program may do next depends on what it saw last. `Isolated` says which updates
it may make, given its last observation, however the disk changes in between.
-/

namespace Atlaso.Library.Interference

open FilePrograms

variable {Disk Kind Result Next : Type}

/-- Whatever disks that satisfy `assume` the program observes, it makes only updates that
`allowed` permits after its last observation, and ends only as `post` permits. -/
def Isolated (assume : Disk → Prop) (allowed : Disk → Kind → (Disk → Disk) → Prop)
    (post : Disk → Result → Prop) : Disk → Program Disk Kind Result → Prop
  | seen, .done result => post seen result
  | _, .observe next => ∀ disk, assume disk → Isolated assume allowed post disk (next disk)
  | seen, .update kind effect next =>
    allowed seen kind effect ∧ Isolated assume allowed post seen (next true)

variable {assume : Disk → Prop} {allowed : Disk → Kind → (Disk → Disk) → Prop}

variable {program : Program Disk Kind Result} {seen : Disk}

theorem isolated_weaken {post after : Disk → Result → Prop}
    (isolated : Isolated assume allowed post seen program)
    (weaker : ∀ seen result, post seen result → after seen result) :
    Isolated assume allowed after seen program := by
  induction program generalizing seen with
  | done result => exact weaker seen result isolated
  | observe next induction =>
    exact fun disk assumed => induction disk (isolated disk assumed)
  | update kind effect next induction =>
    exact ⟨isolated.1, induction true isolated.2⟩

theorem isolated_bind {post : Disk → Next → Prop} {next : Result → Program Disk Kind Next}
    (isolated : Isolated assume allowed (fun seen result => Isolated assume allowed post seen (next
      result)) seen program) :
    Isolated assume allowed post seen (program.bind next) := by
  induction program generalizing seen with
  | done result => exact isolated
  | observe after induction =>
    exact fun disk assumed => induction disk (isolated disk assumed)
  | update kind effect after induction =>
    exact ⟨isolated.1, induction true isolated.2⟩

end Atlaso.Library.Interference
