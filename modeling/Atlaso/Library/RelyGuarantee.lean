import Atlaso.Library.FilePrograms

/-!
A program among others that change the disk between its steps.

`rely` is what the others may do from one step of the program to the next, `guarantee` what
each update of the program does. Without others, a program that proceeds is one whose run
ends as it may and whose every update is as guaranteed.
-/

namespace Atlaso.Library.RelyGuarantee

open FilePrograms

variable {Disk Kind Result Next : Type}

def Proceeds (rely guarantee : Disk → Disk → Prop) (post : Result → Disk → Prop) :
    Program Disk Kind Result → Disk → Prop
  | .done result, disk => ∀ later, rely disk later → post result later
  | .observe next, disk =>
    ∀ later, rely disk later → Proceeds rely guarantee post (next later) later
  | .update _ effect next, disk => ∀ later, rely disk later →
      guarantee later (effect later) ∧ Proceeds rely guarantee post (next true) (effect later)

variable {rely guarantee : Disk → Disk → Prop}

variable {post : Result → Disk → Prop} {program : Program Disk Kind Result} {disk : Disk}

/-- What the others do before the next step is part of what they may do. -/
theorem proceeds_weaken {after : Result → Disk → Prop}
    (proceeds : Proceeds rely guarantee post program disk)
    (weaker : ∀ result disk, post result disk → after result disk) :
    Proceeds rely guarantee after program disk := by
  induction program generalizing disk with
  | done result => exact fun later changed => weaker result later (proceeds later changed)
  | observe next induction =>
    exact fun later changed => induction later (proceeds later changed)
  | update kind effect next induction =>
    intro later changed
    obtain ⟨allowed, rest⟩ := proceeds later changed
    exact ⟨allowed, induction true rest⟩

theorem proceeds_bind {post : Next → Disk → Prop} {next : Result → Program Disk Kind Next}
    (refl : ∀ disk, rely disk disk) (proceeds : Proceeds rely guarantee (fun result disk => Proceeds
      rely guarantee post (next result) disk) program disk) :
    Proceeds rely guarantee post (program.bind next) disk := by
  induction program generalizing disk with
  | done result => exact proceeds disk (refl disk)
  | observe after induction =>
    exact fun later changed => induction later (proceeds later changed)
  | update kind effect after induction =>
    intro later changed
    obtain ⟨allowed, rest⟩ := proceeds later changed
    exact ⟨allowed, induction true rest⟩

theorem proceeds_run (refl : ∀ disk, rely disk disk)
    (proceeds : Proceeds rely guarantee post program disk) :
    post (program.run disk).1 (program.run disk).2 := by
  induction program generalizing disk with
  | done result => exact proceeds disk (refl disk)
  | observe next induction => exact induction disk (proceeds disk (refl disk))
  | update kind effect next induction => exact induction true (proceeds disk (refl disk)).2

theorem proceeds_trace {after : Disk} (refl : ∀ disk, rely disk disk)
    (proceeds : Proceeds rely guarantee post program disk) (passed : after ∈ program.trace disk) :
    ∃ before, guarantee before after := by
  induction program generalizing disk with
  | done result => simp [Program.trace] at passed
  | observe next induction => exact induction disk (proceeds disk (refl disk)) passed
  | update kind effect next induction =>
    obtain ⟨allowed, rest⟩ := proceeds disk (refl disk)
    rcases List.mem_cons.mp passed with rfl | later
    · exact ⟨disk, allowed⟩
    · exact induction true rest later

end Atlaso.Library.RelyGuarantee
