import Mathlib.Data.Nat.Bitwise
import MicrosandboxRb.Lib.ForkTree

/-!
# Process identity

The fork-aware parts of the extension (`runtime.rs`) tag what they build with the identity of the
process that built it: the pid, which may be reused, and a fork generation, which the `atfork`
handler raises by one in every child.

## Main results

* `ProcessIdentity.eq_iff_toBits_eq`: the comparison of two identities and the comparison of
  their packed words agree;
* `ident_injOn`: along a branch of fewer than `2 ^ 32` forks no two processes have the same
  identity, whatever pids they were given;
* `exists_ident_eq_ancestor`: `2 ^ 32` nested forks wrap the generation, and a descendant that then
  gets the pid of its ancestor has the identity of this ancestor.
-/

namespace MicrosandboxRb

open ForkTree

/-- Which process this is: the pid and a fork generation. -/
structure ProcessIdentity where
  /-- The process id. The system may hand it out again. -/
  pid : UInt32
  /-- How many forks, counted from the process that loaded the extension, led to the process. -/
  generation : UInt32
deriving DecidableEq, Repr

namespace ProcessIdentity

/-- An identity from its two halves. -/
def fromParts (pid generation : UInt32) : ProcessIdentity := { pid, generation }

/-- Both halves in one word, for a lock-free atomic record. -/
def toBits (i : ProcessIdentity) : UInt64 :=
  (i.pid.toUInt64 <<< 32) ||| i.generation.toUInt64

/-- The identity of a child: the pid the system gave it, and the generation of the parent raised
by the `atfork` handler (`on_fork_child`). -/
def onForkChild (parent : ProcessIdentity) (pid : UInt32) : ProcessIdentity :=
  { pid, generation := parent.generation + 1 }

/-- The two halves of the word. -/
theorem toBits_toNat (i : ProcessIdentity) :
    i.toBits.toNat = i.pid.toNat * 2 ^ 32 + i.generation.toNat := by
  have hpid := i.pid.toNat_lt
  have hgen := i.generation.toNat_lt
  have hshift : i.pid.toNat <<< 32 < 2 ^ 64 := by
    rw [Nat.shiftLeft_eq]; omega
  simp only [toBits, UInt64.toNat_or, UInt64.toNat_shiftLeft, UInt32.toNat_toUInt64,
    UInt64.reduceToNat, Nat.reduceMod, Nat.mod_eq_of_lt hshift]
  rw [← Nat.shiftLeft_add_eq_or_of_lt hgen, Nat.shiftLeft_eq]

/-- The word determines the identity. -/
theorem toBits_injective : Function.Injective toBits := by
  intro i j h
  have hnat := congrArg UInt64.toNat h
  rw [toBits_toNat, toBits_toNat] at hnat
  have hi := i.generation.toNat_lt
  have hj := j.generation.toNat_lt
  have hpid : i.pid = j.pid := UInt32.toNat_inj.mp (by omega)
  have hgen : i.generation = j.generation := UInt32.toNat_inj.mp (by omega)
  cases i; cases j; simp_all

/-- The two comparisons every ownership decision uses agree. -/
theorem eq_iff_toBits_eq (i j : ProcessIdentity) : i = j ↔ i.toBits = j.toBits :=
  toBits_injective.eq_iff.symm

/-- The word of a process with a pid is never the word `0` that stands for "none". -/
theorem toBits_ne_zero {i : ProcessIdentity} (h : i.pid ≠ 0) : i.toBits ≠ 0 := by
  intro hbits
  have hnat := congrArg UInt64.toNat hbits
  rw [toBits_toNat, UInt64.toNat_zero] at hnat
  exact h (UInt32.toNat_inj.mp (by rw [UInt32.toNat_zero]; omega))

end ProcessIdentity

section Lineage

variable {M : Type}

/-- The process tree of the extension: the root loaded it, with generation `0`; every fork runs the
`atfork` handler, and the child gets any pid but `0`. -/
def processSystem (init : Proc ProcessIdentity → M)
    (step : Proc ProcessIdentity → M → M → Prop) (child : Proc ProcessIdentity → M → M) :
    System ProcessIdentity M where
  root i := i.generation = 0 ∧ i.pid ≠ 0
  init := init
  step := step
  forked parent i := i = parent.onForkChild i.pid ∧ i.pid ≠ 0
  child := child

variable {init : Proc ProcessIdentity → M} {step : Proc ProcessIdentity → M → M → Prop}
  {child : Proc ProcessIdentity → M → M} {b : Branch ProcessIdentity M}

/-- No process of a branch has pid `0`. -/
theorem pid_ne_zero (h : (processSystem init step child).Run b) :
    ∀ p ∈ b.lineage, p.ident.pid ≠ 0 := by
  induction h with
  | root hroot =>
    intro p hp
    obtain rfl : p = _ := by simpa [Branch.lineage] using hp
    exact hroot.2
  | step _ _ ih => exact ih
  | fork _ hident _ ih =>
    intro p hp
    rcases Branch.mem_lineage.mp hp with rfl | hp
    · exact hident.2
    · exact ih p hp

/-- The generation of a process is the number of its ancestors, up to a wrap at `2 ^ 32`. -/
theorem generation_eq (h : (processSystem init step child).Run b) :
    b.self.ident.generation.toNat = b.ancestors.length % 2 ^ 32 := by
  induction h with
  | root hroot => simp [hroot.1]
  | step _ _ ih => exact ih
  | fork _ hident _ ih =>
    have hgen := congrArg (fun i => i.generation.toNat) hident.1
    simp only [ProcessIdentity.onForkChild, UInt32.toNat_add, UInt32.toNat_one, ih] at hgen
    simp only [Branch.length_lineage, hgen]
    omega

/-- On a branch of fewer than `2 ^ 32` forks, generations fall from a process to its ancestors. -/
theorem generation_lt (h : (processSystem init step child).Run b)
    (hlen : b.ancestors.length < 2 ^ 32) :
    b.lineage.Pairwise fun p q => q.ident.generation.toNat < p.ident.generation.toNat := by
  induction h with
  | root _ => simp [Branch.lineage]
  | step _ _ ih => exact ih hlen
  | @fork b c hrun hident _ ih =>
    have hlen' : b.ancestors.length + 1 < 2 ^ 32 := by simpa using hlen
    have hpair := ih (by omega)
    have hself := generation_eq hrun
    rw [Nat.mod_eq_of_lt (by omega)] at hself
    have hgen := congrArg (fun i => i.generation.toNat) hident.1
    simp only [ProcessIdentity.onForkChild, UInt32.toNat_add, UInt32.toNat_one, hself] at hgen
    rw [Nat.mod_eq_of_lt hlen'] at hgen
    refine List.pairwise_cons.mpr ⟨?_, hpair⟩
    intro q hq
    change q.ident.generation.toNat < c.ident.generation.toNat
    rcases Branch.mem_lineage.mp hq with rfl | hq
    · omega
    · have := List.rel_of_pairwise_cons hpair hq
      omega

/-- On a branch of fewer than `2 ^ 32` forks the identity names the process, whatever pids were
handed out. -/
theorem ident_injOn (h : (processSystem init step child).Run b)
    (hlen : b.ancestors.length < 2 ^ 32) {p q : Proc ProcessIdentity}
    (hp : p ∈ b.lineage) (hq : q ∈ b.lineage) (hident : p.ident = q.ident) : p = q := by
  have hnodup : (b.lineage.map Proc.ident).Nodup := by
    refine List.pairwise_map.mpr ((generation_lt h hlen).imp fun hlt heq => ?_)
    rw [heq] at hlt
    exact lt_irrefl _ hlt
  exact List.inj_on_of_nodup_map hnodup hp hq hident

/-- The generation is a 32-bit counter: after `2 ^ 32` nested forks a descendant can have the
identity of its ancestor, if it also gets the ancestor's pid. -/
theorem exists_ident_eq_ancestor {t : List (Branch ProcessIdentity M)}
    (ht : (processSystem init step child).TreeRun t) (hb : b ∈ t) {P : M → Prop} (hP : P b.mem)
    (hchild : ∀ c m, P m → P (child c m)) :
    ∃ t' b', (processSystem init step child).TreeRun t' ∧ b' ∈ t' ∧
      b'.self.ident = b.self.ident ∧ b.self ∈ b'.ancestors ∧ P b'.mem := by
  obtain ⟨i, hi⟩ := List.mem_iff_getElem?.mp hb
  have hpid : b.self.ident.pid ≠ 0 := pid_ne_zero (ht.run hi).2.2 _ b.self_mem_lineage
  -- the `n`-th descendant gets the same pid again
  let ι (n : ℕ) : ProcessIdentity :=
    { pid := b.self.ident.pid, generation := b.self.ident.generation + UInt32.ofNat (n + 1) }
  have hzero : ι 0 = b.self.ident.onForkChild (ι 0).pid := rfl
  have hsucc : ∀ n, ι (n + 1) = (ι n).onForkChild (ι (n + 1)).pid := by
    intro n
    have hgen : UInt32.ofNat (n + 1 + 1) = UInt32.ofNat (n + 1) + 1 := by
      rw [UInt32.ofNat_add]
      rfl
    simp only [ι, ProcessIdentity.onForkChild, hgen, UInt32.add_assoc]
  have hwrap : ι (2 ^ 32 - 1) = b.self.ident := by
    have hgen : UInt32.ofNat (2 ^ 32 - 1 + 1) = 0 := by decide
    simp only [ι, hgen, UInt32.add_zero]
  obtain ⟨t', b', ht', hb', hident, hanc, hP'⟩ :=
    ht.descendant hb (ι := ι) ⟨hzero, hpid⟩ (fun n => ⟨hsucc n, hpid⟩) hP hchild (2 ^ 32 - 1)
  exact ⟨t', b', ht', hb', hident.trans hwrap, hanc, hP'⟩

end Lineage

end MicrosandboxRb
