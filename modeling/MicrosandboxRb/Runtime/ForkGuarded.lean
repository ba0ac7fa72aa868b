import Mathlib.Data.List.Count
import MicrosandboxRb.Error
import MicrosandboxRb.Runtime.Identity

/-!
# Handles across forks

`ForkGuarded` (`runtime.rs`) ties the native payload of a Ruby object to the process that created
it. A fork copies the wrapped object into the child, where the payload must neither be used nor
destroyed.

`handleSystem` is the process tree in which every process creates handles, calls `get` on the
copies it holds and collects them, in any order. Payloads carry the name of the process that
created them, which no modelled function reads.

## Main results

* `HandleInv`: what holds of the handles of a process, and `handleInv_of_run`: it holds on every
  branch of fewer than `2 ^ 32` forks;
* `handles_never_cross_fork`: over the whole tree, `get` succeeds exactly in the creating process, and a
  payload is destroyed at most once, there.
-/

namespace MicrosandboxRb

open ForkTree

/-- The native payload of a wrapped Ruby object, bound to the process that created it. -/
structure ForkGuarded (T : Type) where
  -- the identity of the process that created the value
  owner : ProcessIdentity
  -- the Ruby class users know the handle by, for the error message
  cls : String
  inner : T
deriving DecidableEq, Repr

namespace ForkGuarded

variable {T : Type}

/-- `owned_by`: a handle of the given process. -/
def ownedBy (owner : ProcessIdentity) (cls : String) (inner : T) : ForkGuarded T :=
  { owner, cls, inner }

/-- A guard owned by the process `p` that builds it. -/
def new (p : Proc ProcessIdentity) (cls : String) (inner : T) : ForkGuarded T :=
  ownedBy p.ident cls inner

/-- The payload, as decided in the process identified by `cur`. -/
def getIn (g : ForkGuarded T) (cur : ProcessIdentity) : Except RubyError T :=
  if g.owner = cur then .ok g.inner else .error (.forkedHandle g.cls g.owner.pid cur.pid)

/-- The payload, or `ForkedHandleError` when `p` is not the process that created it. -/
def get (g : ForkGuarded T) (p : Proc ProcessIdentity) : Except RubyError T :=
  g.getIn p.ident

/-- The destructor of a guard in the process `p`: the payload whose own destructor runs, and
`none` when the payload is leaked. -/
def drop (g : ForkGuarded T) (p : Proc ProcessIdentity) : Option T :=
  if g.owner = p.ident then some g.inner else none

end ForkGuarded

/-- Whether two given identities are the same process, by the two comparisons that ownership
decisions use: equality, and equality of the packed words. -/
def forkIdentityEqual (pidA genA pidB genB : UInt32) : Bool × Bool :=
  let a := ProcessIdentity.fromParts pidA genA
  let b := ProcessIdentity.fromParts pidB genB
  (decide (a = b), decide (a.toBits = b.toBits))

/-- The ownership check of a handle created by the process `(bornPid, bornGen)` and used in
`(curPid, curGen)`. -/
def forkIdentityGuard (bornPid bornGen curPid curGen : UInt32) : Except RubyError Unit :=
  let born := ProcessIdentity.fromParts bornPid bornGen
  let cur := ProcessIdentity.fromParts curPid curGen
  (ForkGuarded.ownedBy born "Microsandbox::VolumeFs" ()).getIn cur

/-! ## The tree of processes that hold handles -/

/-- A payload, told apart by the name of the process that created it and a serial number that
counts the payloads created on the branch. -/
structure Payload where
  creator : ℕ
  serial : ℕ
deriving DecidableEq, Repr

/-- The handles of one process, and what has happened to them in it. -/
structure Handles where
  -- how many payloads were created on the branch so far
  serial : ℕ
  -- the wrapped objects the process holds a copy of
  held : List (ForkGuarded Payload)
  -- the calls of `get` this process made, with their outcomes
  gets : List (ForkGuarded Payload × Except RubyError Payload)
  -- the payloads whose destructor this process ran
  destroyed : List Payload

/-- What a process can do with handles. -/
inductive Handles.Step (p : Proc ProcessIdentity) : Handles → Handles → Prop
  | create (m : Handles) (cls : String) :
      Step p m { m with
        serial := m.serial + 1
        held := ForkGuarded.new p cls ⟨p.name, m.serial⟩ :: m.held }
  | get (m : Handles) (g : ForkGuarded Payload) : g ∈ m.held →
      Step p m { m with gets := (g, g.get p) :: m.gets }
  | collect (m : Handles) (g : ForkGuarded Payload) : g ∈ m.held →
      Step p m { m with
        held := m.held.erase g
        destroyed := (g.drop p).toList ++ m.destroyed }

/-- The process tree of the extension, seen through its handles. A child holds a copy of every
handle of its parent; what its parent did with them is not its own doing. -/
def handleSystem : System ProcessIdentity Handles :=
  processSystem (fun _ => ⟨0, [], [], []⟩) Handles.Step
    (fun _ m => { m with gets := [], destroyed := [] })

/-- What holds of the handles of a process. -/
structure HandleInv (b : Branch ProcessIdentity Handles) : Prop where
  -- a held guard is tagged with the identity of the process that created its payload
  owner : ∀ g ∈ b.mem.held,
    ∃ q ∈ b.lineage, q.name = g.inner.creator ∧ g.owner = q.ident
  -- held payloads have been created
  serial : ∀ g ∈ b.mem.held, g.inner.serial < b.mem.serial
  -- a process holds one copy of a payload
  nodup : (b.mem.held.map ForkGuarded.inner).Nodup
  -- a call of `get` succeeds exactly in the process that created the payload
  gets : ∀ c ∈ b.mem.gets,
    if c.1.inner.creator = b.self.name then c.2 = .ok c.1.inner
    else c.2 = .error (.forkedHandle c.1.cls c.1.owner.pid b.self.ident.pid)
  -- a destroyed payload is one that this process created, and it is not held any more
  destroyed : ∀ x ∈ b.mem.destroyed,
    x.creator = b.self.name ∧ x.serial < b.mem.serial ∧ x ∉ b.mem.held.map ForkGuarded.inner
  -- no payload is destroyed twice
  once : b.mem.destroyed.Nodup

section Branch

variable {b : Branch ProcessIdentity Handles}

/-- A held guard passes the ownership check exactly in the process that created its payload. -/
theorem owner_eq_iff (h : handleSystem.Run b) (hlen : b.ancestors.length < 2 ^ 32)
    (hinv : HandleInv b) {g : ForkGuarded Payload} (hg : g ∈ b.mem.held) :
    g.owner = b.self.ident ↔ g.inner.creator = b.self.name := by
  obtain ⟨q, hq, hname, howner⟩ := hinv.owner g hg
  constructor
  · intro heq
    have hident : q.ident = b.self.ident := by rw [← howner, heq]
    rw [← hname, ident_injOn h hlen hq b.self_mem_lineage hident]
  · intro heq
    have hself := h.eq_of_name_eq hq b.self_mem_lineage (by rw [hname, heq])
    rw [howner, hself]

/-- A new handle keeps the invariant. -/
theorem handleInv_create (hinv : HandleInv b) (cls : String) :
    HandleInv { b with mem := { b.mem with
      serial := b.mem.serial + 1
      held := ForkGuarded.new b.self cls ⟨b.self.name, b.mem.serial⟩ :: b.mem.held } } := by
  -- the serial number is above all that were given out
  have hfresh : (⟨b.self.name, b.mem.serial⟩ : Payload) ∉
      b.mem.held.map ForkGuarded.inner := by
    intro hmem
    obtain ⟨g, hg, hinner⟩ := List.mem_map.mp hmem
    have := hinv.serial g hg
    rw [hinner] at this
    exact lt_irrefl _ this
  refine ⟨?_, ?_, ?_, hinv.gets, ?_, hinv.once⟩
  · intro g hg
    rcases List.mem_cons.mp hg with rfl | hg
    · exact ⟨b.self, b.self_mem_lineage, rfl, rfl⟩
    · exact hinv.owner g hg
  · intro g hg
    rcases List.mem_cons.mp hg with rfl | hg
    · exact Nat.lt_succ_self _
    · exact (hinv.serial g hg).trans (Nat.lt_succ_self _)
  · exact List.nodup_cons.mpr ⟨hfresh, hinv.nodup⟩
  · intro x hx
    obtain ⟨hcreator, hserial, hnot⟩ := hinv.destroyed x hx
    refine ⟨hcreator, hserial.trans (Nat.lt_succ_self _), ?_⟩
    rw [List.map_cons, List.mem_cons, not_or]
    refine ⟨?_, hnot⟩
    rintro rfl
    exact lt_irrefl _ hserial

/-- So does reading one. -/
theorem handleInv_get (h : handleSystem.Run b) (hlen : b.ancestors.length < 2 ^ 32)
    (hinv : HandleInv b) {g : ForkGuarded Payload} (hg : g ∈ b.mem.held) :
    HandleInv { b with mem := { b.mem with gets := (g, g.get b.self) :: b.mem.gets } } := by
  refine ⟨hinv.owner, hinv.serial, hinv.nodup, ?_, hinv.destroyed, hinv.once⟩
  intro c hc
  rcases List.mem_cons.mp hc with rfl | hc
  · simp only [ForkGuarded.get, ForkGuarded.getIn, owner_eq_iff h hlen hinv hg]
    split <;> rfl
  · exact hinv.gets c hc

/-- Collecting a handle keeps the invariant: its payload is destroyed in the creating process and
leaked in any other. -/
theorem handleInv_collect (h : handleSystem.Run b) (hlen : b.ancestors.length < 2 ^ 32)
    (hinv : HandleInv b) {g : ForkGuarded Payload} (hg : g ∈ b.mem.held) :
    HandleInv { b with mem := { b.mem with
      held := b.mem.held.erase g
      destroyed := (g.drop b.self).toList ++ b.mem.destroyed } } := by
  have hsub : ∀ g' ∈ b.mem.held.erase g, g' ∈ b.mem.held := fun _ => List.mem_of_mem_erase
  have hnodup : (b.mem.held.erase g).Sublist b.mem.held := List.erase_sublist
  have hheld : ∀ x ∈ (b.mem.held.erase g).map ForkGuarded.inner,
      x ∈ b.mem.held.map ForkGuarded.inner := fun x hx => (hnodup.map _).subset hx
  -- the collected payload is not held any more: the process had one copy
  have hgone : g.inner ∉ (b.mem.held.erase g).map ForkGuarded.inner := by
    intro hmem
    obtain ⟨g', hg', hinner⟩ := List.mem_map.mp hmem
    have heq := List.inj_on_of_nodup_map hinv.nodup (hsub g' hg') hg hinner
    subst heq
    exact (hinv.nodup.of_map _).not_mem_erase hg'
  have hnew : ∀ x ∈ (g.drop b.self).toList, x = g.inner ∧ x.creator = b.self.name := by
    intro x hx
    simp only [ForkGuarded.drop] at hx
    split at hx
    · rename_i howner
      obtain rfl : x = g.inner := by simpa using hx
      exact ⟨rfl, (owner_eq_iff h hlen hinv hg).mp howner⟩
    · simp at hx
  refine ⟨fun g' hg' => hinv.owner g' (hsub g' hg'), fun g' hg' => hinv.serial g' (hsub g' hg'),
    hinv.nodup.sublist (hnodup.map _), hinv.gets, ?_, ?_⟩
  · intro x hx
    rcases List.mem_append.mp hx with hx | hx
    · obtain ⟨rfl, hcreator⟩ := hnew x hx
      exact ⟨hcreator, hinv.serial g hg, hgone⟩
    · obtain ⟨hcreator, hserial, hnot⟩ := hinv.destroyed x hx
      exact ⟨hcreator, hserial, fun hmem => hnot (hheld x hmem)⟩
  · refine List.nodup_append.mpr ⟨?_, hinv.once, ?_⟩
    · cases g.drop b.self <;> simp
    · intro x hx y hy heq
      subst heq
      obtain ⟨rfl, -⟩ := hnew x hx
      exact (hinv.destroyed _ hy).2.2 (List.mem_map_of_mem hg)

/-- The invariant holds on every branch of fewer than `2 ^ 32` forks. -/
theorem handleInv_of_run (h : handleSystem.Run b) (hlen : b.ancestors.length < 2 ^ 32) :
    HandleInv b := by
  refine System.Run.bounded_invariant (B := fun b => b.ancestors.length < 2 ^ 32)
    (fun _ _ _ hB => hB) ?_ ?_ ?_ ?_ h hlen
  · intro b c hB
    simp only [Branch.length_lineage] at hB
    omega
  · intro p _
    constructor <;> simp [handleSystem, processSystem]
  · intro b m hrun hB hinv hstep
    cases hstep with
    | create cls => exact handleInv_create hinv cls
    | get g hg => exact handleInv_get hrun hB hinv hg
    | collect g hg => exact handleInv_collect hrun hB hinv hg
  · intro b c hrun _ hinv _ _
    refine ⟨?_, hinv.serial, hinv.nodup, by simp [handleSystem, processSystem],
      by simp [handleSystem, processSystem], by simp [handleSystem, processSystem]⟩
    intro g hg
    obtain ⟨q, hq, hq'⟩ := hinv.owner g hg
    exact ⟨q, Branch.mem_lineage.mpr (Or.inr hq), hq'⟩

end Branch

/-! ## The whole tree -/

/-- Over a whole tree no payload is destroyed twice: each process destroys payloads of its own
only, and none of them twice. -/
theorem destroyed_nodup {t : List (Branch ProcessIdentity Handles)} (h : handleSystem.TreeRun t)
    (hforks : ∀ b ∈ t, b.ancestors.length < 2 ^ 32) :
    (t.flatMap fun b => b.mem.destroyed).Nodup := by
  rw [List.nodup_flatMap]
  constructor
  · intro b hb
    obtain ⟨p, hp⟩ := List.mem_iff_getElem?.mp hb
    exact (handleInv_of_run (h.run hp).2.2 (hforks b hb)).once
  · rw [List.pairwise_iff_getElem]
    intro i j hi hj hij x hxi hxj
    have hgi := List.getElem?_eq_getElem hi
    have hgj := List.getElem?_eq_getElem hj
    obtain ⟨hnamei, -, hruni⟩ := h.run hgi
    obtain ⟨hnamej, -, hrunj⟩ := h.run hgj
    have hi' := (handleInv_of_run hruni (hforks _ (List.getElem_mem hi))).destroyed x hxi
    have hj' := (handleInv_of_run hrunj (hforks _ (List.getElem_mem hj))).destroyed x hxj
    -- one payload has one creator, and positions `i` and `j` are different processes
    rw [hnamei] at hi'
    rw [hnamej] at hj'
    omega

/-- Handles never cross a fork. In every tree of fewer than `2 ^ 32` forks a branch: `get` succeeds
exactly in the process that created the payload and raises `ForkedHandleError` in any other; a
payload is destroyed at most once in the whole tree, and only by its creator; the two ownership
tests agree on all identities, and no process with a pid passes for "no owner". -/
theorem handles_never_cross_fork {t : List (Branch ProcessIdentity Handles)}
    (h : handleSystem.TreeRun t) (hforks : ∀ b ∈ t, b.ancestors.length < 2 ^ 32) :
    (∀ p (b : Branch ProcessIdentity Handles), t[p]? = some b →
      (∀ g ∈ b.mem.held, g.get b.self =
        if g.inner.creator = p then .ok g.inner
        else .error (.forkedHandle g.cls g.owner.pid b.self.ident.pid)) ∧
      (∀ c ∈ b.mem.gets, c.2 =
        if c.1.inner.creator = p then .ok c.1.inner
        else .error (.forkedHandle c.1.cls c.1.owner.pid b.self.ident.pid)) ∧
      (∀ x ∈ b.mem.destroyed, x.creator = p)) ∧
    (∀ x, (t.flatMap fun b => b.mem.destroyed).count x ≤ 1) ∧
    (∀ pidA genA pidB genB, (forkIdentityEqual pidA genA pidB genB).1 =
      (forkIdentityEqual pidA genA pidB genB).2) ∧
    (∀ i : ProcessIdentity, i.pid ≠ 0 → i.toBits ≠ 0) := by
  refine ⟨?_, List.nodup_iff_count_le_one.mp (destroyed_nodup h hforks), ?_,
    fun _ => ProcessIdentity.toBits_ne_zero⟩
  · intro p b hb
    obtain ⟨rfl, -, hrun⟩ := h.run hb
    have hlen := hforks b (List.mem_of_getElem? hb)
    -- the owner word and the creator agree as long as the generations have not wrapped
    have hinv := handleInv_of_run hrun hlen
    refine ⟨?_, ?_, fun x hx => (hinv.destroyed x hx).1⟩
    · intro g hg
      simp only [ForkGuarded.get, ForkGuarded.getIn, owner_eq_iff hrun hlen hinv hg]
    · intro c hc
      have hget := hinv.gets c hc
      split at hget <;> simp_all
  · intro pidA genA pidB genB
    simp only [forkIdentityEqual, ProcessIdentity.eq_iff_toBits_eq]

/-- The handle of the tree below: created by the root, with pid `100`. -/
def rootHandle : ForkGuarded Payload :=
  { owner := { pid := 100, generation := 0 }, cls := "Microsandbox::VolumeFs", inner := ⟨0, 0⟩ }

/-- A root that created a handle, and a child with the root's own pid that used the copy it
inherited and collected it; the root has collected its own. -/
def reusedPidTree : List (Branch ProcessIdentity Handles) :=
  [⟨⟨0, ⟨100, 0⟩⟩, [], ⟨1, [], [], [⟨0, 0⟩]⟩⟩,
    ⟨⟨1, ⟨100, 1⟩⟩, [⟨0, ⟨100, 0⟩⟩], ⟨1, [],
      [(rootHandle, .error (.forkedHandle "Microsandbox::VolumeFs" 100 100))], []⟩⟩]

/-- The tree is a run. -/
theorem reusedPidTree_treeRun : handleSystem.TreeRun reusedPidTree := by
  have root : handleSystem.TreeRun [⟨⟨0, ⟨100, 0⟩⟩, [], ⟨0, [], [], []⟩⟩] :=
    System.TreeRun.root (S := handleSystem) (And.intro rfl (by decide))
  have create : handleSystem.TreeRun [⟨⟨0, ⟨100, 0⟩⟩, [], ⟨1, [rootHandle], [], []⟩⟩] :=
    root.act (p := 0) rfl (Handles.Step.create _ "Microsandbox::VolumeFs")
  have fork : handleSystem.TreeRun [⟨⟨0, ⟨100, 0⟩⟩, [], ⟨1, [rootHandle], [], []⟩⟩,
      ⟨⟨1, ⟨100, 1⟩⟩, [⟨0, ⟨100, 0⟩⟩], ⟨1, [rootHandle], [], []⟩⟩] :=
    create.fork (p := 0) (ι := (⟨100, 1⟩ : ProcessIdentity)) rfl (And.intro rfl (by decide))
  have get := fork.act (p := 1) rfl (Handles.Step.get _ rootHandle List.mem_cons_self)
  have childCollect := get.act (p := 1) rfl
    (Handles.Step.collect _ rootHandle List.mem_cons_self)
  exact childCollect.act (p := 0) rfl (Handles.Step.collect _ rootHandle List.mem_cons_self)

/-- A process that reuses the number does not destroy the payload twice. -/
theorem handles_never_cross_fork_reusedPid :
    (reusedPidTree.flatMap fun b => b.mem.destroyed).count ⟨0, 0⟩ ≤ 1 :=
  (handles_never_cross_fork reusedPidTree_treeRun (by decide)).2.1 ⟨0, 0⟩

end MicrosandboxRb
