import Mathlib.Data.List.Basic
import Mathlib.Order.Nat
import Mathlib.Data.List.Nodup

/-!
# Process trees under `fork`

A process owns a private memory and an identity it can observe. It can take steps on its own
memory, and it can `fork`: the child starts from a copy of the memory and gets an identity of its
own. What a process does after a fork is invisible to every other process.

Two views of such a system are defined and related:

* `System.Run`: one branch, i.e. a process followed through its own steps and into one of its
  children after another;
* `System.TreeRun`: a whole tree, in which every process takes steps in any interleaving.

## Main results

* `System.Run.names_nodup`: along a branch every process has its own name;
* `System.Run.bounded_invariant`: a property kept by steps and forks holds on every branch whose
  last state meets a bound that no step and no fork can restore;
* `System.TreeRun.run`: every process of a tree is the end of a branch, so that what holds of
  branches holds of every process of every tree;
* `System.TreeRun.descendant`: a chain of forks from any process of a tree.
-/

namespace ForkTree

/-- A process of a tree: a name that no other process of the tree has, and the identity that the
process itself can observe. Identities of different processes may coincide. -/
structure Proc (I : Type) where
  /-- Tells the processes of one tree apart. No process can observe it. -/
  name : ℕ
  /-- What the process can observe about itself. -/
  ident : I
deriving DecidableEq, Repr

/-- What the processes of a tree can do. -/
structure System (I M : Type) where
  /-- The identities the root process may have. -/
  root : I → Prop
  /-- The memory the root process starts from. -/
  init : Proc I → M
  /-- The steps a process can take on its own memory. -/
  step : Proc I → M → M → Prop
  /-- The identities a fork may give to a child, from the identity of its parent. -/
  forked : I → I → Prop
  /-- The memory a child starts from, from the memory of its parent. -/
  child : Proc I → M → M

/-- A process at the end of a branch of the tree. -/
structure Branch (I M : Type) where
  /-- The process. -/
  self : Proc I
  /-- The processes it descends from, nearest first. -/
  ancestors : List (Proc I)
  /-- Its memory. -/
  mem : M

namespace Branch

variable {I M : Type}

/-- The process and its ancestors, nearest first. -/
def lineage (b : Branch I M) : List (Proc I) := b.self :: b.ancestors

/-- A lineage is the process and those it comes from. -/
@[simp] theorem mem_lineage {b : Branch I M} {p : Proc I} :
    p ∈ b.lineage ↔ p = b.self ∨ p ∈ b.ancestors := by
  simp [lineage]

/-- A process belongs to its own lineage. -/
theorem self_mem_lineage (b : Branch I M) : b.self ∈ b.lineage := by
  simp

@[simp] theorem length_lineage (b : Branch I M) :
    b.lineage.length = b.ancestors.length + 1 := by
  simp [lineage]

end Branch

namespace System

variable {I M : Type} {S : System I M}

/-- The states reached by following one branch of the tree: the steps of a process, and forks
after which the child is followed. (A fork after which the parent is followed changes nothing for
the parent.) -/
inductive Run (S : System I M) : Branch I M → Prop
  | root {p : Proc I} : S.root p.ident → Run S ⟨p, [], S.init p⟩
  | step {b : Branch I M} {m : M} : Run S b → S.step b.self b.mem m → Run S { b with mem := m }
  | fork {b : Branch I M} {c : Proc I} : Run S b → S.forked b.self.ident c.ident →
      (∀ p ∈ b.lineage, p.name ≠ c.name) → Run S ⟨c, b.lineage, S.child c b.mem⟩

/-- The trees reached from a single root process. The name of a process is its position. -/
inductive TreeRun (S : System I M) : List (Branch I M) → Prop
  | root {ι : I} : S.root ι → TreeRun S [⟨⟨0, ι⟩, [], S.init ⟨0, ι⟩⟩]
  | act {t : List (Branch I M)} {p : ℕ} {b : Branch I M} {m : M} : TreeRun S t →
      t[p]? = some b → S.step b.self b.mem m → TreeRun S (t.set p { b with mem := m })
  | fork {t : List (Branch I M)} {p : ℕ} {b : Branch I M} {ι : I} : TreeRun S t →
      t[p]? = some b → S.forked b.self.ident ι →
      TreeRun S (t ++ [⟨⟨t.length, ι⟩, b.lineage, S.child ⟨t.length, ι⟩ b.mem⟩])

/-- Along a branch every process has its own name. -/
theorem Run.names_nodup {b : Branch I M} (h : S.Run b) :
    (b.lineage.map Proc.name).Nodup := by
  induction h with
  | root _ => simp [Branch.lineage]
  | step _ _ ih => exact ih
  | fork _ _ hfresh ih =>
    rw [Branch.lineage, List.map_cons, List.nodup_cons]
    refine ⟨?_, ih⟩
    intro hmem
    obtain ⟨p, hp, hname⟩ := List.mem_map.mp hmem
    exact hfresh p hp hname

/-- Two processes of one branch with one name are the same process. -/
theorem Run.eq_of_name_eq {b : Branch I M} (h : S.Run b) {p q : Proc I}
    (hp : p ∈ b.lineage) (hq : q ∈ b.lineage) (hname : p.name = q.name) : p = q :=
  List.inj_on_of_nodup_map h.names_nodup hp hq hname

/-- Let `B` be a bound that holds before a step or a fork whenever it holds after it. A property
that holds of every root, and that steps and forks keep while `B` holds, holds at the end of every
branch that meets `B` there. -/
theorem Run.bounded_invariant {B P : Branch I M → Prop}
    (hstepB : ∀ b m, S.step b.self b.mem m → B { b with mem := m } → B b)
    (hforkB : ∀ (b : Branch I M) c, B ⟨c, b.lineage, S.child c b.mem⟩ → B b)
    (hroot : ∀ p : Proc I, S.root p.ident → P ⟨p, [], S.init p⟩)
    (hstep : ∀ b m, S.Run b → B { b with mem := m } → P b → S.step b.self b.mem m →
      P { b with mem := m })
    (hfork : ∀ (b : Branch I M) c, S.Run b → B ⟨c, b.lineage, S.child c b.mem⟩ → P b →
      S.forked b.self.ident c.ident → (∀ p ∈ b.lineage, p.name ≠ c.name) →
      P ⟨c, b.lineage, S.child c b.mem⟩)
    {b : Branch I M} (h : S.Run b) (hB : B b) : P b := by
  induction h with
  | root hι => exact hroot _ hι
  | step hrun hm ih => exact hstep _ _ hrun hB (ih (hstepB _ _ hm hB)) hm
  | fork hrun hident hfresh ih => exact hfork _ _ hrun hB (ih (hforkB _ _ hB)) hident hfresh

/-- The process at position `p` of a tree is named `p`, its ancestors stand at earlier positions,
and it is the end of a branch. -/
theorem TreeRun.run {t : List (Branch I M)} (h : S.TreeRun t) {p : ℕ} {b : Branch I M}
    (hb : t[p]? = some b) :
    b.self.name = p ∧ (∀ q ∈ b.ancestors, q.name < p) ∧ S.Run b := by
  induction h generalizing p b with
  | root hι =>
    obtain ⟨rfl, rfl⟩ : p = 0 ∧ _ = b := by
      rcases p with _ | p
      · exact ⟨rfl, by simpa using hb⟩
      · simp at hb
    exact ⟨rfl, by simp, Run.root hι⟩
  | @act t r b' m ht hr hm ih =>
    rw [List.getElem?_set] at hb
    split at hb
    · rename_i hrp
      subst hrp
      split at hb
      · obtain ⟨hname, hanc, hrun⟩ := ih hr
        obtain rfl := Option.some.inj hb
        exact ⟨hname, hanc, Run.step hrun hm⟩
      · cases hb
    · exact ih hb
  | @fork t r b' ι ht hr hι ih =>
    rcases Nat.lt_or_ge p t.length with hlt | hge
    · rw [List.getElem?_append_left hlt] at hb
      exact ih hb
    · rw [List.getElem?_append_right hge] at hb
      obtain ⟨hlt', rfl⟩ := List.getElem?_eq_some_iff.mp hb
      obtain rfl : p = t.length := by simp at hlt'; omega
      obtain ⟨hname, hanc, hrun⟩ := ih hr
      have hrlt : r < t.length := (List.getElem?_eq_some_iff.mp hr).1
      -- the names of a lineage were all given before this fork
      have hlin : ∀ q ∈ b'.lineage, q.name < t.length := by
        intro q hq
        rcases Branch.mem_lineage.mp hq with rfl | hq
        · omega
        · exact (hanc q hq).trans hrlt
      simp only [Nat.sub_self, List.getElem_cons_zero]
      exact ⟨trivial, hlin, Run.fork hrun hι fun q hq => (hlin q hq).ne⟩

/-- A process of a tree can fork a child, the child a child, and so on, with identities `ι 0`,
`ι 1`, ... A property of the memory that forks keep is inherited down the chain. -/
theorem TreeRun.descendant {t : List (Branch I M)} (ht : S.TreeRun t) {b : Branch I M}
    (hb : b ∈ t) {ι : ℕ → I} (hzero : S.forked b.self.ident (ι 0))
    (hι : ∀ n, S.forked (ι n) (ι (n + 1))) {P : M → Prop} (hP : P b.mem)
    (hchild : ∀ c m, P m → P (S.child c m)) (n : ℕ) :
    ∃ t' b', S.TreeRun t' ∧ b' ∈ t' ∧ b'.self.ident = ι n ∧ b.self ∈ b'.ancestors ∧ P b'.mem := by
  induction n with
  | zero =>
    obtain ⟨p, hp⟩ := List.mem_iff_getElem?.mp hb
    exact ⟨_, _, ht.fork hp hzero, List.mem_concat_self, rfl, b.self_mem_lineage, hchild _ _ hP⟩
  | succ n ih =>
    obtain ⟨t', b', ht', hb', hident, hanc, hP'⟩ := ih
    obtain ⟨p, hp⟩ := List.mem_iff_getElem?.mp hb'
    have hfork : S.forked b'.self.ident (ι (n + 1)) := hident ▸ hι n
    exact ⟨_, _, ht'.fork hp hfork, List.mem_concat_self, rfl,
      Branch.mem_lineage.mpr (Or.inr hanc), hchild _ _ hP'⟩

end System

end ForkTree
