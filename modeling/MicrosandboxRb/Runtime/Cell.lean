import Mathlib.Data.Fintype.EquivFin
import MicrosandboxRb.Lib.AssocMap
import MicrosandboxRb.Runtime.Identity

/-!
# The runtime cell

`runtime()` (`runtime.rs`): the tokio runtime of a process and the identity of this process live in
one heap cell behind one atomic pointer. Any number of threads of a process run `runtime()` at the
same time, in atomic steps. A fork copies the memory and the calling thread, which is not inside
`runtime()`; what the other threads had built stays allocated in the child and is never used.

Addresses of freed cells can be handed out again. Reading through a pointer to a freed cell puts a
call in the state `Pc.undefined`.

## Main results

* `CellInv`: which cells a process can see, and what each of its calls knows;
* `runtime_cell_invariant`: the statement over every process of every tree.
-/

namespace MicrosandboxRb.RuntimeCells

open ForkTree

/-- A heap cell: the identity it is tagged with, and the runtime itself, told apart by the process
that built it and by its number on the branch. -/
structure RuntimeCell where
  owner : ProcessIdentity
  builtIn : ℕ
  serial : ℕ
deriving DecidableEq

/-- Where a call of `runtime()` stands. -/
inductive Pc where
  /-- Before the load. -/
  | start
  /-- The load gave `observed`, which is compared next. -/
  | loaded (observed : Option ℕ)
  /-- The fast path was not taken: build a cell. -/
  | building (observed : Option ℕ)
  /-- Before a compare-exchange of `observed` with `fresh`, after `attempts` that failed. -/
  | exchanging (observed : Option ℕ) (fresh : ℕ) (attempts : ℕ)
  /-- The compare-exchange failed and gave `winner`, which is compared next. -/
  | lost (winner : Option ℕ) (fresh : ℕ) (attempts : ℕ)
  /-- A dangling pointer was read. -/
  | undefined
deriving DecidableEq

/-- The address of the cell that a call has built and not published. -/
def Pc.fresh : Pc → Option ℕ
  | .exchanging _ fresh _ => some fresh
  | .lost _ fresh _ => some fresh
  | _ => none

/-- How many compare-exchanges a call has made. -/
def Pc.attempts : Pc → ℕ
  | .exchanging _ _ attempts => attempts
  | .lost _ _ attempts => attempts
  | _ => 0

/-- How many steps of its own a call still makes at most. -/
def Pc.rank : Pc → ℕ
  | .start => 4
  | .loaded _ => 3
  | .building _ => 2
  | .exchanging .. => 1
  | .lost .. => 0
  | .undefined => 0

/-- A call that returned: the cell it gave, and the number of its compare-exchanges. -/
structure Returned where
  cell : RuntimeCell
  attempts : ℕ
deriving DecidableEq

/-- The memory of a process. -/
structure Memory where
  -- `RUNTIME`
  runtime : Option ℕ
  heap : AssocMap ℕ RuntimeCell
  -- how many cells were built on the branch so far
  built : ℕ
  -- the calls in progress, by thread
  calls : AssocMap ℕ Pc
  -- the pointer and the cell that the process inherited
  inherited : Option (ℕ × RuntimeCell)
  -- the history of this process
  published : List RuntimeCell
  freed : List RuntimeCell
  returned : List Returned

namespace Memory

/-- The memory when the extension is loaded. -/
def initial : Memory where
  runtime := none
  heap := ∅
  built := 0
  calls := ∅
  inherited := none
  published := []
  freed := []
  returned := []

/-- The memory of a child. -/
def forked (m : Memory) : Memory :=
  { m with
    calls := ∅
    inherited := m.runtime.bind fun a => (m.heap.lookup a).map fun c => (a, c)
    published := []
    freed := []
    returned := [] }

/-- A call goes on to its next step. -/
def setPc (m : Memory) (t : ℕ) (pc : Pc) : Memory := { m with calls := m.calls.insert t pc }

/-- The call of the thread `t` returns the cell. -/
def finish (m : Memory) (t : ℕ) (cell : RuntimeCell) (attempts : ℕ) : Memory :=
  { m with calls := m.calls.erase t, returned := m.returned ++ [{ cell, attempts }] }

/-- The cell at the address `a` is dropped. -/
def free (m : Memory) (a : ℕ) (cell : RuntimeCell) : Memory :=
  { m with heap := m.heap.erase a, freed := m.freed ++ [cell] }

/-- `RUNTIME` becomes `fresh`. -/
def publish (m : Memory) (fresh : ℕ) (cell : RuntimeCell) : Memory :=
  { m with runtime := some fresh, published := m.published ++ [cell] }

/-- A cell is built on the heap. -/
def alloc (m : Memory) (a : ℕ) (cell : RuntimeCell) : Memory :=
  { m with heap := m.heap.insert a cell, built := m.built + 1 }

end Memory

section Steps

variable (p : Proc ProcessIdentity)

/-- The thread `t` enters `runtime()`. -/
def enter (m : Memory) (t : ℕ) : Option Memory :=
  if t ∈ m.calls then none else some (m.setPc t .start)

/-- `build_runtime()` panics, which ends the call. -/
def panicInBuild (m : Memory) (t : ℕ) : Option Memory :=
  match m.calls.lookup t with
  | some (.building _) => some { m with calls := m.calls.erase t }
  | _ => none

/-- The next atomic step of the call of the thread `t`. An allocation gives the address `a`. -/
def advance (m : Memory) (t a : ℕ) : Option Memory :=
  match m.calls.lookup t with
  | none => none
  | some .undefined => none
  | some .start => some (m.setPc t (.loaded m.runtime))
  | some (.loaded none) => some (m.setPc t (.building none))
  | some (.loaded (some observed)) =>
    -- a cell that was freed meanwhile would be read here
    match m.heap.lookup observed with
    | none => some (m.setPc t .undefined)
    | some cell =>
      if cell.owner = p.ident then some (m.finish t cell 0)
      else some (m.setPc t (.building (some observed)))
  | some (.building observed) =>
    -- the allocator hands out an address that is not in use
    if a ∈ m.heap then none
    else
      let cell := { owner := p.ident, builtIn := p.name, serial := m.built }
      some ((m.alloc a cell).setPc t (.exchanging observed a 0))
  | some (.exchanging observed fresh attempts) =>
    -- the exchange compares addresses, not what is behind them
    if m.runtime = observed then
      match m.heap.lookup fresh with
      | none => some (m.setPc t .undefined)
      | some cell => some ((m.publish fresh cell).finish t cell (attempts + 1))
    else some (m.setPc t (.lost m.runtime fresh (attempts + 1)))
  | some (.lost none fresh attempts) => some (m.setPc t (.exchanging none fresh attempts))
  | some (.lost (some winner) fresh attempts) =>
    -- another thread was first: its runtime serves, if this process built it
    match m.heap.lookup winner with
    | none => some (m.setPc t .undefined)
    | some cell =>
      if cell.owner = p.ident then
        match m.heap.lookup fresh with
        | none => some (m.setPc t .undefined)
        | some mine => some ((m.free fresh mine).finish t cell attempts)
      else some (m.setPc t (.exchanging (some winner) fresh attempts))

end Steps

/-- The process tree of the extension, seen through its runtime cell. -/
def cellSystem : System ProcessIdentity Memory :=
  processSystem (fun _ => Memory.initial)
    (fun p m m' => ∃ t a, enter m t = some m' ∨ panicInBuild m t = some m' ∨
      advance p m t a = some m')
    (fun _ m => m.forked)

/-! ## The invariant -/

/-- The cell that `p` inherited, if any, is not `p`'s. -/
def Stale (p : Proc ProcessIdentity) (m : Memory) : Prop :=
  ∀ a c, m.inherited = some (a, c) → c.owner ≠ p.ident

/-- The pointer that `p` inherited. -/
def Memory.origin (m : Memory) : Option ℕ := m.inherited.map Prod.fst

/-- The address `a` holds a cell of `p` that nobody else can reach. -/
structure Private (p : Proc ProcessIdentity) (m : Memory) (a : ℕ) : Prop where
  cell : ∃ c, m.heap.lookup a = some c ∧ c.owner = p.ident ∧ c.builtIn = p.name ∧ c ∉ m.published
  runtime : m.runtime ≠ some a
  origin : m.origin ≠ some a

/-- What a call knows. -/
def PcInv (p : Proc ProcessIdentity) (m : Memory) : Pc → Prop
  | .start => True
  | .loaded observed => observed = m.runtime ∨ observed = m.origin
  | .building observed => observed = m.origin ∧ Stale p m
  | .exchanging observed fresh attempts =>
    observed = m.origin ∧ Stale p m ∧ attempts = 0 ∧ Private p m fresh
  | .lost winner fresh attempts =>
    winner = m.runtime ∧ m.published ≠ [] ∧ attempts = 1 ∧ Private p m fresh
  | .undefined => False

/-- The cell that `p` has published is the current one, and the only one. -/
structure Published (p : Proc ProcessIdentity) (m : Memory) (a : ℕ) (c : RuntimeCell) : Prop where
  stale : Stale p m
  runtime : m.runtime = some a
  cell : m.heap.lookup a = some c
  published : m.published = [c]
  owner : c.owner = p.ident
  builtIn : c.builtIn = p.name
  origin : m.origin ≠ some a

/-- The memory `m` of the process `p` with lineage `l` is consistent. -/
structure CellInv (l : List (Proc ProcessIdentity)) (p : Proc ProcessIdentity) (m : Memory) :
    Prop where
  -- a cell is tagged with the process that built it
  builder : ∀ a c, m.heap.lookup a = some c → ∃ q ∈ l, c.owner = q.ident ∧ c.builtIn = q.name
  serial : ∀ a c, m.heap.lookup a = some c → c.serial < m.built
  distinct : ∀ a a' c, m.heap.lookup a = some c → m.heap.lookup a' = some c → a = a'
  -- a freed cell was built here, was not published and is gone
  freedSerial : ∀ c ∈ m.freed, c.serial < m.built
  freed : ∀ c ∈ m.freed, c.builtIn = p.name ∧ c ∉ m.published ∧ ∀ a, m.heap.lookup a ≠ some c
  -- the pointer is the inherited one until a cell is published, and then that of this cell
  inherited : ∀ a c, m.inherited = some (a, c) → m.heap.lookup a = some c
  current : (m.published = [] ∧ m.runtime = m.origin) ∨ ∃ a c, Published p m a c
  pcs : ∀ t pc, m.calls.lookup t = some pc → PcInv p m pc
  -- two calls never have one address
  separate : ∀ t t' pc pc' a, m.calls.lookup t = some pc → m.calls.lookup t' = some pc' →
    pc.fresh = some a → pc'.fresh = some a → t = t'
  returned : ∀ r ∈ m.returned, ∃ a, m.runtime = some a ∧ m.heap.lookup a = some r.cell ∧
    r.cell.owner = p.ident ∧ r.attempts ≤ 1

section Invariant

variable {l : List (Proc ProcessIdentity)} {p : Proc ProcessIdentity} {m m' : Memory} {t : ℕ}
  {pc : Pc}

/-- It holds before the first call. -/
theorem cellInv_initial : CellInv l p Memory.initial := by
  constructor <;> simp [Memory.initial, Memory.origin]

/-- What a call knows stays true while the pointers, the published cells and the cell of the call
stay as they are. -/
theorem PcInv.congr (h : PcInv p m pc) (hruntime : m'.runtime = m.runtime)
    (hinherited : m'.inherited = m.inherited) (hpublished : m'.published = m.published)
    (hheap : ∀ a, pc.fresh = some a → m'.heap.lookup a = m.heap.lookup a) : PcInv p m' pc := by
  -- the position looks at the cell, what was inherited, what was published and its own address
  have horigin : m'.origin = m.origin := by rw [Memory.origin, hinherited, Memory.origin]
  have hstale : Stale p m → Stale p m' := by
    intro hs a c hin
    exact hs a c (hinherited ▸ hin)
  have hprivate : ∀ a, pc.fresh = some a → Private p m a → Private p m' a := by
    intro a ha hpriv
    refine ⟨?_, hruntime ▸ hpriv.runtime, horigin ▸ hpriv.origin⟩
    rw [hheap a ha, hpublished]
    exact hpriv.cell
  cases pc with
  | start => trivial
  | loaded observed =>
    change observed = m'.runtime ∨ observed = m'.origin
    rw [hruntime, horigin]
    exact h
  | building observed => exact ⟨horigin ▸ h.1, hstale h.2⟩
  | exchanging observed fresh attempts =>
    exact ⟨horigin ▸ h.1, hstale h.2.1, h.2.2.1, hprivate fresh rfl h.2.2.2⟩
  | lost winner fresh attempts =>
    exact ⟨hruntime ▸ h.1, hpublished ▸ h.2.1, h.2.2.1, hprivate fresh rfl h.2.2.2⟩
  | undefined => exact h

/-- The calls after a change of the call of `t` alone. -/
theorem pcs_of_others
    (hcalls : ∀ t' pc', t' ≠ t → m'.calls.lookup t' = some pc' → m.calls.lookup t' = some pc')
    (hself : ∀ pc, m'.calls.lookup t = some pc → PcInv p m' pc)
    (hother : ∀ t' pc', t' ≠ t → m.calls.lookup t' = some pc' → PcInv p m' pc') :
    ∀ t' pc', m'.calls.lookup t' = some pc' → PcInv p m' pc' := by
  intro t' pc' hcall
  by_cases ht : t' = t
  · subst ht
    exact hself pc' hcall
  · exact hother t' pc' ht (hcalls t' pc' ht hcall)

/-- Two calls never hold one fresh cell, as long as the others keep theirs. -/
theorem separate_of_others (h : CellInv l p m)
    (hcalls : ∀ t' pc', t' ≠ t → m'.calls.lookup t' = some pc' → m.calls.lookup t' = some pc')
    (hself : ∀ pc a, m'.calls.lookup t = some pc → pc.fresh = some a → ∀ t' pc', t' ≠ t →
      m.calls.lookup t' = some pc' → pc'.fresh ≠ some a) :
    ∀ t₁ t₂ pc₁ pc₂ a, m'.calls.lookup t₁ = some pc₁ → m'.calls.lookup t₂ = some pc₂ →
      pc₁.fresh = some a → pc₂.fresh = some a → t₁ = t₂ := by
  intro t₁ t₂ pc₁ pc₂ a h₁ h₂ hf₁ hf₂
  by_cases ht₁ : t₁ = t
  · subst ht₁
    by_contra hne
    exact hself pc₁ a h₁ hf₁ t₂ pc₂ (Ne.symm hne) (hcalls t₂ pc₂ (Ne.symm hne) h₂) hf₂
  · by_cases ht₂ : t₂ = t
    · subst ht₂
      exact absurd hf₁ (hself pc₂ a h₂ hf₂ t₁ pc₁ ht₁ (hcalls t₁ pc₁ ht₁ h₁))
    · exact h.separate t₁ t₂ pc₁ pc₂ a (hcalls t₁ pc₁ ht₁ h₁) (hcalls t₂ pc₂ ht₂ h₂) hf₁ hf₂

/-- The other calls stay where they are. -/
theorem lookup_setPc_other {t' : ℕ} {pc' : Pc} (ht : t' ≠ t)
    (h : (m.setPc t pc).calls.lookup t' = some pc') : m.calls.lookup t' = some pc' := by
  rwa [Memory.setPc, AList.lookup_insert_ne ht] at h

/-- The call is where it was put. -/
theorem lookup_setPc_self {pc' : Pc} (h : (m.setPc t pc).calls.lookup t = some pc') : pc = pc' := by
  rw [Memory.setPc, AList.lookup_insert] at h
  exact Option.some.inj h

/-- A call moves on without touching the memory. -/
theorem CellInv.setPc (h : CellInv l p m) (hpc : PcInv p m pc)
    (hfresh : ∀ a, pc.fresh = some a → ∀ t' pc', t' ≠ t → m.calls.lookup t' = some pc' →
      pc'.fresh ≠ some a) : CellInv l p (m.setPc t pc) := by
  have hcongr : ∀ pc', PcInv p m pc' → PcInv p (m.setPc t pc) pc' :=
    fun pc' hpc' => hpc'.congr rfl rfl rfl fun _ _ => rfl
  refine { h with current := ?_, pcs := ?_, separate := ?_ }
  · exact h.current.imp id fun ⟨a, c, hp⟩ => ⟨a, c, { hp with }⟩
  · refine pcs_of_others (t := t) (fun _ _ => lookup_setPc_other) ?_ ?_
    · intro pc' hcall
      rw [← lookup_setPc_self hcall]
      exact hcongr pc hpc
    · exact fun t' pc' _ hcall => hcongr pc' (h.pcs t' pc' hcall)
  · refine separate_of_others (t := t) h (fun _ _ => lookup_setPc_other) ?_
    intro pc' a hcall ha
    rw [← lookup_setPc_self hcall] at ha
    exact hfresh a ha

/-- The other calls stay when one returns. -/
theorem lookup_erase_other {t' : ℕ} {pc' : Pc} (ht : t' ≠ t)
    (h : (m.calls.erase t).lookup t' = some pc') : m.calls.lookup t' = some pc' := by
  rwa [AList.lookup_erase_ne ht] at h

/-- A call that returned is gone. -/
theorem lookup_erase_self {pc' : Pc} : (m.calls.erase t).lookup t ≠ some pc' := by
  rw [AList.lookup_erase]
  exact (Option.some_ne_none pc').symm

/-- A call ends without having touched the memory. -/
theorem CellInv.ended (h : CellInv l p m) {rs : List Returned}
    (hreturned : ∀ r ∈ rs, ∃ a, m.runtime = some a ∧ m.heap.lookup a = some r.cell ∧
      r.cell.owner = p.ident ∧ r.attempts ≤ 1) :
    CellInv l p { m with calls := m.calls.erase t, returned := m.returned ++ rs } := by
  refine { h with current := ?_, pcs := ?_, separate := ?_, returned := ?_ }
  · exact h.current.imp id fun ⟨a, c, hp⟩ => ⟨a, c, { hp with }⟩
  · refine pcs_of_others (t := t) (fun _ _ => lookup_erase_other) ?_ ?_
    · exact fun pc' hcall => absurd hcall lookup_erase_self
    · intro t' pc' _ hcall
      exact (h.pcs t' pc' hcall).congr rfl rfl rfl fun _ _ => rfl
  · refine separate_of_others (t := t) h (fun _ _ => lookup_erase_other) ?_
    exact fun pc' a hcall => absurd hcall lookup_erase_self
  · intro r hr
    rcases List.mem_append.mp hr with hr | hr
    · exact h.returned r hr
    · exact hreturned r hr

/-- What is stale depends on the inherited cell only. -/
theorem Stale.congr (h : Stale p m) (hinherited : m'.inherited = m.inherited) : Stale p m' := by
  intro a c hin
  exact h a c (hinherited ▸ hin)

/-- What is published depends on the pointer, the counters and the cell. -/
theorem Published.congr {a : ℕ} {c : RuntimeCell} (h : Published p m a c)
    (hruntime : m'.runtime = m.runtime) (hinherited : m'.inherited = m.inherited)
    (hpublished : m'.published = m.published) (hheap : m'.heap.lookup a = m.heap.lookup a) :
    Published p m' a c := by
  refine ⟨h.stale.congr hinherited, hruntime ▸ h.runtime, hheap ▸ h.cell, hpublished ▸ h.published,
    h.owner, h.builtIn, ?_⟩
  rw [Memory.origin, hinherited]
  exact h.origin

/-- The pointer that a process sees never dangles. -/
theorem CellInv.runtime_valid (h : CellInv l p m) {a : ℕ} (ha : m.runtime = some a) :
    ∃ c, m.heap.lookup a = some c := by
  rcases h.current with ⟨-, hruntime⟩ | ⟨a', c, hp⟩
  · obtain ⟨⟨a', c⟩, hin, rfl⟩ := Option.map_eq_some_iff.mp (hruntime.symm.trans ha)
    exact ⟨c, h.inherited a' c hin⟩
  · obtain rfl : a' = a := Option.some.inj (hp.runtime.symm.trans ha)
    exact ⟨c, hp.cell⟩

/-- The cell a process inherited is still on its heap. -/
theorem CellInv.origin_valid (h : CellInv l p m) {a : ℕ} (ha : m.origin = some a) :
    ∃ c, m.inherited = some (a, c) ∧ m.heap.lookup a = some c := by
  obtain ⟨⟨a', c⟩, hin, rfl⟩ := Option.map_eq_some_iff.mp ha
  exact ⟨c, hin, h.inherited a' c hin⟩

/-- A call builds a cell at a free address. -/
theorem CellInv.build (h : CellInv l p m) (hp : p ∈ l) {a : ℕ} (ha : a ∉ m.heap)
    {observed : Option ℕ} (hcall : m.calls.lookup t = some (.building observed)) :
    CellInv l p
      ((m.alloc a { owner := p.ident, builtIn := p.name, serial := m.built }).setPc t
        (.exchanging observed a 0)) := by
  have hnone : m.heap.lookup a = none := AList.lookup_eq_none.mpr ha
  -- the address is one that the allocator has free
  have hne : ∀ a' c, m.heap.lookup a' = some c → a' ≠ a := by
    rintro a' c hc rfl
    rw [hnone] at hc
    cases hc
  let cell : RuntimeCell := { owner := p.ident, builtIn := p.name, serial := m.built }
  have hheap : ∀ a', a' ≠ a → (m.alloc a cell).heap.lookup a' = m.heap.lookup a' :=
    fun a' h' => AList.lookup_insert_ne h'
  have hself : (m.alloc a cell).heap.lookup a = some cell := AList.lookup_insert _
  -- a cell of the new heap is the new one or an old one
  have hcases : ∀ a' c, (m.alloc a cell).heap.lookup a' = some c →
      (a' = a ∧ c = cell) ∨ m.heap.lookup a' = some c := by
    intro a' c hc
    by_cases ha' : a' = a
    · subst ha'
      exact Or.inl ⟨rfl, (Option.some.inj (hself.symm.trans hc)).symm⟩
    · exact Or.inr (hheap a' ha' ▸ hc)
  -- no other call has built a cell at this address
  have hfreshOther : ∀ t' pc', m.calls.lookup t' = some pc' → pc'.fresh ≠ some a := by
    intro t' pc' hcall' hfresh
    have hpc := h.pcs t' pc' hcall'
    cases pc' with
    | exchanging o f k =>
      obtain rfl := Option.some.inj hfresh
      obtain ⟨c, hc, -⟩ := hpc.2.2.2.cell
      exact hne f c hc rfl
    | lost w f k =>
      obtain rfl := Option.some.inj hfresh
      obtain ⟨c, hc, -⟩ := hpc.2.2.2.cell
      exact hne f c hc rfl
    | _ => cases hfresh
  -- the heap grows first, and then the call moves on
  have halloc : CellInv l p (m.alloc a cell) := by
    refine ⟨?_, ?_, ?_, ?_, ?_, ?_, ?_, ?_, h.separate, ?_⟩
    · intro a' c hc
      rcases hcases a' c hc with ⟨-, rfl⟩ | hc
      · exact ⟨p, hp, rfl, rfl⟩
      · exact h.builder a' c hc
    · intro a' c hc
      rcases hcases a' c hc with ⟨-, rfl⟩ | hc
      · exact Nat.lt_succ_self _
      · exact (h.serial a' c hc).trans (Nat.lt_succ_self _)
    · intro a₁ a₂ c h₁ h₂
      rcases hcases a₁ c h₁ with ⟨rfl, rfl⟩ | hc₁
      · rcases hcases a₂ cell h₂ with ⟨rfl, -⟩ | hc₂
        · rfl
        · -- the serial number of the new cell is larger than any before
          exact absurd (h.serial a₂ cell hc₂) (lt_irrefl _)
      · rcases hcases a₂ c h₂ with ⟨rfl, rfl⟩ | hc₂
        · exact absurd (h.serial a₁ cell hc₁) (lt_irrefl _)
        · exact h.distinct a₁ a₂ c hc₁ hc₂
    · exact fun c hc => (h.freedSerial c hc).trans (Nat.lt_succ_self _)
    · intro c hc
      obtain ⟨hbuilt, hpub, hgone⟩ := h.freed c hc
      refine ⟨hbuilt, hpub, fun a' hc' => ?_⟩
      rcases hcases a' c hc' with ⟨-, rfl⟩ | hc'
      · exact absurd (h.freedSerial cell hc) (lt_irrefl _)
      · exact hgone a' hc'
    · intro a' c hin
      have hc := h.inherited a' c hin
      rw [hheap a' (hne a' c hc)]
      exact hc
    · refine h.current.imp id fun ⟨a', c, hpub⟩ => ⟨a', c, ?_⟩
      exact hpub.congr rfl rfl rfl (hheap a' (hne a' c hpub.cell))
    · intro t' pc' hcall'
      -- the other calls see the same heap at their own addresses
      refine (h.pcs t' pc' hcall').congr rfl rfl rfl fun a' ha' => hheap a' ?_
      rintro rfl
      exact hfreshOther t' pc' hcall' ha'
    · intro r hr
      obtain ⟨a', hruntime, hc, howner, hattempts⟩ := h.returned r hr
      exact ⟨a', hruntime, (hheap a' (hne a' r.cell hc)).trans hc, howner, hattempts⟩
  obtain ⟨horigin, hstale⟩ := h.pcs t _ hcall
  refine halloc.setPc ⟨horigin, hstale.congr rfl, rfl, ⟨cell, hself, rfl, rfl, ?_⟩, ?_, ?_⟩ ?_
  · -- what was published is still allocated, at another address
    rcases h.current with ⟨hpub, -⟩ | ⟨a', c, hpub⟩
    · change cell ∉ m.published
      rw [hpub]
      exact List.not_mem_nil
    · change cell ∉ m.published
      rw [hpub.published, List.mem_singleton]
      rintro rfl
      exact absurd (h.serial a' cell hpub.cell) (lt_irrefl _)
  · intro hruntime
    obtain ⟨c, hc⟩ := h.runtime_valid hruntime
    exact hne a c hc rfl
  · intro horigin'
    obtain ⟨c, -, hc⟩ := h.origin_valid horigin'
    exact hne a c hc rfl
  · intro a' ha' t' pc' _ hcall'
    obtain rfl := Option.some.inj ha'
    exact hfreshOther t' pc' hcall'

/-- The compare-exchange of a call succeeds: its cell is the one the process publishes. -/
theorem CellInv.publish (h : CellInv l p m) {observed : Option ℕ} {fresh attempts : ℕ}
    (hcall : m.calls.lookup t = some (.exchanging observed fresh attempts))
    (hcas : m.runtime = observed) {cell : RuntimeCell}
    (hcell : m.heap.lookup fresh = some cell) :
    CellInv l p ((m.publish fresh cell).finish t cell (attempts + 1)) := by
  obtain ⟨horigin, hstale, rfl, hpriv⟩ := h.pcs t _ hcall
  obtain ⟨cell', hcell', howner, hbuilt, -⟩ := hpriv.cell
  obtain rfl : cell = cell' := Option.some.inj (hcell.symm.trans hcell')
  -- the pointer is still the inherited one, so that nothing was published or returned
  have hnone : m.published = [] := by
    rcases h.current with ⟨hpub, -⟩ | ⟨a, c, hpub⟩
    · exact hpub
    · exact absurd (horigin.symm.trans (hcas.symm.trans hpub.runtime)) hpub.origin
  -- a call that had returned would have read a cell of this process there
  have hreturned : m.returned = [] := by
    rw [List.eq_nil_iff_forall_not_mem]
    intro r hr
    obtain ⟨a, hruntime, hc, hown, -⟩ := h.returned r hr
    have hin : m.origin = some a := horigin.symm.trans (hcas.symm.trans hruntime)
    obtain ⟨c, hinherited, hc'⟩ := h.origin_valid hin
    obtain rfl : r.cell = c := Option.some.inj (hc.symm.trans hc')
    exact hstale a r.cell hinherited hown
  -- from now on this cell is the published one
  have hpub : Published p ((m.publish fresh cell).finish t cell 1) fresh cell := by
    refine ⟨hstale.congr rfl, rfl, hcell, ?_, howner, hbuilt, hpriv.origin⟩
    simp [Memory.finish, Memory.publish, hnone]
  refine ⟨h.builder, h.serial, h.distinct, h.freedSerial, ?_, h.inherited,
    Or.inr ⟨fresh, cell, hpub⟩, ?_, ?_, ?_⟩
  · intro c hc
    obtain ⟨hbuilt', -, hgone⟩ := h.freed c hc
    refine ⟨hbuilt', ?_, hgone⟩
    rw [hpub.published, List.mem_singleton]
    rintro rfl
    exact hgone fresh hcell
  · refine pcs_of_others (t := t) (fun _ _ => lookup_erase_other)
      (fun pc' hc => absurd hc lookup_erase_self) ?_
    intro t' pc' ht hcall'
    have hpc := h.pcs t' pc' hcall'
    -- another call has another address
    have hprivate : ∀ f, pc'.fresh = some f → Private p m f →
        Private p ((m.publish fresh cell).finish t cell 1) f := by
      intro f hf hp
      have hne : fresh ≠ f := by
        rintro rfl
        exact ht (h.separate t' t pc' _ fresh hcall' hcall hf rfl)
      obtain ⟨c, hc, hco, hcb, -⟩ := hp.cell
      refine ⟨⟨c, hc, hco, hcb, ?_⟩, ?_, hp.origin⟩
      · rw [hpub.published, List.mem_singleton]
        rintro rfl
        exact hne (h.distinct fresh f c hcell hc)
      · rw [hpub.runtime]
        exact fun heq => hne (Option.some.inj heq)
    cases pc' with
    | start => trivial
    | loaded o => exact Or.inr (hpc.elim (fun ho => ho.trans (hcas.trans horigin)) id)
    | building o => exact ⟨hpc.1, hstale.congr rfl⟩
    | exchanging o f k => exact ⟨hpc.1, hstale.congr rfl, hpc.2.2.1, hprivate f rfl hpc.2.2.2⟩
    | lost w f k => exact absurd hnone hpc.2.1
    | undefined => exact hpc
  · refine separate_of_others (t := t) h (fun _ _ => lookup_erase_other) ?_
    exact fun pc' a hc => absurd hc lookup_erase_self
  · intro r hr
    rcases List.mem_append.mp hr with hr | hr
    · have hr' : r ∈ m.returned := hr
      rw [hreturned] at hr'
      cases hr'
    · obtain rfl := List.mem_singleton.mp hr
      exact ⟨fresh, rfl, hcell, howner, le_rfl⟩

/-- A call that lost drops the cell it built, and returns the published one. -/
theorem CellInv.settle (h : CellInv l p m) {winner fresh attempts : ℕ}
    (hcall : m.calls.lookup t = some (.lost (some winner) fresh attempts)) {cell mine : RuntimeCell}
    (hcell : m.heap.lookup winner = some cell) (hmine : m.heap.lookup fresh = some mine) :
    CellInv l p ((m.free fresh mine).finish t cell attempts) := by
  obtain ⟨hwinner, hpublished, rfl, hpriv⟩ := h.pcs t _ hcall
  obtain ⟨mine', hmine', howner, hbuilt, hmineNot⟩ := hpriv.cell
  obtain rfl : mine = mine' := Option.some.inj (hmine.symm.trans hmine')
  -- the exchange was lost to a cell that is published
  obtain ⟨a, c, hpub⟩ : ∃ a c, Published p m a c :=
    h.current.resolve_left fun hcur => hpublished hcur.1
  obtain rfl : winner = a := Option.some.inj (hwinner.trans hpub.runtime)
  obtain rfl : cell = c := Option.some.inj (hcell.symm.trans hpub.cell)
  have hheap : ∀ a, a ≠ fresh → (m.heap.erase fresh).lookup a = m.heap.lookup a :=
    fun a ha => AList.lookup_erase_ne ha
  have hold : ∀ a c, (m.heap.erase fresh).lookup a = some c → m.heap.lookup a = some c := by
    intro a c hc
    by_cases ha : a = fresh
    · subst ha
      rw [AList.lookup_erase] at hc
      cases hc
    · rwa [hheap a ha] at hc
  -- only the private cell of this call is freed
  have hwinnerNe : winner ≠ fresh := by
    rintro rfl
    exact hpriv.runtime hpub.runtime
  refine ⟨fun a c hc => h.builder a c (hold a c hc), fun a c hc => h.serial a c (hold a c hc),
    fun a a' c hc hc' => h.distinct a a' c (hold a c hc) (hold a' c hc'), ?_, ?_, ?_, ?_, ?_, ?_,
    ?_⟩
  · intro c hc
    rcases List.mem_append.mp hc with hc | hc
    · exact h.freedSerial c hc
    · obtain rfl := List.mem_singleton.mp hc
      exact h.serial fresh c hmine
  · intro c hc
    rcases List.mem_append.mp hc with hc | hc
    · obtain ⟨hbuilt', hnot, hgone⟩ := h.freed c hc
      exact ⟨hbuilt', hnot, fun a hc' => hgone a (hold a c hc')⟩
    · obtain rfl := List.mem_singleton.mp hc
      refine ⟨hbuilt, hmineNot, fun a hc' => ?_⟩
      -- the cell was at one address only, which is free now
      obtain rfl := h.distinct a fresh c (hold a c hc') hmine
      change (m.heap.erase a).lookup a = some c at hc'
      rw [AList.lookup_erase] at hc'
      cases hc'
  · intro a c hin
    change m.inherited = some (a, c) at hin
    have hc := h.inherited a c hin
    refine (hheap a ?_).trans hc
    rintro rfl
    refine hpriv.origin ?_
    rw [Memory.origin, hin]
    rfl
  · exact Or.inr ⟨winner, cell, hpub.congr rfl rfl rfl (hheap winner hwinnerNe)⟩
  · refine pcs_of_others (t := t) (fun _ _ => lookup_erase_other)
      (fun pc' hc => absurd hc lookup_erase_self) ?_
    intro t' pc' ht hcall'
    refine (h.pcs t' pc' hcall').congr rfl rfl rfl fun f hf => hheap f ?_
    rintro rfl
    exact ht (h.separate t' t pc' _ f hcall' hcall hf rfl)
  · refine separate_of_others (t := t) h (fun _ _ => lookup_erase_other) ?_
    exact fun pc' a hc => absurd hc lookup_erase_self
  · intro r hr
    rcases List.mem_append.mp hr with hr | hr
    · obtain ⟨a, hruntime, hc, hown, hatt⟩ := h.returned r hr
      obtain rfl : winner = a := Option.some.inj (hwinner.trans hruntime)
      exact ⟨winner, hruntime, (hheap winner hwinnerNe).trans hc, hown, hatt⟩
    · obtain rfl := List.mem_singleton.mp hr
      exact ⟨winner, hpub.runtime, (hheap winner hwinnerNe).trans hcell, hpub.owner, le_rfl⟩

/-- What a step of the call of `t` does to this call: it ends, or it moves on. -/
def Progress (t : ℕ) (m m' : Memory) : Prop :=
  ∃ pc, m.calls.lookup t = some pc ∧
    (m'.calls.lookup t = none ∨ ∃ pc', m'.calls.lookup t = some pc' ∧ pc'.rank < pc.rank)

/-- A step to a lower rank is progress. -/
theorem progress_setPc {pc' : Pc} (hcall : m.calls.lookup t = some pc) (hrank : pc'.rank < pc.rank) :
    Progress t m (m'.setPc t pc') := by
  refine ⟨pc, hcall, Or.inr ⟨pc', ?_, hrank⟩⟩
  rw [Memory.setPc, AList.lookup_insert]

/-- So is a return. -/
theorem progress_finish {cell : RuntimeCell} {attempts : ℕ} (hcall : m.calls.lookup t = some pc) :
    Progress t m (m'.finish t cell attempts) := by
  refine ⟨pc, hcall, Or.inl ?_⟩
  rw [Memory.finish, AList.lookup_erase]

/-- A pointer that a call has loaded does not dangle. -/
theorem CellInv.loaded_valid (h : CellInv l p m) {observed : ℕ}
    (hpc : PcInv p m (.loaded (some observed))) : ∃ c, m.heap.lookup observed = some c := by
  rcases hpc with hruntime | horigin
  · exact h.runtime_valid hruntime.symm
  · obtain ⟨c, -, hc⟩ := h.origin_valid horigin.symm
    exact ⟨c, hc⟩

/-- A loaded cell of `p` is the current one. -/
theorem CellInv.loaded_own (h : CellInv l p m) {observed : ℕ} {c : RuntimeCell}
    (hpc : PcInv p m (.loaded (some observed))) (hc : m.heap.lookup observed = some c)
    (hown : c.owner = p.ident) : m.runtime = some observed := by
  rcases hpc with hruntime | horigin
  · exact hruntime.symm
  · obtain ⟨c', hin, hc'⟩ := h.origin_valid horigin.symm
    obtain rfl : c = c' := Option.some.inj (hc.symm.trans hc')
    rcases h.current with ⟨-, hruntime⟩ | ⟨a, c', hpub⟩
    · exact hruntime.trans horigin.symm
    · exact absurd hown (hpub.stale observed c hin)

/-- A loaded pointer to a cell that is not `p`'s, or to none, is the inherited one. -/
theorem CellInv.loaded_stale (h : CellInv l p m) {observed : Option ℕ}
    (hpc : PcInv p m (.loaded observed))
    (hown : ∀ a c, observed = some a → m.heap.lookup a = some c → c.owner ≠ p.ident) :
    PcInv p m (.building observed) := by
  have horigin : observed = m.origin := by
    rcases hpc with hruntime | horigin
    · rcases h.current with ⟨-, hcur⟩ | ⟨a, c, hpub⟩
      · exact hruntime.trans hcur
      · exact absurd hpub.owner (hown a c (hruntime.trans hpub.runtime) hpub.cell)
    · exact horigin
  refine ⟨horigin, fun a c hin => hown a c ?_ (h.inherited a c hin)⟩
  rw [horigin, Memory.origin, hin]
  rfl

/-- A step of a call keeps the memory consistent and brings the call to its end. -/
theorem CellInv.advance (h : CellInv l p m) (hp : p ∈ l) {a : ℕ}
    (hadv : advance p m t a = some m') : CellInv l p m' ∧ Progress t m m' := by
  cases hcall : m.calls.lookup t with
  | none => simp [RuntimeCells.advance, hcall] at hadv
  | some pc =>
    have hpc := h.pcs t pc hcall
    cases pc with
    | undefined => exact hpc.elim
    | start =>
      obtain rfl : m.setPc t (.loaded m.runtime) = m' := by
        simpa [RuntimeCells.advance, hcall] using hadv
      exact ⟨h.setPc (Or.inl rfl) (by simp [Pc.fresh]),
        progress_setPc hcall (Nat.lt_succ_self _)⟩
    | loaded observed =>
      cases observed with
      | none =>
        obtain rfl : m.setPc t (.building none) = m' := by
          simpa [RuntimeCells.advance, hcall] using hadv
        exact ⟨h.setPc (h.loaded_stale hpc (by simp)) (by simp [Pc.fresh]),
          progress_setPc hcall (Nat.lt_succ_self _)⟩
      | some observed =>
        -- what was loaded is still allocated, so the owner can be read
        obtain ⟨c, hc⟩ := h.loaded_valid hpc
        by_cases hown : c.owner = p.ident
        · obtain rfl : m.finish t c 0 = m' := by
            simpa [RuntimeCells.advance, hcall, hc, hown] using hadv
          -- a cell of this process is returned as it is
          refine ⟨h.ended ?_, progress_finish hcall⟩
          intro r hr
          obtain rfl := List.mem_singleton.mp hr
          exact ⟨observed, h.loaded_own hpc hc hown, hc, hown, Nat.zero_le 1⟩
        · obtain rfl : m.setPc t (.building (some observed)) = m' := by
            simpa [RuntimeCells.advance, hcall, hc, hown] using hadv
          refine ⟨h.setPc (h.loaded_stale hpc ?_) (by simp [Pc.fresh]),
            progress_setPc hcall (Nat.lt_succ_self _)⟩
          intro a c' ha hc'
          obtain rfl := Option.some.inj ha
          obtain rfl : c = c' := Option.some.inj (hc.symm.trans hc')
          exact hown
    | building observed =>
      by_cases ha : a ∈ m.heap
      · simp [RuntimeCells.advance, hcall, ha] at hadv
      · simp only [RuntimeCells.advance, hcall, ha, if_false, Option.some.injEq] at hadv
        subst hadv
        -- a cell of its own, at an address that is free
        exact ⟨h.build hp ha hcall, progress_setPc hcall (Nat.lt_succ_self _)⟩
    | exchanging observed fresh attempts =>
      obtain ⟨horigin, hstale, rfl, hpriv⟩ := hpc
      obtain ⟨cell, hcell, -⟩ := hpriv.cell
      by_cases hcas : m.runtime = observed
      · obtain rfl : (m.publish fresh cell).finish t cell 1 = m' := by
          simpa [RuntimeCells.advance, hcall, hcas, hcell] using hadv
        -- the exchange succeeds, and the call returns its own cell
        exact ⟨h.publish hcall hcas hcell, progress_finish hcall⟩
      · obtain rfl : m.setPc t (.lost m.runtime fresh 1) = m' := by
          simpa [RuntimeCells.advance, hcall, hcas] using hadv
        refine ⟨h.setPc ⟨rfl, ?_, rfl, hpriv⟩ ?_, progress_setPc hcall (Nat.lt_succ_self _)⟩
        · -- the pointer has changed, so that a cell was published
          intro hnone
          rcases h.current with ⟨-, hruntime⟩ | ⟨a, c, hpub⟩
          · exact hcas (hruntime.trans horigin.symm)
          · rw [hpub.published] at hnone
            cases hnone
        · intro f hf t' pc' ht hcall' hf'
          exact ht (h.separate t' t pc' _ f hcall' hcall hf' hf)
    | lost winner fresh attempts =>
      obtain ⟨hwinner, hpublished, rfl, hpriv⟩ := hpc
      obtain ⟨mine, hmine, -⟩ := hpriv.cell
      -- the winner is a cell of this process, since something was published
      obtain ⟨w, cell, hpub⟩ : ∃ w cell, Published p m w cell :=
        h.current.resolve_left fun hcur => hpublished hcur.1
      obtain rfl : winner = some w := hwinner.trans hpub.runtime
      obtain rfl : (m.free fresh mine).finish t cell 1 = m' := by
        simpa [RuntimeCells.advance, hcall, hpub.cell, hpub.owner, hmine] using hadv
      exact ⟨h.settle hcall hpub.cell hmine, progress_finish hcall⟩

/-- The next step of a call in progress is always possible. -/
theorem CellInv.exists_advance (h : CellInv l p m) (hcall : m.calls.lookup t = some pc) :
    ∃ a m', RuntimeCells.advance p m t a = some m' := by
  -- there is always an address that is not in use
  obtain ⟨a, ha⟩ := Infinite.exists_notMem_finset m.heap.keys.toFinset
  have ha' : a ∉ m.heap := by
    rw [AList.mem_keys]
    simpa using ha
  refine ⟨a, Option.isSome_iff_exists.mp ?_⟩
  have hpc := h.pcs t pc hcall
  cases pc with
  | undefined => exact hpc.elim
  | start => simp [RuntimeCells.advance, hcall]
  | loaded observed =>
    cases observed with
    | none => simp [RuntimeCells.advance, hcall]
    | some observed =>
      obtain ⟨c, hc⟩ := h.loaded_valid hpc
      by_cases hown : c.owner = p.ident <;> simp [RuntimeCells.advance, hcall, hc, hown]
  | building observed => simp [RuntimeCells.advance, hcall, ha']
  | exchanging observed fresh attempts =>
    obtain ⟨c, hc, -⟩ := hpc.2.2.2.cell
    by_cases hcas : m.runtime = observed <;> simp [RuntimeCells.advance, hcall, hc, hcas]
  | lost winner fresh attempts =>
    obtain ⟨mine, hmine, -⟩ := hpc.2.2.2.cell
    cases winner with
    | none => simp [RuntimeCells.advance, hcall]
    | some winner =>
      cases hc : m.heap.lookup winner with
      | none => simp [RuntimeCells.advance, hcall, hc]
      | some c => by_cases hown : c.owner = p.ident <;>
          simp [RuntimeCells.advance, hcall, hc, hown, hmine]

/-- No call tries more than twice. -/
theorem PcInv.attempts_le (h : PcInv p m pc) : pc.attempts ≤ 1 := by
  cases pc with
  | exchanging observed fresh attempts =>
    obtain ⟨-, -, rfl, -⟩ := h
    exact Nat.zero_le 1
  | lost winner fresh attempts =>
    obtain ⟨-, -, rfl, -⟩ := h
    exact le_rfl
  | _ => exact Nat.zero_le 1

/-- A call that begins keeps the invariant. -/
theorem CellInv.enter (h : CellInv l p m) (henter : enter m t = some m') : CellInv l p m' := by
  by_cases ht : t ∈ m.calls
  · simp [RuntimeCells.enter, ht] at henter
  · obtain rfl : m.setPc t .start = m' := by simpa [RuntimeCells.enter, ht] using henter
    exact h.setPc trivial (by simp [Pc.fresh])

/-- So does a panic while a cell is built. -/
theorem CellInv.panicInBuild (h : CellInv l p m) (hpanic : panicInBuild m t = some m') :
    CellInv l p m' := by
  have hended : CellInv l p { m with calls := m.calls.erase t, returned := m.returned ++ [] } :=
    h.ended (by simp)
  rw [List.append_nil] at hended
  unfold RuntimeCells.panicInBuild at hpanic
  split at hpanic
  · obtain rfl := Option.some.inj hpanic
    exact hended
  · cases hpanic

/-- A child starts from a consistent memory. -/
theorem CellInv.forked (h : CellInv l p m) (c : Proc ProcessIdentity) :
    CellInv (c :: l) c m.forked := by
  have hinherited : ∀ a cell, m.forked.inherited = some (a, cell) →
      m.runtime = some a ∧ m.heap.lookup a = some cell := by
    intro a cell hin
    obtain ⟨a', hruntime, hmap⟩ := Option.bind_eq_some_iff.mp hin
    obtain ⟨cell', hcell, heq⟩ := Option.map_eq_some_iff.mp hmap
    cases heq
    exact ⟨hruntime, hcell⟩
  refine ⟨?_, h.serial, h.distinct, by simp [Memory.forked], by simp [Memory.forked],
    fun a cell hin => (hinherited a cell hin).2, Or.inl ⟨rfl, ?_⟩, by simp [Memory.forked],
    by simp [Memory.forked], by simp [Memory.forked]⟩
  · intro a cell hcell
    obtain ⟨q, hq, hq'⟩ := h.builder a cell hcell
    exact ⟨q, List.mem_cons_of_mem c hq, hq'⟩
  · cases hruntime : m.runtime with
    | none => simp [Memory.forked, Memory.origin, hruntime]
    | some a =>
      obtain ⟨cell, hcell⟩ := h.runtime_valid hruntime
      simp [Memory.forked, Memory.origin, hruntime, hcell]

end Invariant

/-! ## Every branch, every tree -/

/-- It holds on every branch of the process tree. -/
theorem cellInv_of_run {b : Branch ProcessIdentity Memory} (h : cellSystem.Run b) :
    CellInv b.lineage b.self b.mem := by
  induction h with
  | root hroot => exact cellInv_initial
  | @step b m hrun hstep ih =>
    obtain ⟨t, a, henter | hpanic | hadvance⟩ := hstep
    · exact ih.enter henter
    · exact ih.panicInBuild hpanic
    · exact (ih.advance b.self_mem_lineage hadvance).1
  | fork hrun hident hfresh ih => exact ih.forked _

/-- One runtime per process. In every process of every tree, whatever its threads do: all calls of
`runtime()` that returned gave one cell, tagged with the identity of this process, and built by it
if it has fewer than `2 ^ 32` ancestors; the process publishes one cell at most; a cell it frees is
one it built, and no process of the tree published it; no call reads a dangling pointer; and a call
makes one compare-exchange at most, can always make its next step, and ends after at most five. -/
theorem runtime_cell_invariant {t : List (Branch ProcessIdentity Memory)}
    (ht : cellSystem.TreeRun t) {b : Branch ProcessIdentity Memory} (hb : b ∈ t) :
    (∀ r ∈ b.mem.returned, r.cell.owner = b.self.ident ∧ r.attempts ≤ 2 ∧
      (b.ancestors.length < 2 ^ 32 → r.cell.builtIn = b.self.name)) ∧
    (∀ r ∈ b.mem.returned, ∀ r' ∈ b.mem.returned, r.cell = r'.cell) ∧
    b.mem.published.length ≤ 1 ∧
    (∀ c ∈ b.mem.freed, c.builtIn = b.self.name ∧ ∀ b' ∈ t, c ∉ b'.mem.published) ∧
    (∀ i pc, b.mem.calls.lookup i = some pc →
      pc ≠ .undefined ∧ pc.attempts ≤ 2 ∧
      (∃ a m, advance b.self b.mem i a = some m) ∧
      ∀ a m, advance b.self b.mem i a = some m → Progress i b.mem m) := by
  obtain ⟨i, hi⟩ := List.mem_iff_getElem?.mp hb
  obtain ⟨hname, -, hrun⟩ := ht.run hi
  have hinv := cellInv_of_run hrun
  refine ⟨?_, ?_, ?_, ?_, ?_⟩
  · intro r hr
    obtain ⟨a, -, hcell, howner, hattempts⟩ := hinv.returned r hr
    refine ⟨howner, hattempts.trans (Nat.le_succ 1), fun hforks => ?_⟩
    obtain ⟨q, hq, hident, hbuilt⟩ := hinv.builder a r.cell hcell
    -- within a lineage of fewer than 2 ^ 32 processes the identity names one
    rw [hbuilt, ident_injOn hrun hforks hq b.self_mem_lineage (hident.symm.trans howner)]
  · intro r hr r' hr'
    obtain ⟨a, hruntime, hcell, -⟩ := hinv.returned r hr
    obtain ⟨a', hruntime', hcell', -⟩ := hinv.returned r' hr'
    -- the pointer was never changed after the first return
    obtain rfl : a = a' := Option.some.inj (hruntime.symm.trans hruntime')
    exact Option.some.inj (hcell.symm.trans hcell')
  · rcases hinv.current with ⟨hpub, -⟩ | ⟨a, c, hpub⟩
    · rw [hpub]
      exact Nat.zero_le 1
    · rw [hpub.published]
      exact le_rfl
  · intro c hc
    obtain ⟨hbuilt, hnot, -⟩ := hinv.freed c hc
    refine ⟨hbuilt, fun b' hb' hmem => ?_⟩
    obtain ⟨j, hj⟩ := List.mem_iff_getElem?.mp hb'
    obtain ⟨hname', -, hrun'⟩ := ht.run hj
    -- the cell was built by the process that published it, so this is the process that freed it
    rcases (cellInv_of_run hrun').current with ⟨hpub, -⟩ | ⟨a, c', hpub⟩
    · rw [hpub] at hmem
      cases hmem
    · rw [hpub.published, List.mem_singleton] at hmem
      have hij : i = j := by
        rw [← hname, ← hname', ← hbuilt, hmem, hpub.builtIn]
      obtain rfl : b = b' := Option.some.inj (hi.symm.trans (hij ▸ hj))
      exact hnot (by rw [hpub.published, hmem]; exact List.mem_singleton_self _)
  · intro j pc hcall
    have hpc := hinv.pcs j pc hcall
    refine ⟨?_, hpc.attempts_le.trans (Nat.le_succ 1), hinv.exists_advance hcall, ?_⟩
    · rintro rfl
      exact hpc
    · exact fun a m hadv => (hinv.advance b.self_mem_lineage hadv).2


/-- The threads in `schedule` make a step each, in this order. A new cell is put at a new address. -/
def advanceAll (p : Proc ProcessIdentity) (m : Memory) (schedule : List ℕ) : Option Memory :=
  schedule.foldlM (fun m t => advance p m t m.built) m

/-- A schedule is a run of the tree. -/
theorem treeRun_advanceAll {p : Proc ProcessIdentity} {m m' : Memory} {schedule : List ℕ}
    (h : cellSystem.TreeRun [⟨p, [], m⟩]) (hadv : advanceAll p m schedule = some m') :
    cellSystem.TreeRun [⟨p, [], m'⟩] := by
  induction schedule generalizing m with
  | nil =>
    obtain rfl := Option.some.inj hadv
    exact h
  | cons t schedule ih =>
    rw [advanceAll, List.foldlM_cons] at hadv
    obtain ⟨m₁, hstep, hrest⟩ := Option.bind_eq_some_iff.mp hadv
    exact ih (h.act (p := 0) rfl ⟨t, m.built, Or.inr (Or.inr hstep)⟩) hrest

/-- Two threads of one process that call `runtime()` at the same time. -/
def raceStart : Memory := (Memory.initial.setPc 0 .start).setPc 1 .start

/-- Both threads build a cell; the second one loses, drops its own and returns the other's. -/
theorem runtime_cell_invariant_race :
    ∃ m, advanceAll ⟨0, ⟨100, 0⟩⟩ raceStart [0, 1, 0, 1, 0, 1, 0, 1, 1] = some m ∧
      m.returned.length = 2 ∧ m.freed.length = 1 ∧
      ∀ r ∈ m.returned, ∀ r' ∈ m.returned, r.cell = r'.cell := by
  have hroot : cellSystem.TreeRun [⟨⟨0, ⟨100, 0⟩⟩, [], Memory.initial⟩] :=
    System.TreeRun.root (S := cellSystem) (And.intro rfl (by decide))
  have hfirst := hroot.act (p := 0) rfl ⟨0, 0, Or.inl rfl⟩
  have hstart := hfirst.act (p := 0) rfl ⟨1, 0, Or.inl rfl⟩
  have hrun : (advanceAll ⟨0, ⟨100, 0⟩⟩ raceStart [0, 1, 0, 1, 0, 1, 0, 1, 1]).isSome := by decide
  obtain ⟨m, hm⟩ := Option.isSome_iff_exists.mp hrun
  have hreturned : (advanceAll ⟨0, ⟨100, 0⟩⟩ raceStart [0, 1, 0, 1, 0, 1, 0, 1, 1]).map
      (fun m => (m.returned.length, m.freed.length)) = some (2, 1) := by decide
  rw [hm, Option.map_some, Option.some.injEq, Prod.mk.injEq] at hreturned
  have htree := treeRun_advanceAll hstart hm
  exact ⟨m, hm, hreturned.1, hreturned.2,
    (runtime_cell_invariant htree (List.mem_singleton.mpr rfl)).2.1⟩

end MicrosandboxRb.RuntimeCells
