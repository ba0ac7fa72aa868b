import MicrosandboxRb.Stream.Served

/-!
# `each`

`ExecHandle#each`, `LogStream#each`, `MetricsStream#each` and `FsReadStream#each` (`exec_handle.rb`,
`streams.rb`, `fs.rb`) are one loop: as long as the native `recv` returns something other than nil,
it is wrapped into an object and given to the block.

Any number of threads run `each` on one handle, again and again, while other threads call its other
methods. The VM switches threads between any two steps. An exception raised from outside reaches a
thread on its way into the native call, or between its return and the block; the native call itself
is not interrupted.

## Main definitions

* `EachClass`: a class of handles with `each`;
* `Readers.Step`: the steps of the threads.

## Main results

* `Readers.Reaches.inv`: what the blocks have been given, from what the core has served;
* `each_delivers`: no item is given to two blocks, none is lost, and each thread has its items in the
  order in which the core gave them.
-/

namespace MicrosandboxRb.Stream

open AsyncMutex

/-! ## The objects that are yielded -/

/-- `String#to_sym`, and no other class of value here has it. -/
def Field.toSym : Field → Option String
  | .str s => some s
  | _ => none

/-- An `ExecEvent`, with its instance variables. -/
structure ExecEventObject where
  type : String
  pid : Field
  code : Field
  data : Field

/-- `ExecEvent.new`. -/
def ExecEventObject.new (event : Hash) : Option ExecEventObject := do
  let type ← (event.get "type").toSym
  return { type, pid := event.get "pid", code := event.get "code", data := event.get "data" }

/-- An Integer or nil. -/
def Field.toOption : Field → Option ℤ
  | .int n => some n
  | _ => none

/-- A field that was written is read back. -/
@[simp] theorem Field.toOption_ofOption (n : Option ℤ) : (Field.ofOption n).toOption = n := by
  cases n <;> rfl

/-- The event of the core that an object stands for. -/
def ExecEventObject.event (o : ExecEventObject) : Option ExecEvent :=
  match o.type, o.pid, o.code, o.data with
  | "started", .int pid, _, _ => some (.started pid.toNat)
  | "stdout", _, _, .bytes data => some (.stdout data)
  | "stderr", _, _, .bytes data => some (.stderr data)
  | "exited", _, .int code, _ => some (.exited code)
  | "failed", _, code, .bytes message => some (.failed { message, errno := code.toOption })
  | "stdin_error", _, code, .bytes message => some (.stdinError { message, errno := code.toOption })
  | _, _, _, _ => none

/-- No event is lost or changed on its way from the core to the block. -/
theorem ExecEventObject.event_new (event : ExecEvent) :
    (ExecEventObject.new (execEventToHash event)).bind ExecEventObject.event = some event := by
  cases event with
  | started pid => rfl
  | stdout data => rfl
  | stderr data => rfl
  | exited code => rfl
  | failed payload | stdinError payload =>
    simp [ExecEventObject.new, execEventToHash, Hash.get, List.lookup, Field.toSym, event]

/-- A `LogEntry` of the Ruby side. -/
structure LogEntryObject where
  timestampMs : Field
  source : String
  sessionId : Field
  cursor : Field
  data : Field

/-- `LogEntry.new`. -/
def LogEntryObject.new (entry : Hash) : Option LogEntryObject := do
  let source ← (entry.get "source").toSym
  return { timestampMs := entry.get "timestamp_ms", source, sessionId := entry.get "session_id",
           cursor := entry.get "cursor", data := entry.get "data" }

/-- The entry of the core that an object stands for, with its timestamp to the millisecond. -/
def LogEntryObject.entry (o : LogEntryObject) : Option (ℤ × String × Option ℤ × String × Bytes) :=
  match o.timestampMs, o.cursor, o.data with
  | .int ms, .str cursor, .bytes data => some (ms, o.source, o.sessionId.toOption, cursor, data)
  | _, _, _ => none

/-- The object holds what the core delivered. -/
theorem LogEntryObject.entry_new (entry : LogEntry) :
    (LogEntryObject.new (logEntryToHash entry)).bind LogEntryObject.entry =
      some (timestampMillis entry.timestamp, entry.source.str, entry.sessionId.map Nat.cast,
        entry.cursor, entry.data) := by
  simp [LogEntryObject.new, logEntryToHash, Hash.get, List.lookup, Field.toSym, LogEntryObject.entry]

/-- A `Metrics` of the Ruby side. -/
structure MetricsObject where
  cpuPercent : Field
  vcpuTimeNs : Field
  memoryBytes : Field
  memoryAvailableBytes : Field
  memoryHostResidentBytes : Field
  memoryLimitBytes : Field
  diskReadBytes : Field
  diskWriteBytes : Field
  netRxBytes : Field
  netTxBytes : Field
  upperUsedBytes : Field
  upperFreeBytes : Field
  upperHostAllocatedBytes : Field
  uptimeSecs : Field
  timestampMs : Field

/-- `Metrics.new`. -/
def MetricsObject.new (data : Hash) : MetricsObject where
  cpuPercent := data.get "cpu_percent"
  vcpuTimeNs := data.get "vcpu_time_ns"
  memoryBytes := data.get "memory_bytes"
  memoryAvailableBytes := data.get "memory_available_bytes"
  memoryHostResidentBytes := data.get "memory_host_resident_bytes"
  memoryLimitBytes := data.get "memory_limit_bytes"
  diskReadBytes := data.get "disk_read_bytes"
  diskWriteBytes := data.get "disk_write_bytes"
  netRxBytes := data.get "net_rx_bytes"
  netTxBytes := data.get "net_tx_bytes"
  upperUsedBytes := data.get "upper_used_bytes"
  upperFreeBytes := data.get "upper_free_bytes"
  upperHostAllocatedBytes := data.get "upper_host_allocated_bytes"
  uptimeSecs := data.get "uptime_secs"
  timestampMs := data.get "timestamp_ms"

/-! ## The loop -/

/-- A class of handles with `each`. -/
structure EachClass {Core : Type} (Reply : Core → Type) (Methods Obj : Type) where
  handles : HandleClass Reply Methods
  /-- The native method that `each` calls. -/
  recv : Methods
  /-- What `each` makes of the value that it gives to the block. -/
  new : Value → Option Obj
  recv_guarded : (handles.one recv).guarded = true
  new_isSome : ∀ r v, (handles.one recv).finish r = .ok v → v ≠ .nil → (new v).isSome

/-- Who makes a native call. -/
inductive Caller (Methods : Type) where
  /-- The `each` of a thread. -/
  | each (t : ℕ)
  | direct (m : Methods)

/-- The thread that reads in a call of `each`. -/
def Caller.reader {Methods : Type} : Caller Methods → Option ℕ
  | .each t => some t
  | .direct _ => none

/-- Where a thread stands. -/
inductive Turn where
  | outside
  /-- In the native call with this number. -/
  | receiving (i : ℕ)
  | block
deriving DecidableEq

/-- What has become of a call of `each`. -/
inductive Fate where
  | yielded
  /-- It returned nil, and `each` returned. -/
  | finished
  | raised
  /-- An exception from outside was raised in the thread before the block was called. -/
  | interrupted
deriving DecidableEq

/-- A handle and the threads that use it. -/
structure Readers {Core : Type} (Reply : Core → Type) (Obj E : Type) where
  calls : Calls.State Unit Reply Value E
  turn : ℕ → Turn
  fate : ℕ → Option Fate
  /-- What the blocks of a thread have been given. -/
  yielded : ℕ → List Obj

namespace EachClass

variable {Core Methods Obj E : Type} {Reply : Core → Type}

/-- The native method of a call. -/
def method (C : EachClass Reply Methods Obj) (caller : ℕ → Caller Methods) (i : ℕ) : Methods :=
  match caller i with
  | .each _ => C.recv
  | .direct m => m

/-- The call of the core behind `recv`. -/
abbrev core (C : EachClass Reply Methods Obj) : Core := (C.handles.one C.recv).core

/-- The item that the block is given for an answer of the core. -/
def taken (C : EachClass Reply Methods Obj) (r : Reply C.core) : Option Obj :=
  match (C.handles.one C.recv).finish r with
  | .ok .nil => none
  | .ok v => C.new v
  | .error _ => none

/-- What a reply delivers to the block, if anything. -/
def item [DecidableEq Core] (C : EachClass Reply Methods Obj) : Outcome Reply → Option Obj
  | .answered c r => if h : c = C.core then C.taken (h ▸ r) else none
  | .panicked _ => none

/-- The reply of the core's own call. -/
@[simp] theorem item_answered [DecidableEq Core] (C : EachClass Reply Methods Obj)
    (r : Reply C.core) : C.item (.answered C.core r) = C.taken r := by
  simp [item]

/-- What the native method returns can be wrapped. -/
theorem exists_taken (C : EachClass Reply Methods Obj) {r : Reply C.core} {v : Value}
    (hr : (C.handles.one C.recv).finish r = .ok v) (hv : v ≠ .nil) :
    ∃ obj, C.taken r = some obj := by
  obtain ⟨obj, hobj⟩ := Option.isSome_iff_exists.mp (C.new_isSome r v hr hv)
  refine ⟨obj, ?_⟩
  rw [taken, hr]
  cases v with
  | nil => exact absurd rfl hv
  | bytes | hash => exact hobj

end EachClass

namespace Readers

variable {Core Methods Obj E : Type} {Reply : Core → Type}

/-- Before the first call. -/
def init : Readers Reply Obj E where
  calls := .init ()
  turn _ := .outside
  fate _ := none
  yielded _ := []

/-- The native call number `i` has come to an end, with a result that satisfies `P` if it has
returned. -/
def Ended (s : Readers Reply Obj E) (P : Except RubyError Value → Prop) (i : ℕ) : Prop :=
  (∃ a, P a ∧ (i, .returned a) ∈ s.calls.world.log) ∨
    (∃ e, s.calls.entry i = some (.failed e)) ∨ ∃ c, (i, .panicked c) ∈ s.calls.world.log

/-- A call that has ended. -/
abbrev Over (s : Readers Reply Obj E) (i : ℕ) : Prop := s.Ended (fun _ => True) i

/-- The native call has raised. -/
abbrev Raised (s : Readers Reply Obj E) (i : ℕ) : Prop := s.Ended (fun a => ∃ e, a = .error e) i

/-- Call number `i` is made. -/
def make (s : Readers Reply Obj E) (i : ℕ) : Readers Reply Obj E :=
  { s with calls := { s.calls with entry := Function.update s.calls.entry i (some .get) } }

/-- A thread goes on with its turn. -/
def move (s : Readers Reply Obj E) (t : ℕ) (u : Turn) : Readers Reply Obj E :=
  { s with turn := Function.update s.turn t u }

/-- What became of a call is decided. -/
def settle (s : Readers Reply Obj E) (i : ℕ) (f : Fate) : Readers Reply Obj E :=
  { s with fate := Function.update s.fate i (some f) }

/-- A thread is given an object. -/
def give (s : Readers Reply Obj E) (t : ℕ) (obj : Obj) : Readers Reply Obj E :=
  { s with yielded := Function.update s.yielded t (s.yielded t ++ [obj]) }

/-- The steps of the threads. -/
inductive Step (C : EachClass Reply Methods Obj) (caller : ℕ → Caller Methods)
    (s : Readers Reply Obj E) : Readers Reply Obj E → Prop
  /-- A thread that enters `each`, or whose block has returned, calls `recv`. -/
  | receive {t i : ℕ} : caller i = .each t → (∀ j, s.turn t ≠ .receiving j) →
      s.calls.entry i = none → Step C caller s ((s.make i).move t (.receiving i))
  /-- A method of the handle is called directly. -/
  | call {m : Methods} {i : ℕ} : caller i = .direct m → s.calls.entry i = none →
      Step C caller s (s.make i)
  /-- A call that has been made goes on. -/
  | native {c : Calls.State Unit Reply Value E} :
      Calls.Goes (fun i => C.handles.future (C.method caller i)) s.calls c →
      Step C caller s { s with calls := c }
  /-- The block is called. -/
  | yield {t i : ℕ} {v : Value} {obj : Obj} : s.turn t = .receiving i →
      (i, .returned (.ok v)) ∈ s.calls.world.log → v ≠ .nil → C.new v = some obj →
      Step C caller s (((s.move t .block).settle i .yielded).give t obj)
  /-- `each` returns. -/
  | finish {t i : ℕ} : s.turn t = .receiving i →
      (i, .returned (.ok .nil)) ∈ s.calls.world.log →
      Step C caller s ((s.move t .outside).settle i .finished)
  /-- The native call raises. -/
  | raise {t i : ℕ} : s.turn t = .receiving i → s.Raised i →
      Step C caller s ((s.move t .outside).settle i .raised)
  /-- An exception from outside is raised after the native call has returned. -/
  | interrupt {t i : ℕ} {a : Except RubyError Value} : s.turn t = .receiving i →
      (i, .returned a) ∈ s.calls.world.log →
      Step C caller s ((s.move t .outside).settle i .interrupted)
  /-- The block ends `each`. -/
  | leave {t : ℕ} : s.turn t = .block → Step C caller s (s.move t .outside)

/-- The states that the threads reach. -/
inductive Reaches (C : EachClass Reply Methods Obj) (caller : ℕ → Caller Methods) :
    Readers Reply Obj E → Prop
  | init : Reaches C caller .init
  | step {s s' : Readers Reply Obj E} : Reaches C caller s → Step C caller s s' →
      Reaches C caller s'

section Fields

variable (s : Readers Reply Obj E) (i t : ℕ) (u : Turn) (f : Fate) (obj : Obj)

@[simp] theorem entry_make :
    (s.make i).calls.entry = Function.update s.calls.entry i (some .get) := rfl

@[simp] theorem world_make : (s.make i).calls.world = s.calls.world := rfl

@[simp] theorem turn_make : (s.make i).turn = s.turn := rfl

@[simp] theorem fate_make : (s.make i).fate = s.fate := rfl

@[simp] theorem yielded_make : (s.make i).yielded = s.yielded := rfl

@[simp] theorem calls_move : (s.move t u).calls = s.calls := rfl

@[simp] theorem turn_move : (s.move t u).turn = Function.update s.turn t u := rfl

@[simp] theorem fate_move : (s.move t u).fate = s.fate := rfl

@[simp] theorem yielded_move : (s.move t u).yielded = s.yielded := rfl

@[simp] theorem calls_settle : (s.settle i f).calls = s.calls := rfl

@[simp] theorem turn_settle : (s.settle i f).turn = s.turn := rfl

@[simp] theorem fate_settle : (s.settle i f).fate = Function.update s.fate i (some f) := rfl

@[simp] theorem yielded_settle : (s.settle i f).yielded = s.yielded := rfl

@[simp] theorem calls_give : (s.give t obj).calls = s.calls := rfl

@[simp] theorem turn_give : (s.give t obj).turn = s.turn := rfl

@[simp] theorem fate_give : (s.give t obj).fate = s.fate := rfl

@[simp] theorem yielded_give :
    (s.give t obj).yielded = Function.update s.yielded t (s.yielded t ++ [obj]) := rfl

end Fields

/-! ## Calls -/

section Calls

variable {C : EachClass Reply Methods Obj} {caller : ℕ → Caller Methods} {s s' : Readers Reply Obj E}
  {i j t : ℕ}

/-- The native calls alone. -/
theorem Reaches.calls (h : Reaches C caller s) :
    C.handles.Reaches (C.method caller) s.calls := by
  induction h with
  | init => exact .init
  | step _ hstep ih =>
    cases hstep with
    | receive _ _ hnew | call _ hnew => exact ih.step (.invoke _ hnew)
    | native hgoes => exact ih.step hgoes.1
    | yield | finish | raise | interrupt | leave => exact ih

/-- The calls that have been served, with how they ended. -/
abbrev served (C : EachClass Reply Methods Obj) (caller : ℕ → Caller Methods)
    (s : Readers Reply Obj E) : List (ℕ × Outcome Reply) :=
  AsyncMutex.served (fun i => C.handles.one (C.method caller i)) s.calls.world.log

/-- The native calls take the steps of a run. -/
theorem Reaches.run (h : Reaches C caller s) :
    Run (fun i => (C.handles.one (C.method caller i)).future) () s.calls.world :=
  HandleClass.Reaches.run h.calls

/-- A call with an event has been polled. -/
theorem Reaches.polled (h : Reaches C caller s) {e : Event Unit Reply (Except RubyError Value)}
    (hmem : (i, e) ∈ s.calls.world.log) : s.calls.entry i = some .polled := by
  by_contra hpolled
  rw [← mem_eventsOf, Calls.Reaches.eventsOf_eq_nil h.calls hpolled] at hmem
  cases hmem

/-- A task that can go on is not over. -/
theorem Reaches.not_over (h : Reaches C caller s) {e : Event Unit Reply (Except RubyError Value)}
    {w : World Unit Reply (Except RubyError Value)} (hact : Act s.calls.world i e w) :
    ¬ s.Over i := by
  have hended := h.run.not_ended hact
  simp only [mem_eventsOf] at hended
  rintro (⟨a, -, hret⟩ | ⟨e', hfailed⟩ | hpanic)
  · exact hended (Or.inl ⟨a, hret⟩)
  · obtain ⟨htask, -, -⟩ := hact
    rw [(Calls.Reaches.run h.calls).2 i (by simp [hfailed])] at htask
    cases htask
  · exact hended (Or.inr hpanic)

/-- A call that has not been made has not been served. -/
theorem Reaches.not_served (h : Reaches C caller s) (hnew : s.calls.entry i = none) :
    i ∉ (s.served C caller).map Prod.fst := by
  rw [mem_served, Calls.Reaches.eventsOf_eq_nil h.calls (by simp [hnew])]
  simp

/-- A call is served once. -/
theorem Reaches.served_nodup (h : Reaches C caller s) :
    ((s.served C caller).map Prod.fst).Nodup := by
  have honce := h.run.locked_nodup
  rw [h.run.order] at honce
  exact (List.nodup_append.mp honce).1

/-- A call of `each` receives. -/
theorem method_of_each (hcaller : caller i = .each t) : C.method caller i = C.recv := by
  rw [EachClass.method, hcaller]

/-- What a call of `each` was answered, when it has returned. -/
theorem Reaches.answered (h : Reaches C caller s) (hcaller : caller i = .each t)
    {a : Except RubyError Value} (hret : (i, .returned a) ∈ s.calls.world.log) :
    ∃ r, (i, .answered C.core r) ∈ s.served C caller ∧ a = (C.handles.one C.recv).finish r := by
  have hlinear : ∀ m, C.method caller i = m → (C.handles.one m).guarded = true →
      ∃ r, (i, .answered (C.handles.one m).core r) ∈ s.served C caller ∧
        a = (C.handles.one m).finish r := by
    rintro m rfl hguarded
    exact (h.run.linearized fun _ _ _ => True).returned i a hguarded hret
  exact hlinear C.recv (method_of_each hcaller) C.recv_guarded

/-- A call is answered once. -/
theorem Reaches.answer_unique (h : Reaches C caller s) {r r' : Reply C.core}
    (hr : (i, .answered C.core r) ∈ s.served C caller)
    (hr' : (i, .answered C.core r') ∈ s.served C caller) : r = r' := by
  have hpairs := List.inj_on_of_nodup_map h.served_nodup hr hr' rfl
  simpa using hpairs

/-- A call that has been made is not new. -/
theorem entry_make_of_ne (hnew : s.calls.entry i = none) (hj : s.calls.entry j ≠ none) :
    (s.make i).calls.entry j = s.calls.entry j := by
  refine Function.update_of_ne ?_ ..
  rintro rfl
  exact hj hnew

/-- A new call ends none. -/
theorem Ended.make {P : Except RubyError Value → Prop} (hnew : s.calls.entry i = none)
    (hj : s.Ended P j) : (s.make i).Ended P j := by
  rcases hj with hret | ⟨e, hfailed⟩ | hpanic
  · exact Or.inl hret
  · exact Or.inr (Or.inl ⟨e, (entry_make_of_ne hnew (by simp [hfailed])).trans hfailed⟩)
  · exact Or.inr (Or.inr hpanic)

/-- What a step of the native calls leaves as it is, and what it adds. -/
theorem Reaches.frame (h : Reaches C caller s) {c : Calls.State Unit Reply Value E}
    (hgoes : Calls.Goes (fun i => C.handles.future (C.method caller i)) s.calls c) :
    (∀ j, s.calls.entry j ≠ none → c.entry j ≠ none) ∧
      (∀ x ∈ s.calls.world.log, x ∈ c.world.log) ∧
      (∀ j e, s.calls.entry j = some (.failed e) → c.entry j = some (.failed e)) ∧
      ∃ new, served C caller { s with calls := c } = s.served C caller ++ new ∧
        ∀ x ∈ new, ¬ s.Over x.1 ∧ s.calls.entry x.1 ≠ none := by
  -- most steps serve nobody
  have hsame : s.served C caller = s.served C caller ++ [] ∧
      ∀ x ∈ ([] : List (ℕ × Outcome Reply)), ¬ s.Over x.1 ∧ s.calls.entry x.1 ≠ none := by
    simp
  -- an entry that moves is still there, and one that failed does not move
  have hentry : ∀ {i en en'} {answer : Answer E}, s.calls.entry i = some en →
      en.next answer = some en' → ∀ j, (s.calls.entry j ≠ none →
        Function.update s.calls.entry i (some en') j ≠ none) ∧
      ∀ e, s.calls.entry j = some (.failed e) →
        Function.update s.calls.entry i (some en') j = some (.failed e) := by
    intro i en en' answer hen hnext j
    by_cases hij : j = i
    · subst hij
      refine ⟨fun _ => by simp, ?_⟩
      intro e hfailed
      obtain rfl : en = .failed e := Option.some.inj (hen.symm.trans hfailed)
      cases hnext
    · rw [Function.update_of_ne hij]
      exact ⟨id, fun e => id⟩
  obtain ⟨hstep, hold⟩ := hgoes
  cases hstep with
  -- a native step makes no new call
  | invoke i hnew => exact absurd (hold i hnew) (by simp)
  | advance hen hnext _ =>
    exact ⟨fun j => (hentry hen hnext j).1, fun _ => id, fun j => (hentry hen hnext j).2, [], hsame⟩
  | poll hen hnext =>
    exact ⟨fun j => (hentry hen hnext j).1, fun _ => id, fun j => (hentry hen hnext j).2, [], hsame⟩
  | @act j e w hact =>
    refine ⟨fun _ => id, ?_, fun _ _ => id, ?_⟩
    · obtain ⟨-, -, -⟩ := hact
      intro x hx
      exact List.mem_append_left _ hx
    · have hover := h.not_over hact
      -- only a call that was made can act
      have hpolled : s.calls.entry j ≠ none := by
        obtain ⟨htask, -, -⟩ := hact
        intro hnone
        rw [(Calls.Reaches.run h.calls).2 j (by simp [hnone])] at htask
        cases htask
      refine ⟨(servedBy (fun i => C.handles.one (C.method caller i)) (j, e)).toList, ?_, ?_⟩
      · obtain ⟨-, -, -⟩ := hact
        exact served_concat ..
      · intro x hx
        rw [fst_of_servedBy _ (Option.mem_toList.mp hx)]
        exact ⟨hover, hpolled⟩

end Calls

/-! ## The invariant -/

section Invariant

variable [DecidableEq Core] {C : EachClass Reply Methods Obj} {caller : ℕ → Caller Methods}
  {s s' : Readers Reply Obj E} {i j t : ℕ}

/-- The item of a call that has been yielded to thread `t`. -/
def given (C : EachClass Reply Methods Obj) (caller : ℕ → Caller Methods) (fate : ℕ → Option Fate)
    (t : ℕ) (x : ℕ × Outcome Reply) : Option Obj :=
  if (caller x.1).reader = some t ∧ fate x.1 = some .yielded then C.item x.2 else none

/-- What the blocks have been given, and where the threads stand. -/
structure Inv (C : EachClass Reply Methods Obj) (caller : ℕ → Caller Methods)
    (s : Readers Reply Obj E) : Prop where
  receiving : ∀ t i, s.turn t = .receiving i →
    caller i = .each t ∧ s.fate i = none ∧ s.calls.entry i ≠ none
  current : ∀ t i, caller i = .each t → s.calls.entry i ≠ none → s.fate i = none →
    s.turn t = .receiving i
  settled : ∀ i, s.fate i ≠ none → s.Over i
  /-- The current call of a thread is served after its earlier ones. -/
  last : ∀ t i, s.turn t = .receiving i → ∃ earlier later, s.served C caller = earlier ++ later ∧
    i ∉ earlier.map Prod.fst ∧ ∀ x ∈ later, caller x.1 = .each t → x.1 = i
  yielded : ∀ t, s.yielded t = (s.served C caller).filterMap (given C caller s.fate t)
  finished : ∀ i, s.fate i = some .finished → (i, .returned (.ok .nil)) ∈ s.calls.world.log
  raised : ∀ i, s.fate i = some .raised → s.Raised i

/-- It holds before the first call. -/
theorem Inv.init : Inv C caller (.init : Readers Reply Obj E) where
  receiving := by simp [Readers.init]
  current := by simp [Readers.init, Calls.State.init]
  settled := by simp [Readers.init]
  last := by simp [Readers.init]
  yielded _ := rfl
  finished := by simp [Readers.init]
  raised := by simp [Readers.init]

/-- A call that has not been made is new to everyone. -/
theorem Inv.fate_eq_none (hinv : Inv C caller s) (h : Reaches C caller s)
    (hnew : s.calls.entry i = none) : s.fate i = none := by
  by_contra hsome
  rcases hinv.settled i hsome with ⟨a, -, hret⟩ | ⟨e, hfailed⟩ | ⟨c, hpanic⟩
  · simp [h.polled hret] at hnew
  · simp [hfailed] at hnew
  · simp [h.polled hpanic] at hnew

/-- A thread calls `recv`. -/
theorem Inv.receive (hinv : Inv C caller s) (h : Reaches C caller s) (hcaller : caller i = .each t)
    (hturn : ∀ j, s.turn t ≠ .receiving j) (hnew : s.calls.entry i = none) :
    Inv C caller ((s.make i).move t (.receiving i)) := by
  -- a call that was not made has no fate
  have hfate := hinv.fate_eq_none h hnew
  constructor
  case receiving =>
    intro t' j hj
    by_cases ht : t' = t
    · subst ht
      obtain rfl : i = j := by simpa using hj
      exact ⟨hcaller, hfate, by simp⟩
    · simp only [turn_move, turn_make, Function.update_of_ne ht] at hj
      obtain ⟨hcallerj, hfatej, hentryj⟩ := hinv.receiving t' j hj
      exact ⟨hcallerj, hfatej, by rwa [calls_move, entry_make_of_ne hnew hentryj]⟩
  case current =>
    intro t' j hcallerj hentryj hfatej
    by_cases hij : j = i
    · subst hij
      -- the new call is the current one of its thread
      obtain rfl : t = t' := by simpa [hcaller] using hcallerj
      exact Function.update_self ..
    · simp only [calls_move, entry_make, Function.update_of_ne hij] at hentryj
      have hreceiving := hinv.current t' j hcallerj hentryj hfatej
      have ht : t' ≠ t := by
        rintro rfl
        exact hturn j hreceiving
      simpa only [turn_move, turn_make, Function.update_of_ne ht] using hreceiving
  case settled =>
    intro j hj
    exact (hinv.settled j hj).make hnew
  case last =>
    intro t' j hj
    by_cases ht : t' = t
    · subst ht
      obtain rfl : i = j := by simpa using hj
      -- everything so far was served before the new call
      exact ⟨_, [], (List.append_nil _).symm, h.not_served hnew, by simp⟩
    · simp only [turn_move, turn_make, Function.update_of_ne ht] at hj
      exact hinv.last t' j hj
  case yielded => exact hinv.yielded
  case finished => exact hinv.finished
  case raised =>
    intro j hj
    exact (hinv.raised j hj).make hnew

/-- A method is called directly. -/
theorem Inv.call {m : Methods} (hinv : Inv C caller s) (hcaller : caller i = .direct m)
    (hnew : s.calls.entry i = none) : Inv C caller (s.make i) := by
  constructor
  case receiving =>
    intro t j hj
    obtain ⟨hcallerj, hfatej, hentryj⟩ := hinv.receiving t j hj
    exact ⟨hcallerj, hfatej, by rwa [entry_make_of_ne hnew hentryj]⟩
  case current =>
    intro t j hcallerj hentryj hfatej
    have hij : j ≠ i := by
      rintro rfl
      simp [hcaller] at hcallerj
    simp only [entry_make, Function.update_of_ne hij] at hentryj
    exact hinv.current t j hcallerj hentryj hfatej
  case settled =>
    intro j hj
    exact (hinv.settled j hj).make hnew
  case last => exact hinv.last
  case yielded => exact hinv.yielded
  case finished => exact hinv.finished
  case raised =>
    intro j hj
    exact (hinv.raised j hj).make hnew

/-- A call goes on. -/
theorem Inv.native {c : Calls.State Unit Reply Value E} (hinv : Inv C caller s)
    (h : Reaches C caller s)
    (hgoes : Calls.Goes (fun i => C.handles.future (C.method caller i)) s.calls c) :
    Inv C caller { s with calls := c } := by
  obtain ⟨hentry, hlog, hfailed, new, hserved, hnew⟩ := h.frame hgoes
  -- what the native side goes on with is not settled
  have hfate : ∀ x ∈ new, s.fate x.1 = none := by
    intro x hx
    by_contra hsome
    exact (hnew x hx).1 (hinv.settled x.1 hsome)
  -- what has ended stays ended
  have hended : ∀ {P j}, s.Ended P j → ({ s with calls := c } : Readers Reply Obj E).Ended P j := by
    rintro P j (⟨a, ha, hret⟩ | ⟨e, he⟩ | ⟨d, hpanic⟩)
    · exact Or.inl ⟨a, ha, hlog _ hret⟩
    · exact Or.inr (Or.inl ⟨e, hfailed j e he⟩)
    · exact Or.inr (Or.inr ⟨d, hlog _ hpanic⟩)
  constructor
  case receiving =>
    intro t i hi
    obtain ⟨hcaller, hnone, hmade⟩ := hinv.receiving t i hi
    exact ⟨hcaller, hnone, hentry i hmade⟩
  case current =>
    intro t i hcaller hmade hnone
    refine hinv.current t i hcaller ?_ hnone
    intro hno
    exact hmade (hgoes.2 i hno)
  case settled =>
    intro i hi
    exact hended (hinv.settled i hi)
  case last =>
    intro t i hi
    obtain ⟨earlier, later, hsplit, hearlier, hlater⟩ := hinv.last t i hi
    refine ⟨earlier, later ++ new, by rw [hserved, hsplit, List.append_assoc], hearlier, ?_⟩
    intro x hx hcaller
    rcases List.mem_append.mp hx with hx | hx
    · exact hlater x hx hcaller
    · -- the call that goes on is the current one of its thread
      have hcurrent := hinv.current t x.1 hcaller (hnew x hx).2 (hfate x hx)
      exact Turn.receiving.inj (hcurrent.symm.trans hi)
  case yielded =>
    intro t
    -- nobody has been given what was served just now
    have hnone : new.filterMap (given C caller s.fate t) = [] := by
      rw [List.filterMap_eq_nil_iff]
      intro x hx
      simp [given, hfate x hx]
    rw [hserved, List.filterMap_append, hnone, List.append_nil]
    exact hinv.yielded t
  case finished =>
    intro i hi
    exact hlog _ (hinv.finished i hi)
  case raised =>
    intro i hi
    exact hended (hinv.raised i hi)

/-- A thread goes on after its native call, when its block has been given what it should be. -/
theorem Inv.settle {u : Turn} {f : Fate} {g : ℕ → List Obj} (hinv : Inv C caller s)
    (hturn : s.turn t = .receiving i) (hu : ∀ j, u ≠ .receiving j) (hover : s.Over i)
    (hfinished : f = .finished → (i, .returned (.ok .nil)) ∈ s.calls.world.log)
    (hraised : f = .raised → s.Raised i)
    (hyielded : ∀ t', g t' = (s.served C caller).filterMap
      (given C caller (Function.update s.fate i (some f)) t')) :
    Inv C caller { (s.move t u).settle i f with yielded := g } := by
  obtain ⟨hcaller, hnone, hmade⟩ := hinv.receiving t i hturn
  -- the other threads receive what they received
  have hother : ∀ t' j, (Function.update s.turn t u) t' = .receiving j →
      s.turn t' = .receiving j ∧ t' ≠ t := by
    intro t' j hj
    have ht : t' ≠ t := by
      rintro rfl
      rw [Function.update_self] at hj
      exact hu j hj
    exact ⟨by rwa [Function.update_of_ne ht] at hj, ht⟩
  -- the fate of `i` is decided now, the others were before
  have hcase : ∀ j f', Function.update s.fate i (some f) j = some f' →
      j = i ∧ f = f' ∨ s.fate j = some f' := by
    intro j f' hj
    by_cases hij : j = i
    · subst hij
      exact Or.inl ⟨rfl, by simpa using hj⟩
    · rw [Function.update_of_ne hij] at hj
      exact Or.inr hj
  constructor
  case receiving =>
    intro t' j hj
    obtain ⟨hj, ht⟩ := hother t' j hj
    obtain ⟨hcallerj, hfatej, hmadej⟩ := hinv.receiving t' j hj
    refine ⟨hcallerj, ?_, hmadej⟩
    have hij : j ≠ i := by
      rintro rfl
      exact ht (by simpa [hcaller] using hcallerj.symm)
    simpa [Function.update_of_ne hij] using hfatej
  case current =>
    intro t' j hcallerj hmadej hfatej
    have hij : j ≠ i := by
      rintro rfl
      simp at hfatej
    simp only [fate_settle, fate_move, Function.update_of_ne hij] at hfatej
    have hj := hinv.current t' j hcallerj hmadej hfatej
    have ht : t' ≠ t := by
      rintro rfl
      exact hij (Turn.receiving.inj (hj.symm.trans hturn))
    simpa [Function.update_of_ne ht] using hj
  case settled =>
    intro j hj
    obtain ⟨f', hf'⟩ := Option.ne_none_iff_exists'.mp hj
    rcases hcase j f' hf' with ⟨rfl, -⟩ | hold
    · exact hover
    · exact hinv.settled j (by simp [hold])
  case last =>
    intro t' j hj
    exact hinv.last t' j (hother t' j hj).1
  case yielded => exact hyielded
  case finished =>
    intro j hj
    rcases hcase j .finished hj with ⟨rfl, hf⟩ | hold
    · exact hfinished hf
    · exact hinv.finished j hold
  case raised =>
    intro j hj
    rcases hcase j .raised hj with ⟨rfl, hf⟩ | hold
    · exact hraised hf
    · exact hinv.raised j hold

/-- What a fate other than `yielded` changes for the blocks: nothing. -/
theorem given_update_of_ne {f : Fate} {fate : ℕ → Option Fate} (hnone : fate i = none)
    (hf : f ≠ .yielded) :
    given C caller (Function.update fate i (some f)) t = given C caller fate t := by
  funext x
  by_cases hx : x.1 = i
  · simp [given, hx, hnone, hf]
  · simp [given, Function.update_of_ne hx]

/-- A thread that goes on from a call that is over keeps it. -/
theorem Inv.settle_of_ne {u : Turn} {f : Fate} (hinv : Inv C caller s)
    (hturn : s.turn t = .receiving i) (hu : ∀ j, u ≠ .receiving j) (hover : s.Over i)
    (hfinished : f = .finished → (i, .returned (.ok .nil)) ∈ s.calls.world.log)
    (hraised : f = .raised → s.Raised i) (hf : f ≠ .yielded) :
    Inv C caller ((s.move t u).settle i f) := by
  refine hinv.settle (g := s.yielded) hturn hu hover hfinished hraised ?_
  intro t'
  rw [given_update_of_ne (hinv.receiving t i hturn).2.1 hf]
  exact hinv.yielded t'

omit [DecidableEq Core] in
/-- The one element of a list with this key. -/
theorem filterMap_key {α β : Type} {l : List (ℕ × α)} (hnodup : (l.map Prod.fst).Nodup)
    {a : α} (hmem : (i, a) ∈ l) (g : α → Option β) :
    l.filterMap (fun x => if x.1 = i then g x.2 else none) = (g a).toList := by
  obtain ⟨before, after, rfl⟩ := List.append_of_mem hmem
  rw [List.map_append, List.map_cons, List.nodup_middle, List.nodup_cons] at hnodup
  have hnone : ∀ l' : List (ℕ × α), (∀ x ∈ l', x ∈ before ++ after) →
      l'.filterMap (fun x => if x.1 = i then g x.2 else none) = [] := by
    intro l' hl
    rw [List.filterMap_eq_nil_iff]
    intro x hx
    refine if_neg ?_
    intro hxi
    rw [← List.map_append] at hnodup
    have hmem' : x.1 ∈ (before ++ after).map Prod.fst := List.mem_map_of_mem (hl x hx)
    rw [hxi] at hmem'
    exact hnodup.1 hmem'
  rw [List.filterMap_append, List.filterMap_cons, hnone before (by simp_all),
    hnone after (by simp_all)]
  cases g a <;> simp

/-- The block of a thread is called with the item of its current call. -/
theorem Inv.yield {v : Value} {obj : Obj} (hinv : Inv C caller s) (h : Reaches C caller s)
    (hturn : s.turn t = .receiving i) (hret : (i, .returned (.ok v)) ∈ s.calls.world.log)
    (hv : v ≠ .nil) (hobj : C.new v = some obj) :
    Inv C caller (((s.move t .block).settle i .yielded).give t obj) := by
  obtain ⟨hcaller, hnone, -⟩ := hinv.receiving t i hturn
  refine hinv.settle hturn (by simp) (Or.inl ⟨_, trivial, hret⟩) (by simp) (by simp) ?_
  intro t'
  -- only the thread that yields is given anything
  by_cases ht : t' = t
  · subst ht
    obtain ⟨r, hserved, hr⟩ := h.answered hcaller hret
    -- `later` begins where the current call of the thread was served
    obtain ⟨earlier, later, hsplit, hearlier, hlater⟩ := hinv.last t' i hturn
    have hitem : C.item (.answered C.core r) = some obj := by
      rw [EachClass.item_answered, EachClass.taken, ← hr, ← hobj]
      cases v with
      | nil => exact absurd rfl hv
      | bytes | hash => rfl
    -- before: nothing has changed
    have hold : earlier.filterMap (given C caller (Function.update s.fate i (some .yielded)) t') =
        earlier.filterMap (given C caller s.fate t') := by
      refine List.filterMap_congr ?_
      intro x hx
      have hxi : x.1 ≠ i := by
        rintro rfl
        exact hearlier (List.mem_map_of_mem hx)
      simp [given, Function.update_of_ne hxi]
    have hreader : ∀ x ∈ later, (caller x.1).reader = some t' → x.1 = i := by
      intro x hx hx'
      refine hlater x hx ?_
      cases hc : caller x.1 with
      | each t'' => simpa [hc, Caller.reader] using hx'
      | direct m => simp [hc, Caller.reader] at hx'
    -- in `later` the thread had been given nothing yet
    have hbefore : later.filterMap (given C caller s.fate t') = [] := by
      rw [List.filterMap_eq_nil_iff]
      intro x hx
      refine if_neg ?_
      rintro ⟨hx', hfate⟩
      rw [hreader x hx hx', hnone] at hfate
      cases hfate
    -- and now the current call counts
    have hafter : later.filterMap
        (given C caller (Function.update s.fate i (some .yielded)) t') = [obj] := by
      have hkey : ∀ x ∈ later, given C caller (Function.update s.fate i (some .yielded)) t' x =
          if x.1 = i then C.item x.2 else none := by
        intro x hx
        by_cases hxi : x.1 = i
        · simp [given, hxi, hcaller, Caller.reader]
        · rw [if_neg hxi, given, if_neg]
          rintro ⟨hx', -⟩
          exact hxi (hreader x hx hx')
      -- the reply is among the later ones, and once
      have hmem : (i, .answered C.core r) ∈ later := by
        rw [hsplit] at hserved
        rcases List.mem_append.mp hserved with hmem | hmem
        · exact absurd (List.mem_map_of_mem hmem) hearlier
        · exact hmem
      have hnodup : (later.map Prod.fst).Nodup := by
        have hall := h.served_nodup
        rw [hsplit, List.map_append] at hall
        exact (List.nodup_append.mp hall).2.1
      rw [List.filterMap_congr hkey, filterMap_key hnodup hmem, hitem]
      rfl
    have hyielded := hinv.yielded t'
    rw [hsplit, List.filterMap_append, hbefore, List.append_nil] at hyielded
    rw [hsplit, List.filterMap_append, hold, hafter, ← hyielded]
    exact Function.update_self ..
  · have hsame : given C caller (Function.update s.fate i (some .yielded)) t' =
        given C caller s.fate t' := by
      funext x
      by_cases hx : x.1 = i
      · simp [given, hx, hcaller, Caller.reader, Ne.symm ht]
      · simp [given, Function.update_of_ne hx]
    rw [hsame]
    simpa [Function.update_of_ne ht] using hinv.yielded t'

/-- A block ends `each`. -/
theorem Inv.leave (hinv : Inv C caller s) (hblock : s.turn t = .block) :
    Inv C caller (s.move t .outside) := by
  have hother : ∀ t' j, (s.move t .outside).turn t' = .receiving j ↔ s.turn t' = .receiving j := by
    intro t' j
    by_cases ht : t' = t
    · subst ht
      simp [hblock]
    · simp [Function.update_of_ne ht]
  constructor
  case receiving =>
    intro t' j hj
    exact hinv.receiving t' j ((hother t' j).mp hj)
  case current =>
    intro t' j hcaller hmade hfate
    exact (hother t' j).mpr (hinv.current t' j hcaller hmade hfate)
  case settled => exact hinv.settled
  case last =>
    intro t' j hj
    exact hinv.last t' j ((hother t' j).mp hj)
  case yielded => exact hinv.yielded
  case finished => exact hinv.finished
  case raised => exact hinv.raised

/-- Every state the threads reach. -/
theorem Reaches.inv (h : Reaches C caller s) : Inv C caller s := by
  induction h with
  | init => exact Inv.init
  | @step s s' h hstep hinv =>
    cases hstep with
    | receive hcaller hturn hnew => exact hinv.receive h hcaller hturn hnew
    | call hcaller hnew => exact hinv.call hcaller hnew
    | native hgoes => exact hinv.native h hgoes
    | yield hturn hret hv hobj => exact hinv.yield h hturn hret hv hobj
    | finish hturn hret =>
      exact hinv.settle_of_ne hturn (by simp) (Or.inl ⟨_, trivial, hret⟩) (fun _ => hret) (by simp)
        (by simp)
    | raise hturn hraised =>
      refine hinv.settle_of_ne hturn (by simp) ?_ (by simp) (fun _ => hraised) (by simp)
      rcases hraised with ⟨a, -, hret⟩ | hfailed | hpanic
      · exact Or.inl ⟨a, trivial, hret⟩
      · exact Or.inr (Or.inl hfailed)
      · exact Or.inr (Or.inr hpanic)
    | interrupt hturn hret =>
      exact hinv.settle_of_ne hturn (by simp) (Or.inl ⟨_, trivial, hret⟩) (by simp) (by simp)
        (by simp)
    | leave hblock => exact hinv.leave hblock

end Invariant

/-! ## Delivery -/

section Delivery

variable [DecidableEq Core] {C : EachClass Reply Methods Obj} {caller : ℕ → Caller Methods}
  {s : Readers Reply Obj E} {i t : ℕ}

/-- What the `each` of any number of threads has made of the items of one handle. -/
structure Delivers (C : EachClass Reply Methods Obj) (caller : ℕ → Caller Methods)
    (s : Readers Reply Obj E) : Prop where
  /-- The blocks of a thread have been given the items of its own calls that were yielded, each once,
  in the order in which the core gave them. -/
  yielded : ∀ t, s.yielded t = (s.served C caller).filterMap (given C caller s.fate t)
  /-- A call is served once. -/
  once : ((s.served C caller).map Prod.fst).Nodup
  /-- An item has been yielded, or its thread is about to yield it, unless an exception from outside
  came between. -/
  kept : ∀ t i r v, caller i = .each t → (i, .answered C.core r) ∈ s.served C caller →
    (C.handles.one C.recv).finish r = .ok v → v ≠ .nil → (∃ obj, C.taken r = some obj) ∧
      (s.fate i = some .yielded ∨ s.fate i = some .interrupted ∨ s.turn t = .receiving i)
  /-- `each` returns only at the end of the stream. -/
  finished : ∀ i t, caller i = .each t → s.fate i = some .finished →
    ∃ r, (i, .answered C.core r) ∈ s.served C caller ∧
      (C.handles.one C.recv).finish r = .ok .nil
  /-- A thread that is alone with the handle, and is not interrupted, has had every item when it
  calls `recv` again. -/
  alone : ∀ t, (∀ i, s.calls.entry i ≠ none → caller i = .each t) →
    (∀ i, s.fate i ≠ some .interrupted) → (∀ i, s.turn t ≠ .receiving i) →
    s.yielded t = (s.served C caller).filterMap fun x => C.item x.2

/-- An item is not lost on its way. -/
theorem Reaches.fate_of_taken (h : Reaches C caller s) {r : Reply C.core} {obj : Obj}
    (hcaller : caller i = .each t) (hserved : (i, .answered C.core r) ∈ s.served C caller)
    (hobj : C.taken r = some obj) :
    s.fate i = some .yielded ∨ s.fate i = some .interrupted ∨ s.turn t = .receiving i := by
  obtain ⟨hguarded, hevent⟩ := (answered_mem_served _).mp hserved
  have hpolled := h.polled (mem_eventsOf.mp hevent)
  -- a call has one answer, so what it returns is made of this one
  have hresult : ∀ a, (i, .returned a) ∈ s.calls.world.log →
      a = (C.handles.one C.recv).finish r := by
    intro a hret
    obtain ⟨r', hserved', ha⟩ := h.answered hcaller hret
    rwa [h.answer_unique hserved hserved']
  cases hfate : s.fate i with
  | none => exact Or.inr (Or.inr (h.inv.current t i hcaller (by simp [hpolled]) hfate))
  | some f =>
    cases f with
    | yielded => exact Or.inl rfl
    | interrupted => exact Or.inr (Or.inl rfl)
    | finished =>
      rw [EachClass.taken, ← hresult _ (h.inv.finished i hfate)] at hobj
      cases hobj
    | raised =>
      rcases h.inv.raised i hfate with ⟨a, ⟨e, rfl⟩, hret⟩ | ⟨e, hfailed⟩ | ⟨c, hpanic⟩
      · rw [EachClass.taken, ← hresult _ hret] at hobj
        cases hobj
      · rw [hpolled] at hfailed
        cases hfailed
      · have hserved' : (i, .panicked c) ∈ s.served C caller :=
          List.mem_filterMap.mpr ⟨_, hpanic, if_pos hguarded⟩
        have hpairs := List.inj_on_of_nodup_map h.served_nodup hserved hserved' rfl
        cases hpairs

/-- A single reader misses nothing. -/
theorem Reaches.alone (h : Reaches C caller s)
    (hcaller : ∀ i, s.calls.entry i ≠ none → caller i = .each t)
    (hfate : ∀ i, s.fate i ≠ some .interrupted) (hturn : ∀ i, s.turn t ≠ .receiving i) :
    s.yielded t = (s.served C caller).filterMap fun x => C.item x.2 := by
  rw [h.inv.yielded t]
  refine List.filterMap_congr ?_
  rintro ⟨i, o⟩ hx
  cases hitem : C.item o with
  | none => simp [given, hitem]
  | some obj =>
    cases o with
    | panicked c => cases hitem
    | answered c r =>
      by_cases hc : c = C.core
      · subst hc
        rw [EachClass.item_answered] at hitem
        have hevent := ((answered_mem_served _).mp hx).2
        have heach := hcaller i (by simp [h.polled (mem_eventsOf.mp hevent)])
        rcases h.fate_of_taken heach hx hitem with hyielded | hinterrupted | hreceiving
        · simp [given, heach, hyielded, Caller.reader, hitem]
        · exact absurd hinterrupted (hfate i)
        · exact absurd hreceiving (hturn i)
      · simp [EachClass.item, hc] at hitem

/-- In every state that the threads reach. -/
theorem Reaches.delivers (h : Reaches C caller s) : Delivers C caller s where
  yielded := h.inv.yielded
  once := h.served_nodup
  kept _ _ _ _ hcaller hserved hr hv := by
    obtain ⟨obj, hobj⟩ := C.exists_taken hr hv
    exact ⟨⟨obj, hobj⟩, h.fate_of_taken hcaller hserved hobj⟩
  finished i t hcaller hfate := by
    obtain ⟨r, hserved, hr⟩ := h.answered hcaller (h.inv.finished i hfate)
    exact ⟨r, hserved, hr.symm⟩
  alone _ hcaller hfate hturn := h.alone hcaller hfate hturn

end Delivery

end Readers

/-! ## The four classes -/

/-- `ExecHandle#each`. -/
def ExecHandle.each : EachClass ExecHandle.Core.Reply ExecHandle.Methods ExecEventObject where
  handles := ExecHandle.handles
  recv := .recv
  new
    | .hash event => ExecEventObject.new event
    | _ => none
  recv_guarded := rfl
  new_isSome := by
    intro r v hr hv
    cases r with
    | none =>
      cases hr
      exact absurd rfl hv
    | some event =>
      cases hr
      cases event <;> rfl

/-- `LogStream#each`. -/
def LogStream.each : EachClass (StreamCore.Reply LogEntry) Receives LogEntryObject where
  handles := LogStream.handles
  recv := .recv
  new
    | .hash entry => LogEntryObject.new entry
    | _ => none
  recv_guarded := rfl
  new_isSome := by
    intro r v hr hv
    cases r with
    | none =>
      cases hr
      exact absurd rfl hv
    | some item =>
      cases item <;> cases hr
      rfl

/-- `MetricsStream#each`. -/
def MetricsStream.each : EachClass (StreamCore.Reply SandboxMetrics) Receives MetricsObject where
  handles := MetricsStream.handles
  recv := .recv
  new
    | .hash snapshot => some (MetricsObject.new snapshot)
    | _ => none
  recv_guarded := rfl
  new_isSome := by
    intro r v hr hv
    cases r with
    | none =>
      cases hr
      exact absurd rfl hv
    | some item =>
      cases item <;> cases hr
      rfl

/-- `FsReadStream#each`. -/
def FsReadStream.each : EachClass FsReadStream.Core.Reply Receives Bytes where
  handles := FsReadStream.handles
  recv := .recv
  new
    | .bytes chunk => some chunk
    | _ => none
  recv_guarded := rfl
  new_isSome := by
    intro r v hr hv
    match r with
    | .error _ => cases hr
    | .ok none =>
      cases hr
      exact absurd rfl hv
    | .ok (some chunk) =>
      cases hr
      rfl

namespace Readers

variable {Core Methods Obj E : Type} {Reply : Core → Type} {C : EachClass Reply Methods Obj}
  {caller : ℕ → Caller Methods} {s : Readers Reply Obj E}

/-- The native calls go on by themselves. -/
theorem Reaches.goes (h : Reaches C caller s) {c : Calls.State Unit Reply Value E}
    (hgoes : Relation.ReflTransGen (Calls.Goes fun i => C.handles.future (C.method caller i))
      s.calls c) : Reaches C caller { s with calls := c } := by
  induction hgoes with
  | refl => exact h
  | tail _ hstep ih => exact ih.step (.native hstep)

end Readers

open Readers in
/-- For the four classes, any number of threads that run `each` on one handle and any other calls of
its methods, in every interleaving. -/
theorem each_delivers (E : Type) :
    (∀ caller (s : Readers ExecHandle.Core.Reply ExecEventObject E),
      Reaches ExecHandle.each caller s → Delivers ExecHandle.each caller s) ∧
    (∀ caller (s : Readers (StreamCore.Reply LogEntry) LogEntryObject E),
      Reaches LogStream.each caller s → Delivers LogStream.each caller s) ∧
    (∀ caller (s : Readers (StreamCore.Reply SandboxMetrics) MetricsObject E),
      Reaches MetricsStream.each caller s → Delivers MetricsStream.each caller s) ∧
    (∀ caller (s : Readers FsReadStream.Core.Reply Bytes E),
      Reaches FsReadStream.each caller s → Delivers FsReadStream.each caller s) :=
  ⟨fun _ _ h => h.delivers, fun _ _ h => h.delivers, fun _ _ h => h.delivers,
    fun _ _ h => h.delivers⟩

/-- The same answer to every `recv`. -/
def FsReadStream.answers (chunk : Option Bytes) : ∀ c, FsReadStream.Core.Reply c
  | .recv => .ok chunk

open Readers FsReadStream in
/-- Two threads read one stream: thread 1 locks first and has the first chunk. -/
theorem each_delivers_two :
    let caller : ℕ → Caller Receives := fun i => .each (i % 2)
    ∃ s : Readers Core.Reply Bytes Unit,
      (s.yielded 1 = [[1]] ∧ s.yielded 0 = [[2]]) ∧ Delivers each caller s := by
  intro caller
  have hstart : Reaches (E := Unit) each caller .init := .init
  have hcall := (hstart.step (.receive (t := 0) (i := 0) rfl (by simp [init]) rfl)).step
    (.receive (t := 1) (i := 1) rfl (by simp [init]) rfl)
  have hpolled := (hcall.goes (Calls.goes_poll (i := 0) rfl)).goes (Calls.goes_poll (i := 1) rfl)
  have hserved := hpolled.goes (Calls.goes_execAll
    [(1, .go), (1, .go), (1, .answer (answers (some [1]))), (1, .go), (0, .go), (1, .go), (0, .go),
      (0, .answer (answers (some [2]))), (0, .go), (0, .go)] rfl)
  have hyield := (hserved.step (.yield (t := 0) (i := 0) (v := .bytes [2])  rfl
    (List.mem_iff_getElem?.mpr ⟨9, rfl⟩) (by simp) rfl)).step
      (.yield (t := 1) (i := 1) (v := .bytes [1])  rfl
        (List.mem_iff_getElem?.mpr ⟨5, rfl⟩) (by simp) rfl)
  exact ⟨_, ⟨rfl, rfl⟩, (each_delivers Unit).2.2.2 caller _ hyield⟩

end MicrosandboxRb.Stream
