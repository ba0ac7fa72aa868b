import MicrosandboxRb.Backend.Invariant

/-!
# Failing backend operations

A failed operation leaves the backend state as it was, and an inherited selection that does not
build any more keeps nobody from choosing another one.

## Main results

* `FailsAtomically`: what a failed operation may change, for the operations that install a backend;
* `pop_error_cases`: what a failed pop leaves;
* `backend_operations_fail_atomically`: all of it, in every process of every tree.
-/

namespace MicrosandboxRb.BackendRecord

open ForkTree

section Operations

variable {α : Type} {l : List (Proc ProcessIdentity)} {p : Proc ProcessIdentity} {core : Core}
  {s : State} {token : UInt32} {scope : Scope}

/-- If the operation failed in the state `s` of `p`, then the state is as before: the default, the
selection, the open scopes, and what was leaked or destroyed. Only an owner word `0` may have
become `p`'s. -/
def FailsAtomically (p : Proc ProcessIdentity) (s : State)
    (r : EStateM.Result RubyError State α) : Prop :=
  ∀ e s', r = .error e s' → s' = s ∨ s.backendOwner = 0 ∧ s' = s.claimed p

/-- A claim by an owner leaves the record as it is, or is the first one. -/
theorem claimed_cases (howns : Owns p s) :
    s.claimed p = s ∨ s.backendOwner = 0 ∧ s.claimed p = s.claimed p := by
  rcases howns with hzero | hcur
  · exact Or.inr ⟨hzero, rfl⟩
  · left
    rw [State.claimed, ← hcur]

/-- A take-over that fails leaves the inherited record to the process as it was. -/
theorem ensure_failsAtomically :
    FailsAtomically p s ((ensureThisProcessBackend p core).run s) := by
  intro e s' h
  rw [run_ensureThisProcessBackend] at h
  by_cases howns : Owns p s
  · simp [howns] at h
  · cases hbuild : s.selection.resolve core with
    | error e' =>
      simp only [howns, hbuild, if_false, EStateM.Result.error.injEq] at h
      exact Or.inl h.2.symm
    | ok kind => simp [howns, hbuild] at h

/-- A build that failed leaves the state of an owner, or any other, alone. -/
theorem unchanged_of_build_error {s' : State}
    (h : (if Owns p s then s.claimed p else s) = s') :
    s' = s ∨ s.backendOwner = 0 ∧ s' = s.claimed p := by
  by_cases howns : Owns p s
  · rw [if_pos howns] at h
    subst h
    exact claimed_cases howns
  · rw [if_neg howns] at h
    exact Or.inl h.symm

/-- A selection that the core refuses changes nothing but an unclaimed owner word. -/
theorem setDefaultBackend_failsAtomically (kind : String) (url apiKey profile : Option String) :
    FailsAtomically p s ((setDefaultBackend p core kind url apiKey profile).run s) := by
  intro e s' h
  rw [run_setDefaultBackend] at h
  cases hbuild : (Selection.explicit kind url apiKey profile).resolve core with
  | error e' =>
    rw [hbuild] at h
    exact unchanged_of_build_error (EStateM.Result.error.inj h).2
  | ok kind' => simp [hbuild] at h

/-- A scope whose backend cannot be built is not opened. -/
theorem pushDefaultBackend_failsAtomically (kind : String) (url apiKey profile : Option String) :
    FailsAtomically p s ((pushDefaultBackend p core kind url apiKey profile).run s) := by
  intro e s' h
  rw [run_pushDefaultBackend] at h
  cases hbuild : (Selection.explicit kind url apiKey profile).resolve core with
  | error e' =>
    rw [hbuild] at h
    exact unchanged_of_build_error (EStateM.Result.error.inj h).2
  | ok kind' => simp [hbuild] at h

/-- A pop fails for one of two reasons: the token is unknown, and nothing changes, or the selection
of the scope does not build, and then this scope is gone and everything else is as before. -/
theorem pop_error_cases (hrec : RecordInv l s) {e : RubyError} {s' : State}
    (h : (popDefaultBackend p core token).run s = .error e s') :
    (s.backendScopes.lookup token = none ∧ e = .baseError "unknown backend scope token" ∧
      s' = s) ∨
    ∃ scope e', s.backendScopes.lookup token = some scope ∧
      scope.selection.resolve core = .error e' ∧ e = .toRuby e' ∧
      ∃ leaked, s' = (s.removed token).record leaked ∧
        (leaked = [] ∨ leaked = scope.previous.toList.map .forgot) := by
  cases hscope : s.backendScopes.lookup token with
  | none =>
    rw [run_popDefaultBackend_unknown hscope] at h
    obtain ⟨he, hs⟩ := EStateM.Result.error.inj h
    exact Or.inl ⟨rfl, he.symm, hs.symm⟩
  | some scope =>
    right
    by_cases howns : Owns p s
    · rw [run_popDefaultBackend_owns hrec howns hscope] at h
      -- an owner fails only where it has to build the default anew
      cases hprevious : scope.previous with
      | some previous => simp [hprevious] at h
      | none =>
        cases hbuild : scope.selection.resolve core with
        | ok kind => simp [hprevious, hbuild] at h
        | error e' =>
          simp only [hprevious, hbuild, EStateM.Result.error.injEq] at h
          refine ⟨scope, e', rfl, hbuild, h.1.symm, [], ?_, Or.inl rfl⟩
          rw [← h.2, State.record, List.append_nil]
    · rw [run_popDefaultBackend_inherited hscope howns] at h
      cases hbuild : scope.selection.resolve core with
      | ok kind => simp [hbuild] at h
      | error e' =>
        simp only [hbuild, EStateM.Result.error.injEq] at h
        exact ⟨scope, e', rfl, hbuild, h.1.symm, _, h.2.symm, Or.inr rfl⟩

/-- The call succeeds if and only if the core builds the backend it names. -/
theorem setDefaultBackend_isOk (kind : String) (url apiKey profile : Option String) :
    ((setDefaultBackend p core kind url apiKey profile).run s).isOk =
      ((Selection.explicit kind url apiKey profile).resolve core).isOk := by
  rw [run_setDefaultBackend]
  cases (Selection.explicit kind url apiKey profile).resolve core <;> rfl

/-- The call succeeds if and only if the core builds the backend of the scope. -/
theorem pushDefaultBackend_isOk (kind : String) (url apiKey profile : Option String) :
    ((pushDefaultBackend p core kind url apiKey profile).run s).isOk =
      ((Selection.explicit kind url apiKey profile).resolve core).isOk := by
  rw [run_pushDefaultBackend]
  cases (Selection.explicit kind url apiKey profile).resolve core <;> rfl

/-- In a process that does not own the record, a pop has to rebuild the selection of the scope. -/
theorem popDefaultBackend_isOk (howns : ¬ Owns p s)
    (hscope : s.backendScopes.lookup token = some scope) :
    ((popDefaultBackend p core token).run s).isOk = (scope.selection.resolve core).isOk := by
  rw [run_popDefaultBackend_inherited hscope howns]
  cases scope.selection.resolve core <;> rfl

/-- In a process that does not own the record, the take-over has to rebuild the selection. -/
theorem ensure_isOk (howns : ¬ Owns p s) :
    ((ensureThisProcessBackend p core).run s).isOk = (s.selection.resolve core).isOk := by
  rw [run_ensureThisProcessBackend, if_neg howns]
  cases s.selection.resolve core <;> rfl

end Operations

/-! ## Every tree -/

/-- Backend operations fail atomically, in every process of every tree and whatever the core
answers. A failed `ensure_this_process_backend`, `set_default_backend` or `push_default_backend`
changes nothing, up to an owner word `0`. A pop of an unknown token fails and changes nothing; a pop
that fails for an open token fails because the selection of the scope does not build, closes this
scope and changes nothing else. And setting and pushing succeed exactly when the requested
selection builds; in a process that has not taken the record over, a pop of an open token succeeds
exactly when the selection of the scope builds, and, if the record was inherited,
`ensure_this_process_backend` succeeds exactly when the recorded selection does. -/
theorem backend_operations_fail_atomically {t : List (Branch ProcessIdentity State)}
    (ht : backendSystem.TreeRun t) {b : Branch ProcessIdentity State} (hb : b ∈ t) (core : Core) :
    (FailsAtomically b.self b.mem ((ensureThisProcessBackend b.self core).run b.mem) ∧
      (∀ kind url apiKey profile, FailsAtomically b.self b.mem
        ((setDefaultBackend b.self core kind url apiKey profile).run b.mem)) ∧
      ∀ kind url apiKey profile, FailsAtomically b.self b.mem
        ((pushDefaultBackend b.self core kind url apiKey profile).run b.mem)) ∧
    (∀ token e s', (popDefaultBackend b.self core token).run b.mem = .error e s' →
      match b.mem.backendScopes.lookup token with
      | none => e = .baseError "unknown backend scope token" ∧ s' = b.mem
      | some scope => (∃ e', scope.selection.resolve core = .error e' ∧ e = .toRuby e') ∧
          s'.defaultBackend = b.mem.defaultBackend ∧ s'.selection = b.mem.selection ∧
          s'.backendOwner = b.mem.backendOwner ∧
          s'.backendScopes = b.mem.backendScopes.erase token ∧
          ∀ d, .dropped d ∈ s'.effects → .dropped d ∈ b.mem.effects) ∧
    (∀ kind url apiKey profile,
      ((setDefaultBackend b.self core kind url apiKey profile).run b.mem).isOk =
          ((Selection.explicit kind url apiKey profile).resolve core).isOk ∧
        ((pushDefaultBackend b.self core kind url apiKey profile).run b.mem).isOk =
          ((Selection.explicit kind url apiKey profile).resolve core).isOk) ∧
    (b.mem.backendOwner ≠ b.self.ident.toBits →
      (∀ token scope, b.mem.backendScopes.lookup token = some scope →
        ((popDefaultBackend b.self core token).run b.mem).isOk =
          (scope.selection.resolve core).isOk) ∧
      (b.mem.backendOwner ≠ 0 → ((ensureThisProcessBackend b.self core).run b.mem).isOk =
        (b.mem.selection.resolve core).isOk)) := by
  obtain ⟨i, hi⟩ := List.mem_iff_getElem?.mp hb
  have hrec := recordInv_of_run (ht.run hi).2.2
  refine ⟨⟨ensure_failsAtomically, setDefaultBackend_failsAtomically,
    pushDefaultBackend_failsAtomically⟩, ?_, fun kind url apiKey profile =>
      ⟨setDefaultBackend_isOk kind url apiKey profile,
        pushDefaultBackend_isOk kind url apiKey profile⟩, ?_⟩
  · intro token e s' h
    -- either the token is unknown, or the selection of its scope cannot be built
    rcases pop_error_cases hrec h with ⟨hscope, he, hs⟩ | hopen
    · rw [hscope]
      exact ⟨he, hs⟩
    · obtain ⟨scope, e', hscope, hbuild, he, leaked, rfl, hleaked⟩ := hopen
      rw [hscope]
      refine ⟨⟨e', hbuild, he⟩, rfl, rfl, rfl, rfl, fun d hd => ?_⟩
      -- a failed pop adds the closing of the scope and leaks to the history
      have hnew : .dropped d ∉ .closed token :: leaked := by
        rcases hleaked with rfl | rfl <;> simp
      have hd' : .dropped d ∈ b.mem.effects ++ .closed token :: leaked := by
        simpa [State.record, State.removed] using hd
      exact (List.mem_append.mp hd').resolve_right hnew
  · intro hcur
    refine ⟨?_, fun hzero => ensure_isOk (not_or.mpr ⟨hzero, hcur⟩)⟩
    intro token scope hscope
    refine popDefaultBackend_isOk (fun howns => hcur ?_) hscope
    exact owner_eq_of_scope hrec howns hscope

/-- A core that has lost everything the ladder and the cloud need. -/
def brokenCore : Core where
  resolveDefaultBackend := .error (.invalidConfig "no backend")
  cloudFromProfile _ := .error (.invalidConfig "no profile")
  cloudNew _ _ := .error (.invalidConfig "no cloud")
  lazyDefault := .localBackend

/-- The child of `scopedTree` cannot restore the ladder, but it can choose the local backend. -/
theorem backend_operations_fail_atomically_broken :
    ((popDefaultBackend childProc brokenCore 1).run scopedState.forked).isOk = false ∧
      ((setDefaultBackend childProc brokenCore "local" none none none).run
        scopedState.forked).isOk = true := by
  obtain ⟨-, -, hset, hinherited⟩ := backend_operations_fail_atomically scopedTree_treeRun
    (b := ⟨childProc, [rootProc], scopedState.forked⟩) (by simp [scopedTree]) brokenCore
  obtain ⟨hpop, -⟩ := hinherited (by decide)
  constructor
  · rw [hpop 1 ⟨rootProc.ident, some ⟨1, 0, .ladder, .localBackend⟩, .ladder⟩ (by decide)]
    rfl
  · rw [(hset "local" none none none).1]
    rfl

end MicrosandboxRb.BackendRecord
