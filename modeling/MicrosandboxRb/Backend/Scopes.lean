import MicrosandboxRb.Backend.Failure
import MicrosandboxRb.Backend.WithBackend

/-!
# `with_backend` blocks restore what they found

What an open scope restores is a function of its token. A push defines it at a new token, a pop
undefines it, and nothing else in a well-nested trace changes it: a takeover leaks the saved
backends, but not the recorded selections. So the pop of a block finds what its push recorded,
whatever the body did and in whichever process the block is left.

## Main results

* `Follows.frame`: a well-nested trace changes neither the open tokens nor what they restore, and
  without a fork it does not touch the open scopes of an owner at all;
* `with_backend_restores`: what holds right after any block of any program.
-/

namespace MicrosandboxRb.BackendRecord

open ForkTree

/-- What the open scopes restore. -/
def State.restores (s : State) (token : UInt32) : Option Selection :=
  (s.backendScopes.lookup token).map Scope.selection

/-- The open scopes. -/
def State.scopes (s : State) (token : UInt32) : Option Scope := s.backendScopes.lookup token

/-- The open tokens are those that restore a selection. -/
theorem mem_backendScopes {s : State} {token : UInt32} :
    token ∈ s.backendScopes ↔ s.restores token ≠ none := by
  rw [State.restores, Ne, Option.map_eq_none_iff, ← Ne, ← AList.lookup_isSome,
    Option.isSome_iff_ne_none]

/-! ## Tokens -/

section Tokens

variable {p : Proc ProcessIdentity} {s s' : State}

/-- Open tokens were handed out, and the next one was not. -/
structure TokensInv (s : State) : Prop where
  next : s.nextBackendScope.toNat = (1 + s.pushes) % 2 ^ 32
  tokens : ∀ token ∈ s.backendScopes, 1 ≤ token.toNat ∧ token.toNat ≤ s.pushes

/-- The next token is not open while fewer than `2 ^ 32` scopes were opened. -/
theorem TokensInv.next_not_mem (h : TokensInv s) (hpushes : s.pushes + 1 < 2 ^ 32) :
    s.nextBackendScope ∉ s.backendScopes := by
  intro hmem
  obtain ⟨-, hle⟩ := h.tokens _ hmem
  rw [h.next, Nat.mod_eq_of_lt (by omega)] at hle
  omega

/-- A push hands out a token that no open scope has. -/
theorem TokensInv.opened (h : TokensInv s) (hpushes : s.pushes + 1 < 2 ^ 32) (scope : Scope) :
    TokensInv (s.opened scope) := by
  have hnext : s.nextBackendScope.toNat = 1 + s.pushes := by
    rw [h.next, Nat.mod_eq_of_lt (by omega)]
  constructor
  · simp only [State.opened, UInt32.toNat_add, UInt32.toNat_one, hnext]
    omega
  · intro token htoken
    change 1 ≤ token.toNat ∧ token.toNat ≤ s.pushes + 1
    rcases AList.mem_insert _ |>.mp htoken with rfl | htoken
    · omega
    · have := h.tokens token htoken
      omega

/-- Tokens stay fresh where no scope is opened. -/
theorem TokensInv.of_subset (h : TokensInv s) (hnext : s'.nextBackendScope = s.nextBackendScope)
    (hpushes : s'.pushes = s.pushes)
    (hscopes : ∀ token ∈ s'.backendScopes, token ∈ s.backendScopes) : TokensInv s' := by
  constructor
  · rw [hnext, hpushes]
    exact h.next
  · intro token htoken
    rw [hpushes]
    exact h.tokens token (hscopes token htoken)

/-- A take-over keeps every scope open. -/
theorem mem_takenOver {core : Core} {source : Selection} {kind : BackendKind} {token : UInt32} :
    token ∈ (s.takenOver p core source kind).backendScopes ↔ token ∈ s.backendScopes := by
  rw [AList.mem_keys, AList.mem_keys, State.takenOver, AList.keys_mapVals]

/-- A take-over hands out no token. -/
theorem TokensInv.takenOver (h : TokensInv s) {core : Core} {source : Selection}
    {kind : BackendKind} : TokensInv (s.takenOver p core source kind) :=
  h.of_subset rfl rfl fun _ => mem_takenOver.mp

/-- Effects are no part of the tokens. -/
theorem TokensInv.record (h : TokensInv s) (e : List Effect) : TokensInv (s.record e) :=
  h.of_subset rfl rfl fun _ => id

/-- Tokens stay fresh over a move, until they wrap around. -/
theorem TokensInv.move (h : TokensInv s) (hmove : Move p s s') (hpushes : s'.pushes < 2 ^ 32) :
    TokensInv s' := by
  have hremoved : ∀ token, TokensInv (s.removed token) := fun token =>
    h.of_subset rfl rfl fun _ htoken => (AList.mem_erase.mp htoken).2
  cases hmove with
  | claim howns => exact h.of_subset rfl rfl fun _ => id
  | takeOver core source kind howns => exact h.takenOver
  | resolve core howner => exact h.of_subset rfl rfl fun _ => id
  | start howner => exact h.record _
  | replace source kind howner => exact h.of_subset rfl rfl fun _ => id
  | push core source kind howner =>
    have hinstalled : TokensInv { s.afterBuild.resolved p core with
        defaultBackend := some (s.fresh p source kind), selection := source } :=
      h.of_subset rfl rfl fun _ => id
    exact hinstalled.opened hpushes _
  | takeOverPush core source kind howns =>
    exact h.takenOver.opened hpushes _
  | @restore token => exact (hremoved token).of_subset rfl rfl fun _ => id
  | @rebuild token => exact (hremoved token).of_subset rfl rfl fun _ => id
  | @discard token => exact hremoved token
  | @abandon token => exact (hremoved token).record _
  | @takeOverAt token => exact ((hremoved token).takenOver).record _

/-- Pushes are only counted up. -/
theorem Move.pushes_le (h : Move p s s') : s.pushes ≤ s'.pushes := by
  cases h with
  | push | takeOverPush => exact Nat.le_succ _
  | _ => exact le_rfl

/-- So they are over any number of moves. -/
theorem Moves.pushes_le (h : Moves p s s') : s.pushes ≤ s'.pushes := by
  induction h with
  | refl => exact le_rfl
  | tail _ hmove ih => exact ih.trans hmove.pushes_le

/-- Tokens stay fresh over any number of moves, until they wrap around. -/
theorem TokensInv.moves (h : TokensInv s) (hmoves : Moves p s s') (hpushes : s'.pushes < 2 ^ 32) :
    TokensInv s' := by
  induction hmoves with
  | refl => exact h
  | tail _ hmove ih => exact (ih (hmove.pushes_le.trans_lt hpushes)).move hmove hpushes

/-- Tokens are fresh at the end of every branch of fewer than `2 ^ 32` pushes. -/
theorem tokensInv_of_run {b : Branch ProcessIdentity State} (h : backendSystem.Run b)
    (hpushes : b.mem.pushes < 2 ^ 32) : TokensInv b.mem := by
  induction h with
  | root hroot =>
    refine ⟨rfl, fun token htoken => ?_⟩
    exact absurd htoken (by simp [backendSystem, processSystem, State.initial])
  | @step b m hrun hstep ih =>
    obtain ⟨core, call, rfl⟩ := hstep
    have hmoves : Moves b.self b.mem ((call.exec b.self core).run b.mem).state :=
      moves_exec (recordInv_of_run hrun) call
    exact (ih (hmoves.pushes_le.trans_lt hpushes)).moves hmoves hpushes
  | fork hrun hident hfresh ih => exact (ih hpushes).of_subset rfl rfl fun _ => id

end Tokens

/-! ## What the operations do to the open scopes -/

section Operations

variable {l : List (Proc ProcessIdentity)} {p : Proc ProcessIdentity} {core : Core} {s s' : State}
  {token : UInt32}

/-- The open scopes stay open, with what they restore; an owner does not touch them. -/
structure Keeps (p : Proc ProcessIdentity) (s s' : State) : Prop where
  restores : s'.restores = s.restores
  owner : Owns p s → Owns p s' ∧ s'.scopes = s.scopes

/-- Doing nothing keeps the scopes. -/
theorem Keeps.refl (p : Proc ProcessIdentity) (s : State) : Keeps p s s :=
  ⟨rfl, fun h => ⟨h, rfl⟩⟩

/-- Keeping is transitive. -/
theorem Keeps.trans {s'' : State} (h : Keeps p s s') (h' : Keeps p s' s'') : Keeps p s s'' := by
  refine ⟨h'.restores.trans h.restores, fun howns => ?_⟩
  obtain ⟨howns', hscopes⟩ := h.owner howns
  obtain ⟨howns'', hscopes'⟩ := h'.owner howns'
  exact ⟨howns'', hscopes'.trans hscopes⟩

/-- A take-over keeps what each scope restores. -/
theorem restores_takenOver {source : Selection} {kind : BackendKind} :
    (s.takenOver p core source kind).restores = s.restores := by
  funext token
  rw [State.restores, State.takenOver, AList.lookup_mapVals, Option.map_map]
  rfl

/-- A take-over keeps the scopes. -/
theorem keeps_takenOver (h : ¬ Owns p s) {source : Selection} {kind : BackendKind} :
    Keeps p s (s.takenOver p core source kind) :=
  ⟨restores_takenOver, fun howns => absurd howns h⟩

/-- A claim keeps the scopes. -/
theorem keeps_claimed : Keeps p s (s.claimed p) := ⟨rfl, fun _ => ⟨Or.inr rfl, rfl⟩⟩

/-- `ensure_this_process_backend` keeps the scopes, whether it fails or not. -/
theorem keeps_ensure : Keeps p s ((ensureThisProcessBackend p core).run s).state := by
  rw [run_ensureThisProcessBackend]
  by_cases howns : Owns p s
  · rw [if_pos howns]
    exact keeps_claimed
  · rw [if_neg howns]
    cases s.selection.resolve core with
    | error e => exact Keeps.refl p s
    | ok kind => exact keeps_takenOver howns

/-- So does another selection. -/
theorem keeps_setDefaultBackend (kind : String) (url apiKey profile : Option String) :
    Keeps p s ((setDefaultBackend p core kind url apiKey profile).run s).state := by
  rw [run_setDefaultBackend]
  by_cases howns : Owns p s
  · cases (Selection.explicit kind url apiKey profile).resolve core with
    | error e => simpa [howns] using keeps_claimed
    | ok kind' =>
      have hreplaced : Keeps p s ((s.claimed p).replaced p (.explicit kind url apiKey profile)
          kind') := ⟨rfl, fun _ => ⟨Or.inr rfl, rfl⟩⟩
      simpa [howns] using hreplaced
  · cases (Selection.explicit kind url apiKey profile).resolve core with
    | error e => simpa [howns] using Keeps.refl p s
    | ok kind' => simpa [howns] using keeps_takenOver howns

/-- The calls of a program outside the entry and the exit of blocks keep the open scopes. -/
theorem keeps_bodyCall (call : BodyCall) :
    Keeps p s ((call.toCall.exec p core).run s).state := by
  have hensure : Keeps p s ((ensureThisProcessBackend p core).run s).state := keeps_ensure
  cases call with
  | setDefaultBackend kind url apiKey profile =>
    exact keeps_setDefaultBackend kind url apiKey profile
  | nativeCall touches failure =>
    change Keeps p s ((blockOn p core touches).run s).state
    rw [run_blockOn]
    cases hrun : (ensureThisProcessBackend p core).run s with
    | error e s' => simpa [hrun] using hensure
    | ok u s' =>
      have hkeeps : Keeps p s s' := by simpa [hrun] using hensure
      -- starting the future, and using the slot, leave the record alone
      cases touches <;> exact hkeeps.trans ⟨rfl, fun howns => ⟨howns, rfl⟩⟩
  | defaultBackendKind =>
    change Keeps p s ((Call.defaultBackendKind.exec p core).run s).state
    rw [exec_defaultBackendKind_state, run_defaultBackendKind_state]
    cases hrun : (ensureThisProcessBackend p core).run s with
    | error e s' => simpa [hrun] using hensure
    | ok u s' =>
      have hkeeps : Keeps p s s' := by simpa [hrun] using hensure
      exact hkeeps.trans ⟨rfl, fun howns => ⟨howns, rfl⟩⟩

/-- A failed push keeps the open scopes. -/
theorem keeps_push_error {kind : String} {url apiKey profile : Option String} {e : RubyError}
    (h : (pushDefaultBackend p core kind url apiKey profile).run s = .error e s') :
    Keeps p s s' := by
  rw [run_pushDefaultBackend] at h
  cases hbuild : (Selection.explicit kind url apiKey profile).resolve core with
  | ok kind' => simp [hbuild] at h
  | error e' =>
    rw [hbuild] at h
    obtain rfl := (EStateM.Result.error.inj h).2
    by_cases howns : Owns p s
    · rw [if_pos howns]
      exact keeps_claimed
    · rw [if_neg howns]
      exact Keeps.refl p s

/-- What a push leaves: a scope under a new token, for the selection before it. -/
structure Pushed (p : Proc ProcessIdentity) (s : State) (token : UInt32) (s' : State) : Prop where
  fresh : token = s.nextBackendScope
  pushes : s'.pushes = s.pushes + 1
  owner : Owns p s'
  restores : s'.restores = Function.update s.restores token (some s.selection)
  scopes : Owns p s → ∃ previous,
    s'.scopes = Function.update s.scopes token
      (some { owner := p.ident, previous := some previous, selection := s.selection }) ∧
    ∀ d, s.defaultBackend = some d → previous = d

/-- Inserting a scope updates the lookup at its token. -/
theorem scopes_insert {m : AssocMap UInt32 Scope} (scope : Scope) :
    (fun token' => (m.insert token scope).lookup token') =
      Function.update (fun token' => m.lookup token') token (some scope) := by
  funext token'
  by_cases htoken : token' = token
  · subst htoken
    rw [AList.lookup_insert, Function.update_self]
  · rw [AList.lookup_insert_ne htoken, Function.update_of_ne htoken]

/-- A push adds the selection that its scope restores. -/
theorem restores_opened (scope : Scope) :
    (s.opened scope).restores =
      Function.update s.restores s.nextBackendScope (some scope.selection) := by
  funext token'
  by_cases htoken : token' = s.nextBackendScope
  · subst htoken
    rw [State.restores, State.opened, AList.lookup_insert, Function.update_self]
    rfl
  · rw [State.restores, State.opened, AList.lookup_insert_ne htoken, Function.update_of_ne htoken]
    rfl

/-- A push that succeeds has opened the scope of its token. -/
theorem pushed_of_ok {kind : String} {url apiKey profile : Option String}
    (h : (pushDefaultBackend p core kind url apiKey profile).run s = .ok token s') :
    Pushed p s token s' := by
  rw [run_pushDefaultBackend] at h
  cases hbuild : (Selection.explicit kind url apiKey profile).resolve core with
  | error e => simp [hbuild] at h
  | ok kind' =>
    rw [hbuild] at h
    obtain ⟨rfl, rfl⟩ := EStateM.Result.ok.inj h
    by_cases howns : Owns p s
    · rw [if_pos howns]
      refine ⟨rfl, rfl, Or.inr rfl, restores_opened _, fun _ =>
        ⟨(s.claimed p).afterBuild.resolvedDefault p core, scopes_insert _, ?_⟩⟩
      intro d hd
      simp [State.resolvedDefault, State.afterBuild, State.claimed, hd]
    · rw [if_neg howns]
      refine ⟨rfl, rfl, Or.inr rfl, ?_, fun h => absurd h howns⟩
      rw [restores_opened, restores_takenOver]
      rfl

/-- A pop takes the scope of its token out. -/
theorem restores_removed : (s.removed token).restores = Function.update s.restores token none := by
  funext token'
  by_cases htoken : token' = token
  · subst htoken
    rw [State.restores, State.removed, AList.lookup_erase, Function.update_self]
    rfl
  · rw [State.restores, State.removed, AList.lookup_erase_ne htoken, Function.update_of_ne htoken]
    rfl

/-- The other scopes stay as they are. -/
theorem scopes_removed : (s.removed token).scopes = Function.update s.scopes token none := by
  funext token'
  by_cases htoken : token' = token
  · subst htoken
    rw [State.scopes, State.removed, AList.lookup_erase, Function.update_self]
  · rw [State.scopes, State.removed, AList.lookup_erase_ne htoken, Function.update_of_ne htoken]
    rfl

/-- What a pop leaves: the scope is gone, whether or not the restore succeeded. -/
structure Popped (p : Proc ProcessIdentity) (s : State) (token : UInt32) (s' : State) : Prop where
  pushes : s'.pushes = s.pushes
  restores : s'.restores = Function.update s.restores token none
  scopes : Owns p s → Owns p s' ∧ s'.scopes = Function.update s.scopes token none

/-- A pop of a consistent record, whether it fails or not. -/
theorem popped (hrec : RecordInv l s) :
    Popped p s token ((popDefaultBackend p core token).run s).state := by
  cases hscope : s.backendScopes.lookup token with
  | none =>
    rw [run_popDefaultBackend_unknown hscope]
    have hscopes : s.scopes token = none := hscope
    have hrestores : s.restores token = none := by rw [State.restores, hscope]; rfl
    refine ⟨rfl, ?_, fun howns => ⟨howns, ?_⟩⟩
    · rw [← hrestores, Function.update_eq_self]
      rfl
    · rw [← hscopes, Function.update_eq_self]
      rfl
  | some scope =>
    by_cases howns : Owns p s
    · -- what an owner does after the removal leaves both registries alone
      have hremoved : Popped p s token (s.removed token) :=
        ⟨rfl, restores_removed, fun _ => ⟨howns, scopes_removed⟩⟩
      rw [run_popDefaultBackend_owns hrec howns hscope]
      cases hprevious : scope.previous with
      | some previous => exact ⟨rfl, hremoved.restores, hremoved.scopes⟩
      | none =>
        cases scope.selection.resolve core with
        | error e => exact hremoved
        | ok kind => exact ⟨rfl, hremoved.restores, hremoved.scopes⟩
    · rw [run_popDefaultBackend_inherited hscope howns]
      cases scope.selection.resolve core with
      | error e => exact ⟨rfl, restores_removed, fun h => absurd h howns⟩
      | ok kind =>
        refine ⟨rfl, ?_, fun h => absurd h howns⟩
        change ((s.removed token).takenOver p core scope.selection kind).restores = _
        rw [restores_takenOver, restores_removed]

end Operations

/-! ## Traces -/

section Traces

variable {b b' : Branch ProcessIdentity State}

/-- A branch that follows another one comes after it in the tree. -/
theorem Follows.lineage_suffix (h : Follows b b') : b.lineage <:+ b'.lineage := by
  induction h with
  | refl | call | pushFailed => exact List.suffix_rfl
  | trans _ _ ih₁ ih₂ => exact ih₁.trans ih₂
  | fork b hpid => exact List.suffix_cons _ _
  | block pop hpush hbody ih => exact ih

/-- No call of a process lowers its count of pushes. -/
theorem pushes_le_exec (hb : backendSystem.Run b) (core : Core) (call : Call) :
    b.mem.pushes ≤ ((call.exec b.self core).run b.mem).state.pushes :=
  Moves.pushes_le (moves_exec (recordInv_of_run hb) call)

/-- Nor do the calls and forks in between. -/
theorem Follows.pushes_le (h : Follows b b') (hb : backendSystem.Run b) :
    b.mem.pushes ≤ b'.mem.pushes := by
  induction h with
  | refl => exact le_rfl
  | trans h₁ _ ih₁ ih₂ => exact (ih₁ hb).trans (ih₂ (h₁.run hb))
  | call b core call => exact pushes_le_exec hb core call.toCall
  | fork => exact le_rfl
  | @pushFailed b core kind url apiKey profile e m hpush =>
    have hle := pushes_le_exec hb core (.pushDefaultBackend kind url apiKey profile)
    rwa [exec_pushDefaultBackend_state, hpush] at hle
  | @block b b' push pop kind url apiKey profile token m hpush hbody ih =>
    have hinside := run_of_push hb hpush
    have hle : b.mem.pushes ≤ m.pushes := by
      rw [(pushed_of_ok hpush).pushes]
      exact Nat.le_succ _
    rw [(popped (recordInv_of_run (hbody.run hinside))).pushes]
    exact hle.trans (ih hinside)

/-- A well-nested trace changes neither the open tokens nor what they restore. While it stays in
one process that owns the record, it does not touch the open scopes. -/
theorem Follows.frame (h : Follows b b') (hb : backendSystem.Run b)
    (hpushes : b'.mem.pushes < 2 ^ 32) :
    b'.mem.restores = b.mem.restores ∧
      (b'.lineage = b.lineage → Owns b.self b.mem →
        Owns b'.self b'.mem ∧ b'.mem.scopes = b.mem.scopes) := by
  induction h with
  | refl => exact ⟨rfl, fun _ howns => ⟨howns, rfl⟩⟩
  | @trans b₁ b₂ b₃ h₁ h₂ ih₁ ih₂ =>
    have hb₂ := h₁.run hb
    obtain ⟨hrestores₁, hsame₁⟩ := ih₁ hb ((h₂.pushes_le hb₂).trans_lt hpushes)
    obtain ⟨hrestores₂, hsame₂⟩ := ih₂ hb₂ hpushes
    refine ⟨hrestores₂.trans hrestores₁, fun hlineage howns => ?_⟩
    -- the process in the middle is the one at both ends
    have hmiddle : b₂.lineage = b₁.lineage := by
      refine (h₁.lineage_suffix.eq_of_length_le ?_).symm
      rw [← hlineage]
      exact h₂.lineage_suffix.length_le
    obtain ⟨howns₂, hscopes₁⟩ := hsame₁ hmiddle howns
    obtain ⟨howns₃, hscopes₂⟩ := hsame₂ (hlineage.trans hmiddle.symm) howns₂
    exact ⟨howns₃, hscopes₂.trans hscopes₁⟩
  | call b core call =>
    have hkeeps : Keeps b.self b.mem ((call.toCall.exec b.self core).run b.mem).state :=
      keeps_bodyCall call
    exact ⟨hkeeps.restores, fun _ => hkeeps.owner⟩
  | fork b hpid =>
    refine ⟨rfl, fun hlineage => ?_⟩
    have hlength := congrArg List.length hlineage
    -- a child has a longer lineage
    simp [forkChild] at hlength
  | pushFailed hpush =>
    have hkeeps := keeps_push_error hpush
    exact ⟨hkeeps.restores, fun _ => hkeeps.owner⟩
  | @block b b' push pop kind url apiKey profile token m hpush hbody ih =>
    -- a nested block opens one scope and closes it again
    have hinside := run_of_push hb hpush
    have hpushed := pushed_of_ok hpush
    have hpopped : Popped b'.self b'.mem token
        ((popDefaultBackend b'.self pop token).run b'.mem).state :=
      popped (recordInv_of_run (hbody.run hinside))
    rw [hpopped.pushes] at hpushes
    obtain ⟨hrestores, hsame⟩ := ih hinside hpushes
    -- the token of the block was not open before it
    have hfresh : b.mem.backendScopes.lookup token = none := by
      have hle := (hbody.pushes_le hinside).trans_lt hpushes
      rw [hpushed.pushes] at hle
      rw [hpushed.fresh, AList.lookup_eq_none]
      exact (tokensInv_of_run hb (Nat.lt_of_succ_lt hle)).next_not_mem hle
    have hrestoresNone : b.mem.restores token = none := by
      rw [State.restores, hfresh]
      rfl
    refine ⟨?_, fun hlineage howns => ?_⟩
    · rw [hpopped.restores, hrestores, hpushed.restores, Function.update_idem, ← hrestoresNone,
        Function.update_eq_self]
    · obtain ⟨howns', hscopes⟩ := hsame hlineage hpushed.owner
      obtain ⟨hownsAfter, hscopesAfter⟩ := hpopped.scopes howns'
      obtain ⟨previous, hscopesPushed, -⟩ := hpushed.scopes howns
      have hscopesNone : b.mem.scopes token = none := hfresh
      refine ⟨hownsAfter, ?_⟩
      rw [hscopesAfter, hscopes, hscopesPushed, Function.update_idem, ← hscopesNone,
        Function.update_eq_self]

end Traces

/-! ## Blocks -/

section Blocks

/-- A pop that succeeds installs a default of this process for the selection of the scope: the
saved one, if the scope has one and the process owns the record. -/
theorem pop_ok {l : List (Proc ProcessIdentity)} {p : Proc ProcessIdentity} {core : Core}
    {s s' : State} {token : UInt32} {scope : Scope} (hrec : RecordInv l s)
    (hscope : s.backendScopes.lookup token = some scope)
    (h : (popDefaultBackend p core token).run s = .ok () s') :
    s'.selection = scope.selection ∧ s'.backendOwner = p.ident.toBits ∧
      ∃ d, s'.defaultBackend = some d ∧
        (Owns p s → ∀ previous, scope.previous = some previous → d = previous) := by
  by_cases howns : Owns p s
  · -- only the owner of the record opens scopes in it
    have howner := owner_eq_of_scope hrec howns hscope
    rw [run_popDefaultBackend_owns hrec howns hscope] at h
    cases hprevious : scope.previous with
    | some previous =>
      rw [hprevious] at h
      obtain rfl := (EStateM.Result.ok.inj h).2
      refine ⟨rfl, howner, previous, rfl, fun _ d hd => Option.some.inj hd⟩
    | none =>
      cases hbuild : scope.selection.resolve core with
      | error e => simp [hprevious, hbuild] at h
      | ok kind =>
        rw [hprevious, hbuild] at h
        obtain rfl := (EStateM.Result.ok.inj h).2
        exact ⟨rfl, howner, _, rfl, fun _ d hd => by cases hd⟩
  · rw [run_popDefaultBackend_inherited hscope howns] at h
    cases hbuild : scope.selection.resolve core with
    | error e => simp [hbuild] at h
    | ok kind =>
      rw [hbuild] at h
      obtain rfl := (EStateM.Result.ok.inj h).2
      exact ⟨rfl, rfl, _, rfl, fun h => absurd h howns⟩

variable {x : LeftBlock}

/-- The scope that the pop of a block finds. -/
theorem LeftBlock.Valid.scope (h : x.Valid) (hpushes : x.leaving.mem.pushes < 2 ^ 32) :
    ∃ scope, x.leaving.mem.backendScopes.lookup x.token = some scope ∧
      scope.selection = x.entered.mem.selection := by
  obtain ⟨push, kind, url, apiKey, profile, m, hpush, hinside⟩ := h.inside
  have hpushed := pushed_of_ok hpush
  have hframe := (hinside ▸ h.body).frame (run_of_push h.entered hpush) hpushes
  have hrestores : x.leaving.mem.restores x.token = some x.entered.mem.selection := by
    rw [hframe.1, hpushed.restores, Function.update_self]
  exact Option.map_eq_some_iff.mp hrestores

/-- Right after a block, exactly the tokens are open that were open right before it. -/
theorem LeftBlock.Valid.restores (h : x.Valid) (hpushes : x.leaving.mem.pushes < 2 ^ 32) :
    x.after.mem.restores = x.entered.mem.restores := by
  obtain ⟨push, kind, url, apiKey, profile, m, hpush, hinside⟩ := h.inside
  obtain ⟨m', hafter, hpop⟩ := h.after
  have hblock := Follows.block x.core hpush (hinside ▸ h.body)
  have hpopped : Popped x.leaving.self x.leaving.mem x.token
      ((popDefaultBackend x.leaving.self x.core x.token).run x.leaving.mem).state :=
    popped (recordInv_of_run (h.body.run (hinside ▸ run_of_push h.entered hpush)))
  have hstate :
      ((popDefaultBackend x.leaving.self x.core x.token).run x.leaving.mem).state = m' := by
    rw [hpop]
    cases x.closed <;> rfl
  rw [← hpopped.pushes] at hpushes
  have hframe := (hblock.frame h.entered hpushes).1
  rw [hafter]
  rw [hstate] at hframe
  exact hframe

/-- The backend that the push swapped out is still saved when the block is left by the process that
entered it as the owner of the record. -/
theorem LeftBlock.Valid.saved (h : x.Valid) (hpushes : x.leaving.mem.pushes < 2 ^ 32)
    (hself : x.leaving.self = x.entered.self) (howns : Owns x.entered.self x.entered.mem) :
    ∃ scope previous, x.inside.mem.backendScopes.lookup x.token = some scope ∧
      scope.previous = some previous ∧
      (∀ d, x.entered.mem.defaultBackend = some d → previous = d) ∧
      Owns x.leaving.self x.leaving.mem ∧
      x.leaving.mem.backendScopes.lookup x.token = some scope := by
  obtain ⟨push, kind, url, apiKey, profile, m, hpush, hinside⟩ := h.inside
  have hpushed := pushed_of_ok hpush
  have hrun := run_of_push h.entered hpush
  have hbody : Follows { x.entered with mem := m } x.leaving := hinside ▸ h.body
  -- the same process again: nobody forked off it was followed
  have hlineage : x.leaving.lineage = x.entered.lineage := by
    obtain ⟨extra, hextra⟩ := hbody.lineage_suffix
    have hnodup := (hbody.run hrun).names_nodup
    cases extra with
    | nil => exact hextra.symm
    | cons c extra =>
      have hhead : c = x.leaving.self := (List.cons.inj hextra).1
      rw [← hextra, List.cons_append, List.map_cons, List.nodup_cons] at hnodup
      refine absurd (List.mem_map_of_mem ?_) hnodup.1
      rw [hhead, hself]
      exact List.mem_append_right _ (Branch.self_mem_lineage _)
  obtain ⟨howns', hscopes⟩ := (hbody.frame hrun hpushes).2 hlineage hpushed.owner
  obtain ⟨previous, hscopesPushed, hdefault⟩ := hpushed.scopes howns
  have hlookup := congrFun hscopesPushed x.token
  rw [Function.update_self] at hlookup
  refine ⟨{  owner := x.entered.self.ident
             previous := some previous
             selection := x.entered.mem.selection }, previous, ?_, rfl, hdefault, howns', ?_⟩
  · rw [hinside]
    exact hlookup
  · exact (congrFun hscopes x.token).trans hlookup

end Blocks

/-! ## Programs -/

/-- `with_backend` blocks restore. Let a program run in any process of any tree, and let one of its
blocks be left in a process with fewer than `2 ^ 32` ancestors, on a branch of fewer than `2 ^ 32`
pushes. If the pop succeeds, the recorded selection and the open tokens are those from right before
the block, and the process that leaves the block built the default, from this selection; if the same
process, then the owner of the record, entered the block, the default is the object that the push
swapped out. And the pop fails only when it has to rebuild, and that selection does not build. -/
theorem with_backend_restores (message : RubyError → String) (P : Prog)
    {t : List (Branch ProcessIdentity State)} (ht : backendSystem.TreeRun t)
    {b : Branch ProcessIdentity State} (hb : b ∈ t) {x : LeftBlock}
    (hx : x ∈ ((P.run message).run { branch := b, left := [], warnings := [] }).state.left)
    (hforks : x.leaving.ancestors.length < 2 ^ 32) (hpushes : x.leaving.mem.pushes < 2 ^ 32) :
    match x.closed with
    | .ok _ =>
      x.after.mem.selection = x.entered.mem.selection ∧
      (∀ token, token ∈ x.after.mem.backendScopes ↔ token ∈ x.entered.mem.backendScopes) ∧
      ∃ d, x.after.mem.defaultBackend = some d ∧ d.builtIn = x.leaving.self.name ∧
        d.source = x.entered.mem.selection ∧
        (x.leaving.self = x.entered.self → Owns x.entered.self x.entered.mem →
          (x.inside.mem.backendScopes.lookup x.token).bind Scope.previous = some d ∧
          ∀ d', x.entered.mem.defaultBackend = some d' → d = d')
    | .error e =>
      ∃ e', x.entered.mem.selection.resolve x.core = .error e' ∧ e = .toRuby e' := by
  obtain ⟨i, hi⟩ := List.mem_iff_getElem?.mp hb
  have hvalid : x.Valid :=
    ((P.run_extends message (ht.run hi).2.2).left x hx).resolve_left List.not_mem_nil
  -- the scope of the block is still open when the block is left
  obtain ⟨scope, hscope, hselection⟩ := hvalid.scope hpushes
  obtain ⟨m, hafter, hpop⟩ := hvalid.after
  obtain ⟨push, kind, url, apiKey, profile, m', hpush, hinside⟩ := hvalid.inside
  have hleaving : backendSystem.Run x.leaving :=
    hvalid.body.run (hinside ▸ run_of_push hvalid.entered hpush)
  have hrec := recordInv_of_run hleaving
  cases hclosed : x.closed with
  | error e =>
    rw [hclosed] at hpop
    -- the pop fails only where the selection cannot be built any more
    rcases pop_error_cases hrec hpop with ⟨hnone, -⟩ | ⟨scope', e', hscope', hbuild, he, -⟩
    · rw [hscope] at hnone
      cases hnone
    · obtain rfl : scope = scope' := Option.some.inj (hscope.symm.trans hscope')
      exact ⟨e', hselection ▸ hbuild, he⟩
  | ok u =>
    rw [hclosed] at hpop
    obtain ⟨hsel, howner, d, hd, hsaved⟩ := pop_ok hrec hscope hpop
    have hrunAfter : backendSystem.Run { x.leaving with mem := m } := by
      refine System.Run.step hleaving ⟨x.core, .popDefaultBackend x.token, ?_⟩
      rw [Call.exec, hpop]
      rfl
    obtain ⟨q, hq, hbits, hbuilt, hsource⟩ := (recordInv_of_run hrunAfter).resolved d hd
    -- the owner word names the process that left the block, and no ancestor of it
    have hident := ProcessIdentity.toBits_injective (hbits.symm.trans howner)
    have hself := ident_injOn hrunAfter hforks hq (Branch.self_mem_lineage _) hident
    rw [hafter]
    refine ⟨hsel.trans hselection, fun token => ?_, d, hd, ?_, ?_, ?_⟩
    · have hrestores := congrFun (hvalid.restores hpushes) token
      rw [hafter] at hrestores
      rw [mem_backendScopes, mem_backendScopes, hrestores]
    · rw [hbuilt, hself]
    · rw [hsource, hsel, hselection]
    · -- the process that entered the block gets its own backend back
      intro hsame howns
      obtain ⟨scope', previous, hinsideScope, hprevious, hdefault, howns', hscope'⟩ :=
        hvalid.saved hpushes hsame howns
      obtain rfl : scope = scope' := Option.some.inj (hscope.symm.trans hscope')
      have hd' : d = previous := hsaved howns' previous hprevious
      refine ⟨?_, fun d' hd'' => hd'.trans (hdefault d' hd'')⟩
      rw [hinsideScope, hd']
      exact hprevious

/-- A block that the root enters and its child leaves. -/
def leftByChild : LeftBlock :=
  let w : World := { branch := ⟨rootProc, [], State.initial⟩, left := [], warnings := [] }
  let inside : Branch ProcessIdentity State := ⟨rootProc, [], scopedState⟩
  let leaving := forkChild 100 inside
  { entered := w.branch
    inside
    leaving
    after := { leaving with
      mem := ((popDefaultBackend leaving.self readyCore 1).run leaving.mem).state }
    token := 1
    core := readyCore
    closed := .ok () }

/-- A block in which the process forks, left in the child. -/
theorem with_backend_restores_leftByChild :
    leftByChild.after.mem.selection = .ladder ∧
      ∃ d, leftByChild.after.mem.defaultBackend = some d ∧ d.builtIn = 1 := by
  have hroot : backendSystem.TreeRun [⟨rootProc, [], State.initial⟩] :=
    System.TreeRun.root (S := backendSystem) (And.intro rfl (by decide))
  have hleft : leftByChild ∈ (((Prog.withBackend readyCore readyCore "local" none none none
      (.fork (some ⟨100, by decide⟩))).run fun _ => "").run
        { branch := ⟨rootProc, [], State.initial⟩, left := [], warnings := [] }).state.left :=
    List.mem_singleton.mpr rfl
  obtain ⟨hselection, -, d, hd, hbuilt, -⟩ := with_backend_restores (fun _ => "") _ hroot
    (List.mem_singleton.mpr rfl) hleft (by decide) (by decide)
  exact ⟨hselection, d, hd, hbuilt⟩

/-- `n` forks, each followed into the child. -/
def forkTimes (pid : { pid : UInt32 // pid ≠ 0 }) : ℕ → Prog
  | 0 => .skip
  | n + 1 => .seq (forkTimes pid n) (.fork (some pid))

/-- A program that does nothing but fork. -/
theorem run_forkTimes (message : RubyError → String) (pid : { pid : UInt32 // pid ≠ 0 }) (w : World)
    (n : ℕ) : ((forkTimes pid n).run message).run w =
      .ok () { w with branch := (forkChild pid.1)^[n] w.branch } := by
  induction n with
  | zero => rfl
  | succ n ih =>
    rw [Function.iterate_succ_apply']
    simp [forkTimes, Prog.run, ih]

/-- The descendants that `n` forks with one pid give. -/
theorem iterate_forkChild (b : Branch ProcessIdentity State) (n : ℕ) :
    ((forkChild b.self.ident.pid)^[n] b).self.ident =
      { pid := b.self.ident.pid, generation := b.self.ident.generation + UInt32.ofNat n } ∧
    b.self ∈ ((forkChild b.self.ident.pid)^[n] b).lineage ∧
    ((forkChild b.self.ident.pid)^[n] b).mem.backendOwner = b.mem.backendOwner ∧
    ((forkChild b.self.ident.pid)^[n] b).mem.backendScopes = b.mem.backendScopes := by
  induction n with
  | zero => exact ⟨by simp, b.self_mem_lineage, rfl, rfl⟩
  | succ n ih =>
    obtain ⟨hident, hmem, howner, hscopes⟩ := ih
    rw [Function.iterate_succ_apply']
    refine ⟨?_, List.mem_cons_of_mem _ hmem, howner, hscopes⟩
    rw [forkChild, ProcessIdentity.onForkChild, hident, UInt32.ofNat_add, ← UInt32.add_assoc]
    rfl

/-- A descendant that has the identity of the root closes a scope of the root as its own, and
restores the backend of the root. -/
theorem restored_foreign_of_wrap {n : ℕ} (hn : UInt32.ofNat (n + 1) = 0) :
    ∃ x ∈ (((Prog.withBackend readyCore readyCore "local" none none none
        (forkTimes ⟨100, by decide⟩ (n + 1))).run fun _ => "").run
          { branch := ⟨rootProc, [], State.initial⟩, left := [], warnings := [] }).state.left,
      x.closed = .ok () ∧ x.leaving.self.name ≠ rootProc.name ∧
      x.after.mem.defaultBackend = some ⟨1, rootProc.name, .ladder, .localBackend⟩ := by
  let w : World := { branch := ⟨rootProc, [], State.initial⟩, left := [], warnings := [] }
  have hpush : (pushDefaultBackend rootProc readyCore "local" none none none).run State.initial =
      .ok 1 scopedState := by rfl
  have hbody := run_forkTimes (fun _ => "") ⟨100, by decide⟩ (w.withMem scopedState) (n + 1)
  obtain ⟨hident, -, howner, hscopes⟩ := iterate_forkChild ⟨rootProc, [], scopedState⟩ (n + 1)
  -- the root is an ancestor of the last child, which therefore has a name of its own
  have hname : rootProc.name ≠ ((forkChild 100)^[n + 1] ⟨rootProc, [], scopedState⟩).self.name := by
    rw [Function.iterate_succ_apply']
    exact forkChild_name_ne _ (iterate_forkChild ⟨rootProc, [], scopedState⟩ n).2.1
  rw [hn] at hident
  change ((forkChild 100)^[n + 1] ⟨rootProc, [], scopedState⟩).self.ident = rootProc.ident at hident
  change ((forkChild 100)^[n + 1] ⟨rootProc, [], scopedState⟩).mem.backendScopes = _ at hscopes
  change ((forkChild 100)^[n + 1] ⟨rootProc, [], scopedState⟩).mem.backendOwner = _ at howner
  change _ = EStateM.Result.ok () { w with
    branch := (forkChild 100)^[n + 1] ⟨rootProc, [], scopedState⟩ } at hbody
  generalize (forkChild 100)^[n + 1] ⟨rootProc, [], scopedState⟩ = last at *
  have hscope : last.mem.backendScopes.lookup 1 =
      some ⟨rootProc.ident, some ⟨1, 0, .ladder, .localBackend⟩, .ladder⟩ := by
    rw [hscopes]
    rfl
  -- after the wrap the identity of the root is the one of the last child
  have howns : Owns last.self last.mem := by
    refine Or.inr ?_
    rw [howner, hident]
    rfl
  have hpop : (popDefaultBackend last.self readyCore 1).run last.mem = _ :=
    run_popDefaultBackend_saved hscope howns rfl hident.symm
  have hrun := run_withBackend_ok (w := w) (fun _ => "") hpush hbody hpop
  rw [Prog.run, hrun]
  exact ⟨_, List.mem_singleton.mpr rfl, rfl, hname.symm, rfl⟩

/-- The bounds are needed: after `2 ^ 32` nested forks a block restores a backend that the process
leaving it did not build. -/
theorem exists_restored_foreign :
    ¬ ∀ (message : RubyError → String) (P : Prog), ∀ t, backendSystem.TreeRun t → ∀ b ∈ t,
      ∀ x ∈ ((P.run message).run { branch := b, left := [], warnings := [] }).state.left,
      x.closed = .ok () →
      ∃ d, x.after.mem.defaultBackend = some d ∧ d.builtIn = x.leaving.self.name := by
  intro hall
  have hroot : backendSystem.TreeRun [⟨rootProc, [], State.initial⟩] :=
    System.TreeRun.root (S := backendSystem) (And.intro rfl (by decide))
  have hwrap : UInt32.ofNat (2 ^ 32 - 1 + 1) = 0 := by decide
  obtain ⟨x, hx, hclosed, hname, hdefault⟩ := restored_foreign_of_wrap hwrap
  obtain ⟨d, hd, hbuilt⟩ := hall _ _ _ hroot _ (List.mem_singleton.mpr rfl) x hx hclosed
  obtain rfl := Option.some.inj (hdefault.symm.trans hd)
  exact hname hbuilt.symm

end MicrosandboxRb.BackendRecord
