import MicrosandboxRb.Backend.Invariant

/-!
# Inherited backends are leaked, never used and never dropped

A backend is in one of three places: in the state of the process (`State.held`), leaked
(`Effect.forgot`) or destroyed (`Effect.dropped`). No move loses one, and a move destroys or hands
to a native call only what the owner of the record holds. The number of leaks of a process is
bounded by what it inherited and by the scopes it closes.

## Main results

* `Accounted`: where the backends of a state are after a move;
* `LeakInv`: the history of one process, at any moment of its life;
* `inherited_backends_leak`: the statement over every process of every tree.
-/

namespace MicrosandboxRb.BackendRecord

open ForkTree

/-! ## References -/

section References

variable {p : Proc ProcessIdentity} {core : Core} {s s' : State} {d : Backend}
  {token : UInt32} {scope : Scope}

/-- A saved backend stands in an open scope. -/
theorem mem_saved : d ∈ s.saved ↔
    ∃ token scope, s.backendScopes.lookup token = some scope ∧ scope.previous = some d := by
  rw [State.saved, List.mem_filterMap]
  constructor
  · rintro ⟨scope, hscope, hd⟩
    obtain ⟨token, htoken⟩ := AList.mem_vals_iff.mp hscope
    exact ⟨token, scope, htoken, hd⟩
  · rintro ⟨token, scope, htoken, hd⟩
    exact ⟨scope, AList.mem_vals_iff.mpr ⟨token, htoken⟩, hd⟩

/-- A process holds its default, and what its scopes have saved. -/
theorem mem_held : d ∈ s.held ↔ s.defaultBackend = some d ∨ d ∈ s.saved := by
  rw [State.held, List.mem_append, Option.mem_toList]

/-- The saved backends before a removal are the one of the removed scope and those after it. -/
theorem mem_saved_removed (h : s.backendScopes.lookup token = some scope) :
    d ∈ s.saved ↔ scope.previous = some d ∨ d ∈ (s.removed token).saved := by
  rw [mem_saved, mem_saved]
  constructor
  · rintro ⟨token', scope', hscope', hd⟩
    by_cases htoken : token' = token
    · subst htoken
      obtain rfl : scope = scope' := Option.some.inj (h.symm.trans hscope')
      exact Or.inl hd
    · refine Or.inr ⟨token', scope', ?_, hd⟩
      rw [State.removed, AList.lookup_erase_ne htoken]
      exact hscope'
  · rintro (hd | ⟨token', scope', hscope', hd⟩)
    · exact ⟨token, scope, h, hd⟩
    · refine ⟨token', scope', ?_, hd⟩
      have htoken : token' ≠ token := by
        rintro rfl
        simp [State.removed] at hscope'
      rwa [State.removed, AList.lookup_erase_ne htoken] at hscope'

/-- What is held before a removal is what the removed scope saved and what is held after it. -/
theorem mem_held_removed (h : s.backendScopes.lookup token = some scope) :
    d ∈ s.held ↔ scope.previous = some d ∨ d ∈ (s.removed token).held := by
  rw [mem_held, mem_held, mem_saved_removed h]
  exact or_left_comm

/-- Registering a scope drops what the entry under its token had saved, and nothing else. -/
theorem mem_saved_of_opened (h : d ∈ (s.opened scope).saved) :
    scope.previous = some d ∨ d ∈ s.saved := by
  obtain ⟨token, scope', hscope', hd⟩ := mem_saved.mp h
  by_cases htoken : token = s.nextBackendScope
  · subst htoken
    obtain rfl : scope = scope' := by simpa [State.opened] using hscope'
    exact Or.inl hd
  · rw [State.opened, AList.lookup_insert_ne htoken] at hscope'
    exact Or.inr (mem_saved.mpr ⟨token, scope', hscope', hd⟩)

/-- What was saved before a push is saved after it, unless the push replaced its scope. -/
theorem opened_saved (h : d ∈ s.saved) : d ∈ (s.opened scope).saved ∨
    (s.backendScopes.lookup s.nextBackendScope).bind Scope.previous = some d := by
  obtain ⟨token, scope', hscope', hd⟩ := mem_saved.mp h
  by_cases htoken : token = s.nextBackendScope
  · subst htoken
    exact Or.inr (by simp [hscope', hd])
  · refine Or.inl (mem_saved.mpr ⟨token, scope', ?_, hd⟩)
    rw [State.opened, AList.lookup_insert_ne htoken]
    exact hscope'

/-- A scope that a push replaces was open. -/
theorem mem_saved_of_replaced
    (h : (s.backendScopes.lookup s.nextBackendScope).bind Scope.previous = some d) :
    d ∈ s.saved := by
  obtain ⟨scope, hscope, hd⟩ := Option.bind_eq_some_iff.mp h
  exact mem_saved.mpr ⟨s.nextBackendScope, scope, hscope, hd⟩

/-- The scope that a push opens saves its backend. -/
theorem mem_opened_saved_self (h : scope.previous = some d) : d ∈ (s.opened scope).saved :=
  mem_saved.mpr ⟨s.nextBackendScope, scope, by simp [State.opened], h⟩

/-- A process that takes the record over empties the inherited scopes. -/
theorem saved_takenOver {source : Selection} {kind : BackendKind} :
    (s.takenOver p core source kind).saved = [] := by
  simp [State.saved, State.takenOver]

/-- Where backends are after a move of `p` from `s` to `s'`. -/
structure Accounted (p : Proc ProcessIdentity) (s s' : State) : Prop where
  birth : s'.birth = s.birth
  history : s.effects <+: s'.effects
  -- only an owner destroys backends, and hands them to native calls
  dropped : ∀ d, .dropped d ∈ s'.effects →
    .dropped d ∈ s.effects ∨ s.backendOwner = p.ident.toBits ∧ d ∈ s.held
  started : ∀ d, .started (some d) ∈ s'.effects →
    .started (some d) ∈ s.effects ∨ s.backendOwner = p.ident.toBits ∧ d ∈ s.held
  -- a new backend was built by `p`
  built : ∀ d ∈ s'.held, d ∈ s.held ∨ d.builtIn = p.name
  -- no backend disappears
  kept : ∀ d ∈ s.held, d ∈ s'.held ∨ .forgot d ∈ s'.effects ∨ .dropped d ∈ s'.effects

/-- Moves account for the backends if their own effects do. -/
theorem accounted_of_append {e : List Effect} (hbirth : s'.birth = s.birth)
    (heffects : s'.effects = s.effects ++ e)
    (hdropped : ∀ d, .dropped d ∈ e → s.backendOwner = p.ident.toBits ∧ d ∈ s.held)
    (hstarted : ∀ d, .started (some d) ∈ e → s.backendOwner = p.ident.toBits ∧ d ∈ s.held)
    (hbuilt : ∀ d ∈ s'.held, d ∈ s.held ∨ d.builtIn = p.name)
    (hkept : ∀ d ∈ s.held, d ∈ s'.held ∨ .forgot d ∈ e ∨ .dropped d ∈ e) :
    Accounted p s s' := by
  refine ⟨hbirth, heffects ▸ List.prefix_append s.effects e, ?_, ?_, hbuilt, ?_⟩
  · intro d hd
    rw [heffects, List.mem_append] at hd
    exact hd.imp_right (hdropped d)
  · intro d hd
    rw [heffects, List.mem_append] at hd
    exact hd.imp_right (hstarted d)
  · intro d hd
    rw [heffects, List.mem_append, List.mem_append]
    exact (hkept d hd).imp_right (Or.imp Or.inr Or.inr)

/-- The slot resolves to the default it holds, or to a backend built on the spot. -/
theorem resolvedDefault_cases (p : Proc ProcessIdentity) (core : Core) (s : State) :
    s.defaultBackend = some (s.resolvedDefault p core) ∨
      s.defaultBackend = none ∧ (s.resolvedDefault p core).builtIn = p.name := by
  cases hdefault : s.defaultBackend with
  | none => exact Or.inr ⟨rfl, by simp [State.resolvedDefault, hdefault, State.fresh]⟩
  | some d => exact Or.inl (by simp [State.resolvedDefault, hdefault])

/-- What a takeover leaks. -/
def State.leaks (p : Proc ProcessIdentity) (core : Core) (s : State) : List Effect :=
  .forgot (s.afterBuild.resolvedDefault p core) :: s.saved.map .forgot

/-- A take-over leaks what the record held, and does nothing else to it. -/
theorem effects_takenOver {source : Selection} {kind : BackendKind} :
    (s.takenOver p core source kind).effects = s.effects ++ s.leaks p core := rfl

/-- A takeover leaks all that the state held. -/
theorem forgot_mem_leaks (h : d ∈ s.held) : .forgot d ∈ s.leaks p core := by
  rcases mem_held.mp h with hd | hd
  · have hresolved : s.afterBuild.resolvedDefault p core = d := by
      simp [State.resolvedDefault, State.afterBuild, hd]
    simp [State.leaks, hresolved]
  · simp [State.leaks, hd]

/-- After a takeover no entry has a saved backend that a new scope could drop. -/
theorem effects_takenOver_opened {source : Selection} {kind : BackendKind} :
    ((s.takenOver p core source kind).opened scope).effects = s.effects ++ s.leaks p core := by
  have hlookup : ((s.takenOver p core source kind).backendScopes.lookup
      (s.takenOver p core source kind).nextBackendScope).bind Scope.previous = none := by
    rw [Option.bind_eq_none_iff]
    intro scope' hscope'
    simp only [State.takenOver, AList.lookup_mapVals, Option.map_eq_some_iff] at hscope'
    obtain ⟨scope'', -, rfl⟩ := hscope'
    rfl
  rw [State.opened, hlookup]
  simp [effects_takenOver]

/-- Each move accounts for the backends it finds and for those it builds. -/
theorem Move.accounted (h : Move p s s') : Accounted p s s' := by
  cases h with
  | claim howns =>
    -- only the owner word changes
    exact accounted_of_append (e := []) rfl (List.append_nil _).symm (by simp) (by simp)
      (fun _ hd => Or.inl hd) (fun _ hd => Or.inl hd)
  | takeOver core source kind howns =>
    -- everything held before is leaked, and what is held now was just built
    refine accounted_of_append (e := s.leaks p core) rfl rfl (by simp [State.leaks])
      (by simp [State.leaks]) ?_ fun d hd => Or.inr (Or.inl (forgot_mem_leaks hd))
    intro d hd
    rcases mem_held.mp hd with hd | hd
    · obtain rfl := Option.some.inj hd
      exact Or.inr rfl
    · simp [saved_takenOver] at hd
  | resolve core howner =>
    -- the default is the one before, or one just built for want of one
    refine accounted_of_append (e := []) rfl (List.append_nil _).symm (by simp) (by simp) ?_ ?_
    · intro d hd
      rcases mem_held.mp hd with hd | hd
      · obtain rfl := Option.some.inj hd
        exact (resolvedDefault_cases p core s).imp (fun h => mem_held.mpr (Or.inl h)) And.right
      · exact Or.inl (mem_held.mpr (Or.inr hd))
    · intro d hd
      rcases mem_held.mp hd with hd | hd
      · refine Or.inl (mem_held.mpr (Or.inl ?_))
        simp [State.resolved, State.resolvedDefault, hd]
      · exact Or.inl (mem_held.mpr (Or.inr hd))
  | start howner =>
    -- what the call starts with is held by the owner
    refine accounted_of_append (e := [.started s.defaultBackend]) rfl rfl (by simp) ?_
      (fun _ hd => Or.inl hd) (fun _ hd => Or.inl hd)
    intro d hd
    have hdefault : s.defaultBackend = some d := by simpa [eq_comm] using hd
    exact ⟨howner, mem_held.mpr (Or.inl hdefault)⟩
  | replace source kind howner =>
    -- the owner drops its default, which it has built itself
    refine accounted_of_append (e := s.defaultBackend.toList.map .dropped) rfl rfl ?_ (by simp)
      ?_ ?_
    · intro d hd
      have hdefault : s.defaultBackend = some d := by simpa using hd
      exact ⟨howner, mem_held.mpr (Or.inl hdefault)⟩
    · intro d hd
      rcases mem_held.mp hd with hd | hd
      · obtain rfl := Option.some.inj hd
        exact Or.inr rfl
      · exact Or.inl (mem_held.mpr (Or.inr hd))
    · intro d hd
      rcases mem_held.mp hd with hd | hd
      · exact Or.inr (Or.inr (by simp [hd]))
      · exact Or.inl (mem_held.mpr (Or.inr hd))
  | push core source kind howner =>
    refine accounted_of_append
      (e := ((s.backendScopes.lookup s.nextBackendScope).bind Scope.previous).toList.map
        .dropped) rfl rfl ?_ (by simp) ?_ ?_
    · intro d hd
      -- a push drops nothing but the scope of a token that comes around again
      have hreplaced := mem_saved_of_replaced (s := s) (d := d) (by simpa using hd)
      exact ⟨howner, mem_held.mpr (Or.inr hreplaced)⟩
    · intro d hd
      rcases mem_held.mp hd with hd | hd
      · obtain rfl := Option.some.inj hd
        exact Or.inr rfl
      rcases mem_saved_of_opened hd with hd | hd
      · obtain rfl := Option.some.inj hd
        exact (resolvedDefault_cases p core s.afterBuild).imp
          (fun h => mem_held.mpr (Or.inl h)) And.right
      · exact Or.inl (mem_held.mpr (Or.inr hd))
    · intro d hd
      rcases mem_held.mp hd with hd | hd
      · -- the default goes into the scope, the others stay where they are
        refine Or.inl (mem_held.mpr (Or.inr (mem_opened_saved_self ?_)))
        simp [State.resolvedDefault, State.afterBuild, hd]
      · exact (opened_saved hd).imp (fun h => mem_held.mpr (Or.inr h))
          fun h => Or.inr (by simpa using h)
  | takeOverPush core source kind howns =>
    refine accounted_of_append (e := s.leaks p core) rfl effects_takenOver_opened
      (by simp [State.leaks]) (by simp [State.leaks]) ?_
      fun d hd => Or.inr (Or.inl (forgot_mem_leaks hd))
    intro d hd
    rcases mem_held.mp hd with hd | hd
    · obtain rfl := Option.some.inj hd
      exact Or.inr rfl
    · -- the scopes are empty after the take-over, and the new one saves nothing
      refine absurd ((mem_saved_of_opened hd).resolve_left (by simp)) ?_
      simp [saved_takenOver]
  | @restore token scope previous howner hscope hprevious =>
    refine accounted_of_append (e := .closed token :: s.defaultBackend.toList.map .dropped) rfl
      (by simp [State.restored, State.removed]) ?_ (by simp) ?_ ?_
    · intro d hd
      have hdefault : s.defaultBackend = some d := by simpa using hd
      exact ⟨howner, mem_held.mpr (Or.inl hdefault)⟩
    · intro d hd
      -- the restored default came out of the scope
      refine Or.inl (mem_held.mpr (Or.inr ?_))
      rw [mem_saved_removed hscope]
      rcases mem_held.mp hd with hd | hd
      · exact Or.inl (hprevious.trans hd)
      · exact Or.inr hd
    · intro d hd
      rcases mem_held.mp hd with hd | hd
      · exact Or.inr (Or.inr (by simp [hd]))
      · refine Or.inl (mem_held.mpr ?_)
        exact ((mem_saved_removed hscope).mp hd).imp_left hprevious.symm.trans
  | @rebuild token scope core kind howner hscope hprevious =>
    refine accounted_of_append
      (e := [.closed token, .forgot ((s.removed token).afterBuild.resolvedDefault p core)]) rfl
      (by simp [State.rebuilt, State.removed]) (by simp) (by simp) ?_ ?_
    · intro d hd
      rcases mem_held.mp hd with hd | hd
      · obtain rfl := Option.some.inj hd
        exact Or.inr rfl
      · exact Or.inl (mem_held.mpr (Or.inr ((mem_saved_removed hscope).mpr (Or.inr hd))))
    · intro d hd
      rcases mem_held.mp hd with hd | hd
      · refine Or.inr (Or.inl ?_)
        simp [State.resolvedDefault, State.afterBuild, State.removed, hd]
      · refine Or.inl (mem_held.mpr (Or.inr ?_))
        refine ((mem_saved_removed hscope).mp hd).resolve_left ?_
        simp [hprevious]
  | @discard token scope howner hscope hprevious =>
    -- the scope had saved nothing, so nothing is lost with it
    refine accounted_of_append (e := [.closed token]) rfl rfl (by simp) (by simp) ?_ ?_
    · intro d hd
      exact Or.inl ((mem_held_removed hscope).mpr (Or.inr hd))
    · intro d hd
      refine Or.inl (((mem_held_removed hscope).mp hd).resolve_left ?_)
      simp [hprevious]
  | @abandon token scope howns hscope =>
    -- a process that does not own the scope leaks what it saved
    refine accounted_of_append (e := .closed token :: scope.previous.toList.map .forgot) rfl
      (by simp [State.record, State.removed]) (by simp) (by simp) ?_ ?_
    · intro d hd
      exact Or.inl ((mem_held_removed hscope).mpr (Or.inr hd))
    · intro d hd
      rcases (mem_held_removed hscope).mp hd with hd | hd
      · exact Or.inr (Or.inl (by simp [hd]))
      · exact Or.inl hd
  | @takeOverAt token scope core kind howns hscope =>
    refine accounted_of_append (e := .closed token ::
      ((s.removed token).leaks p core ++ scope.previous.toList.map .forgot)) rfl
      (by simp [State.record, effects_takenOver, State.removed]) (by simp [State.leaks])
      (by simp [State.leaks]) ?_ ?_
    · intro d hd
      rcases mem_held.mp hd with hd | hd
      · obtain rfl := Option.some.inj hd
        exact Or.inr rfl
      · have hnone : d ∈ ((s.removed token).takenOver p core scope.selection kind).saved := hd
        rw [saved_takenOver] at hnone
        cases hnone
    · intro d hd
      refine Or.inr (Or.inl ?_)
      -- what the scope saved is leaked first, then all that is left
      rcases (mem_held_removed hscope).mp hd with hd | hd
      · simp [hd]
      · simp [forgot_mem_leaks hd]

end References

/-! ## The number of leaks -/

section Counting

variable {p : Proc ProcessIdentity} {core : Core} {s s' : State} {token : UInt32} {scope : Scope}

/-- A backend has been leaked. -/
def Effect.isForgot : Effect → Bool
  | .forgot _ => true
  | _ => false

/-- A scope of the process itself has been closed. -/
def Effect.isClosed : Effect → Bool
  | .closed _ => true
  | _ => false

/-- How many backends the process has leaked. -/
def State.forgets (s : State) : ℕ := s.effects.countP Effect.isForgot

/-- How many scopes the process has closed. -/
def State.closes (s : State) : ℕ := s.effects.countP Effect.isClosed

/-- How many scopes are open. -/
def State.openScopes (s : State) : ℕ := s.backendScopes.keys.length

/-- Each leak counts once. -/
theorem countP_isForgot_forgot (bs : List Backend) :
    (bs.map Effect.forgot).countP Effect.isForgot = bs.length := by
  rw [List.countP_map]
  exact List.countP_eq_length.mpr fun _ _ => rfl

/-- A leak closes no scope. -/
theorem countP_isClosed_forgot (bs : List Backend) :
    (bs.map Effect.forgot).countP Effect.isClosed = 0 := by
  rw [List.countP_map]
  exact List.countP_eq_zero.mpr fun _ _ => Bool.false_ne_true

/-- A drop leaks nothing. -/
theorem countP_isForgot_dropped (bs : List Backend) :
    (bs.map Effect.dropped).countP Effect.isForgot = 0 := by
  rw [List.countP_map]
  exact List.countP_eq_zero.mpr fun _ _ => Bool.false_ne_true

/-- Every saved backend has a scope of its own. -/
theorem length_saved_le (s : State) : s.saved.length ≤ s.openScopes := by
  rw [State.openScopes, ← AList.length_vals]
  exact List.length_filterMap_le _ _

/-- A pop closes one scope. -/
theorem openScopes_removed (h : s.backendScopes.lookup token = some scope) :
    (s.removed token).openScopes + 1 = s.openScopes := by
  have hperm := (AList.vals_perm_of_lookup h).length_eq
  rw [AList.length_vals, List.length_cons, AList.length_vals] at hperm
  exact hperm.symm

/-- An option holds one element at most. -/
theorem length_toList_le (o : Option Backend) : o.toList.length ≤ 1 := by
  cases o <;> simp

/-- A take-over leaks the default and what the scopes have saved. -/
theorem forgets_leaks : (s.leaks p core).countP Effect.isForgot = s.saved.length + 1 := by
  rw [State.leaks, List.countP_cons, countP_isForgot_forgot]
  rfl

/-- A take-over closes no scope. -/
theorem closes_leaks : (s.leaks p core).countP Effect.isClosed = 0 := by
  rw [State.leaks, List.countP_cons, countP_isClosed_forgot]
  rfl

/-- How the counts of a process change in a move of `p` from `s` to `s'`. -/
structure Counted (p : Proc ProcessIdentity) (s s' : State) : Prop where
  -- an owner leaks only when it closes a scope, and at most once then
  owner : Owns p s → Owns p s' ∧ s'.forgets + s.closes ≤ s.forgets + s'.closes
  -- a takeover leaks one default, and at most one backend for every scope
  heir : ¬ Owns p s → Owns p s' →
    s'.forgets + s.closes ≤ s.forgets + s.openScopes + 1 + s'.closes
  -- before it, only a failed pop leaks
  waiting : ¬ Owns p s → ¬ Owns p s' →
    s'.forgets + s.closes ≤ s.forgets + s'.closes ∧ s'.openScopes ≤ s.openScopes

/-- An owner leaks no more than it closes. -/
theorem counted_of_owner {e : List Effect} (howns : Owns p s) (howns' : Owns p s')
    (heffects : s'.effects = s.effects ++ e)
    (he : e.countP Effect.isForgot ≤ e.countP Effect.isClosed) : Counted p s s' := by
  refine ⟨fun _ => ⟨howns', ?_⟩, fun h => absurd howns h, fun h => absurd howns h⟩
  rw [State.forgets, State.forgets, State.closes, State.closes, heffects, List.countP_append,
    List.countP_append]
  omega

/-- A process that takes over may leak one backend for each open scope, and the default. -/
theorem counted_of_heir {e : List Effect} (howns : ¬ Owns p s) (howns' : Owns p s')
    (heffects : s'.effects = s.effects ++ e)
    (he : e.countP Effect.isForgot ≤ s.openScopes + 1 + e.countP Effect.isClosed) :
    Counted p s s' := by
  refine ⟨fun h => absurd h howns, fun _ _ => ?_, fun _ h => absurd howns' h⟩
  rw [State.forgets, State.forgets, State.closes, State.closes, heffects, List.countP_append,
    List.countP_append]
  omega

/-- Each move stays within its count. -/
theorem Move.counted (h : Move p s s') : Counted p s s' := by
  cases h with
  | claim howns =>
    exact counted_of_owner (e := []) howns (Or.inr rfl) (List.append_nil _).symm le_rfl
  | takeOver core source kind howns =>
    -- one leak for each scope that saved a backend, and one for the default
    refine counted_of_heir howns (Or.inr rfl) effects_takenOver ?_
    have := length_saved_le s
    rw [forgets_leaks]
    omega
  | resolve core howner =>
    exact counted_of_owner (e := []) (Or.inr howner) (Or.inr howner) (List.append_nil _).symm
      le_rfl
  | start howner => exact counted_of_owner (Or.inr howner) (Or.inr howner) rfl le_rfl
  | replace source kind howner =>
    refine counted_of_owner (Or.inr howner) (Or.inr howner) rfl ?_
    rw [countP_isForgot_dropped]
    exact Nat.zero_le _
  | push core source kind howner =>
    refine counted_of_owner (Or.inr howner) (Or.inr howner) rfl ?_
    rw [countP_isForgot_dropped]
    exact Nat.zero_le _
  | takeOverPush core source kind howns =>
    refine counted_of_heir howns (Or.inr rfl) effects_takenOver_opened ?_
    have := length_saved_le s
    rw [forgets_leaks]
    omega
  | @restore token scope previous howner hscope hprevious =>
    refine counted_of_owner (e := .closed token :: s.defaultBackend.toList.map .dropped)
      (Or.inr howner) (Or.inr howner) (by simp [State.restored, State.removed]) ?_
    rw [List.countP_cons, countP_isForgot_dropped]
    exact Nat.zero_le _
  | @rebuild token scope core kind howner hscope hprevious =>
    exact counted_of_owner
      (e := [.closed token, .forgot ((s.removed token).afterBuild.resolvedDefault p core)])
      (Or.inr howner) (Or.inr howner) (by simp [State.rebuilt, State.removed]) le_rfl
  | @discard token scope howner hscope hprevious =>
    exact counted_of_owner (Or.inr howner) (Or.inr howner) rfl (Nat.zero_le _)
  | @abandon token scope howns hscope =>
    have hopen := openScopes_removed hscope
    have hlen := length_toList_le scope.previous
    -- the scope that is closed pays for what it saved
    refine ⟨fun h => absurd h howns, fun _ h => absurd h howns, fun _ _ => ⟨?_, ?_⟩⟩
    · have hforgets := countP_isForgot_forgot scope.previous.toList
      have hcloses := countP_isClosed_forgot scope.previous.toList
      simp only [State.forgets, State.closes, State.record, State.removed, List.countP_append,
        List.countP_singleton, hforgets, hcloses, Effect.isForgot, Effect.isClosed]
      simp only [Bool.false_eq_true, if_false, if_true]
      omega
    · change (s.removed token).openScopes ≤ s.openScopes
      omega
  | @takeOverAt token scope core kind howns hscope =>
    have hopen := openScopes_removed hscope
    have hsaved := length_saved_le (s.removed token)
    have hlen := length_toList_le scope.previous
    -- the closed scope pays for itself, the open ones for theirs
    refine counted_of_heir (e := .closed token ::
      ((s.removed token).leaks p core ++ scope.previous.toList.map .forgot)) howns (Or.inr rfl)
      (by simp [State.record, effects_takenOver, State.removed]) ?_
    simp only [List.countP_cons, List.countP_append, forgets_leaks, closes_leaks,
      countP_isForgot_forgot, countP_isClosed_forgot, Effect.isForgot, Effect.isClosed,
      Bool.false_eq_true, if_false, if_true]
    omega

end Counting

/-! ## The life of a process -/

section Life

variable {l : List (Proc ProcessIdentity)} {p : Proc ProcessIdentity} {s s' : State}

/-- The history of the process `p` in the state `s`. -/
structure LeakInv (p : Proc ProcessIdentity) (s : State) : Prop where
  started : ∀ d, .started (some d) ∈ s.effects → d.builtIn = p.name
  dropped : ∀ d, .dropped d ∈ s.effects → d.builtIn = p.name
  -- what was inherited was built elsewhere, and is still there or leaked
  inherited : ∀ d ∈ s.birth.held, d.builtIn ≠ p.name ∧ (d ∈ s.held ∨ .forgot d ∈ s.effects)
  -- nothing else that the process holds was built elsewhere
  foreign : ∀ d ∈ s.held, d ∈ s.birth.held ∨ d.builtIn = p.name

/-- The number of leaks of the process `p` in the state `s`. -/
structure BudgetInv (p : Proc ProcessIdentity) (s : State) : Prop where
  waiting : ¬ Owns p s → s.forgets ≤ s.closes ∧ s.openScopes ≤ s.birth.openScopes
  budget : s.forgets ≤ 1 + s.birth.openScopes + s.closes
  -- without an inheritance every scope saves a backend, so that no pop has to leak one
  nothing : s.birth.owner = 0 → Owns p s ∧ s.forgets = 0 ∧
    ∀ token scope, s.backendScopes.lookup token = some scope → scope.previous ≠ none

/-- A process of the lineage, whose identity is the owner word, built all that the record holds. -/
theorem exists_builder (h : RecordInv l s) {d : Backend} (hd : d ∈ s.held) :
    ∃ q ∈ l, s.backendOwner = q.ident.toBits ∧ d.builtIn = q.name := by
  rcases mem_held.mp hd with hd | hd
  · obtain ⟨q, hq, hbits, hbuilt, -⟩ := h.resolved d hd
    exact ⟨q, hq, hbits, hbuilt⟩
  · obtain ⟨token, scope, hscope, hd⟩ := mem_saved.mp hd
    obtain ⟨q, hq, hbits, -, hbuilt, -⟩ := h.saved token scope hscope d hd
    exact ⟨q, hq, hbits, hbuilt⟩

/-- The owner of the record built all that the record holds, unless an ancestor has its identity. -/
theorem builtIn_of_owner (h : RecordInv l s)
    (hident : ∀ q ∈ l, q.ident = p.ident → q.name = p.name)
    (howner : s.backendOwner = p.ident.toBits) {d : Backend} (hd : d ∈ s.held) :
    d.builtIn = p.name := by
  obtain ⟨q, hq, hbits, hbuilt⟩ := exists_builder h hd
  rw [hbuilt]
  exact hident q hq (ProcessIdentity.toBits_injective (hbits.symm.trans howner))

/-- A move keeps the inherited backends accounted for. -/
theorem LeakInv.move (h : LeakInv p s) (hrec : RecordInv l s)
    (hident : ∀ q ∈ l, q.ident = p.ident → q.name = p.name) (hmove : Move p s s') :
    LeakInv p s' := by
  have hacc := hmove.accounted
  have hown : ∀ d, s.backendOwner = p.ident.toBits ∧ d ∈ s.held → d.builtIn = p.name :=
    fun d hd => builtIn_of_owner hrec hident hd.1 hd.2
  have hdropped : ∀ d, .dropped d ∈ s'.effects → d.builtIn = p.name :=
    fun d hd => (hacc.dropped d hd).elim (h.dropped d) (hown d)
  refine ⟨?_, hdropped, ?_, ?_⟩
  · exact fun d hd => (hacc.started d hd).elim (h.started d) (hown d)
  · intro d hd
    rw [hacc.birth] at hd
    obtain ⟨hne, hplace⟩ := h.inherited d hd
    refine ⟨hne, ?_⟩
    rcases hplace with hheld | hforgot
    · rcases hacc.kept d hheld with hheld | hforgot | hdrop
      · exact Or.inl hheld
      · exact Or.inr hforgot
      -- a backend of another process is not destroyed
      · exact absurd (hdropped d hdrop) hne
    · exact Or.inr (hacc.history.subset hforgot)
  · intro d hd
    rw [hacc.birth]
    exact (hacc.built d hd).elim (h.foreign d) Or.inr

/-- Without an inheritance the scopes of a process all save a backend, and no move leaks. -/
theorem BudgetInv.nothing_move (h : BudgetInv p s) (hbirth : s.birth.owner = 0)
    (hmove : Move p s s') : s'.forgets = 0 ∧
      ∀ token scope, s'.backendScopes.lookup token = some scope → scope.previous ≠ none := by
  -- the process owns the record from its birth, so only the moves of an owner can happen
  obtain ⟨howns, hforgets, hscopes⟩ := h.nothing hbirth
  have hremoved : ∀ token token' scope, (s.removed token).backendScopes.lookup token' =
      some scope → scope.previous ≠ none := by
    intro token token' scope hscope
    have htoken : token' ≠ token := by
      rintro rfl
      simp [State.removed] at hscope
    rw [State.removed, AList.lookup_erase_ne htoken] at hscope
    exact hscopes token' scope hscope
  cases hmove with
  | claim howns => exact ⟨hforgets, hscopes⟩
  | takeOver core source kind hnot => exact absurd howns hnot
  | resolve core howner => exact ⟨hforgets, hscopes⟩
  | start howner =>
    refine ⟨?_, hscopes⟩
    rw [State.forgets, State.record, List.countP_append]
    exact hforgets
  | replace source kind howner =>
    refine ⟨?_, hscopes⟩
    rw [State.forgets, State.replaced, List.countP_append, countP_isForgot_dropped]
    exact hforgets
  | push core source kind howner =>
    constructor
    · rw [State.forgets, State.pushed, State.opened, List.countP_append, countP_isForgot_dropped]
      exact hforgets
    · intro token scope hscope
      rw [State.backendScopes_pushed] at hscope
      by_cases htoken : token = s.nextBackendScope
      · subst htoken
        rw [AList.lookup_insert] at hscope
        obtain rfl := Option.some.inj hscope
        exact Option.some_ne_none _
      · rw [AList.lookup_insert_ne htoken] at hscope
        exact hscopes token scope hscope
  | takeOverPush core source kind hnot => exact absurd howns hnot
  | @restore token scope previous howner hscope hprevious =>
    refine ⟨?_, hremoved token⟩
    rw [State.forgets, State.restored, State.removed, List.countP_append, List.countP_append,
      countP_isForgot_dropped]
    exact hforgets
  | @rebuild token scope core kind howner hscope hprevious =>
    -- every scope of such a process has saved a backend
    exact absurd hprevious (hscopes token scope hscope)
  | @discard token scope howner hscope hprevious =>
    exact absurd hprevious (hscopes token scope hscope)
  | @abandon token scope hnot hscope => exact absurd howns hnot
  | @takeOverAt token scope core kind hnot hscope => exact absurd howns hnot

/-- A move keeps the leaks within the budget. -/
theorem BudgetInv.move (h : BudgetInv p s) (hmove : Move p s s') : BudgetInv p s' := by
  have hbirth := hmove.accounted.birth
  have hcount := hmove.counted
  have hbudget := h.budget
  by_cases howns : Owns p s
  · obtain ⟨howns', hle⟩ := hcount.owner howns
    refine ⟨fun hnot => absurd howns' hnot, ?_, ?_⟩
    · rw [hbirth]
      omega
    · intro hzero
      rw [hbirth] at hzero
      exact ⟨howns', h.nothing_move hzero hmove⟩
  · obtain ⟨hle, hopen⟩ := h.waiting howns
    -- a process that does not own the record inherited one
    have hnothing : s.birth.owner ≠ 0 := fun hzero => howns (h.nothing hzero).1
    by_cases howns' : Owns p s'
    · -- the take-over leaks the default and what the open scopes saved, and no more
      have := hcount.heir howns howns'
      refine ⟨fun hnot => absurd howns' hnot, ?_, fun hzero => absurd (hbirth ▸ hzero) hnothing⟩
      rw [hbirth]
      omega
    · obtain ⟨hle', hopen'⟩ := hcount.waiting howns howns'
      refine ⟨fun _ => ?_, ?_, fun hzero => absurd (hbirth ▸ hzero) hnothing⟩
      · rw [hbirth]
        omega
      · rw [hbirth]
        omega

/-- So do any number of moves. -/
theorem BudgetInv.moves (h : BudgetInv p s) (hmoves : Moves p s s') : BudgetInv p s' := by
  induction hmoves with
  | refl => exact h
  | tail _ hmove ih => exact ih.move hmove

/-- Any number of moves keep the inherited backends accounted for. -/
theorem LeakInv.moves (h : LeakInv p s) (hrec : RecordInv l s) (hp : p ∈ l)
    (hpid : p.ident.pid ≠ 0) (hident : ∀ q ∈ l, q.ident = p.ident → q.name = p.name)
    (hmoves : Moves p s s') : LeakInv p s' := by
  induction hmoves with
  | refl => exact h
  | tail hmoves hmove ih => exact ih.move (hrec.moves hp hpid hmoves) hident hmove

/-- A child starts with the whole budget. -/
theorem budgetInv_forked (c : Proc ProcessIdentity) (hnothing : s.backendOwner = 0 →
    s.backendScopes = ∅) : BudgetInv c s.forked := by
  refine ⟨fun _ => ⟨le_rfl, le_rfl⟩, Nat.zero_le _, fun hzero => ⟨Or.inl hzero, rfl, ?_⟩⟩
  intro token scope hscope
  have hempty : s.forked.backendScopes = ∅ := hnothing hzero
  rw [hempty] at hscope
  cases hscope

end Life

/-! ## Every branch, every tree -/

section Tree

variable {b : Branch ProcessIdentity State}

/-- In every run the leaks are within the budget. -/
theorem budgetInv_of_run (h : backendSystem.Run b) : BudgetInv b.self b.mem := by
  induction h with
  | root hroot =>
    refine ⟨fun _ => ⟨le_rfl, le_rfl⟩, Nat.zero_le _, fun _ => ⟨Or.inl rfl, rfl, ?_⟩⟩
    intro token scope hscope
    cases hscope
  | step hrun hstep ih =>
    obtain ⟨core, call, rfl⟩ := hstep
    exact ih.moves (moves_exec (recordInv_of_run hrun) call)
  | fork hrun hident hfresh ih =>
    exact budgetInv_forked _ fun hzero => ((recordInv_of_run hrun).unowned hzero).2.2

/-- In every run each inherited backend is held or leaked, and none is dropped or used. -/
theorem leakInv_of_run (h : backendSystem.Run b) (hforks : b.ancestors.length < 2 ^ 32) :
    LeakInv b.self b.mem := by
  induction h with
  | root hroot =>
    constructor <;> simp [backendSystem, processSystem, State.initial, State.held, State.saved]
  | @step b m hrun hstep ih =>
    obtain ⟨core, call, rfl⟩ := hstep
    have hself := b.self_mem_lineage
    have hrec := recordInv_of_run hrun
    refine (ih hforks).moves hrec hself (pid_ne_zero hrun _ hself) ?_ (moves_exec hrec call)
    intro q hq hident
    rw [ident_injOn hrun hforks hq hself hident]
  | @fork b c hrun hident hfresh ih =>
    refine ⟨fun d hd => absurd hd List.not_mem_nil, fun d hd => absurd hd List.not_mem_nil, ?_,
      fun d hd => Or.inl hd⟩
    intro d hd
    obtain ⟨q, hq, -, hbuilt⟩ := exists_builder (recordInv_of_run hrun) hd
    refine ⟨?_, Or.inl hd⟩
    rw [hbuilt]
    exact hfresh q hq

/-- Inherited backends are leaked. In a process with fewer than `2 ^ 32` ancestors: a native call
starts with an unresolved default or one that this process built; a backend that is destroyed was
built by this process, and what was inherited is still held, or was leaked, and was built elsewhere.
In any process: with nothing inherited there are no leaks, and otherwise at most one for the
default, one for each scope that was open at the fork and one for each scope that was closed. -/
theorem inherited_backends_leak {t : List (Branch ProcessIdentity State)}
    (ht : backendSystem.TreeRun t) {b : Branch ProcessIdentity State} (hb : b ∈ t) :
    (b.ancestors.length < 2 ^ 32 →
      (∀ d, .started (some d) ∈ b.mem.effects → d.builtIn = b.self.name) ∧
      (∀ d, .dropped d ∈ b.mem.effects → d.builtIn = b.self.name) ∧
      (∀ d ∈ b.mem.birth.held, d.builtIn ≠ b.self.name ∧
        (d ∈ b.mem.held ∨ .forgot d ∈ b.mem.effects)) ∧
      (∀ d ∈ b.mem.held, d ∈ b.mem.birth.held ∨ d.builtIn = b.self.name)) ∧
    (b.mem.birth.owner = 0 → b.mem.forgets = 0) ∧
    b.mem.forgets ≤ 1 + b.mem.birth.openScopes + b.mem.closes := by
  obtain ⟨i, hi⟩ := List.mem_iff_getElem?.mp hb
  obtain ⟨-, -, hrun⟩ := ht.run hi
  have hbudget := budgetInv_of_run hrun
  refine ⟨fun hforks => ?_, fun hzero => (hbudget.nothing hzero).2.1, hbudget.budget⟩
  have hleak := leakInv_of_run hrun hforks
  exact ⟨hleak.started, hleak.dropped, hleak.inherited, hleak.foreign⟩

end Tree

/-- The child of `scopedTree` after a native call. -/
def adoptedState : State :=
  (((Call.blockOn false).exec childProc readyCore).run scopedState.forked).state

/-- The child takes over the record of a parent with an open scope. -/
theorem inherited_backends_leak_adopted :
    (∀ d, .started (some d) ∈ adoptedState.effects → d.builtIn = childProc.name) ∧
      (∀ d ∈ scopedState.held, d ∈ adoptedState.held ∨ .forgot d ∈ adoptedState.effects) ∧
      adoptedState.forgets ≤ 1 + 1 + 0 := by
  have htree := scopedTree_treeRun.act (p := 1) rfl ⟨readyCore, .blockOn false, rfl⟩
  obtain ⟨hown, -, hbudget⟩ := inherited_backends_leak htree
    (b := ⟨childProc, [rootProc], adoptedState⟩) (by simp [scopedTree, adoptedState])
  obtain ⟨hstarted, -, hinherited, -⟩ := hown (by decide)
  exact ⟨hstarted, fun d hd => (hinherited d hd).2, hbudget⟩

/-- The bound on forks is needed: a descendant that has the identity of the root, after the
generation has wrapped, destroys the backend of the root when it installs another one. -/
theorem exists_dropped_foreign :
    ¬ ∀ t, backendSystem.TreeRun t → ∀ b ∈ t, ∀ d, .dropped d ∈ b.mem.effects →
      d.builtIn = b.self.name := by
  intro hall
  let P (m : State) : Prop := m.backendOwner = rootProc.ident.toBits ∧
    ∃ d, m.defaultBackend = some d ∧ d.builtIn = rootProc.name
  have hroot : P scopedState := ⟨by decide, _, rfl, by decide⟩
  obtain ⟨t, b, ht, hb, hident, hanc, howner, d, hdefault, hbuilt⟩ :=
    exists_ident_eq_ancestor (P := P) scopedTree_treeRun
      (b := ⟨rootProc, [], scopedState⟩) (by simp [scopedTree]) hroot fun _ _ h => h
  obtain ⟨i, hi⟩ := List.mem_iff_getElem?.mp hb
  obtain ⟨hname, hlt, -⟩ := ht.run hi
  have howns : Owns b.self b.mem := Or.inr (howner.trans (congrArg _ hident.symm))
  -- the descendant takes itself for the owner, and `set_default_backend` drops the default
  let call := Call.setDefaultBackend "local" none none none
  have hbuild : (Selection.explicit "local" none none none).resolve readyCore =
      .ok .localBackend := by rfl
  have hstate : ((call.exec b.self readyCore).run b.mem).state =
      (b.mem.claimed b.self).replaced b.self (.explicit "local" none none none) .localBackend := by
    rw [Call.exec, run_setDefaultBackend, hbuild]
    simp [howns]
  have hact := ht.act hi ⟨readyCore, call, hstate⟩
  have hi' : i < t.length := (List.getElem?_eq_some_iff.mp hi).1
  have hdropped := hall _ hact _ (List.mem_set hi' _) d (by
    simp [State.replaced, State.claimed, hdefault])
  have hself : b.self.name = rootProc.name := hdropped.symm.trans hbuilt
  have := hlt rootProc hanc
  omega

end MicrosandboxRb.BackendRecord
