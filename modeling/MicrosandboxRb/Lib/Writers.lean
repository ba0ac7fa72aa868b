import MicrosandboxRb.Lib.AssocMap
import MicrosandboxRb.Lib.ExceptList
import MicrosandboxRb.Lib.TwoRuns

/-!
# Writers of a map

Computations that write keys of one map, one after another. When no two of them write one key, what
each of them does in the company of the others is what it does alone.

## Main definitions

* `Writer`: a computation that writes some keys, whatever the map holds;
* `run`: writers, one after another;
* `writing`: the writers of some keys.

## Main results

* `agree_run`: writers of distinct keys fail or return together as they fail or return alone, and
  each key then holds what its writer wrote alone;
* `exists_run_writing`: so do the writers of some keys, among themselves.
-/

namespace Writers

open AList TwoRuns

variable {ε κ ν : Type} [DecidableEq κ]

/-- What has been added to the empty map is what is added. -/
theorem adds_lookup {f : κ → Option ν} {w m m' : AssocMap κ ν} (hempty : Adds f ∅ w)
    (h : Adds f m m') : Adds w.lookup m m' := by
  intro k
  have hlookup : w.lookup k = f k := by
    rw [hempty k, AList.lookup_empty, Option.or_none]
  rw [h k]
  exact congrArg (Option.or · (m.lookup k)) hlookup.symm

/-- A step that writes some keys of a map, whatever the map holds. -/
structure Writer (ε κ ν : Type) [DecidableEq κ] where
  keys : List κ
  step : AssocMap κ ν → Except ε (AssocMap κ ν)
  /-- It adds the same to every map, and fails with the same error. -/
  alone (m : AssocMap κ ν) : Agree (fun m' w => Adds w.lookup m m') (step m) (step ∅)
  scope (w : AssocMap κ ν) : step ∅ = .ok w → ∀ k ∉ keys, w.lookup k = none

/-- Writers, from the first to the last. -/
def run (writers : List (Writer ε κ ν)) (m : AssocMap κ ν) : Except ε (AssocMap κ ν) :=
  writers.foldlM (fun m writer => writer.step m) m

/-- The maps that writers write alone. -/
def runAlone (writers : List (Writer ε κ ν)) : Except ε (List (AssocMap κ ν)) :=
  writers.mapM fun writer => writer.step ∅

variable {writers : List (Writer ε κ ν)}

/-- A key that no writer writes keeps its value. -/
theorem lookup_of_forall_notMem {k : κ} (hk : ∀ writer ∈ writers, k ∉ writer.keys)
    {m m' : AssocMap κ ν} (h : run writers m = .ok m') : m'.lookup k = m.lookup k := by
  induction writers generalizing m with
  | nil =>
    obtain rfl := Except.ok.inj h
    rfl
  | cons writer writers ih =>
    rw [run, List.foldlM_cons] at h
    cases hstep : writer.step m with
    | error e =>
      rw [hstep] at h
      cases h
    | ok m₁ =>
      rw [hstep] at h
      obtain ⟨w, hw, hadds⟩ := (writer.alone m).exists_of_ok hstep
      have hfirst : m₁.lookup k = (w.lookup k).or (m.lookup k) := hadds k
      rw [ih (fun x hx => hk x (List.mem_cons_of_mem writer hx)) h, hfirst,
        writer.scope w hw k (hk writer List.mem_cons_self), Option.none_or]

/-- Each key holds what its writer writes alone, if it writes it, and else what it held. -/
def Holds (writers : List (Writer ε κ ν)) (m m' : AssocMap κ ν) (ws : List (AssocMap κ ν)) : Prop :=
  List.Forall₂ (fun writer w => writer.step ∅ = .ok w ∧
    ∀ k ∈ writer.keys, m'.lookup k = (w.lookup k).or (m.lookup k)) writers ws

/-- One after another, the writers add what they add alone. -/
theorem agree_run (hnodup : (writers.flatMap Writer.keys).Nodup) (m : AssocMap κ ν) :
    Agree (Holds writers m) (run writers m) (runAlone writers) := by
  induction writers generalizing m with
  | nil => exact .ok .nil
  | cons writer writers ih =>
    rw [List.flatMap_cons, List.nodup_append'] at hnodup
    obtain ⟨-, hrest, hdisjoint⟩ := hnodup
    rw [run, runAlone, List.foldlM_cons, List.mapM_cons]
    cases hw : writer.step ∅ with
    | error e =>
      rw [(writer.alone m).eq_error_iff.mpr hw]
      exact .error e
    | ok w =>
      -- the others start from what this writer leaves
      obtain ⟨m₁, hm₁, hfirst⟩ := (writer.alone m).exists_of_ok_right hw
      have hothers := ih hrest m₁
      rw [hm₁]
      change Agree _ (run writers m₁) (runAlone writers >>= fun ws => .ok (w :: ws))
      cases hrun : run writers m₁ with
      | error e =>
        rw [hothers.eq_error_iff.mp hrun]
        exact .error e
      | ok m' =>
        obtain ⟨ws, hws, hholds⟩ := hothers.exists_of_ok hrun
        rw [hws]
        have hkeys : ∀ writer' ∈ writers, ∀ k ∈ writer'.keys, k ∉ writer.keys :=
          fun writer' hmem k hk hk' => hdisjoint hk' (List.mem_flatMap.mpr ⟨writer', hmem, hk⟩)
        refine .ok (.cons ⟨hw, fun k hk => ?_⟩ ?_)
        · -- the writers that follow leave its keys alone
          rw [lookup_of_forall_notMem (fun writer' hmem hk' => hkeys writer' hmem k hk' hk) hrun]
          exact hfirst k
        · -- and it leaves theirs alone
          refine ((List.forall₂_and_left writers ws).mpr ⟨hkeys, hholds⟩).imp ?_
          rintro writer' w' ⟨hout, halone, hholds⟩
          refine ⟨halone, fun k hk => ?_⟩
          have hm : m₁.lookup k = (w.lookup k).or (m.lookup k) := hfirst k
          rw [hholds k hk, hm, writer.scope w hw k (hout k hk), Option.none_or]

/-- After writers of distinct keys each key holds what its writer wrote alone. -/
theorem exists_alone_of_run (hnodup : (writers.flatMap Writer.keys).Nodup) {m : AssocMap κ ν}
    (h : run writers ∅ = .ok m) :
    ∀ writer ∈ writers, ∃ w, writer.step ∅ = .ok w ∧
      ∀ k ∈ writer.keys, m.lookup k = w.lookup k := by
  obtain ⟨ws, -, hholds⟩ := (agree_run hnodup ∅).exists_of_ok h
  clear h hnodup
  induction hholds with
  | nil => exact fun writer hmem => absurd hmem List.not_mem_nil
  | @cons writer w _ _ hone _ ih =>
    refine List.forall_mem_cons.mpr ⟨⟨w, hone.1, fun k hk => ?_⟩, ih⟩
    rw [hone.2 k hk, AList.lookup_empty, Option.or_none]

/-- Writers of distinct keys return together if each of them returns alone. -/
theorem exists_run_iff (hnodup : (writers.flatMap Writer.keys).Nodup) :
    (∃ m, run writers ∅ = .ok m) ↔ ∀ writer ∈ writers, ∃ w, writer.step ∅ = .ok w := by
  rw [← Except.exists_mapM_eq_ok_iff]
  have hrun := agree_run hnodup (∅ : AssocMap κ ν)
  constructor
  · rintro ⟨m, hm⟩
    obtain ⟨ws, hws, -⟩ := hrun.exists_of_ok hm
    exact ⟨ws, hws⟩
  · rintro ⟨ws, hws⟩
    obtain ⟨m, hm, -⟩ := hrun.exists_of_ok_right hws
    exact ⟨m, hm⟩

/-- The writers of some keys. -/
def writing (keys : List κ) (writers : List (Writer ε κ ν)) : List (Writer ε κ ν) :=
  writers.filter fun writer => writer.keys.any (· ∈ keys)

/-- A writer of one of the keys writes them. -/
theorem mem_writing {keys : List κ} {writer : Writer ε κ ν} {k : κ} (hmem : writer ∈ writers)
    (hwriter : k ∈ writer.keys) (hk : k ∈ keys) : writer ∈ writing keys writers :=
  List.mem_filter.mpr ⟨hmem, List.any_eq_true.mpr ⟨k, hwriter, decide_eq_true hk⟩⟩

/-- Some of the writers still write no key twice. -/
theorem nodup_writing (hnodup : (writers.flatMap Writer.keys).Nodup) (keys : List κ) :
    ((writing keys writers).flatMap Writer.keys).Nodup := by
  rw [List.nodup_flatMap] at hnodup ⊢
  exact ⟨fun writer hmem => hnodup.1 writer (List.mem_of_mem_filter hmem),
    hnodup.2.sublist List.filter_sublist⟩

/-- The writers of some keys write there, by themselves, what all the writers write there. -/
theorem exists_run_writing (hnodup : (writers.flatMap Writer.keys).Nodup) {m : AssocMap κ ν}
    (h : run writers ∅ = .ok m) (keys : List κ) :
    ∃ w, run (writing keys writers) ∅ = .ok w ∧ ∀ k ∈ keys, m.lookup k = w.lookup k := by
  have halone := exists_alone_of_run hnodup h
  have hnodup' := nodup_writing hnodup keys
  obtain ⟨w, hw⟩ := (exists_run_iff hnodup').mpr fun writer hmem =>
    (halone writer (List.mem_of_mem_filter hmem)).imp fun _ => And.left
  refine ⟨w, hw, fun k hk => ?_⟩
  -- Either a writer of `k` is in both runs and writes the same there, or none is in either.
  by_cases hwritten : ∃ writer ∈ writers, k ∈ writer.keys
  · obtain ⟨writer, hmem, hkey⟩ := hwritten
    obtain ⟨w₁, hw₁, hm⟩ := halone writer hmem
    obtain ⟨w₂, hw₂, hw⟩ := exists_alone_of_run hnodup' hw writer (mem_writing hmem hkey hk)
    obtain rfl : w₁ = w₂ := Except.ok.inj (hw₁.symm.trans hw₂)
    rw [hm k hkey, hw k hkey]
  · have hnone : ∀ writer ∈ writers, k ∉ writer.keys := fun writer hmem hkey =>
      hwritten ⟨writer, hmem, hkey⟩
    rw [lookup_of_forall_notMem hnone h,
      lookup_of_forall_notMem (fun writer hmem => hnone writer (List.mem_of_mem_filter hmem)) hw]

/-- Writers return together if those of each group of keys do, where every writer is in a group. -/
theorem exists_run_iff_writing (hnodup : (writers.flatMap Writer.keys).Nodup)
    {groups : List (List κ)}
    (hgroups : ∀ writer ∈ writers, ∃ keys ∈ groups, ∃ k ∈ writer.keys, k ∈ keys) :
    (∃ m, run writers ∅ = .ok m) ↔
      ∀ keys ∈ groups, ∃ w, run (writing keys writers) ∅ = .ok w := by
  constructor
  · rintro ⟨m, hm⟩ keys -
    exact (exists_run_writing hnodup hm keys).imp fun _ => And.left
  · intro h
    refine (exists_run_iff hnodup).mpr fun writer hmem => ?_
    obtain ⟨keys, hkeys, k, hwriter, hk⟩ := hgroups writer hmem
    exact (exists_run_iff (nodup_writing hnodup keys)).mp (h keys hkeys) writer
      (mem_writing hmem hwriter hk)

/-- A run fails as one of its writers fails alone, and so do the other runs with that writer. -/
theorem exists_runAlone_filter {e : ε} (h : runAlone writers = .error e) :
    ∃ writer ∈ writers, ∀ p : Writer ε κ ν → Bool, p writer = true →
      runAlone (writers.filter p) = .error e := by
  induction writers with
  | nil => cases h
  | cons first writers ih =>
    rw [runAlone, List.mapM_cons] at h
    cases hfirst : first.step ∅ with
    | error e' =>
      rw [hfirst] at h
      obtain rfl := Except.error.inj h
      -- The first one fails: nothing that follows it is run.
      refine ⟨first, List.mem_cons_self, fun p hp => ?_⟩
      rw [List.filter_cons_of_pos hp, runAlone, List.mapM_cons, hfirst]
      rfl
    | ok w =>
      rw [hfirst] at h
      have hrest : runAlone writers = .error e := by
        change (runAlone writers >>= fun ws => .ok (w :: ws)) = .error e at h
        cases hws : runAlone writers with
        | error e' =>
          rw [hws] at h
          exact h
        | ok ws =>
          rw [hws] at h
          cases h
      obtain ⟨writer, hmem, hfails⟩ := ih hrest
      -- The first one returns, so leaving it out changes nothing.
      refine ⟨writer, List.mem_cons_of_mem first hmem, fun p hp => ?_⟩
      cases hfirst' : p first with
      | false => rw [List.filter_cons_of_neg (by simp [hfirst']), hfails p hp]
      | true =>
        have hfails := hfails p hp
        rw [runAlone] at hfails
        rw [List.filter_cons_of_pos hfirst', runAlone, List.mapM_cons, hfirst, hfails]
        rfl

/-- Where every writer is in a group of keys, a run fails as one of the groups fails. -/
theorem exists_run_writing_error (hnodup : (writers.flatMap Writer.keys).Nodup)
    {groups : List (List κ)}
    (hgroups : ∀ writer ∈ writers, ∃ keys ∈ groups, ∃ k ∈ writer.keys, k ∈ keys) {e : ε}
    (h : run writers ∅ = .error e) : ∃ keys ∈ groups, run (writing keys writers) ∅ = .error e := by
  obtain ⟨writer, hmem, hfails⟩ :=
    exists_runAlone_filter ((agree_run hnodup ∅).eq_error_iff.mp h)
  obtain ⟨keys, hkeys, k, hwriter, hk⟩ := hgroups writer hmem
  have hkey : writer.keys.any (· ∈ keys) = true :=
    List.any_eq_true.mpr ⟨k, hwriter, decide_eq_true hk⟩
  exact ⟨keys, hkeys,
    (agree_run (nodup_writing hnodup keys) ∅).eq_error_iff.mpr (hfails _ hkey)⟩

/-! ## Making writers -/

/-- A writer from what it writes. -/
def Writer.ofWritten (keys : List κ) (step : AssocMap κ ν → Except ε (AssocMap κ ν))
    (written : Except ε (κ → Option ν))
    (hstep : ∀ m, Agree (fun m' f => Adds f m m') (step m) written)
    (hscope : ∀ f, written = .ok f → ∀ k ∉ keys, f k = none) : Writer ε κ ν where
  keys := keys
  step := step
  alone m := by
    cases hwritten : written with
    | error e =>
      rw [(hstep m).eq_error_iff.mpr hwritten, (hstep ∅).eq_error_iff.mpr hwritten]
      exact .error e
    | ok f =>
      obtain ⟨m', hm', hadds⟩ := (hstep m).exists_of_ok_right hwritten
      obtain ⟨w, hw, hempty⟩ := (hstep ∅).exists_of_ok_right hwritten
      rw [hm', hw]
      exact .ok (adds_lookup hempty hadds)
  scope w hw k hk := by
    obtain ⟨f, hf, hadds⟩ := (hstep ∅).exists_of_ok hw
    rw [hadds k, hscope f hf k hk, AList.lookup_empty, Option.none_or]

end Writers
