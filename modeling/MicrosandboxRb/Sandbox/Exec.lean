import MicrosandboxRb.Modify.Patch

/-!
# Options of a command

The keyword arguments of `exec`, `shell` and their streaming variants, through `exec_opts`
(`sandbox.rb`) and `ExecOpts` (`sandbox.rs`), to the core's builder. A String is valid UTF-8 text,
the one for `stdin:` among them; the native layer takes the bytes of any String there, and refuses a
String that is not UTF-8 elsewhere.

## Main definitions

* `execOpts`: the options of a command;
* `ExecOpts.parse`, `ExecOpts.apply`: the native parser, and what the core's builder is told;
* `AsAsked`: options that say what the keyword arguments say.

## Main results

* `exec_told_as_asked`: the core's builder is told what was asked for, and a writable standard input
  only where there is a handle to write to it.
-/

namespace MicrosandboxRb.Exec

open Ruby Conv Create Native Writers AList TwoRuns

variable {ω : Type} {T : BuilderTypes}

/-! ## The Ruby layer -/

/-- `String.try_convert` on an object, which gives `nil` if it has no `to_str`. -/
class TryString (ω : Type) where
  tryString : ω → Except Exception (Option String)

instance : TryString Unit where
  tryString _ := .ok none

/-- What a command finds on its standard input. -/
inductive Stdin where
  | null
  | pipe
  | bytes (s : String)
deriving DecidableEq, Repr

/-- The keyword arguments of a command. -/
structure ExecArgs (ω : Type) where
  cwd : Value ω := .nil
  user : Value ω := .nil
  env : Value ω := .nil
  timeout : Value ω := .nil
  tty : Value ω := .bool false
  stdin : Value ω := .nil
  rlimits : Value ω := .nil

section Ruby

variable [Methods ω]

/-- The `case` on `stdin:`. Only the streaming variants may open a pipe. -/
def stdinMode [TryString ω] (pipeOk : Bool) (stdin : Value ω) : Except Exception Stdin :=
  let refused : Exception := .custom "TypeError"
    s!"stdin must be nil, :null, :pipe, or a String (got {stdin.className})"
  match stdin with
  | .nil | .sym "null" => .ok .null
  | .sym "pipe" =>
    if pipeOk then .ok .pipe
    else .error (.argumentError ("stdin: :pipe is only valid for the streaming variants " ++
      "(exec_stream/shell_stream/exec_default_stream) — a blocking exec cannot expose a " ++
      "writable stdin sink; pass a String to feed bytes"))
  | .sym _ => .error (.argumentError (s!"unknown stdin mode {stdin.inspect}; expected nil or " ++
      ":null (no stdin), :pipe (exec_stream/shell_stream only), or a String of bytes to feed"))
  | .str s => .ok (.bytes s)
  | .obj o => do
    match ← TryString.tryString o with
    | some s => return .bytes s
    | none => throw refused
  | _ => .error refused

/-- The key that a mode sets. -/
def putStdin (opts : Opts ω) : Stdin → Opts ω
  | .null => opts
  | .pipe => opts.insert "stdin_pipe" (.bool true)
  | .bytes s => opts.insert "stdin" (.str s)

/-- `env.each_with_object({}) { |(k, v), a| a[k.to_s] = v.to_s }`. -/
def stringPairs [CallerObjects ω] (env : Value ω) : Except Exception (Opts ω) :=
  (eachPair env "each_with_object").map fun pairs =>
    transformKeys Value.toS (pairs.map fun e => (e.1, .str e.2.toS))

variable [Numeric ω] [CallerObjects ω] [TryString ω]

/-- The lines of `exec_opts`. -/
def execSteps (pipeOk : Bool) (args : ExecArgs ω) : List (Step ω) :=
  [put "cwd" (whenGiven args.cwd toStr),
    put "user" (whenGiven args.user toStr),
    put "env" (whenGiven args.env fun v => (stringPairs v).map strHash),
    put "timeout" (whenGiven args.timeout fun v => coerceDuration v "timeout"),
    putFlag "tty" args.tty,
    fun opts => (stdinMode pipeOk args.stdin).map (putStdin opts),
    -- the lines of `normalize_rlimits` once more
    put "rlimits" (whenGiven args.rlimits normalizeRlimits)]

/-- The options of a command. -/
def execOpts (pipeOk : Bool) (args : ExecArgs ω) : Except Exception (Opts ω) :=
  runSteps (execSteps pipeOk args) ∅

end Ruby

/-! ## The native layer -/

/-- A method of the core's builder of a command. -/
inductive ExecCall (T : BuilderTypes) where
  | args (args : List String)
  | cwd (path : String)
  | user (user : String)
  | env (name value : String)
  | timeout (timeout : T.Duration)
  | tty (enabled : Bool)
  | stdinPipe
  | stdinBytes (bytes : List UInt8)
  | rlimitRange (resource : RlimitResource) (soft hard : UInt64)

/-- What is read of the options of a command. -/
structure ExecOpts (T : BuilderTypes) where
  args : List String
  cwd : Option String
  user : Option String
  env : List (String × String)
  timeout : Option T.Duration
  tty : Bool
  stdin : Option (List UInt8)
  stdinPipe : Bool
  rlimits : List (RlimitResource × UInt64 × UInt64)

/-- The bytes of a String. -/
def bytesOf (s : String) : List UInt8 := s.toByteArray.data.toList

/-- `opt_f64(opts, "timeout")?.map(secs_to_duration).transpose()?`. -/
def optTimeout (core : BuilderCore T ω) (opts : RHash ω) : Except Exception (Option T.Duration) := do
  match ← opt core.tryF64 opts "timeout" with
  | some secs => (secsToDuration core secs).map some
  | none => return none

/-- `ExecOpts::parse`, option by option. -/
def ExecOpts.parse [Numeric ω] (core : BuilderCore T ω) (args : List String) (opts : RHash ω) :
    Except Exception (ExecOpts T) := do
  let stdin ← optString opts "stdin"
  return {
    args
    cwd := ← optString opts "cwd"
    user := ← optString opts "user"
    env := ← optStringMap opts "env"
    timeout := ← optTimeout core opts
    tty := ← optBool opts "tty"
    stdin := stdin.map bytesOf
    stdinPipe := ← optBool opts "stdin_pipe"
    rlimits := ← parseRlimits opts }

/-- `apply`: the calls of the builder, in the order of the source. -/
def ExecOpts.apply (spec : ExecOpts T) : List (ExecCall T) :=
  (if spec.args.isEmpty then [] else [ExecCall.args spec.args]) ++
    (spec.cwd.map ExecCall.cwd).toList ++ (spec.user.map ExecCall.user).toList ++
    spec.env.map (fun e => ExecCall.env e.1 e.2) ++ (spec.timeout.map ExecCall.timeout).toList ++
    (if spec.tty then [ExecCall.tty true] else []) ++
    -- a pipe wins over bytes
    (if spec.stdinPipe then [ExecCall.stdinPipe]
      else (spec.stdin.map ExecCall.stdinBytes).toList) ++
    spec.rlimits.map fun r => ExecCall.rlimitRange r.1 r.2.1 r.2.2

/-! ## What is asked for -/

section Asked

variable [Methods ω]

/-- The String that a command is fed. -/
def fed [TryString ω] (stdin : Value ω) : Option String :=
  match stdin with
  | .str s => some s
  | .obj o => (TryString.tryString o).toOption.join
  | _ => none

/-- The pairs of an argument, each name once. Of the keys that print alike the last one counts. -/
structure Pairs [CallerObjects ω] (v : Value ω) (pairs : List (String × String)) : Prop where
  nodup : (pairs.map Prod.fst).Nodup
  mem_iff (name value : String) : (name, value) ∈ pairs ↔ v.truthy = true ∧
    ∃ es, eachPair v "each_with_object" = .ok es ∧ ∃ x, last es name = some x ∧ x.toS = value

variable [Numeric ω]

/-- The timeout that an argument gives: `Float(v)`, a finite number that is not negative. -/
def GivesTimeout (core : BuilderCore T ω) (v : Value ω) (timeout : Option T.Duration) : Prop :=
  if v.truthy then ∃ seconds secs d, Numeric.float v = .ok seconds ∧
    Numeric.isDuration seconds = true ∧ core.tryF64 (.obj seconds) = .ok secs ∧
    core.tryFromSecsF64 secs = .ok d ∧ timeout = some d
  else timeout = none

/-- The name of a resource. -/
def resourceName : RlimitResource → String
  | .cpu => "cpu"
  | .fsize => "fsize"
  | .data => "data"
  | .stack => "stack"
  | .core => "core"
  | .rss => "rss"
  | .nproc => "nproc"
  | .nofile => "nofile"
  | .memlock => "memlock"
  | .addressSpace => "as"
  | .locks => "locks"
  | .sigpending => "sigpending"
  | .msgqueue => "msgqueue"
  | .nice => "nice"
  | .rtprio => "rtprio"
  | .rttime => "rttime"

/-- The soft and the hard limit that a value gives, as `Integer` reads them. What follows the two in
an Array is not looked at. -/
inductive GivesLimits : Value ω → ℤ → ℤ → Prop
  /-- `[soft, hard]`. -/
  | both {s h : Value ω} {rest : List (Value ω)} {soft hard : ℤ} (soft_eq : integer s = .ok soft)
    (hard_eq : integer h = .ok hard) : GivesLimits (.arr (s :: h :: rest)) soft hard
  /-- One limit, soft and hard. -/
  | one {v : Value ω} {n : ℤ} (notArray : ∀ xs, v ≠ .arr xs) (eq : integer v = .ok n) :
    GivesLimits v n n

/-- The limit that an entry of `rlimits:` asks for. -/
structure Limits (e : Value ω × Value ω) (r : RlimitResource × UInt64 × UInt64) : Prop where
  resource : e.1.toS = resourceName r.1
  limits : GivesLimits e.2 r.2.1.toNat r.2.2.toNat

/-- The limits of an argument, in its order. -/
def ListsLimits [CallerObjects ω] (v : Value ω)
    (limits : List (RlimitResource × UInt64 × UInt64)) : Prop :=
  if v.truthy then ∃ es, eachPair v "map" = .ok es ∧ List.Forall₂ Limits es limits
  else limits = []

/-- Options that say what the keyword arguments say. -/
structure AsAsked [CallerObjects ω] [TryString ω] (core : BuilderCore T ω) (pipeOk : Bool)
    (args : ExecArgs ω) (argv : List String) (spec : ExecOpts T) : Prop where
  argv : spec.args = argv
  cwd : spec.cwd = textIf args.cwd
  user : spec.user = textIf args.user
  env : Pairs args.env spec.env
  timeout : GivesTimeout core args.timeout spec.timeout
  tty : spec.tty = args.tty.truthy
  pipe : spec.stdinPipe = true ↔ args.stdin = .sym "pipe"
  pipeOk : spec.stdinPipe = true → pipeOk = true
  stdin : spec.stdin = (fed args.stdin).map bytesOf
  rlimits : ListsLimits args.rlimits spec.rlimits

end Asked

/-! ## Standard input -/

section Stdin

variable [Methods ω] [TryString ω]

/-- What a mode is read as. -/
def Stdin.text : Stdin → Option String
  | .bytes s => some s
  | _ => none

/-- What a mode writes. -/
def Stdin.written : Stdin → String → Option (Value ω)
  | .null => fun _ => none
  | .pipe => atKey "stdin_pipe" (some (.bool true))
  | .bytes s => atKey "stdin" (some (.str s))

omit [Methods ω] [TryString ω] in
/-- The mode writes the two keys of `stdin:`. -/
theorem adds_putStdin (mode : Stdin) (m : Opts ω) : Adds mode.written m (putStdin m mode) := by
  cases mode with
  | null => exact adds_nothing m
  | pipe => exact adds_insert m _ _
  | bytes s => exact adds_insert m _ _

/-- The lines that write `stdin:`. -/
def stdinWriter (pipeOk : Bool) (stdin : Value ω) : Writer Exception String (Value ω) :=
  .ofWritten ["stdin_pipe", "stdin"] (fun opts => (stdinMode pipeOk stdin).map (putStdin opts))
    ((stdinMode pipeOk stdin).map Stdin.written)
    (by
      intro m
      cases stdinMode pipeOk stdin with
      | error e => exact .error e
      | ok mode => exact .ok (adds_putStdin mode m))
    (by
      intro f hf k hk
      obtain ⟨mode, -, rfl⟩ := Except.map_eq_ok_iff.mp hf
      simp only [List.mem_cons, List.not_mem_nil, or_false, not_or] at hk
      cases mode with
      | null => rfl
      | pipe => exact if_neg hk.1
      | bytes s => exact if_neg hk.2)

/-- The mode `stdin:` asks for, and what is fed. -/
theorem mode_spec {pipeOk : Bool} {stdin : Value ω} {mode : Stdin}
    (h : stdinMode pipeOk stdin = .ok mode) :
    (mode = .pipe ↔ stdin = .sym "pipe") ∧ (mode = .pipe → pipeOk = true) ∧
      mode.text = fed stdin := by
  unfold stdinMode at h
  dsimp only at h
  split at h
  · obtain rfl := Except.ok.inj h
    exact ⟨by simp, nofun, rfl⟩
  · obtain rfl := Except.ok.inj h
    exact ⟨by simp, nofun, rfl⟩
  · split at h
    · next hpipe =>
      obtain rfl := Except.ok.inj h
      exact ⟨by simp, fun _ => hpipe, rfl⟩
    · cases h
  · cases h
  · obtain rfl := Except.ok.inj h
    exact ⟨by simp, nofun, rfl⟩
  · next o =>
    -- an object is fed as the String it converts to
    obtain ⟨s, hs, h⟩ := Except.bind_eq_ok_iff.mp h
    cases s with
    | none => cases h
    | some s =>
      obtain rfl := Except.ok.inj h
      refine ⟨by simp, nofun, ?_⟩
      rw [fed, hs]
      rfl
  · cases h

omit [Methods ω] [TryString ω] in
/-- The native side reads whether a pipe was asked for. -/
theorem optBool_of_written {mode : Stdin} {m : Opts ω}
    (h : m.lookup "stdin_pipe" = mode.written "stdin_pipe") :
    optBool (strEntries m) "stdin_pipe" = .ok (mode == .pipe) := by
  refine optBool_setFlag ?_
  rw [h]
  cases mode <;> simp [Stdin.written, atKey]

omit [Methods ω] [TryString ω] in
/-- And the text that was written. -/
theorem optString_of_written {mode : Stdin} {m : Opts ω}
    (h : m.lookup "stdin" = mode.written "stdin") :
    optString (strEntries m) "stdin" = .ok mode.text := by
  refine optString_map_str ?_
  rw [h]
  cases mode <;> simp [Stdin.written, Stdin.text, atKey]

end Stdin

/-! ## Reading what was written -/

section Read

variable [Methods ω] [Numeric ω] {m : Opts ω} {v : Value ω}

omit [Methods ω] [Numeric ω] in
/-- A duration is what the core makes of the seconds. -/
theorem secsToDuration_eq_ok_iff {core : BuilderCore T ω} {secs : T.F64} {d : T.Duration} :
    secsToDuration core secs = .ok d ↔ core.tryFromSecsF64 secs = .ok d := by
  unfold secsToDuration
  cases core.tryFromSecsF64 secs with
  | error e => exact ⟨nofun, nofun⟩
  | ok d' =>
    change (Except.ok d' : Except Exception T.Duration) = .ok d ↔ _
    rw [Except.ok.injEq, Except.ok.injEq]

/-- Which values are seconds. -/
theorem coerceDuration_eq_ok_iff {label : String} {w : Value ω} :
    coerceDuration v label = .ok w ↔
      ∃ seconds, Numeric.float v = .ok seconds ∧ Numeric.isDuration seconds = true ∧
        w = .obj seconds := by
  unfold coerceDuration
  rw [Except.bind_eq_ok_iff]
  refine exists_congr fun seconds => and_congr_right fun _ => ?_
  by_cases hduration : Numeric.isDuration seconds = true
  · rw [if_pos hduration, and_iff_right hduration]
    exact ⟨fun h => (Except.ok.inj h).symm, fun h => by rw [h]; rfl⟩
  · rw [if_neg hduration]
    exact iff_of_false nofun fun h => hduration h.1

/-- The timeout that is read is the one that was given. -/
theorem optTimeout_eq_ok_iff {core : BuilderCore T ω}
    (h : whenGiven v (coerceDuration · "timeout") = .ok (m.lookup "timeout"))
    {timeout : Option T.Duration} :
    optTimeout core (strEntries m) = .ok timeout ↔ GivesTimeout core v timeout := by
  unfold whenGiven at h
  unfold GivesTimeout optTimeout
  split at h
  · next htruthy =>
    obtain ⟨w, hw, hlookup⟩ := Except.map_eq_ok_iff.mp h
    obtain ⟨seconds, hfloat, hduration, rfl⟩ := coerceDuration_eq_ok_iff.mp hw
    -- `opt` takes `nil` for an absent value, but a duration is a Float.
    have hread : opt core.tryF64 (strEntries m) "timeout" =
        (core.tryF64 (.obj seconds)).map some := by
      rw [opt, get_strEntries, ← hlookup]
      rfl
    rw [if_pos htruthy, hread, hfloat]
    cases hsecs : core.tryF64 (.obj seconds) with
    | error e => simp [hsecs, bind, Except.bind, Except.map]
    | ok secs =>
      change (secsToDuration core secs).map some = .ok timeout ↔ _
      simp only [Except.map_eq_ok_iff, secsToDuration_eq_ok_iff]
      constructor
      · rintro ⟨d, hd, rfl⟩
        exact ⟨seconds, secs, d, rfl, hduration, hsecs, hd, rfl⟩
      · rintro ⟨seconds', secs', d, hfloat', -, hsecs', hd, rfl⟩
        obtain rfl := Except.ok.inj hfloat'
        obtain rfl := Except.ok.inj (hsecs.symm.trans hsecs')
        exact ⟨d, hd, rfl⟩
  · next htruthy =>
    rw [if_neg htruthy, opt_eq_none (Except.ok.inj h).symm]
    change Except.ok none = .ok timeout ↔ _
    rw [Except.ok.injEq, eq_comm]

omit [Methods ω] [Numeric ω] in
/-- A resource is read from its name only. -/
theorem rlimitResourceFromStr_eq_ok_iff {s : String} {resource : RlimitResource} :
    rlimitResourceFromStr s = .ok resource ↔ s = resourceName resource := by
  constructor
  · intro h
    unfold rlimitResourceFromStr at h
    split at h <;> cases h <;> rfl
  · rintro rfl
    cases resource <;> rfl

/-- A limit that is left out is `nil`, which is no Integer. -/
theorem givesLimits_iff {soft hard : ℤ} :
    GivesLimits v soft hard ↔
      integer (softHard v).1 = .ok soft ∧ integer (softHard v).2 = .ok hard := by
  constructor
  · rintro (⟨hsoft, hhard⟩ | ⟨hnot, hn⟩)
    · exact ⟨hsoft, hhard⟩
    · -- what is no Array is both limits
      have hsame : softHard v = (v, v) := by
        unfold softHard
        split
        · exact absurd rfl (hnot _)
        · rfl
      rw [hsame]
      exact ⟨hn, hn⟩
  · rintro ⟨hsoft, hhard⟩
    cases v with
    | arr xs =>
      cases xs with
      | nil => cases hsoft
      | cons s xs =>
        cases xs with
        | nil => cases hhard
        | cons h rest => exact .both hsoft hhard
    | nil | bool | int | str | sym | hash | obj =>
      obtain rfl := Except.ok.inj (hsoft.symm.trans hhard)
      exact .one nofun hsoft

/-- The triple that `rlimits:` makes of an entry. -/
def triple (e : Value ω × Value ω) : Except Exception (Value ω) := do
  let soft ← integer (softHard e.2).1
  let hard ← integer (softHard e.2).2
  return .arr [.str e.1.toS, .int soft, .int hard]

/-- A triple, read as a limit. -/
def readLimit (v : Value ω) : Except Exception (RlimitResource × UInt64 × UInt64) := do
  let t ← tryTriple v
  (rlimitResourceFromStr t.1).map fun resource => (resource, t.2)

/-- A limit is read as the entry gives it. -/
theorem readLimit_eq_ok_iff {e : Value ω × Value ω} {w : Value ω} (h : triple e = .ok w)
    {r : RlimitResource × UInt64 × UInt64} : readLimit w = .ok r ↔ Limits e r := by
  unfold triple at h
  obtain ⟨soft, hsoft, h⟩ := Except.bind_eq_ok_iff.mp h
  obtain ⟨hard, hhard, h⟩ := Except.bind_eq_ok_iff.mp h
  obtain rfl := Except.ok.inj h
  -- a triple is read exactly if both limits are in the range of `u64`
  have htriple (t : String × UInt64 × UInt64) :
      tryTriple (.arr [.str e.1.toS, .int soft, .int hard] : Value ω) = .ok t ↔
        e.1.toS = t.1 ∧ soft = t.2.1.toNat ∧ hard = t.2.2.toNat := by
    change ((tryU64 (.int soft : Value ω)) >>= fun s => (tryU64 (.int hard : Value ω)) >>= fun h =>
      .ok (e.1.toS, s, h)) = _ ↔ _
    simp only [Except.bind_eq_ok_iff, tryU64_int_eq_ok_iff, Except.ok.injEq]
    constructor
    · rintro ⟨s, hs, h, hh, rfl⟩
      exact ⟨rfl, hs, hh⟩
    · rintro ⟨hname, hs, hh⟩
      exact ⟨t.2.1, hs, t.2.2, hh, by rw [hname]⟩
  unfold readLimit
  simp only [Except.bind_eq_ok_iff, Except.map_eq_ok_iff, htriple]
  constructor
  · rintro ⟨t, ⟨hname, hs, hh⟩, resource, hresource, rfl⟩
    refine ⟨?_, givesLimits_iff.mpr ⟨by rw [hsoft, hs], by rw [hhard, hh]⟩⟩
    rw [hname]
    exact rlimitResourceFromStr_eq_ok_iff.mp hresource
  · rintro ⟨hresource, hlimits⟩
    obtain ⟨hs, hh⟩ := givesLimits_iff.mp hlimits
    exact ⟨(e.1.toS, r.2), ⟨rfl, Except.ok.inj (hsoft.symm.trans hs),
      Except.ok.inj (hhard.symm.trans hh)⟩, r.1,
      rlimitResourceFromStr_eq_ok_iff.mpr hresource, rfl⟩

/-- So are all of them, in their order. -/
theorem forall₂_readLimit_iff {es : List (Value ω × Value ω)} {ws : List (Value ω)}
    (h : List.Forall₂ (fun e w => triple e = .ok w) es ws)
    {limits : List (RlimitResource × UInt64 × UInt64)} :
    List.Forall₂ (fun w r => readLimit w = .ok r) ws limits ↔ List.Forall₂ Limits es limits := by
  induction h generalizing limits with
  | nil => rw [List.forall₂_nil_left_iff, List.forall₂_nil_left_iff]
  | cons hw _ ih => simp only [List.forall₂_cons_left_iff, readLimit_eq_ok_iff hw, ih]

omit [Methods ω] in
/-- The resources are looked up once the triples have been read. -/
theorem readLimits_eq_ok_iff {ws : List (Value ω)}
    {limits : List (RlimitResource × UInt64 × UInt64)} :
    (∃ ts, ws.mapM tryTriple = .ok ts ∧ (ts.mapM fun t =>
      (rlimitResourceFromStr t.1).map fun resource => (resource, t.2)) = .ok limits) ↔
      List.Forall₂ (fun w r => readLimit w = .ok r) ws limits := by
  simp only [Except.mapM_eq_ok_iff]
  induction ws generalizing limits with
  | nil => simp [List.forall₂_nil_left_iff]
  | cons w ws ih =>
    rw [List.forall₂_cons_left_iff]
    simp only [← ih]
    simp only [List.forall₂_cons_left_iff (l := ws), readLimit, Except.bind_eq_ok_iff]
    constructor
    -- All triples are read before the first resource is looked up; what is read is the same.
    · rintro ⟨ts, ⟨t, ts', ht, hts, rfl⟩, hlimits⟩
      obtain ⟨r, rs, hr, hrs, rfl⟩ := List.forall₂_cons_left_iff.mp hlimits
      exact ⟨r, rs, ⟨t, ht, hr⟩, ⟨ts', hts, hrs⟩, rfl⟩
    · rintro ⟨r, rs, ⟨t, ht, hr⟩, ⟨ts, hts, hrs⟩, rfl⟩
      exact ⟨t :: ts, ⟨t, ts, ht, hts, rfl⟩, .cons hr hrs⟩

variable [CallerObjects ω]

/-- Each pair of `rlimits:` becomes a triple. -/
theorem normalizeRlimits_eq (v : Value ω) :
    normalizeRlimits v = (eachPair v "map" >>= fun es => (es.mapM triple).map .arr) := by
  unfold normalizeRlimits
  cases eachPair v "map" with
  | error e => rfl
  | ok es => rfl

/-- The limits that are read are the ones that were given. -/
theorem parseRlimits_eq_ok_iff (h : whenGiven v normalizeRlimits = .ok (m.lookup "rlimits"))
    {limits : List (RlimitResource × UInt64 × UInt64)} :
    parseRlimits (strEntries m) = .ok limits ↔ ListsLimits v limits := by
  unfold whenGiven at h
  unfold ListsLimits parseRlimits
  split at h
  · next htruthy =>
    obtain ⟨w, hw, hlookup⟩ := Except.map_eq_ok_iff.mp h
    rw [normalizeRlimits_eq] at hw
    obtain ⟨es, hes, hw⟩ := Except.bind_eq_ok_iff.mp hw
    obtain ⟨ws, hws, rfl⟩ := Except.map_eq_ok_iff.mp hw
    -- the limits are written as triples and read back one by one
    have hread : opt (tryVec tryTriple) (strEntries m) "rlimits" =
        (ws.mapM tryTriple).map some := by
      rw [opt, get_strEntries, ← hlookup]
      rfl
    rw [if_pos htruthy, hread]
    simp only [Except.bind_eq_ok_iff, Except.map_eq_ok_iff]
    constructor
    · rintro ⟨o, ⟨ts, hts, rfl⟩, hlimits⟩
      exact ⟨es, hes, (forall₂_readLimit_iff (Except.mapM_eq_ok_iff.mp hws)).mp
        (readLimits_eq_ok_iff.mp ⟨ts, hts, hlimits⟩)⟩
    · rintro ⟨es', hes', hlimits⟩
      obtain rfl := Except.ok.inj (hes.symm.trans hes')
      obtain ⟨ts, hts, hlimits⟩ := readLimits_eq_ok_iff.mpr
        ((forall₂_readLimit_iff (Except.mapM_eq_ok_iff.mp hws)).mpr hlimits)
      exact ⟨some ts, ⟨ts, hts, rfl⟩, hlimits⟩
  · next htruthy =>
    rw [if_neg htruthy, opt_eq_none (Except.ok.inj h).symm]
    change Except.ok [] = .ok limits ↔ _
    rw [Except.ok.injEq, eq_comm]

omit [Numeric ω] in
/-- So is the environment. -/
theorem exists_optStringMap (h : whenGiven v (fun v => (stringPairs v).map strHash) =
    .ok (m.lookup "env")) :
    ∃ pairs, optStringMap (strEntries m) "env" = .ok pairs ∧ Pairs v pairs := by
  unfold whenGiven at h
  split at h
  · next htruthy =>
    obtain ⟨w, hw, hlookup⟩ := Except.map_eq_ok_iff.mp h
    obtain ⟨names, hnames, rfl⟩ := Except.map_eq_ok_iff.mp hw
    obtain ⟨es, hes, heq⟩ := Except.map_eq_ok_iff.mp hnames
    have hlast (name : String) : names.lookup name = (last es name).map fun x => .str x.toS := by
      rw [← heq, lookup_transformKeys_toS]
      exact Modify.lastValue_map _ (fun x => .str x.toS) es
    refine ⟨_, ?_, Modify.nodup_fst_entries names, fun name value => ?_⟩
    · rw [optStringMap, get_strEntries, ← hlookup]
      exact Modify.tryHashMap_strHash (Modify.exists_str_of_mem hlast)
    · rw [Modify.mem_entries_iff hlast]
      constructor
      · exact fun hx => ⟨htruthy, es, hes, hx⟩
      · rintro ⟨-, es', hes', hx⟩
        obtain rfl := Except.ok.inj (hes.symm.trans hes')
        exact hx
  · next htruthy =>
    refine ⟨[], ?_, List.nodup_nil, fun name value => ?_⟩
    · rw [optStringMap, get_strEntries, ← Except.ok.inj h]
      rfl
    · exact ⟨fun hmem => absurd hmem List.not_mem_nil, fun hnames => absurd hnames.1 htruthy⟩

end Read

/-! ## From the arguments to the core -/

section Main

variable [Methods ω] [Numeric ω] [CallerObjects ω] [TryString ω]

/-- The lines of `exec_opts`, with the keys that they write. -/
def execWriters (pipeOk : Bool) (args : ExecArgs ω) : List (Writer Exception String (Value ω)) :=
  [putWriter "cwd" (whenGiven args.cwd toStr),
    putWriter "user" (whenGiven args.user toStr),
    putWriter "env" (whenGiven args.env fun v => (stringPairs v).map strHash),
    putWriter "timeout" (whenGiven args.timeout (coerceDuration · "timeout")),
    flagWriter "tty" args.tty.truthy,
    stdinWriter pipeOk args.stdin,
    putWriter "rlimits" (whenGiven args.rlimits normalizeRlimits)]

/-- The writers build the options of `exec_opts`. -/
theorem run_execWriters (pipeOk : Bool) (args : ExecArgs ω) :
    run (execWriters pipeOk args) ∅ = execOpts pipeOk args := by
  rw [execOpts, runSteps, run]
  change _ = ((execWriters pipeOk args).map Writer.step).foldlM _ _
  rw [List.foldlM_map]

/-- No key is written twice. -/
theorem nodup_execWriters (pipeOk : Bool) (args : ExecArgs ω) :
    ((execWriters pipeOk args).flatMap Writer.keys).Nodup := by
  change List.Nodup ["cwd", "user", "env", "timeout", "tty", "stdin_pipe", "stdin", "rlimits"]
  decide

/-- What the options of an accepted command read as. -/
structure Written (core : BuilderCore T ω) (pipeOk : Bool) (args : ExecArgs ω) (opts : Opts ω) :
    Prop where
  cwd : optString (strEntries opts) "cwd" = .ok (textIf args.cwd)
  user : optString (strEntries opts) "user" = .ok (textIf args.user)
  env : ∃ pairs, optStringMap (strEntries opts) "env" = .ok pairs ∧ Pairs args.env pairs
  timeout (timeout : Option T.Duration) :
    optTimeout core (strEntries opts) = .ok timeout ↔ GivesTimeout core args.timeout timeout
  tty : optBool (strEntries opts) "tty" = .ok args.tty.truthy
  stdin : ∃ mode, stdinMode pipeOk args.stdin = .ok mode ∧
    optBool (strEntries opts) "stdin_pipe" = .ok (mode == .pipe) ∧
    optString (strEntries opts) "stdin" = .ok mode.text
  rlimits (limits : List (RlimitResource × UInt64 × UInt64)) :
    parseRlimits (strEntries opts) = .ok limits ↔ ListsLimits args.rlimits limits

/-- What an accepted call has written under every key. -/
theorem written_of_execOpts (core : BuilderCore T ω) {pipeOk : Bool} {args : ExecArgs ω}
    {opts : Opts ω} (h : execOpts pipeOk args = .ok opts) : Written core pipeOk args opts := by
  have hnodup := nodup_execWriters pipeOk args
  have hrun : run (execWriters pipeOk args) ∅ = .ok opts := (run_execWriters pipeOk args).trans h
  have hput {key : String} {value : Except Exception (Option (Value ω))}
      (hmem : putWriter key value ∈ execWriters pipeOk args) : value = .ok (opts.lookup key) :=
    Modify.lookup_of_mem_putWriter hnodup hrun hmem
  exact {
    cwd := Modify.optString_textIf (hput (by simp [execWriters]))
    user := Modify.optString_textIf (hput (by simp [execWriters]))
    env := exists_optStringMap (hput (by simp [execWriters]))
    timeout := fun _ => optTimeout_eq_ok_iff (hput (by simp [execWriters]))
    tty := optBool_setFlag
      (Modify.lookup_of_mem_flagWriter hnodup hrun (by simp [execWriters]))
    stdin := by
      obtain ⟨w, hw, hkeys⟩ :=
        exists_alone_of_run hnodup hrun (stdinWriter pipeOk args.stdin) (by simp [execWriters])
      obtain ⟨mode, hmode, rfl⟩ := Except.map_eq_ok_iff.mp hw
      have hlookup (k : String) (hk : k ∈ ["stdin_pipe", "stdin"]) :
          opts.lookup k = mode.written k := by
        rw [hkeys k hk, adds_putStdin mode ∅ k, AList.lookup_empty, Option.or_none]
      exact ⟨mode, hmode, optBool_of_written (hlookup _ (by decide)),
        optString_of_written (hlookup _ (by decide))⟩
    rlimits := fun _ => parseRlimits_eq_ok_iff (hput (by simp [execWriters])) }

omit [Methods ω] [CallerObjects ω] [TryString ω] in
/-- The specification, option by option. -/
theorem parse_eq_ok_iff {core : BuilderCore T ω} {argv : List String} {opts : RHash ω}
    {spec : ExecOpts T} :
    ExecOpts.parse core argv opts = .ok spec ↔ spec.args = argv ∧
      optString opts "cwd" = .ok spec.cwd ∧ optString opts "user" = .ok spec.user ∧
      optStringMap opts "env" = .ok spec.env ∧ optTimeout core opts = .ok spec.timeout ∧
      optBool opts "tty" = .ok spec.tty ∧
      (optString opts "stdin").map (Option.map bytesOf) = .ok spec.stdin ∧
      optBool opts "stdin_pipe" = .ok spec.stdinPipe ∧
      parseRlimits opts = .ok spec.rlimits := by
  unfold ExecOpts.parse
  simp only [Except.bind_eq_ok_iff, Except.map_eq_ok_iff]
  constructor
  · rintro ⟨stdin, hstdin, cwd, hcwd, user, huser, env, henv, timeout, htimeout, tty, htty, pipe,
      hpipe, limits, hlimits, heq⟩
    obtain rfl := Except.ok.inj heq
    exact ⟨rfl, hcwd, huser, henv, htimeout, htty, ⟨stdin, hstdin, rfl⟩, hpipe, hlimits⟩
  · rintro ⟨rfl, hcwd, huser, henv, htimeout, htty, ⟨stdin, hstdin, hfed⟩, hpipe, hlimits⟩
    refine ⟨stdin, hstdin, _, hcwd, _, huser, _, henv, _, htimeout, _, htty, _, hpipe, _, hlimits,
      ?_⟩
    rw [hfed]
    rfl

namespace Written

variable {core : BuilderCore T ω} {pipeOk : Bool} {args : ExecArgs ω} {opts : Opts ω}

/-- What is parsed from the options asks for what the caller asked. -/
theorem asAsked (hw : Written core pipeOk args opts) {argv : List String} {spec : ExecOpts T}
    (h : ExecOpts.parse core argv (strEntries opts) = .ok spec) :
    AsAsked core pipeOk args argv spec := by
  obtain ⟨hargs, hcwd, huser, henv, htimeout, htty, hstdin, hpipe, hlimits⟩ :=
    parse_eq_ok_iff.mp h
  obtain ⟨pairs, hread, hpairs⟩ := hw.env
  obtain rfl := Except.ok.inj (henv.symm.trans hread)
  -- One mode stands behind both keys, so a pipe and bytes are never both set.
  obtain ⟨mode, hmode, hpipeRead, hstdinRead⟩ := hw.stdin
  obtain ⟨hsym, hok, htext⟩ := mode_spec hmode
  have hmodePipe : spec.stdinPipe = (mode == .pipe) := Except.ok.inj (hpipe.symm.trans hpipeRead)
  rw [hstdinRead] at hstdin
  exact {
    argv := hargs
    cwd := Except.ok.inj (hcwd.symm.trans hw.cwd)
    user := Except.ok.inj (huser.symm.trans hw.user)
    env := hpairs
    timeout := (hw.timeout _).mp htimeout
    tty := Except.ok.inj (htty.symm.trans hw.tty)
    pipe := by rw [hmodePipe, beq_iff_eq, hsym]
    pipeOk := by
      rw [hmodePipe, beq_iff_eq]
      exact hok
    stdin := by
      rw [← htext]
      exact (Except.ok.inj hstdin).symm
    rlimits := (hw.rlimits _).mp hlimits }

/-- There is a specification exactly if the timeout and the limits can be read. -/
theorem exists_parse_iff (hw : Written core pipeOk args opts) (argv : List String) :
    (∃ spec, ExecOpts.parse core argv (strEntries opts) = .ok spec) ↔
      (∃ timeout, GivesTimeout core args.timeout timeout) ∧
        ∃ limits, ListsLimits args.rlimits limits := by
  constructor
  · rintro ⟨spec, hspec⟩
    have hasked := hw.asAsked hspec
    exact ⟨⟨_, hasked.timeout⟩, _, hasked.rlimits⟩
  · rintro ⟨⟨timeout, htimeout⟩, limits, hlimits⟩
    obtain ⟨env, henv, -⟩ := hw.env
    obtain ⟨mode, -, hpipe, hstdin⟩ := hw.stdin
    refine ⟨⟨argv, _, _, env, timeout, _, mode.text.map bytesOf, mode == .pipe, limits⟩,
      parse_eq_ok_iff.mpr ⟨rfl, hw.cwd, hw.user, henv, (hw.timeout _).mpr htimeout, hw.tty, ?_,
        hpipe, (hw.rlimits _).mpr hlimits⟩⟩
    rw [hstdin]
    rfl

end Written

omit [Methods ω] [Numeric ω] [CallerObjects ω] [TryString ω] in
/-- The builder is told of a pipe exactly if one was asked for. -/
theorem stdinPipe_mem_apply_iff {spec : ExecOpts T} :
    .stdinPipe ∈ spec.apply ↔ spec.stdinPipe = true := by
  unfold ExecOpts.apply
  simp only [List.mem_append, List.mem_map, Option.mem_toList, Option.map_eq_some_iff]
  split_ifs <;> simp_all

omit [Methods ω] [Numeric ω] [CallerObjects ω] [TryString ω] in
/-- It is told bytes only if there is no pipe. -/
theorem stdinBytes_mem_apply_iff {spec : ExecOpts T} {bytes : List UInt8} :
    .stdinBytes bytes ∈ spec.apply ↔ spec.stdinPipe = false ∧ spec.stdin = some bytes := by
  unfold ExecOpts.apply
  simp only [List.mem_append, List.mem_map, Option.mem_toList, Option.map_eq_some_iff]
  split_ifs <;> simp_all

/-- An accepted command reaches the core as it was asked for, if the core has its timeout and its
limits, and raises an error otherwise. The core opens a pipe for the streaming variants alone. -/
theorem exec_told_as_asked (core : BuilderCore T ω) {pipeOk : Bool} {args : ExecArgs ω}
    {opts : Opts ω} (h : execOpts pipeOk args = .ok opts) (argv : List String) :
    ((∃ spec, ExecOpts.parse core argv (strEntries opts) = .ok spec) ↔
      (∃ timeout, GivesTimeout core args.timeout timeout) ∧
        ∃ limits, ListsLimits args.rlimits limits) ∧
      ∀ spec, ExecOpts.parse core argv (strEntries opts) = .ok spec →
        AsAsked core pipeOk args argv spec ∧
          (.stdinPipe ∈ spec.apply ↔ pipeOk = true ∧ args.stdin = .sym "pipe") ∧
          ∀ bytes, .stdinBytes bytes ∈ spec.apply ↔ (fed args.stdin).map bytesOf = some bytes := by
  have hw := written_of_execOpts core h
  refine ⟨hw.exists_parse_iff argv, fun spec hspec => ?_⟩
  have hasked := hw.asAsked hspec
  refine ⟨hasked, ?_, fun bytes => ?_⟩
  · rw [stdinPipe_mem_apply_iff, ← hasked.pipe]
    exact ⟨fun hpipe => ⟨hasked.pipeOk hpipe, hpipe⟩, And.right⟩
  · rw [stdinBytes_mem_apply_iff, ← hasked.stdin]
    refine and_iff_right_of_imp fun hbytes => ?_
    -- the Symbol that asks for a pipe feeds nothing
    cases hpipe : spec.stdinPipe with
    | false => rfl
    | true =>
      rw [hasked.stdin, hasked.pipe.mp hpipe] at hbytes
      cases hbytes

end Main

/-! ### A streaming command with a pipe -/

/-- A call that feeds a pipe. -/
def pipeArgs : ExecArgs Unit where
  cwd := .str "/app"
  env := .hash [(.sym "TERM", .str "dumb")]
  stdin := .sym "pipe"
  rlimits := .hash [(.sym "nofile", .arr [.int 256, .int 1024])]

/-- That call passes both builders. -/
theorem exec_told_as_asked_pipe :
    ∃ opts spec, execOpts true pipeArgs = .ok opts ∧
      ExecOpts.parse smallBuilderCore ["-l"] (strEntries opts) = .ok spec ∧
      AsAsked smallBuilderCore true pipeArgs ["-l"] spec ∧ .stdinPipe ∈ spec.apply := by
  have hopts : execOpts true pipeArgs = .ok _ := rfl
  obtain ⟨hparse, hasked⟩ := exec_told_as_asked smallBuilderCore hopts ["-l"]
  have hlimits : ListsLimits pipeArgs.rlimits [(.nofile, 256, 1024)] :=
    ⟨_, rfl, .cons ⟨rfl, .both rfl rfl⟩ .nil⟩
  obtain ⟨spec, hspec⟩ := hparse.mpr ⟨⟨none, rfl⟩, _, hlimits⟩
  obtain ⟨hsame, hpipe, -⟩ := hasked spec hspec
  exact ⟨_, spec, hopts, hspec, hsame, hpipe.mpr ⟨rfl, rfl⟩⟩

end MicrosandboxRb.Exec
