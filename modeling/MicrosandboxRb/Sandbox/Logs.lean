import MicrosandboxRb.Lib.ExceptList
import MicrosandboxRb.Network.Native
import MicrosandboxRb.Options
import MicrosandboxRb.Sandbox.LogTime

/-!
# Options of log reads

The keyword arguments of `logs` and `log_stream` (`sandbox.rb`) and the native parsers of their
options (`parse_log_options` and `parse_log_stream_options`, `sandbox.rs`).

## Main definitions

* `logs`, `logStream`: the options that are handed to the native layer;
* `parseLogOptions`, `parseLogStreamOptions`: the native parsers.

## Main results

* `log_time_filters_exact_iff`: the times for which a filter is kept as it is given.
-/

namespace MicrosandboxRb.Logs

open Ruby Conv Native

variable {ω : Type}

/-- The conversion of the objects in `ω` to a floating-point number. A Float is converted to its own
value. -/
class Floats (ω : Type) where
  toF64 : ω → Except Exception F64

/-! ## The Ruby layer -/

section Ruby

variable [Methods ω] [Numeric ω]

/-- `Integer(v) if v`. -/
def integerIf (v : Value ω) : Except Exception (Option (Value ω)) :=
  if v.truthy then (integer v).map fun n => some (.int n) else .ok none

/-- `Float(v) if v`. -/
def floatIf (v : Value ω) : Except Exception (Option (Value ω)) :=
  if v.truthy then (Numeric.float v).map fun o => some (.obj o) else .ok none

omit [Numeric ω] in
/-- `Array(v).map(&:to_s) if v`. -/
def sourcesIf (v : Value ω) : Option (Value ω) :=
  if v.truthy then some (.arr ((v.array.map Value.toS).map .str)) else none

/-- `Sandbox#logs`, as far as it builds its options. -/
def logs (tail sinceMs untilMs sources : Value ω) : Except Exception (Opts ω) := do
  let opts : Opts ω := insertSome ∅ "tail" (← integerIf tail)
  let opts := insertSome opts "since_ms" (← floatIf sinceMs)
  let opts := insertSome opts "until_ms" (← floatIf untilMs)
  return insertSome opts "sources" (sourcesIf sources)

/-- `Sandbox#log_stream`, as far as it builds its options. -/
def logStream (sources sinceMs fromCursor untilMs follow : Value ω) :
    Except Exception (Opts ω) := do
  let opts : Opts ω := insertSome ∅ "sources" (sourcesIf sources)
  let opts := insertSome opts "since_ms" (← floatIf sinceMs)
  let opts := insertSome opts "from_cursor" (strIf fromCursor)
  let opts := insertSome opts "until_ms" (← floatIf untilMs)
  return insertSome opts "follow" (if follow.truthy then some (.bool true) else none)

end Ruby

/-! ## The native layer -/

/-- The sources of a log. -/
inductive LogSource where
  | stdout
  | stderr
  | output
  | system
deriving DecidableEq, Repr

/-- The options of the core for a log. -/
structure LogOptions where
  tail : Option UInt64
  since : Option DateTime
  «until» : Option DateTime
  sources : List LogSource

/-- Where a stream starts, with cursors in `κ`. -/
inductive LogStreamStart (κ : Type) where
  | beginning
  | since (time : DateTime)
  | «from» (cursor : κ)

/-- Its options for a stream. -/
structure LogStreamOptions (κ : Type) where
  sources : List LogSource
  start : LogStreamStart κ
  «until» : Option DateTime
  follow : Bool

/-- The time that a stream starts at, if it starts at one. -/
def LogStreamStart.since? {κ : Type} : LogStreamStart κ → Option DateTime
  | .since time => some time
  | _ => none

section Native

variable [Numeric ω] [Floats ω]

/-- `f64::try_convert`. -/
def tryF64 : Value ω → Except Exception F64
  | .obj o => Floats.toF64 o
  | .int n => .ok (F64.ofInt n)
  | _ => .error (.typeError "Float")

omit [Numeric ω] in
/-- `opt_f64`. -/
def optF64 (hash : RHash ω) (key : String) : Except Exception (Option F64) := opt tryF64 hash key

/-- One iteration of the loop of `parse_log_sources`. -/
def addLogSource (sources : List LogSource) (s : String) : Except Exception (List LogSource) :=
  match s with
  | "stdout" => .ok (sources ++ [.stdout])
  | "stderr" => .ok (sources ++ [.stderr])
  | "output" => .ok (sources ++ [.output])
  | "system" => .ok (sources ++ [.system])
  | "all" => .ok [.stdout, .stderr, .output, .system]
  | other => .error (baseError s!"unknown log source {RustStr.debug other}")

omit [Numeric ω] [Floats ω] in
/-- `parse_log_sources`, each source once. -/
def parseLogSources (opts : RHash ω) : Except Exception (List LogSource) := do
  (← optStringVec opts "sources").foldlM addLogSource []

/-- `parse_log_options`. -/
def parseLogOptions (c : Chrono) (opts : RHash ω) : Except Exception LogOptions := do
  return {
    tail := ← opt tryU64 opts "tail"
    since := (← optF64 opts "since_ms").bind (msToDatetime c)
    «until» := (← optF64 opts "until_ms").bind (msToDatetime c)
    sources := ← parseLogSources opts }

omit [Numeric ω] in
/-- A cursor takes precedence over a time. -/
def parseLogStreamStart {κ : Type} (parse : String → Option κ) (c : Chrono) (opts : RHash ω) :
    Except Exception (LogStreamStart κ) := do
  match ← optString opts "from_cursor" with
  | some cursor =>
    match parse cursor with
    | some parsed => return .from parsed
    | none => throw (baseError s!"invalid log cursor {RustStr.debug cursor}")
  | none =>
    match (← optF64 opts "since_ms").bind (msToDatetime c) with
    | some since => return .since since
    | none => return .beginning

omit [Numeric ω] in
/-- `parse_log_stream_options`. -/
def parseLogStreamOptions {κ : Type} (parse : String → Option κ) (c : Chrono) (opts : RHash ω) :
    Except Exception (LogStreamOptions κ) := do
  let start ← parseLogStreamStart parse c opts
  return {
    sources := ← parseLogSources opts
    start
    «until» := (← optF64 opts "until_ms").bind (msToDatetime c)
    follow := ← optBool opts "follow" }

end Native

/-! ## The bounds of a call -/

section Bounds

variable [Methods ω] [Numeric ω] [Floats ω]

/-- The bound that a call makes of a time that it is given. -/
inductive Bounds (c : Chrono) : Value ω → Option DateTime → Prop
  | logsSince {tail sinceMs untilMs sources : Value ω} {opts : Opts ω} {options : LogOptions}
    (call : logs tail sinceMs untilMs sources = .ok opts)
    (parse : parseLogOptions c (strEntries opts) = .ok options) : Bounds c sinceMs options.since
  | logsUntil {tail sinceMs untilMs sources : Value ω} {opts : Opts ω} {options : LogOptions}
    (call : logs tail sinceMs untilMs sources = .ok opts)
    (parse : parseLogOptions c (strEntries opts) = .ok options) : Bounds c untilMs options.until
  | streamSince {κ : Type} {parseCursor : String → Option κ}
    {sources sinceMs fromCursor untilMs follow : Value ω} {opts : Opts ω}
    {options : LogStreamOptions κ} (noCursor : fromCursor.truthy = false)
    (call : logStream sources sinceMs fromCursor untilMs follow = .ok opts)
    (parse : parseLogStreamOptions parseCursor c (strEntries opts) = .ok options) :
    Bounds c sinceMs options.start.since?
  | streamUntil {κ : Type} {parseCursor : String → Option κ}
    {sources sinceMs fromCursor untilMs follow : Value ω} {opts : Opts ω}
    {options : LogStreamOptions κ}
    (call : logStream sources sinceMs fromCursor untilMs follow = .ok opts)
    (parse : parseLogStreamOptions parseCursor c (strEntries opts) = .ok options) :
    Bounds c untilMs options.until

/-- The milliseconds that a value gives, if it gives a finite number of them. -/
def GivenMs (v : Value ω) (ms : ℚ) : Prop :=
  v.truthy = true ∧ ∃ o hp hlt, Numeric.float v = .ok o ∧ Floats.toF64 o = .ok (.finite ms hp hlt)

/-- Whether a bound denotes the time that is given, up to a nanosecond. -/
def Exact (v : Value ω) (bound : Option DateTime) : Prop :=
  ∀ ms, GivenMs v ms → ∃ t, bound = some t ∧ t.Denotes ms

variable {c : Chrono}

/-- The options of a call hold its times as Floats. -/
structure HoldsTimes (opts : Opts ω) (sinceMs untilMs : Value ω) : Prop where
  since : floatIf sinceMs = .ok (opts.lookup "since_ms")
  «until» : floatIf untilMs = .ok (opts.lookup "until_ms")

omit [Floats ω] in
/-- The options of `logs` hold the times that were given. -/
theorem holdsTimes_of_logs {tail sinceMs untilMs sources : Value ω} {opts : Opts ω}
    (h : logs tail sinceMs untilMs sources = .ok opts) : HoldsTimes opts sinceMs untilMs := by
  obtain ⟨t, -, h⟩ := Except.bind_eq_ok_iff.mp h
  obtain ⟨s, hs, h⟩ := Except.bind_eq_ok_iff.mp h
  obtain ⟨u, hu, h⟩ := Except.bind_eq_ok_iff.mp h
  obtain rfl := Except.ok.inj h
  constructor
  · rw [hs]
    simp (disch := decide) [lookup_insertSome_ne]
  · rw [hu]
    simp (disch := decide) [lookup_insertSome_ne]

omit [Floats ω] in
/-- So do the ones of `log_stream`, next to the cursor. -/
theorem holdsTimes_of_logStream {sources sinceMs fromCursor untilMs follow : Value ω}
    {opts : Opts ω} (h : logStream sources sinceMs fromCursor untilMs follow = .ok opts) :
    HoldsTimes opts sinceMs untilMs ∧ opts.lookup "from_cursor" = strIf fromCursor := by
  obtain ⟨s, hs, h⟩ := Except.bind_eq_ok_iff.mp h
  obtain ⟨u, hu, h⟩ := Except.bind_eq_ok_iff.mp h
  obtain rfl := Except.ok.inj h
  refine ⟨⟨?_, ?_⟩, ?_⟩
  · rw [hs]
    simp (disch := decide) [lookup_insertSome_ne]
  · rw [hu]
    simp (disch := decide) [lookup_insertSome_ne]
  · simp (disch := decide) [lookup_insertSome_ne]

omit [Methods ω] in
/-- A time that was given is read back as the float it is. -/
theorem optF64_of_givenMs {v : Value ω} {opts : Opts ω} {key : String} {ms : ℚ}
    (hgiven : GivenMs v ms) (hfloat : floatIf v = .ok (opts.lookup key)) :
    ∃ hp hlt, optF64 (strEntries opts) key = .ok (some (.finite ms hp hlt)) := by
  obtain ⟨htruthy, f, hp, hlt, hf, hms⟩ := hgiven
  rw [floatIf, if_pos htruthy, hf] at hfloat
  exact ⟨hp, hlt, opt_eq_some (Except.ok.inj hfloat).symm rfl hms⟩

omit [Methods ω] in
/-- Which times are read for a log. -/
theorem times_of_parseLogOptions {opts : RHash ω} {options : LogOptions}
    (h : parseLogOptions c opts = .ok options) :
    (∃ x, optF64 opts "since_ms" = .ok x ∧ options.since = x.bind (msToDatetime c)) ∧
      ∃ x, optF64 opts "until_ms" = .ok x ∧ options.until = x.bind (msToDatetime c) := by
  obtain ⟨tail, -, h⟩ := Except.bind_eq_ok_iff.mp h
  obtain ⟨x, hx, h⟩ := Except.bind_eq_ok_iff.mp h
  obtain ⟨y, hy, h⟩ := Except.bind_eq_ok_iff.mp h
  obtain ⟨sources, -, h⟩ := Except.bind_eq_ok_iff.mp h
  obtain rfl := Except.ok.inj h
  exact ⟨⟨x, hx, rfl⟩, y, hy, rfl⟩

omit [Methods ω] [Numeric ω] in
/-- Which ones are read for a stream. -/
theorem times_of_parseLogStreamOptions {κ : Type} {parseCursor : String → Option κ}
    {opts : RHash ω} {options : LogStreamOptions κ}
    (h : parseLogStreamOptions parseCursor c opts = .ok options) :
    parseLogStreamStart parseCursor c opts = .ok options.start ∧
      ∃ x, optF64 opts "until_ms" = .ok x ∧ options.until = x.bind (msToDatetime c) := by
  obtain ⟨start, hstart, h⟩ := Except.bind_eq_ok_iff.mp h
  obtain ⟨sources, -, h⟩ := Except.bind_eq_ok_iff.mp h
  obtain ⟨y, hy, h⟩ := Except.bind_eq_ok_iff.mp h
  obtain ⟨follow, -, h⟩ := Except.bind_eq_ok_iff.mp h
  obtain rfl := Except.ok.inj h
  exact ⟨hstart, y, hy, rfl⟩

omit [Methods ω] [Numeric ω] in
/-- Without a cursor a stream starts at the time, unless that is lost. -/
theorem since?_of_parseLogStreamStart {κ : Type} {parseCursor : String → Option κ}
    {opts : RHash ω} {start : LogStreamStart κ} (hnone : optString opts "from_cursor" = .ok none)
    (h : parseLogStreamStart parseCursor c opts = .ok start) :
    ∃ x, optF64 opts "since_ms" = .ok x ∧ start.since? = x.bind (msToDatetime c) := by
  rw [parseLogStreamStart, hnone, Except.ok_bind] at h
  obtain ⟨x, hx, h⟩ := Except.bind_eq_ok_iff.mp h
  refine ⟨x, hx, ?_⟩
  cases hbound : x.bind (msToDatetime c) with
  | none =>
    rw [hbound] at h
    obtain rfl := Except.ok.inj h
    rfl
  | some t =>
    rw [hbound] at h
    obtain rfl := Except.ok.inj h
    rfl

/-- The bound is the conversion of the time. -/
theorem Bounds.eq_msToDatetime {v : Value ω} {bound : Option DateTime} {ms : ℚ}
    (h : Bounds c v bound) (hgiven : GivenMs v ms) :
    ∃ hp hlt, bound = msToDatetime c (.finite ms hp hlt) := by
  cases h with
  | logsSince call parse =>
    obtain ⟨hp, hlt, hread⟩ := optF64_of_givenMs hgiven (holdsTimes_of_logs call).since
    obtain ⟨⟨x, hx, heq⟩, -⟩ := times_of_parseLogOptions parse
    obtain rfl := Except.ok.inj (hread.symm.trans hx)
    exact ⟨hp, hlt, heq⟩
  | logsUntil call parse =>
    obtain ⟨hp, hlt, hread⟩ := optF64_of_givenMs hgiven (holdsTimes_of_logs call).until
    obtain ⟨-, x, hx, heq⟩ := times_of_parseLogOptions parse
    obtain rfl := Except.ok.inj (hread.symm.trans hx)
    exact ⟨hp, hlt, heq⟩
  -- A cursor would take the place of `since:`.
  | streamSince noCursor call parse =>
    obtain ⟨htimes, hcursor⟩ := holdsTimes_of_logStream call
    obtain ⟨hp, hlt, hread⟩ := optF64_of_givenMs hgiven htimes.since
    rw [strIf, noCursor, if_neg Bool.false_ne_true] at hcursor
    obtain ⟨x, hx, heq⟩ :=
      since?_of_parseLogStreamStart (opt_eq_none hcursor) (times_of_parseLogStreamOptions parse).1
    obtain rfl := Except.ok.inj (hread.symm.trans hx)
    exact ⟨hp, hlt, heq⟩
  | streamUntil call parse =>
    obtain ⟨hp, hlt, hread⟩ := optF64_of_givenMs hgiven (holdsTimes_of_logStream call).1.until
    obtain ⟨-, x, hx, heq⟩ := times_of_parseLogStreamOptions parse
    obtain rfl := Except.ok.inj (hread.symm.trans hx)
    exact ⟨hp, hlt, heq⟩

/-- A bound is exact if the time it was given for is in time. -/
theorem exact_iff {v : Value ω} {bound : Option DateTime} (h : Bounds c v bound) :
    Exact v bound ↔ ∀ ms, GivenMs v ms → InTime c ms := by
  refine forall_congr' fun ms => forall_congr' fun hgiven => ?_
  obtain ⟨hp, hlt, rfl⟩ := h.eq_msToDatetime hgiven
  exact msToDatetime_exact_iff

end Bounds

/-- A bound denotes the time that is given, up to a nanosecond, exactly when that time is in the
range of chrono, has no part of a second before the epoch, and does not round up to a full second
other than a leap second. A later time never gives an earlier bound. -/
theorem log_time_filters_exact_iff [Methods ω] [Numeric ω] [Floats ω] (c : Chrono) :
    (∀ (v : Value ω) (bound : Option DateTime), Bounds c v bound →
      (Exact v bound ↔ ∀ ms, GivenMs v ms → InTime c ms)) ∧
    ∀ (v v' : Value ω) (ms ms' : ℚ) (t t' : DateTime), Bounds c v (some t) →
      Bounds c v' (some t') → GivenMs v ms → GivenMs v' ms' → ms ≤ ms' → t.Le t' := by
  refine ⟨fun v bound => exact_iff, ?_⟩
  intro v v' ms ms' t t' hbound hbound' hgiven hgiven' hle
  obtain ⟨hp, hlt, ht⟩ := hbound.eq_msToDatetime hgiven
  obtain ⟨hp', hlt', ht'⟩ := hbound'.eq_msToDatetime hgiven'
  exact msToDatetime_mono hle ht.symm ht'.symm

/-! Floats as the only other objects. -/

instance : Methods F64 where
  toS _ := "…"
  toSym _ := none
  toA x := [.obj x]
  className _ := "Float"
  inspect _ := "…"

/-- `Float#to_i`, for a number. -/
def floatToI : F64 → Except Exception ℤ
  | .finite q _ _ => .ok (F64.truncInt q)
  | .infinity _ => .error (.custom "FloatDomainError" "Infinity")
  | .nan => .error (.custom "FloatDomainError" "NaN")

instance : Numeric F64 where
  toInt := floatToI
  integer := floatToI
  float v :=
    match v with
    | .obj x => .ok x
    | .int n => .ok (F64.ofInt n)
    | _ => .error (.typeError "Float")
  isDuration x :=
    match x with
    | .finite q _ _ => decide (0 ≤ q)
    | _ => false

instance : Floats F64 where
  toF64 := .ok

/-- The years from -262143 to 262142. -/
def chronoRange : Chrono where
  minSecs := -8334601228800
  maxSecs := 8210266876799
  lt_minSecs := by norm_num
  maxSecs_lt := by norm_num

/-- A whole number of milliseconds, as a Float. -/
def msFloat (n : ℤ) (h : |n| ≤ 2 ^ 53) : F64 :=
  .finite n (Binary64.precise_intCast h) (F64.lt_overflow_of_abs_le (by exact_mod_cast h))

/-- The bound of a float. -/
theorem bounds_logs (x : F64) : Bounds chronoRange (.obj x) (msToDatetime chronoRange x) := by
  have hcall : logs .nil (.obj x) .nil .nil = .ok (insertSome ∅ "since_ms" (some (.obj x))) := rfl
  have hparse : parseLogOptions chronoRange
      (strEntries (insertSome ∅ "since_ms" (some (.obj x : Value F64)))) =
      .ok ⟨none, msToDatetime chronoRange x, none, []⟩ := rfl
  exact .logsSince hcall hparse

/-- A float gives its own value. -/
theorem givenMs_obj {q : ℚ} {hp : Binary64.Precise q} {hlt : |q| < 2 ^ 1024} {ms : ℚ} :
    GivenMs (.obj (.finite q hp hlt) : Value F64) ms ↔ ms = q := by
  constructor
  · rintro ⟨-, o, _, _, hfloat, hms⟩
    obtain rfl := Except.ok.inj hfloat
    cases Except.ok.inj hms
    rfl
  · rintro rfl
    exact ⟨rfl, _, hp, hlt, rfl, rfl⟩

/-- A time from the epoch on, which is kept. -/
theorem log_time_filters_exact_iff_from_epoch :
    ∃ (v : Value F64) (bound : Option DateTime), GivenMs v 1500 ∧ Bounds chronoRange v bound ∧
      Exact v bound := by
  have hle : |(1500 : ℤ)| ≤ 2 ^ 53 := by norm_num
  refine ⟨.obj (msFloat 1500 hle), _, givenMs_obj.mpr (by norm_num), bounds_logs _, ?_⟩
  refine ((log_time_filters_exact_iff chronoRange).1 _ _ (bounds_logs _)).mpr ?_
  intro ms hgiven
  obtain rfl := givenMs_obj.mp hgiven
  have hsecs : secsOf (1500 : ℤ) = 1 := by
    norm_num [secsOf, F64.truncInt]
  rw [InTime, nanosOf, hsecs]
  norm_num [chronoRange, roundsUpFrom, halfBefore]

/-- A second and a half before the epoch is taken for one second before it, and a stream that is
given a time beyond the range of chrono starts at the beginning. -/
theorem log_time_filters_inexact :
    (∃ (v : Value F64) (bound : Option DateTime), GivenMs v (-1500) ∧
      Bounds chronoRange v bound ∧ ¬Exact v bound) ∧
    ∃ (v : Value F64) (opts : Opts F64) (options : LogStreamOptions Unit),
      GivenMs v (10 ^ 16) ∧ logStream .nil v .nil .nil .nil = .ok opts ∧
        parseLogStreamOptions (fun _ => none) chronoRange (strEntries opts) = .ok options ∧
        options.start = .beginning := by
  constructor
  · have hle : |(-1500 : ℤ)| ≤ 2 ^ 53 := by norm_num
    refine ⟨.obj (msFloat (-1500) hle), _, givenMs_obj.mpr (by norm_num), bounds_logs _, ?_⟩
    rw [exact_iff (bounds_logs _)]
    intro h
    have hin := h (-1500 : ℤ) (givenMs_obj.mpr rfl)
    have hsecs : secsOf (-1500 : ℤ) = -1 := by
      norm_num [secsOf, F64.truncInt]
    rw [InTime, nanosOf, hsecs] at hin
    norm_num at hin
  -- A time after the last date of the core: the bound is dropped without a word.
  · have hp : Binary64.Precise (10 ^ 16) := ⟨5 ^ 16, 16, by norm_num, by norm_num, by norm_num⟩
    have hlt : |(10 ^ 16 : ℚ)| < 2 ^ 1024 :=
      (by norm_num : |(10 ^ 16 : ℚ)| < 2 ^ 54).trans (pow_lt_pow_right₀ one_lt_two (by norm_num))
    have hlost : msToDatetime chronoRange (.finite (10 ^ 16) hp hlt) = none :=
      (msToDatetime_of_large (by norm_num)).1
    let v : Value F64 := .obj (.finite (10 ^ 16) hp hlt)
    let opts : Opts F64 := insertSome ∅ "since_ms" (some v)
    have hcursor : optString (strEntries opts) "from_cursor" = .ok none := rfl
    have hsince : optF64 (strEntries opts) "since_ms" = .ok (some (.finite (10 ^ 16) hp hlt)) := rfl
    have hstart : parseLogStreamStart (fun _ => (none : Option Unit)) chronoRange
        (strEntries opts) = .ok .beginning := by
      rw [parseLogStreamStart, hcursor, Except.ok_bind]
      dsimp only
      rw [hsince, Except.ok_bind, Option.bind_some, hlost]
      rfl
    refine ⟨v, opts, ⟨[], .beginning, none, false⟩, givenMs_obj.mpr rfl, rfl, ?_, rfl⟩
    rw [parseLogStreamOptions, hstart]
    rfl

end MicrosandboxRb.Logs
