import HttpStub.Cli.Args
import HttpStub.Session.Server
import HttpStub.Proofs.Pool

/-!
# Settings a server runs on

The settings of a server come from the environment and then from the
command line, each laid over the last.  Both read numbers as decimal
numerals within integer bounds and names as names of known choices, so
whatever the environment holds, and whatever a command line that asks to
run holds, the settings are valid: every number a whole number in its range,
every name the name of a choice, the host not empty, and the read settings
at their defaults.

On valid settings the worker pool is made with the concurrency asked for,
a server is built without failure, and the route table is one of the
built-in tables.

The ranges are below `2^53`, where a double and the integer it is nearest
to agree, so the bounds are checked on the exact integers.
-/

namespace HttpStub

/-- A number read within bounds: the value is a decimal numeral after
trimming, and its nearest double is not outside the bounds. -/
theorem parseIntInRange_eq_some {value : Option String} {lo hi d : Double} :
    parseIntInRange value lo hi = some d ↔
      ∃ v n, value = some v ∧ Decimal.parse? (Blank.trim v) = some n ∧ Double.ofNat n = d ∧
        (Double.ofNat n).lt lo = false ∧ hi.lt (Double.ofNat n) = false := by
  unfold parseIntInRange
  cases value with
  | none => simp
  | some v =>
    cases parsed : Decimal.parse? (Blank.trim v) with
    | none => simp [parsed]
    | some n =>
      simp only [Option.bind_eq_bind, Option.bind_some, parsed, Option.some.injEq]
      cases below : (Double.ofNat n).lt lo <;> cases above : hi.lt (Double.ofNat n) <;>
        simp [parsed, below, above]

theorem getD_of_forall_mem {α : Type} {P : α → Prop} {o : Option α} {a : α}
    (given : ∀ x ∈ o, P x) (fallback : P a) : P (o.getD a) := by
  cases o with
  | none => exact fallback
  | some x => exact given x rfl

namespace Double

theorem roundedNat_of_lt {n : Nat} (small : n < 2 ^ 53) : roundedNat n = n := by
  have unit : Nat.log2 n - 52 = 0 := by
    rcases Nat.eq_zero_or_pos n with zero | pos
    · simp [zero, Nat.log2_zero]
    · have bits := (Nat.log2_lt (by omega)).2 small
      omega
  simpa [roundedNat, unit] using roundMultiple_mul 0 n

theorem rank_ofNat_of_lt {n : Nat} (small : n < 2 ^ 53) : (ofNat n).rank = ((n : ℝ) : EReal) := by
  rw [rank_ofNat, roundedNat_of_lt small, if_pos (by omega)]

theorem lt_ofNat_ofNat_iff {n k : Nat} (hn : n < 2 ^ 53) (hk : k < 2 ^ 53) :
    (ofNat n).lt (ofNat k) = true ↔ n < k := by
  rw [lt_eq_true_iff, rank_ofNat_of_lt hn, rank_ofNat_of_lt hk]
  simp

theorem isInteger_ofNat {n : Nat} (small : n < 2 ^ 53) : (ofNat n).isInteger = true := by
  rcases Nat.eq_zero_or_pos n with zero | pos
  · have exact : ofNat 0 = .finite false 0 0 := by simp [ofNat, ofRatio]
    rw [zero, exact]
    rfl
  · have bits : Nat.log2 n ≤ 52 := by
      have below := (Nat.log2_lt (by omega)).2 small
      omega
    have gap : ((Nat.log2 n : Int) - 52).natAbs = 52 - Nat.log2 n := by omega
    rw [ofNat_of_small n pos bits]
    simp [isInteger, gap, Nat.pow_eq, Nat.mul_mod_left]

theorem truncate_ofNat {n : Nat} (small : n < 2 ^ 53) : (ofNat n).truncate = n := by
  rcases Nat.eq_zero_or_pos n with zero | pos
  · have exact : ofNat 0 = .finite false 0 0 := by simp [ofNat, ofRatio]
    rw [zero, exact]
    rfl
  · have bits : Nat.log2 n ≤ 52 := by
      have below := (Nat.log2_lt (by omega)).2 small
      omega
    have gap : ((Nat.log2 n : Int) - 52).natAbs = 52 - Nat.log2 n := by omega
    rw [ofNat_of_small n pos bits]
    by_cases top : Nat.log2 n = 52
    · simp [truncate, signed, top]
    · have under : ¬ 52 ≤ Nat.log2 n := by omega
      simp [truncate, signed, under, gap, Nat.pow_eq, Nat.mul_div_cancel _ (Nat.two_pow_pos _)]

/-- A double that is exactly a whole number from `lo` to `hi`. -/
def WholeIn (lo hi : Nat) (d : Double) : Prop :=
  ∃ n, lo ≤ n ∧ n ≤ hi ∧ d = ofNat n

theorem wholeIn_ofNat {lo hi n : Nat} (least : lo ≤ n) (most : n ≤ hi) : (ofNat n).WholeIn lo hi :=
  ⟨n, least, most, rfl⟩

/-- A number read within whole bounds below `2^52` is a whole number within
them: a numeral past the upper bound has a double past it too, however
large the numeral. -/
theorem wholeIn_of_parseIntInRange {value : Option String} {lo hi : Nat} {d : Double}
    (ordered : lo ≤ hi) (high : hi < 2 ^ 52)
    (read : parseIntInRange value (ofNat lo) (ofNat hi) = some d) : d.WholeIn lo hi := by
  obtain ⟨v, n, -, -, rfl, below, above⟩ := parseIntInRange_eq_some.1 read
  have least : lo ≤ n := by
    by_contra under
    have smaller : (ofNat n).lt (ofNat lo) = true :=
      (lt_ofNat_ofNat_iff (by omega) (by omega)).2 (by omega)
    rw [smaller] at below
    cases below
  have most : n ≤ hi := by
    by_contra beyond
    have next : (ofNat hi).lt (ofNat (hi + 1)) = true :=
      (lt_ofNat_ofNat_iff (by omega) (by omega)).2 (by omega)
    have larger : (ofNat hi).lt (ofNat n) = true := by
      rw [lt_eq_true_iff] at next ⊢
      exact lt_of_lt_of_le next (rank_ofNat_mono (by omega))
    rw [larger] at above
    cases above
  exact wholeIn_ofNat least most

end Double

/-- The pool asked for with a whole concurrency of at least one is made, and
runs up to that many tasks. -/
theorem WorkerPool.create_ofNat {τ ω : Type} {n : Nat} (positive : 1 ≤ n) (small : n < 2 ^ 53)
    (queueBound : Double) :
    WorkerPool.create (some (Double.ofNat n)) queueBound =
      (.ok (WorkerPool.fresh n queueBound) : Except Failure (WorkerPool τ ω)) := by
  have integer := Double.isInteger_ofNat small
  have atLeastOne : Double.le 1 (Double.ofNat n) = true := Double.le_ofNat_ofNat positive
  rw [WorkerPool.create, if_pos (by rw [integer, atLeastOne]; rfl), Double.truncate_ofNat small]
  rfl

theorem DispatchMode.name_mem (m : DispatchMode) : m.name ∈ ["sequential", "concurrent"] := by
  cases m <;> simp [name]

theorem RouteTableName.name_mem (t : RouteTableName) : t.name ∈ ["plain", "json"] := by
  cases t <;> simp [name]

theorem EmptyRequestPolicy.name_mem (p : EmptyRequestPolicy) : p.name ∈ ["not-found", "close"] := by
  cases p <;> simp [name]

theorem LogLevel.name_mem (l : LogLevel) : l.name ∈ ["debug", "info", "warn", "error"] := by
  cases l <;> simp [name]

theorem RouteTableName.ofName?_isSome {s : String} (named : s ∈ ["plain", "json"]) :
    (ofName? s).isSome = true := by
  simp only [List.mem_cons, List.not_mem_nil, or_false] at named
  rcases named with plain | json
  · rw [plain]
    rfl
  · rw [json]
    rfl

namespace ServerConfig

/-- Settings a server runs on: every number a whole number in its range,
every name the name of a known choice, the host not empty, and the read
settings at their defaults. -/
structure Valid (c : ServerConfig) : Prop where
  port : c.port.WholeIn 0 65535
  host : c.host ≠ ""
  dispatch : c.dispatch ∈ ["sequential", "concurrent"]
  maxConcurrency : c.maxConcurrency.WholeIn 1 65535
  maxPendingConnections : c.maxPendingConnections.WholeIn 0 1000000
  routes : c.routes ∈ ["plain", "json"]
  emptyRequest : c.emptyRequest ∈ ["not-found", "close"]
  logLevel : c.logLevel ∈ ["debug", "info", "warn", "error"]
  readBufferSize : c.readBufferSize = 1024
  readTimeoutMs : c.readTimeoutMs = 0

theorem resolvePort_wholeIn (env : Env) : (resolvePort env).WholeIn 1 65535 :=
  getD_of_forall_mem (fun _ read => Double.wholeIn_of_parseIntInRange (by decide) (by decide) read)
    ⟨8080, by decide, by decide, rfl⟩

/-- Whatever the environment holds, the settings it gives are valid, with a
port from 1. -/
theorem ofEnv_valid (env : Env) : (ofEnv env).Valid ∧ (ofEnv env).port.WholeIn 1 65535 := by
  have port := resolvePort_wholeIn env
  refine ⟨⟨?_, ?_, DispatchMode.name_mem _, ?_, ?_, RouteTableName.name_mem _,
    EmptyRequestPolicy.name_mem _, LogLevel.name_mem _, rfl, rfl⟩, port⟩
  · obtain ⟨n, -, most, same⟩ := port
    exact ⟨n, Nat.zero_le n, most, same⟩
  · unfold ofEnv
    dsimp only
    split
    · next h =>
      split_ifs with blank
      · decide
      · exact String.isEmpty_eq_false_iff.1 (by simpa using blank)
    · decide
  · exact getD_of_forall_mem
      (fun _ read => Double.wholeIn_of_parseIntInRange (by decide) (by decide) read)
      ⟨64, by decide, by decide, rfl⟩
  · exact getD_of_forall_mem
      (fun _ read => Double.wholeIn_of_parseIntInRange (by decide) (by decide) read)
      ⟨1024, by decide, by decide, rfl⟩

end ServerConfig

namespace CliOptions

/-- Options a command line can give: a port from 0 to 65535, a host that is
not empty, the name of a dispatch mode, a concurrency from 1 to 65535, and
the name of a route table. -/
structure Checked (o : CliOptions) : Prop where
  port : ∀ p ∈ o.port, p.WholeIn 0 65535
  host : ∀ h ∈ o.host, h ≠ ""
  dispatch : ∀ d ∈ o.dispatch, d ∈ ["sequential", "concurrent"]
  maxConcurrency : ∀ n ∈ o.maxConcurrency, n.WholeIn 1 65535
  routes : ∀ t ∈ o.routes, t ∈ ["plain", "json"]

theorem checked_empty : ({} : CliOptions).Checked :=
  ⟨by simp, by simp, by simp, by simp, by simp⟩

/-- What reading a flag keeps: it sets checked options, or it ends the
reading with something other than options to run. -/
def Effect.Keeps : Effect → Prop
  | .set o _ => o.Checked
  | .stop result => ∀ o, result ≠ .run o

theorem readFlag_keeps {o : CliOptions} (checked : o.Checked) (arg : String) (value : Option String) :
    (o.readFlag arg value).Keeps := by
  unfold readFlag
  split_ifs
  · split
    · next p read =>
      exact { checked with
        port := by simpa using Double.wholeIn_of_parseIntInRange (by decide) (by decide) read }
    · exact fun _ => nofun
  · split
    · next h =>
      split_ifs with blank
      · exact fun _ => nofun
      · exact { checked with
          host := by simpa using String.isEmpty_eq_false_iff.1 (by simpa using blank) }
    · exact fun _ => nofun
  · split
    · next m _ => exact { checked with dispatch := by simpa using m.name_mem }
    · exact fun _ => nofun
  · split
    · next n read =>
      exact { checked with
        maxConcurrency := by simpa using Double.wholeIn_of_parseIntInRange (by decide) (by decide) read }
    · exact fun _ => nofun
  · split
    · next t _ => exact { checked with routes := by simpa using t.name_mem }
    · exact fun _ => nofun
  · exact { checked with }
  · exact fun _ => nofun
  · exact fun _ => nofun
  · exact fun _ => nofun

/-- Reading the rest of a command line over checked options ends, if it asks
to run, with checked options. -/
theorem checked_of_parseFrom {o o' : CliOptions} {args : List String} (checked : o.Checked)
    (read : o.parseFrom args = .run o') : o'.Checked := by
  induction o, args using parseFrom.induct with
  | case1 o =>
    rw [parseFrom] at read
    cases read
    exact checked
  | case2 o arg rest result stopped =>
    have keeps := readFlag_keeps checked arg rest.head?
    rw [stopped] at keeps
    simp only [parseFrom, stopped] at read
    exact absurd read (keeps o')
  | case3 o arg rest next set more =>
    have keeps := readFlag_keeps checked arg rest.head?
    rw [set] at keeps
    simp only [parseFrom, set] at read
    exact more keeps read
  | case4 o arg rest next set more =>
    have keeps := readFlag_keeps checked arg rest.head?
    rw [set] at keeps
    simp only [parseFrom, set] at read
    exact more keeps read

theorem checked_of_parse {args : List String} {o : CliOptions} (read : parse args = .run o) :
    o.Checked :=
  checked_of_parseFrom checked_empty read

/-- Checked options laid over valid settings leave them valid. -/
theorem Checked.applyTo {o : CliOptions} {c : ServerConfig} (checked : o.Checked) (valid : c.Valid) :
    (o.applyTo c).Valid where
  port := getD_of_forall_mem checked.port valid.port
  host := getD_of_forall_mem checked.host valid.host
  dispatch := getD_of_forall_mem checked.dispatch valid.dispatch
  maxConcurrency := getD_of_forall_mem checked.maxConcurrency valid.maxConcurrency
  maxPendingConnections := valid.maxPendingConnections
  routes := getD_of_forall_mem checked.routes valid.routes
  emptyRequest := valid.emptyRequest
  logLevel := valid.logLevel
  readBufferSize := valid.readBufferSize
  readTimeoutMs := valid.readTimeoutMs

end CliOptions

namespace ServerConfig

variable {c : ServerConfig}

theorem Valid.create_pool {τ ω : Type} (valid : c.Valid) :
    ∃ n, c.maxConcurrency = Double.ofNat n ∧
      WorkerPool.create (some c.maxConcurrency) c.maxPendingConnections =
        (.ok (WorkerPool.fresh n c.maxPendingConnections) : Except Failure (WorkerPool τ ω)) := by
  obtain ⟨n, least, most, same⟩ := valid.maxConcurrency
  refine ⟨n, same, ?_⟩
  rw [same]
  exact WorkerPool.create_ofNat least (by omega) _

theorem Valid.dispatcherFor_ok (valid : c.Valid) (w : Machine.World) :
    ∃ d, ((Session.Server.dispatcherFor c).run w).1 = .ok d := by
  unfold Session.Server.dispatcherFor
  split
  · exact ⟨_, rfl⟩
  · obtain ⟨n, -, made⟩ := valid.create_pool (τ := Nat) (ω := Async.CellId)
    rw [made]
    exact ⟨_, rfl⟩

theorem Valid.run_ok (valid : c.Valid) (router : Option RouteTable) (bindError : Option String)
    (ops : List Session.Server.Op) : ∃ reports, Session.Server.run c router bindError ops = .ok reports := by
  obtain ⟨d, made⟩ := valid.dispatcherFor_ok { bindError := bindError.map Failure.plain }
  rcases built : (Session.Server.dispatcherFor c).run { bindError := bindError.map Failure.plain }
    with ⟨result, w⟩
  rw [built] at made
  cases made
  unfold Session.Server.run
  dsimp only
  rw [built]
  exact ⟨_, rfl⟩

end ServerConfig

/-- A command line that asks to run gives, over any environment, settings
the server runs on: valid in every field, with a port from 1 when the
command line gives none; the worker pool is made with the concurrency asked
for, a server is built on them without failure, and their route table is
one of the built-in tables. -/
theorem command_line_settings_valid (env : Env) (args : List String) (options : CliOptions)
    (read : CliOptions.parse args = .run options) :
    let c := options.applyTo (ServerConfig.ofEnv env)
    c.Valid ∧ (options.port = none → c.port.WholeIn 1 65535) ∧
      (∀ τ ω : Type, ∃ n, c.maxConcurrency = Double.ofNat n ∧
        WorkerPool.create (some c.maxConcurrency) c.maxPendingConnections =
          (.ok (WorkerPool.fresh n c.maxPendingConnections) : Except Failure (WorkerPool τ ω))) ∧
      (∀ router bindError ops, ∃ reports, Session.Server.run c router bindError ops = .ok reports) ∧
      (RouteTableName.ofName? c.routes).isSome = true := by
  intro c
  have fromEnv := ServerConfig.ofEnv_valid env
  have valid : c.Valid := (CliOptions.checked_of_parse read).applyTo fromEnv.1
  refine ⟨valid, fun unset => ?_, fun τ ω => valid.create_pool, valid.run_ok,
    RouteTableName.ofName?_isSome valid.routes⟩
  show (options.port.getD (ServerConfig.ofEnv env).port).WholeIn 1 65535
  rw [unset]
  exact fromEnv.2

theorem command_line_settings_valid_sample :
    CliOptions.parse ["--port", "0", "-d", "concurrent", "--max-concurrency", "8"] =
        .run { port := some 0, dispatch := some "concurrent", maxConcurrency := some 8 } ∧
      (({ port := some 0, dispatch := some "concurrent", maxConcurrency := some 8 } : CliOptions).applyTo
        (ServerConfig.ofEnv fun _ => some " 99999 ")).Valid := by
  have port : parseIntInRange (some "0") 0 65535 = some 0 := by decide
  have concurrency : parseIntInRange (some "8") 1 65535 = some 8 := by decide
  have read : CliOptions.parse ["--port", "0", "-d", "concurrent", "--max-concurrency", "8"] =
      .run { port := some 0, dispatch := some "concurrent", maxConcurrency := some 8 } := by
    simp [CliOptions.parse, CliOptions.parseFrom, CliOptions.readFlag, port, concurrency,
      DispatchMode.ofName?, DispatchMode.name]
  exact ⟨read, (command_line_settings_valid _ _ _ read).1⟩

end HttpStub
