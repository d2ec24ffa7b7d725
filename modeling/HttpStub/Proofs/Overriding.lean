import HttpStub.Cli.Args

namespace HttpStub

/-!
# Reading a command line in pieces

A command line is read flag by flag, left to right.  A flag that takes a
value takes the argument after it, and a flag read later sets its option
over the one read earlier.  Reading is therefore a left fold over whole
flag groups: options laid over options.

What makes this hold at a seam between two command lines is that a
command line that asks to run has every flag's value inside it: a flag that
takes a value and stands last ends the reading with an error.  So no flag
of the first line borrows an argument of the second, and reading both reads
the second over the options of the first.  `readFlag_cases` says once what
one flag can do, and the facts about one flag follow from it.

Main statement, `command_line_reads_left_to_right`: when a command line
asks to run with options `o₁`, the line followed by any other reads as that
other line's options laid over `o₁`, or, when the other line does not ask
to run, as that line alone, with its help, version or error; and laying
options over a configuration in two steps is laying them in one.
-/

namespace CliOptions

/-- Options laid over others: every option the later ones set wins, and the
earlier ones give the rest. -/
def override (o₁ o₂ : CliOptions) : CliOptions where
  port := o₂.port.or o₁.port
  host := o₂.host.or o₁.host
  dispatch := o₂.dispatch.or o₁.dispatch
  maxConcurrency := o₂.maxConcurrency.or o₁.maxConcurrency
  routes := o₂.routes.or o₁.routes
  quiet := o₂.quiet.or o₁.quiet

@[simp] theorem override_empty (o : CliOptions) : o.override {} = o := rfl

/-- What reading a flag does over options laid under `o`. -/
def Effect.over (o : CliOptions) : Effect → Effect
  | .set o' takesValue => .set (o.override o') takesValue
  | .stop result => .stop result

end CliOptions

/-- A reading's result over options laid under `o`: options to run on are
laid over `o`, and help, version and errors stay as they are. -/
def ParseResult.over (o : CliOptions) : ParseResult → ParseResult
  | .run o' => .run (o.override o')
  | r => r

namespace CliOptions

variable {o o' : CliOptions} {arg : String}

/-! ## One flag -/

theorem override_assoc (o₁ o₂ o₃ : CliOptions) :
    (o₁.override o₂).override o₃ = o₁.override (o₂.override o₃) := by
  simp [override, Option.or_assoc]

/-- What reading one flag can do, whatever the options read before it: end
the reading with help, the version or an error; set options from the
argument after it, which must be there; or set options without looking at
the argument after it. -/
theorem readFlag_cases (arg : String) (value : Option String) :
    (∃ result, (∀ o : CliOptions, o.readFlag arg value = .stop result) ∧ ∀ o', result ≠ .run o') ∨
    (∃ o', value.isSome ∧ ∀ o : CliOptions, o.readFlag arg value = .set (o.override o') true) ∨
    (∃ o', ∀ (o : CliOptions) (value' : Option String), o.readFlag arg value' = .set (o.override o') false) := by
  by_cases port : (arg == "--port" || arg == "-p") = true
  · cases parsed : parseIntInRange value 0 65535 with
    | some p =>
      refine .inr (.inl ⟨{ port := some p }, ?_, fun o => ?_⟩)
      · cases value <;> simp_all [parseIntInRange]
      · simp only [readFlag, port, parsed, ↓reduceIte]; rfl
    | none =>
      exact .inl ⟨_, fun o => by simp only [readFlag, port, parsed, ↓reduceIte]; rfl, by simp⟩
  by_cases host : (arg == "--host" || arg == "-H") = true
  · cases value with
    | some h =>
      by_cases blank : h.isEmpty = true
      · exact .inl ⟨_, fun o => by simp only [readFlag, port, host, blank, Bool.false_eq_true, ↓reduceIte]; rfl, by simp⟩
      · refine .inr (.inl ⟨{ host := some h }, rfl, fun o => ?_⟩)
        simp only [readFlag, port, host, blank, Bool.false_eq_true, ↓reduceIte]; rfl
    | none =>
      exact .inl ⟨_, fun o => by simp only [readFlag, port, host, Bool.false_eq_true, ↓reduceIte]; rfl, by simp⟩
  by_cases dispatch : (arg == "--dispatch" || arg == "-d") = true
  · cases chosen : value.bind DispatchMode.ofName? with
    | some d =>
      refine .inr (.inl ⟨{ dispatch := some d.name }, ?_, fun o => ?_⟩)
      · cases value <;> simp_all
      · simp only [readFlag, port, host, dispatch, chosen, Bool.false_eq_true, ↓reduceIte]; rfl
    | none =>
      exact .inl ⟨_, fun o => by simp only [readFlag, port, host, dispatch, chosen, Bool.false_eq_true, ↓reduceIte]; rfl, by simp⟩
  by_cases workers : (arg == "--max-concurrency") = true
  · cases parsed : parseIntInRange value 1 65535 with
    | some n =>
      refine .inr (.inl ⟨{ maxConcurrency := some n }, ?_, fun o => ?_⟩)
      · cases value <;> simp_all [parseIntInRange]
      · simp only [readFlag, port, host, dispatch, workers, parsed, Bool.false_eq_true, ↓reduceIte]; rfl
    | none =>
      exact .inl ⟨_, fun o => by simp only [readFlag, port, host, dispatch, workers, parsed, Bool.false_eq_true, ↓reduceIte]; rfl, by simp⟩
  by_cases routes : (arg == "--routes") = true
  · cases chosen : value.bind RouteTableName.ofName? with
    | some t =>
      refine .inr (.inl ⟨{ routes := some t.name }, ?_, fun o => ?_⟩)
      · cases value <;> simp_all
      · simp only [readFlag, port, host, dispatch, workers, routes, chosen, Bool.false_eq_true, ↓reduceIte]; rfl
    | none =>
      exact .inl ⟨_, fun o => by simp only [readFlag, port, host, dispatch, workers, routes, chosen, Bool.false_eq_true, ↓reduceIte]; rfl, by simp⟩
  by_cases quiet : (arg == "--quiet" || arg == "-q") = true
  · refine .inr (.inr ⟨{ quiet := some true }, fun o value' => ?_⟩)
    simp only [readFlag, port, host, dispatch, workers, routes, quiet, Bool.false_eq_true, ↓reduceIte]; rfl
  by_cases version : (arg == "--version" || arg == "-v") = true
  · refine .inl ⟨.version, fun o => ?_, by simp⟩
    simp only [readFlag, port, host, dispatch, workers, routes, quiet, version, Bool.false_eq_true, ↓reduceIte]
  by_cases help : (arg == "--help" || arg == "-h") = true
  · refine .inl ⟨.help, fun o => ?_, by simp⟩
    simp only [readFlag, port, host, dispatch, workers, routes, quiet, version, help, Bool.false_eq_true,
      ↓reduceIte]
  · exact .inl ⟨_, fun o => by simp only [readFlag, port, host, dispatch, workers, routes, quiet, version, help, Bool.false_eq_true, ↓reduceIte]; rfl, by simp⟩

/-- A flag reads the same over options laid under others: it sets the same
option, or stops with the same result. -/
theorem readFlag_override (o o' : CliOptions) (arg : String) (value : Option String) :
    (o.override o').readFlag arg value = (o'.readFlag arg value).over o := by
  rcases readFlag_cases arg value with ⟨result, stops, -⟩ | ⟨o'', -, sets⟩ | ⟨o'', sets⟩
  · rw [stops, stops]
    rfl
  · rw [sets, sets, Effect.over, override_assoc]
  · rw [sets, sets, Effect.over, override_assoc]

/-- A flag that ends the reading ends it with help, the version or an
error, never with options to run on. -/
theorem readFlag_stop {value : Option String} {result : ParseResult}
    (stops : o.readFlag arg value = .stop result) (o'' : CliOptions) : result ≠ .run o'' := by
  rcases readFlag_cases arg value with ⟨result', stops', never⟩ | ⟨o', -, sets⟩ | ⟨o', sets⟩
  · rw [stops' o, Effect.stop.injEq] at stops
    exact stops ▸ never o''
  · rw [sets o] at stops
    cases stops
  · rw [sets o value] at stops
    cases stops

theorem readFlag_set_false {value : Option String} (sets : o.readFlag arg value = .set o' false)
    (value' : Option String) : o.readFlag arg value' = .set o' false := by
  rcases readFlag_cases arg value with ⟨result, stops, -⟩ | ⟨o'', -, sets'⟩ | ⟨o'', sets'⟩
  · rw [stops o] at sets
    cases sets
  · rw [sets' o, Effect.set.injEq] at sets
    cases sets.2
  · rw [sets' o value] at sets
    rw [sets' o value', sets]

theorem readFlag_none (o o' : CliOptions) (arg : String) : o.readFlag arg none ≠ .set o' true := by
  rcases readFlag_cases arg none with ⟨result, stops, -⟩ | ⟨o'', given, -⟩ | ⟨o'', sets⟩
  · rw [stops o]
    exact Effect.noConfusion
  · cases given
  · rw [sets o none, ne_eq, Effect.set.injEq]
    exact fun same => Bool.false_ne_true same.2

/-! ## Whole command lines -/

theorem parseFrom_override (o o' : CliOptions) (args : List String) :
    (o.override o').parseFrom args = (o'.parseFrom args).over o := by
  induction o', args using parseFrom.induct with
  | case1 o' => simp [parseFrom, ParseResult.over]
  | case2 o' arg rest result stopped =>
    simp only [parseFrom, readFlag_override, stopped, Effect.over]
    cases result with
    | run o'' => exact absurd rfl (readFlag_stop stopped o'')
    | _ => rfl
  | case3 o' arg rest next set more =>
    simp only [parseFrom, readFlag_override, set, Effect.over]
    exact more
  | case4 o' arg rest next set more =>
    simp only [parseFrom, readFlag_override, set, Effect.over]
    exact more

/-- A command line that asks to run has taken every value it reads from
itself, so whatever follows is read after it, over its options. -/
theorem parseFrom_append {a₁ : List String} (read : o.parseFrom a₁ = .run o') (a₂ : List String) :
    o.parseFrom (a₁ ++ a₂) = o'.parseFrom a₂ := by
  induction o, a₁ using parseFrom.induct with
  | case1 o =>
    simp only [parseFrom, ParseResult.run.injEq] at read
    rw [List.nil_append, read]
  | case2 o arg rest result stopped =>
    simp only [parseFrom, stopped] at read
    exact absurd read (readFlag_stop stopped o')
  | case3 o arg rest next set more =>
    obtain ⟨value, rest, rfl⟩ : ∃ value rest', rest = value :: rest' := by
      cases rest with
      | nil => exact absurd set (readFlag_none o next arg)
      | cons value rest' => exact ⟨value, rest', rfl⟩
    simp only [parseFrom, set] at read
    simp only [List.cons_append, parseFrom, List.head?_cons, List.tail_cons]
    rw [show o.readFlag arg (some value) = .set next true from set]
    exact more read
  | case4 o arg rest next set more =>
    simp only [parseFrom, set] at read
    simp only [List.cons_append, parseFrom, readFlag_set_false set]
    exact more read

/-- Laying options over a configuration in two steps is laying the
combined options once. -/
theorem applyTo_override (c : ServerConfig) (o₁ o₂ : CliOptions) :
    (o₁.override o₂).applyTo c = o₂.applyTo (o₁.applyTo c) := by
  simp [applyTo, override, Option.getD_or]

/-- A command line that asks to run, followed by any other: the whole reads
as the other line laid over the first line's options, or as the other line
alone when it does not ask to run; and laying options over a configuration
in two steps is laying them in one. -/
theorem command_line_reads_left_to_right (a₁ a₂ : List String) (o₁ : CliOptions)
    (read : parse a₁ = .run o₁) :
    (∀ o₂, parse a₂ = .run o₂ → parse (a₁ ++ a₂) = .run (o₁.override o₂)) ∧
      ((∀ o₂, parse a₂ ≠ .run o₂) → parse (a₁ ++ a₂) = parse a₂) ∧
      ∀ (c : ServerConfig) (o o' : CliOptions), (o.override o').applyTo c = o'.applyTo (o.applyTo c) := by
  have whole : parse (a₁ ++ a₂) = (parse a₂).over o₁ := by
    calc parse (a₁ ++ a₂) = o₁.parseFrom a₂ := parseFrom_append read a₂
      _ = (o₁.override {}).parseFrom a₂ := by rw [override_empty]
      _ = (parse a₂).over o₁ := parseFrom_override o₁ {} a₂
  refine ⟨fun o₂ runs => by rw [whole, runs]; rfl, fun other => ?_, applyTo_override⟩
  rw [whole]
  cases second : parse a₂ with
  | run o₂ => exact absurd second (other o₂)
  | _ => rfl

/-- A host flag takes the next argument even when it looks like a flag; a
port given after it is laid over it. -/
theorem command_line_reads_left_to_right_host_then_port :
    parse ["--host", "--port"] = .run { host := some "--port" } ∧
      parse ["--host", "--port", "-p", "80"] = .run { host := some "--port", port := some 80 } := by
  have port : parseIntInRange (some "80") 0 65535 = some 80 := by decide
  have first : parse ["--host", "--port"] = .run { host := some "--port" } := by
    simp [parse, parseFrom, readFlag]
  have second : parse ["-p", "80"] = .run { port := some 80 } := by
    simp [parse, parseFrom, readFlag, port]
  exact ⟨first, (command_line_reads_left_to_right _ _ _ first).1 _ second⟩

end CliOptions
end HttpStub
