import Firmware.CommandLine.Workspace
import Firmware.Proofs.CommandLine.Flags
import Firmware.Proofs.Sketch.Output

/-! # What a run changes

A run writes the sketch of an accepted program to one place, and nothing else is written but
the log. If anything fails, no file is touched. -/

namespace Firmware

theorem bind_eq_ok_iff {ε α β : Type} {first : Except ε α} {next : α → Except ε β} {result : β} :
    first >>= next = .ok result ↔ ∃ value, first = .ok value ∧ next value = .ok result := by
  cases first with
  | error error => simp [bind, Except.bind]
  | ok value => simp [bind, Except.bind]

theorem mapError_eq_ok_iff {ε δ α : Type} {outcome : Except ε α} {change : ε → δ} {value : α} :
    outcome.mapError change = .ok value ↔ outcome = .ok value := by
  cases outcome <;> simp [Except.mapError]

theorem toOption_eq_some_iff {ε α : Type} {outcome : Except ε α} {value : α} :
    outcome.toOption = some value ↔ outcome = .ok value := by
  cases outcome <;> simp [Except.toOption]

namespace CommandLine

namespace Workspace

variable {workspace : Workspace} {name other text : String}
  {content later : List UInt8}

/-! ## Files -/

theorem lookup_filter_of_ne (different : other ≠ name) (files : List (String × List UInt8)) :
    (files.filter fun entry => entry.1 ≠ name).lookup other = files.lookup other := by
  induction files with
  | nil => rfl
  | cons entry files induction =>
      by_cases same : entry.1 = name
      · rw [List.filter_cons_of_neg (by simpa using same), induction, List.lookup_cons, same,
          beq_false_of_ne different]
      · rw [List.filter_cons_of_pos (by simpa using same), List.lookup_cons, List.lookup_cons,
          induction]

theorem file?_put (workspace : Workspace) (name : String) (content : List UInt8) :
    (workspace.put name content).file? name = some content := by
  rw [file?, put, List.lookup_cons_self]

theorem file?_put_of_ne (different : other ≠ name) :
    (workspace.put name content).file? other = workspace.file? other := by
  rw [file?, file?, put, List.lookup_cons, beq_false_of_ne different]
  exact lookup_filter_of_ne different workspace.files

/-- Of two contents the later one stays. -/
theorem put_put : (workspace.put name content).put name later = workspace.put name later := by
  simp only [put, List.filter_cons, ne_eq, not_true, decide_false, Bool.false_eq_true, if_false,
    List.filter_filter, Bool.and_self]

/-! ## Paths to files -/

theorem follow_eq_here_iff (workspace : Workspace) {spot : Spot} :
    workspace.follow spot name = .ok .here ↔ spot = .here ∧ name = "." := by
  cases spot with
  | file => simp [follow]
  | outside =>
      simp only [follow]
      split
      · simp
      · split <;> simp
  | here =>
      simp only [follow]
      split
      · simp [*]
      · split
        · simp [*]
        · split
          · simp [*]
          · split <;> simp [*]

/-- Only dots lead back to the directory. -/
theorem foldlM_follow_eq_here_iff {spot : Spot} {names : List String} :
    names.foldlM workspace.follow spot = .ok .here ↔
      spot = .here ∧ ∀ name ∈ names, name = "." := by
  induction names generalizing spot with
  | nil => simp [pure, Except.pure]
  | cons name names induction =>
      rw [List.foldlM_cons, bind_eq_ok_iff, List.forall_mem_cons, ← and_assoc,
        ← follow_eq_here_iff workspace]
      constructor
      · intro reached
        rcases reached with ⟨middle, followed, rest⟩
        rcases induction.mp rest with ⟨rfl, dots⟩
        exact ⟨followed, dots⟩
      · intro stays
        exact ⟨.here, stays.1, induction.mpr ⟨rfl, stays.2⟩⟩

/-- Where a file is put does not depend on the files that are there. -/
theorem target_congr (found : workspace.target text = .ok name) (changed : Workspace) :
    changed.target text = .ok name := by
  rcases bind_eq_ok_iff.mp found with ⟨path, isPath, found⟩
  rcases bind_eq_ok_iff.mp found with ⟨spot, walked, found⟩
  have here : spot = .here := by
    cases spot with
    | here => rfl
    | outside =>
        cases last : path.names.getLast? <;> simp only [last] at found
        · cases found
        · split at found
          · cases found
          · split at found <;> cases found
    | file => cases last : path.names.getLast? <;> simp only [last] at found <;> cases found
  subst here
  have walkedChanged : changed.walk path path.names.dropLast = .ok .here :=
    foldlM_follow_eq_here_iff.mpr (foldlM_follow_eq_here_iff.mp walked)
  exact bind_eq_ok_iff.mpr ⟨path, isPath, bind_eq_ok_iff.mpr ⟨.here, walkedChanged, found⟩⟩

end Workspace

/-! ## Sources and programs -/

/-- The source that an input gives if it can be opened. -/
def Workspace.source? (workspace : Workspace) : Endpoint → Option Source
  | .standard => some (Source.ofBytes "<stdin>" workspace.input)
  | .file path =>
      match workspace.read path with
      | .error _ => none
      | .ok (some bytes) => some (Source.ofBytes path bytes)
      | .ok none => some (Source.unreadable path)

/-- An input can be opened and gives a program that makes sense. -/
def Workspace.Accepts (workspace : Workspace) (input : Endpoint) (program : Program) : Prop :=
  ∃ source tokens table, workspace.source? input = some source ∧ source.tokens = .ok tokens ∧
    parse source.start tokens = .ok program ∧ program.analyze = .ok table

theorem accept_eq_ok_iff {source : Source} {program : Program} :
    source.accept = .ok program ↔ ∃ tokens table, source.tokens = .ok tokens ∧
      parse source.start tokens = .ok program ∧ program.analyze = .ok table := by
  simp only [Source.accept, Source.program, bind_eq_ok_iff, mapError_eq_ok_iff]
  constructor
  · intro accepted
    rcases accepted with ⟨read, ⟨tokens, found, parsed⟩, table, analysed, same⟩
    cases same
    exact ⟨tokens, table, found, parsed, analysed⟩
  · intro accepted
    rcases accepted with ⟨tokens, table, found, parsed, analysed⟩
    exact ⟨program, ⟨tokens, found, parsed⟩, table, analysed, rfl⟩

/-- The program that an input gives, if it can be opened and the program makes sense. -/
def Workspace.accepted? (workspace : Workspace) (input : Endpoint) : Option Program :=
  (workspace.source? input).bind fun source => source.accept.toOption

theorem Workspace.accepted?_eq_some_iff {workspace : Workspace} {input : Endpoint}
    {program : Program} :
    workspace.accepted? input = some program ↔ workspace.Accepts input program := by
  simp only [accepted?, Accepts, Option.bind_eq_some_iff, toOption_eq_some_iff,
    accept_eq_ok_iff, exists_and_left]

/-- All bytes of the sketch are written for a program that makes sense. -/
theorem Workspace.Accepts.compile_eq {workspace : Workspace} {input : Endpoint}
    {program : Program} (accepts : workspace.Accepts input program) :
    program.compile {} = .ok () { written := utf8 program.generate } := by
  rcases accepts with ⟨source, tokens, table, -, -, -, analysed⟩
  rw [Program.compile_of_accepted analysed, Program.emit_eq_write]
  rfl

/-! ## Runs without their log -/

/-- Where the sketch of a program goes. -/
def Options.delivered (options : Options) (program : Program) (workspace : Workspace) :
    Status × Workspace :=
  match options.output with
  | .standard =>
      (.success, { workspace with output := workspace.output ++ utf8 program.generate })
  | .file path =>
      match workspace.target path with
      | .error _ => (.failure, workspace)
      | .ok name => (.success, workspace.put name (utf8 program.generate))

/-- What a run leaves that has found a program or none. -/
def Options.concluded (options : Options) (program : Option Program) (workspace : Workspace) :
    Status × Workspace :=
  match program with
  | none => (.failure, workspace)
  | some program =>
      if options.check then (.success, workspace) else options.delivered program workspace

/-- What a run leaves, its log apart. -/
def Options.result (options : Options) (workspace : Workspace) : Status × Workspace :=
  options.concluded (workspace.accepted? options.input) workspace

/-- Adds a text to the log. -/
def Workspace.logged (workspace : Workspace) (text : String) : Workspace :=
  { workspace with log := workspace.log ++ text }

/-- An action ends in a given way, and besides only logs. -/
def EndsIn (action : StateM Workspace Status) (workspace : Workspace)
    (result : Status × Workspace) : Prop :=
  ∃ text, action.run workspace = (result.1, result.2.logged text)

section Run

variable {options : Options} {program : Program} {workspace : Workspace} {path name : String}
  {action : StateM Workspace Status} {result : Status × Workspace}

theorem Workspace.logged_empty (workspace : Workspace) : workspace.logged "" = workspace := by
  rw [logged, String.append_empty]

theorem Workspace.logged_logged (workspace : Workspace) (first second : String) :
    (workspace.logged first).logged second = workspace.logged (first ++ second) := by
  rw [logged, logged, logged, String.append_assoc]

theorem Options.delivered_logged (options : Options) (program : Program) (workspace : Workspace)
    (text : String) :
    options.delivered program (workspace.logged text) =
      ((options.delivered program workspace).1,
        (options.delivered program workspace).2.logged text) := by
  cases output : options.output with
  | standard =>
      simp only [delivered, output]
      rfl
  | file path =>
      have same : (workspace.logged text).target path = workspace.target path := rfl
      simp only [delivered, output, same]
      cases workspace.target path <;> rfl

theorem endsIn_of_run (ends : action.run workspace = result) : EndsIn action workspace result := by
  refine ⟨"", ?_⟩
  rw [ends, Workspace.logged_empty]

theorem endsIn_bind {α : Type} {first : StateM Workspace α} {next : α → StateM Workspace Status}
    {value : α} {middle : Workspace} (ran : first.run workspace = (value, middle))
    (ends : EndsIn (next value) middle result) : EndsIn (first >>= next) workspace result := by
  rcases ends with ⟨text, ends⟩
  refine ⟨text, ?_⟩
  rw [StateT.run_bind, ran]
  exact ends

/-- What is logged before an action does not change how it ends. -/
theorem endsIn_log (text : String)
    (ends : EndsIn action (workspace.logged text) (result.1, result.2.logged text)) :
    EndsIn (do Console.log text; action) workspace result := by
  rcases ends with ⟨more, ends⟩
  rw [Workspace.logged_logged] at ends
  exact ⟨text ++ more, ends⟩

theorem endsIn_fail (context : String) (error : SystemError) (workspace : Workspace) :
    EndsIn (fail context error) workspace (.failure, workspace) :=
  ⟨failureText context error, rfl⟩

theorem createFile_run_of_error {error : SystemError}
    (closed : workspace.target path = .error error) :
    (Console.createFile path : StateM Workspace _).run workspace = (.error error, workspace) := by
  simp only [Console.createFile, StateT.run_bind, StateT.run_get, pure_bind, closed]
  rfl

theorem createFile_run (found : workspace.target path = .ok name) :
    (Console.createFile path : StateM Workspace _).run workspace =
      (.ok (), workspace.put name []) := by
  simp only [Console.createFile, StateT.run_bind, StateT.run_get, pure_bind, found]
  rfl

theorem writeFile_run (found : workspace.target path = .ok name) (text : String) :
    (Console.writeFile path text : StateM Workspace _).run workspace =
      (.ok (), workspace.put name (utf8 text)) := by
  simp only [Console.writeFile, StateT.run_bind, StateT.run_get, pure_bind, found]
  rfl

theorem endsIn_deliver (options : Options) (program : Program) (workspace : Workspace) :
    EndsIn (deliver options program) workspace (options.delivered program workspace) := by
  cases output : options.output with
  | standard =>
      apply endsIn_of_run
      simp only [deliver, Options.delivered, output]
      rfl
  | file path =>
      cases found : workspace.target path with
      | error error =>
          simp only [deliver, Options.delivered, output, found]
          exact endsIn_bind (createFile_run_of_error found) (endsIn_fail _ error workspace)
      | ok name =>
          -- The file is there by the time it is written, and the path still leads to it.
          have written := writeFile_run (Workspace.target_congr found (workspace.put name []))
            program.generate
          rw [Workspace.put_put] at written
          simp only [deliver, Options.delivered, output, found]
          apply endsIn_bind (createFile_run found)
          apply endsIn_bind written
          cases options.verbose with
          | true => exact ⟨_, rfl⟩
          | false => exact endsIn_of_run rfl

theorem endsIn_build_of_rejected {source : Source} {rejection : Rejection}
    (rejected : source.accept = .error rejection) (options : Options) (workspace : Workspace) :
    EndsIn (build options source) workspace (.failure, workspace) := by
  rw [build, rejected]
  exact ⟨_, rfl⟩

theorem endsIn_build_of_accepted {source : Source} (accepted : source.accept = .ok program)
    (options : Options) (workspace : Workspace) :
    EndsIn (build options source) workspace
      (if options.check then (.success, workspace)
        else options.delivered program workspace) := by
  rw [build, accepted]
  cases options.check with
  | true =>
      cases options.verbose with
      | true => exact ⟨_, rfl⟩
      | false => exact endsIn_of_run rfl
  | false =>
      cases options.verbose with
      | true =>
          apply endsIn_log
          have ends := endsIn_deliver options program (workspace.logged (summary program))
          rwa [Options.delivered_logged] at ends
      | false => exact endsIn_deliver options program workspace

theorem endsIn_build (options : Options) (source : Source) (workspace : Workspace) :
    EndsIn (build options source) workspace
      (options.concluded source.accept.toOption workspace) := by
  cases accepted : source.accept with
  | error rejection => exact endsIn_build_of_rejected accepted options workspace
  | ok program => exact endsIn_build_of_accepted accepted options workspace

/-- A run ends in its result. -/
theorem endsIn_compile (options : Options) (workspace : Workspace) :
    EndsIn (compile options) workspace (options.result workspace) := by
  cases input : options.input with
  | standard =>
      have content : (Console.readStandard : StateM Workspace _).run workspace =
          (workspace.input, workspace) := rfl
      simp only [compile, Options.result, Workspace.accepted?, Workspace.source?, input]
      exact endsIn_bind content (endsIn_build options _ workspace)
  | file path =>
      have content : (Console.readFile path : StateM Workspace _).run workspace =
          (workspace.read path, workspace) := rfl
      simp only [compile, Options.result, Workspace.accepted?, Workspace.source?, input]
      apply endsIn_bind content
      cases workspace.read path with
      | error error => exact endsIn_fail _ error workspace
      | ok found =>
          cases found with
          | some bytes => exact endsIn_build options _ workspace
          | none => exact endsIn_build options _ workspace

end Run

/-! ## Effects -/

/-- What a run may do to a workspace. -/
structure Options.Effects (options : Options) (before : Workspace) (status : Status)
    (after : Workspace) : Prop where
  /-- A file changes only if it is the one to write, and if there is a sketch to write. -/
  changed : ∀ name, after.file? name ≠ before.file? name →
    options.check = false ∧ (∃ program, before.Accepts options.input program) ∧
      ∃ path, options.output = .file path ∧ before.target path = .ok name
  /-- Then it holds the whole sketch and nothing else. -/
  written : ∀ program path name, options.check = false →
    before.Accepts options.input program → options.output = .file path →
    before.target path = .ok name →
    ∃ bytes, program.compile {} = .ok () { written := bytes } ∧ after.file? name = some bytes
  /-- Nothing is printed but a sketch that is to be printed. -/
  silent : after.output ≠ before.output →
    options.check = false ∧ (∃ program, before.Accepts options.input program) ∧
      options.output = .standard
  /-- Then it is printed as a whole. -/
  printed : ∀ program, options.check = false → before.Accepts options.input program →
    options.output = .standard →
    ∃ bytes, program.compile {} = .ok () { written := bytes } ∧
      after.output = before.output ++ bytes
  /-- A run succeeds if the program is accepted and what is asked for can be done. -/
  succeeds : status.code = 0 ↔ (∃ program, before.Accepts options.input program) ∧
    (options.check = true ∨ options.output = .standard ∨
      ∃ path name, options.output = .file path ∧ before.target path = .ok name)
  /-- Every other run fails. -/
  fails : status.code = 0 ∨ status.code = 1

/-- The ways in which a run can end. -/
inductive Options.Ending (options : Options) (workspace : Workspace) : Status × Workspace → Prop
  | rejected : (∀ program, ¬ workspace.Accepts options.input program) →
      Ending options workspace (.failure, workspace)
  | checked {program} : workspace.Accepts options.input program → options.check = true →
      Ending options workspace (.success, workspace)
  | printed {program} : workspace.Accepts options.input program → options.check = false →
      options.output = .standard →
      Ending options workspace
        (.success, { workspace with output := workspace.output ++ utf8 program.generate })
  | closed {program path error} : workspace.Accepts options.input program →
      options.check = false → options.output = .file path →
      workspace.target path = .error error → Ending options workspace (.failure, workspace)
  | written {program path name} : workspace.Accepts options.input program →
      options.check = false → options.output = .file path → workspace.target path = .ok name →
      Ending options workspace (.success, workspace.put name (utf8 program.generate))

namespace Options

variable {options : Options} {workspace : Workspace} {program : Program} {path name : String}
  {result : Status × Workspace}

theorem result_of_accepted (accepts : workspace.Accepts options.input program)
    (unchecked : options.check = false) :
    options.result workspace = options.delivered program workspace := by
  rw [Options.result, Workspace.accepted?_eq_some_iff.mpr accepts, concluded, unchecked]
  rfl

theorem ending_result (options : Options) (workspace : Workspace) :
    options.Ending workspace (options.result workspace) := by
  cases found : workspace.accepted? options.input with
  | none =>
      rw [Options.result, found]
      apply Ending.rejected
      intro program accepts
      rw [Workspace.accepted?_eq_some_iff.mpr accepts] at found
      cases found
  | some program =>
      have accepts := Workspace.accepted?_eq_some_iff.mp found
      cases check : options.check with
      | true =>
          rw [Options.result, found, concluded, check]
          exact .checked accepts check
      | false =>
          rw [result_of_accepted accepts check]
          cases output : options.output with
          | standard =>
              rw [delivered, output]
              exact .printed accepts check output
          | file path =>
              cases target : workspace.target path with
              | error error =>
                  simp only [delivered, output, target]
                  exact .closed accepts check output target
              | ok name =>
                  simp only [delivered, output, target]
                  exact .written accepts check output target

theorem Ending.changed (ending : options.Ending workspace result)
    (differs : result.2.file? name ≠ workspace.file? name) :
    options.check = false ∧ (∃ program, workspace.Accepts options.input program) ∧
      ∃ path, options.output = .file path ∧ workspace.target path = .ok name := by
  cases ending with
  | rejected | checked | printed | closed => exact absurd rfl differs
  | @written program path target accepts unchecked output found =>
      refine ⟨unchecked, ⟨program, accepts⟩, path, output, ?_⟩
      by_cases same : name = target
      · rw [found, same]
      · exact absurd (Workspace.file?_put_of_ne same) differs

theorem Ending.silent (ending : options.Ending workspace result)
    (differs : result.2.output ≠ workspace.output) :
    options.check = false ∧ (∃ program, workspace.Accepts options.input program) ∧
      options.output = .standard := by
  cases ending with
  | rejected | checked | closed | written => exact absurd rfl differs
  | printed accepts unchecked output => exact ⟨unchecked, ⟨_, accepts⟩, output⟩

theorem Ending.succeeds (ending : options.Ending workspace result) :
    result.1.code = 0 ↔ (∃ program, workspace.Accepts options.input program) ∧
      (options.check = true ∨ options.output = .standard ∨
        ∃ path name, options.output = .file path ∧ workspace.target path = .ok name) := by
  cases ending with
  | rejected refused =>
      apply iff_of_false Nat.one_ne_zero
      intro asked
      rcases asked.1 with ⟨program, accepts⟩
      exact refused program accepts
  | checked accepts checked => exact iff_of_true rfl ⟨⟨_, accepts⟩, .inl checked⟩
  | printed accepts _ output => exact iff_of_true rfl ⟨⟨_, accepts⟩, .inr (.inl output)⟩
  | closed accepts unchecked output closed =>
      apply iff_of_false Nat.one_ne_zero
      intro asked
      rcases asked.2 with checked | standard | ⟨path, name, file, found⟩
      · rw [unchecked] at checked
        cases checked
      · rw [output] at standard
        cases standard
      · rw [output] at file
        cases file
        rw [closed] at found
        cases found
  | written accepts _ output found =>
      exact iff_of_true rfl ⟨⟨_, accepts⟩, .inr (.inr ⟨_, _, output, found⟩)⟩

theorem Ending.fails (ending : options.Ending workspace result) :
    result.1.code = 0 ∨ result.1.code = 1 := by
  cases ending with
  | rejected | closed => exact .inr rfl
  | checked | printed | written => exact .inl rfl

/-- Whatever a run logs, its result has the effects that its options ask for. -/
theorem effects_result (options : Options) (workspace : Workspace) (text : String) :
    options.Effects workspace (options.result workspace).1
      ((options.result workspace).2.logged text) where
  changed _ differs := (options.ending_result workspace).changed differs
  written program path name unchecked accepts output found := by
    refine ⟨utf8 program.generate, accepts.compile_eq, ?_⟩
    simp only [result_of_accepted accepts unchecked, delivered, output, found]
    exact workspace.file?_put name _
  silent := (options.ending_result workspace).silent
  printed program unchecked accepts output := by
    refine ⟨utf8 program.generate, accepts.compile_eq, ?_⟩
    rw [result_of_accepted accepts unchecked, delivered, output]
    rfl
  succeeds := (options.ending_result workspace).succeeds
  fails := (options.ending_result workspace).fails

end Options

/-- A run has the effects that are chosen, in whatever order the flags are given. More to
read in the log is all that a verbose run brings. -/
theorem runIn_effects {choice : Choice} {arguments : List String}
    (given : choice.GivenBy arguments) (workspace : Workspace) :
    choice.options.Effects workspace (runIn workspace arguments).1
      (runIn workspace arguments).2 ∧
    ∀ (verbose : Bool) (others : List String), { choice with verbose }.GivenBy others →
      (runIn workspace others).1 = (runIn workspace arguments).1 ∧
      (runIn workspace others).2 =
        { (runIn workspace arguments).2 with log := (runIn workspace others).2.log } := by
  have ran : ∀ {choice : Choice} {arguments}, choice.GivenBy arguments →
      ∃ text, runIn workspace arguments = ((choice.options.result workspace).1,
        (choice.options.result workspace).2.logged text) := by
    intro choice arguments given
    rw [runIn, run, given.ofArguments]
    exact endsIn_compile choice.options workspace
  rcases ran given with ⟨text, ends⟩
  rw [ends]
  refine ⟨choice.options.effects_result workspace text, ?_⟩
  intro verbose others givenOthers
  rcases ran givenOthers with ⟨more, endsOthers⟩
  rw [endsOthers]
  -- The result does not depend on `verbose`, so the two runs share it.
  exact ⟨rfl, rfl⟩

/-- The sketch may take the place of the program that it was made from. -/
theorem program_overwritten :
    let choice : Choice := { input := "blink", output := some "./blink", verbose := true }
    let arguments := ["--verbose", "-o", "./blink", "blink"]
    let workspace : Workspace :=
      { files := [("notes", utf8 "pin 2"), ("blink", utf8 "config fim repita fim")] }
    choice.GivenBy arguments ∧
      choice.options.Effects workspace (runIn workspace arguments).1
        (runIn workspace arguments).2 ∧
      (runIn workspace arguments).1 = .success ∧
      (runIn workspace arguments).2.file? "notes" = some (utf8 "pin 2") ∧
      (runIn workspace arguments).2.file? "blink" ≠ workspace.file? "blink" := by
  intro choice arguments workspace
  have given : choice.GivenBy arguments :=
    ⟨[.verbose, .output "./blink", .input "blink"], by decide,
      .cons (.verbose (.inr rfl)) (.cons (.output (by decide) (.inl rfl))
        (.cons (.input (by decide)) .nil))⟩
  exact ⟨given, (runIn_effects given workspace).1, by decide +kernel, by decide +kernel,
    by decide +kernel⟩

end CommandLine

end Firmware
