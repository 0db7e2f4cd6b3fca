import ScriptToPhp.Proofs.RunInput

/-!
# How a run ends

A run compiles all of its inputs before it writes any output. So a fault in one of them leaves the
files as they were, whatever the others are.
-/

namespace ScriptToPhp

def Project.faults (p : Project) : List Diagnostic :=
  p.emit.filterMap fun
    | .error d => some d
    | .ok _ => none

theorem emitSource_error_iff {options : Options} {source : Source} :
    emitSource options source = .error d ↔ Script.parse options source = .error d := by
  unfold emitSource
  cases Script.parse options source with
  | error d' => simp [bind, Except.bind]
  | ok script => simp [bind, Except.bind, pure, Except.pure]

namespace Project

def refusals (p : Project) : List (Source × Diagnostic) :=
  p.sources.filterMap fun source => Command.refusal? source (emitSource p.options source)

variable {options : Options} {source : Source}

theorem map_refusals (p : Project) : p.refusals.map (·.2) = p.faults := by
  rw [refusals, faults, emit, List.map_filterMap, List.filterMap_map]
  refine congrArg (List.filterMap · _) (funext fun source => ?_)
  simp only [Function.comp_apply]
  cases emitSource p.options source <;> rfl

theorem refusals_eq (p : Project) :
    (List.zipWith Command.refusal? p.sources (p.sources.map (emitSource p.options))).filterMap id =
      p.refusals := by
  rw [List.zipWith_map_right, List.zipWith_self, List.filterMap_map]
  rfl

theorem faults_of_parse_ok (sources : List Source) {script : Script}
    (h : Script.parse options source = .ok script) :
    (⟨options, source :: sources⟩ : Project).faults = (⟨options, sources⟩ : Project).faults := by
  have hemit : emitSource options source = .ok (Php.emit options source.file script.root) := by
    simp [emitSource, h, bind, Except.bind, pure, Except.pure]
  simp [faults, emit, hemit]

theorem faults_of_parse_error (sources : List Source) (h : Script.parse options source = .error d) :
    (⟨options, source :: sources⟩ : Project).faults =
      d :: (⟨options, sources⟩ : Project).faults := by
  simp [faults, emit, emitSource_error_iff.2 h]

end Project

namespace Command

-- ---------------------------------------------------------------------------
-- Logging
-- ---------------------------------------------------------------------------

/-- From the first world to the second only log lines were written, and none if the settings do not
ask for more. -/
structure World.Logs (settings : Settings) (w w' : World) : Prop where
  files : w'.files = w.files
  stdout : w'.stdout = w.stdout
  stderr : settings.verbosity = 0 → w'.stderr = w.stderr

section

variable {settings : Settings} {w w' w'' : World} {console : Console} {options : Options}
  {source : Source}

theorem World.Logs.refl (settings : Settings) (w : World) : w.Logs settings w :=
  ⟨rfl, rfl, fun _ => rfl⟩

theorem World.Logs.trans (h : w.Logs settings w') (h' : w'.Logs settings w'') :
    w.Logs settings w'' :=
  ⟨h'.files.trans h.files, h'.stdout.trans h.stdout,
    fun hquiet => (h'.stderr hquiet).trans (h.stderr hquiet)⟩

theorem log_apply {entry : LogEntry} (hentry : LogLevel.warn.rank < entry.level.rank) :
    w.Logs settings ((World.host console).log settings entry w).2 := by
  unfold Host.log
  split
  next hshown =>
    refine ⟨rfl, rfl, fun hquiet => absurd hshown ?_⟩
    cases settings.has .quiet with
    | false => simpa [LogLevel.ofVerbosity, hquiet, LogLevel.shows] using hentry
    | true =>
      have herror : LogLevel.error.rank < entry.level.rank := Nat.lt_trans (by decide) hentry
      simpa [LogLevel.ofVerbosity, LogLevel.shows] using herror
  next => exact .refl settings w

theorem logEvents_apply (events : List ParseEvent) :
    w.Logs settings ((events.forM fun event =>
      (World.host console).log settings event.logEntry) w).2 := by
  induction events generalizing w with
  | nil => exact .refl settings w
  | cons event events ih =>
    have hevent : LogLevel.warn.rank < event.logEntry.level.rank := by
      cases event <;> simp [ParseEvent.logEntry, LogLevel.rank]
    exact (log_apply hevent).trans ih

theorem parse_apply (console : Console) (settings : Settings) (options : Options) (source : Source)
    (w : World) :
    ((World.host console).parse settings options source w).1 = Script.parse options source ∧
      w.Logs settings ((World.host console).parse settings options source w).2 :=
  ⟨rfl, logEvents_apply _⟩

theorem compile_apply (console : Console) (settings : Settings) (options : Options)
    (source : Source) (w : World) :
    ((World.host console).compile settings options source w).1 = emitSource options source ∧
      w.Logs settings ((World.host console).compile settings options source w).2 := by
  obtain ⟨hparse, hlogs⟩ := parse_apply console settings options source w
  unfold Host.compile emitSource
  simp only [World.bind_apply, hparse]
  cases Script.parse options source with
  | error d => exact ⟨rfl, hlogs⟩
  | ok script =>
    have hemitting : LogLevel.warn.rank < (LogEntry.emitting source.file).level.rank := by
      simp [LogEntry.emitting, LogLevel.rank]
    exact ⟨rfl, hlogs.trans (log_apply hemitting)⟩

theorem compileAll_apply (console : Console) (settings : Settings) (options : Options)
    (sources : List Source) (w : World) :
    (sources.mapM ((World.host console).compile settings options) w).1 =
      sources.map (emitSource options) ∧
      w.Logs settings (sources.mapM ((World.host console).compile settings options) w).2 := by
  induction sources generalizing w with
  | nil => exact ⟨rfl, .refl settings w⟩
  | cons source sources ih =>
    obtain ⟨hfirst, hlogs⟩ := compile_apply console settings options source w
    obtain ⟨hlater, hlogs'⟩ := ih ((World.host console).compile settings options source w).2
    rw [List.mapM_cons]
    simp only [World.bind_apply, World.pure_apply, hfirst, hlater, List.map_cons, true_and]
    exact hlogs.trans hlogs'

-- ---------------------------------------------------------------------------
-- Compiling all sources
-- ---------------------------------------------------------------------------

def faultCount (n : Nat) : String :=
  let noun := if n == 1 then "error" else "errors"
  s!"\nFound {n} {noun}.\n"

/-- What is reported of faults: one line for each, and their number. -/
def faultReport (faults : List Diagnostic) : String :=
  String.join (faults.map (·.display ++ "\n")) ++ faultCount faults.length

def Console.shows (console : Console) (refusal : Source × Diagnostic) : String :=
  if console.isTerminal then console.draw refusal.1 refusal.2 else refusal.2.display

def Console.report (console : Console) (refusals : List (Source × Diagnostic)) : String :=
  String.join (refusals.map (console.shows · ++ "\n")) ++ faultCount refusals.length

theorem reportAll_apply (refusals : List (Source × Diagnostic)) :
    (refusals.forM fun refusal => (World.host console).reportDiagnostic refusal.1 refusal.2) w =
      ((),
        { w with stderr := w.stderr ++ String.join (refusals.map (console.shows · ++ "\n")) }) := by
  induction refusals generalizing w with
  | nil => simp [String.join]
  | cons refusal refusals ih =>
    have hfirst : (refusal :: refusals).forM
          (fun refusal => (World.host console).reportDiagnostic refusal.1 refusal.2) w =
        refusals.forM (fun refusal => (World.host console).reportDiagnostic refusal.1 refusal.2)
          { w with stderr := w.stderr ++ (console.shows refusal ++ "\n") } := rfl
    rw [hfirst, ih]
    simp [String.append_assoc]

theorem refuse_apply (refusals : List (Source × Diagnostic)) :
    (World.host console).refuse refusals w =
      (.refusal, { w with stderr := w.stderr ++ console.report refusals }) := by
  simp only [Host.refuse, World.bind_apply, reportAll_apply, World.report_apply,
    World.pure_apply, Console.report, faultCount, String.append_assoc]

/-- All sources are compiled, and then their outputs are delivered or their faults reported. -/
theorem build_apply (console : Console) (settings : Settings) (project : Project) (w : World) :
    ∃ w₁, w.Logs settings w₁ ∧ (World.host console).build settings project w =
      if project.faults = [] then
        (World.host console).finish settings (project.emit.filterMap Except.toOption) w₁
      else (World.host console).refuse project.refusals w₁ := by
  obtain ⟨hresults, hlogs⟩ := compileAll_apply console settings project.options project.sources w
  refine ⟨_, hlogs, ?_⟩
  have hbuild : (World.host console).build settings project w =
      (if project.refusals.isEmpty then (World.host console).finish settings
        (project.emit.filterMap Except.toOption)
        else (World.host console).refuse project.refusals)
        (project.sources.mapM ((World.host console).compile settings project.options) w).2 := by
    rw [← project.refusals_eq]
    unfold Host.build
    simp only [World.bind_apply, hresults]
    rfl
  rw [hbuild]
  by_cases h : project.faults = []
  · rw [if_pos (by simpa [← project.map_refusals] using h), if_pos h]
  · rw [if_neg (by simpa [← project.map_refusals] using h), if_neg h]

theorem printTrees_apply (console : Console) (settings : Settings) (options : Options)
    (sources : List Source) (w : World) :
    ∃ w', (World.host console).printTrees settings options sources w =
      (if (Project.mk options sources).faults = [] then .success else .refusal, w') ∧
      w'.files = w.files := by
  induction sources generalizing w with
  | nil => exact ⟨w, rfl, rfl⟩
  | cons source sources ih =>
    obtain ⟨hparse, hlogs⟩ := parse_apply console settings options source w
    simp only [Host.printTrees, World.bind_apply, hparse]
    generalize ((World.host console).parse settings options source w).2 = w₁ at hlogs
    cases hscript : Script.parse options source with
    | ok script =>
      obtain ⟨w', happly, hfiles⟩ :=
        ih { w₁ with stdout := w₁.stdout ++ (source.file ++ ":\n" ++ script.root.dumpText ++ "\n") }
      refine ⟨w', ?_, hfiles.trans hlogs.files⟩
      rw [Project.faults_of_parse_ok sources hscript, ← happly]
      rfl
    | error d =>
      obtain ⟨w', happly, hfiles⟩ :=
        ih { w₁ with stderr := w₁.stderr ++ (console.shows (source, d) ++ "\n") }
      refine ⟨w', ?_, hfiles.trans hlogs.files⟩
      rw [Project.faults_of_parse_error sources hscript, if_neg (List.cons_ne_nil _ _)]
      simp only [Host.reportDiagnostic, World.bind_apply, World.isTerminal_apply,
        World.report_apply]
      exact congrArg (fun result : Exit × World => (Exit.refusal, result.2)) happly

end

-- ---------------------------------------------------------------------------
-- Whole runs
-- ---------------------------------------------------------------------------

namespace Settings

variable (settings : Settings) (files : Files)

def fault? (name : String) : Option Diagnostic :=
  match files.read name with
  | .error _ => none
  | .ok text =>
    match compile (settings.options files) name text with
    | .error d => some d
    | .ok _ => none

def faults : List Diagnostic := (settings.inputs files).filterMap (settings.fault? files)

theorem faults_project : (settings.project files).faults = settings.faults files := by
  unfold Project.faults Project.emit project Files.sources faults fault?
  rw [List.map_filterMap, List.filterMap_filterMap]
  refine congrArg (List.filterMap · _) (funext fun name => ?_)
  cases files.read name with
  | error fault => rfl
  | ok text =>
    simp only [Except.toOption, Option.map_some, Option.bind_some, compile]
    cases emitSource (settings.options files) (.ofText name text) with
    | error d => rfl
    | ok output => rfl

variable {settings files}

theorem mem_faults : d ∈ settings.faults files ↔ ∃ name ∈ settings.inputs files, ∃ text,
    files.read name = .ok text ∧ compile (settings.options files) name text = .error d := by
  unfold faults
  rw [List.mem_filterMap]
  refine exists_congr fun name => and_congr_right fun _ => ?_
  unfold fault?
  cases files.read name with
  | error fault => simp
  | ok text => cases hcompile : compile (settings.options files) name text <;> simp [hcompile]

theorem Ready.compiles (h : settings.Ready files) (hfaults : settings.faults files = []) :
    ∀ name ∈ settings.inputs files, ∃ text php,
      files.read name = .ok text ∧ compile (settings.options files) name text = .ok php := by
  intro name hname
  obtain ⟨text, htext⟩ := h.readable name hname
  cases hcompile : compile (settings.options files) name text with
  | ok php => exact ⟨text, php, htext, hcompile⟩
  | error d =>
    have hmem : d ∈ settings.faults files := mem_faults.2 ⟨name, hname, text, htext, hcompile⟩
    exact absurd hfaults (List.ne_nil_of_mem hmem)

end Settings

section

variable {settings : Settings} {w : World} {console : Console}

theorem perform_of_not_ready (console : Console) (h : ¬settings.Ready w.files) : ∃ w',
    (World.host console).perform settings w =
      (.failure, w') ∧ w'.files = w.files ∧ w'.stdout = w.stdout := by
  obtain ⟨failure, hfailure⟩ := openProject_of_not_ready console h
  simp only [Host.perform, World.bind_apply, hfailure, Host.fail, World.report_apply,
    World.pure_apply]
  exact ⟨_, rfl, rfl, rfl⟩

/-- If an input has a fault, all faults are reported and nothing else happens. -/
theorem perform_of_faults (console : Console) (h : settings.Ready w.files)
    (hfaults : settings.faults w.files ≠ []) :
    ∃ w', (World.host console).perform settings w = (.refusal, w') ∧ w'.files = w.files ∧
      (settings.has .tree = false → w'.stdout = w.stdout ∧
        (settings.verbosity = 0 →
          w'.stderr = w.stderr ++ console.report (settings.project w.files).refusals)) := by
  rw [← settings.faults_project] at hfaults
  simp only [Host.perform, World.bind_apply, openProject_of_ready h]
  by_cases htree : settings.has .tree = true
  · obtain ⟨w', happly, hfiles⟩ :=
      printTrees_apply console settings (settings.project w.files).options
      (settings.project w.files).sources w
    rw [if_neg hfaults] at happly
    exact ⟨w', by rw [if_pos htree, happly], hfiles, fun hno => absurd hno (by simp [htree])⟩
  · obtain ⟨w₁, hlogs, happly⟩ := build_apply console settings (settings.project w.files) w
    rw [if_neg hfaults, refuse_apply] at happly
    rw [if_neg htree]
    refine ⟨_, happly, hlogs.files, fun _ => ⟨hlogs.stdout, fun hquiet => ?_⟩⟩
    exact congrArg (· ++ _) (hlogs.stderr hquiet)

/-- Where the standard error output is no terminal, each fault is reported in its line. -/
theorem report_of_not_terminal (hterminal : console.isTerminal = false) (project : Project) :
    console.report project.refusals = faultReport project.faults := by
  have hshows : project.refusals.map (console.shows · ++ "\n") =
      project.faults.map (·.display ++ "\n") := by
    rw [← project.map_refusals, List.map_map]
    exact List.map_congr_left fun refusal _ => by simp [Console.shows, hterminal]
  have hlength : project.refusals.length = project.faults.length := by
    rw [← project.map_refusals, List.length_map]
  rw [Console.report, hshows, hlength, faultReport]

end

/-- A run whose inputs are not all found and read fails, one whose inputs do not all compile refuses
them, and in both cases it leaves the files as they are. -/
theorem run_all_or_nothing {arguments : List String} {settings : Settings}
    (h : Settings.ofArguments arguments = .ok settings) (texts : Host.Texts) (console : Console)
    (w : World) :
    ∃ exit w', (World.host console).run texts arguments w = (exit, w') ∧
      (settings.ConfigFails w.files ∨ settings.inputs w.files = [] ∨
          (∃ name ∈ settings.inputs w.files, ∀ text, w.files.read name ≠ .ok text) →
        exit.code = 1 ∧ w'.files = w.files ∧ w'.stdout = w.stdout) ∧
      (¬settings.ConfigFails w.files →
        (∀ name ∈ settings.inputs w.files, ∃ text, w.files.read name = .ok text) →
          (∃ name ∈ settings.inputs w.files, ∃ text d,
            w.files.read name = .ok text ∧
            compile (settings.options w.files) name text = .error d) →
        exit.code = 2 ∧ w'.files = w.files ∧
          (settings.has .tree = false → w'.stdout = w.stdout ∧
            (console.isTerminal = false → settings.verbosity = 0 →
              w'.stderr = w.stderr ++ faultReport (settings.faults w.files)))) ∧
      (exit.code = 0 → ¬settings.ConfigFails w.files ∧ settings.inputs w.files ≠ [] ∧
        ∀ name ∈ settings.inputs w.files, ∃ text php,
          w.files.read name = .ok text ∧
          compile (settings.options w.files) name text = .ok php) := by
  simp only [Host.run, h]
  rw [← Settings.not_ready_iff]
  by_cases hready : settings.Ready w.files
  · by_cases hfaults : settings.faults w.files = []
    · refine ⟨_, _, rfl, fun hnot => absurd hready hnot,
        fun _ _ ⟨name, hname, text, d, hread, hcompile⟩ => ?_, fun _ =>
          ⟨hready.config, hready.nonempty, hready.compiles hfaults⟩⟩
      have hmem : d ∈ settings.faults w.files :=
        Settings.mem_faults.2 ⟨name, hname, text, hread, hcompile⟩
      exact absurd hfaults (List.ne_nil_of_mem hmem)
    · obtain ⟨w', hperform, hfiles, hplain⟩ := perform_of_faults console hready hfaults
      refine ⟨_, w', hperform, fun hnot => absurd hready hnot,
        fun _ _ _ => ⟨rfl, hfiles, fun htree => ?_⟩, fun hcode => by cases hcode⟩
      obtain ⟨hstdout, hstderr⟩ := hplain htree
      refine ⟨hstdout, fun hterminal hquiet => ?_⟩
      rw [hstderr hquiet, report_of_not_terminal hterminal, settings.faults_project]
  · obtain ⟨w', hperform, hfiles, hstdout⟩ := perform_of_not_ready console hready
    refine ⟨_, w', hperform, fun _ => ⟨rfl, hfiles, hstdout⟩,
      fun hconfig hreadable ⟨name, hname, _⟩ => ?_, fun hcode => by cases hcode⟩
    exact absurd ⟨hconfig, List.ne_nil_of_mem hname, hreadable⟩ hready

/-- The first input compiles, and yet nothing is written. -/
theorem run_all_or_nothing_second_input : ∃ (files : Files) (exit : Exit) (w' : World),
    files = .ofList [("a.js", some "x = 1"), ("b.js", some "y = ;")] ∧
      Settings.ofArguments ["a.js", "b.js"] = .ok { files := ["a.js", "b.js"] } ∧
      (World.host (.plain "")).run ⟨"", ""⟩ ["a.js", "b.js"] { files } = (exit, w') ∧
        exit.code = 2 ∧ w'.files = files ∧
      w'.stdout = "" ∧ w'.stderr = "b.js:1:5: error E8: Unexpected ';'.\n\nFound 1 error.\n" := by
  have hsettings : Settings.ofArguments ["a.js", "b.js"] = .ok { files := ["a.js", "b.js"] } :=
    eq_ok_of_toOption (by decide +kernel)
  have hreport : faultReport (Settings.faults { files := ["a.js", "b.js"] }
      (.ofList [("a.js", some "x = 1"), ("b.js", some "y = ;")])) =
      "b.js:1:5: error E8: Unexpected ';'.\n\nFound 1 error.\n" := by decide +kernel
  have hfaults : (Settings.faults { files := ["a.js", "b.js"] }
      (.ofList [("a.js", some "x = 1"), ("b.js", some "y = ;")])).length = 1 := by decide +kernel
  obtain ⟨d, hd⟩ := List.exists_mem_of_length_pos (hfaults ▸ Nat.one_pos)
  obtain ⟨name, hname, text, hread, hcompile⟩ := Settings.mem_faults.1 hd
  have hreadable : ∀ name ∈ ["a.js", "b.js"], ∃ text,
      (Files.ofList [("a.js", some "x = 1"), ("b.js", some "y = ;")]).read name = .ok text :=
    List.forall_mem_cons.2 ⟨⟨"x = 1", eq_ok_of_toOption (by decide +kernel)⟩,
      List.forall_mem_singleton.2 ⟨"y = ;", eq_ok_of_toOption (by decide +kernel)⟩⟩
  obtain ⟨exit, w', hrun, -, hrefused, -⟩ := run_all_or_nothing hsettings ⟨"", ""⟩ (.plain "")
    { files := .ofList [("a.js", some "x = 1"), ("b.js", some "y = ;")] }
  have hconfig : ¬Settings.ConfigFails { files := ["a.js", "b.js"] }
      (.ofList [("a.js", some "x = 1"), ("b.js", some "y = ;")]) := by
    rintro ⟨path, ⟨⟩, -⟩
  obtain ⟨hcode, hfiles, hplain⟩ :=
    hrefused hconfig hreadable ⟨name, hname, text, d, hread, hcompile⟩
  obtain ⟨hstdout, hstderr⟩ := hplain rfl
  exact ⟨_, exit, w', rfl, hsettings, hrun, hcode, hfiles, hstdout,
    (hstderr rfl rfl).trans (by rw [hreport]; rfl)⟩

/-- On a terminal the report is drawn, however that is done, in place of the line. And elsewhere the
lines are as many as the inputs that are refused, so that a file that is named twice has two. -/
theorem run_reports_otherwise :
    let files := Files.ofList [("b.js", some "y = ;")]
    let source := Source.ofText "b.js" "y = ;"
    let d : Diagnostic := ⟨.unexpectedToken, 8, "Unexpected ';'.", ⟨"b.js", ⟨4, 5⟩, 1, 5⟩⟩
    Settings.ofArguments ["b.js"] = .ok { files := ["b.js"] } ∧
      Settings.faults { files := ["b.js"] } files = [d] ∧
      (∀ draw, ∃ w', (World.host ⟨"", true, draw⟩).run ⟨"", ""⟩ ["b.js"] { files } =
        (.refusal, w') ∧
        w'.stderr = draw source d ++ "\n\nFound 1 error.\n" ∧
        (draw source d ≠ d.display → w'.stderr ≠ faultReport [d])) ∧
      ((World.host (.plain "")).run ⟨"", ""⟩ ["b.js", "b.js"] { files }).2.stderr =
        faultReport [d, d] := by
  intro files source d
  have hsettings : Settings.ofArguments ["b.js"] = .ok { files := ["b.js"] } :=
    eq_ok_of_toOption (by decide +kernel)
  have hfaults : Settings.faults { files := ["b.js"] } files = [d] := by decide +kernel
  have hrefusals : (Settings.project { files := ["b.js"] } files).refusals = [(source, d)] := by
    decide +kernel
  have hready : Settings.Ready { files := ["b.js"] } files := by
    refine ⟨?_, List.cons_ne_nil _ _,
      List.forall_mem_singleton.2 ⟨"y = ;", eq_ok_of_toOption (by decide +kernel)⟩⟩
    rintro ⟨path, ⟨⟩, -⟩
  have hcount : faultCount 1 = "\nFound 1 error.\n" := by decide
  have hreport : faultReport [d] = d.display ++ "\n\nFound 1 error.\n" := by decide +kernel
  refine ⟨hsettings, hfaults, fun draw => ?_, by decide +kernel⟩
  obtain ⟨w', hperform, -, hplain⟩ :=
    perform_of_faults (w := { files }) ⟨"", true, draw⟩ hready (by simp [hfaults])
  have hstderr : w'.stderr = draw source d ++ "\n\nFound 1 error.\n" := by
    rw [(hplain rfl).2 rfl, hrefusals, Console.report, List.map_singleton, List.length_singleton,
      hcount]
    simp only [String.join, List.foldl_cons, List.foldl_nil, String.empty_append,
      Console.shows, if_true, String.append_assoc]
    rfl
  refine ⟨w', by simp only [Host.run, hsettings, hperform], hstderr, fun hne heq => hne ?_⟩
  rw [hstderr, hreport] at heq
  exact (String.append_left_inj _).1 heq

end Command

end ScriptToPhp
