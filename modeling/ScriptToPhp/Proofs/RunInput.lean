import ScriptToPhp.Command.Run
import ScriptToPhp.Proofs.Reading

/-!
# What a run reads

Before anything else a run finds its inputs: it may consult a configuration, and it loads every
file. `Settings.Ready` says of the settings and the files, without the run, when this succeeds. If
it does not, the run fails and nothing has happened; if it does, the run goes on with the project
that the settings and the files determine.
-/

namespace ScriptToPhp.Command

-- ---------------------------------------------------------------------------
-- Actions on a world
-- ---------------------------------------------------------------------------

section

variable {w : World} {path text : String} {console : Console}

@[simp] theorem World.bind_apply (x : StateM World α) (f : α → StateM World β) :
    (x >>= f) w = f (x w).1 (x w).2 := rfl

@[simp] theorem World.pure_apply (a : α) : (pure a : StateM World α) w = (a, w) := rfl

@[simp] theorem World.read_apply : (World.host console).read path w = (w.files.read path, w) := rfl

@[simp] theorem World.isPresent_apply :
    (World.host console).isPresent path w = (w.files.isPresent path, w) := rfl

@[simp] theorem World.isDirectory_apply :
    (World.host console).isDirectory path w = (w.files.isDirectory path, w) := rfl

@[simp] theorem World.makeDirectory_apply :
    (World.host console).makeDirectory path w = w.update (·.makeDirectory path) := rfl

@[simp] theorem World.write_apply :
    (World.host console).write path text w = w.update (·.write path text) := rfl

@[simp] theorem World.print_apply :
    (World.host console).print text w = ((), { w with stdout := w.stdout ++ text }) := rfl

@[simp] theorem World.report_apply :
    (World.host console).report text w = ((), { w with stderr := w.stderr ++ text }) := rfl

@[simp] theorem World.isTerminal_apply :
    (World.host console).isTerminal w = (console.isTerminal, w) := rfl

end

-- ---------------------------------------------------------------------------
-- Inputs
-- ---------------------------------------------------------------------------

def Files.config? (files : Files) (path : String) : Option Config :=
  (files.read path).toOption.bind Config.parse?

def Files.sources (files : Files) (names : List String) : List Source :=
  names.filterMap fun name => (files.read name).toOption.map (Source.ofText name)

namespace Settings

variable (settings : Settings) (files : Files)

/-- Where the configuration is that a run consults: at the path it is given, or else, if it is given
no files, at the usual place if there is something. -/
def configPath? : Option String :=
  settings.value? .project <|>
    if settings.files.isEmpty && files.isPresent defaultConfig then some defaultConfig else none

def config? : Option Config := (settings.configPath? files).bind files.config?

/-- A configuration is consulted, and it cannot be read or is none. -/
def ConfigFails : Prop := ∃ path ∈ settings.configPath? files, files.config? path = none

def inputs : List String :=
  if settings.files.isEmpty then
    ((settings.configPath? files).bind fun path =>
      (files.config? path).map (configFiles path)).getD []
  else settings.files

def options : Options := settings.override
    (((settings.config? files).map Config.effectiveOptions).getD {})

structure Ready : Prop where
  config : ¬settings.ConfigFails files
  nonempty : settings.inputs files ≠ []
  readable : ∀ name ∈ settings.inputs files, ∃ text, files.read name = .ok text

def project : Project := ⟨settings.options files, files.sources (settings.inputs files)⟩

variable {settings : Settings} {files : Files}

theorem of_config (hpath : settings.configPath? files = some path)
    (hconfig : files.config? path = some config) :
    ¬settings.ConfigFails files ∧ settings.config? files = some config ∧
      settings.inputs files = if settings.files.isEmpty then configFiles path config
        else settings.files := by
  refine ⟨?_, by simp [config?, hpath, hconfig], by simp [inputs, hpath, hconfig]⟩
  rintro ⟨found, hfound, hnone⟩
  cases hpath.symm.trans hfound
  cases hconfig.symm.trans hnone

theorem of_no_config (hpath : settings.configPath? files = none) :
    ¬settings.ConfigFails files ∧ settings.config? files = none ∧
    settings.inputs files = settings.files := by
  refine ⟨?_, by simp [config?, hpath], ?_⟩
  · rintro ⟨found, hfound, -⟩
    cases hpath.symm.trans hfound
  · simp only [inputs, hpath, Option.bind_none, Option.getD_none]
    split
    next h => exact (List.isEmpty_iff.1 h).symm
    next => rfl

theorem not_ready_iff : ¬settings.Ready files ↔
    settings.ConfigFails files ∨ settings.inputs files = [] ∨
      ∃ name ∈ settings.inputs files, ∀ text, files.read name ≠ .ok text := by
  constructor
  · intro h
    by_cases hconfig : settings.ConfigFails files
    · exact .inl hconfig
    by_cases hempty : settings.inputs files = []
    · exact .inr (.inl hempty)
    · have hreadable : ¬∀ name ∈ settings.inputs files, ∃ text, files.read name = .ok text :=
        fun hreadable => h ⟨hconfig, hempty, hreadable⟩
      simp only [Classical.not_forall, not_exists] at hreadable
      obtain ⟨name, hname, hunreadable⟩ := hreadable
      exact .inr (.inr ⟨name, hname, hunreadable⟩)
  · rintro (h | h | ⟨name, hname, hunreadable⟩) hready
    · exact hready.config h
    · exact hready.nonempty h
    · obtain ⟨text, htext⟩ := hready.readable name hname
      exact hunreadable text htext

end Settings

-- ---------------------------------------------------------------------------
-- Finding and loading
-- ---------------------------------------------------------------------------

section

variable {settings : Settings} {w : World} {path : String} {console : Console}

theorem readConfig_apply (console : Console) (path : String) (w : World) :
    ∃ found, (World.host console).readConfig path w = (found, w) ∧
    found.toOption = w.files.config? path := by
  unfold Host.readConfig Files.config?
  simp only [World.bind_apply, World.read_apply]
  cases w.files.read path with
  | error fault => exact ⟨_, rfl, rfl⟩
  | ok text =>
    simp only [Except.toOption, Option.bind_some]
    cases Config.parse? text with
    | none => exact ⟨_, rfl, rfl⟩
    | some config => exact ⟨_, rfl, rfl⟩

theorem findInput_apply (console : Console) (settings : Settings) (w : World) :
    ∃ found, (World.host console).findInput settings w = (found, w) ∧
    ((∃ failure, found = .error failure) ∧ settings.ConfigFails w.files ∨
      found = .ok (settings.inputs w.files, settings.config? w.files) ∧
      ¬settings.ConfigFails w.files) := by
  unfold Host.findInput
  cases hproject : settings.value? .project with
  | some path =>
    have hpath : settings.configPath? w.files = some path := by
      simp [Settings.configPath?, hproject]
    obtain ⟨found, happly, hconfig⟩ := readConfig_apply console path w
    simp only [World.bind_apply, happly]
    cases found with
    | error fault => exact ⟨_, rfl, .inl ⟨⟨_, rfl⟩, path, hpath, hconfig.symm⟩⟩
    | ok config =>
      obtain ⟨hfails, hfound, hinputs⟩ := Settings.of_config hpath hconfig.symm
      refine ⟨_, rfl, .inr ⟨?_, hfails⟩⟩
      rw [hfound, hinputs]
  | none =>
    by_cases hfiles : settings.files.isEmpty = true
    · simp only [hfiles, Bool.not_true, Bool.false_eq_true, if_false, World.bind_apply]
      by_cases hpresent : w.files.isPresent defaultConfig = true
      · have hpath : settings.configPath? w.files = some defaultConfig := by
          simp [Settings.configPath?, hproject, hpresent, hfiles]
        obtain ⟨found, happly, hconfig⟩ := readConfig_apply console defaultConfig w
        rw [if_neg (by simpa using hpresent)]
        simp only [World.bind_apply, World.isPresent_apply, happly]
        cases found with
        | error fault => exact ⟨_, rfl, .inl ⟨⟨_, rfl⟩, _, hpath, hconfig.symm⟩⟩
        | ok config =>
          obtain ⟨hfails, hfound, hinputs⟩ := Settings.of_config hpath hconfig.symm
          refine ⟨_, rfl, .inr ⟨?_, hfails⟩⟩
          rw [hfound, hinputs, if_pos hfiles]
      · have hpath : settings.configPath? w.files = none := by
          simp [Settings.configPath?, hproject, hpresent]
        obtain ⟨hfails, hfound, hinputs⟩ := Settings.of_no_config hpath
        rw [if_pos (by simpa using hpresent)]
        refine ⟨_, rfl, .inr ⟨?_, hfails⟩⟩
        rw [hfound, hinputs, List.isEmpty_iff.1 hfiles]
    · have hpath : settings.configPath? w.files = none := by
        simp [Settings.configPath?, hproject, hfiles]
      obtain ⟨hfails, hfound, hinputs⟩ := Settings.of_no_config hpath
      simp only [hfiles, Bool.not_false, if_true]
      refine ⟨_, rfl, .inr ⟨?_, hfails⟩⟩
      rw [hfound, hinputs]

theorem load_of_readable {names : List String}
    (h : ∀ name ∈ names, ∃ text, w.files.read name = .ok text) :
    (World.host console).load names w = (.ok (w.files.sources names), w) := by
  induction names with
  | nil => rfl
  | cons name names ih =>
    obtain ⟨⟨text, htext⟩, hnames⟩ := List.forall_mem_cons.1 h
    simp only [Host.load, World.bind_apply, World.read_apply, htext, ih hnames, World.pure_apply,
      Files.sources, List.filterMap_cons, Except.toOption, Option.map_some]

theorem load_of_unreadable (console : Console) {names : List String}
    (h : ∃ name ∈ names, ∀ text, w.files.read name ≠ .ok text) :
    ∃ fault, (World.host console).load names w = (.error fault, w) := by
  induction names with
  | nil => simp at h
  | cons name names ih =>
    simp only [Host.load, World.bind_apply, World.read_apply]
    cases htext : w.files.read name with
    | error fault => exact ⟨fault, rfl⟩
    | ok text =>
      obtain ⟨fault, hfault⟩ := ih (by simpa [htext] using h)
      exact ⟨fault, by simp only [World.bind_apply, hfault, World.pure_apply]⟩

theorem openProject_of_ready (h : settings.Ready w.files) :
    (World.host console).openProject settings w = (.ok (settings.project w.files), w) := by
  obtain ⟨found, happly, ⟨-, hfails⟩ | ⟨rfl, -⟩⟩ := findInput_apply console settings w
  · exact absurd hfails h.config
  · have hempty : (settings.inputs w.files).isEmpty = false := by simpa using h.nonempty
    simp only [Host.openProject, World.bind_apply, happly, hempty, Bool.false_eq_true, if_false,
      load_of_readable h.readable, World.pure_apply, Settings.project, Settings.options]

theorem openProject_of_not_ready (console : Console) (h : ¬settings.Ready w.files) :
    ∃ failure, (World.host console).openProject settings w = (.error failure, w) := by
  obtain ⟨found, happly, ⟨⟨failure, rfl⟩, -⟩ | ⟨rfl, hconfig⟩⟩ := findInput_apply console settings w
  · exact ⟨failure, by simp only [Host.openProject, World.bind_apply, happly, World.pure_apply]⟩
  · simp only [Host.openProject, World.bind_apply, happly]
    by_cases hempty : (settings.inputs w.files).isEmpty = true
    · exact ⟨.noInput, by simp only [hempty, if_true, World.pure_apply]⟩
    · rcases Settings.not_ready_iff.1 h with hfails | hnone | hunreadable
      · exact absurd hfails hconfig
      · exact absurd (List.isEmpty_iff.2 hnone) hempty
      · obtain ⟨fault, hfault⟩ := load_of_unreadable console hunreadable
        refine ⟨.load fault, ?_⟩
        simp only [hempty, Bool.false_eq_true, if_false, World.bind_apply, hfault, World.pure_apply]

end

end ScriptToPhp.Command
