import ScriptToPhp.Proofs.FileTree
import ScriptToPhp.Proofs.RunOutcome

/-!
# Where outputs are written

Outputs are written one after the other, each over what is at its path. Two of them may go to one
place, and one may go to the place of an input. `run_writes` says what is there in the end, and that
nothing is lost unless this happens.
-/

namespace ScriptToPhp.Command

-- ---------------------------------------------------------------------------
-- Writing outputs
-- ---------------------------------------------------------------------------

structure Written (outputs : List Php.Output) (f f' : Files) : Prop where
  keeps : f.Keeps f'
  placed : ∀ output ∈ outputs, ∃ r, f'.route? output.path = some r
  /-- The last output that goes to a place is there. -/
  last : ∀ pre output post r, outputs = pre ++ output :: post → f'.route? output.path = some r →
    (∀ later ∈ post, f'.route? later.path ≠ some r) → f'.contents.lookup r = some (some output.php)
  frame : ∀ r, (∀ output ∈ outputs, f'.route? output.path ≠ some r) →
    f'.contents.lookup r = f.contents.lookup r

theorem Written.nil (h : f.Keeps f') (hcontents : f'.contents = f.contents) : Written [] f f' where
  keeps := h
  placed := by simp
  last pre output post r hsplit := by simp at hsplit
  frame r _ := by rw [hcontents]

theorem Written.cons {output : Php.Output} {r : Route} (hkeeps : f.Keeps f₁)
    (hroute : f₁.route? output.path = some r)
    (hself : f₁.contents.lookup r = some (some output.php))
    (hothers : ∀ other, other ≠ r → f₁.contents.lookup other = f.contents.lookup other)
    (h : Written outputs f₁ f') : Written (output :: outputs) f f' := by
  have hroute' : f'.route? output.path = some r := Files.route?_of_keeps h.keeps hroute
  refine ⟨hkeeps.trans h.keeps, List.forall_mem_cons.2 ⟨⟨r, hroute'⟩, h.placed⟩, ?_, ?_⟩
  · intro pre found post place hsplit hplace hlater
    cases pre with
    | nil =>
      cases hsplit
      cases hroute'.symm.trans hplace
      rw [h.frame r hlater, hself]
    | cons first pre =>
      cases hsplit
      exact h.last pre found post place rfl hplace hlater
  · intro place hnone
    obtain ⟨hfirst, hlater⟩ := List.forall_mem_cons.1 hnone
    rw [h.frame place hlater, hothers place]
    rintro rfl
    exact hfirst hroute'

/-- From the first world to the second only directories were made. -/
structure World.Prepares (w w' : World) : Prop where
  keeps : w.files.Keeps w'.files
  contents : w'.files.contents = w.files.contents

theorem World.Prepares.refl (w : World) : w.Prepares w := ⟨.refl _, rfl⟩

theorem World.Prepares.trans {w w' w'' : World} (h : w.Prepares w') (h' : w'.Prepares w'') :
    w.Prepares w'' :=
  ⟨h.keeps.trans h'.keeps, h'.contents.trans h.contents⟩

theorem allowPresent_apply (console : Console) (path : String) (made : Except FileFault Unit)
    (w : World) :
    ((World.host console).allowPresent path made w).2 = w := by
  cases made with
  | ok => rfl
  | error fault => rfl

theorem makeDirectory_apply (console : Console) (path : String) (w : World) :
    w.Prepares ((World.host console).makeDirectory path w).2 := by
  simp only [World.makeDirectory_apply, World.update]
  cases hmade : w.files.makeDirectory path with
  | ok files =>
    obtain ⟨hkeeps, hcontents⟩ := Files.makeDirectory_ok hmade
    exact ⟨hkeeps, hcontents⟩
  | error fault => exact .refl w

theorem makeDirectories_apply (console : Console) (bound : Nat) (path : String) (w : World) :
    w.Prepares ((World.host console).makeDirectories path bound w).2 := by
  induction bound generalizing path w with
  | zero => exact .refl w
  | succ bound ih =>
    rw [Host.makeDirectories]
    split
    · exact .refl w
    · have hfirst := makeDirectory_apply console path w
      rw [World.bind_apply]
      generalize (World.host console).makeDirectory path w = made at hfirst ⊢
      obtain ⟨result, w₁⟩ := made
      by_cases hmissing : result = .error .notFound
      · subst hmissing
        cases Path.parent? path with
        | none => exact hfirst
        | some parent =>
          refine hfirst.trans ?_
          have hparent := ih parent w₁
          simp only [World.bind_apply]
          generalize (World.host console).makeDirectories parent bound w₁ = above at hparent ⊢
          obtain ⟨result, w₂⟩ := above
          cases result with
          | error fault => exact hparent
          | ok =>
            simp only [World.bind_apply, allowPresent_apply]
            exact hparent.trans (makeDirectory_apply console path w₂)
      · cases result with
        | ok => exact hfirst
        | error fault =>
          cases fault with
          | notFound => exact absurd rfl hmissing
          | _ => exact hfirst

theorem prepare_apply (console : Console) (path : String) (w : World) :
    w.Prepares ((World.host console).prepare path w).2 := by
  unfold Host.prepare
  cases Path.parent? path with
  | none => exact .refl w
  | some directory => exact makeDirectories_apply console _ directory w

theorem writeOutput_apply {settings : Settings} {output : Php.Output} {w w' : World}
    (h : (World.host console).writeOutput settings output w = (.ok (), w')) :
    w.files.Keeps w'.files ∧
      ∃ r, w'.files.route? output.path = some r ∧
      w'.files.contents.lookup r = some (some output.php) ∧
        ∀ other, other ≠ r → w'.files.contents.lookup other = w.files.contents.lookup other := by
  unfold Host.writeOutput at h
  rw [World.bind_apply] at h
  have hprepares := prepare_apply console output.path w
  generalize (World.host console).prepare output.path w = made at h hprepares
  obtain ⟨result, w₁⟩ := made
  cases result with
  | error fault => cases h
  | ok =>
    simp only [World.bind_apply, World.write_apply, World.update] at h
    cases hwrite : w₁.files.write output.path output.php with
    | error fault =>
      rw [hwrite] at h
      cases h
    | ok files =>
      rw [hwrite] at h
      have hwrote : LogLevel.warn.rank < (LogEntry.wrote output.path).level.rank := by
        simp [LogEntry.wrote, LogLevel.rank]
      have hlast : ((World.host console).log settings (.wrote output.path) { w₁ with files }).2 =
          w' :=
        congrArg Prod.snd h
      have hlogs : ({ w₁ with files } : World).Logs settings w' := hlast ▸ log_apply hwrote
      obtain ⟨hkeeps, r, hroute, hself, hothers⟩ := Files.write_ok hwrite
      rw [hlogs.files]
      refine ⟨hprepares.keeps.trans hkeeps, r, hroute, hself, fun other hne => ?_⟩
      rw [hothers other hne, hprepares.contents]

theorem deliver_apply {settings : Settings} (hfiles : settings.has .toStdout = false)
    {outputs : List Php.Output} {w w' : World}
    (h : (World.host console).deliver settings outputs w = (.ok (), w')) :
    Written outputs w.files w'.files := by
  induction outputs generalizing w with
  | nil =>
    cases h
    exact .nil (.refl _) rfl
  | cons output outputs ih =>
    rw [Host.deliver, if_neg (by simp [hfiles]), World.bind_apply] at h
    generalize houtput : (World.host console).writeOutput settings output w = written at h
    obtain ⟨result, w₁⟩ := written
    cases result with
    | error fault => cases h
    | ok =>
      obtain ⟨hkeeps, r, hroute, hself, hothers⟩ := writeOutput_apply houtput
      exact .cons hkeeps hroute hself hothers (ih h)

theorem finish_apply {settings : Settings} (hfiles : settings.has .toStdout = false)
    {outputs : List Php.Output} {w w' : World}
    (h : (World.host console).finish settings outputs w = (.success, w')) :
    Written outputs w.files w'.files := by
  unfold Host.finish at h
  rw [World.bind_apply] at h
  generalize hdeliver : (World.host console).deliver settings outputs w = delivered at h
  obtain ⟨result, w₁⟩ := delivered
  cases result with
  | error fault => cases h
  | ok =>
    have hcompleted : LogLevel.warn.rank < (LogEntry.completed console.elapsed).level.rank := by
      simp [LogEntry.completed, LogLevel.rank]
    have hlast : ((World.host console).log settings (.completed console.elapsed) w₁).2 = w' :=
      congrArg Prod.snd h
    have hlogs : w₁.Logs settings w' := hlast ▸ log_apply hcompleted
    rw [hlogs.files]
    exact deliver_apply hfiles hdeliver

-- ---------------------------------------------------------------------------
-- Inputs and outputs
-- ---------------------------------------------------------------------------

theorem path_of_emitSource {options : Options} {source : Source} {output : Php.Output}
    (h : emitSource options source = .ok output) :
    output.path = Php.outputPath options source.file := by
  unfold emitSource at h
  cases hscript : Script.parse options source with
  | error d => simp [hscript, bind, Except.bind] at h
  | ok script =>
    simp only [hscript, bind, Except.bind, pure, Except.pure, Except.ok.injEq] at h
    rw [← h, Php.emit]

def Files.SameFile (f : Files) (path other : String) : Prop :=
  ∃ r, f.route? path = some r ∧ f.route? other = some r

namespace Settings

variable (settings : Settings) (files : Files)

def outputPath (name : String) : String := Php.outputPath (settings.options files) name

def php? (name : String) : Option String :=
  (files.read name).toOption.bind fun text => (compile (settings.options files) name text).toOption

def output? (name : String) : Option Php.Output :=
  (files.read name).toOption.bind fun text =>
    (emitSource (settings.options files) (.ofText name text)).toOption

theorem outputs_project :
    (settings.project files).emit.filterMap Except.toOption =
      (settings.inputs files).filterMap (settings.output? files) := by
  unfold Project.emit project Files.sources output?
  rw [List.map_filterMap, List.filterMap_filterMap]
  refine congrArg (List.filterMap · _) (funext fun name => ?_)
  cases files.read name with
  | error fault => rfl
  | ok text => rfl

variable {settings files}

theorem php?_eq_map (name : String) :
    settings.php? files name = (settings.output? files name).map (·.php) := by
  unfold php? output? compile
  cases files.read name with
  | error fault => rfl
  | ok text =>
    simp only [Except.toOption, Option.bind_some]
    cases emitSource (settings.options files) (.ofText name text) with
    | error d => rfl
    | ok output => rfl

theorem path_of_output? (h : settings.output? files name = some output) :
    output.path = settings.outputPath files name := by
  obtain ⟨text, -, hemit⟩ := Option.bind_eq_some_iff.1 h
  have hpath := path_of_emitSource (eq_ok_of_toOption hemit)
  exact hpath

theorem php?_eq_some_iff : settings.php? files name = some php ↔
    ∃ text, files.read name = .ok text ∧ compile (settings.options files) name text = .ok php := by
  unfold php?
  cases files.read name with
  | error fault => simp [Except.toOption]
  | ok text =>
    cases hcompile : compile (settings.options files) name text <;> simp [Except.toOption, hcompile]

end Settings

/-- A run that succeeds has read and compiled everything and written all outputs. -/
theorem perform_success {settings : Settings} (htree : settings.has .tree = false)
    (hstdout : settings.has .toStdout = false) {w w' : World}
    (h : (World.host console).perform settings w = (.success, w')) :
    (∀ name ∈ settings.inputs w.files, ∃ php, settings.php? w.files name = some php) ∧
      Written ((settings.inputs w.files).filterMap (settings.output? w.files)) w.files
        w'.files := by
  by_cases hready : settings.Ready w.files
  · by_cases hfaults : settings.faults w.files = []
    · constructor
      · intro name hname
        obtain ⟨text, php, hread, hcompile⟩ := hready.compiles hfaults name hname
        exact ⟨php, Settings.php?_eq_some_iff.2 ⟨text, hread, hcompile⟩⟩
      · obtain ⟨w₁, hlogs, hbuild⟩ := build_apply console settings (settings.project w.files) w
        rw [if_pos (settings.faults_project w.files ▸ hfaults), settings.outputs_project] at hbuild
        simp only [Host.perform, World.bind_apply, openProject_of_ready hready, htree,
          Bool.false_eq_true, if_false] at h
        have hwritten := finish_apply hstdout (hbuild.symm.trans h)
        rwa [hlogs.files] at hwritten
    · obtain ⟨_, hperform, -⟩ := perform_of_faults console hready hfaults
      cases hperform.symm.trans h
  · obtain ⟨_, hperform, -⟩ := perform_of_not_ready console hready
    cases hperform.symm.trans h

-- ---------------------------------------------------------------------------
-- What is there in the end
-- ---------------------------------------------------------------------------

section

variable {f f' : Files} {settings : Settings} {names : List String}
  {name path other php text : String}

theorem Files.SameFile.read (h : f.SameFile path other) (hread : f.read path = .ok text) :
    f.read other = .ok text := by
  obtain ⟨r, hpath, hother⟩ := h
  obtain ⟨r', hroute, hlookup⟩ := Files.read_eq_ok_iff.1 hread
  cases hpath.symm.trans hroute
  exact Files.read_eq_ok_iff.2 ⟨r, hother, hlookup⟩

theorem exists_last {l : List α} {p : α → Prop} (h : ∃ x ∈ l, p x) :
    ∃ pre x post, l = pre ++ x :: post ∧ p x ∧ ∀ y ∈ post, ¬p y := by
  induction l with
  | nil => simp at h
  | cons a l ih =>
    by_cases hlater : ∃ x ∈ l, p x
    · obtain ⟨pre, x, post, rfl, hx, hpost⟩ := ih hlater
      exact ⟨a :: pre, x, post, rfl, hx, hpost⟩
    · obtain ⟨x, hmem, hx⟩ := h
      rcases List.mem_cons.1 hmem with rfl | hmem
      · exact ⟨[], x, l, rfl, hx, fun y hy hpy => hlater ⟨y, hy, hpy⟩⟩
      · exact absurd ⟨x, hmem, hx⟩ hlater

namespace Written

variable (h : Written (names.filterMap (settings.output? f)) f f')

include h

theorem exists_route (hname : name ∈ names) (hphp : settings.php? f name = some php) :
    ∃ r, f'.route? (settings.outputPath f name) = some r := by
  rw [Settings.php?_eq_map] at hphp
  obtain ⟨output, houtput, -⟩ := Option.map_eq_some_iff.1 hphp
  rw [← Settings.path_of_output? houtput]
  exact h.placed output (List.mem_filterMap.2 ⟨name, hname, houtput⟩)

/-- The output of the last input whose output goes to a place is there. -/
theorem read_last {pre post : List String} (hnames : names = pre ++ name :: post)
    (hphp : settings.php? f name = some php)
    (hlater : ∀ later ∈ post, ¬f'.SameFile (settings.outputPath f later)
      (settings.outputPath f name)) :
    f'.read (settings.outputPath f name) = .ok php := by
  obtain ⟨r, hroute⟩ := h.exists_route (by simp [hnames]) hphp
  rw [Settings.php?_eq_map] at hphp
  obtain ⟨output, houtput, rfl⟩ := Option.map_eq_some_iff.1 hphp
  refine Files.read_eq_ok_iff.2 ⟨r, hroute, ?_⟩
  refine h.last (pre.filterMap (settings.output? f)) output
    (post.filterMap (settings.output? f)) r ?_ ?_ ?_
  · rw [hnames, List.filterMap_append, List.filterMap_cons_some houtput]
  · exact (congrArg f'.route? (Settings.path_of_output? houtput)).trans hroute
  · intro later hmem hplace
    obtain ⟨laterName, hlaterName, hlaterOutput⟩ := List.mem_filterMap.1 hmem
    rw [Settings.path_of_output? hlaterOutput] at hplace
    exact hlater laterName hlaterName ⟨r, hplace, hroute⟩

/-- What no output goes to stays as it is. -/
theorem read_frame (hread : f.read path = .ok text)
    (hnone : ∀ name ∈ names, ¬f'.SameFile (settings.outputPath f name) path) :
    f'.read path = .ok text := by
  obtain ⟨r, hroute, hlookup⟩ := Files.read_eq_ok_iff.1 hread
  have hroute' := Files.route?_of_keeps h.keeps hroute
  refine Files.read_eq_ok_iff.2 ⟨r, hroute', ?_⟩
  rw [h.frame r, hlookup]
  intro output hmem hplace
  obtain ⟨name, hname, houtput⟩ := List.mem_filterMap.1 hmem
  rw [Settings.path_of_output? houtput] at hplace
  exact hnone name hname ⟨r, hplace, hroute'⟩

theorem read_of_output (hname : name ∈ names)
    (hsame : f'.SameFile (settings.outputPath f name) path) :
    ∃ other ∈ names, f'.SameFile (settings.outputPath f other) path ∧
      ∀ php, settings.php? f other = some php → f'.read path = .ok php := by
  have hsome : ∃ other ∈ names, f'.SameFile (settings.outputPath f other) path :=
    ⟨name, hname, hsame⟩
  obtain ⟨pre, other, post, hnames, hother, hpost⟩ := exists_last hsome
  have hmem : other ∈ names := by simp [hnames]
  refine ⟨other, hmem, hother, fun php hphp =>
    hother.read (h.read_last hnames hphp fun later hlater hclash => ?_)⟩
  obtain ⟨r, hplace, hroute⟩ := hother
  obtain ⟨r', hlaterPlace, hotherPlace⟩ := hclash
  cases hplace.symm.trans hotherPlace
  exact hpost later hlater ⟨r, hlaterPlace, hroute⟩

end Written

end

/-- Each output is the PHP of its input, and no input has changed. -/
def Settings.LosesNothing (settings : Settings) (f f' : Files) : Prop :=
  ∀ name ∈ settings.inputs f, ∀ text php, f.read name = .ok text →
    compile (settings.options f) name text = .ok php →
    f'.read (settings.outputPath f name) = .ok php ∧ f'.read name = .ok text

/-- Outputs that go to one place are the same, and one that goes to the place of an input is the
text of the input. -/
def Settings.Unclashing (settings : Settings) (f f' : Files) : Prop :=
  ∀ name ∈ settings.inputs f, ∀ other ∈ settings.inputs f,
    (f'.SameFile (settings.outputPath f other) (settings.outputPath f name) →
      settings.php? f other = settings.php? f name) ∧
    (f'.SameFile (settings.outputPath f other) name →
      settings.php? f other = (f.read name).toOption)

theorem Written.losesNothing_iff {settings : Settings} {f f' : Files}
    (h : Written ((settings.inputs f).filterMap (settings.output? f)) f f')
    (hphp : ∀ name ∈ settings.inputs f, ∃ php, settings.php? f name = some php) :
    settings.LosesNothing f f' ↔ settings.Unclashing f f' := by
  constructor
  · intro hloses name hname other hother
    obtain ⟨php, hphp'⟩ := hphp name hname
    obtain ⟨text, hread, hcompile⟩ := Settings.php?_eq_some_iff.1 hphp'
    obtain ⟨houtput, hinput⟩ := hloses name hname text php hread hcompile
    obtain ⟨otherPhp, hotherPhp⟩ := hphp other hother
    obtain ⟨otherText, hotherRead, hotherCompile⟩ := Settings.php?_eq_some_iff.1 hotherPhp
    obtain ⟨hotherOutput, -⟩ := hloses other hother otherText otherPhp hotherRead hotherCompile
    constructor
    · intro hsame
      cases (hsame.read hotherOutput).symm.trans houtput
      rw [hotherPhp, hphp']
    · intro hsame
      cases (hsame.read hotherOutput).symm.trans hinput
      rw [hotherPhp, hread]
      rfl
  · intro hclash name hname text php hread hcompile
    have hphp' := Settings.php?_eq_some_iff.2 ⟨text, hread, hcompile⟩
    constructor
    · obtain ⟨r, hroute⟩ := h.exists_route hname hphp'
      obtain ⟨other, hother, hsame, hlast⟩ := h.read_of_output hname ⟨r, hroute, hroute⟩
      exact hlast php (((hclash name hname other hother).1 hsame).trans hphp')
    · by_cases hsame : ∃ other ∈ settings.inputs f, f'.SameFile (settings.outputPath f other) name
      · obtain ⟨first, hfirst, hplace⟩ := hsame
        obtain ⟨other, hother, hsame, hlast⟩ := h.read_of_output hfirst hplace
        refine hlast text (((hclash name hname other hother).2 hsame).trans ?_)
        rw [hread]
        rfl
      · exact h.read_frame hread fun other hother hplace => hsame ⟨other, hother, hplace⟩

/-- After a run that succeeds, the last output that goes to a place is there, and what no output
goes to is as it was. So nothing is lost if and only if no two outputs clash and none clashes with
an input. -/
theorem run_writes {arguments : List String} {settings : Settings}
    (h : Settings.ofArguments arguments = .ok settings) (htree : settings.has .tree = false)
    (hstdout : settings.has .toStdout = false) {texts : Host.Texts} {console : Console}
    {w w' : World} {exit : Exit} (hrun : (World.host console).run texts arguments w = (exit, w'))
    (hcode : exit.code = 0) :
    (∀ name ∈ settings.inputs w.files, ∃ php, settings.php? w.files name = some php) ∧
      (∀ pre name post php, settings.inputs w.files = pre ++ name :: post →
        settings.php? w.files name = some php →
        (∀ later ∈ post,
          ¬w'.files.SameFile (settings.outputPath w.files later)
          (settings.outputPath w.files name)) →
        w'.files.read (settings.outputPath w.files name) = .ok php) ∧
      (∀ path text, w.files.read path = .ok text →
        (∀ name ∈ settings.inputs w.files,
          ¬w'.files.SameFile (settings.outputPath w.files name) path) →
        w'.files.read path = .ok text) ∧
      (settings.LosesNothing w.files w'.files ↔ settings.Unclashing w.files w'.files) := by
  have hsuccess : exit = .success := by
    cases exit with
    | success => rfl
    | failure | refusal => cases hcode
  subst hsuccess
  simp only [Host.run, h] at hrun
  obtain ⟨hphp, hwritten⟩ := perform_success htree hstdout hrun
  refine ⟨hphp, ?_, ?_, hwritten.losesNothing_iff hphp⟩
  · intro pre name post php hnames hname hlater
    exact hwritten.read_last hnames hname hlater
  · intro path text hread hnone
    exact hwritten.read_frame hread hnone

/-- Two inputs of one name in different directories have one output, that of the second. -/
theorem run_writes_same_stem : ∃ (files : Files) (w' : World),
    files = .ofList [("a/x.js", some "a = 1"), ("b/x.js", some "b = 2")] ∧
      (World.host (.plain "")).run ⟨"", ""⟩ ["a/x.js", "b/x.js", "--outDir", "out"] { files } =
        (.success, w') ∧
      w'.files.read "out/x.php" = .ok "$b = 2;\n" ∧
      ¬Settings.LosesNothing { files := ["a/x.js", "b/x.js"], values := [(.outDir, "out")] } files
        w'.files := by
  have hsettings : Settings.ofArguments ["a/x.js", "b/x.js", "--outDir", "out"] =
      .ok { files := ["a/x.js", "b/x.js"], values := [(.outDir, "out")] } :=
    eq_ok_of_toOption (by decide +kernel)
  have hexit : ((World.host (.plain "")).run ⟨"", ""⟩ ["a/x.js", "b/x.js", "--outDir", "out"]
      { files := .ofList [("a/x.js", some "a = 1"), ("b/x.js", some "b = 2")] }).1 =
        .success := by decide +kernel
  have hphp : ["a/x.js", "b/x.js"].map
      (Settings.php? { files := ["a/x.js", "b/x.js"], values := [(.outDir, "out")] }
        (.ofList [("a/x.js", some "a = 1"), ("b/x.js", some "b = 2")])) = [some "$a = 1;\n",
          some "$b = 2;\n"] := by
    decide +kernel
  have hpaths : ["a/x.js", "b/x.js"].map
      (Settings.outputPath { files := ["a/x.js", "b/x.js"], values := [(.outDir, "out")] }
      (.ofList [("a/x.js", some "a = 1"), ("b/x.js", some "b = 2")])) = ["out/x.php",
        "out/x.php"] := by
    decide +kernel
  simp only [List.map_cons, List.map_nil, List.cons.injEq, and_true] at hphp hpaths
  obtain ⟨hfirst, hsecond⟩ := hphp
  obtain ⟨hfirstPath, hsecondPath⟩ := hpaths
  obtain ⟨-, hlast, -, hiff⟩ := run_writes hsettings rfl rfl (Prod.ext hexit rfl) rfl
  have hread := hlast ["a/x.js"] "b/x.js" [] _ rfl hsecond (by simp)
  rw [hsecondPath] at hread
  refine ⟨_, _, rfl, Prod.ext hexit rfl, hread, fun hloses => ?_⟩
  obtain ⟨r, hroute, -⟩ := Files.read_eq_ok_iff.1 hread
  have hsame :=
    (hiff.1 hloses "a/x.js" (by simp [Settings.inputs]) "b/x.js" (by simp [Settings.inputs])).1
  rw [hfirstPath, hsecondPath, hfirst, hsecond] at hsame
  exact absurd (hsame ⟨r, hroute, hroute⟩) (by decide)

end ScriptToPhp.Command
