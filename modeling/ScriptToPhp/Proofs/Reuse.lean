import ScriptToPhp.Proofs.Pieces
import ScriptToPhp.Proofs.Writing

/-!
# Reusing a writer

One writer may print any number of scripts and expressions. Between two of them it is at rest, and
remembers two things: the named functions of the script printed last, and the helpers in use. So a
script is printed as by a fresh writer, an expression as by one that printed only the last script
before it, and the helpers add up.
-/

namespace ScriptToPhp.Php

open Writing

inductive Job
  | script (root : Block)
  | expression (node : Node)

namespace Job

def run : Job → Writing String
  | script root => Writer.printScript root
  | expression node => Writer.printExpression node

def script? : Job → Option Block
  | script root => some root
  | expression _ => none

def lastScript? (jobs : List Job) : Option Block := jobs.reverse.findSome? script?

end Job

namespace Writer

def printAll : List Job → Writing (List String)
  | [] => return []
  | job :: jobs => return (← job.run) :: (← printAll jobs)

/-- A writer that printed nothing but the last script of some jobs, if there is one. -/
def afterLast (style : Style) (jobs : List Job) : Writer :=
  match Job.lastScript? jobs with
  | none => ofStyle style
  | some root => (printScript root (ofStyle style)).2

end Writer

/-- The writer that a job is given when it is done alone, in place of one that did other jobs
before. -/
def Job.ready (style : Style) (before : List Job) : Job → Writer
  | script _ => .ofStyle style
  | expression _ => .afterLast style before

-- ---------------------------------------------------------------------------
-- One job
-- ---------------------------------------------------------------------------

namespace Writer

theorem printExpression_apply (node : Node) (w : Writer) : printExpression node w =
    ((render w.setting .value node).text, w.record (render w.setting .value node).helpers) :=
  (printsNode node).value w

theorem printScript_apply (root : Block) {w : Writer} (hlevel : w.level = 0) : printScript root w =
    (((Printer.ofStyle w.style).printScript root).1,
      { w with output := "", callables := [functionNames root],
               helpers := w.helpers.union (renderScript w.style root).helpers }) := by
  have hstatements := writes_statements (writesEach_body root.body)
    { w with output := "", callables := [functionNames root] }
  simp only [printScript, bind_apply, modify_apply, get_apply, set_apply, pure_apply, hstatements]
  simp [put, record, setting, hlevel, Printer.printScript, Printer.ofStyle, renderScript]
  rfl

def namesAfter (jobs : List Job) : List (List String) :=
  (Job.lastScript? jobs).toList.map functionNames

/-- The writer stands between two jobs, after some. -/
structure AtRest (w : Writer) (style : Style) (before : List Job) : Prop where
  style : w.style = style
  output : w.output = ""
  level : w.level = 0
  callables : w.callables = namesAfter before

theorem atRest_ofStyle (style : Style) : (ofStyle style).AtRest style [] := ⟨rfl, rfl, rfl, rfl⟩

theorem atRest_afterLast (style : Style) (before : List Job) :
    (afterLast style before).AtRest style before := by
  unfold afterLast
  split
  next hlast => exact ⟨rfl, rfl, rfl, by rw [namesAfter, hlast]; rfl⟩
  next root hlast =>
    rw [printScript_apply root rfl]
    exact ⟨rfl, rfl, rfl, by rw [namesAfter, hlast]; rfl⟩

theorem AtRest.setting_eq {style : Style} {before : List Job} {w : Writer}
    (h : w.AtRest style before) :
    w.setting = ⟨style, (namesAfter before).flatten, 0⟩ := by
  rw [Writer.setting, h.style, h.level, h.callables]

/-- At rest, two writers with the same past differ in the helpers only. -/
theorem AtRest.unique {style : Style} {before : List Job} {w w' : Writer}
    (h : w.AtRest style before) (h' : w'.AtRest style before) (used : Helpers) :
    { w with helpers := used } = { w' with helpers := used } := by
  rw [h.style, h.output, h.level, h.callables, h'.style, h'.output, h'.level, h'.callables]

end Writer

namespace Job

theorem namesAfter_script (before : List Job) (root : Block) :
    Writer.namesAfter (before ++ [script root]) = [functionNames root] := by
  rw [Writer.namesAfter, lastScript?, List.reverse_concat]
  rfl

theorem namesAfter_expression (before : List Job) (node : Node) :
    Writer.namesAfter (before ++ [expression node]) = Writer.namesAfter before := by
  rw [Writer.namesAfter, lastScript?, List.reverse_concat]
  rfl

def printed (style : Style) (before : List Job) : Job → Fragment
  | script root => ⟨((Printer.ofStyle style).printScript root).1, (renderScript style root).helpers⟩
  | expression node => render ⟨style, (Writer.namesAfter before).flatten, 0⟩ .value node

/-- A writer at rest does a job by what it remembers, and is at rest again. -/
theorem run_atRest (h : w.AtRest style before) (job : Job) :
    (job.run w).1 = (job.printed style before).text ∧
      (job.run w).2.helpers = w.helpers.union (job.printed style before).helpers ∧
      (job.run w).2.AtRest style (before ++ [job]) := by
  cases job with
  | script root =>
    rw [run, Writer.printScript_apply root h.level, h.style]
    exact ⟨rfl, rfl, rfl, rfl, h.level, (namesAfter_script before root).symm⟩
  | expression node =>
    rw [run, Writer.printExpression_apply, h.setting_eq]
    exact ⟨rfl, rfl, h.style, h.output, h.level,
      h.callables.trans (namesAfter_expression before node).symm⟩

end Job

-- ---------------------------------------------------------------------------
-- Many jobs
-- ---------------------------------------------------------------------------

namespace Writer

variable {style : Style} {before : List Job} {w : Writer}

theorem printAll_atRest (h : w.AtRest style before) (jobs : List Job) :
    (∀ i : Nat, (printAll jobs w).1[i]? = jobs[i]?.map fun job =>
      (job.printed style (before ++ jobs.take i)).text) ∧
      (printAll jobs w).2.AtRest style (before ++ jobs) ∧
      ∀ k, (printAll jobs w).2.helpers.contains k = true ↔ w.helpers.contains k = true ∨
        ∃ (i : Nat) (job : Job), jobs[i]? = some job ∧
          (job.printed style (before ++ jobs.take i)).helpers.contains k = true := by
  induction jobs generalizing before w with
  | nil => exact ⟨fun i => rfl, by simpa [printAll] using h, fun k => by simp [printAll]⟩
  | cons job jobs ih =>
    obtain ⟨htext, hhelpers, hrest⟩ := Job.run_atRest h job
    obtain ⟨htexts, hend, hlater⟩ := ih hrest
    have hprintAll : printAll (job :: jobs) w =
        ((job.run w).1 :: (printAll jobs (job.run w).2).1, (printAll jobs (job.run w).2).2) := rfl
    rw [hprintAll]
    refine ⟨fun i => ?_, by simpa using hend, fun k => ?_⟩
    · cases i with
      | zero => simp [htext]
      | succ i => simpa using htexts i
    · rw [hlater k, hhelpers, Helpers.contains_union, Bool.or_eq_true, or_assoc]
      refine or_congr_right ⟨?_, ?_⟩
      · rintro (hk | ⟨i, later, hjob, hk⟩)
        · exact ⟨0, job, rfl, by simpa using hk⟩
        · exact ⟨i + 1, later, hjob, by simpa using hk⟩
      · rintro ⟨i, later, hjob, hk⟩
        cases i with
        | zero =>
          cases hjob
          exact .inl (by simpa using hk)
        | succ i => exact .inr ⟨i, later, hjob, by simpa using hk⟩

end Writer

namespace Job

theorem run_ready (style : Style) (before : List Job) (job : Job) (used : Helpers) :
    (job.run { job.ready style before with helpers := used }).1 = (job.printed style before).text ∧
      (job.run { job.ready style before with helpers := used }).2.helpers =
        used.union (job.printed style before).helpers := by
  cases job with
  | script root =>
    have hrest :
        Writer.AtRest { ready style before (.script root) with helpers := used } style [] :=
      ⟨rfl, rfl, rfl, rfl⟩
    obtain ⟨htext, hhelpers, -⟩ := run_atRest hrest (.script root)
    exact ⟨htext, hhelpers⟩
  | expression node =>
    have hlast := Writer.atRest_afterLast style before
    have hrest : Writer.AtRest { ready style before (.expression node) with helpers := used }
      style before :=
      ⟨hlast.style, hlast.output, hlast.level, hlast.callables⟩
    obtain ⟨htext, hhelpers, -⟩ := run_atRest hrest (.expression node)
    exact ⟨htext, hhelpers⟩

theorem contains_ready {job : Job} (h : (job.ready style before).helpers.contains k = true) :
    ∃ root, script root ∈ before ∧ (renderScript style root).helpers.contains k = true := by
  cases job with
  | script => cases k <;> cases h
  | expression node =>
    simp only [ready, Writer.afterLast] at h
    split at h
    next => cases k <;> cases h
    next root hlast =>
      obtain ⟨job, hjob, hroot⟩ := List.exists_of_findSome?_eq_some hlast
      cases job with
      | expression => cases hroot
      | script =>
        cases hroot
        rw [Writer.printScript_apply root rfl] at h
        exact ⟨root, List.mem_reverse.1 hjob, by simpa [Writer.ofStyle] using h⟩

end Job

namespace Writer

/-- Every text is the one of its job done alone, the helpers are those of the jobs done alone, and
nothing else is left behind but what the last script leaves. -/
theorem jobs_independent (style : Style) (jobs : List Job) :
    let texts := (printAll jobs (ofStyle style)).1
    let w := (printAll jobs (ofStyle style)).2
    (∀ i : Nat, texts[i]? = jobs[i]?.map fun job => (job.run (job.ready style (jobs.take i))).1) ∧
    (∀ k, w.helpers.contains k = true ↔ ∃ (i : Nat) (job : Job), jobs[i]? = some job ∧
      (job.run (job.ready style (jobs.take i))).2.helpers.contains k = true) ∧
    (∀ k, w.helpers.contains k = true ↔ ∃ (i : Nat) (job : Job), jobs[i]? = some job ∧
      (job.run { job.ready style (jobs.take i) with helpers := .none }).2.helpers.contains k =
        true) ∧
    { w with helpers := .none } = { afterLast style jobs with helpers := .none } := by
  intro texts w
  obtain ⟨htexts, hrest, hhelpers⟩ := printAll_atRest (atRest_ofStyle style) jobs
  have hfresh (k : Helper) : (ofStyle style).helpers.contains k = false := by cases k <;> rfl
  simp only [List.nil_append, hfresh, Bool.false_eq_true, false_or] at htexts hrest hhelpers
  refine ⟨fun i => ?_, fun k => ?_, fun k => ?_, hrest.unique (atRest_afterLast style jobs) .none⟩
  · simp only [texts, htexts i]
    exact congrArg (Option.map · jobs[i]?)
      (funext fun job => (job.run_ready style (jobs.take i) _).1.symm)
  · have hrun (i : Nat) (job : Job) :=
      (job.run_ready style (jobs.take i) (job.ready style (jobs.take i)).helpers).2
    simp only [w, hhelpers k]
    constructor
    · rintro ⟨i, job, hjob, hk⟩
      exact ⟨i, job, hjob, by rw [hrun, Helpers.contains_union, hk, Bool.or_true]⟩
    · rintro ⟨i, job, hjob, hk⟩
      rw [hrun, Helpers.contains_union, Bool.or_eq_true] at hk
      rcases hk with hk | hk
      · obtain ⟨root, hroot, hk⟩ := Job.contains_ready hk
        obtain ⟨j, hj⟩ := List.mem_iff_getElem?.1 (List.mem_of_mem_take hroot)
        exact ⟨j, .script root, hj, hk⟩
      · exact ⟨i, job, hjob, hk⟩
  · have hrun (i : Nat) (job : Job) := (job.run_ready style (jobs.take i) .none).2
    simp only [w, hhelpers k, hrun, Helpers.none_union]

end Writer

-- ---------------------------------------------------------------------------
-- Without a buffer
-- ---------------------------------------------------------------------------

namespace Printer

def perform (p : Printer) : Job → String × Printer
  | .script root => p.printScript root
  | .expression node => p.printExpression node

def performAll (p : Printer) : List Job → List String × Printer
  | [] => ([], p)
  | job :: jobs =>
    let first := p.perform job
    let later := first.2.performAll jobs
    (first.1 :: later.1, later.2)

end Printer

namespace Writer

def printer (w : Writer) : Printer := ⟨w.style, w.helpers, w.callables.flatten⟩

theorem run_printer {style : Style} {before : List Job} {w : Writer} (h : w.AtRest style before)
    (job : Job) :
    (job.run w).1 = (w.printer.perform job).1 ∧ (job.run w).2.printer =
      (w.printer.perform job).2 := by
  cases job with
  | script root =>
    rw [Job.run, printScript_apply root h.level]
    exact ⟨rfl, by simp [printer, Printer.perform, Printer.printScript]⟩
  | expression node =>
    have hsetting : w.setting = ⟨w.printer.style, w.printer.named, 0⟩ := by
      rw [setting, h.level]; rfl
    rw [Job.run, printExpression_apply, hsetting]
    exact ⟨rfl, rfl⟩

/-- A writer prints what the printer without a buffer prints, and remembers the same. -/
theorem printAll_eq {style : Style} {before : List Job} {w : Writer} (h : w.AtRest style before)
    (jobs : List Job) :
    (printAll jobs w).1 = (w.printer.performAll jobs).1 ∧
      (printAll jobs w).2.printer = (w.printer.performAll jobs).2 := by
  induction jobs generalizing before w with
  | nil => exact ⟨rfl, rfl⟩
  | cons job jobs ih =>
    obtain ⟨htext, hprinter⟩ := run_printer h job
    obtain ⟨htexts, hend⟩ := ih (Job.run_atRest h job).2.2
    rw [hprinter] at htexts hend
    exact ⟨List.cons_eq_cons.2 ⟨htext, htexts⟩, hend⟩

end Writer

end ScriptToPhp.Php
