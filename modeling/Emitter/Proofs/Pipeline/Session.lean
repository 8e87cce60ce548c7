import Mathlib.Data.List.Induction
import Emitter.Proofs.Pipeline.Compile
import Emitter.Proofs.Pipeline.Stages

/-!
# Calls on one pipeline

A `Session` is a pipeline with the disk that it runs on, and a `Call` is anything a
program can ask of it.  Loading and rendering stay among the steps of the pipeline
(`staged_step`, `staged_run`).  The configuration and whether files are written are as the
last call said that set them (`pipeline_run`), so what the next call does depends on the
history through those two and the disk only.

`Session.Obeys` is what every call keeps to: nothing is written before everything that can
be refused was done, what is written is what rendering gives, and a compilation that
succeeded can be repeated without a trace.  `step_obeys` proves it for one call on a session
with all steps that are needed, and `obeys_after` for the next call after any history.
-/

namespace Emitter

/-- A call on a pipeline. -/
inductive Call where
  | setEnabled (stage : Stage) (enabled : Bool)
  | updateConfig (config : Config)
  | render (t : Tree) (target : String)
  | compile (t : Tree) (target : String) (out : Path)
  | compileFile (input : Path) (target : String) (out : Path)

namespace Call

/-- The flag that a call sets for the write step. -/
def writes? : Call → Option Bool
  | setEnabled .write enabled => some enabled
  | _ => none

/-- The configuration that a call sets. -/
def config? : Call → Option Config
  | updateConfig config => some config
  | _ => none

end Call

/-- What a call returns. -/
inductive Answer where
  | done
  | rendered (result : Except BuildError Files)
  | compiled (result : Except BuildError Compilation)

/-- The failure that an answer reports. -/
def Answer.error? : Answer → Option BuildError
  | rendered (.error e) => some e
  | compiled (.error e) => some e
  | _ => none

/-- A pipeline and the disk that it runs on. -/
structure Session where
  pipeline : Pipeline
  disk : Disk

namespace Session

/-- A new pipeline. -/
def start (config : Config) (disk : Disk) : Session := { pipeline := { config }, disk }

/-- One call. -/
def step (s : Session) : Call → Answer × Session
  | .setEnabled stage enabled =>
    (.done, { s with pipeline := s.pipeline.setEnabled stage enabled })
  | .updateConfig config => (.done, { s with pipeline := { s.pipeline with config } })
  | .render t target => (.rendered (s.pipeline.render t target), s)
  | .compile t target out =>
    let (result, disk) := s.pipeline.compileOn t target out s.disk
    (.compiled result, { s with disk })
  | .compileFile input target out =>
    let (result, disk) := s.pipeline.compileFileOn input target out s.disk
    (.compiled result, { s with disk })

/-- The session after some calls. -/
def run (s : Session) (calls : List Call) : Session := calls.foldl (fun s call => (s.step call).2) s

/-! ## Settings -/

theorem run_append_singleton (s : Session) (history : List Call) (call : Call) :
    s.run (history ++ [call]) = ((s.run history).step call).2 := by
  simp [run]

/-- A call leaves the steps that later ones need switched on, and all steps in their order. -/
theorem staged_step {s : Session} (h : s.pipeline.Staged) (call : Call) :
    (s.step call).2.pipeline.Staged := by
  cases call with
  | setEnabled stage enabled => exact h.setEnabled stage enabled
  | updateConfig config => exact ⟨h.required, h.ascending⟩
  | render | compile | compileFile => exact h

theorem staged_run {s : Session} (h : s.pipeline.Staged) (history : List Call) :
    (s.run history).pipeline.Staged := by
  induction history using List.reverseRecOn with
  | nil => exact h
  | append_singleton history call ih =>
    rw [run_append_singleton]
    exact staged_step ih call

/-- Where every call sets a value or leaves it as it is, the value is that of the last call that
set it. -/
theorem run_eq_last {α : Type} (view : Session → α) (set? : Call → Option α)
    (hstep : ∀ s call, view (s.step call).2 = (set? call).getD (view s)) (s : Session)
    (history : List Call) :
    view (s.run history) = (history.reverse.findSome? set?).getD (view s) := by
  induction history using List.reverseRecOn with
  | nil => rfl
  | append_singleton history call ih =>
    rw [run_append_singleton, hstep, ih]
    cases hcall : set? call <;> simp [hcall]

theorem config_step (s : Session) (call : Call) :
    (s.step call).2.pipeline.config = call.config?.getD s.pipeline.config := by
  cases call with
  | setEnabled stage enabled => exact s.pipeline.config_setEnabled stage enabled
  | updateConfig | render | compile | compileFile => rfl

theorem isEnabled_step (s : Session) (call : Call) :
    (s.step call).2.pipeline.isEnabled .write =
      call.writes?.getD (s.pipeline.isEnabled .write) := by
  cases call with
  | setEnabled stage enabled =>
    refine (s.pipeline.isEnabled_setEnabled stage .write enabled).trans ?_
    cases stage <;> simp [Call.writes?, Stage.isOptional]
  | updateConfig | render | compile | compileFile => rfl

/-- The pipeline that a history of calls leaves: the configuration is that of the last call
that set it, loading and rendering are among the steps, and writing is unless the last call
that switched it said otherwise. -/
def settings (config : Config) (history : List Call) : Pipeline where
  config := (history.reverse.findSome? Call.config?).getD config
  stages :=
    if (history.reverse.findSome? Call.writes?).getD true then [.load, .render, .write]
    else [.load, .render]

theorem pipeline_run (config : Config) (disk : Disk) (history : List Call) :
    ((start config disk).run history).pipeline = settings config history := by
  have hconfig : ((start config disk).run history).pipeline.config =
      (history.reverse.findSome? Call.config?).getD config :=
    run_eq_last (fun s => s.pipeline.config) Call.config? config_step _ history
  have hwrites : ((start config disk).run history).pipeline.isEnabled .write =
      (history.reverse.findSome? Call.writes?).getD true :=
    run_eq_last (fun s => s.pipeline.isEnabled .write) Call.writes? isEnabled_step _ history
  have hstaged : ((start config disk).run history).pipeline.Staged :=
    staged_run (.new config) history
  rw [settings, ← hconfig, ← hwrites, ← hstaged.stages_eq]

/-! ## Compilations -/

/-- What a compilation that succeeds does with the files of its tree. -/
structure Delivers (p : Pipeline) (files : Files) (out : Path) (disk : Disk)
    (result : Compilation) (disk' : Disk) : Prop where
  /-- The files are rendered in ascending order of their paths. -/
  ascending : files.keys.Pairwise fun p q => compare p q = .lt
  /-- They are returned at their paths joined to the output directory and written there one
  by one, which changes no text elsewhere. -/
  written : p.isEnabled .write = true → result.files = Table.ofList (files.under out) ∧
    disk.writeFiles (files.under out) = (.ok (), disk') ∧
    ∃ places, disk.Wrote (files.under out) places disk'
  /-- With writing switched off they are returned as they are. -/
  kept : p.isEnabled .write = false → result.files = files ∧ disk' = disk

section

variable {p : Pipeline} {t : Tree} {target : String} {out : Path} {disk disk' : Disk}
  {result : Compilation}

theorem delivers_of_compileOn (h : p.compileOn t target out disk = (.ok result, disk')) :
    ∃ files, p.render t target = .ok files ∧ Delivers p files out disk result disk' := by
  have hends := p.ends_compileOn t target out disk
  rw [h] at hends
  have hascending : ∀ files : Files, files.keys.Pairwise fun p q => compare p q = .lt :=
    fun files => List.pairwise_map.2 files.ascending
  cases hends with
  | @kept files hrender hoff =>
    exact ⟨files, hrender, hascending files, fun hon => absurd hon (by simp [hoff]),
      fun _ => ⟨rfl, rfl⟩⟩
  | @written files _ hrender hon hfiles =>
    exact ⟨files, hrender, hascending files,
      fun _ => ⟨rfl, hfiles, Disk.writeFiles_spec hfiles⟩, fun hoff => absurd hoff (by simp [hon])⟩

/-- A compilation fails where rendering does, which comes before the first write, or at a
file that cannot be written. -/
theorem cases_of_compileOn_error {e : BuildError}
    (h : p.compileOn t target out disk = (.error e, disk')) :
    p.render t target = .error e ∧ disk' = disk ∨
      p.isEnabled .write = true ∧ ∃ cause, e = .storage cause := by
  have hends := p.ends_compileOn t target out disk
  rw [h] at hends
  cases hends with
  | refused hrender => exact .inl ⟨hrender, rfl⟩
  | @stuck _ cause _ _ hon _ => exact .inr ⟨hon, cause, rfl⟩

/-- A compilation that succeeded can be repeated on the disk that it left. -/
theorem compileOn_again (h : p.compileOn t target out disk = (.ok result, disk')) :
    p.compileOn t target out disk' = (.ok result, disk') := by
  have hends := p.ends_compileOn t target out disk
  rw [h] at hends
  cases hends with
  | kept => exact h
  | written hrender hon hfiles =>
    have hagain := Disk.writeFiles_again hfiles
    have hends := p.ends_compileOn t target out disk'
    generalize p.compileOn t target out disk' = outcome at hends ⊢
    cases hends with
    | refused hrender' => cases hrender.symm.trans hrender'
    | kept _ hoff => simp [hon] at hoff
    | stuck hrender' _ hfiles' =>
      cases hrender.symm.trans hrender'
      cases hagain.symm.trans hfiles'
    | written hrender' _ hfiles' =>
      cases hrender.symm.trans hrender'
      cases hagain.symm.trans hfiles'
      rfl

end

/-! ## What calls keep to -/

/-- What compiling a tree does to a session. -/
structure Compiles (s : Session) (t : Tree) (target : String) (out : Path) (answer : Answer)
    (s' : Session) : Prop where
  pipeline_eq : s'.pipeline = s.pipeline
  /-- What is delivered is what rendering gives. -/
  delivers : ∀ result, answer = .compiled (.ok result) →
    ∃ files, s.step (.render t target) = (.rendered (.ok files), s) ∧
      Delivers s.pipeline files out s.disk result s'.disk
  /-- Where rendering succeeds, only a file that cannot be written is a failure. -/
  fails : ∀ e, answer = .compiled (.error e) →
    s.step (.render t target) = (.rendered (.error e), s) ∨
      s.pipeline.isEnabled .write = true ∧ ∃ cause, e = .storage cause

/-- What a call does to a session, by what it asks for. -/
def Effect (s : Session) (answer : Answer) (s' : Session) : Call → Prop
  -- Only writing can be switched.
  | .setEnabled stage _ => s'.disk = s.disk ∧ (stage ≠ .write → s' = s)
  -- The steps that are taken stay the same.
  | .updateConfig _ => s'.disk = s.disk ∧
    ∀ stage, s'.pipeline.isEnabled stage = s.pipeline.isEnabled stage
  | .render _ _ => s' = s
  -- A success can be repeated: it returns the same and leaves the session with its disk as
  -- it is.
  | .compile t target out => s.Compiles t target out answer s' ∧
    ∀ result, answer = .compiled (.ok result) → s'.step (.compile t target out) = (answer, s')
  | .compileFile input target out =>
    (∃ e, s.disk.readTree input = .error e ∧ answer = .compiled (.error e) ∧ s' = s) ∨
      ∃ t, s.disk.readTree input = .ok t ∧ s.Compiles t target out answer s'

/-- What every call keeps to. -/
structure Obeys (s : Session) (call : Call) (answer : Answer) (s' : Session) : Prop where
  /-- A failure that is not one of the storage leaves the disk as it was. -/
  refused : ∀ e, answer.error? = some e → (∀ cause, e ≠ .storage cause) → s'.disk = s.disk
  effect : s.Effect answer s' call

theorem step_compile_obeys (s : Session) (t : Tree) (target : String) (out : Path) :
    s.Obeys (.compile t target out) (s.step (.compile t target out)).1
      (s.step (.compile t target out)).2 := by
  cases h : s.pipeline.compileOn t target out s.disk with
  | mk result disk' =>
    have hstep : s.step (.compile t target out) = (.compiled result, { s with disk := disk' }) := by
      simp only [step, h]
    rw [hstep]
    cases result with
    | error e =>
      refine ⟨fun e' he hcause => ?_, ⟨rfl, nofun, fun e' he => ?_⟩, nofun⟩
      · cases he
        rcases cases_of_compileOn_error h with ⟨_, hdisk⟩ | ⟨_, cause, hstorage⟩
        · exact hdisk
        · exact absurd hstorage (hcause cause)
      · cases he
        refine (cases_of_compileOn_error h).imp (fun ⟨hrender, _⟩ => ?_) id
        rw [step, hrender]
    | ok compilation =>
      refine ⟨nofun, ⟨rfl, fun result hanswer => ?_, nofun⟩, fun _ _ => ?_⟩
      · cases hanswer
        obtain ⟨files, hrender, hdelivers⟩ := delivers_of_compileOn h
        refine ⟨files, ?_, hdelivers⟩
        rw [step, hrender]
      · simp only [step, compileOn_again h]

theorem step_compileFile_obeys (s : Session) (input : Path) (target : String) (out : Path) :
    s.Obeys (.compileFile input target out) (s.step (.compileFile input target out)).1
      (s.step (.compileFile input target out)).2 := by
  cases hread : s.disk.readTree input with
  | error e =>
    have hstep : s.step (.compileFile input target out) = (.compiled (.error e), s) := by
      simp only [step, Pipeline.compileFileOn_eq, hread]
    rw [hstep]
    exact ⟨fun _ _ _ => rfl, .inl ⟨e, hread, rfl, rfl⟩⟩
  | ok t =>
    -- From here on the call does what compiling the tree does.
    have hstep : s.step (.compileFile input target out) = s.step (.compile t target out) := by
      simp only [step, Pipeline.compileFileOn_eq, hread]
    rw [hstep]
    have hobeys := s.step_compile_obeys t target out
    exact ⟨hobeys.refused, .inr ⟨t, hread, hobeys.effect.1⟩⟩

theorem step_obeys {s : Session} (h : s.pipeline.Staged) (call : Call) :
    s.Obeys call (s.step call).1 (s.step call).2 := by
  cases call with
  | setEnabled stage enabled =>
    refine ⟨fun _ _ _ => rfl, rfl, fun hstage => ?_⟩
    have hoptional : stage.isOptional = false := by
      cases stage with
      | load | render => rfl
      | write => exact absurd rfl hstage
    rw [step, h.setEnabled_eq hoptional]
  | updateConfig config => exact ⟨fun _ _ _ => rfl, rfl, fun _ => rfl⟩
  | render t target => exact ⟨fun _ _ _ => rfl, rfl⟩
  | compile t target out => exact s.step_compile_obeys t target out
  | compileFile input target out => exact s.step_compileFile_obeys input target out

/-- After any history of calls on a new pipeline the settings are those that were set last,
and the next call keeps to what calls keep to. -/
theorem obeys_after (config : Config) (disk : Disk) (history : List Call) (call : Call) :
    ((start config disk).run history).pipeline = settings config history ∧
    ((start config disk).run history).Obeys call
      (((start config disk).run history).step call).1
      (((start config disk).run history).step call).2 :=
  ⟨pipeline_run config disk history, step_obeys (staged_run (.new config) history) call⟩

/-- Nothing is written with writing switched off, while rendering cannot be switched off. -/
example :
    ((start {} {}).run
      [.setEnabled .write false, .compile Tree.splitPackage "java" ⟨"out"⟩]).disk = {} ∧
    ((start {} {}).run
      [.setEnabled .render false, .compile Tree.splitPackage "java" ⟨"out"⟩]).disk.entries.entries =
      [(["out"], .directory), (["out", "a"], .directory),
        (["out", "a", "Functions.java"], .file (some ("package a;\n\n" ++
          "public class Functions \x7b\n    public static f();\n    public static g();\n\x7d"))),
        (["out", "b"], .directory),
        (["out", "b", "Functions.java"], .file (some ("package b;\n\n" ++
          "public class Functions \x7b\n    public static main();\n" ++
          "    public static void main(String[] args) \x7b\n        main();\n    \x7d\n\x7d")))] := by
  decide +kernel

end Session

end Emitter
