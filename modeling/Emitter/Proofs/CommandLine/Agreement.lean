import Emitter.CommandLine.Run
import Emitter.Proofs.Pipeline.Compile
import Emitter.Proofs.Render.Ending

/-!
# Writing files and printing them

Two commands are about the files of a tree: one writes them below a directory and the other
prints them.  They come to the files on different ways.  The first asks whether its input is a
file and leaves loading to the pipeline; the second loads the tree itself and only renders it.

`files?` is what both are about: the files of the tree under the configuration of the command, if
there is one, the tree can be loaded and it has files.  Either command is described by it alone
(`run_emit`, `run_compile`): without files both fail and leave the disk as it is, and with files
the second prints what the first writes, unless writing fails.

A configuration that was checked is not too wide for rendering, so rendering does not break off
and every failure has its report (`exists_ofBuild_of_render`).
-/

namespace Emitter

theorem Disk.isFile_of_readTree {d : Disk} {input : Path} {t : Tree}
    (h : d.readTree input = .ok t) : d.isFile input = true := by
  unfold readTree at h
  split at h
  · cases h
  · next document hread =>
    obtain ⟨content, hfile, _⟩ := bind_eq_ok_iff.1 hread
    rw [isFile, hfile]

namespace CommandLine

/-! ## Runs on a disk -/

/-- What a list of arguments does to a disk. -/
def runOn (args : List String) (d : Disk) : Ending × Disk :=
  (runArgs args : StateM Disk Ending).run d

/-- The configuration of a command on a disk. -/
def configurationOn (d : Disk) (file : Option Path) (o : Overrides) : Except Report Config :=
  ((configuration file o : StateM Disk (Except Report Config)).run d).1

/-- The files that a command is about: those of the tree in a file, under the configuration of the
command and for the target that it names. -/
def files? (d : Disk) (file : Option Path) (o : Overrides) (input : Path) : Option Files := do
  let config ← (configurationOn d file o).toOption
  let t ← (d.readTree input).toOption
  (Pipeline.render { config } t config.target).toOption

/-- A sequence goes on with the result and the disk of its first half. -/
theorem run_bind_of {α β : Type} {x : StateM Disk α} {f : α → StateM Disk β} {d d' : Disk} {a : α}
    (h : x.run d = (a, d')) : (x >>= f).run d = (f a).run d' := by
  rw [StateT.run_bind, h]
  rfl

theorem exists_run_readConfig (d : Disk) (path : Path) :
    ∃ result, (Config.read path : StateM Disk (Except ConfigError Config)).run d = (result, d) := by
  have hread : (Storage.read path : StateM Disk (Except StorageError String)).run d =
      (d.read path, d) := rfl
  rw [Config.read, run_bind_of hread]
  cases d.read path with
  | error e => exact ⟨_, rfl⟩
  | ok document =>
    dsimp only
    cases Config.parse? document <;> exact ⟨_, rfl⟩

/-- Finding the configuration leaves the disk as it is. -/
theorem run_configuration (d : Disk) (file : Option Path) (o : Overrides) :
    (configuration file o : StateM Disk (Except Report Config)).run d =
      (configurationOn d file o, d) := by
  refine Prod.ext rfl ?_
  cases file with
  | none => rfl
  | some path =>
    obtain ⟨result, hread⟩ := exists_run_readConfig d path
    rw [configuration, run_bind_of hread]
    cases result <;> rfl

/-! ## What rendering can fail with -/

theorem check_of_configurationOn {d : Disk} {file : Option Path} {o : Overrides} {config : Config}
    (h : configurationOn d file o = .ok config) : config.check = .ok () := by
  have haccepted : ∀ c, accepted c = .ok config → config.check = .ok () := by
    intro c hc
    unfold accepted at hc
    split at hc
    · next hcheck => cases hc; exact hcheck
    · cases hc
  cases file with
  | none => exact haccepted _ h
  | some path =>
    obtain ⟨result, hread⟩ := exists_run_readConfig d path
    rw [configurationOn, configuration, run_bind_of hread] at h
    cases result with
    | error e => cases h
    | ok settings => exact haccepted _ h

/-- A failure of rendering that is reported: an unknown target or a defect of a node. -/
def IsReported : BuildError → Prop
  | .target _ => True
  | .render halt => halt.IsDefect
  | _ => False

theorem isReported_of_render {config : Config} (t : Tree) (hcheck : config.check = .ok ()) :
    FailsOnly IsReported (Pipeline.render { config } t config.target) := by
  have hwidth : 5 * config.indentWidth < widthLimit := by
    have := (Config.check_eq_ok_iff.1 hcheck).indentWidth.2
    unfold widthLimit
    omega
  rw [Pipeline.render, Config.optionsFor, hcheck]
  intro e he
  cases htarget : Target.named? config.target with
  | none =>
    simp only [htarget] at he
    cases he
    trivial
  | some target =>
    simp only [htarget] at he
    cases hfiles : t.generate (config.options target) with
    | ok files => cases (congrArg (Except.mapError BuildError.render) hfiles).symm.trans he
    | error halt =>
      cases (congrArg (Except.mapError BuildError.render) hfiles).symm.trans he
      exact Tree.isDefect_of_generate (o := config.options target) hwidth halt hfiles

/-- A failure has a report unless rendering broke off. -/
theorem exists_ofBuild {e : BuildError} (h : ∀ halt, e = .render halt → halt.IsDefect) :
    ∃ report, Report.ofBuild e = .failure report := by
  cases e with
  | render halt =>
    cases halt with
    | defect cause => exact ⟨_, rfl⟩
    | outside | tooWide => exact (h _ rfl).elim
  | _ => exact ⟨_, rfl⟩

theorem exists_ofBuild_of_readTree {d : Disk} {input : Path} {e : BuildError}
    (h : d.readTree input = .error e) : ∃ report, Report.ofBuild e = .failure report := by
  refine exists_ofBuild fun halt he => ?_
  subst he
  unfold Disk.readTree at h
  split at h
  · cases h
  · next document _ => cases htree : Tree.parse document <;> simp [htree, Except.mapError] at h

theorem exists_ofBuild_of_render {config : Config} {t : Tree} {e : BuildError}
    (hcheck : config.check = .ok ())
    (h : Pipeline.render { config } t config.target = .error e) :
    ∃ report, Report.ofBuild e = .failure report := by
  have hreported := isReported_of_render t hcheck e h
  exact exists_ofBuild fun halt he => by rwa [he] at hreported

/-! ## The two commands -/

/-- How a command ends. -/
def ending : Except (Stop Report) String → Ending
  | .ok output => { code := 0, output }
  | .error (.failure report) => { code := 1, report := some report.text }
  | .error .breakdown => { code := 101 }

theorem runOn_eq {args : List String} {invocation : Invocation}
    (h : Request.ofArgs args = .run invocation) (d : Disk) :
    runOn args d =
      Prod.map ending id ((run invocation : StateM Disk (Except (Stop Report) String)).run d) := by
  rw [runOn, runArgs, h]
  simp only [StateT.run_bind]
  rcases hrun : (run invocation : StateM Disk (Except (Stop Report) String)).run d with ⟨result, d'⟩
  cases result with
  | ok output => rfl
  | error stop => cases stop <;> rfl

/-- A command that prints prints the files, or fails if there are none. -/
theorem run_emit (d : Disk) (file : Option Path) (o : Overrides) (input : Path) (v : Bool) :
    ∃ result, (run { verbose := v, config := file, command := .emit input o } :
        StateM Disk (Except (Stop Report) String)).run d = (result, d) ∧
      match files? d file o input with
      | none => ∃ report, result = .error (.failure report)
      | some files => result = .ok (listings files) := by
  simp only [run, files?]
  rw [run_bind_of (run_configuration d file o)]
  cases hconfig : configurationOn d file o with
  | error report => exact ⟨_, rfl, report, rfl⟩
  | ok config =>
    show ∃ result, (emit config input : StateM Disk (Except (Stop Report) String)).run d = _ ∧ _
    rw [emit, run_bind_of (d.run_read input)]
    cases htree : d.readTree input with
    | error e =>
      obtain ⟨report, hreport⟩ := exists_ofBuild_of_readTree htree
      exact ⟨_, rfl, _, by rw [hreport]; rfl⟩
    | ok t =>
      dsimp only [Except.toOption, bind, Option.bind]
      cases hrender : Pipeline.render { config } t config.target with
      | error e =>
        obtain ⟨report, hreport⟩ :=
          exists_ofBuild_of_render (check_of_configurationOn hconfig) hrender
        exact ⟨_, rfl, report, by rw [hreport]⟩
      | ok files => exact ⟨_, rfl, rfl⟩

/-- What a command that writes makes of a compilation. -/
def compiled (input : Path) : Except BuildError Compilation → Except (Stop Report) String
  | .ok _ => .ok ""
  | .error e =>
    .error ((Report.ofBuild e).map (Report.within ("failed to compile " ++ input.text)))

theorem exists_compiled {e : BuildError} (input : Path)
    (h : ∃ report, Report.ofBuild e = .failure report) :
    ∃ report, compiled input (.error e) = .error (.failure report) := by
  obtain ⟨report, hreport⟩ := h
  exact ⟨_, by rw [compiled, hreport]; rfl⟩

/-- With a file as its input the command is a compilation. -/
theorem run_compile_of_isFile {d : Disk} {input : Path} (h : d.isFile input = true)
    (config : Config) (output : Path) :
    (compile config input output : StateM Disk (Except (Stop Report) String)).run d =
      Prod.map (compiled input) id
        (Pipeline.compileFileOn { config } input config.target output d) := by
  have hisFile : (Storage.isFile input : StateM Disk Bool).run d = (true, d) := by
    rw [← h]
    rfl
  rw [compile, run_bind_of hisFile]
  rcases hcompile : Pipeline.compileFileOn { config } input config.target output d with ⟨result, d'⟩
  show ((Pipeline.compileFile _ _ _ _ : StateM Disk (Except BuildError Compilation)) >>= _).run d =
    _
  rw [run_bind_of hcompile]
  cases result <;> rfl

theorem run_compile_of_not_isFile {d : Disk} {input : Path} (h : d.isFile input = false)
    (config : Config) (output : Path) :
    ∃ report, (compile config input output : StateM Disk (Except (Stop Report) String)).run d =
      (.error (.failure report), d) := by
  have hisFile : (Storage.isFile input : StateM Disk Bool).run d = (false, d) := by
    rw [← h]
    rfl
  rw [compile, run_bind_of hisFile]
  exact ⟨_, rfl⟩

/-- A command that writes ends as writing the files does, or fails before it touches the disk if
there are none. -/
theorem run_compile (d : Disk) (file : Option Path) (o : Overrides) (input output : Path)
    (v : Bool) :
    ∃ result d', (run { verbose := v, config := file, command := .compile input output o } :
        StateM Disk (Except (Stop Report) String)).run d = (result, d') ∧
      match files? d file o input with
      | none => d' = d ∧ ∃ report, result = .error (.failure report)
      | some files =>
        (result = .ok "" ∧ d.writeFiles (files.under output) = (.ok (), d')) ∨
        ∃ e, result = compiled input (.error (.storage e)) ∧
          d.writeFiles (files.under output) = (.error e, d') := by
  simp only [run, files?]
  rw [run_bind_of (run_configuration d file o)]
  cases hconfig : configurationOn d file o with
  | error report => exact ⟨_, d, rfl, rfl, report, rfl⟩
  | ok config =>
    show ∃ result d',
      (compile config input output : StateM Disk (Except (Stop Report) String)).run d = _ ∧ _
    cases hread : d.readTree input with
    | error e =>
      cases hisFile : d.isFile input with
      | false =>
        obtain ⟨report, hrun⟩ := run_compile_of_not_isFile hisFile config output
        exact ⟨_, d, hrun, rfl, report, rfl⟩
      | true =>
        rw [run_compile_of_isFile hisFile, Pipeline.compileFileOn_eq, hread]
        exact ⟨_, d, rfl, rfl, exists_compiled input (exists_ofBuild_of_readTree hread)⟩
    | ok t =>
      -- What can be read is a file, so the question whether the input is one changes nothing.
      rw [run_compile_of_isFile (Disk.isFile_of_readTree hread), Pipeline.compileFileOn_eq, hread]
      dsimp only [Except.toOption, bind, Option.bind]
      rcases hends : Pipeline.compileOn { config } t config.target output d with ⟨result, d'⟩
      have h := Pipeline.ends_compileOn { config } t config.target output d
      rw [hends] at h
      cases h with
      | refused hrender =>
        have hreport := exists_ofBuild_of_render (check_of_configurationOn hconfig) hrender
        exact ⟨_, d, rfl, by rw [hrender]; exact ⟨rfl, exists_compiled input hreport⟩⟩
      | kept _ hwrites => cases hwrites
      | stuck hrender _ hfiles => exact ⟨_, d', rfl, by rw [hrender]; exact .inr ⟨_, rfl, hfiles⟩⟩
      | written hrender _ hfiles => exact ⟨_, d', rfl, by rw [hrender]; exact .inl ⟨rfl, hfiles⟩⟩

/-! ## Agreement -/

/-- Both commands are about the same files.  If there are none, both fail and the disk stays as it
is; rendering fails in no way but those that are reported.  If there are, the one prints each of
them, in path order, under a line with its path, and the other writes them all below its directory
unless writing one fails. -/
theorem compile_agrees_with_emit (d : Disk) (compileArgs emitArgs : List String) (v₁ v₂ : Bool)
    (file : Option Path) (o : Overrides) (input output : Path)
    (hcompile : Request.ofArgs compileArgs =
      .run { verbose := v₁, config := file, command := .compile input output o })
    (hemit : Request.ofArgs emitArgs =
      .run { verbose := v₂, config := file, command := .emit input o }) :
    (files? d file o input = none →
      (∃ report, runOn emitArgs d = ({ code := 1, report := some report }, d)) ∧
      ∃ report, runOn compileArgs d = ({ code := 1, report := some report }, d)) ∧
    (∀ config t, configurationOn d file o = .ok config →
      FailsOnly IsReported (Pipeline.render { config } t config.target)) ∧
    ∀ files, files? d file o input = some files →
      files.keys.Pairwise (fun first second => compare first second = .lt) ∧
      runOn emitArgs d = ({ code := 0, output := String.join (files.entries.map fun (path, text) =>
        "// " ++ path.text ++ "\n" ++ text ++ "\n\n") }, d) ∧
      ((∃ places d', d.writeFiles (files.under output) = (.ok (), d') ∧
          d.Wrote (files.under output) places d' ∧ runOn compileArgs d = ({ code := 0 }, d')) ∨
        ∃ e d', d.writeFiles (files.under output) = (.error e, d') ∧
          runOn compileArgs d = ({ code := 1, report := some (Report.text
            { message := "failed to compile " ++ input.text
              causes := ["I/O error: " ++ e.message, e.message] }) }, d')) := by
  obtain ⟨printed, hprint, hprinted⟩ := run_emit d file o input v₂
  obtain ⟨written, d', hwrite, hwritten⟩ := run_compile d file o input output v₁
  rw [runOn_eq hemit, runOn_eq hcompile, hprint, hwrite]
  refine ⟨fun hnone => ?_, fun config t h => isReported_of_render t (check_of_configurationOn h),
    fun files hsome => ?_⟩
  · rw [hnone] at hprinted hwritten
    obtain ⟨printedReport, rfl⟩ := hprinted
    obtain ⟨rfl, writtenReport, rfl⟩ := hwritten
    exact ⟨⟨_, rfl⟩, _, rfl⟩
  · rw [hsome] at hprinted hwritten
    obtain rfl := hprinted
    refine ⟨List.pairwise_map.2 files.ascending, rfl, ?_⟩
    rcases hwritten with ⟨rfl, hfiles⟩ | ⟨e, rfl, hfiles⟩
    · obtain ⟨places, hwrote⟩ := Disk.writeFiles_spec hfiles
      exact .inl ⟨places, d', hfiles, hwrote, rfl⟩
    · exact .inr ⟨e, d', hfiles, rfl⟩

/-- A disk with the tree of a function and a configuration that names its class. -/
def oneFunction : Disk where
  entries := Table.ofList [
    (["tree.json"], .file (some
      "[[[[\"Root\",[1]]],[[\"Function\",[\"f\"],null,[],2]],[[\"Block\",[3]]],[[\"Return\"]]],0]")),
    (["host.toml"], .file (some "holder_type = \"Host\"\nindent_width = 8\n"))]

/-- The file of `oneFunction`, with the width that the arguments ask for. -/
def oneFunctionFiles : Files :=
  Table.ofList [(⟨"Host.java"⟩,
    "public class Host \x7b\n  public static f() \x7b\n    return;\n  \x7d\n\x7d")]

theorem compile_agrees_with_emit_oneFunction :
    files? oneFunction (some ⟨"host.toml"⟩) { indent := some 2 } ⟨"tree.json"⟩ =
        some oneFunctionFiles ∧
      (∃ places d', oneFunction.Wrote (oneFunctionFiles.under ⟨"dist"⟩) places d' ∧
        runOn ["-c", "host.toml", "compile", "tree.json", "--indent=2"] oneFunction =
          ({ code := 0 }, d')) ∧
      runOn ["-c", "host.toml", "emit", "--indent", "2", "tree.json"] oneFunction =
        ({ code := 0
           output := "// Host.java\npublic class Host \x7b\n  public static f() \x7b\n" ++
             "    return;\n  \x7d\n\x7d\n\n" }, oneFunction) := by
  have hfiles : files? oneFunction (some ⟨"host.toml"⟩) { indent := some 2 } ⟨"tree.json"⟩ =
      some oneFunctionFiles := by decide +kernel
  have hwrites : (oneFunction.writeFiles (oneFunctionFiles.under ⟨"dist"⟩)).1 = .ok () := by
    decide +kernel
  obtain ⟨_, _, h⟩ := compile_agrees_with_emit oneFunction
    ["-c", "host.toml", "compile", "tree.json", "--indent=2"]
    ["-c", "host.toml", "emit", "--indent", "2", "tree.json"] false false (some ⟨"host.toml"⟩)
    { indent := some 2 } ⟨"tree.json"⟩ ⟨"dist"⟩ (by decide +kernel) (by decide +kernel)
  obtain ⟨_, hemit, ⟨places, d', _, hwrote, hcompile⟩ | ⟨e, d', herror, _⟩⟩ := h _ hfiles
  · exact ⟨hfiles, ⟨places, d', hwrote, hcompile⟩, hemit⟩
  · rw [herror] at hwrites
    cases hwrites

end CommandLine

end Emitter
