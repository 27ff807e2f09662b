import TypeGuard.Cli.Run
import TypeGuard.Proofs.Files.Contents
import Mathlib.Data.List.Forall2
import Mathlib.Data.List.Nodup

/-!
# Output files

What a command that compiles files into a directory leaves there. All files are read before the
first one is written, so that what is written depends on the tree at the start alone.

## Main definitions

* `Shell.Yields`, `Shell.Stops`, `Writes`: how a step ends, with one rule for each way in which steps
  are put together.
* `Job`: a command whose files can be read and whose output goes to a directory.
* `Job.Keeps`: a tree holds the code of every file that compiles.

## Main results

* `Job.writes_runCompile`: the command deposits its outputs, one after the other.
* `Job.run_keeps_iff`: the exit code and the files that a run leaves, and when no code is lost.
-/

namespace TypeGuard.Cli

/-! ## Steps of a run -/

namespace Shell

variable {α β : Type} {t t' t'' : FileTree}

/-- Started on the first tree, the step succeeds with `a` and leaves the second one. -/
def Yields (step : Shell α) (t : FileTree) (a : α) (t' : FileTree) : Prop :=
  ∀ c : Console, c.tree = t → ∃ c' : Console, ExceptT.run step c = (.ok a, c') ∧ c'.tree = t'

/-- Started on the tree, the step ends the run, since the command cannot do its work. -/
def Stops (step : Shell α) (t : FileTree) : Prop :=
  ∀ c : Console, c.tree = t → ∃ c' : Console, ExceptT.run step c = (.error exitFailure, c')

theorem run_bind (x : Shell α) (f : α → Shell β) (c : Console) :
    ExceptT.run (x >>= f) c = match ExceptT.run x c with
      | (.ok a, mid) => ExceptT.run (f a) mid
      | (.error e, mid) => (.error e, mid) := by
  change (match ExceptT.run x c with | (r, mid) => ExceptT.bindCont f r mid) = _
  rcases ExceptT.run x c with ⟨_ | a, mid⟩ <;> rfl

theorem Yields.pure (a : α) : Yields (Pure.pure a) t a t := fun c h => ⟨c, rfl, h⟩

theorem Yields.bind {x : Shell α} {f : α → Shell β} {a : α} {b : β} (hx : Yields x t a t')
    (hf : Yields (f a) t' b t'') : Yields (x >>= f) t b t'' := by
  intro c started
  obtain ⟨mid, first, kept⟩ := hx c started
  rw [run_bind, first]
  exact hf mid kept

theorem Yields.bind_stops {x : Shell α} {f : α → Shell β} {a : α} (hx : Yields x t a t')
    (hf : Stops (f a) t') : Stops (x >>= f) t := by
  intro c started
  obtain ⟨mid, first, kept⟩ := hx c started
  rw [run_bind, first]
  exact hf mid kept

theorem Stops.bind {x : Shell α} {f : α → Shell β} (hx : Stops x t) : Stops (x >>= f) t := by
  intro c started
  obtain ⟨mid, first⟩ := hx c started
  exact ⟨mid, by rw [run_bind, first]⟩

theorem Yields.get_bind {f : Console → Shell β} {b : β}
    (h : ∀ c, c.tree = t → Yields (f c) t b t') : Yields (get >>= f) t b t' :=
  fun c started => h c started c started

theorem Stops.get_bind {f : Console → Shell β} (h : ∀ c, c.tree = t → Stops (f c) t) :
    Stops (get >>= f) t :=
  fun c started => h c started c started

theorem yields_modify {f : Console → Console} (h : ∀ c, c.tree = t → (f c).tree = t') :
    Yields (modify f) t () t' :=
  fun c started => ⟨f c, rfl, h c started⟩

theorem yields_log (event : Event) : Yields (log event) t () t := by
  apply yields_modify
  intro c started
  split <;> exact started

theorem stops_fail (event : Event) : Stops (fail event : Shell α) t :=
  (yields_log event).bind_stops fun c _ => ⟨c, rfl⟩

theorem Yields.mapM {f : β → Shell α} {xs : List β} {as : List α}
    (h : List.Forall₂ (fun x a => Yields (f x) t a t) xs as) : Yields (xs.mapM f) t as t := by
  induction h with
  | nil => exact .pure []
  | cons first _ ih =>
    rw [List.mapM_cons]
    exact first.bind (ih.bind (.pure _))

theorem Yields.forM {f : β → Shell PUnit} {xs : List β} (h : ∀ x ∈ xs, Yields (f x) t () t) :
    Yields (xs.forM f) t () t := by
  induction xs with
  | nil => exact .pure ()
  | cons x xs ih =>
    obtain ⟨first, others⟩ := List.forall_mem_cons.1 h
    exact first.bind (ih others)

end Shell

open Shell

/-! ## What a command works on -/

/-- The absolute path that an argument stands for. -/
def Names (t : FileTree) (raw : String) (path : Path) : Prop :=
  '\x00' ∉ raw.toList ∧ ((Path.ofString raw).expandHome t.home).map t.directory.resolve = some path

instance {t : FileTree} {raw : String} {path : Path} : Decidable (Names t raw path) :=
  inferInstanceAs (Decidable (_ ∧ _))

/-- An argument stands for a file with a text. -/
structure Reads (t : FileTree) (raw : String) (path : Path) (text : String) : Prop where
  names : Names t raw path
  present : ∃ entry, t.status path = .ok (some entry)
  text : t.readText path path.render = .ok text

/-- The options that an options file has, if there is one. -/
inductive Configures (t : FileTree) : Option String → Options → Prop where
  | none : Configures t none {}
  | unnamed : Configures t (some "") {}
  | file {raw : String} {path : Path} {text : String} {value : Json} {options : Options} :
    raw ≠ "" → Reads t raw path text → Json.parse text = .ok value →
      Options.ofJson value = .ok options → Configures t (some raw) options

/-! ## Reading -/

theorem yields_resolve {t : FileTree} {raw : String} {path : Path} (h : Names t raw path) :
    Yields (resolve raw) t path t := by
  apply Yields.get_bind
  rintro c rfl
  obtain ⟨noNull, resolved⟩ := h
  obtain ⟨expanded, found, rfl⟩ := Option.map_eq_some_iff.1 resolved
  simp only [found, List.contains_eq_mem, noNull, decide_false, Bool.false_eq_true, if_false]
  exact .pure _

theorem Reads.yields_existing {t : FileTree} {raw text : String} {path : Path}
    (h : Reads t raw path text) (label : String) : Yields (existing label raw) t path t := by
  apply (yields_resolve h.names).bind
  apply Yields.get_bind
  rintro c rfl
  obtain ⟨entry, present⟩ := h.present
  rw [present]
  exact .pure path

theorem Reads.yields_readFile {t : FileTree} {raw text : String} {path : Path}
    (h : Reads t raw path text) : Yields (readFile path) t text t := by
  apply Yields.get_bind
  rintro c rfl
  rw [h.text]
  exact .pure text

theorem Reads.yields_readOptions {t : FileTree} {raw text : String} {path : Path} {value : Json}
    {options : Options} (h : Reads t raw path text) (parsed : Json.parse text = .ok value)
    (valid : Options.ofJson value = .ok options) : Yields (readOptions raw) t options t := by
  apply (h.yields_existing "options file").bind
  apply Yields.get_bind
  rintro c rfl
  simp only [h.text, parsed, valid]
  exact .pure options

theorem Reads.yields_compileFile {t : FileTree} {raw text : String} {path : Path}
    (h : Reads t raw path text) (options : Options) :
    Yields (compileFile options path) t (compile options path.render text) t := by
  apply h.yields_readFile.bind
  have logged : Yields ((compile options path.render text).journal.forM log) t () t :=
    .forM fun event _ => yields_log event
  exact logged.bind (.pure _)

theorem yields_compileFiles {t : FileTree} {raws : List String} {sources : List (Path × String)}
    (h : List.Forall₂ (fun raw source => Reads t raw source.1 source.2) raws sources)
    (options : Options) :
    Yields ((sources.map (·.1)).mapM (compileFile options)) t
      (sources.map fun source => compile options source.1.render source.2) t := by
  apply Yields.mapM
  induction h with
  | nil => exact .nil
  | cons reads _ ih => exact .cons (reads.yields_compileFile options) ih

/-! ## Writing -/

/-- The step succeeds with `a` and leaves the tree that writing gives, or ends the run if the tree
cannot be written. -/
def Writes {α : Type} (step : Shell α) (t : FileTree) (a : α) : Except FileError FileTree → Prop
  | .ok t' => Yields step t a t'
  | .error _ => Stops step t

section
variable {α β : Type} {x : Shell α} {f : α → Shell β} {a : α} {b : β} {t t' : FileTree}
  {r : Except FileError FileTree} {next : FileTree → Except FileError FileTree}

theorem Shell.Yields.bind_writes (hx : Yields x t a t') (hf : Writes (f a) t' b r) :
    Writes (x >>= f) t b r := by
  cases r with
  | error e => exact hx.bind_stops hf
  | ok t'' => exact hx.bind hf

theorem Writes.bind (hx : Writes x t a r) (hf : ∀ t', r = .ok t' → Writes (f a) t' b (next t')) :
    Writes (x >>= f) t b (r >>= next) := by
  cases r with
  | error e => exact Stops.bind hx
  | ok mid => exact Yields.bind_writes hx (hf mid rfl)

theorem Writes.bind_yields (hx : Writes x t a r) (hf : ∀ t', Yields (f a) t' b t') :
    Writes (x >>= f) t b r := by
  cases r with
  | error e => exact Stops.bind hx
  | ok mid => exact Yields.bind hx (hf mid)

theorem Writes.get_bind {f : Console → Shell β} (h : ∀ c, c.tree = t → Writes (f c) t b r) :
    Writes (get >>= f) t b r := by
  cases r with
  | error e => exact Stops.get_bind h
  | ok t' => exact Yields.get_bind h

end

theorem writes_move (t t' : FileTree) :
    Writes (modify fun c => { c with tree := t' }) t () (.ok t') :=
  yields_modify fun _ _ => rfl

/-- The code of a file is deposited under the stem of the file. -/
theorem writes_writeCode (t : FileTree) (d : Path) (o : Outcome) (code : String) :
    Writes (writeCode d o code) t ()
      (t.deposit d ((Path.ofString o.file).stem ++ ".js") code) := by
  apply Writes.get_bind
  rintro c rfl
  unfold FileTree.deposit
  dsimp only
  cases c.tree.makeDirectory d with
  | error e => exact stops_fail _
  | ok made =>
    refine (writes_move c.tree made).bind ?_
    rintro _ ⟨⟩
    change Writes _ made () (made.write (target d o.file) code)
    cases made.write (target d o.file) code with
    | error e => exact stops_fail _
    | ok written => exact (writes_move made written).bind_yields fun _ => yields_log _

theorem Names.of_deposit {t t' : FileTree} {raw : String} {d d' : Path} {name text : String}
    (h : Names t raw d') (written : t.deposit d name text = .ok t') : Names t' raw d' := by
  obtain ⟨directory, home⟩ := FileTree.directory_home_deposit written
  unfold Names at h ⊢
  rwa [directory, home]

/-- The name and the text that a file contributes to a directory; one that fails contributes
nothing. -/
def output? (o : Outcome) : Option (String × String) :=
  match o.result with
  | .ok code => some ((Path.ofString o.file).stem ++ ".js", code)
  | .error _ => none

theorem output?_eq_some_iff {o : Outcome} {w : String × String} :
    output? o = some w ↔ o.result = .ok w.2 ∧ (Path.ofString o.file).stem ++ ".js" = w.1 := by
  obtain ⟨name, text⟩ := w
  unfold output?
  cases o.result <;> simp [and_comm]

/-- The codes of files are deposited one after the other, until one of them cannot be. -/
theorem writes_putCodes {t : FileTree} {raw : String} {d : Path} (names : Names t raw d)
    (named : raw ≠ "-") (several : Bool) (outcomes : List Outcome) :
    Writes (outcomes.forM (putCode (some raw) several)) t ()
      (FileTree.depositAll d t (outcomes.filterMap output?)) := by
  induction outcomes generalizing t with
  | nil => exact Yields.pure ()
  | cons o outcomes ih =>
    change Writes (putCode (some raw) several o >>= fun _ => _) t () _
    cases result : o.result with
    | error e =>
      have nothing : output? o = none := by rw [output?, result]
      have passed : putCode (some raw) several o = pure () := by rw [putCode, result]
      rw [List.filterMap_cons_none nothing, passed, pure_bind]
      exact ih names
    | ok code =>
      have given : output? o = some ((Path.ofString o.file).stem ++ ".js", code) :=
        output?_eq_some_iff.2 ⟨result, rfl⟩
      have put : putCode (some raw) several o = resolve raw >>= fun d => writeCode d o code := by
        simp [putCode, result, Option.filter, named]
      rw [List.filterMap_cons_some given, FileTree.depositAll, List.foldlM_cons, put]
      have first : Writes (resolve raw >>= fun d => writeCode d o code) t () _ :=
        (yields_resolve names).bind_writes (writes_writeCode t d o code)
      exact first.bind fun t' written => ih (names.of_deposit written)

/-! ## Ends of runs -/

section
variable {t t' : FileTree} {argv : List String} {invocation : Invocation}
  (parsed : parse argv = .ok invocation)
include parsed

theorem run_of_yields {code : Nat} (h : Yields invocation.command.run t code t') :
    ∃ result, run t argv = .done result ∧ result.exit = code ∧ result.tree = t' := by
  obtain ⟨c, ran, left⟩ := h { tree := t, threshold := threshold invocation.verbosity } rfl
  refine ⟨⟨code, c.stdout, c.stderr, c.tree⟩, ?_, rfl, left⟩
  unfold run
  simp only [parsed, ran]

theorem run_of_stops (h : Stops invocation.command.run t) :
    ∃ result, run t argv = .done result ∧ result.exit = exitFailure := by
  obtain ⟨c, ran⟩ := h { tree := t, threshold := threshold invocation.verbosity } rfl
  refine ⟨⟨exitFailure, c.stdout, c.stderr, c.tree⟩, ?_, rfl⟩
  unfold run
  simp only [parsed, ran]

end

/-! ## Jobs -/

/-- A command that compiles files into a directory: its options can be loaded, its files can be
read, and the directory has a name. -/
structure Job (t : FileTree) (args : CompileArgs) where
  /-- The options of the options file. -/
  base : Options
  /-- The files and their texts. -/
  sources : List (Path × String)
  /-- The directory as it is given. -/
  output : String
  directory : Path
  configured : Configures t args.options base
  read : List.Forall₂ (fun raw source => Reads t raw source.1 source.2) args.files sources
  given : args.output = some output
  named : output ≠ "-"
  resolved : Names t output directory

namespace Job

variable {t : FileTree} {args : CompileArgs} (job : Job t args)

/-- The options of the command, with the switches of the command line. -/
def options : Options :=
  let given (switch : Bool) : Option Bool := if switch then some true else none
  job.base.merged (given args.skipHelpers) (given args.skipAsserts)

/-- What becomes of the files. -/
def outcomes : List Outcome :=
  job.sources.map fun source => compile job.options source.1.render source.2

/-- The names and texts that go into the directory, in order. -/
def outputs : List (String × String) := job.outcomes.filterMap output?

/-- The directory takes every output. -/
def Fits : Prop := ∀ o ∈ job.outputs, t.Receives job.directory o.1

/-- A tree holds the code of every file that compiles. -/
def Keeps (t' : FileTree) : Prop :=
  ∀ o ∈ job.outcomes, ∀ code, o.result = .ok code →
    t'.contents? (target job.directory o.file) = some code.toUTF8.toList

/-- Files that compile have the same code if they have the same stem. -/
def Agrees : Prop :=
  ∀ o ∈ job.outcomes, ∀ o' ∈ job.outcomes, ∀ code code',
    o.result = .ok code → o'.result = .ok code' →
      (Path.ofString o.file).stem = (Path.ofString o'.file).stem → code = code'

theorem yields_loadOptions : Yields (loadOptions args) t job.options t := by
  have configured := job.configured
  unfold loadOptions options
  generalize job.base = base at configured ⊢
  generalize args.options = file at configured ⊢
  cases configured with
  | none => exact (Yields.pure _).bind (.pure _)
  | unnamed => exact (Yields.pure _).bind (.pure _)
  | file named reads parsed valid =>
    dsimp only
    split
    next none => cases none
    next unnamed => exact absurd (Option.some_inj.1 unnamed) named
    next given =>
      rw [← Option.some_inj.1 given]
      exact (reads.yields_readOptions parsed valid).bind (.pure _)

theorem yields_compileAll : Yields (compileAll args) t job.outcomes t := by
  have paths : Yields (args.files.mapM (existing "source file")) t (job.sources.map (·.1)) t := by
    apply Yields.mapM
    exact List.forall₂_map_right_iff.2 (job.read.imp fun _ _ reads => reads.yields_existing _)
  exact job.yields_loadOptions.bind <| paths.bind <| (yields_log _).bind <|
    yields_compileFiles job.read job.options

theorem writes_runCompile :
    Writes (runCompile args) t (exitCode (reportOf job.outcomes))
      (t.depositAll job.directory job.outputs) := by
  apply job.yields_compileAll.bind_writes
  rw [job.given]
  apply (writes_putCodes job.resolved job.named _ job.outcomes).bind_yields
  intro t'
  have reported : Yields (putErr (showReport args.json (reportOf job.outcomes))) t' () t' :=
    yields_modify fun _ kept => kept
  exact reported.bind (.pure _)

theorem mem_outputs_iff {w : String × String} :
    w ∈ job.outputs ↔ ∃ o ∈ job.outcomes, o.result = .ok w.2 ∧
      (Path.ofString o.file).stem ++ ".js" = w.1 := by
  simp only [outputs, List.mem_filterMap, output?_eq_some_iff]

theorem keeps_iff {t' : FileTree} :
    job.Keeps t' ↔
      ∀ w ∈ job.outputs, t'.contents? (job.directory.child w.1) = some w.2.toUTF8.toList := by
  constructor
  · intro keeps w member
    obtain ⟨o, compiled, ok, named⟩ := job.mem_outputs_iff.1 member
    rw [← named]
    exact keeps o compiled w.2 ok
  · intro kept o compiled code ok
    exact kept (_, code) (job.mem_outputs_iff.2 ⟨o, compiled, ok, rfl⟩)

theorem agrees_iff :
    job.Agrees ↔ ∀ v ∈ job.outputs, ∀ w ∈ job.outputs, v.1 = w.1 → v.2 = w.2 := by
  constructor
  · intro agrees v hv w hw same
    obtain ⟨o, compiled, ok, named⟩ := job.mem_outputs_iff.1 hv
    obtain ⟨o', compiled', ok', named'⟩ := job.mem_outputs_iff.1 hw
    apply agrees o compiled o' compiled' _ _ ok ok'
    rw [← named, ← named'] at same
    exact (String.append_left_inj ".js").1 same
  · intro agree o compiled o' compiled' code code' ok ok' same
    have hv := job.mem_outputs_iff (w := (_, code)).2 ⟨o, compiled, ok, rfl⟩
    have hw := job.mem_outputs_iff (w := (_, code')).2 ⟨o', compiled', ok', rfl⟩
    exact agree _ hv _ hw (congrArg (· ++ ".js") same)

/-- The exit code tells whether all files have compiled. -/
theorem exitCode_reportOf (outcomes : List Outcome) :
    exitCode (reportOf outcomes) = if outcomes.all Outcome.isOk then 0 else exitError := by
  have failed (o : Outcome) : o.diagnostic? = none ↔ o.isOk = true := by
    unfold Outcome.diagnostic? Outcome.isOk
    cases o.result <;> simp [Except.isOk, Except.toBool]
  have errors : (reportOf outcomes).hasErrors = !outcomes.all Outcome.isOk := by
    rw [Bool.eq_iff_iff]
    simp [reportOf, Report.hasErrors, ← failed]
  rw [exitCode, errors]
  cases outcomes.all Outcome.isOk <;> rfl

/-- A run of a command that compiles files into a directory fails if and only if the directory does
not take every output. If it does, then the exit code tells whether all files have compiled, the
tree has at each path the code of the last file that goes there and elsewhere what it had before, and
no code is lost if and only if files with the same stem have the same code. -/
theorem run_keeps_iff {argv : List String} {verbosity : Nat}
    (parsed : parse argv = .ok ⟨verbosity, .compile args⟩) :
    ∃ result, run t argv = .done result ∧ (result.exit = exitFailure ↔ ¬ job.Fits) ∧
      (job.Fits →
        (result.exit = if job.outcomes.all Outcome.isOk then 0 else exitError) ∧
        (∀ p, result.tree.contents? p =
          ((FileTree.lastText? job.directory job.outputs p).map (·.toUTF8.toList)).or
            (t.contents? p)) ∧
        (job.Keeps result.tree ↔ job.Agrees)) := by
  have fits : job.Fits ↔ ∃ t', t.depositAll job.directory job.outputs = .ok t' :=
    FileTree.exists_depositAll_iff.symm
  have writes := job.writes_runCompile
  rw [fits]
  cases written : t.depositAll job.directory job.outputs with
  | error e =>
    rw [written] at writes
    obtain ⟨result, ran, failed⟩ := run_of_stops parsed writes
    exact ⟨result, ran, by simp [failed], nofun⟩
  | ok t' =>
    rw [written] at writes
    obtain ⟨result, ran, exit, rfl⟩ := run_of_yields parsed writes
    rw [exitCode_reportOf] at exit
    refine ⟨result, ran, ?_, fun _ => ⟨exit, FileTree.contents?_depositAll written, ?_⟩⟩
    · rw [exit]
      split <;> simp [exitFailure, exitError]
    · rw [keeps_iff, agrees_iff]
      exact FileTree.contents?_depositAll_iff written

end Job

/-- Two files of one stem, and one that fails to compile. -/
def workshop : FileTree where
  directory := ⟨1, ["w"]⟩
  entries :=
    [(⟨1, ["w", "a", "x.fc"]⟩, .file "(program (type A number))".toUTF8.toList),
      (⟨1, ["w", "b", "x.fc"]⟩, .file "(program (type B string))".toUTF8.toList),
      (⟨1, ["w", "b", "y.fc"]⟩, .file "(program (type C (array)))".toUTF8.toList)]

/-- The files of the workshop, as they are given, with their paths and texts. -/
theorem workshop_reads :
    Reads workshop "a/x.fc" ⟨1, ["w", "a", "x.fc"]⟩ "(program (type A number))" ∧
      Reads workshop "b/x.fc" ⟨1, ["w", "b", "x.fc"]⟩ "(program (type B string))" ∧
      Reads workshop "b/y.fc" ⟨1, ["w", "b", "y.fc"]⟩ "(program (type C (array)))" := by
  have present {path : Path} (h : (workshop.status path).toOption.join.isSome) :
      ∃ entry, workshop.status path = .ok (some entry) := by
    cases found : workshop.status path with
    | error e => simp [found, Except.toOption] at h
    | ok entry =>
      obtain ⟨entry, rfl⟩ := Option.isSome_iff_exists.1 (by simpa [found, Except.toOption] using h)
      exact ⟨entry, rfl⟩
  exact ⟨⟨by decide +kernel, present (by decide +kernel), by decide +kernel⟩,
    ⟨by decide +kernel, present (by decide +kernel), by decide +kernel⟩,
    ⟨by decide +kernel, present (by decide +kernel), by decide +kernel⟩⟩

/-- Two files of different stems, of which one fails. -/
def apartJob :
    Job workshop { files := ["a/x.fc", "b/y.fc"], skipHelpers := true, output := some "out" } where
  base := {}
  sources :=
    [(⟨1, ["w", "a", "x.fc"]⟩, "(program (type A number))"),
      (⟨1, ["w", "b", "y.fc"]⟩, "(program (type C (array)))")]
  output := "out"
  directory := ⟨1, ["w", "out"]⟩
  configured := .none
  read := .cons workshop_reads.1 (.cons workshop_reads.2.2 .nil)
  given := rfl
  named := by decide
  resolved := by decide +kernel

/-- Two files of one stem. -/
def oneStemJob :
    Job workshop { files := ["a/x.fc", "b/x.fc"], skipHelpers := true, output := some "out" } where
  base := {}
  sources :=
    [(⟨1, ["w", "a", "x.fc"]⟩, "(program (type A number))"),
      (⟨1, ["w", "b", "x.fc"]⟩, "(program (type B string))")]
  output := "out"
  directory := ⟨1, ["w", "out"]⟩
  configured := .none
  read := .cons workshop_reads.1 (.cons workshop_reads.2.1 .nil)
  given := rfl
  named := by decide
  resolved := by decide +kernel

theorem apartJob_fits : apartJob.Fits := by
  have written : (workshop.depositAll apartJob.directory apartJob.outputs).isOk = true := by
    decide +kernel
  apply FileTree.exists_depositAll_iff.1
  cases deposited : workshop.depositAll apartJob.directory apartJob.outputs with
  | error e => simp [deposited, Except.isOk, Except.toBool] at written
  | ok t' => exact ⟨t', rfl⟩

theorem apartJob_agrees : apartJob.Agrees := by
  have stems : (apartJob.outcomes.map fun o => (Path.ofString o.file).stem).Nodup := by
    decide +kernel
  intro o compiled o' compiled' code code' ok ok' same
  obtain rfl : o = o' := List.inj_on_of_nodup_map stems compiled compiled' same
  rw [ok] at ok'
  cases ok'
  rfl

theorem apartJob_run_keeps :
    ∃ result, run workshop ["compile", "--skip-helpers", "a/x.fc", "b/y.fc", "-o", "out"]
        = .done result ∧ result.exit = exitError ∧ apartJob.Keeps result.tree := by
  have parsed : parse ["compile", "--skip-helpers", "a/x.fc", "b/y.fc", "-o", "out"]
      = .ok ⟨0, .compile { files := ["a/x.fc", "b/y.fc"], skipHelpers := true
                           output := some "out" }⟩ := by
    decide +kernel
  obtain ⟨result, ran, _, left⟩ := apartJob.run_keeps_iff parsed
  obtain ⟨exit, _, keeps⟩ := left apartJob_fits
  refine ⟨result, ran, ?_, keeps.2 apartJob_agrees⟩
  rw [exit]
  decide +kernel

/-- Of two files that go to one path, the first is lost. -/
theorem oneStemJob_not_keeps :
    ∃ result, run workshop ["compile", "--skip-helpers", "a/x.fc", "b/x.fc", "-o", "out"]
        = .done result ∧ result.exit = 0 ∧ ¬ oneStemJob.Keeps result.tree := by
  let first := compile oneStemJob.options "/w/a/x.fc" "(program (type A number))"
  have ok : first.result = .ok "const A = require(\"tcomb\").Number;\n" := by decide +kernel
  have checked : (match run workshop
      ["compile", "--skip-helpers", "a/x.fc", "b/x.fc", "-o", "out"] with
    | .done result => decide (result.exit = 0 ∧
      result.tree.contents? (target oneStemJob.directory first.file)
        ≠ some "const A = require(\"tcomb\").Number;\n".toUTF8.toList)
    | _ => false) = true := by
    decide +kernel
  split at checked
  next result ran =>
    obtain ⟨exit, lost⟩ := of_decide_eq_true checked
    exact ⟨result, ran, exit, fun keeps => lost (keeps first (List.mem_cons_self ..) _ ok)⟩
  next => cases checked

end TypeGuard.Cli
