import LocalGrid.Command.Plan
import Mathlib.Tactic.Common

/-!
# Outcomes of the command line

A plan is made before anything is written, and it stops or it shows a whole run. So a failure leaves
nothing behind: nothing is shown of a run that does not exist, and no file is touched for it. What
is shown does not depend on the writing that follows it; a file that cannot be written only shows
in the exit code. The files are an arbitrary state here that a write may change in any way and that
it may refuse to change.
-/

namespace LocalGrid.Command

variable {files : Files} {today : Calendar.Day} {arguments : List String} {o : Options}
  {s : Scenario} {r : Scenario.Run}

/-- The ways to have no run. A request for help is none of them. -/
inductive Fails (files : Files) (today : Calendar.Day) (arguments : List String) : Prop where
  | arguments (stop : Stop) (hread : Options.read arguments = .error stop) (hhelp : stop ≠ .help)
  | loading (o : Options) (e : Scenario.LoadError) (hread : Options.read arguments = .ok o)
      (hload : o.load files = .error e)
  | problems (o : Options) (s : Scenario) (hread : Options.read arguments = .ok o)
      (hload : o.load files = .ok s) (hproblems : (o.reseed s).problems ≠ [])
  | running (o : Options) (s : Scenario) (e : Scenario.RunError)
      (hread : Options.read arguments = .ok o) (hload : o.load files = .ok s)
      (hrun : (o.reseed s).run files today = .error e)

structure Succeeds (files : Files) (today : Calendar.Day) (arguments : List String) (o : Options)
    (s : Scenario) (r : Scenario.Run) : Prop where
  read_eq : Options.read arguments = .ok o
  load_eq : o.load files = .ok s
  problems_eq : (o.reseed s).problems = []
  run_eq : (o.reseed s).run files today = .ok r

/-! ## Plans -/

theorem plan_of_error {stop : Stop} (h : Options.read arguments = .error stop) :
    plan files today arguments = .stop stop.code stop.lines := by
  simp only [plan, h]

theorem plan_of_ok (hread : Options.read arguments = .ok o) (hload : o.load files = .ok s) :
    plan files today arguments = o.planFor files today (o.reseed s) := by
  simp only [plan, hread, hload]

theorem failurePlan_eq (e : Scenario.RunError) :
    ∃ code messages, failurePlan e = .stop code messages ∧ code ≠ 0 := by
  unfold failurePlan
  cases e.fault? with
  | some fault => exact ⟨1, _, rfl, Nat.one_ne_zero⟩
  | none => exact ⟨breakdownCode, _, rfl, by decide⟩

/-- A scenario with problems is refused before it is run, and a run that fails shows nothing. -/
theorem planFor_cases (o : Options) (files : Files) (today : Calendar.Day) (s : Scenario) :
    (∃ code messages, o.planFor files today s = .stop code messages ∧ code ≠ 0) ∨
      ∃ r, s.problems = [] ∧ s.run files today = .ok r ∧
        o.planFor files today s = .finish (o.shown r) (o.exports r) := by
  unfold Options.planFor
  cases hproblems : s.problems with
  | cons p ps => exact Or.inl ⟨1, _, rfl, Nat.one_ne_zero⟩
  | nil =>
      cases hrun : s.run files today with
      | error e => exact Or.inl (failurePlan_eq e)
      | ok r => exact Or.inr ⟨r, rfl, rfl, rfl⟩

theorem Stop.code_of_ne_help {stop : Stop} (hhelp : stop ≠ .help) : stop.code = 1 := by
  cases stop with
  | help => exact absurd rfl hhelp
  | unknown | valueMissing | badSeed => rfl

theorem Fails.plan_eq (h : Fails files today arguments) :
    ∃ code messages, plan files today arguments = .stop code messages ∧ code ≠ 0 := by
  cases h with
  | arguments stop hread hhelp =>
      refine ⟨stop.code, stop.lines, plan_of_error hread, ?_⟩
      rw [Stop.code_of_ne_help hhelp]
      exact Nat.one_ne_zero
  | loading o e hread hload =>
      exact ⟨1, [e.message], by simp only [plan, hread, hload], Nat.one_ne_zero⟩
  | problems o s hread hload hproblems =>
      rw [plan_of_ok hread hload]
      refine (planFor_cases o files today (o.reseed s)).resolve_right ?_
      rintro ⟨r, hnone, -⟩
      exact hproblems hnone
  | running o s e hread hload hrun =>
      rw [plan_of_ok hread hload]
      refine (planFor_cases o files today (o.reseed s)).resolve_right ?_
      rintro ⟨r, -, hok, -⟩
      rw [hrun] at hok
      cases hok

/-- A plan that shows something shows a run. -/
theorem succeeds_of_plan_eq {stdout : String} {exports : List Export}
    (h : plan files today arguments = .finish stdout exports) :
    ∃ o s r, Succeeds files today arguments o s r ∧ stdout = o.shown r ∧ exports = o.exports r := by
  cases hread : Options.read arguments with
  | error stop =>
      rw [plan_of_error hread] at h
      cases h
  | ok o =>
      cases hload : o.load files with
      | error e => simp only [plan, hread, hload, reduceCtorEq] at h
      | ok s =>
          rw [plan_of_ok hread hload] at h
          rcases planFor_cases o files today (o.reseed s) with
            ⟨code, messages, hstop, -⟩ | ⟨r, hproblems, hrun, hfinish⟩
          · rw [h] at hstop
            cases hstop
          · rw [h] at hfinish
            obtain ⟨rfl, rfl⟩ := Plan.finish.inj hfinish
            exact ⟨o, s, r, ⟨hread, hload, hproblems, hrun⟩, rfl, rfl⟩

/-! ## Performances -/

section

variable {σ : Type} (write : String → String → StateM σ (Except FileError Unit))

theorem perform_stop (code : ℕ) (messages : List String) (disk : σ) :
    ((Plan.stop code messages).perform write).run disk =
      (⟨code, "", unlines messages⟩, disk) :=
  rfl

/-- A file that cannot be written, at least on some disk. -/
def Refuses (e : Export) : Prop :=
  ∃ disk reason, ((write e.path e.content).run disk).1 = .error reason

theorem writeAll_cons (e : Export) (rest : List Export) (disk : σ) :
    (writeAll write (e :: rest)).run disk =
      match (write e.path e.content).run disk with
      | (.error reason, after) => (([e.form.failure reason], false), after)
      | (.ok (), after) =>
        let out := (writeAll write rest).run after
        ((e.form.success e.path :: out.1.1, out.1.2), out.2) := by
  rw [writeAll, StateT.run_bind]
  rcases hout : (write e.path e.content).run disk with ⟨_ | _, after⟩ <;> rfl

/-- Writing ends early only at a file that cannot be written. -/
theorem exists_refuses {exports : List Export} {disk : σ}
    (h : ((writeAll write exports).run disk).1.2 = false) : ∃ e ∈ exports, Refuses write e := by
  induction exports generalizing disk with
  | nil => cases h
  | cons e rest ih =>
      rw [writeAll_cons] at h
      rcases hout : (write e.path e.content).run disk with ⟨reason | _, after⟩
      · exact ⟨e, List.mem_cons_self, disk, reason, by rw [hout]⟩
      · rw [hout] at h
        obtain ⟨e', he', hrefuses⟩ := ih h
        exact ⟨e', List.mem_cons_of_mem _ he', hrefuses⟩

/-- What is shown stays shown, whatever happens to the files. -/
theorem perform_finish (stdout : String) (exports : List Export) (disk : σ) :
    let out := ((Plan.finish stdout exports).perform write).run disk
    out.1.stdout = stdout ∧
      (out.1.code = 0 ∨ out.1.code = 1 ∧ ∃ e ∈ exports, Refuses write e) := by
  have hout : ((Plan.finish stdout exports).perform write).run disk =
      let out := (writeAll write exports).run disk
      (⟨if out.1.2 then 0 else 1, stdout, unlines out.1.1⟩, out.2) := rfl
  rw [hout]
  refine ⟨rfl, ?_⟩
  cases hall : ((writeAll write exports).run disk).1.2 with
  | true => exact Or.inl (if_pos hall)
  | false => exact Or.inr ⟨if_neg (by simp [hall]), exists_refuses write hall⟩

/-- If the arguments do not parse, or the scenario cannot be loaded, has problems or has no run, the
process fails, shows nothing and leaves the files as they are. A request for help shows nothing
either. If something is shown, there is a run, and what is shown is the whole of it: the lines of
its steps unless they are left out, and its report. A file that cannot be written changes the exit
code and nothing of this. -/
theorem failures_leave_nothing (files : Files) (today : Calendar.Day) (arguments : List String)
    (disk : σ) :
    let out := ((plan files today arguments).perform write).run disk
    (Fails files today arguments → out.1.code ≠ 0 ∧ out.1.stdout = "" ∧ out.2 = disk) ∧
    (Options.read arguments = .error .help → out = (⟨0, "", unlines helpLines⟩, disk)) ∧
    (out.1.stdout ≠ "" → ∃ o s r, Succeeds files today arguments o s r ∧
      out.1.stdout =
        (if o.quiet then "" else unlines (r.result.records.map Export.recordLine) ++ "\n") ++
          r.report.text ++ "\n" ∧
      (out.1.code = 0 ∨ out.1.code = 1 ∧ ∃ e ∈ o.exports r, Refuses write e)) := by
  refine ⟨fun hfails => ?_, fun hhelp => ?_, fun hshown => ?_⟩
  · obtain ⟨code, messages, hplan, hcode⟩ := hfails.plan_eq
    rw [hplan, perform_stop]
    exact ⟨hcode, rfl, rfl⟩
  · rw [plan_of_error hhelp, perform_stop]
    rfl
  · cases hplan : plan files today arguments with
    | stop code messages =>
        rw [hplan, perform_stop] at hshown
        exact absurd rfl hshown
    | finish stdout exports =>
        obtain ⟨o, s, r, hsucceeds, rfl, rfl⟩ := succeeds_of_plan_eq hplan
        obtain ⟨hstdout, hcode⟩ := perform_finish write (o.shown r) (o.exports r) disk
        exact ⟨o, s, r, hsucceeds, hstdout, hcode⟩

end

def noonFile : Files := fun path =>
  if path = "noon.toml" then
    .ok (Text.encode
      "[simulation]\nsteps=1\nstart=\"2024-06-01T12:00:00\"\n[generation]\nuse_wind=false\n")
  else .error .notFound

/-- Writes to a list of files, but not to the directory `full`. -/
def writeBeside (path content : String) :
    StateM (List (String × String)) (Except FileError Unit) := do
  if path.startsWith "full/" then
    pure (.error (.system "No space left on device" 28))
  else
    modify ((path, content) :: ·)
    pure (.ok ())

def missingPreset : List String := ["--telemetry-out", "a.csv", "--preset", "village"]

def fullDirectory : List String := ["--json-out", "full/a.json", "--scenario", "noon.toml"]

def noonProcess (arguments : List String) : Outcome × List (String × String) :=
  ((plan noonFile ⟨738000⟩ arguments).perform writeBeside).run [("a.csv", "old")]

/-- A preset that does not exist leaves the old table as it is. The hour at noon is shown although
its document cannot be written. -/
theorem failures_leave_nothing_noon :
    ((noonProcess missingPreset).1.code ≠ 0 ∧ (noonProcess missingPreset).1.stdout = "" ∧
      (noonProcess missingPreset).2 = [("a.csv", "old")]) ∧
    (noonProcess fullDirectory).1.code = 1 ∧
    ∃ o s r, Succeeds noonFile ⟨738000⟩ fullDirectory o s r ∧ (noonProcess fullDirectory).1.stdout =
      (if o.quiet then "" else unlines (r.result.records.map Export.recordLine) ++ "\n") ++
        r.report.text ++ "\n" := by
  obtain ⟨hfails, -, -⟩ :=
    failures_leave_nothing writeBeside noonFile ⟨738000⟩ missingPreset [("a.csv", "old")]
  obtain ⟨-, -, hshows⟩ :=
    failures_leave_nothing writeBeside noonFile ⟨738000⟩ fullDirectory [("a.csv", "old")]
  have hout : (noonProcess fullDirectory).1.code = 1 ∧
      (noonProcess fullDirectory).1.stdout ≠ "" := by decide +kernel
  obtain ⟨o, s, r, hsucceeds, hstdout, -⟩ := hshows hout.2
  refine ⟨hfails ?_, hout.1, o, s, r, hsucceeds, hstdout⟩
  exact .loading { table := some "a.csv", preset := some "village" } (.unknownPreset "village")
    rfl rfl

end LocalGrid.Command
