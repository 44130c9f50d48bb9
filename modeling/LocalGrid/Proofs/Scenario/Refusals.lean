import LocalGrid.Proofs.Demand.Neighborhood
import LocalGrid.Proofs.Scenario.Accepted
import LocalGrid.Scenario.Resolution

/-!
# Refusals after the checks

A scenario without problems is refused for its tables only: one of them cannot be read, or the
columns that buildings take from them are of different lengths. The refusals of an unknown word, of
a missing file, of an unknown source and of no buildings are never used: what the checks let through
is what the resolution knows. What has no report is a series that cannot be held.
-/

namespace LocalGrid.Scenario

variable {files : Files} {steps : ℕ} {seed : UInt64} {e : Refusal}

theorem eq_error_of_map {ε β γ : Type} {x : Except ε β} {f : β → γ} {e : ε}
    (h : x.map f = .error e) : x = .error e := by
  cases x with
  | error e' => rw [Except.error.inj h]
  | ok b => cases h

/-! ## Words and series -/

theorem choose_eq_ok_iff {β : Type} {setting : Setting} {ofWord? : String → Option β}
    {word : String} {choice : β} :
    choose setting ofWord? word = .ok choice ↔ ofWord? word = some choice := by
  unfold choose
  cases ofWord? word <;> simp

theorem orTooLong_error {x : Option (List Float32)} (h : orTooLong x = .error e) :
    x = none ∧ e = .length := by
  cases x with
  | none => exact ⟨rfl, (Except.error.inj h).symm⟩
  | some xs => cases h

theorem orTooLong_ok {x : Option (List Float32)} {xs : List Float32} (h : orTooLong x = .ok xs) :
    x = some xs := by
  cases x with
  | none => cases h
  | some ys => rw [Except.ok.inj h]

theorem uniformProfile_error {low high : UInt32}
    (h : orTooLong (Demand.uniformProfile? steps low high seed) = .error e) :
    e = .length ∧ Demand.maxLength < steps := by
  obtain ⟨hnone, he⟩ := orTooLong_error h
  rw [Demand.uniformProfile?] at hnone
  split_ifs at hnone with hle
  exact ⟨he, Nat.lt_of_not_le hle⟩

theorem repeatTo_error {baseline : List Float32}
    (h : orTooLong (Demand.repeatTo? baseline steps) = .error e) :
    e = .length ∧ Demand.maxLength < steps := by
  obtain ⟨hnone, he⟩ := orTooLong_error h
  rw [Demand.repeatTo?] at hnone
  split_ifs at hnone with hle
  exact ⟨he, Nat.lt_of_not_le hle⟩

theorem tableSeries_error {field : FileField} {path column : String}
    (h : tableSeries files field path column = .error e) :
    ∃ reason, files.column path column = .error reason ∧ e = .file field path reason := by
  unfold tableSeries at h
  cases hcolumn : files.column path column with
  | ok xs => simp [hcolumn, Except.mapError] at h
  | error reason =>
      rw [hcolumn] at h
      exact ⟨reason, rfl, (Except.error.inj h).symm⟩

/-- The refusals of a source: its series is too long, its file cannot be read or is not named, or
its kind is unknown. -/
theorem Source.series_error {load : Load} {s : Source}
    (h : s.series files load steps seed = .error e) :
    (e = .length ∧ Demand.maxLength < steps) ∨
    (∃ path reason, s.kind = "csv" ∧ s.path = some path ∧
      files.column path s.column = .error reason ∧ e = .file (.source load) path reason) ∨
    (s.kind = "csv" ∧ s.path = none ∧ e = .noPath load) ∨
    (s.kind ∉ ["random", "profile", "csv"] ∧ e = .unknownSource load s.kind) := by
  unfold series at h
  split at h
  · exact Or.inl (uniformProfile_error h)
  · exact Or.inl (repeatTo_error h)
  · next hkind =>
    split at h
    · next path hpath =>
      obtain ⟨reason, hcolumn, he⟩ := tableSeries_error h
      exact Or.inr (Or.inl ⟨path, reason, hkind, hpath, hcolumn, he⟩)
    · next hpath =>
      exact Or.inr (Or.inr (Or.inl ⟨hkind, hpath, (Except.error.inj h).symm⟩))
  · next hrandom hprofile hcsv =>
    refine Or.inr (Or.inr (Or.inr ⟨?_, (Except.error.inj h).symm⟩))
    simp only [List.mem_cons, List.not_mem_nil, or_false, not_or]
    exact ⟨hrandom, hprofile, hcsv⟩

/-- Of an accepted source that is not made of buildings only the file and the length are open. -/
theorem Source.series_error_of_accepted {load : Load} {s : Source} (hs : s.Accepted load)
    (hkind : s.kind ≠ "neighborhood") (h : s.series files load steps seed = .error e) :
    (e = .length ∧ Demand.maxLength < steps) ∨
      ∃ path reason, s.kind = "csv" ∧ s.path = some path ∧
        files.column path s.column = .error reason ∧ e = .file (.source load) path reason := by
  rcases series_error h with hlength | hfile | ⟨hcsv, hnone, -⟩ | ⟨hunknown, -⟩
  · exact Or.inl hlength
  · exact Or.inr hfile
  · obtain ⟨path, hpath⟩ := hs.exists_path hcsv
    simp [hnone] at hpath
  · rcases hs with ⟨h', -⟩ | ⟨h', -⟩ | ⟨h', -⟩ | ⟨h', -⟩
    case buildings => exact absurd h' hkind
    all_goals simp [h'] at hunknown

/-- A source is found by its kind, and a table has a file: whatever the files, the number of steps
and the seed are, no series of the source is refused for want of these. -/
def Source.IsFound (load : Load) (s : Source) : Prop :=
  ∀ (files : Files) (steps : ℕ) (seed : UInt64),
    s.series files load steps seed ≠ .error (.noPath load) ∧
      ∀ word, s.series files load steps seed ≠ .error (.unknownSource load word)

theorem Source.isFound_of_accepted {load : Load} {s : Source} (hs : s.Accepted load)
    (hkind : s.kind ≠ "neighborhood") : s.IsFound load := by
  intro files steps seed
  constructor
  · intro h
    rcases series_error_of_accepted hs hkind h with ⟨he, -⟩ | ⟨_, _, -, -, -, he⟩ <;> cases he
  · intro word h
    rcases series_error_of_accepted hs hkind h with ⟨he, -⟩ | ⟨_, _, -, -, -, he⟩ <;> cases he

theorem Demand.kind_ne_of_not_isNeighborhood {d : Demand} (h : d.isNeighborhood = false) :
    d.source.kind ≠ "neighborhood" := by
  simpa [isNeighborhood] using h

theorem Source.kind_ne_of_accepted_thermal {s : Source} (hs : s.Accepted .thermal) :
    s.kind ≠ "neighborhood" := by
  rcases hs with ⟨h, -⟩ | ⟨h, -⟩ | ⟨h, -⟩ | ⟨-, hload⟩
  · simp [h]
  · simp [h]
  · simp [h]
  · cases hload

theorem Building.series_error {b : Building} {index : ℕ}
    (h : b.series files index steps = .error e) :
    (e = .length ∧ Demand.maxLength < steps) ∨
      ∃ path reason, b.path = some path ∧ files.column path b.column = .error reason ∧
        e = .file (.building index) path reason := by
  unfold series at h
  split at h
  · next path hpath =>
    obtain ⟨reason, hcolumn, he⟩ := tableSeries_error h
    exact Or.inr ⟨path, reason, hpath, hcolumn, he⟩
  · exact Or.inl (repeatTo_error h)

/-! ## Causes -/

/-- The files that a scenario names, each with the field that names it and the column to read. -/
def Names (s : Scenario) : FileField → String → String → Prop
  | .source .electrical, path, column => s.demand.isNeighborhood = false ∧
      s.demand.source.kind = "csv" ∧ s.demand.source.path = some path ∧
      s.demand.source.column = column
  | .source .thermal, path, column => s.thermal.enabled = true ∧
      s.thermal.source.kind = "csv" ∧ s.thermal.source.path = some path ∧
      s.thermal.source.column = column
  | .building index, path, column => s.demand.isNeighborhood = true ∧
      ∃ b, s.demand.buildings[index]? = some b ∧ b.path = some path ∧ b.column = column

def TooLong (s : Scenario) (e : Refusal) : Prop := e = .length ∧ Demand.maxLength < s.timing.steps

def Unreadable (files : Files) (s : Scenario) (e : Refusal) : Prop :=
  ∃ field path column reason, s.Names field path column ∧
    files.column path column = .error reason ∧ e = .file field path reason

/-- Buildings of different lengths, one of which is read from a file. -/
def Uneven (s : Scenario) (e : Refusal) : Prop :=
  s.demand.isNeighborhood = true ∧ (∃ b ∈ s.demand.buildings, b.path.isSome = true) ∧
    ∃ b ∈ s.demand.buildings, ∃ found expected, e = .sum (.length b.name found expected)

/-! ## Buildings -/

/-- The series of a neighbourhood are those of its buildings. -/
theorem gather_ok {index : ℕ} {buildings : List Building} {n m : Demand.Neighborhood Float32}
    (h : gather files steps index buildings n = .ok m) :
    (n.entries ≠ [] ∨ buildings ≠ [] → m.entries ≠ []) ∧
      ∀ entry ∈ m.entries, entry ∈ n.entries ∨ ∃ b ∈ buildings, entry.1 = b.name ∧
        ∃ k, b.series files k steps = .ok entry.2 := by
  induction buildings generalizing index n with
  | nil =>
      obtain rfl := Except.ok.inj h
      exact ⟨fun hne => hne.resolve_right (by simp), fun entry hentry => Or.inl hentry⟩
  | cons b rest ih =>
      rw [gather] at h
      cases hseries : b.series files index steps with
      | error e => simp [hseries, bind, Except.bind] at h
      | ok xs =>
          rw [hseries] at h
          obtain ⟨hne, hentries⟩ := ih h
          refine ⟨fun _ => hne (Or.inl (Demand.Neighborhood.insert_ne_nil _ _ _)), ?_⟩
          intro entry hentry
          rcases hentries entry hentry with hadd | ⟨c, hc, hfrom⟩
          · refine (Demand.Neighborhood.mem_insert hadd).symm.imp_right ?_
            rintro rfl
            exact ⟨b, List.mem_cons_self, rfl, _, hseries⟩
          · exact Or.inr ⟨c, List.mem_cons_of_mem _ hc, hfrom⟩

theorem gather_error {index : ℕ} {buildings : List Building} {n : Demand.Neighborhood Float32}
    (h : gather files steps index buildings n = .error e) :
    (e = .length ∧ Demand.maxLength < steps) ∨
      ∃ k b path reason, buildings[k]? = some b ∧ b.path = some path ∧
        files.column path b.column = .error reason ∧
        e = .file (.building (index + k)) path reason := by
  induction buildings generalizing index n with
  | nil => cases h
  | cons b rest ih =>
      rw [gather] at h
      cases hseries : b.series files index steps with
      | error e' =>
          rw [hseries] at h
          obtain rfl : e' = e := Except.error.inj h
          refine (Building.series_error hseries).imp_right ?_
          rintro ⟨path, reason, hpath, hcolumn, he⟩
          exact ⟨0, b, path, reason, rfl, hpath, hcolumn, he⟩
      | ok xs =>
          rw [hseries] at h
          refine (ih h).imp_right ?_
          rintro ⟨k, c, path, reason, hc, hpath, hcolumn, he⟩
          refine ⟨k + 1, c, path, reason, by simpa using hc, hpath, hcolumn, ?_⟩
          rw [he, Nat.add_assoc, Nat.add_comm 1 k]

/-- Buildings without files have series of the length of the run. -/
theorem gather_lengths {index : ℕ} {buildings : List Building}
    {m : Demand.Neighborhood Float32} (h : gather files steps index buildings .empty = .ok m)
    (hpaths : ∀ b ∈ buildings, b.path = none) : ∀ entry ∈ m.entries, entry.2.length = steps := by
  intro entry hentry
  rcases (gather_ok h).2 entry hentry with hempty | ⟨b, hb, -, k, hseries⟩
  · cases hempty
  · simp only [Building.series, hpaths b hb] at hseries
    exact Demand.length_of_repeatTo? (orTooLong_ok hseries)

/-! ## Scenarios -/

variable {s : Scenario} {today : Calendar.Day}

theorem gather_total_error {m : Demand.Neighborhood Float32} {reason : Demand.SumError}
    (hne : s.demand.buildings ≠ [])
    (h : gather files steps 0 s.demand.buildings .empty = .ok m) (hm : m.total = .error reason) :
    (∃ b ∈ s.demand.buildings, b.path.isSome = true) ∧
      ∃ b ∈ s.demand.buildings, ∃ found expected, reason = .length b.name found expected := by
  obtain ⟨hentries, hfrom⟩ := gather_ok h
  have hm0 := hentries (Or.inr hne)
  constructor
  · by_contra hnot
    push Not at hnot
    obtain ⟨xs, hxs, -⟩ := Demand.Neighborhood.total_of_lengths hm0
      (gather_lengths h fun b hb => by simpa using hnot b hb)
    rw [hm] at hxs
    cases hxs
  · obtain ⟨first, before, name, xs, after, hm', -, -, rfl⟩ :=
      Demand.Neighborhood.total_error hm0 hm
    rcases hfrom (name, xs) (by simp [hm']) with hempty | ⟨b, hb, hname, -⟩
    · cases hempty
    · exact ⟨b, hb, _, _, by rw [← hname]⟩

theorem Demand.series_error (hd : s.demand.Accepted)
    (h : s.demand.series files s.timing.steps seed = .error e) :
    s.TooLong e ∨ s.Unreadable files e ∨ s.Uneven e := by
  unfold series at h
  split_ifs at h with hkind
  · cases hgather : gather files s.timing.steps 0 s.demand.buildings .empty with
    | error e' =>
        rw [hgather] at h
        obtain rfl : e' = e := Except.error.inj h
        refine (gather_error hgather).imp_right fun hfile => Or.inl ?_
        obtain ⟨k, b, path, reason, hb, hpath, hcolumn, he⟩ := hfile
        rw [Nat.zero_add] at he
        exact ⟨.building k, path, b.column, reason, ⟨hkind, b, hb, hpath, rfl⟩, hcolumn, he⟩
    | ok m =>
        rw [hgather] at h
        cases htotal : m.total with
        | ok xs => simp [htotal, Except.mapError, bind, Except.bind] at h
        | error reason =>
            obtain ⟨hpath, b, hb, found, expected, rfl⟩ :=
              gather_total_error (hd.buildings_ne_nil hkind) hgather htotal
            obtain rfl : .sum (.length b.name found expected) = e := by
              simpa [htotal, Except.mapError, bind, Except.bind] using h
            exact Or.inr (Or.inr ⟨hkind, hpath, b, hb, found, expected, rfl⟩)
  · have hnot : s.demand.isNeighborhood = false := by simpa using hkind
    refine (Source.series_error_of_accepted hd.source (Demand.kind_ne_of_not_isNeighborhood hnot)
      h).imp_right fun hfile => Or.inl ?_
    obtain ⟨path, reason, hcsv, hpath, hcolumn, he⟩ := hfile
    exact ⟨.source .electrical, path, _, reason, ⟨hnot, hcsv, hpath, rfl⟩, hcolumn, he⟩

theorem Thermal.series_error (ht : s.thermal.enabled = true → s.thermal.Accepted)
    (h : s.thermal.series files s.timing.steps seed = .error e) :
    s.TooLong e ∨ s.Unreadable files e := by
  unfold series at h
  split_ifs at h with henabled
  · have hsource := (ht henabled).source
    have hseries : s.thermal.source.series files .thermal s.timing.steps seed = .error e := by
      cases hx : s.thermal.source.series files .thermal s.timing.steps seed with
      | ok xs => simp [hx, bind, Except.bind, pure, Except.pure] at h
      | error e' => simpa [hx, bind, Except.bind] using h
    refine (Source.series_error_of_accepted hsource (Source.kind_ne_of_accepted_thermal hsource)
      hseries).imp_right fun hfile => ?_
    obtain ⟨path, reason, hcsv, hpath, hcolumn, he⟩ := hfile
    exact ⟨.source .thermal, path, _, reason, ⟨henabled, hcsv, hpath, rfl⟩, hcolumn, he⟩
  · cases h

theorem assemble_error (hs : s.Accepted) (h : s.assemble files today = .error e) :
    s.TooLong e ∨ s.Unreadable files e ∨ s.Uneven e := by
  obtain ⟨duration, hduration⟩ := hs.duration
  obtain ⟨start, hstart⟩ := hs.startTime
  obtain ⟨mode, hmode⟩ := hs.mode
  obtain ⟨model, hmodel⟩ := hs.model
  unfold assemble at h
  cases hdemand : s.demand.series files s.timing.steps s.timing.seed with
  | error e' =>
      rw [hdemand] at h
      obtain rfl : e' = e := Except.error.inj h
      exact Demand.series_error hs.demand hdemand
  | ok demand =>
      cases hthermal : s.thermal.series files s.timing.steps s.timing.seed with
      | error e' =>
          rw [hdemand, hthermal] at h
          obtain rfl : e' = e := Except.error.inj h
          exact (Thermal.series_error hs.thermal hthermal).imp_right Or.inl
      | ok thermal =>
          -- the words and the start have been read once and are read to the same again
          rw [hdemand, hthermal, choose_eq_ok_iff.2 hduration, hstart, choose_eq_ok_iff.2 hmode,
            choose_eq_ok_iff.2 hmodel] at h
          cases h

/-- Of a scenario without problems every word and the start are read again without a refusal, every
source that is used is found, and a neighbourhood has a building to sum. If the scenario is refused
with a report, the report is about the field of a file that it names and that cannot be read, or
about a building of a neighbourhood that reads a file. It is refused without a report only if it
has more steps than a series can hold. -/
theorem late_refusals (files : Files) (today : Calendar.Day) (hproblems : s.problems = []) :
    ((∃ duration, choose .stepDuration StepDuration.ofWord? s.timing.stepDuration =
        .ok duration) ∧
      (∃ mode, choose .dispatchMode DispatchMode.ofWord? s.timing.dispatchMode = .ok mode) ∧
      (∃ start, s.timing.startTime = .ok start) ∧
      ∃ model, choose .windModel WindModel.ofWord? s.generation.windModel = .ok model) ∧
    (s.demand.isNeighborhood = false → s.demand.source.IsFound .electrical) ∧
    (s.thermal.enabled = true → s.thermal.source.IsFound .thermal) ∧
    (s.demand.isNeighborhood = true → ∀ n,
      gather files s.timing.steps 0 s.demand.buildings .empty = .ok n →
        n.total ≠ .error .noBuilding) ∧
    ∀ e, s.resolve files today = .error e →
      (e = .length ∧ e.fault? = none ∧ Demand.maxLength < s.timing.steps) ∨
      ∃ f, e.fault? = some f ∧ f.kind = .configuration ∧
        ((∃ field path column reason, s.Names field path column ∧
          files.column path column = .error reason ∧ e = .file field path reason ∧
            f.field = field.path) ∨
        (s.demand.isNeighborhood = true ∧ (∃ b ∈ s.demand.buildings, b.path.isSome = true) ∧
          ∃ b ∈ s.demand.buildings, ∃ found expected, e = .sum (.length b.name found expected) ∧
            f.field = "demand.buildings." ++ b.name)) := by
  have hs := s.problems_eq_nil_iff.1 hproblems
  refine ⟨?_, ?_, ?_, ?_, ?_⟩
  · obtain ⟨duration, hduration⟩ := hs.duration
    obtain ⟨mode, hmode⟩ := hs.mode
    obtain ⟨model, hmodel⟩ := hs.model
    exact ⟨⟨duration, choose_eq_ok_iff.2 hduration⟩, ⟨mode, choose_eq_ok_iff.2 hmode⟩,
      hs.startTime, model, choose_eq_ok_iff.2 hmodel⟩
  · intro hnot
    exact Source.isFound_of_accepted hs.demand.source (Demand.kind_ne_of_not_isNeighborhood hnot)
  · intro henabled
    have hsource := (hs.thermal henabled).source
    exact Source.isFound_of_accepted hsource (Source.kind_ne_of_accepted_thermal hsource)
  · intro hkind n hgather htotal
    obtain ⟨-, b, -, found, expected, hreason⟩ :=
      gather_total_error (hs.demand.buildings_ne_nil hkind) hgather htotal
    cases hreason
  · intro e he
    rw [resolve, hproblems] at he
    rcases assemble_error hs he with ⟨rfl, hlt⟩
      | ⟨field, path, column, reason, hnames, hcolumn, rfl⟩
      | ⟨hkind, hpath, b, hb, found, expected, rfl⟩
    · exact Or.inl ⟨rfl, rfl, hlt⟩
    · exact Or.inr ⟨_, rfl, rfl, Or.inl ⟨field, path, column, reason, hnames, hcolumn, rfl, rfl⟩⟩
    · exact Or.inr ⟨_, rfl, rfl, Or.inr ⟨hkind, hpath, b, hb, found, expected, rfl, rfl⟩⟩

example : (FileField.source .electrical).path = "demand.csv_path" ∧
    (FileField.source .thermal).path = "thermal.csv_path" ∧
    (FileField.building 2).path = "demand.buildings[2].csv_path" := by
  decide +kernel

/-- Two hours of a neighbourhood, one building of which reads a table of one row. -/
def unevenHours : Scenario where
  timing := { steps := 2, start := some "2024-06-01T00:00:00" }
  demand := {
    source := { kind := "neighborhood", low := 0, high := 0, column := demandColumn }
    buildings := [
      { name := "mill", path := some "mill.csv" },
      { name := "office", profile := [5] }] }

def oneRow : Files := fun _ => .ok [100, 101, 109, 97, 110, 100, 95, 107, 119, 10, 55, 10]

/-- The table has one row for two hours, and the building after it is reported. -/
theorem late_refusals_uneven :
    unevenHours.problems = [] ∧
      ∃ e, unevenHours.resolve oneRow ⟨0⟩ = .error e ∧ e = .sum (.length "office" 2 1) ∧
        ∃ f, e.fault? = some f ∧ f.kind = .configuration ∧
          ((∃ field path column reason, unevenHours.Names field path column ∧
            oneRow.column path column = .error reason ∧ e = .file field path reason ∧
              f.field = field.path) ∨
          (unevenHours.demand.isNeighborhood = true ∧
            (∃ b ∈ unevenHours.demand.buildings, b.path.isSome = true) ∧
            ∃ b ∈ unevenHours.demand.buildings, ∃ found expected,
              e = .sum (.length b.name found expected) ∧
                f.field = "demand.buildings." ++ b.name)) := by
  have hproblems : unevenHours.problems = [] := by decide +kernel
  have hresolve : (unevenHours.resolve oneRow ⟨0⟩).map (fun _ => ()) =
      .error (.sum (.length "office" 2 1)) := by decide +kernel
  have he := eq_error_of_map hresolve
  refine ⟨hproblems, _, he, rfl, ?_⟩
  exact ((late_refusals oneRow ⟨0⟩ hproblems).2.2.2.2 _ he).resolve_left fun h => nomatch h.1

end LocalGrid.Scenario
