import SyntaxDiagram.Proofs.Batch
import SyntaxDiagram.Proofs.Layout

/-!
# Batches that agree

What a report says about a key depends on the jobs with that key alone (`Report.Accounts.agreesOn`),
and a job depends on a measure for the labels in its own entry alone (`Job.run_congr`).  A label
that cannot be measured therefore spoils the diagrams that show it and no others
(`generate_agreesOn`).
-/

namespace SyntaxDiagram

instance (failure : Failure) (key : ArtifactKey) : Decidable (failure.Concerns key) :=
  inferInstanceAs (Decidable (_ ∧ _))

namespace Report

/-- Two reports say the same about a key: the same text, if any, and the same failures. -/
structure AgreesOn (report report' : Report) (key : ArtifactKey) : Prop where
  lookup_eq : report.artifacts.lookup key = report'.artifacts.lookup key
  failures_eq : report.failures.filter (·.Concerns key) = report'.failures.filter (·.Concerns key)

/-- There is one thing that a report says about a key, a text or a failure. -/
def Settles (report : Report) (key : ArtifactKey) : Prop :=
  (∃ text, report.artifacts.lookup key = some text ∧
      report.failures.filter (·.Concerns key) = []) ∨
    ∃ failure, report.artifacts.lookup key = none ∧
      report.failures.filter (·.Concerns key) = [failure]

variable {settings settings' : BatchSettings} {jobs : List Job} {report report' : Report}

/-! ### The jobs with a key -/

/-- The artifacts under a key are those of the jobs with that key. -/
theorem filter_artifacts (key : ArtifactKey) (jobs : List Job) :
    (jobs.filterMap (Job.artifact? settings)).filter (·.1 = key) =
      (jobs.filter (·.key = key)).filterMap (Job.artifact? settings) := by
  rw [List.filter_filterMap, List.filterMap_filter]
  refine List.filterMap_congr fun job _ => ?_
  rw [Job.artifact?]
  cases job.run settings with
  | ok text => by_cases hkey : job.key = key <;> simp [Option.filter, hkey]
  | error fault => simp

/-- The failures about a key are those of the jobs with that key. -/
theorem filter_failures (key : ArtifactKey) (jobs : List Job) :
    (jobs.filterMap (Job.failure? settings)).filter (·.Concerns key) =
      (jobs.filter (·.key = key)).filterMap (Job.failure? settings) := by
  rw [List.filter_filterMap, List.filterMap_filter]
  refine List.filterMap_congr fun job _ => ?_
  rw [Job.failure?]
  cases job.run settings with
  | ok text => simp
  | error fault =>
    by_cases hkey : job.key = key <;> simp [Option.filter, Job.concerns_failure_iff, hkey]

/-- A key has the text of the last job with it that ended with one. -/
theorem Accounts.lookup_eq_filter (h : report.Accounts settings jobs) (key : ArtifactKey) :
    report.artifacts.lookup key =
      (((jobs.filter (·.key = key)).filterMap (Job.artifact? settings)).getLast?).map Prod.snd := by
  rw [h.lookup_eq, filter_artifacts]

theorem Accounts.failures_eq_filter (h : report.Accounts settings jobs) (key : ArtifactKey) :
    report.failures.filter (·.Concerns key) =
      (jobs.filter (·.key = key)).filterMap (Job.failure? settings) := by
  rw [h.failures_eq, filter_failures]

/-- Reports on the same jobs agree on a key if the jobs with that key end the same. -/
theorem Accounts.agreesOn (h : report.Accounts settings jobs)
    (h' : report'.Accounts settings' jobs) {key : ArtifactKey}
    (hrun : ∀ job ∈ jobs, job.key = key → job.run settings = job.run settings') :
    report.AgreesOn report' key := by
  have hrun' : ∀ job ∈ jobs.filter (·.key = key), job.run settings = job.run settings' := by
    intro job hjob
    obtain ⟨hmem, hkey⟩ := List.mem_filter.mp hjob
    exact hrun job hmem (of_decide_eq_true hkey)
  refine ⟨?_, ?_⟩
  · rw [h.lookup_eq_filter, h'.lookup_eq_filter, List.filterMap_congr fun job hjob => ?_]
    rw [Job.artifact?, Job.artifact?, hrun' job hjob]
  · rw [h.failures_eq_filter, h'.failures_eq_filter]
    refine List.filterMap_congr fun job hjob => ?_
    rw [Job.failure?, Job.failure?, hrun' job hjob]

/-- When no two jobs share a key, a job is the only one with its own. -/
theorem filter_key_eq_singleton (hkeys : (jobs.map Job.key).Nodup) {job : Job} (hjob : job ∈ jobs) :
    jobs.filter (·.key = job.key) = [job] := by
  obtain ⟨before, after, rfl⟩ := List.append_of_mem hjob
  rw [List.map_append, List.map_cons, List.nodup_middle, List.nodup_cons, List.mem_append,
    List.mem_map, List.mem_map] at hkeys
  have hbefore : before.filter (·.key = job.key) = [] := by
    rw [List.filter_eq_nil_iff]
    exact fun other hother hkey => hkeys.1 (Or.inl ⟨other, hother, of_decide_eq_true hkey⟩)
  have hafter : after.filter (·.key = job.key) = [] := by
    rw [List.filter_eq_nil_iff]
    exact fun other hother hkey => hkeys.1 (Or.inr ⟨other, hother, of_decide_eq_true hkey⟩)
  rw [List.filter_append, List.filter_cons_of_pos (by simp), hbefore, hafter, List.nil_append]

/-- What is reported about the only job with its key is how it ends. -/
theorem Accounts.settles (h : report.Accounts settings jobs) (hkeys : (jobs.map Job.key).Nodup)
    {job : Job} (hjob : job ∈ jobs) : report.Settles job.key := by
  rw [Settles, h.lookup_eq_filter, h.failures_eq_filter, filter_key_eq_singleton hkeys hjob]
  cases hrun : job.run settings with
  | ok text => exact Or.inl ⟨text, by simp [Job.artifact?, Job.failure?, hrun]⟩
  | error fault =>
    exact Or.inr ⟨job.failure fault, by simp [Job.artifact?, Job.failure?, hrun]⟩

end Report

/-! ### Measures -/

/-- How a job ends depends on a measure for the labels in its entry alone. -/
theorem Job.run_congr {settings : BatchSettings} {measure measure' : Measure} {job : Job}
    (h : ∀ caption ∈ job.entry.captions, measure caption.2 = measure' caption.2) :
    job.run { settings with measure := some measure } =
      job.run { settings with measure := some measure' } := by
  have hlayout : job.entry.layout settings.metrics measure =
      job.entry.layout settings.metrics measure' := Entry.layout_congr h
  show Except.mapError _ (job.entry.layout settings.metrics measure >>= _) =
    Except.mapError _ (job.entry.layout settings.metrics measure' >>= _)
  rw [hlayout]
  rfl

/-! ### Batches -/

section batches

variable {grammars : List Grammar} {formats : List String}

/-- Unless grammars share a name, only an entry itself has jobs with its keys. -/
theorem entry_eq_of_key_eq (hbuilt : ∀ g ∈ grammars, g.Built)
    (hnames : (grammars.map (·.name)).Nodup) {g : Grammar} (hg : g ∈ grammars) {entry : Entry}
    (hentry : entry ∈ g.diagramEntries) {job : Job} (hjob : job ∈ jobsFor grammars formats)
    {format : String} (hkey : job.key = ⟨g.name, entry.identifier, format⟩) :
    job.entry = entry := by
  obtain ⟨g', hg', entry', hentry', _, -, rfl⟩ := mem_jobsFor_iff.mp hjob
  obtain ⟨hname, hidentifier, -⟩ := ArtifactKey.mk.inj hkey
  obtain rfl : g' = g := List.inj_on_of_nodup_map hnames hg' hg hname
  exact List.inj_on_of_nodup_map (hbuilt g' hg).nodup_diagramIdentifiers hentry' hentry hidentifier

/-- A bad label spoils only the diagrams that show it. Two batches with different measures say the
same about an entry, in every format, if the measures give the same for its own labels, whatever
they give for those of other entries; and there is one thing that they say. -/
theorem generate_agreesOn (settings : BatchSettings) {measure measure' : Measure}
    {workers workers' : Option Int} {g : Grammar} {entry : Entry}
    (hbuilt : ∀ g ∈ grammars, g.Built) (hnames : (grammars.map (·.name)).Nodup)
    (hformats : (formats.map OutputFormat.normalizeName).Nodup)
    (hworkers : ∀ n ∈ workers, 0 < n) (hworkers' : ∀ n ∈ workers', 0 < n)
    (hg : g ∈ grammars) (hentry : entry ∈ g.diagramEntries)
    (hmeasure : ∀ caption ∈ entry.captions, measure caption.2 = measure' caption.2) :
    ∃ report report',
      generate { settings with measure := some measure } grammars formats workers = .ok report ∧
      generate { settings with measure := some measure' } grammars formats workers' = .ok report' ∧
      (∀ format, report.AgreesOn report' ⟨g.name, entry.identifier, format⟩) ∧
      ∀ format ∈ formats,
        report.Settles ⟨g.name, entry.identifier, OutputFormat.normalizeName format⟩ := by
  obtain ⟨report, hreport, haccounts⟩ :=
    exists_accounts_of_generate { settings with measure := some measure } hworkers
  obtain ⟨report', hreport', haccounts'⟩ :=
    exists_accounts_of_generate { settings with measure := some measure' } hworkers'
  refine ⟨report, report', hreport, hreport', fun format => ?_, fun format hformat => ?_⟩
  · refine haccounts.agreesOn haccounts' fun job hjob hkey => Job.run_congr ?_
    rwa [entry_eq_of_key_eq hbuilt hnames hg hentry hjob hkey]
  · have hjob := mem_jobsFor_iff.mpr ⟨g, hg, entry, hentry, format, hformat, rfl⟩
    exact haccounts.settles (nodup_keys_jobsFor hbuilt hnames hformats) hjob

/-- The rule of `Grammar.sample` is drawn alike, whether or not the label of a fragment that only
its terminal shows can be measured. -/
theorem generate_agreesOn_sample :
    ∃ report report',
      generate ⟨.standard, .standard, some (.const (some (.int 9))), none⟩ [.sample]
        [" SVG", "png"] none = .ok report ∧
      generate ⟨.standard, .standard,
          some fun label => .ok (if label = "DIGIT" then none else some (.int 9)), none⟩ [.sample]
        [" SVG", "png"] (some 2) = .ok report' ∧
      (∀ format, report.AgreesOn report' ⟨"Sum", "sum", format⟩) ∧
      ∀ format ∈ [" SVG", "png"],
        report.Settles ⟨"Sum", "sum", OutputFormat.normalizeName format⟩ := by
  have hbuilt : ∀ g ∈ [Grammar.sample], g.Built :=
    List.forall_mem_singleton.mpr Grammar.built_sample
  have hformats : ([" SVG", "png"].map OutputFormat.normalizeName).Nodup := by decide +kernel
  have hentry : (⟨.rule, "sum", "", [[.reference "NUMBER" (some .terminal), .literal "+"]]⟩ :
      Entry) ∈ Grammar.sample.diagramEntries := List.mem_cons_self
  refine generate_agreesOn ⟨.standard, .standard, none, none⟩ hbuilt (List.nodup_singleton _)
    hformats (by simp) (by simp) (List.mem_singleton_self _) hentry fun caption hcaption => ?_
  have hcaption : caption ∈ [(.rule (some .terminal), "NUMBER"), (.terminal, "+")] := hcaption
  simp only [List.mem_cons, List.not_mem_nil, or_false] at hcaption
  rcases hcaption with rfl | rfl <;> simp [Measure.const]

end batches

end SyntaxDiagram
