import SyntaxDiagram.Batch
import SyntaxDiagram.Proofs.Grammar.Built
import Mathlib.Data.List.DropRight
import Mathlib.Data.List.Forall2
import Mathlib.Data.List.Induction

/-!
# What a batch reports

The report on some jobs lists the failing ones in order, and under the key of each job that succeeds
it holds the text of the last such job (`Report.Accounts`).  Recording one more job keeps it so
(`Report.Accounts.record`), hence a batch of grammars gives this report on all of its jobs, loses
none, and counts none twice as long as nothing shares a name (`generate_accounts`).  The jobs are
those of all entries with a diagram in all formats (`jobsIn`), and a format goes by its name without
the blanks around it and in lower case (`SpelledAs`).
-/

namespace SyntaxDiagram

/-! ### Outcomes of jobs -/

/-- A failure is about what a key stands for. -/
def Failure.Concerns (failure : Failure) (key : ArtifactKey) : Prop :=
  failure.grammar = key.grammar ∧ failure.entry = some key.entry ∧ failure.format = key.format

namespace Job

/-- What a fault of a job is reported as: with the message of a grammar error, and with the class
and the text of any other one. -/
def failure (job : Job) : Fault → Failure
  | .grammar error => ⟨job.grammar, some job.entry.identifier, job.format, error.message⟩
  | fault =>
    ⟨job.grammar, some job.entry.identifier, job.format, fault.className ++ ": " ++ fault.text⟩

/-- The failure that a job ends in, unless it succeeds. -/
def failure? (settings : BatchSettings) (job : Job) : Option Failure :=
  match job.run settings with
  | .ok _ => none
  | .error fault => some (job.failure fault)

/-- The key of a job with the text that it makes, unless it fails. -/
def artifact? (settings : BatchSettings) (job : Job) : Option (ArtifactKey × String) :=
  match job.run settings with
  | .ok text => some (job.key, text)
  | .error _ => none

variable {settings : BatchSettings} {job : Job}

/-- A job leaves an artifact iff it ends with its text, and under the job's own key. -/
theorem artifact?_eq_some_iff {key : ArtifactKey} {text : String} :
    job.artifact? settings = some (key, text) ↔ job.run settings = .ok text ∧ job.key = key := by
  rw [artifact?]
  cases job.run settings with
  | ok text' =>
    rw [Option.some.injEq, Prod.mk.injEq, Except.ok.injEq, and_comm]
  | error fault => simp

/-- A job leaves a failure iff it ends with a fault. -/
theorem failure?_eq_some_iff {failure : Failure} :
    job.failure? settings = some failure ↔
      ∃ fault, job.run settings = .error fault ∧ job.failure fault = failure := by
  rw [failure?]
  cases job.run settings with
  | ok text => simp
  | error fault => simp

/-- The failure of a job concerns the key of that job alone. -/
theorem concerns_failure_iff {fault : Fault} {key : ArtifactKey} :
    (job.failure fault).Concerns key ↔ job.key = key := by
  have hfailure : (job.failure fault).grammar = job.key.grammar ∧
      (job.failure fault).entry = some job.key.entry ∧
      (job.failure fault).format = job.key.format := by
    cases fault <;> exact ⟨rfl, rfl, rfl⟩
  rw [Failure.Concerns, hfailure.1, hfailure.2.1, hfailure.2.2, Option.some.injEq]
  cases key with
  | mk grammar entry format => rw [key, ArtifactKey.mk.injEq]

end Job

/-! ### Reports on jobs -/

namespace Report

/-- The report on some jobs: the failures are those of the jobs, in order; the artifacts have the
keys of the jobs that succeed, in the order of the first success, and under each key the text of the
last success. -/
structure Accounts (settings : BatchSettings) (jobs : List Job) (report : Report) : Prop where
  failures_eq : report.failures = jobs.filterMap (Job.failure? settings)
  keys_eq : report.artifacts.map Prod.fst =
    ((jobs.filterMap (Job.artifact? settings)).map Prod.fst).eraseDups
  lookup_eq : ∀ key, report.artifacts.lookup key =
    (((jobs.filterMap (Job.artifact? settings)).filter (·.1 = key)).getLast?).map Prod.snd

/-- Every job is in one part of the report, and not in both. -/
structure Partitions (jobs : List Job) (report : Report) : Prop where
  mem_artifacts_iff : ∀ job ∈ jobs, job.key ∈ report.artifacts.map Prod.fst ↔
    ¬∃ failure ∈ report.failures, failure.Concerns job.key
  length_add_length : report.artifacts.length + report.failures.length = jobs.length

variable {settings : BatchSettings} {jobs : List Job} {report : Report}

/-- An artifact keeps the place of one with the same key, and comes last otherwise. -/
theorem map_fst_insertArtifact (key : ArtifactKey) (text : String)
    (artifacts : List (ArtifactKey × String)) :
    (insertArtifact key text artifacts).map Prod.fst =
      if key ∈ artifacts.map Prod.fst then artifacts.map Prod.fst
      else artifacts.map Prod.fst ++ [key] := by
  induction artifacts with
  | nil => rfl
  | cons artifact rest ih =>
    obtain ⟨other, old⟩ := artifact
    rw [insertArtifact]
    by_cases h : other = key
    · subst h
      simp
    · rw [if_neg h, List.map_cons, ih]
      simp only [List.map_cons, List.mem_cons, Ne.symm h, false_or]
      split_ifs <;> rfl

theorem lookup_cons_eq_ite (other first : ArtifactKey) (text : String)
    (artifacts : List (ArtifactKey × String)) :
    List.lookup other ((first, text) :: artifacts) =
      if other = first then some text else artifacts.lookup other := by
  rw [List.lookup_cons]
  cases h : other == first with
  | true => rw [if_pos (eq_of_beq h)]
  | false => rw [if_neg (beq_eq_false_iff_ne.mp h)]

/-- After an artifact is inserted its key has the new text, all others what they had. -/
theorem lookup_insertArtifact (key other : ArtifactKey) (text : String)
    (artifacts : List (ArtifactKey × String)) :
    (insertArtifact key text artifacts).lookup other =
      if other = key then some text else artifacts.lookup other := by
  induction artifacts with
  | nil => rw [insertArtifact, lookup_cons_eq_ite]
  | cons artifact rest ih =>
    obtain ⟨first, old⟩ := artifact
    rw [insertArtifact]
    by_cases h : first = key
    · subst h
      rw [if_pos rfl, lookup_cons_eq_ite, lookup_cons_eq_ite]
      split_ifs <;> rfl
    · rw [if_neg h, lookup_cons_eq_ite, lookup_cons_eq_ite, ih]
      split_ifs with hfirst hkey
      · exact absurd (hfirst.symm.trans hkey) h
      · rfl
      · rfl
      · rfl

/-- A key at the end is kept iff it was not there before. -/
theorem eraseDups_append_singleton (keys : List ArtifactKey) (key : ArtifactKey) :
    (keys ++ [key]).eraseDups =
      if key ∈ keys.eraseDups then keys.eraseDups else keys.eraseDups ++ [key] := by
  rw [List.eraseDups_append]
  by_cases h : key ∈ keys
  · simp [List.removeAll, h]
  · simp [List.removeAll, h, List.eraseDups_cons]

/-- There is nothing to take away where no key comes twice. -/
theorem eraseDups_eq_self_of_nodup {keys : List ArtifactKey} (h : keys.Nodup) :
    keys.eraseDups = keys := by
  induction keys using List.reverseRecOn with
  | nil => rfl
  | append_singleton keys key ih =>
    obtain ⟨hkeys, -, hdisjoint⟩ := List.nodup_append.mp h
    have hkey : key ∉ keys := fun hmem => hdisjoint key hmem key (List.mem_singleton_self _) rfl
    rw [eraseDups_append_singleton, ih hkeys, if_neg hkey]

/-- The step of a batch for a job that fails. -/
theorem Accounts.record_error (h : report.Accounts settings jobs) {job : Job} {fault : Fault}
    (hrun : job.run settings = .error fault) :
    (report.record job.key (.error fault)).Accounts settings (jobs ++ [job]) := by
  have hfailure : job.failure? settings = some (job.failure fault) := by
    rw [Job.failure?, hrun]
  have hartifact : job.artifact? settings = none := by rw [Job.artifact?, hrun]
  have hjobs : (jobs ++ [job]).filterMap (Job.artifact? settings) =
      jobs.filterMap (Job.artifact? settings) := by
    rw [List.filterMap_append, List.filterMap_cons_none hartifact, List.filterMap_nil,
      List.append_nil]
  refine ⟨?_, ?_, ?_⟩
  · rw [List.filterMap_append, List.filterMap_cons_some hfailure, List.filterMap_nil,
      ← h.failures_eq]
    cases fault <;> rfl
  · rw [hjobs]
    exact h.keys_eq
  · rw [hjobs]
    exact h.lookup_eq

/-- The step of a batch for a job that ends with a text. -/
theorem Accounts.record_ok (h : report.Accounts settings jobs) {job : Job} {text : String}
    (hrun : job.run settings = .ok text) :
    (report.record job.key (.ok text)).Accounts settings (jobs ++ [job]) := by
  have hfailure : job.failure? settings = none := by rw [Job.failure?, hrun]
  have hartifact : job.artifact? settings = some (job.key, text) := by
    rw [Job.artifact?, hrun]
  have hjobs : (jobs ++ [job]).filterMap (Job.artifact? settings) =
      jobs.filterMap (Job.artifact? settings) ++ [(job.key, text)] := by
    rw [List.filterMap_append, List.filterMap_cons_some hartifact, List.filterMap_nil]
  refine ⟨?_, ?_, fun key => ?_⟩
  · rw [List.filterMap_append, List.filterMap_cons_none hfailure, List.filterMap_nil,
      List.append_nil]
    exact h.failures_eq
  · -- a key that is there keeps its place, in the report and among the jobs
    rw [hjobs, List.map_append, List.map_singleton, eraseDups_append_singleton, ← h.keys_eq]
    exact map_fst_insertArtifact ..
  · have hlookup : (insertArtifact job.key text report.artifacts).lookup key =
        if key = job.key then some text else report.artifacts.lookup key :=
      lookup_insertArtifact ..
    rw [hjobs, List.filter_append, Report.record, hlookup, h.lookup_eq]
    by_cases hkey : key = job.key
    · simp [hkey]
    · simp [hkey, Ne.symm hkey]

/-- What one more job adds to the report on some jobs makes the report on all of them. -/
theorem Accounts.record (h : report.Accounts settings jobs) (job : Job) :
    (report.record job.key (job.run settings)).Accounts settings (jobs ++ [job]) := by
  cases hrun : job.run settings with
  | error fault => exact h.record_error hrun
  | ok text => exact h.record_ok hrun

/-- A report made job by job accounts for all jobs, by induction on the jobs run so far. -/
theorem accounts_foldl (settings : BatchSettings) (jobs : List Job) :
    (jobs.foldl (fun report job => report.record job.key (job.run settings))
      empty).Accounts settings jobs := by
  induction jobs using List.reverseRecOn with
  | nil => exact ⟨rfl, rfl, fun _ => rfl⟩
  | append_singleton jobs job ih =>
    rw [List.foldl_append]
    exact ih.record job

/-! ### What follows for each job -/

/-- The failures of a report are those of the jobs that failed. -/
theorem Accounts.mem_failures_iff (h : report.Accounts settings jobs) {failure : Failure} :
    failure ∈ report.failures ↔
      ∃ job ∈ jobs, ∃ fault, job.run settings = .error fault ∧ job.failure fault = failure := by
  simp only [h.failures_eq, List.mem_filterMap, Job.failure?_eq_some_iff]

/-- The keys of a report's artifacts are those of the jobs that ended with a text. -/
theorem Accounts.mem_keys_iff (h : report.Accounts settings jobs) {key : ArtifactKey} :
    key ∈ report.artifacts.map Prod.fst ↔
      ∃ job ∈ jobs, (∃ text, job.run settings = .ok text) ∧ job.key = key := by
  simp only [h.keys_eq, List.mem_eraseDups, List.mem_map, List.mem_filterMap]
  constructor
  · rintro ⟨⟨_, text⟩, ⟨job, hjob, hartifact⟩, rfl⟩
    obtain ⟨hrun, hkey⟩ := Job.artifact?_eq_some_iff.mp hartifact
    exact ⟨job, hjob, ⟨text, hrun⟩, hkey⟩
  · rintro ⟨job, hjob, ⟨text, hrun⟩, rfl⟩
    exact ⟨_, ⟨job, hjob, Job.artifact?_eq_some_iff.mpr ⟨hrun, rfl⟩⟩, rfl⟩

/-- A key has a failure iff some job with that key failed. -/
theorem Accounts.exists_concerns_iff (h : report.Accounts settings jobs) {key : ArtifactKey} :
    (∃ failure ∈ report.failures, failure.Concerns key) ↔
      ∃ job ∈ jobs, (∃ fault, job.run settings = .error fault) ∧ job.key = key := by
  simp only [h.mem_failures_iff]
  constructor
  · rintro ⟨_, ⟨job, hjob, fault, hrun, rfl⟩, hconcerns⟩
    exact ⟨job, hjob, ⟨fault, hrun⟩, Job.concerns_failure_iff.mp hconcerns⟩
  · rintro ⟨job, hjob, ⟨fault, hrun⟩, hkey⟩
    exact ⟨_, ⟨job, hjob, fault, hrun, rfl⟩, Job.concerns_failure_iff.mpr hkey⟩

/-- A key in either part of the report is that of a job. -/
theorem Accounts.mem_or_concerns_iff (h : report.Accounts settings jobs) {key : ArtifactKey} :
    (key ∈ report.artifacts.map Prod.fst ∨ ∃ failure ∈ report.failures, failure.Concerns key) ↔
      ∃ job ∈ jobs, job.key = key := by
  rw [h.mem_keys_iff, h.exists_concerns_iff]
  constructor
  · rintro (⟨job, hjob, -, hkey⟩ | ⟨job, hjob, -, hkey⟩)
    · exact ⟨job, hjob, hkey⟩
    · exact ⟨job, hjob, hkey⟩
  · rintro ⟨job, hjob, hkey⟩
    cases hrun : job.run settings with
    | ok text => exact Or.inl ⟨job, hjob, ⟨text, hrun⟩, hkey⟩
    | error fault => exact Or.inr ⟨job, hjob, ⟨fault, hrun⟩, hkey⟩

/-- Each job leaves an artifact or a failure, and only one of them. -/
theorem length_artifacts_add_length_failures (settings : BatchSettings) (jobs : List Job) :
    (jobs.filterMap (Job.artifact? settings)).length +
      (jobs.filterMap (Job.failure? settings)).length = jobs.length := by
  induction jobs with
  | nil => rfl
  | cons job rest ih =>
    rw [List.filterMap_cons, List.filterMap_cons, Job.artifact?, Job.failure?]
    cases job.run settings with
    | ok text => simp only [List.length_cons]; omega
    | error fault => simp only [List.length_cons]; omega

/-- The artifacts come in the order of their jobs. -/
theorem map_fst_artifacts_sublist (settings : BatchSettings) (jobs : List Job) :
    ((jobs.filterMap (Job.artifact? settings)).map Prod.fst).Sublist (jobs.map Job.key) := by
  induction jobs with
  | nil => exact List.Sublist.refl _
  | cons job rest ih =>
    rw [List.filterMap_cons, Job.artifact?]
    cases job.run settings with
    | ok text => exact ih.cons_cons _
    | error fault => exact ih.cons _

/-- When no two jobs share a key, each job has either its artifact or its failure. -/
theorem Accounts.partitions (h : report.Accounts settings jobs)
    (hkeys : (jobs.map Job.key).Nodup) : report.Partitions jobs := by
  refine ⟨fun job hjob => ?_, ?_⟩
  · rw [h.mem_keys_iff, h.exists_concerns_iff]
    -- the only job with this key is the job itself
    have hself (job' : Job) (hjob' : job' ∈ jobs) (hkey : job'.key = job.key) : job' = job :=
      List.inj_on_of_nodup_map hkeys hjob' hjob hkey
    constructor
    · rintro ⟨a, ha, ⟨text, hok⟩, hakey⟩ ⟨b, hb, ⟨fault, herror⟩, hbkey⟩
      rw [hself a ha hakey] at hok
      rw [hself b hb hbkey, hok] at herror
      cases herror
    · intro hnone
      cases hrun : job.run settings with
      | ok text => exact ⟨job, hjob, ⟨text, hrun⟩, rfl⟩
      | error fault => exact absurd ⟨job, hjob, ⟨fault, hrun⟩, rfl⟩ hnone
  · have hnodup := hkeys.sublist (map_fst_artifacts_sublist settings jobs)
    have hlength : report.artifacts.length =
        (jobs.filterMap (Job.artifact? settings)).length := by
      rw [← List.length_map Prod.fst, h.keys_eq, eraseDups_eq_self_of_nodup hnodup,
        List.length_map]
    rw [hlength, h.failures_eq, length_artifacts_add_length_failures]

end Report

/-! ### Names of formats -/

/-- A text without the blanks around it: all that is cut off is blank, and what is left neither
begins nor ends with a blank. -/
structure Strips (text middle : List Char) : Prop where
  split : ∃ before after, text = before ++ middle ++ after ∧ (∀ c ∈ before, isBlank c = true) ∧
    ∀ c ∈ after, isBlank c = true
  head : ∀ c ∈ middle.head?, isBlank c = false
  last : ∀ c ∈ middle.getLast?, isBlank c = false

/-- The name of a format in its normal spelling: without blanks around it and in lower case. -/
def SpelledAs (name format : String) : Prop :=
  ∃ middle, Strips name.toList middle ∧ format = String.ofList (lowercase middle)

/-- The blanks before a text are dropped, and no more than these. -/
theorem dropWhile_append_of_blanks {before rest : List Char}
    (hbefore : ∀ c ∈ before, isBlank c = true) (hrest : ∀ c ∈ rest.head?, isBlank c = false) :
    (before ++ rest).dropWhile isBlank = rest := by
  rw [List.dropWhile_append_of_pos hbefore]
  cases rest with
  | nil => rfl
  | cons c rest => rw [List.dropWhile_cons_of_neg (by simp [hrest c rfl])]

/-- What is left of a text after trimming is the text without the blanks around it. -/
theorem strips_trimBlanks (text : List Char) : Strips text (trimBlanks text) := by
  show Strips text ((text.dropWhile isBlank).rdropWhile isBlank)
  refine ⟨⟨text.takeWhile isBlank, (text.dropWhile isBlank).rtakeWhile isBlank, ?_, ?_, ?_⟩, ?_, ?_⟩
  · rw [List.append_assoc, List.rdropWhile_append_rtakeWhile, List.takeWhile_append_dropWhile]
  · exact fun c hc => List.mem_takeWhile_imp hc
  · exact fun c hc => List.mem_rtakeWhile_imp hc
  · -- it begins as the text does after the blanks in front
    intro c hc
    obtain ⟨rest, hrest⟩ := List.rdropWhile_prefix isBlank (text.dropWhile isBlank)
    have hhead := List.head?_dropWhile_not isBlank text
    rw [← hrest, List.head?_append, Option.mem_def.mp hc] at hhead
    exact hhead
  · intro c hc
    obtain ⟨hne, rfl⟩ := List.mem_getLast?_eq_getLast hc
    simpa using List.rdropWhile_last_not isBlank _ hne

/-- There is one way to take the blanks around a text away. -/
theorem Strips.eq_trimBlanks {text middle : List Char} (h : Strips text middle) :
    middle = trimBlanks text := by
  obtain ⟨⟨before, after, rfl, hbefore, hafter⟩, hhead, hlast⟩ := h
  cases middle with
  | nil =>
    -- all of the text is blank
    have hall : (before ++ [] ++ after).dropWhile isBlank = [] := by
      rw [List.append_nil, List.dropWhile_eq_nil_iff, List.forall_mem_append]
      exact ⟨hbefore, hafter⟩
    rw [trimBlanks, hall]
    rfl
  | cons c rest =>
    have hfirst : (before ++ (c :: rest ++ after)).dropWhile isBlank = c :: rest ++ after :=
      dropWhile_append_of_blanks hbefore hhead
    rw [trimBlanks, List.append_assoc, hfirst, List.reverse_append, dropWhile_append_of_blanks,
      List.reverse_reverse]
    · exact fun c hc => hafter c (List.mem_reverse.mp hc)
    · rwa [List.head?_reverse]

/-- Every name of a format has one normal spelling. -/
theorem spelledAs_iff {name format : String} :
    SpelledAs name format ↔ format = OutputFormat.normalizeName name := by
  constructor
  · rintro ⟨middle, hstrips, rfl⟩
    rw [hstrips.eq_trimBlanks, OutputFormat.normalizeName]
  · rintro rfl
    exact ⟨_, strips_trimBlanks name.toList, rfl⟩

/-! ### Jobs of grammars -/

section jobs

variable {grammars : List Grammar} {formats : List String}

/-- The jobs of a batch, whose formats are named in their normal spelling: grammar after grammar, in
each its rules and then its terminals, except for fragments, and each of these in every format. -/
def jobsIn (grammars : List Grammar) (formats : List String) : List Job :=
  grammars.flatMap fun g =>
    ((g.rules ++ g.terminals).filter fun entry => entry.kind ≠ .terminal true).flatMap fun entry =>
      formats.map fun format => ⟨g.name, entry, format⟩

/-- The entries of a grammar that have a diagram are all but the fragments. -/
theorem Grammar.Built.diagramEntries_eq {g : Grammar} (h : g.Built) :
    g.diagramEntries =
      (g.rules ++ g.terminals).filter fun entry => entry.kind ≠ .terminal true := by
  have hrules : g.rules.filter (fun entry => entry.kind ≠ .terminal true) = g.rules := by
    rw [List.filter_eq_self]
    intro rule hrule
    simp [h.kind_of_mem_rules hrule]
  have hfragment (kind : EntryKind) : (!kind.isFragment) = decide (kind ≠ .terminal true) := by
    rcases kind with _ | _ | _ <;> rfl
  rw [List.filter_append, hrules, diagramEntries]
  simp only [hfragment]

/-- The jobs that are run are those of all entries with a diagram, in all formats by their normal
spelling. -/
theorem jobsFor_eq_jobsIn (hbuilt : ∀ g ∈ grammars, g.Built) :
    jobsFor grammars formats = jobsIn grammars (formats.map OutputFormat.normalizeName) := by
  unfold jobsFor jobsIn
  refine List.flatMap_congr fun g hg => ?_
  rw [(hbuilt g hg).diagramEntries_eq]
  simp only [List.map_map]
  rfl

theorem mem_jobsFor_iff {job : Job} :
    job ∈ jobsFor grammars formats ↔
      ∃ g ∈ grammars, ∃ entry ∈ g.diagramEntries, ∃ format ∈ formats,
        job = ⟨g.name, entry, OutputFormat.normalizeName format⟩ := by
  simp only [jobsFor, List.mem_flatMap, List.mem_map, eq_comm (a := job)]

/-- Jobs do not share a key unless two grammars have the same name or a format is named twice. -/
theorem nodup_keys_jobsFor (hbuilt : ∀ g ∈ grammars, g.Built)
    (hnames : (grammars.map (·.name)).Nodup)
    (hformats : (formats.map OutputFormat.normalizeName).Nodup) :
    ((jobsFor grammars formats).map Job.key).Nodup := by
  have hkeys : (jobsFor grammars formats).map Job.key =
      grammars.flatMap fun g => g.diagramEntries.flatMap fun entry =>
        (formats.map OutputFormat.normalizeName).map fun format =>
          (⟨g.name, entry.identifier, format⟩ : ArtifactKey) := by
    simp only [jobsFor, List.map_flatMap, List.map_map]
    rfl
  rw [hkeys]
  refine List.pairwise_flatMap.mpr ⟨fun g hg => ?_, ?_⟩
  · -- within a grammar, entries have distinct identifiers
    have hidentifiers := (hbuilt g hg).nodup_diagramIdentifiers
    refine List.pairwise_flatMap.mpr ⟨fun entry _ => ?_, ?_⟩
    · exact hformats.map fun a b h => (ArtifactKey.mk.inj h).2.2
    · refine (List.pairwise_map.mp hidentifiers).imp fun hne => ?_
      intro key hkey key' hkey' heq
      obtain ⟨_, -, rfl⟩ := List.mem_map.mp hkey
      obtain ⟨_, -, rfl⟩ := List.mem_map.mp hkey'
      exact hne (ArtifactKey.mk.inj heq).2.1
  · refine (List.pairwise_map.mp hnames).imp fun hne => ?_
    intro key hkey key' hkey' heq
    obtain ⟨_, -, hkey⟩ := List.mem_flatMap.mp hkey
    obtain ⟨_, -, rfl⟩ := List.mem_map.mp hkey
    obtain ⟨_, -, hkey'⟩ := List.mem_flatMap.mp hkey'
    obtain ⟨_, -, rfl⟩ := List.mem_map.mp hkey'
    exact hne (ArtifactKey.mk.inj heq).1

/-- What is reported is about entries with a diagram: in the grammar of that name there is such an
entry, and none of that identifier is a fragment. -/
def Report.OmitsFragments (grammars : List Grammar) (report : Report) : Prop :=
  ∀ key, (key ∈ report.artifacts.map Prod.fst ∨
      ∃ failure ∈ report.failures, failure.Concerns key) →
    ∃ g ∈ grammars, g.name = key.grammar ∧
      (∃ entry ∈ g.entries, entry.identifier = key.entry) ∧
      ∀ entry ∈ g.entries, entry.identifier = key.entry → entry.kind ≠ .terminal true

/-- Fragments are left out of a report, since no job is for one. -/
theorem Report.Accounts.omitsFragments {settings : BatchSettings} {report : Report}
    (h : report.Accounts settings (jobsFor grammars formats))
    (hbuilt : ∀ g ∈ grammars, g.Built) : report.OmitsFragments grammars := by
  intro key hkey
  obtain ⟨job, hjob, rfl⟩ := h.mem_or_concerns_iff.mp hkey
  obtain ⟨g, hg, entry, hentry, format, -, rfl⟩ := mem_jobsFor_iff.mp hjob
  obtain ⟨hmem, hfragment⟩ := (hbuilt g hg).mem_diagramEntries_iff.mp hentry
  refine ⟨g, hg, rfl, ⟨entry, hmem, rfl⟩, fun other hother heq => ?_⟩
  rw [(hbuilt g hg).eq_of_identifier_eq hother hmem heq]
  intro hkind
  rw [hkind] at hfragment
  cases hfragment

/-- On any positive number of workers, a batch gives a report on its jobs. -/
theorem exists_accounts_of_generate (settings : BatchSettings) {workers : Option Int}
    (hworkers : ∀ n ∈ workers, 0 < n) :
    ∃ report, generate settings grammars formats workers = .ok report ∧
      report.Accounts settings (jobsFor grammars formats) := by
  have hcount : workers.any (· ≤ 0) = false := by
    cases workers with
    | none => rfl
    | some n => simpa using hworkers n rfl
  refine ⟨_, ?_, Report.accounts_foldl settings (jobsFor grammars formats)⟩
  rw [generate, hcount, if_neg (by decide)]

/-- A batch on at least one worker gives a report on all of its jobs. Nothing else is in it, and no
job is missing; without shared names each job is in one of the two parts alone. -/
theorem generate_accounts {settings : BatchSettings} {workers : Option Int}
    (hbuilt : ∀ g ∈ grammars, g.Built) (hworkers : ∀ n ∈ workers, 0 < n) :
    ∃ spelled, List.Forall₂ SpelledAs formats spelled ∧
      ∃ report, generate settings grammars formats workers = .ok report ∧
        report.Accounts settings (jobsIn grammars spelled) ∧
        (∀ key, (key ∈ report.artifacts.map Prod.fst ∨
            ∃ failure ∈ report.failures, failure.Concerns key) ↔
          ∃ job ∈ jobsIn grammars spelled, job.key = key) ∧
        ((grammars.map (·.name)).Nodup → spelled.Nodup →
          report.Partitions (jobsIn grammars spelled)) ∧
        report.OmitsFragments grammars := by
  obtain ⟨report, hreport, haccounts⟩ := exists_accounts_of_generate settings hworkers
  refine ⟨formats.map OutputFormat.normalizeName, ?_, report, hreport, ?_⟩
  · exact List.forall₂_map_right_iff.mpr
      (List.forall₂_same.mpr fun name _ => spelledAs_iff.mpr rfl)
  · rw [← jobsFor_eq_jobsIn hbuilt]
    exact ⟨haccounts, fun key => haccounts.mem_or_concerns_iff,
      fun hnames hformats => haccounts.partitions (nodup_keys_jobsFor hbuilt hnames hformats),
      haccounts.omitsFragments hbuilt⟩

/-- Of the three entries of a grammar, two have a diagram, which there is in the one format and
cannot be in the other. -/
theorem generate_accounts_sample :
    let settings : BatchSettings := ⟨.standard, .standard, some (.const (some (.int 9))), none⟩
    (∀ g ∈ [Grammar.sample], g.Built) ∧ (∀ n ∈ some (2 : Int), 0 < n) ∧
      ∃ report, generate settings [.sample] [" SVG", "png"] (some 2) = .ok report ∧
        report.Accounts settings (jobsIn [.sample] ["svg", "png"]) ∧
        report.Partitions (jobsIn [.sample] ["svg", "png"]) ∧
        report.artifacts.map Prod.fst = [⟨"Sum", "sum", "svg"⟩, ⟨"Sum", "NUMBER", "svg"⟩] ∧
        report.failures =
          [⟨"Sum", some "sum", "png", "unknown format 'png', expected one of svg, html"⟩,
            ⟨"Sum", some "NUMBER", "png", "unknown format 'png', expected one of svg, html"⟩] := by
  intro settings
  have hbuilt : ∀ g ∈ [Grammar.sample], g.Built :=
    List.forall_mem_singleton.mpr Grammar.built_sample
  have hworkers : ∀ n ∈ some (2 : Int), 0 < n := by simp
  have hparts : (generate ⟨.standard, .standard, some (.const (some (.int 9))), none⟩ [.sample]
      [" SVG", "png"] (some 2)).toOption.map
        (fun report => (report.artifacts.map Prod.fst, report.failures)) =
      some ([⟨"Sum", "sum", "svg"⟩, ⟨"Sum", "NUMBER", "svg"⟩],
        [⟨"Sum", some "sum", "png", "unknown format 'png', expected one of svg, html"⟩,
          ⟨"Sum", some "NUMBER", "png", "unknown format 'png', expected one of svg, html"⟩]) := by
    decide +kernel
  obtain ⟨spelled, hspelled, report, hreport, haccounts, -, hpartitions, -⟩ :=
    @generate_accounts [.sample] [" SVG", "png"] settings (some 2) hbuilt hworkers
  -- both formats are spelled in one way
  obtain rfl : spelled = ["svg", "png"] := by
    rcases hspelled with _ | ⟨hsvg, _ | ⟨hpng, _ | _⟩⟩
    rw [spelledAs_iff.mp hsvg, spelledAs_iff.mp hpng]
    decide +kernel
  rw [hreport] at hparts
  obtain ⟨hkeys, hfailures⟩ := Prod.mk.inj (Option.some.inj hparts)
  exact ⟨hbuilt, hworkers, report, hreport, haccounts,
    hpartitions (List.nodup_singleton _) (by decide), hkeys, hfailures⟩

end jobs

end SyntaxDiagram
