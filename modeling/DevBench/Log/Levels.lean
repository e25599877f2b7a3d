import DevBench.Core.Arrays

/-!
# The two filters of the log

`record_passes` judges a record when the backend is handed it; `dev_bench_log_set_level`
asks the log subsystem not to create what it would not pass. Both keep the app's own
module at `INF` and the kernel's under a ceiling. They are compared for every source
after every history of requests.
-/

namespace DevBench.Log

open DevBench.Core

/-- `DBM_LOG_LEVEL_OFF` -/
abbrev dbmLogLevelOff : UInt8 := 0

/-- `DBM_LOG_LEVEL_INF` -/
abbrev dbmLogLevelInf : UInt8 := 3

/-- `LOG_LEVEL_INTERNAL_RAW_STRING`, the level of a `printk`. -/
abbrev logLevelInternalRawString : UInt8 := 0

/-- `DEV_BENCH_LOG_BOOT_LEVEL` -/
abbrev devBenchLogBootLevel : UInt8 := 2

/-- `DEV_BENCH_LOG_APP_MODULE` -/
def devBenchLogAppModule : List UInt8 := ascii "dev_bench"

/-- `DEV_BENCH_LOG_KERNEL_MODULE` -/
def devBenchLogKernelModule : List UInt8 := ascii "os"

/-- `DEV_BENCH_LOG_KERNEL_CEILING` -/
abbrev devBenchLogKernelCeiling : UInt8 := 2

/-- A source of the log. -/
structure LogSource where
  name : Option (List UInt8)
  /-- The level the build compiled in. -/
  compiled : UInt8
  /-- What `log_filter_set` was asked for last. -/
  want : UInt8
  /-- The runtime filter in force. -/
  filter : UInt8
  deriving DecidableEq, Repr

/-- The sources, and the level the backend forwards. -/
structure Levels where
  sources : List LogSource
  currentLevel : UInt8
  deriving DecidableEq, Repr

/-- `log_source_name_get`, no name behind the last source. -/
def Levels.logSourceNameGet (s : Levels) (src : Nat) : Option (List UInt8) :=
  s.sources[src]?.bind LogSource.name

/-- Whether a record is forwarded. Its source is the index of it, or null. -/
def recordPasses (s : Levels) (level : UInt8) (source : Option Nat) : Bool :=
  if s.currentLevel = dbmLogLevelOff then false
  else if level = logLevelInternalRawString then decide (dbmLogLevelInf ≤ s.currentLevel)
  else
    let name := source.bind s.logSourceNameGet
    if name = some devBenchLogKernelModule then decide (level ≤ devBenchLogKernelCeiling)
    else if level ≤ s.currentLevel then true
    else if level > dbmLogLevelInf then false
    else decide (name = some devBenchLogAppModule)

/-- The `want` of `dev_bench_log_set_level` for a source of that name. -/
def wantFor (level : UInt8) (name : Option (List UInt8)) : UInt8 :=
  let want :=
    if level ≠ dbmLogLevelOff ∧ name = some devBenchLogAppModule ∧ level < dbmLogLevelInf then
      dbmLogLevelInf
    else level
  if name = some devBenchLogKernelModule ∧ want > devBenchLogKernelCeiling then
    devBenchLogKernelCeiling
  else want

/-- `log_filter_set` applies what the build compiled in of it, and returns that. -/
def logFilterSet (source : LogSource) (want : UInt8) : LogSource × UInt8 :=
  let actual := if want < source.compiled then want else source.compiled
  ({ source with want, filter := actual }, actual)

/-- One round of the loop over the sources: the source behind it, and `reached`. -/
def setSource (level : UInt8) (source : LogSource) (reached : UInt8) : LogSource × UInt8 :=
  let want := wantFor level source.name
  let (source, actual) := logFilterSet source want
  (source, if want = level ∧ actual > reached then actual else reached)

/-- The loop over the sources, with the highest level that was reached. -/
def setLevelLoop (level : UInt8) : List LogSource → UInt8 → List LogSource × UInt8
  | [], reached => ([], reached)
  | source :: sources, reached =>
    let (source, reached) := setSource level source reached
    let (sources, reached) := setLevelLoop level sources reached
    (source :: sources, reached)

/-- `dev_bench_log_set_level`. -/
def devBenchLogSetLevel (s : Levels) (level : UInt8) : Levels × UInt8 :=
  let (sources, reached) := setLevelLoop level s.sources 0
  (⟨sources, level⟩, reached)

/-- The levels behind a history of requests. -/
def Levels.after (s : Levels) (history : List UInt8) : Levels :=
  history.foldl (fun s level => (devBenchLogSetLevel s level).1) s

/-! ## The filters of the sources -/

/-- A request sets every source to what is wanted of it. -/
theorem fst_setLevelLoop (level : UInt8) (sources : List LogSource) (reached : UInt8) :
    (setLevelLoop level sources reached).1 =
      sources.map fun source => (logFilterSet source (wantFor level source.name)).1 := by
  induction sources generalizing reached with
  | nil => rfl
  | cons source sources ih =>
    simp only [setLevelLoop, setSource, List.map_cons, ih]

/-- Each source is set to what is wanted of it, as far as it was compiled in. -/
theorem sources_devBenchLogSetLevel (s : Levels) (level : UInt8) :
    (devBenchLogSetLevel s level).1.sources =
      s.sources.map fun source => (logFilterSet source (wantFor level source.name)).1 :=
  fst_setLevelLoop level s.sources 0

/-- The level is remembered as it was asked for. -/
theorem currentLevel_devBenchLogSetLevel (s : Levels) (level : UInt8) :
    (devBenchLogSetLevel s level).1.currentLevel = level := rfl

/-- No source is renamed. -/
theorem logSourceNameGet_devBenchLogSetLevel (s : Levels) (level : UInt8) (src : Nat) :
    (devBenchLogSetLevel s level).1.logSourceNameGet src = s.logSourceNameGet src := by
  unfold Levels.logSourceNameGet
  rw [sources_devBenchLogSetLevel, List.getElem?_map]
  cases s.sources[src]? <;> rfl

/-- The names stay what they are. -/
theorem logSourceNameGet_after (s : Levels) (history : List UInt8) (src : Nat) :
    (s.after history).logSourceNameGet src = s.logSourceNameGet src := by
  induction history generalizing s with
  | nil => rfl
  | cons level history ih =>
    have hstep := ih (devBenchLogSetLevel s level).1
    rw [logSourceNameGet_devBenchLogSetLevel] at hstep
    exact hstep

/-- And none comes or goes. -/
theorem length_sources_after (s : Levels) (history : List UInt8) :
    (s.after history).sources.length = s.sources.length := by
  induction history generalizing s with
  | nil => rfl
  | cons level history ih =>
    have hstep := ih (devBenchLogSetLevel s level).1
    rw [sources_devBenchLogSetLevel, List.length_map] at hstep
    exact hstep

/-- The last request comes last. -/
theorem after_append_singleton (s : Levels) (history : List UInt8) (last : UInt8) :
    s.after (history ++ [last]) = (devBenchLogSetLevel (s.after history) last).1 := by
  simp [Levels.after, List.foldl_append]

/-- Behind a request a source has been asked for what is wanted of it, and its filter lets
no more be created. -/
theorem want_of_mem {s : Levels} {level : UInt8} {source : LogSource}
    (h : source ∈ (devBenchLogSetLevel s level).1.sources) :
    source.want = wantFor level source.name ∧ source.filter ≤ source.want := by
  rw [sources_devBenchLogSetLevel, List.mem_map] at h
  obtain ⟨before, _, rfl⟩ := h
  refine ⟨rfl, ?_⟩
  simp only [logFilterSet]
  grind

/-! ## The two filters -/

/-- The kernel is held below its ceiling. -/
theorem wantFor_kernel (level : UInt8) :
    wantFor level (some devBenchLogKernelModule) =
      if level > devBenchLogKernelCeiling then devBenchLogKernelCeiling else level := by
  have hne : devBenchLogKernelModule ≠ devBenchLogAppModule := by decide
  simp only [wantFor, Option.some.injEq, hne, false_and, and_false, if_false, true_and]

/-- The application is kept up to its floor, unless the log is off. -/
theorem wantFor_app {level : UInt8} (h : level ≠ dbmLogLevelOff) :
    wantFor level (some devBenchLogAppModule) =
      if level < dbmLogLevelInf then dbmLogLevelInf else level := by
  have hne : devBenchLogAppModule ≠ devBenchLogKernelModule := by decide
  simp only [wantFor, Option.some.injEq, h, hne, false_and, if_false, true_and, ne_eq,
    not_false_eq_true]

/-- Nobody is heard when the log is off. -/
theorem wantFor_off (name : Option (List UInt8)) :
    wantFor dbmLogLevelOff name = dbmLogLevelOff := by
  simp [wantFor]

/-- Any other source is set as asked. -/
theorem wantFor_other {name : Option (List UInt8)} (happ : name ≠ some devBenchLogAppModule)
    (hkernel : name ≠ some devBenchLogKernelModule) (level : UInt8) :
    wantFor level name = level := by
  simp [wantFor, happ, hkernel]

/-- The sources and levels for which the ceiling is put in front of the request: a
warning of the kernel where errors alone are asked for. -/
def Overtakes (currentLevel level : UInt8) (name : Option (List UInt8)) : Prop :=
  name = some devBenchLogKernelModule ∧ currentLevel = 1 ∧ level = 2

/-- A record of a level is forwarded as the level wanted of its source says, except there. -/
theorem recordPasses_iff {s : Levels} {level : UInt8} {src : Nat} (hlevel : 1 ≤ level) :
    (recordPasses s level (some src) = true ↔
        level ≤ wantFor s.currentLevel (s.logSourceNameGet src)) ↔
      ¬ Overtakes s.currentLevel level (s.logSourceNameGet src) := by
  have hraw : level ≠ logLevelInternalRawString := by grind
  obtain ⟨name, hname⟩ : ∃ name, s.logSourceNameGet src = name := ⟨_, rfl⟩
  unfold recordPasses Overtakes
  simp only [Option.bind_some, hraw, if_false, hname]
  by_cases hoff : s.currentLevel = dbmLogLevelOff
  · rw [hoff, wantFor_off]
    grind
  · rw [if_neg hoff]
    by_cases hkernel : name = some devBenchLogKernelModule
    · rw [if_pos hkernel, hkernel, wantFor_kernel]
      grind
    · rw [if_neg hkernel]
      by_cases happ : name = some devBenchLogAppModule
      · rw [happ, wantFor_app hoff]
        grind
      · rw [wantFor_other happ hkernel]
        grind

/-- The backend forwards a record of that level and source exactly when the level is at
most what the last request wanted of the source. -/
def FiltersAgree (s : Levels) (level : UInt8) (src : Nat) : Prop :=
  ∀ source, s.sources[src]? = some source →
    (recordPasses s level (some src) = true ↔ level ≤ source.want)

/-- After any history of requests, `last` the last of them, the filters disagree on a
source of the table about a warning of the kernel where errors alone were asked for, and
about nothing else. -/
theorem filtersAgree_iff (s : Levels) (history : List UInt8) (last level : UInt8) (src : Nat)
    (hlevel : 1 ≤ level) (hsrc : src < s.sources.length) :
    FiltersAgree (s.after (history ++ [last])) level src ↔
      ¬ Overtakes last level (s.logSourceNameGet src) := by
  have hlen := length_sources_after s (history ++ [last])
  have hname := logSourceNameGet_after s (history ++ [last]) src
  rw [after_append_singleton] at hlen hname ⊢
  obtain ⟨source, hsource⟩ : ∃ source,
      (devBenchLogSetLevel (s.after history) last).1.sources[src]? = some source :=
    ⟨_, List.getElem?_eq_getElem (hlen ▸ hsrc)⟩
  have hwant : source.want = wantFor last (s.logSourceNameGet src) := by
    rw [(want_of_mem (List.mem_of_getElem? hsource)).1, ← hname, Levels.logSourceNameGet, hsource]
    rfl
  have hpasses := @recordPasses_iff (devBenchLogSetLevel (s.after history) last).1 level src hlevel
  rw [currentLevel_devBenchLogSetLevel, hname, ← hwant] at hpasses
  rw [← hpasses]
  constructor
  · intro h
    exact h source hsource
  · intro h other hother
    cases hsource.symm.trans hother
    exact h

/-- The kernel's log, a study that asks for errors, and a warning of the kernel. -/
theorem not_filtersAgree_kernelWarning :
    ¬ FiltersAgree (Levels.after ⟨[⟨some devBenchLogKernelModule, 4, 4, 4⟩], devBenchLogBootLevel⟩
      [1]) 2 0 := by
  intro h
  have hsource := h ⟨some devBenchLogKernelModule, 4, 1, 1⟩ (by decide)
  revert hsource
  decide

/-- A kernel table where debug records are asked for after errors were. -/
theorem filtersAgree_iff_debug :
    FiltersAgree (Levels.after ⟨[⟨some devBenchLogKernelModule, 4, 4, 4⟩], devBenchLogBootLevel⟩
      ([1] ++ [4])) 2 0 :=
  (filtersAgree_iff _ [1] 4 2 0 (by decide) (by decide)).mpr fun h => absurd h.2.1 (by decide)

/-- What the runtime filters let be created is forwarded. -/
theorem recordPasses_of_created {s : Levels} {history : List UInt8} {last level : UInt8}
    {src : Nat} {source : LogSource} (hlevel : 1 ≤ level)
    (hsource : (s.after (history ++ [last])).sources[src]? = some source)
    (hcreated : level ≤ source.filter) :
    recordPasses (s.after (history ++ [last])) level (some src) = true := by
  rw [after_append_singleton] at hsource ⊢
  have hname : (devBenchLogSetLevel (s.after history) last).1.logSourceNameGet src =
      source.name := by
    rw [Levels.logSourceNameGet, hsource]
    rfl
  obtain ⟨hwant, hfilter⟩ := want_of_mem (List.mem_of_getElem? hsource)
  have hle : level ≤ wantFor last source.name := by
    rw [← hwant]
    grind
  have hpasses := @recordPasses_iff (devBenchLogSetLevel (s.after history) last).1 level src hlevel
  rw [currentLevel_devBenchLogSetLevel, hname] at hpasses
  apply (hpasses.mpr ?_).mpr hle
  rintro ⟨hkernel, rfl, rfl⟩
  rw [hkernel, wantFor_kernel] at hle
  revert hle
  decide

/-! ## The level reached -/

/-- A source raises what was reached to the level asked for, or leaves it. -/
theorem snd_setSource {level reached : UInt8} (h : reached ≤ level) (source : LogSource) :
    (setSource level source reached).2 ≤ level ∧
      ((setSource level source reached).2 = level ↔
        reached = level ∨ wantFor level source.name = level ∧ level ≤ source.compiled) := by
  simp only [setSource, logFilterSet]
  grind

/-- The level is reached when some source is set to it. -/
theorem snd_setLevelLoop {level reached : UInt8} (h : reached ≤ level)
    (sources : List LogSource) :
    (setLevelLoop level sources reached).2 ≤ level ∧
      ((setLevelLoop level sources reached).2 = level ↔ reached = level ∨
        ∃ source ∈ sources, wantFor level source.name = level ∧ level ≤ source.compiled) := by
  induction sources generalizing reached with
  | nil => simp [setLevelLoop, h]
  | cons source sources ih =>
    obtain ⟨hle, hiff⟩ := snd_setSource h source
    obtain ⟨hle', hiff'⟩ := ih hle
    rw [hiff, or_assoc] at hiff'
    rw [List.exists_mem_cons_iff]
    exact ⟨hle', hiff'⟩

/-- A request returns no more than it asked for, and that exactly when a source asked for
it has it compiled in. -/
theorem reached_eq_iff (s : Levels) (level : UInt8) :
    (devBenchLogSetLevel s level).2 ≤ level ∧
      ((devBenchLogSetLevel s level).2 = level ↔ level = 0 ∨
        ∃ source ∈ s.sources, wantFor level source.name = level ∧ level ≤ source.compiled) := by
  have hloop := @snd_setLevelLoop level 0 (UInt8.zero_le) s.sources
  rwa [@eq_comm _ 0 level] at hloop

end DevBench.Log
