import TableLoom.Proofs.Generation.Exporting
import TableLoom.Proofs.Generation.Rendering
import TableLoom.Proofs.Text.Split

/-!
Modules that a run of the generator removes. What it does not write again counts as stale, whether the
table is gone or merely rejected in this run.
-/

namespace TableLoom.Generation

open Schema (Examination Registry Table)
open Storage (Disk DiskError Path Place Tree Work)
open Storage.Disk (Runs)

section

variable {α : Type} {t t' : Tree} {c : Config} {out : Path}

theorem runs_notes {entries : List Log.Entry} {k : Unit → Work α} {r : Except DiskError α}
    (h : Runs (notes entries >>= k) t r t') : Runs (k ()) t r t' := by
  obtain ⟨d, d', hrun, rfl, rfl⟩ := h
  exact ⟨{ d with log := d.log ++ entries }, d', hrun, rfl, rfl⟩

theorem runs_examineStage {registry : Registry} {report : Report} {k : Examination × Report → Work α}
    {r : Except DiskError α} (h : Runs (examineStage registry report >>= k) t r t') :
    ∃ report', Runs (k (registry.examine, report')) t r t' := by
  unfold examineStage at h
  simp only [bind_assoc, pure_bind] at h
  exact ⟨_, runs_notes (Disk.runs_note_bind (runs_notes h))⟩

theorem runs_renderStage {tables : List Table} {files : List SourceFile} {report : Report}
    {k : Report → Work α} {r : Except DiskError α} (rendered : renderFiles c tables = .ok files)
    (h : Runs (renderStage c tables report >>= k) t r t') :
    ∃ report', report'.files = files ∧ report'.generationErrors = [] ∧ Runs (k report') t r t' := by
  unfold renderStage at h
  simp only [bind_assoc, pure_bind, rendered] at h
  exact ⟨_, rfl, rfl, Disk.runs_note_bind (runs_notes (runs_notes h))⟩

/-- What the stage that writes the files makes of the outcome of the export. -/
def concluded (report : Report) : Except DiskError Exported → Except DiskError Report
  | .ok x => .ok { report with
      manifest := some x.manifest
      stages := report.stages ++ [⟨"Export to Filesystem", true,
        s!"{x.changed.length} changed, {x.unchanged.length} unchanged"⟩] }
  | .error e =>
    if e.trouble.isRefusal then .ok { report with
      exportErrors := [s!"Export failed: {e.name}: {e.message}"]
      stages := report.stages ++ [⟨"Export to Filesystem", false, "aborted"⟩] }
    else .error e

/-- Unless the stage that writes the files reports an error, the export was not refused. -/
theorem exported_of_concluded {report report' : Report} {r : Except DiskError Exported}
    (h : concluded report r = .ok report') (unreported : report'.exportErrors = []) :
    ∃ x, r = .ok x := by
  cases r with
  | ok x => exact ⟨x, rfl⟩
  | error e =>
      dsimp only [concluded] at h
      split at h
      · rw [← Except.ok.inj h] at unreported
        cases unreported
      · cases h

/-- The stage that writes the files leaves what the export leaves, and tells of its outcome. -/
theorem runs_exportStage {report : Report} {r : Except DiskError Report}
    (h : Runs (exportStage c out report) t r t') :
    ∃ r', Runs (exportFiles c out report.files report.accepted) t r' t' ∧ r = concluded report r' := by
  replace h := runs_notes h
  obtain ⟨made, t₁, hmade, hend⟩ | ⟨e, rfl, hmade⟩ := Disk.runs_bind h
  · replace hend := Disk.runs_note_bind hend
    obtain ⟨rfl, rfl⟩ := Disk.runs_pure hend
    obtain ⟨_, hsame, hexport⟩ | ⟨e, t₂, hexport, hrecover⟩ := Disk.runs_tryCatch hmade
    · cases hsame
      obtain ⟨r', hrun, hr'⟩ := Disk.runs_bind_pure hexport
      cases r' with
      | error e => cases hr'
      | ok x => exact ⟨_, hrun, hr'⟩
    · obtain ⟨r', hrun, hr'⟩ := Disk.runs_bind_pure hexport
      split at hrecover
      · obtain ⟨_, hthrow, -⟩ := Disk.runs_throw_bind hrecover
        cases hthrow
      · next hrefusal =>
          replace hrecover := runs_notes hrecover
          obtain ⟨hreport, rfl⟩ := Disk.runs_pure hrecover
          cases r' with
          | ok x => cases hr'
          | error e' =>
              cases hr'
              refine ⟨_, hrun, hreport.trans ?_⟩
              rw [concluded, if_pos (by simpa using hrefusal)]
  · obtain ⟨_, hsame, -⟩ | ⟨e', t₂, hexport, hrecover⟩ := Disk.runs_tryCatch hmade
    · cases hsame
    · obtain ⟨r', hrun, hr'⟩ := Disk.runs_bind_pure hexport
      split at hrecover
      · next hother =>
          obtain ⟨_, _, hthrow, -⟩ | ⟨_, hsame, hthrow⟩ := Disk.runs_bind hrecover
          · cases (Disk.runs_throw hthrow).1
          obtain ⟨hthrown, rfl⟩ := Disk.runs_throw hthrow
          cases hsame
          cases hthrown
          cases r' with
          | ok x => cases hr'
          | error e' =>
              cases hr'
              refine ⟨_, hrun, ?_⟩
              rw [concluded, if_neg (by simpa using hother)]
      · replace hrecover := runs_notes hrecover
        cases (Disk.runs_pure hrecover).1

/-- A run of the generator exports the files of the accepted tables, and changes nothing else. -/
theorem runs_generate {registry : Registry} {files : List SourceFile} {output : Option String}
    {report : Report} {r : Except DiskError Report}
    (rendered : renderFiles c registry.examine.tables = .ok files)
    (h : Runs (generate c registry output report) t r t') :
    ∃ tables r', Runs (exportFiles c (Path.ofText (output.getD c.outputDir)) files tables) t r' t' ∧
      ∀ report', r = .ok report' → report'.exportErrors = [] → ∃ e, r' = .ok e := by
  unfold generate at h
  replace h := runs_notes h
  obtain ⟨report₁, h⟩ := runs_examineStage h
  obtain ⟨report₂, hfiles, hnone, h⟩ := runs_renderStage rendered h
  simp only [hnone, List.isEmpty_nil, ↓reduceIte] at h
  obtain ⟨r₁, hstage, rfl⟩ := Disk.runs_bind_pure h
  obtain ⟨r', hexport, hr'⟩ := runs_exportStage hstage
  rw [hfiles] at hexport
  refine ⟨_, r', hexport, fun report' hr hnone => ?_⟩
  cases r₁ with
  | error e => cases hr
  | ok report₃ =>
      cases hr
      exact exported_of_concluded hr'.symm hnone

end

/-- A run writes no module of this name: it is no accepted table's, nor the registry's or the package's. -/
structure Unwritten (r : Registry) (c : Config) (name : String) : Prop where
  table : name ∉ r.examine.accepted
  registry : c.registry = true → name ≠ "registry"
  package : name ≠ "__init__"

theorem slash_notMem_accepted {r : Registry} {name : String} (h : name ∈ r.examine.accepted) :
    '/' ∉ name.toList := by
  obtain ⟨t, ht, rfl⟩ := Registry.exists_table h
  obtain ⟨-, -, -, -, -, hpasses⟩ := Registry.mem_tables ht
  have hidentifier := (Bool.and_eq_true_iff.mp hpasses.names.1).1
  intro hslash
  rcases Text.mem_dropLineEnd hslash with hmem | hend
  · exact absurd (Text.isNameRest_of_isNameChars hidentifier _ hmem) (by decide)
  · exact absurd hend (by decide)

theorem paths_sharedFiles (c : Config) (tables : List Table) :
    (sharedFiles c tables).map (·.path) =
      (if c.registry then [tablePath "registry"] else []) ++ [tablePath "__init__"] := by
  unfold sharedFiles
  split <;> rfl

/-- The files of a run are the modules that it writes. -/
theorem rendered (r : Registry) (c : Config) :
    ∃ files, renderFiles c r.examine.tables = .ok files ∧ (files.map (·.path)).Nodup ∧
      (∀ name, tablePath name ∈ files.map (·.path) ↔ ¬ Unwritten r c name) ∧
      ∀ f ∈ files, '/' ∉ f.path.toList ∧ Text.endsWith f.path ".py" = true := by
  obtain ⟨modules, hfiles, hall⟩ := renderFiles_ok fun t => known_targets (r := r) (c := c) (t := t)
  have hpaths : (modules ++ sharedFiles c r.examine.tables).map (·.path) =
      r.examine.accepted.map tablePath ++
        ((if c.registry then [tablePath "registry"] else []) ++ [tablePath "__init__"]) := by
    rw [List.map_append, paths_modules hall, paths_sharedFiles]
  have hmem (p : String) (hp : p ∈ (modules ++ sharedFiles c r.examine.tables).map (·.path)) :
      ∃ name, '/' ∉ name.toList ∧ p = tablePath name := by
    rw [hpaths, List.mem_append, List.mem_append] at hp
    rcases hp with hp | hp | hp
    · obtain ⟨name, hname, rfl⟩ := List.mem_map.mp hp
      exact ⟨name, slash_notMem_accepted hname, rfl⟩
    · split at hp
      · exact ⟨"registry", by decide, List.mem_singleton.mp hp⟩
      · cases hp
    · exact ⟨"__init__", by decide, List.mem_singleton.mp hp⟩
  refine ⟨_, hfiles, paths_nodup hall, fun name => ?_, fun f hf => ?_⟩
  · have hinjective : Function.Injective tablePath := fun _ _ => tablePath_injective
    have hregistry : tablePath name ∈ (if c.registry then [tablePath "registry"] else []) ↔
        c.registry = true ∧ name = "registry" := by
      split
      · next h => simp [h, hinjective.eq_iff]
      · next h => simp [h]
    rw [hpaths, List.mem_append, List.mem_append, List.mem_map_of_injective hinjective, hregistry,
      List.mem_singleton, hinjective.eq_iff]
    constructor
    · rintro (htable | ⟨hc, hname⟩ | hname) unwritten
      · exact unwritten.table htable
      · exact unwritten.registry hc hname
      · exact unwritten.package hname
    · intro hwritten
      by_contra hnot
      rw [not_or, not_or, not_and] at hnot
      exact hwritten ⟨hnot.1, hnot.2.1, hnot.2.2⟩
  · obtain ⟨name, hslash, hpath⟩ := hmem f.path (List.mem_map_of_mem hf)
    rw [hpath]
    refine ⟨?_, Text.endsWith_iff.mpr ⟨name, rfl⟩⟩
    rw [tablePath, String.toList_append]
    exact fun h => (List.mem_append.mp h).elim hslash (by decide)

/-- A file that was there is there no more. -/
def Lost (before after : Tree) (q : Place) : Prop :=
  before.isFile q = true ∧ after.isFile q = false

theorem stale_iff {r : Registry} {c : Config} {t : Tree} {directory : Place} {keep : List String}
    (written : ∀ name, tablePath name ∈ keep ↔ ¬ Unwritten r c name) {name : String} :
    Stale t directory keep (tablePath name) ↔
      HoldsEmitted t directory (tablePath name) ∧ Unwritten r c name := by
  have hsource : Text.endsWith (tablePath name) ".py" = true := Text.endsWith_iff.mpr ⟨name, rfl⟩
  have hunlisted : tablePath name ∉ keep ↔ Unwritten r c name := by
    rw [written, not_not]
  exact ⟨fun h => ⟨h.emitted, hunlisted.mp h.unlisted⟩, fun h => ⟨hsource, hunlisted.mpr h.2, h.1⟩⟩

/-- What a run removes, and what it leaves. -/
theorem lost_iff {r : Registry} {c : Config} {output : Option String} {report : Report} {t t' : Tree}
    {result : Except DiskError Report} (named : t.Named)
    (h : Runs (generate c r output report) t result t') :
    let out := Path.ofText (output.getD c.outputDir)
    (∀ q, Lost t t' q → c.clean = true ∧ ∃ name, q = out.place ++ [tablePath name] ∧
      HoldsEmitted t out.place (tablePath name) ∧ Unwritten r c name) ∧
    ∀ report', result = .ok report' → report'.exportErrors = [] → c.clean = true →
      ∀ name, HoldsEmitted t out.place (tablePath name) → Unwritten r c name →
        Lost t t' (out.place ++ [tablePath name]) := by
  intro out
  obtain ⟨files, hfiles, distinct, written, sources⟩ := rendered r c
  obtain ⟨tables, r', hexport, hok⟩ := runs_generate hfiles h
  obtain ⟨t₁, gone, done, course, finished⟩ := runs_writePackage named
    (Path.slash_notMem_ofText _) sources distinct (runs_exportFiles hexport)
  constructor
  · rintro q ⟨hbefore, hafter⟩
    obtain ⟨hclean, name, rfl, hstale⟩ := course.lost hbefore hafter
    obtain ⟨name, rfl⟩ := Text.endsWith_iff.mp hstale.source
    exact ⟨hclean, name, rfl, (stale_iff written).mp hstale⟩
  · intro report' hresult hnone hclean name hemitted unwritten
    obtain ⟨e, rfl⟩ := hok report' hresult hnone
    have hstale := (stale_iff written).mpr ⟨hemitted, unwritten⟩
    have hgone := (finished e rfl).stale hclean _ ((stale_grown course.grown).mpr hstale)
    refine ⟨hemitted.isFile, ?_⟩
    rw [Tree.isFile, course.removed hgone]

/-- A run removes no module of an accepted table, whatever faults it meets. A run that cleans and is not
refused removes the module of a table of the registry exactly if it was emitted once and the table is
rejected now. -/
theorem rejected_modules_lost (r : Registry) (c : Config) (output : Option String) (report : Report)
    {d d' : Disk} {result : Except DiskError Report} (named : d.tree.Named)
    (generated : (generate c r output report).run.run d = (result, d')) :
    let out := Path.ofText (output.getD c.outputDir)
    (∀ q, Lost d.tree d'.tree q → c.clean = true ∧ ∃ name, q = out.place ++ [tablePath name] ∧
      HoldsEmitted d.tree out.place (tablePath name) ∧
      (name ∈ r.tables → name ∈ r.examine.rejected)) ∧
    ∀ report', result = .ok report' → report'.exportErrors = [] → c.clean = true →
      ∀ name ∈ r.tables, name ≠ "registry" → name ≠ "__init__" →
        (Lost d.tree d'.tree (out.place ++ [tablePath name]) ↔
          name ∈ r.examine.rejected ∧ HoldsEmitted d.tree out.place (tablePath name)) := by
  intro out
  obtain ⟨honly, hall⟩ := lost_iff named ⟨d, d', generated, rfl, rfl⟩
  have hrejected {name : String} (unwritten : Unwritten r c name) (hname : name ∈ r.tables) :
      name ∈ r.examine.rejected := by
    by_contra hsound
    exact unwritten.table (Registry.mem_accepted_iff.mpr ⟨hname, hsound⟩)
  constructor
  · intro q hlost
    obtain ⟨hclean, name, hq, hemitted, unwritten⟩ := honly q hlost
    exact ⟨hclean, name, hq, hemitted, hrejected unwritten⟩
  · intro report' hresult hnone hclean name hname hregistry hpackage
    constructor
    · intro hlost
      obtain ⟨-, other, hq, hemitted, unwritten⟩ := honly _ hlost
      rw [List.append_cancel_left_eq, List.singleton_inj] at hq
      obtain rfl := tablePath_injective hq
      exact ⟨hrejected unwritten hname, hemitted⟩
    · rintro ⟨hrejected, hemitted⟩
      have hunwritten : Unwritten r c name :=
        ⟨fun haccepted => (Registry.mem_accepted_iff.mp haccepted).2 hrejected, fun _ => hregistry, hpackage⟩
      exact hall report' hresult hnone hclean name hemitted hunwritten

/-- Two fragments describe users, and both declare the key. -/
def keyedTwice : Registry where
  entries := [
    { table := "users"
      fragments :=
        [{ table := "users", fields := [keyField] }, { table := "users", fields := [keyField] }] }]
  distinct := by decide

/-- A directory with the module that an earlier run wrote for users. -/
def usersEmitted : Tree :=
  { nodes := [(["pkg"], .directory),
      (["pkg", "users.py"], .file "\"\"\"\nGenerated by fluentorm. Do not edit.\n\"\"\"\n".toUTF8)] }

theorem named_usersEmitted : usersEmitted.Named := by
  change ∀ p ∈ ([["pkg"], ["pkg", "users.py"]] : List Place), _
  decide

def cleaning : Config := { clean := true, manifest := false, registry := false }

theorem exported_keyedTwice : ∃ report d', (generate cleaning keyedTwice (some "pkg") {}).run.run
    { tree := usersEmitted } = (.ok report, d') ∧ report.exportErrors.isEmpty = true :=
  Disk.exists_of_any (p := fun (report : Report) => report.exportErrors.isEmpty) (by decide +kernel)

theorem holdsEmitted_usersEmitted : HoldsEmitted usersEmitted ["pkg"] (tablePath "users") :=
  ⟨_, rfl, by decide +kernel⟩

theorem rejected_keyedTwice : keyedTwice.examine.rejected = ["users"] := by
  decide +kernel

theorem rejected_modules_lost_keyedTwice : ∃ report d',
    (generate cleaning keyedTwice (some "pkg") {}).run.run { tree := usersEmitted } = (.ok report, d') ∧
      ∀ name ∈ keyedTwice.tables, name ≠ "registry" → name ≠ "__init__" →
        (Lost usersEmitted d'.tree (["pkg"] ++ [tablePath name]) ↔
          name ∈ keyedTwice.examine.rejected ∧ HoldsEmitted usersEmitted ["pkg"] (tablePath name)) := by
  obtain ⟨report, d', hrun, hnone⟩ := exported_keyedTwice
  have hlost := rejected_modules_lost keyedTwice cleaning (some "pkg") {} named_usersEmitted hrun
  exact ⟨report, d', hrun, hlost.2 report rfl (List.isEmpty_iff.mp hnone) rfl⟩

/-- The table of users is in the registry, and its module is removed. -/
theorem rejected_module_removed : "users" ∈ keyedTwice.tables ∧ ∃ report d',
    (generate cleaning keyedTwice (some "pkg") {}).run.run { tree := usersEmitted } = (.ok report, d') ∧
      Lost usersEmitted d'.tree ["pkg", "users.py"] := by
  obtain ⟨report, d', hrun, hnone⟩ := exported_keyedTwice
  obtain ⟨-, hall⟩ := lost_iff named_usersEmitted ⟨_, d', hrun, rfl, rfl⟩
  have hunwritten : Unwritten keyedTwice cleaning "users" := by
    refine ⟨fun haccepted => ?_, nofun, by decide⟩
    exact (Registry.mem_accepted_iff.mp haccepted).2 (by simp [rejected_keyedTwice])
  exact ⟨List.mem_singleton_self _, report, d', hrun,
    hall report rfl (List.isEmpty_iff.mp hnone) rfl "users" holdsEmitted_usersEmitted hunwritten⟩

end TableLoom.Generation
