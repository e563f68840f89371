import Mathlib.Algebra.GroupWithZero.Nat
import TableLoom.Proofs.Generation.Exporting

/-!
What a directory holds after an export, and what the manifest says of it. The manifest is made from the
texts of the files before they are written; it says what the bytes on disk say.
-/

namespace TableLoom.Generation

open Storage (Disk DiskError Path Place Tree Node)
open Storage.Disk (Runs)

/-- The measures of a file by the bytes that it holds. -/
def measures (name : String) (b : ByteArray) : Value :=
  .ofFields [("line_count", .int (Text.byteLines b.toList)), ("relative_path", .text name),
    ("sha256", .text (Digest.sha256 b.toList)), ("size_bytes", .int b.size)]

/-- What a manifest has to say of the files of these names, by what a directory holds. -/
def survey (c : Config) (tables : List String) (t : Tree) (directory : Place) (names : List String) :
    Value :=
  let held := names.filterMap fun name => (t.content? (directory ++ [name])).map (name, ·)
  let bytes : Nat := (held.map fun x => x.2.size).sum
  let lines : Nat := (held.map fun x => Text.byteLines x.2.toList).sum
  .ofFields [("files", .list (held.map fun x => measures x.1 x.2)), ("generator_version", .text version),
    ("runtime_package", .text c.runtimePackage), ("tables", .texts tables),
    ("total_bytes", .int bytes), ("total_files", .int held.length), ("total_lines", .int lines)]

theorem lineCount_eq (f : SourceFile) : f.lineCount = Text.byteLines f.content.toUTF8.toList :=
  (Text.byteLines_toUTF8 f.content).symm

theorem fileData_eq (f : SourceFile) : Manifest.fileData f = measures f.path f.content.toUTF8 := by
  rw [Manifest.fileData, measures, lineCount_eq]
  rfl

/-- The measures of a manifest are those of the bytes that were written. -/
theorem data_eq_survey {c : Config} {tables : List String} {t : Tree} {directory : Place}
    {files : List SourceFile}
    (held : ∀ f ∈ files, t.find? (directory ++ [f.path]) = some (.file f.content.toUTF8)) :
    Manifest.data ⟨c.runtimePackage, tables, files⟩ =
      survey c tables t directory (files.map (·.path)) := by
  have hheld : (files.map (·.path)).filterMap
      (fun name => (t.content? (directory ++ [name])).map (name, ·)) =
        files.map fun f => (f.path, f.content.toUTF8) := by
    rw [List.filterMap_map, ← List.filterMap_eq_map]
    refine List.filterMap_congr fun f hf => ?_
    simp [Tree.content?, held f hf]
  rw [survey, hheld]
  simp only [Manifest.data, Manifest.totalBytes, Manifest.totalFiles, Manifest.totalLines,
    List.map_map, List.length_map, List.sum, List.foldr_map, Function.comp_def, lineCount_eq]
  rw [List.map_congr_left fun f _ => fileData_eq f]
  rfl

/-- A manifest lists the files by their paths, in whatever order they are given. -/
theorem manifest_of_perm {c : Config} {files files' : List SourceFile} {tables : List String}
    (distinct : (files.map (·.path)).Nodup) (perm : files'.Perm files) :
    Manifest.of c files' tables = Manifest.of c files tables := by
  let le (a b : SourceFile) : Bool := a.path ≤ b.path
  have hperm : (files'.mergeSort le).Perm (files.mergeSort le) :=
    ((List.mergeSort_perm files' le).trans perm).trans (List.mergeSort_perm files le).symm
  have hsame : files'.mergeSort le = files.mergeSort le := by
    refine hperm.eq_of_pairwise (fun a b ha hb hab hba => ?_)
      (Tree.pairwise_mergeSort_by (·.path) files') (Tree.pairwise_mergeSort_by (·.path) files)
    have ha := perm.subset ((List.mergeSort_perm files' le).subset ha)
    have hb := (List.mergeSort_perm files le).subset hb
    exact List.inj_on_of_nodup_map distinct ha hb (le_antisymm hab hba)
  exact congrArg (Manifest.mk c.runtimePackage tables) hsame

theorem paths_manifest (c : Config) (files : List SourceFile) (tables : List String) :
    (Manifest.of c files tables).files.map (·.path) = (files.map (·.path)).mergeSort (· ≤ ·) :=
  List.map_mergeSort fun _ _ _ _ => rfl

/-- What a directory holds after an export. -/
structure Settled (c : Config) (out : Path) (files : List SourceFile) (tables : List String)
    (t t' : Tree) (e : Exported) : Prop where
  held : ∀ f ∈ files, Text.loneHalves? f.content = none ∧
    t'.find? (out.place ++ [f.path]) = some (.file f.content.toUTF8)
  manifest : c.manifest = true →
    t'.find? (out.place ++ [manifestName]) =
      some (.file (Json.indented 0 e.manifest.data ++ "\n").toUTF8)
  surveyed : e.manifest.data =
    survey c tables t' out.place ((files.map (·.path)).mergeSort (· ≤ ·))
  order : ∀ files', files'.Perm files → Manifest.of c files' tables = e.manifest
  removed : ∀ name, name ∈ e.removed ↔
    c.clean = true ∧ Stale t out.place (files.map (·.path)) name
  gone : ∀ name ∈ e.removed, t'.find? (out.place ++ [name]) = none
  /-- Nothing else has changed, but for directories made on the way. -/
  others : ∀ q, (∀ f ∈ files, q ≠ out.place ++ [f.path]) →
    (c.manifest = true → q ≠ out.place ++ [manifestName]) →
      (∀ name ∈ e.removed, q ≠ out.place ++ [name]) →
        t'.find? q = t.find? q ∨ out.Over q ∧ t.find? q = none ∧ t'.find? q = some .directory

theorem settled {c : Config} {out : Path} {files : List SourceFile} {tables : List String}
    {t t₁ t' : Tree} {gone : List String} {done : List SourceFile} {e : Exported}
    (distinct : (files.map (·.path)).Nodup) (course : Course c out files tables t t₁ t' gone done)
    (finished : Finished c out files tables t₁ gone done e) : Settled c out files tables t t' e := by
  obtain ⟨rfl, hstale, rfl, hmanifest⟩ := finished
  have hheld : ∀ f ∈ files, f ∈ packaged c files tables := fun f hf => List.mem_append_left _ hf
  constructor
  case held =>
    exact fun f hf => ⟨course.deposited.whole f (hheld f hf), course.deposited.held f (hheld f hf)⟩
  case manifest =>
    intro hlisted
    refine course.deposited.held ⟨manifestName, _, none⟩ (List.mem_append_right _ ?_)
    rw [manifestFiles, if_pos hlisted, List.mem_singleton, hmanifest]
    rfl
  case surveyed =>
    rw [hmanifest, ← paths_manifest c files tables]
    refine data_eq_survey fun f hf => course.deposited.held f (hheld f ?_)
    exact (List.mergeSort_perm _ _).subset hf
  case order =>
    intro files' perm
    rw [hmanifest, manifest_of_perm distinct perm]
  case removed =>
    intro name
    rw [← stale_grown course.grown]
    exact ⟨course.stale name, fun ⟨hclean, h⟩ => hstale hclean name h⟩
  case gone => exact fun name => course.removed
  case others =>
    intro q hfiles hlisted hgone
    refine course.others hgone (List.forall_mem_append.mpr ⟨hfiles, fun f hf => ?_⟩)
    rw [path_manifestFiles hf]
    refine hlisted ?_
    unfold manifestFiles at hf
    split at hf
    · assumption
    · cases hf

end TableLoom.Generation
