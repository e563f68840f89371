import Mathlib.Data.List.Nodup
import TableLoom.Generation.Export
import TableLoom.Proofs.Storage.Writing
import TableLoom.Proofs.Text.LineEnds

/-!
What an export does to a tree, also one that is refused on the way: directories are made, some emitted
modules are removed, and then the first files are written.
-/

namespace TableLoom.Generation

open Storage (Disk DiskError Path Place Tree Node Work)
open Storage.Disk (Runs)

/-- A text says of itself that it was emitted, however its line ends are written. -/
theorem any_textOf? (b : ByteArray) :
    (Storage.textOf? b).any isGenerated = (Text.Utf8.decode? b).any isGenerated := by
  unfold Storage.textOf?
  rw [Option.any_map]
  have hnote : Code.generatedNote.toList.all (fun c => c != '\n' && c != '\r') = true := by decide
  congr 1
  funext s
  simp only [isGenerated, Text.contains, String.toList_ofList]
  exact Text.containsChars_unifyLineEnds (by simpa using hnote) (by decide) s.toList

/-- The directory holds a file of this name, whose text says of itself that it was emitted. -/
def HoldsEmitted (t : Tree) (directory : Place) (name : String) : Prop :=
  ∃ s, t.find? (directory ++ [name]) = some (.file s.toUTF8) ∧ isGenerated s = true

theorem any_textInside {t : Tree} {directory : Place} {name : String} :
    ((t.content? (directory ++ [name])).bind Storage.textOf?).any isGenerated = true ↔
      HoldsEmitted t directory name := by
  unfold Tree.content? HoldsEmitted
  rcases hfind : t.find? (directory ++ [name]) with _ | _ | b
  · simp
  · simp
  · simp only [Option.bind_some, any_textOf?, Option.any_eq_true,
      Text.Utf8.decode?_eq_some_iff, Option.some.injEq, Node.file.injEq]

/-- The directory holds an emitted module of this name, which is not to be kept. -/
structure Stale (t : Tree) (directory : Place) (keep : List String) (name : String) : Prop where
  source : Text.endsWith name ".py" = true
  unlisted : name ∉ keep
  emitted : HoldsEmitted t directory name

theorem isName_of_source {name : String} (slash : '/' ∉ name.toList)
    (source : Text.endsWith name ".py" = true) : Path.IsName name where
  slash := slash
  nonempty := by
    rintro rfl
    exact absurd source (by decide)
  here := by
    rintro rfl
    exact absurd source (by decide)
  back := by
    rintro rfl
    exact absurd source (by decide)

section

variable {t t' : Tree} {out : Path} {keep names : List String}

theorem HoldsEmitted.of_without {gone : List Place} {directory : Place} {name : String}
    (h : HoldsEmitted (t.without gone) directory name) : HoldsEmitted t directory name := by
  obtain ⟨s, hfind, hs⟩ := h
  exact ⟨s, (Tree.file_of_without hfind).2, hs⟩

theorem HoldsEmitted.without {gone : List Place} {directory : Place} {name : String}
    (h : HoldsEmitted t directory name) (stays : directory ++ [name] ∉ gone) :
    HoldsEmitted (t.without gone) directory name := by
  obtain ⟨s, hfind, hs⟩ := h
  exact ⟨s, by rw [Tree.find?_without stays, hfind], hs⟩

theorem HoldsEmitted.isFile {directory : Place} {name : String} (h : HoldsEmitted t directory name) :
    t.isFile (directory ++ [name]) = true := by
  obtain ⟨s, hfind, -⟩ := h
  exact Tree.isFile_iff.mpr ⟨_, hfind⟩

/-- Of the modules of these names, emitted ones that are not to be kept were removed, and all of them
unless that was refused. -/
structure Swept (directory : Place) (keep names : List String) (t t' : Tree)
    (r : Except DiskError (List String)) (gone : List String) : Prop where
  tree : t' = t.without (gone.map (directory ++ [·]))
  stale : ∀ name ∈ gone, name ∈ names ∧ name ∉ keep ∧ HoldsEmitted t directory name
  told : ∀ removed, r = .ok removed → removed = gone
  all : (∃ removed, r = .ok removed) →
    ∀ name ∈ names, name ∉ keep → HoldsEmitted t directory name → name ∈ gone

namespace Swept

variable {directory : Place} {name : String} {gone : List String}
  {r : Except DiskError (List String)}

theorem nil : Swept directory keep [] t t (.ok []) [] :=
  ⟨by simp, by simp, fun _ h => (Except.ok.inj h).symm, by simp⟩

theorem refused (e : DiskError) : Swept directory keep names t t (.error e) [] :=
  ⟨by simp, by simp, nofun, nofun⟩

/-- A module that is not stale stays. -/
theorem skip (h : Swept directory keep names t t' r gone)
    (stays : name ∉ keep → ¬ HoldsEmitted t directory name) :
    Swept directory keep (name :: names) t t' r gone where
  tree := h.tree
  stale other hgone := (h.stale other hgone).imp_left (List.mem_cons_of_mem _)
  told := h.told
  all hr := List.forall_mem_cons.mpr
    ⟨fun hkeep hemitted => absurd hemitted (stays hkeep), h.all hr⟩

/-- A stale module is removed before the others. -/
theorem remove (h : Swept directory keep names (t.without [directory ++ [name]]) t' r gone)
    (unlisted : name ∉ keep) (emitted : HoldsEmitted t directory name) :
    Swept directory keep (name :: names) t t' (r.map (name :: ·)) (name :: gone) where
  tree := h.tree.trans (Tree.without_without ..)
  stale := by
    refine List.forall_mem_cons.mpr ⟨⟨List.mem_cons_self, unlisted, emitted⟩, fun other hgone => ?_⟩
    obtain ⟨hmem, hkeep, hemitted⟩ := h.stale other hgone
    exact ⟨List.mem_cons_of_mem _ hmem, hkeep, hemitted.of_without⟩
  told removed hr := by
    cases r with
    | error e => cases hr
    | ok more =>
        obtain rfl := Except.ok.inj hr
        rw [h.told more rfl]
  all hr other hmem hkeep hemitted := by
    by_cases hsame : other = name
    · exact hsame ▸ List.mem_cons_self
    · have hmore : ∃ more, r = .ok more := by
        cases r with
        | error e => exact absurd hr nofun
        | ok more => exact ⟨more, rfl⟩
      have hstays : HoldsEmitted (t.without [directory ++ [name]]) directory other :=
        hemitted.without (by simpa using hsame)
      exact List.mem_cons_of_mem _
        (h.all hmore other ((List.mem_cons.mp hmem).resolve_left hsame) hkeep hstays)

end Swept

theorem runs_removeStale {r : Except DiskError (List String)} (stands : t.Stands out)
    (plain : ∀ name ∈ names, Path.IsName name)
    (clear : ∀ name ∈ names, t.isFile (out.place ++ [name]) = true → '\x00' ∉ name.toList)
    (h : Runs (removeStale out keep names) t r t') :
    ∃ gone, Swept out.place keep names t t' r gone := by
  induction names generalizing t r with
  | nil =>
      obtain ⟨rfl, rfl⟩ := Disk.runs_pure h
      exact ⟨[], .nil⟩
  | cons name rest ih =>
      obtain ⟨hname, hrest⟩ := List.forall_mem_cons.mp plain
      obtain ⟨hclear, hclears⟩ := List.forall_mem_cons.mp clear
      obtain h | ⟨e, rfl, rfl⟩ := Disk.runs_textInside stands hname hclear h
      swap
      · exact ⟨[], .refused e⟩
      split at h
      · next hstale =>
          rw [Bool.and_eq_true, any_textInside] at hstale
          obtain ⟨hkeep, hemitted⟩ := hstale
          obtain ⟨_, t₁, hremove, h⟩ | ⟨e, rfl, hremove⟩ := Disk.runs_bind h
          swap
          · obtain ⟨_, -, rfl⟩ | ⟨hr, -⟩ := Disk.runs_removeFile hremove
            · exact ⟨[], .refused e⟩
            · cases hr
          obtain ⟨_, hr, -⟩ | ⟨-, -, rfl⟩ := Disk.runs_removeFile hremove
          · cases hr
          rw [Path.place_child out hname, Tree.erase_eq] at h
          obtain ⟨r', hloop, rfl⟩ := Disk.runs_bind_pure (Disk.runs_note_bind h)
          have hfiles : ∀ p ∈ [out.place ++ [name]], t.isFile p = true :=
            List.forall_mem_singleton.mpr hemitted.isFile
          obtain ⟨gone, swept⟩ := ih ((Tree.covers_without hfiles).stands stands) hrest
            (fun n hn hfile => hclears n hn (Tree.isFile_of_without hfile)) hloop
          exact ⟨name :: gone, swept.remove (by simpa using hkeep) hemitted⟩
      · next hstale =>
          rw [Bool.and_eq_true, any_textInside, not_and] at hstale
          obtain ⟨gone, swept⟩ := ih stands hrest hclears h
          exact ⟨gone, swept.skip fun hkeep => hstale (by simpa using hkeep)⟩

/-- The files are in the directory, where no directories were in their places, and all else is as it
was. -/
structure Deposited (directory : Place) (done : List SourceFile) (t t' : Tree) : Prop where
  whole : ∀ f ∈ done, Text.loneHalves? f.content = none
  vacant : ∀ f ∈ done, t.find? (directory ++ [f.path]) ≠ some .directory
  held : ∀ f ∈ done, t'.find? (directory ++ [f.path]) = some (.file f.content.toUTF8)
  rest : ∀ q, (∀ f ∈ done, q ≠ directory ++ [f.path]) → t'.find? q = t.find? q

namespace Deposited

variable {directory : Place} {done more : List SourceFile} {f : SourceFile} {t₁ : Tree}

theorem nil (same : t'.find? = t.find?) : Deposited directory [] t t' :=
  ⟨by simp, by simp, by simp, fun q _ => congrFun same q⟩

theorem one (h : Disk.Written (directory ++ [f.path]) f.content t t') :
    Deposited directory [f] t t' where
  whole := List.forall_mem_singleton.mpr h.whole
  vacant := List.forall_mem_singleton.mpr h.vacant
  held := List.forall_mem_singleton.mpr (by rw [h.find, Function.update_self])
  rest q hq := by rw [h.find, Function.update_of_ne (hq f List.mem_cons_self)]

theorem covers (h : Deposited directory done t t') : t'.Covers t := by
  intro q hq
  rw [h.rest q fun f hf hsame => h.vacant f hf (hsame ▸ hq), hq]

theorem append (h : Deposited directory done t t₁) (h' : Deposited directory more t₁ t')
    (apart : ∀ f ∈ done, ∀ g ∈ more, f.path ≠ g.path) :
    Deposited directory (done ++ more) t t' where
  whole := List.forall_mem_append.mpr ⟨h.whole, h'.whole⟩
  vacant := List.forall_mem_append.mpr
    ⟨h.vacant, fun g hg hdirectory => h'.vacant g hg (h.covers _ hdirectory)⟩
  held := List.forall_mem_append.mpr ⟨fun f hf => by
    rw [h'.rest _ fun g hg hsame => apart f hf g hg (by simpa using hsame), h.held f hf], h'.held⟩
  rest q hq := by
    obtain ⟨hdone, hmore⟩ := List.forall_mem_append.mp hq
    rw [h'.rest q hmore, h.rest q hdone]

end Deposited

/-- A file is written, or nothing changes. -/
theorem runs_writeSource {f : SourceFile} {r : Except DiskError Bool} (stands : t.Stands out)
    (hname : Path.IsName f.path) (h : Runs (writeSource out f) t r t') :
    (∃ e, r = .error e) ∧ t'.find? = t.find? ∨
      (∃ isNew, r = .ok isNew) ∧ Deposited out.place [f] t t' := by
  obtain ⟨node, -, h⟩ | ⟨e, rfl, rfl⟩ := Disk.runs_textThere h
  swap
  · exact .inl ⟨⟨e, rfl⟩, rfl⟩
  obtain ⟨_, t₁, hwrite, h⟩ | ⟨e, rfl, hwrite⟩ := Disk.runs_bind h
  · obtain ⟨⟨_, hr⟩, -⟩ | ⟨-, written⟩ := Disk.runs_writeInside stands hname hwrite
    · cases hr
    · replace h := Disk.runs_note_bind h
      obtain ⟨rfl, rfl⟩ := Disk.runs_pure h
      exact .inr ⟨⟨_, rfl⟩, .one written⟩
  · obtain ⟨-, hsame⟩ | ⟨⟨_, hr⟩, -⟩ := Disk.runs_writeInside stands hname hwrite
    · exact .inl ⟨⟨e, rfl⟩, hsame⟩
    · cases hr

/-- The files are written in order, up to the first that is refused. -/
theorem runs_writeSources {files : List SourceFile}
    {r : Except DiskError (List String × List String)} (stands : t.Stands out)
    (named : ∀ f ∈ files, Path.IsName f.path)
    (distinct : (files.map (·.path)).Nodup) (h : Runs (writeSources out files) t r t') :
    ∃ done, done <+: files ∧ Deposited out.place done t t' ∧ ∀ lists, r = .ok lists → done = files := by
  induction files generalizing t r with
  | nil =>
      obtain ⟨-, rfl⟩ := Disk.runs_pure h
      exact ⟨[], List.prefix_rfl, .nil rfl, fun _ _ => rfl⟩
  | cons f rest ih =>
      obtain ⟨hname, hnames⟩ := List.forall_mem_cons.mp named
      obtain ⟨hfresh, hdistinct⟩ := List.nodup_cons.mp distinct
      obtain ⟨_, t₁, hwrite, hrest⟩ | ⟨e, rfl, hwrite⟩ := Disk.runs_bind h
      swap
      · obtain ⟨-, hsame⟩ | ⟨⟨_, hr⟩, -⟩ := runs_writeSource stands hname hwrite
        · exact ⟨[], List.nil_prefix, .nil hsame, nofun⟩
        · cases hr
      obtain ⟨⟨_, hr⟩, -⟩ | ⟨-, first⟩ := runs_writeSource stands hname hwrite
      · cases hr
      have hjoin {done : List SourceFile} (hdone : done <+: rest)
          (h : Deposited out.place done t₁ t') : Deposited out.place (f :: done) t t' := by
        refine first.append h (List.forall_mem_singleton.mpr fun g hg hsame => hfresh ?_)
        exact List.mem_map.mpr ⟨g, hdone.subset hg, hsame.symm⟩
      have stands' := first.covers.stands stands
      obtain ⟨lists, t₂, hloop, hend⟩ | ⟨e, rfl, hloop⟩ := Disk.runs_bind hrest
      · obtain ⟨-, rfl⟩ := Disk.runs_pure hend
        obtain ⟨done, hdone, deposited, hall⟩ := ih stands' hnames hdistinct hloop
        obtain rfl := hall lists rfl
        exact ⟨f :: done, List.prefix_rfl, hjoin hdone deposited, fun _ _ => rfl⟩
      · obtain ⟨done, hdone, deposited, -⟩ := ih stands' hnames hdistinct hloop
        exact ⟨f :: done, List.cons_prefix_cons.mpr ⟨rfl, hdone⟩, hjoin hdone deposited, nofun⟩

/-- The modules of a directory that was made sure of have names that lead to them. -/
theorem isName_module {t₁ : Tree} (named : t.Named) (parts : ∀ part ∈ out.parts, '/' ∉ part.toList)
    (grown : Tree.Grown out t t₁) {name : String} (hname : name ∈ t₁.names out.place)
    (source : Text.endsWith name ".py" = true) : Path.IsName name := by
  refine isName_of_source ?_ source
  rcases grown.places _ (Tree.mem_names_iff.mp hname) with hmem | ⟨n, hover⟩
  · exact (named _ hmem name (by simp)).1
  · have hplace : name ∈ Path.place ⟨out.absolute, out.parts.take n⟩ := by
      rw [← hover]
      simp
    obtain hpart | rfl | rfl := Path.mem_place hplace
    · exact parts name (List.mem_of_mem_take hpart)
    · decide
    · exact absurd source (by decide)

/-- Cleaning removes all stale modules, if it is asked for and not refused, and nothing else. -/
theorem runs_cleanPlain {c : Config} {r : Except DiskError (List String)} (stands : t.Stands out)
    (plain : ∀ name ∈ t.names out.place, Text.endsWith name ".py" = true → Path.IsName name)
    (clear : ∀ name, t.isFile (out.place ++ [name]) = true → '\x00' ∉ name.toList)
    (h : Runs (clean c out keep) t r t') :
    ∃ gone, t' = t.without (gone.map (out.place ++ [·])) ∧
      (∀ name ∈ gone, c.clean = true ∧ Stale t out.place keep name) ∧
      ∀ removed, r = .ok removed → removed = gone ∧
        (c.clean = true → ∀ name, Stale t out.place keep name → name ∈ gone) := by
  unfold clean at h
  split at h
  · next hclean =>
      unfold moduleNames at h
      rw [bind_assoc] at h
      obtain ⟨d, rfl, h⟩ := Disk.runs_get h
      obtain ⟨gone, swept⟩ := runs_removeStale stands
        (fun name hname => plain name (List.mem_filter.mp hname).1 (List.mem_filter.mp hname).2)
        (fun name _ => clear name) h
      refine ⟨gone, swept.tree, fun name hname => ?_, fun removed hr => ⟨swept.told removed hr, ?_⟩⟩
      · obtain ⟨hmem, hkeep, hemitted⟩ := swept.stale name hname
        exact ⟨hclean, (List.mem_filter.mp hmem).2, hkeep, hemitted⟩
      · intro _ name hstale
        have hmem : name ∈ (d.tree.names out.place).filter (Text.endsWith · ".py") :=
          List.mem_filter.mpr ⟨Tree.mem_names hstale.emitted.isFile, hstale.source⟩
        exact swept.all ⟨removed, hr⟩ name hmem hstale.unlisted hstale.emitted
  · next hclean =>
      obtain ⟨rfl, rfl⟩ := Disk.runs_pure h
      exact ⟨[], by simp, by simp, fun removed hr =>
        ⟨(Except.ok.inj hr).symm, fun hc => absurd hc hclean⟩⟩

theorem runs_clean {c : Config} {t₁ : Tree} {r : Except DiskError (List String)} (named : t.Named)
    (parts : ∀ part ∈ out.parts, '/' ∉ part.toList) (grown : Tree.Grown out t t₁)
    (stands : t₁.Stands out) (h : Runs (clean c out keep) t₁ r t') :
    ∃ gone, t' = t₁.without (gone.map (out.place ++ [·])) ∧
      (∀ name ∈ gone, c.clean = true ∧ Stale t₁ out.place keep name) ∧
      ∀ removed, r = .ok removed → removed = gone ∧
        (c.clean = true → ∀ name, Stale t₁ out.place keep name → name ∈ gone) := by
  have hclear (name : String) (hfile : t₁.isFile (out.place ++ [name]) = true) :
      '\x00' ∉ name.toList := by
    obtain ⟨b, hb⟩ := Tree.isFile_iff.mp hfile
    exact named.file (Tree.isFile_iff.mpr ⟨b, grown.file_iff.mp hb⟩)
  exact runs_cleanPlain stands (fun name => isName_module named parts grown) hclear h

/-- The file of the manifest, if one is asked for. -/
def manifestFiles (c : Config) (m : Manifest) : List SourceFile :=
  if c.manifest then [⟨manifestName, m.text, none⟩] else []

def packaged (c : Config) (files : List SourceFile) (tables : List String) : List SourceFile :=
  files ++ manifestFiles c (Manifest.of c files tables)

theorem path_manifestFiles {c : Config} {m : Manifest} {f : SourceFile} (h : f ∈ manifestFiles c m) :
    f.path = manifestName := by
  unfold manifestFiles at h
  split at h
  · rw [List.mem_singleton.mp h]
  · cases h

theorem isName_manifest : Path.IsName manifestName :=
  ⟨by decide, by decide, by decide, by decide⟩

theorem runs_writeManifest {c : Config} {m : Manifest} {e : Exported} {r : Except DiskError Exported}
    (stands : t.Stands out)
    (h : Runs (if c.manifest then do
      let _ ← Disk.writeFile (out.child manifestName) m.text
      pure e else pure e) t r t') :
    ∃ done, done <+: manifestFiles c m ∧ Deposited out.place done t t' ∧
      ∀ e', r = .ok e' → done = manifestFiles c m ∧ e' = e := by
  unfold manifestFiles
  split at h
  · next hmanifest =>
      rw [if_pos hmanifest]
      obtain ⟨_, t₁, hwrite, hend⟩ | ⟨_, rfl, hwrite⟩ := Disk.runs_bind h
      · obtain ⟨⟨_, hr⟩, -⟩ | ⟨-, written⟩ := Disk.runs_writeInside stands isName_manifest hwrite
        · cases hr
        · obtain ⟨rfl, rfl⟩ := Disk.runs_pure hend
          exact ⟨_, List.prefix_rfl, .one (f := ⟨manifestName, m.text, none⟩) written,
            fun _ he => ⟨rfl, (Except.ok.inj he).symm⟩⟩
      · obtain ⟨-, hsame⟩ | ⟨⟨_, hr⟩, -⟩ := Disk.runs_writeInside stands isName_manifest hwrite
        · exact ⟨[], List.nil_prefix, .nil hsame, nofun⟩
        · cases hr
  · next hmanifest =>
      rw [if_neg hmanifest]
      obtain ⟨rfl, rfl⟩ := Disk.runs_pure h
      exact ⟨[], List.prefix_rfl, .nil rfl, fun _ he => ⟨rfl, (Except.ok.inj he).symm⟩⟩

/-- What an export has done when it ends: directories were made on the way, some stale modules were
removed, and then the first files were written. -/
structure Course (c : Config) (out : Path) (files : List SourceFile) (tables : List String)
    (t t₁ t' : Tree) (gone : List String) (done : List SourceFile) : Prop where
  grown : Tree.Grown out t t₁
  stale : ∀ name ∈ gone, c.clean = true ∧ Stale t₁ out.place (files.map (·.path)) name
  begun : done <+: packaged c files tables
  deposited : Deposited out.place done (t₁.without (gone.map (out.place ++ [·]))) t'

/-- The export has done all that there was to do. -/
structure Finished (c : Config) (out : Path) (files : List SourceFile) (tables : List String)
    (t₁ : Tree) (gone : List String) (done : List SourceFile) (e : Exported) : Prop where
  done : done = packaged c files tables
  stale : c.clean = true → ∀ name, Stale t₁ out.place (files.map (·.path)) name → name ∈ gone
  removed : e.removed = gone
  manifest : e.manifest = Manifest.of c files tables

theorem runs_writePackage {c : Config} {files : List SourceFile} {tables : List String}
    {r : Except DiskError Exported} (named : t.Named) (parts : ∀ part ∈ out.parts, '/' ∉ part.toList)
    (sources : ∀ f ∈ files, '/' ∉ f.path.toList ∧ Text.endsWith f.path ".py" = true)
    (distinct : (files.map (·.path)).Nodup) (h : Runs (writePackage c out files tables) t r t') :
    ∃ t₁ gone done, Course c out files tables t t₁ t' gone done ∧
      ∀ e, r = .ok e → Finished c out files tables t₁ gone done e := by
  have hnames : ∀ f ∈ files, Path.IsName f.path :=
    fun f hf => isName_of_source (sources f hf).1 (sources f hf).2
  obtain ⟨_, t₁, hensure, h⟩ | ⟨e, rfl, hensure⟩ := Disk.runs_bind h
  swap
  · have grown := (Disk.runs_ensureDirectory hensure).grown
    exact ⟨t', [], [], ⟨grown, by simp, List.nil_prefix, .nil (by simp)⟩, nofun⟩
  obtain ⟨grown, hstands⟩ := Disk.runs_ensureDirectory hensure
  have stands := hstands rfl
  refine ⟨t₁, ?_⟩
  obtain ⟨removed, t₂, hclean, h⟩ | ⟨e, rfl, hclean⟩ := Disk.runs_bind h
  swap
  · obtain ⟨gone, rfl, hgone, -⟩ := runs_clean named parts grown stands hclean
    exact ⟨gone, [], ⟨grown, hgone, List.nil_prefix, .nil rfl⟩, nofun⟩
  obtain ⟨gone, rfl, hgone, hall⟩ := runs_clean named parts grown stands hclean
  obtain ⟨rfl, hstale⟩ := hall removed rfl
  refine ⟨removed, ?_⟩
  have hfiles : ∀ p ∈ removed.map (out.place ++ [·]), t₁.isFile p = true :=
    List.forall_mem_map.mpr fun name hname => (hgone name hname).2.emitted.isFile
  have stands' := (Tree.covers_without hfiles).stands stands
  obtain ⟨⟨changed, unchanged⟩, t₂, hwrite, h⟩ | ⟨e, rfl, hwrite⟩ := Disk.runs_bind h
  swap
  · obtain ⟨done, hdone, deposited, -⟩ := runs_writeSources stands' hnames distinct hwrite
    exact ⟨done, ⟨grown, hgone, hdone.trans (List.prefix_append ..), deposited⟩, nofun⟩
  obtain ⟨done, -, deposited, hwritten⟩ := runs_writeSources stands' hnames distinct hwrite
  obtain rfl := (hwritten _ rfl).symm
  obtain ⟨more, hmore, deposited', hend⟩ :=
    runs_writeManifest (deposited.covers.stands stands') h
  -- No module has the name of the manifest.
  have hapart : ∀ f ∈ files, ∀ g ∈ more, f.path ≠ g.path := by
    intro f hf g hg hsame
    have hsource := (sources f hf).2
    rw [hsame, path_manifestFiles (hmore.subset hg)] at hsource
    exact absurd hsource (by decide)
  refine ⟨files ++ more, ⟨grown, hgone, (List.prefix_append_right_inj _).mpr hmore,
    deposited.append deposited' hapart⟩, fun e he => ?_⟩
  obtain ⟨rfl, rfl⟩ := hend e he
  exact ⟨rfl, hstale, rfl, rfl⟩

theorem runs_withTimer {α : Type} {label : String} {w : Work α} {r : Except DiskError α}
    (h : Runs (withTimer label w) t r t') : Runs w t r t' := by
  unfold withTimer withTimer.observing at h
  rw [map_eq_pure_bind] at h
  obtain ⟨result, t₁, hobserved, hend⟩ | ⟨e, rfl, hobserved⟩ := Disk.runs_bind h
  · replace hend := Disk.runs_note_bind hend
    obtain ⟨_, hresult, hkept⟩ | ⟨e, t₂, hkept, hrecover⟩ := Disk.runs_tryCatch hobserved
    · obtain ⟨r', hwork, hr'⟩ := Disk.runs_bind_pure hkept
      cases r' with
      | error e => cases hr'
      | ok a =>
          cases hr'
          cases hresult
          obtain ⟨rfl, rfl⟩ := Disk.runs_pure hend
          exact hwork
    · obtain ⟨r', hwork, hr'⟩ := Disk.runs_bind_pure hkept
      obtain ⟨hresult, rfl⟩ := Disk.runs_pure hrecover
      cases r' with
      | ok a => cases hr'
      | error e' =>
          cases hr'
          cases hresult
          obtain ⟨rfl, rfl⟩ := Disk.runs_throw hend
          exact hwork
  · obtain ⟨_, h, -⟩ | ⟨_, _, -, hrecover⟩ := Disk.runs_tryCatch hobserved
    · cases h
    · cases (Disk.runs_pure hrecover).1

theorem runs_exportFiles {c : Config} {files : List SourceFile} {tables : List String}
    {r : Except DiskError Exported} (h : Runs (exportFiles c out files tables) t r t') :
    Runs (writePackage c out files tables) t r t' := by
  obtain ⟨e, t₁, hexport, hend⟩ | ⟨e, rfl, hexport⟩ := Disk.runs_bind h
  · replace hend := Disk.runs_note_bind hend
    obtain ⟨rfl, rfl⟩ := Disk.runs_pure hend
    exact runs_withTimer hexport
  · exact runs_withTimer hexport

theorem stale_grown {t₁ : Tree} (grown : Tree.Grown out t t₁) {name : String} :
    Stale t₁ out.place keep name ↔ Stale t out.place keep name := by
  have hemitted : HoldsEmitted t₁ out.place name ↔ HoldsEmitted t out.place name := by
    simp only [HoldsEmitted, grown.file_iff]
  exact ⟨fun h => ⟨h.source, h.unlisted, hemitted.mp h.emitted⟩,
    fun h => ⟨h.source, h.unlisted, hemitted.mpr h.emitted⟩⟩

namespace Course

variable {c : Config} {files : List SourceFile} {tables : List String} {t₁ : Tree} {gone : List String}
  {done : List SourceFile}

/-- What is neither removed nor written stays, but for directories made on the way. -/
theorem others (course : Course c out files tables t t₁ t' gone done) {q : Place}
    (hgone : ∀ name ∈ gone, q ≠ out.place ++ [name]) (hdone : ∀ f ∈ done, q ≠ out.place ++ [f.path]) :
    t'.find? q = t.find? q ∨ out.Over q ∧ t.find? q = none ∧ t'.find? q = some .directory := by
  have hstays : q ∉ gone.map (out.place ++ [·]) := by
    rw [List.mem_map]
    rintro ⟨name, hname, rfl⟩
    exact hgone name hname rfl
  rw [course.deposited.rest q hdone, Tree.find?_without hstays]
  exact course.grown.nodes q

/-- What is removed is not written again. -/
theorem removed (course : Course c out files tables t t₁ t' gone done) {name : String}
    (h : name ∈ gone) : t'.find? (out.place ++ [name]) = none := by
  obtain ⟨-, hstale⟩ := course.stale name h
  obtain ⟨b, hb⟩ := Tree.isFile_iff.mp hstale.emitted.isFile
  have hgone : out.place ++ [name] ∈ gone.map (out.place ++ [·]) := List.mem_map_of_mem h
  rw [course.deposited.rest]
  · exact Tree.find?_without_self hgone (Tree.isGiven_eq_false (t := t₁) (by simp [hb]))
  · intro f hf hsame
    obtain rfl : name = f.path := by simpa using hsame
    rcases List.mem_append.mp (course.begun.subset hf) with hf | hf
    · exact hstale.unlisted (List.mem_map_of_mem hf)
    · have hsource := hstale.source
      rw [path_manifestFiles hf] at hsource
      exact absurd hsource (by decide)

/-- Only stale modules are lost, also by an export that is refused. -/
theorem lost (course : Course c out files tables t t₁ t' gone done) {q : Place}
    (before : t.isFile q = true) (after : t'.isFile q = false) :
    c.clean = true ∧
      ∃ name, q = out.place ++ [name] ∧ Stale t out.place (files.map (·.path)) name := by
  by_contra hnot
  have hgone : ∀ name ∈ gone, q ≠ out.place ++ [name] := by
    rintro name hname rfl
    obtain ⟨hclean, hstale⟩ := course.stale name hname
    exact hnot ⟨hclean, name, rfl, (stale_grown course.grown).mp hstale⟩
  have hdone : ∀ f ∈ done, q ≠ out.place ++ [f.path] := by
    rintro f hf rfl
    have hfile := Tree.isFile_iff.mpr ⟨_, course.deposited.held f hf⟩
    simp [hfile] at after
  obtain ⟨b, hb⟩ := Tree.isFile_iff.mp before
  rcases course.others hgone hdone with hsame | ⟨-, hnone, -⟩
  · rw [hb] at hsame
    have hfile := Tree.isFile_iff.mpr ⟨b, hsame⟩
    simp [hfile] at after
  · rw [hb] at hnone
    cases hnone

end Course

end

end TableLoom.Generation
