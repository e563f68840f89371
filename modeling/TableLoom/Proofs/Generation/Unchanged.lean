import TableLoom.Proofs.Generation.Interruption
import TableLoom.Proofs.Storage.Sound

/-!
What an export tells of the files that were there before. It compares texts as they are read, with all line
ends in one form, but writes bytes.
-/

namespace TableLoom.Generation

open Storage (Disk DiskError Path Place Tree Work textOf?)
open Storage.Disk (Runs)

/-- The path of a file leads down from the directory that it is written to. -/
def SourceFile.IsInner (f : SourceFile) : Prop :=
  ∃ names, Path.Descends f.path names

/-- The text of a file is read where it is going to be written. -/
def SourceFile.isFound (out : Path) (t : Tree) (f : SourceFile) : Bool :=
  (t.content? (f.place out)).bind textOf? == some f.content

/-- Each path is told in one of two lists, in the order of the files. -/
structure Told (out : Path) (files : List SourceFile) (t : Tree) (changed unchanged : List String) :
    Prop where
  changed : changed = (files.filter (!·.isFound out t)).map (·.path)
  unchanged : unchanged = (files.filter (·.isFound out t)).map (·.path)

section

variable {c : Config} {out : Path} {files : List SourceFile} {tables : List String} {f g : SourceFile}
  {t t' : Tree} {changed unchanged : List String} {e : Exported}

theorem SourceFile.IsInner.apart (hf : f.IsInner) (hg : g.IsInner) (h : f.path ≠ g.path) :
    f.place out ≠ g.place out := by
  obtain ⟨_, hf⟩ := hf
  obtain ⟨_, hg⟩ := hg
  exact fun same => h (hf.injective hg out same)

theorem isInner_manifest {m : Manifest} (h : f ∈ manifestFiles c m) : f.IsInner :=
  ⟨_, path_manifestFiles h ▸ isName_manifest.descends⟩

theorem isFound_congr (same : t'.content? (f.place out) = t.content? (f.place out)) :
    f.isFound out t' = f.isFound out t := by
  rw [SourceFile.isFound, SourceFile.isFound, same]

theorem Told.congr (h : Told out files t' changed unchanged)
    (same : ∀ f ∈ files, t'.content? (f.place out) = t.content? (f.place out)) :
    Told out files t changed unchanged where
  changed := by
    rw [h.changed, List.filter_congr fun f hf => congrArg (! ·) (isFound_congr (same f hf))]
  unchanged := by
    rw [h.unchanged, List.filter_congr fun f hf => isFound_congr (same f hf)]

theorem Told.cons (h : Told out files t changed unchanged) (f : SourceFile) :
    Told out (f :: files) t (if f.isFound out t then changed else f.path :: changed)
      (if f.isFound out t then f.path :: unchanged else unchanged) := by
  constructor
  · rw [h.changed, List.filter_cons]
    cases f.isFound out t <;> rfl
  · rw [h.unchanged, List.filter_cons]
    cases f.isFound out t <;> rfl

theorem isName_of_sound {name : String} (sound : t.Sound) (hname : name ∈ t.names out.place)
    (source : Text.endsWith name ".py" = true) : Path.IsName name := by
  have hgiven : Storage.isGiven (out.place ++ [name]) = false := by
    have hroot : name ≠ "/" := by
      rintro rfl
      exact absurd source (by decide)
    have hback : name ≠ ".." := by
      rintro rfl
      exact absurd source (by decide)
    simp [Storage.isGiven, hroot, hback, List.append_eq_singleton_iff]
  have hplace := (Tree.mem_places_iff hgiven).mp (Tree.mem_names_iff.mp hname)
  exact isName_of_source (sound.named _ name hgiven hplace).1 source

section

variable (slashless : ∀ part ∈ out.parts, '/' ∉ part.toList)

include slashless

/-- A file is told to be new exactly if its text is not found. -/
theorem told_writeSource {isNew : Bool} (stands : t.Stands out) (sound : t.Sound) (inner : f.IsInner)
    (h : Runs (writeSource out f) t (.ok isNew) t') :
    isNew = !f.isFound out t ∧ t'.Stands out ∧ t'.Sound := by
  obtain ⟨names, down⟩ := inner
  obtain ⟨node, hlook, hwork⟩ | ⟨_, hr, -⟩ := Disk.runs_textThere h
  swap
  · cases hr
  obtain ⟨_, t₁, hwrite, hend⟩ | ⟨_, hr, -⟩ := Disk.runs_bind hwork
  swap
  · cases hr
  obtain ⟨hsound, hstands⟩ := Disk.sound_writeFile stands sound slashless down hwrite
  replace hend := Disk.runs_note_bind hend
  obtain ⟨hnew, rfl⟩ := Disk.runs_pure hend
  refine ⟨?_, hstands, hsound⟩
  rw [Except.ok.inj hnew, SourceFile.isFound, SourceFile.place, down.place_child,
    Disk.text_shown (stands.look_descends sound down hlook)]
  rfl

/-- Files written one after another are told by what was there before all of them. -/
theorem told_writeSources (stands : t.Stands out) (sound : t.Sound) (inner : ∀ f ∈ files, f.IsInner)
    (distinct : (files.map (·.path)).Nodup)
    (h : Runs (writeSources out files) t (.ok (changed, unchanged)) t') :
    Told out files t changed unchanged ∧ t'.Stands out ∧ t'.Sound := by
  induction files generalizing t changed unchanged with
  | nil =>
      obtain ⟨hlists, rfl⟩ := Disk.runs_pure h
      cases hlists
      exact ⟨⟨rfl, rfl⟩, stands, sound⟩
  | cons f rest ih =>
      obtain ⟨hinner, hinners⟩ := List.forall_mem_cons.mp inner
      obtain ⟨hfresh, hdistinct⟩ := List.nodup_cons.mp distinct
      obtain ⟨isNew, t₁, hwrite, hrest⟩ | ⟨_, hr, -⟩ := Disk.runs_bind h
      swap
      · cases hr
      obtain ⟨rfl, hstands, hsound⟩ := told_writeSource slashless stands sound hinner hwrite
      obtain ⟨⟨changed', unchanged'⟩, t₂, hloop, hend⟩ | ⟨_, hr, -⟩ := Disk.runs_bind hrest
      swap
      · cases hr
      obtain ⟨hlists, rfl⟩ := Disk.runs_pure hend
      obtain ⟨told, hstands', hsound'⟩ := ih hstands hsound hinners hdistinct hloop
      -- What is written first is no other file's.
      have hsame : ∀ g ∈ rest, t₁.content? (g.place out) = t.content? (g.place out) := by
        intro g hg
        obtain ⟨_, hr, -⟩ | ⟨-, hfirst⟩ := advanced_writeSource hwrite
        · cases hr
        rw [hfirst, overlaid_apart]
        refine List.forall_mem_singleton.mpr (hinner.apart (hinners g hg) fun hpath => hfresh ?_)
        exact List.mem_map.mpr ⟨g, hg, hpath.symm⟩
      have hall := (told.congr hsame).cons f
      refine ⟨?_, hstands', hsound'⟩
      cases hfound : f.isFound out t
      all_goals
        rw [hfound] at hlists hall
        cases hlists
        exact hall

/-- The manifest is written last, over a file that it shares its name with. -/
theorem sound_writeManifest {m : Manifest} {x : Exported} (stands : t.Stands out) (sound : t.Sound)
    (h : Runs (if c.manifest then do
      let _ ← Disk.writeFile (out.child manifestName) m.text
      pure x else pure x) t (.ok e) t') :
    e = x ∧ t'.Sound ∧ t'.content? = overlaid out (manifestFiles c m) t.content? := by
  have hcontents : t'.content? = overlaid out (manifestFiles c m) t.content? := by
    obtain ⟨done, later, hadvanced⟩ := advanced_writeManifest h
    obtain rfl := hadvanced.finished _ rfl
    rw [hadvanced.contents, hadvanced.split, List.append_nil]
  split at h
  · obtain ⟨_, t₁, hwrite, hend⟩ | ⟨_, hr, -⟩ := Disk.runs_bind h
    swap
    · cases hr
    obtain ⟨hx, rfl⟩ := Disk.runs_pure hend
    have hsound := Disk.sound_writeFile stands sound slashless isName_manifest.descends hwrite
    exact ⟨Except.ok.inj hx, hsound.1, hcontents⟩
  · obtain ⟨hx, rfl⟩ := Disk.runs_pure h
    exact ⟨Except.ok.inj hx, sound, hcontents⟩

/-- What an export tells, and what it leaves. -/
structure Outcome (c : Config) (out : Path) (files : List SourceFile) (t t' : Tree) (e : Exported) :
    Prop where
  told : Told out files t e.changed e.unchanged
  sound : t'.Sound
  left : ∀ f ∈ files, (c.manifest = true → f.path ≠ manifestName) →
    t'.content? (f.place out) = some f.content.toUTF8

theorem outcome_writePackage (sound : t.Sound) (inner : ∀ f ∈ files, f.IsInner)
    (distinct : (files.map (·.path)).Nodup) (h : Runs (writePackage c out files tables) t (.ok e) t') :
    Outcome c out files t t' e := by
  obtain ⟨_, t₁, hensure, h⟩ | ⟨_, hr, -⟩ := Disk.runs_bind h
  swap
  · cases hr
  obtain ⟨grown, hstands⟩ := Disk.runs_ensureDirectory hensure
  have stands := hstands rfl
  have sound₁ := sound.grown grown stands slashless
  obtain ⟨removed, t₂, hclean, h⟩ | ⟨_, hr, -⟩ := Disk.runs_bind h
  swap
  · cases hr
  obtain ⟨gone, rfl, hgone, -⟩ := runs_cleanPlain stands (fun _ => isName_of_sound sound₁)
    (fun _ => sound₁.nul_notMem) hclean
  have hfiles : ∀ p ∈ gone.map (out.place ++ [·]), t₁.isFile p = true :=
    List.forall_mem_map.mpr fun name hname => (hgone name hname).2.emitted.isFile
  -- No file of the list is cleaned away.
  have hsame : ∀ f ∈ files, (t₁.without (gone.map (out.place ++ [·]))).content? (f.place out) =
      t.content? (f.place out) := by
    intro f hf
    rw [Tree.content?_without, if_neg, grown.content?]
    rw [List.mem_map]
    rintro ⟨name, hname, hplace⟩
    obtain ⟨names, down⟩ := inner f hf
    obtain rfl : [name] = names := by
      rwa [SourceFile.place, down.place_child, List.append_cancel_left_eq] at hplace
    have hpath : f.path = name := down.joined.trans String.intercalate_singleton
    exact (hgone name hname).2.unlisted (hpath ▸ List.mem_map_of_mem hf)
  obtain ⟨⟨changed, unchanged⟩, t₃, hwrite, h⟩ | ⟨_, hr, -⟩ := Disk.runs_bind h
  swap
  · cases hr
  have hwritten : t₃.content? =
      overlaid out files (t₁.without (gone.map (out.place ++ [·]))).content? := by
    obtain ⟨done, later, hadvanced⟩ := advanced_writeSources hwrite
    obtain rfl := hadvanced.finished _ rfl
    rw [hadvanced.contents, hadvanced.split, List.append_nil]
  obtain ⟨told, hstands', hsound'⟩ := told_writeSources slashless
    ((Tree.covers_without hfiles).stands stands) (sound₁.without hfiles) inner distinct hwrite
  obtain ⟨rfl, hsound, hleft⟩ := sound_writeManifest slashless hstands' hsound' h
  refine ⟨told.congr hsame, hsound, fun f hf hmanifest => ?_⟩
  obtain ⟨before, after, rfl⟩ := List.append_of_mem hf
  rw [hleft, hwritten, ← overlaid_append, List.append_assoc, List.cons_append]
  refine overlaid_last (List.forall_mem_append.mpr ⟨fun g hg => ?_, fun g hg => ?_⟩)
  · refine (inner g (by simp [hg])).apart (inner f hf) fun hpath => ?_
    rw [List.map_append, List.map_cons] at distinct
    exact (List.nodup_cons.mp distinct.of_append_right).1 (hpath ▸ List.mem_map_of_mem hg)
  · refine (isInner_manifest hg).apart (inner f hf) fun hpath => ?_
    have hasked : c.manifest = true := by
      by_contra hnot
      rw [manifestFiles, if_neg hnot] at hg
      cases hg
    exact hmanifest hasked (hpath ▸ path_manifestFiles hg)

end

/-- What an export tells of a file is right byte by byte, but for bytes that hold a carriage return. -/
structure Judged (out : Path) (t : Tree) (changed unchanged : List String) (f : SourceFile) : Prop where
  once : f.path ∈ changed ↔ f.path ∉ unchanged
  absent : t.content? (f.place out) = none → f.path ∈ changed
  exact_ : ∀ b, t.content? (f.place out) = some b → 13 ∉ b.toList →
    (f.path ∈ unchanged ↔ b = f.content.toUTF8)
  blurred : ∀ b, t.content? (f.place out) = some b → 13 ∈ b.toList →
    (f.path ∈ unchanged ↔ textOf? b = some f.content) ∧
      (f.path ∈ unchanged → b ≠ f.content.toUTF8)

namespace Told

variable (told : Told out files t changed unchanged) (distinct : (files.map (·.path)).Nodup)

include told distinct

theorem mem_unchanged (hf : f ∈ files) : f.path ∈ unchanged ↔ f.isFound out t = true := by
  rw [told.unchanged, List.mem_map]
  constructor
  · rintro ⟨g, hg, hpath⟩
    obtain ⟨hg, hfound⟩ := List.mem_filter.mp hg
    rwa [← List.inj_on_of_nodup_map distinct hg hf hpath]
  · intro hfound
    exact ⟨f, List.mem_filter.mpr ⟨hf, hfound⟩, rfl⟩

theorem mem_changed (hf : f ∈ files) : f.path ∈ changed ↔ f.isFound out t = false := by
  rw [told.changed, List.mem_map]
  constructor
  · rintro ⟨g, hg, hpath⟩
    obtain ⟨hg, hfound⟩ := List.mem_filter.mp hg
    rw [← List.inj_on_of_nodup_map distinct hg hf hpath]
    simpa using hfound
  · intro hfound
    exact ⟨f, List.mem_filter.mpr ⟨hf, by simp [hfound]⟩, rfl⟩

theorem judged (hf : f ∈ files) : Judged out t changed unchanged f := by
  have hheld {b : ByteArray} (hb : t.content? (f.place out) = some b) :
      f.path ∈ unchanged ↔ textOf? b = some f.content := by
    rw [told.mem_unchanged distinct hf, SourceFile.isFound, hb, Option.bind_some, beq_iff_eq]
  constructor
  · rw [told.mem_unchanged distinct hf, told.mem_changed distinct hf, Bool.not_eq_true]
  · intro hnone
    rw [told.mem_changed distinct hf, SourceFile.isFound, hnone]
    rfl
  · intro b hb hclear
    rw [hheld hb, Storage.textOf?_of_notMem hclear]
  · intro b hb hreturn
    refine ⟨hheld hb, fun hunchanged hsame => ?_⟩
    rw [hsame] at hreturn
    exact Storage.return_notMem_of_textOf? ((hheld hb).mp hunchanged)
      ((Text.mem_toUTF8_iff (d := '\r') (by decide) f.content).mp hreturn)

end Told

end

/-- An export tells a file to be unchanged if the text read from it before is the one to write. So it is
right on bytes without carriage returns, wrong on others that are read as that text, and when it is done
again, it finds exactly the files unchanged whose texts hold no carriage return. -/
theorem unchanged_up_to_line_ends (c : Config) (directory : String) {files : List SourceFile}
    {tables : List String} {d d' : Disk} {e : Exported} (sound : d.tree.Sound)
    (inner : ∀ f ∈ files, f.IsInner) (distinct : (files.map (·.path)).Nodup)
    (ran : (exportFiles c (Path.ofText directory) files tables).run.run d = (.ok e, d')) :
    let out := Path.ofText directory
    Told out files d.tree e.changed e.unchanged ∧
    (∀ f ∈ files, Judged out d.tree e.changed e.unchanged f) ∧
    ∀ (c₂ : Config) (tables₂ : List String) (again d₂ : Disk) (e₂ : Exported), again.tree = d'.tree →
      (exportFiles c₂ out files tables₂).run.run again = (.ok e₂, d₂) →
      ∀ f ∈ files, (c.manifest = true → f.path ≠ manifestName) →
        (f.path ∈ e₂.unchanged ↔ '\r' ∉ f.content.toList) ∧
          (f.path ∈ e₂.changed ↔ '\r' ∈ f.content.toList) := by
  intro out
  have slashless := Path.slash_notMem_ofText directory
  have first := outcome_writePackage slashless sound inner distinct
    (runs_exportFiles ⟨d, d', ran, rfl, rfl⟩)
  refine ⟨first.told, fun f hf => first.told.judged distinct hf, ?_⟩
  intro c₂ tables₂ again d₂ e₂ hagain ran₂ f hf hmanifest
  have second := outcome_writePackage slashless (hagain ▸ first.sound) inner distinct
    (runs_exportFiles ⟨again, d₂, ran₂, rfl, rfl⟩)
  have hfound : f.isFound out again.tree = true ↔ '\r' ∉ f.content.toList := by
    rw [SourceFile.isFound, hagain, first.left f hf hmanifest, Option.bind_some, beq_iff_eq,
      Storage.textOf?_toUTF8_iff]
  refine ⟨(second.told.mem_unchanged distinct hf).trans hfound, ?_⟩
  rw [second.told.mem_changed distinct hf, ← Bool.not_eq_true, hfound, not_not]

/-- A directory with one module whose lines end in a line feed, and one whose lines do not. -/
def mixedEnds : Disk where
  tree := { nodes := [(["pkg"], .directory), (["pkg", "a.py"], .file "A = 1\n".toUTF8),
    (["pkg", "b.py"], .file "B = 1\r\n".toUTF8)] }

theorem sound_mixedEnds : mixedEnds.tree.Sound := by
  refine .of_places ?_
  change ∀ p ∈ ([["pkg"], ["pkg", "a.py"], ["pkg", "b.py"]] : List Place), _
  decide

def mixedFiles : List SourceFile :=
  [⟨"a.py", "A = 1\n", none⟩, ⟨"b.py", "B = 1\n", none⟩, ⟨"c.py", "C = 1\r\n", none⟩]

theorem inner_mixedFiles : ∀ f ∈ mixedFiles, f.IsInner := by
  have hplain : ∀ f ∈ mixedFiles, '/' ∉ f.path.toList ∧ f.path ≠ "" ∧ f.path ≠ "." ∧ f.path ≠ ".." := by
    decide
  intro f hf
  obtain ⟨slash, nonempty, here, back⟩ := hplain f hf
  exact ⟨_, Path.IsName.descends ⟨slash, nonempty, here, back⟩⟩

def exportMixed : Work Exported :=
  exportFiles { manifest := false } (Path.ofText "pkg") mixedFiles []

/-- The files are exported, and then once more. -/
theorem exported_twice : ∃ e d' e₂ d₂, exportMixed.run.run mixedEnds = (.ok e, d') ∧
    exportMixed.run.run d' = (.ok e₂, d₂) ∧
      (e.unchanged = ["a.py", "b.py"] ∧ e.changed = ["c.py"]) ∧
        (e₂.unchanged = ["a.py", "b.py"] ∧ e₂.changed = ["c.py"]) := by
  let asTold (e : Exported) : Bool := e.unchanged == ["a.py", "b.py"] && e.changed == ["c.py"]
  have htold {e : Exported} (h : asTold e = true) :
      e.unchanged = ["a.py", "b.py"] ∧ e.changed = ["c.py"] := by
    simpa [asTold] using h
  obtain ⟨e, d', hrun, hfirst⟩ : ∃ e d', exportMixed.run.run mixedEnds = (.ok e, d') ∧ asTold e = true :=
    Disk.exists_of_any (by decide +kernel)
  have hagain : ((exportMixed.run.run (exportMixed.run.run mixedEnds).2).1.toOption.any asTold) = true := by
    decide +kernel
  rw [hrun] at hagain
  obtain ⟨e₂, d₂, hrun₂, hsecond⟩ := Disk.exists_of_any hagain
  exact ⟨e, d', e₂, d₂, hrun, hrun₂, htold hfirst, htold hsecond⟩

theorem unchanged_up_to_line_ends_mixed : ∃ e d' e₂ d₂, exportMixed.run.run mixedEnds = (.ok e, d') ∧
    exportMixed.run.run d' = (.ok e₂, d₂) ∧
      (∀ f ∈ mixedFiles, Judged (Path.ofText "pkg") mixedEnds.tree e.changed e.unchanged f) ∧
        ∀ f ∈ mixedFiles, f.path ∈ e₂.unchanged ↔ '\r' ∉ f.content.toList := by
  obtain ⟨e, d', e₂, d₂, hrun, hrun₂, -⟩ := exported_twice
  obtain ⟨-, hjudged, hagain⟩ :=
    unchanged_up_to_line_ends { manifest := false } "pkg" sound_mixedEnds inner_mixedFiles (by decide) hrun
  exact ⟨e, d', e₂, d₂, hrun, hrun₂, hjudged, fun f hf =>
    (hagain _ [] d' d₂ e₂ rfl hrun₂ f hf nofun).1⟩

/-- One file is told to be unchanged though its bytes are others, and one to be changed though it was just
written. -/
theorem line_ends_mistold : ∃ e d' e₂ d₂, exportMixed.run.run mixedEnds = (.ok e, d') ∧
    exportMixed.run.run d' = (.ok e₂, d₂) ∧
      (mixedEnds.tree.content? ["pkg", "b.py"] = some "B = 1\r\n".toUTF8 ∧
        "B = 1\r\n".toUTF8 ≠ "B = 1\n".toUTF8 ∧ "b.py" ∈ e.unchanged) ∧ "c.py" ∈ e₂.changed := by
  obtain ⟨e, d', e₂, d₂, hrun, hrun₂, ⟨hunchanged, -⟩, -, hchanged⟩ := exported_twice
  refine ⟨e, d', e₂, d₂, hrun, hrun₂, ⟨rfl, by decide +kernel, ?_⟩, ?_⟩
  · simp [hunchanged]
  · simp [hchanged]

end TableLoom.Generation
