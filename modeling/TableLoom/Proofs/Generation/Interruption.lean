import TableLoom.Proofs.Generation.Cleaning

/-!
Exports that are refused on the way, at whichever step of whichever write. The files before it are whole
and all others hold what they held, but for stale modules that cleaning removed before the first write.
-/

namespace TableLoom

namespace Storage

namespace Tree

variable {t t' : Tree}

theorem content?_of_find? {q : Place} {b : ByteArray}
    (h : t'.find? = Function.update t.find? q (some (.file b))) :
    t'.content? = Function.update t.content? q (some b) := by
  funext p
  unfold content?
  rw [h]
  by_cases hp : p = q
  · subst hp
    simp
  · rw [Function.update_of_ne hp, Function.update_of_ne hp]

theorem content?_congr (h : t'.find? = t.find?) : t'.content? = t.content? := by
  funext p
  rw [content?, h, content?]

theorem Grown.content? {path : Path} (h : Grown path t t') : t'.content? = t.content? := by
  funext q
  refine Option.ext fun b => ?_
  rw [content?_eq_some, content?_eq_some, h.file_iff]

theorem content?_without (t : Tree) (gone : List Place) (q : Place) :
    (t.without gone).content? q = if q ∈ gone then none else t.content? q := by
  split
  · next hgone =>
      refine Option.eq_none_iff_forall_ne_some.mpr fun b hb => ?_
      exact (file_of_without (content?_eq_some.mp hb)).1 hgone
  · next hstays => rw [content?, find?_without hstays, content?]

end Tree

/-- A file is written in whole, or all files hold what they held. -/
theorem Disk.contents_writeFile {p : Path} {text : String} {t t' : Tree} {r : Except DiskError Nat}
    (h : Disk.Runs (writeFile p text) t r t') :
    (∃ e, r = .error e) ∧ t'.content? = t.content? ∨
      (∃ n, r = .ok n) ∧ t'.content? = Function.update t.content? p.place (some text.toUTF8) := by
  obtain ⟨t₁, grown, ⟨hr, hsame⟩ | ⟨hr, -, -, written⟩⟩ := runs_writeFile h
  · exact .inl ⟨hr, (Tree.content?_congr hsame).trans grown.content?⟩
  · exact .inr ⟨hr, grown.content? ▸ Tree.content?_of_find? written.find⟩

end Storage

namespace Generation

open Storage (Disk DiskError Path Place Tree Work)
open Storage.Disk (Runs)

/-- Where a file is written. -/
def SourceFile.place (out : Path) (f : SourceFile) : Place :=
  (out.child f.path).place

/-- What is held everywhere after files were written one after another. -/
def overlaid (out : Path) (files : List SourceFile) (held : Place → Option ByteArray) :
    Place → Option ByteArray :=
  files.foldl (fun held f => Function.update held (f.place out) (some f.content.toUTF8)) held

section

variable {c : Config} {out : Path} {files done later : List SourceFile} {tables : List String}
  {f : SourceFile} {t t' : Tree} {held : Place → Option ByteArray} {q : Place}

theorem overlaid_append (more : List SourceFile) :
    overlaid out (done ++ more) held = overlaid out more (overlaid out done held) :=
  List.foldl_append

theorem overlaid_apart (apart : ∀ f ∈ done, f.place out ≠ q) : overlaid out done held q = held q := by
  induction done generalizing held with
  | nil => rfl
  | cons f rest ih =>
      obtain ⟨hfirst, hrest⟩ := List.forall_mem_cons.mp apart
      exact (ih hrest).trans (Function.update_of_ne hfirst.symm ..)

/-- Of several files in one place the last counts. -/
theorem overlaid_last {before after : List SourceFile} (apart : ∀ g ∈ after, g.place out ≠ f.place out) :
    overlaid out (before ++ f :: after) held (f.place out) = some f.content.toUTF8 := by
  rw [overlaid_append]
  exact (overlaid_apart apart).trans (Function.update_self ..)

/-- The write of a file was refused, the manifest's being one of them, and changed no content. -/
def RefusedAt (out : Path) (f : SourceFile) (e : DiskError) (t' : Tree) : Prop :=
  ∃ t, t'.content? = t.content? ∧ (Runs (writeSource out f) t (.error e) t' ∨
    f.path = manifestName ∧ Runs (Disk.writeFile (out.child manifestName) f.content) t (.error e) t')

/-- Files were written in order, all of them or up to the one at which the work was refused. -/
structure Advanced {α : Type} (out : Path) (files done later : List SourceFile) (t t' : Tree)
    (r : Except DiskError α) : Prop where
  split : files = done ++ later
  contents : t'.content? = overlaid out done t.content?
  finished : ∀ a, r = .ok a → later = []
  refused : ∀ e, r = .error e → ∃ f after, later = f :: after ∧ RefusedAt out f e t'

namespace Advanced

variable {α β : Type} {r : Except DiskError α} {more : List SourceFile} {t₁ : Tree}

theorem nil (a : α) : Advanced out [] [] [] t t (.ok a) :=
  ⟨rfl, rfl, fun _ _ => rfl, nofun⟩

theorem map {g : α → β} (h : Advanced out files done later t t' r) :
    Advanced out files done later t t' (r.map g) where
  split := h.split
  contents := h.contents
  finished b hb := by
    cases r with
    | error e => cases hb
    | ok a => exact h.finished a rfl
  refused e he := by
    cases r with
    | error e' =>
        cases he
        exact h.refused e rfl
    | ok a => cases he

theorem stop {e : DiskError} (h : RefusedAt out f e t') (same : t'.content? = t.content?) :
    Advanced (α := α) out (f :: files) [] (f :: files) t t' (.error e) where
  split := rfl
  contents := same
  finished := nofun
  refused e' he := by
    cases he
    exact ⟨f, files, rfl, h⟩

theorem follow (h : t₁.content? = overlaid out files t.content?)
    (h' : Advanced out more done later t₁ t' r) :
    Advanced out (files ++ more) (files ++ done) later t t' r where
  split := by rw [h'.split, List.append_assoc]
  contents := by rw [h'.contents, h, overlaid_append]
  finished := h'.finished
  refused := h'.refused

/-- Files that would come after those at which the work was refused are not written. -/
theorem extend {e : DiskError} (h : Advanced (α := α) out files done later t t' (.error e))
    (more : List SourceFile) :
    Advanced (α := β) out (files ++ more) done (later ++ more) t t' (.error e) where
  split := by rw [h.split, List.append_assoc]
  contents := h.contents
  finished := nofun
  refused e' he := by
    cases he
    obtain ⟨f, after, rfl, hrefused⟩ := h.refused e rfl
    exact ⟨f, after ++ more, rfl, hrefused⟩

end Advanced

theorem advanced_writeSource {r : Except DiskError Bool} (h : Runs (writeSource out f) t r t') :
    (∃ e, r = .error e ∧ RefusedAt out f e t' ∧ t'.content? = t.content?) ∨
      (∃ isNew, r = .ok isNew) ∧ t'.content? = overlaid out [f] t.content? := by
  have hrefused {e : DiskError} (he : r = .error e) (same : t'.content? = t.content?) :
      RefusedAt out f e t' :=
    ⟨t, same, .inl (he ▸ h)⟩
  obtain ⟨node, -, hwork⟩ | ⟨e, rfl, rfl⟩ := Disk.runs_textThere h
  swap
  · exact .inl ⟨e, rfl, hrefused rfl rfl, rfl⟩
  obtain ⟨_, t₁, hwrite, hend⟩ | ⟨e, rfl, hwrite⟩ := Disk.runs_bind hwork
  · obtain ⟨⟨_, hr⟩, -⟩ | ⟨-, hwritten⟩ := Disk.contents_writeFile hwrite
    · cases hr
    · replace hend := Disk.runs_note_bind hend
      obtain ⟨rfl, rfl⟩ := Disk.runs_pure hend
      exact .inr ⟨⟨_, rfl⟩, hwritten⟩
  · obtain ⟨-, hsame⟩ | ⟨⟨_, hr⟩, -⟩ := Disk.contents_writeFile hwrite
    · exact .inl ⟨e, rfl, hrefused rfl hsame, hsame⟩
    · cases hr

theorem advanced_writeSources {r : Except DiskError (List String × List String)}
    (h : Runs (writeSources out files) t r t') :
    ∃ done later, Advanced out files done later t t' r := by
  induction files generalizing t r with
  | nil =>
      obtain ⟨rfl, rfl⟩ := Disk.runs_pure h
      exact ⟨[], [], .nil _⟩
  | cons f rest ih =>
      obtain ⟨isNew, t₁, hwrite, hrest⟩ | ⟨e, rfl, hwrite⟩ := Disk.runs_bind h
      · obtain ⟨_, hr, -⟩ | ⟨-, hfirst⟩ := advanced_writeSource hwrite
        · cases hr
        obtain ⟨r', hloop, rfl⟩ := Disk.runs_bind_pure hrest
        obtain ⟨done, later, hadvanced⟩ := ih hloop
        exact ⟨f :: done, later, (hadvanced.follow hfirst).map⟩
      · obtain ⟨_, he, hrefused, hsame⟩ | ⟨⟨_, hr⟩, -⟩ := advanced_writeSource hwrite
        · cases he
          exact ⟨[], f :: rest, .stop hrefused hsame⟩
        · cases hr

theorem advanced_writeManifest {m : Manifest} {x : Exported} {r : Except DiskError Exported}
    (h : Runs (if c.manifest then do
      let _ ← Disk.writeFile (out.child manifestName) m.text
      pure x else pure x) t r t') :
    ∃ done later, Advanced out (manifestFiles c m) done later t t' r := by
  unfold manifestFiles
  split at h
  · next hmanifest =>
      rw [if_pos hmanifest]
      obtain ⟨_, t₁, hwrite, hend⟩ | ⟨e, rfl, hwrite⟩ := Disk.runs_bind h
      · obtain ⟨rfl, rfl⟩ := Disk.runs_pure hend
        obtain ⟨⟨_, hr⟩, -⟩ | ⟨-, hwritten⟩ := Disk.contents_writeFile hwrite
        · cases hr
        · exact ⟨_, [], (List.append_nil _).symm, hwritten, fun _ _ => rfl, nofun⟩
      · obtain ⟨-, hsame⟩ | ⟨⟨_, hr⟩, -⟩ := Disk.contents_writeFile hwrite
        · exact ⟨[], _, .stop ⟨t, hsame, .inr ⟨rfl, hwrite⟩⟩ hsame⟩
        · cases hr
  · next hmanifest =>
      rw [if_neg hmanifest]
      obtain ⟨rfl, rfl⟩ := Disk.runs_pure h
      exact ⟨[], [], .nil _⟩

/-- What an export has done when it ends, whatever files it was given: some stale modules were removed,
and then the first files were written. -/
structure Halted (c : Config) (out : Path) (files : List SourceFile) (tables : List String) (t t' : Tree)
    (r : Except DiskError Exported) (gone : List String) (done later : List SourceFile) : Prop where
  split : packaged c files tables = done ++ later
  stale : ∀ name ∈ gone, c.clean = true ∧ Stale t out.place (files.map (·.path)) name
  contents : t'.content? = overlaid out done (t.without (gone.map (out.place ++ [·]))).content?
  finished : ∀ x, r = .ok x → later = []
  refused : ∀ e, r = .error e → done = [] ∨ ∃ f after, later = f :: after ∧ RefusedAt out f e t'

theorem content?_without_congr {t₁ : Tree} (same : t₁.content? = t.content?) (gone : List Place) :
    (t₁.without gone).content? = (t.without gone).content? := by
  funext q
  rw [Tree.content?_without, Tree.content?_without, same]

theorem halted_writePackage {r : Except DiskError Exported} (named : t.Named)
    (parts : ∀ part ∈ out.parts, '/' ∉ part.toList) (h : Runs (writePackage c out files tables) t r t') :
    ∃ gone done later, Halted c out files tables t t' r gone done later := by
  -- Directories hold no content, also those that were made before one was refused.
  obtain ⟨_, t₁, hensure, h⟩ | ⟨e, rfl, hensure⟩ := Disk.runs_bind h
  swap
  · have hsame := (Disk.runs_ensureDirectory hensure).grown.content?
    exact ⟨[], [], _, rfl, by simp, hsame.trans (by simp [overlaid]), nofun, fun _ _ => .inl rfl⟩
  obtain ⟨grown, hstands⟩ := Disk.runs_ensureDirectory hensure
  have stands := hstands rfl
  have hbefore (gone : List String) : (t₁.without (gone.map (out.place ++ [·]))).content? =
      (t.without (gone.map (out.place ++ [·]))).content? :=
    content?_without_congr grown.content? _
  -- Cleaning may be refused after some stale modules are gone already.
  obtain ⟨removed, t₂, hclean, h⟩ | ⟨e, rfl, hclean⟩ := Disk.runs_bind h
  swap
  · obtain ⟨gone, rfl, hgone, -⟩ := runs_clean named parts grown stands hclean
    have hstale := fun name hname => (hgone name hname).imp_right (stale_grown grown).mp
    exact ⟨gone, [], _, rfl, hstale, hbefore gone, nofun, fun _ _ => .inl rfl⟩
  obtain ⟨gone, rfl, hgone, -⟩ := runs_clean named parts grown stands hclean
  have hstale := fun name hname => (hgone name hname).imp_right (stale_grown grown).mp
  -- The manifest is written like a last file, and only if all others are.
  obtain ⟨done, later, hadvanced⟩ : ∃ done later, Advanced out (packaged c files tables) done later
      (t₁.without (gone.map (out.place ++ [·]))) t' r := by
    obtain ⟨⟨changed, unchanged⟩, t₃, hwrite, h⟩ | ⟨e, rfl, hwrite⟩ := Disk.runs_bind h
    · obtain ⟨done, later, hsources⟩ := advanced_writeSources hwrite
      obtain ⟨done', later', hmanifest⟩ := advanced_writeManifest h
      obtain rfl := hsources.finished _ rfl
      obtain rfl : done = files := (hsources.split.trans (List.append_nil _)).symm
      exact ⟨done ++ done', later', hmanifest.follow hsources.contents⟩
    · obtain ⟨done, later, hsources⟩ := advanced_writeSources hwrite
      exact ⟨done, _, hsources.extend _⟩
  exact ⟨gone, done, later, hadvanced.split, hstale, hadvanced.contents.trans (by rw [hbefore]),
    hadvanced.finished, fun e he => .inr (hadvanced.refused e he)⟩

/-- What files hold after an export that wrote the first ones and not the others. -/
structure LeftWhole (c : Config) (out : Path) (files done later : List SourceFile) (t t' : Tree) :
    Prop where
  /-- What was written holds all of its text, unless a file behind it went to the same place. -/
  written : ∀ before f after, done = before ++ f :: after →
    (∀ g ∈ after, g.place out ≠ f.place out) → t'.content? (f.place out) = some f.content.toUTF8
  /-- What was not written holds what it held, unless a file before it went to the same place. A plain name
  saves it from being cleaned away. -/
  kept : ∀ f ∈ later, (∀ g ∈ done, g.place out ≠ f.place out) → (c.clean = true → Path.IsName f.path) →
    t'.content? (f.place out) = t.content? (f.place out)
  /-- Elsewhere, nothing was left that was not there, and only stale modules were cleaned away. -/
  others : ∀ q, (∀ g ∈ done, g.place out ≠ q) → t'.content? q = t.content? q ∨
    t'.content? q = none ∧ c.clean = true ∧
      ∃ name, q = out.place ++ [name] ∧ Stale t out.place (files.map (·.path)) name

theorem not_stale_manifest {keep : List String} : ¬ Stale t out.place keep manifestName := fun h =>
  absurd h.source (by decide)

namespace Halted

variable {gone : List String} {r : Except DiskError Exported}

theorem others (h : Halted c out files tables t t' r gone done later)
    (apart : ∀ g ∈ done, g.place out ≠ q) : t'.content? q = t.content? q ∨
      t'.content? q = none ∧ c.clean = true ∧
        ∃ name, q = out.place ++ [name] ∧ Stale t out.place (files.map (·.path)) name := by
  rw [h.contents, overlaid_apart apart, Tree.content?_without]
  split
  · next hgone =>
      obtain ⟨name, hname, rfl⟩ := List.mem_map.mp hgone
      obtain ⟨hclean, hstale⟩ := h.stale name hname
      exact .inr ⟨rfl, hclean, name, rfl, hstale⟩
  · exact .inl rfl

theorem leftWhole (h : Halted c out files tables t t' r gone done later) :
    LeftWhole c out files done later t t' where
  written before f after hdone apart := by
    rw [h.contents, hdone, overlaid_last apart]
  kept f hf apart hplain := by
    refine (h.others apart).resolve_right ?_
    rintro ⟨-, hclean, name, hplace, hstale⟩
    obtain rfl : f.path = name := by
      rw [SourceFile.place, Path.place_child out (hplain hclean)] at hplace
      simpa using hplace
    have hpackaged : f ∈ packaged c files tables := h.split ▸ List.mem_append_right done hf
    obtain hlisted | hmanifest := List.mem_append.mp hpackaged
    · exact hstale.unlisted (List.mem_map_of_mem hlisted)
    · exact not_stale_manifest (path_manifestFiles hmanifest ▸ hstale)
  others q apart := h.others apart

/-- The manifest comes last, so that an export that is refused did not write it. -/
theorem subset_of_refused {e : DiskError}
    (h : Halted c out files tables t t' (.error e) gone done later) : done ⊆ files := by
  obtain rfl | ⟨f, after, rfl, -⟩ := h.refused e rfl
  · exact List.nil_subset _
  obtain ⟨more, rfl, hmanifest⟩ | ⟨more, rfl, -⟩ := List.append_eq_append_iff.mp h.split
  · have hlength : (manifestFiles c (.of c files tables)).length ≤ 1 := by
      unfold manifestFiles
      split <;> simp
    obtain rfl : more = [] := by
      rw [hmanifest, List.length_append, List.length_cons] at hlength
      exact List.length_eq_zero_iff.mp (by omega)
    simp
  · exact List.subset_append_left ..

theorem manifest_kept {e : DiskError} (h : Halted c out files tables t t' (.error e) gone done later)
    (apart : ∀ f ∈ files, f.place out ≠ out.place ++ [manifestName]) :
    t'.content? (out.place ++ [manifestName]) = t.content? (out.place ++ [manifestName]) := by
  refine (h.others fun g hg => apart g (h.subset_of_refused hg)).resolve_right ?_
  rintro ⟨-, -, name, hname, hstale⟩
  obtain rfl : manifestName = name := by simpa using hname
  exact not_stale_manifest hstale

end Halted

end

/-- How a run ends whose export was refused. -/
structure Refused (out : Path) (report : Report) (done later : List SourceFile) (t t' : Tree)
    (result : Except DiskError Report) (e : DiskError) : Prop where
  /-- It was refused before the first write, or at the first file that was not written. -/
  place : done = [] ∨ ∃ f after, later = f :: after ∧ RefusedAt out f e t'
  manifest : (∀ f ∈ report.files, f.place out ≠ out.place ++ [manifestName]) →
    t'.content? (out.place ++ [manifestName]) = t.content? (out.place ++ [manifestName])
  told : e.trouble.isRefusal = true → ∃ report', result = .ok report' ∧ report'.success = false ∧
    report'.exportErrors = [s!"Export failed: {e.name}: {e.message}"]
  /-- What is no refusal of the disk is not caught. -/
  raised : e.trouble.isRefusal = false → result = .error e

/-- Whichever step an export is refused at: the files before it are whole, the others hold what they held,
the manifest is not written, and the run reports it. Of files in one place the last that was written
counts, and cleaning before the first write spares what the list names plainly. -/
theorem interrupted_export_leaves_whole (c : Config) (directory : String) (report : Report) {d d' : Disk}
    {result : Except DiskError Report} (named : d.tree.Named)
    (ran : (Report.finish <$> exportStage c (Path.ofText directory) report).run.run d = (result, d')) :
    let out := Path.ofText directory
    ∃ done later, packaged c report.files report.accepted = done ++ later ∧
      LeftWhole c out report.files done later d.tree d'.tree ∧
      (later = [] ∧ (∃ report', result = .ok report' ∧ report'.exportErrors = report.exportErrors) ∨
        ∃ e, Refused out report done later d.tree d'.tree result e) := by
  intro out
  have hruns : Runs (Report.finish <$> exportStage c out report) d.tree result d'.tree :=
    ⟨d, d', ran, rfl, rfl⟩
  rw [map_eq_pure_bind] at hruns
  obtain ⟨r₁, hstage, rfl⟩ := Disk.runs_bind_pure hruns
  obtain ⟨r', hexport, rfl⟩ := runs_exportStage hstage
  obtain ⟨gone, done, later, halted⟩ := halted_writePackage named (Path.slash_notMem_ofText _)
    (runs_exportFiles hexport)
  refine ⟨done, later, halted.split, halted.leftWhole, ?_⟩
  cases r' with
  | ok x => exact .inl ⟨halted.finished x rfl, _, rfl, rfl⟩
  | error e =>
      refine .inr ⟨e, halted.refused e rfl, halted.manifest_kept, fun hrefusal => ?_, fun hother => ?_⟩
      · rw [concluded, if_pos hrefusal]
        refine ⟨_, rfl, ?_, rfl⟩
        simp [Report.finish]
      · rw [concluded, if_neg (by simp [hother])]
        rfl

/-- A disk with two modules that fails when the second one is written anew. -/
def faultyDisk : Disk :=
  { tree := { nodes := [(["pkg"], .directory), (["pkg", "a.py"], .file "A = 1\n".toUTF8),
      (["pkg", "b.py"], .file "B = 1\n".toUTF8)] }
    faults := List.replicate 9 none ++ [some (.other 5 "Input/output error")] }

theorem named_faultyDisk : faultyDisk.tree.Named := by
  change ∀ p ∈ ([["pkg"], ["pkg", "a.py"], ["pkg", "b.py"]] : List Place), _
  decide

def renewal : Report :=
  { files := [⟨"a.py", "A = 2\n", none⟩, ⟨"b.py", "B = 2\n", none⟩] }

theorem interrupted_export_leaves_whole_faulty : ∃ report' d',
    (Report.finish <$> exportStage {} (Path.ofText "pkg") renewal).run.run faultyDisk = (.ok report', d') ∧
      ∃ done later e, packaged {} renewal.files renewal.accepted = done ++ later ∧
        LeftWhole {} (Path.ofText "pkg") renewal.files done later faultyDisk.tree d'.tree ∧
        Refused (Path.ofText "pkg") renewal done later faultyDisk.tree d'.tree (.ok report') e := by
  obtain ⟨report', d', hrun, herror⟩ : ∃ report' d',
      (Report.finish <$> exportStage {} (Path.ofText "pkg") renewal).run.run faultyDisk =
        (.ok report', d') ∧ (!report'.exportErrors.isEmpty) = true :=
    Disk.exists_of_any (p := fun (report : Report) => !report.exportErrors.isEmpty) (by decide +kernel)
  obtain ⟨done, later, hsplit, hwhole, ⟨-, _, hsame, hnone⟩ | ⟨e, hrefused⟩⟩ :=
    interrupted_export_leaves_whole {} "pkg" renewal named_faultyDisk hrun
  · cases hsame
    rw [hnone] at herror
    cases herror
  · exact ⟨report', d', hrun, done, later, e, hsplit, hwhole, hrefused⟩

/-- An emitted module, and a directory where a module is to go. -/
def postsEmitted : Tree :=
  { nodes := [(["taken.py"], .directory), (["pkg"], .directory),
      (["pkg", "posts.py"], .file "\"\"\"\nGenerated by fluentorm. Do not edit.\n\"\"\"\n".toUTF8)] }

/-- The second file is refused. Of the others, two go to one place, and the last is not named plainly. -/
def respelled : Report :=
  { files := [⟨"tags.py", "TAGS = 1\n", none⟩, ⟨"../taken.py", "TAKEN = 1\n", none⟩,
      ⟨"tags.py", "TAGS = 2\n", none⟩, ⟨"./posts.py", "POSTS = 1\n", none⟩] }

/-- Both places behind the refused file hold something else than before: one was written by a file before
it, and the other was cleaned away. -/
theorem respelled_files_changed :
    respelled.files.map (SourceFile.place (Path.ofText "pkg")) =
        [["pkg", "tags.py"], ["taken.py"], ["pkg", "tags.py"], ["pkg", "posts.py"]] ∧
      postsEmitted.content? ["pkg", "tags.py"] = none ∧
      (postsEmitted.content? ["pkg", "posts.py"]).isSome = true ∧
      ∃ report' d', (Report.finish <$> exportStage cleaning (Path.ofText "pkg") respelled).run.run
          { tree := postsEmitted } = (.ok report', d') ∧
        report'.exportErrors = ["Export failed: IsADirectoryError: "
          ++ "[Errno 21] Is a directory: '<TMP>' -> 'pkg/../taken.py'"] ∧
        (d'.tree.content? ["pkg", "tags.py"]).isSome = true ∧
        d'.tree.content? ["pkg", "posts.py"] = none := by
  obtain ⟨report', d', hrun, herrors⟩ : ∃ report' d',
      (Report.finish <$> exportStage cleaning (Path.ofText "pkg") respelled).run.run
        { tree := postsEmitted } = (.ok report', d') ∧
      (report'.exportErrors == ["Export failed: IsADirectoryError: "
        ++ "[Errno 21] Is a directory: '<TMP>' -> 'pkg/../taken.py'"]) = true :=
    Disk.exists_of_any (by decide +kernel)
  have hheld : ((((Report.finish <$> exportStage cleaning (Path.ofText "pkg") respelled).run.run
      { tree := postsEmitted }).2.tree.content? ["pkg", "tags.py"]).isSome = true) ∧
      (((Report.finish <$> exportStage cleaning (Path.ofText "pkg") respelled).run.run
        { tree := postsEmitted }).2.tree.content? ["pkg", "posts.py"]).isNone = true := by
    decide +kernel
  rw [hrun, Option.isNone_iff_eq_none] at hheld
  exact ⟨rfl, rfl, by decide +kernel, report', d', hrun, eq_of_beq herrors, hheld⟩

end Generation

end TableLoom
