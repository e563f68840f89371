import TableLoom.Proofs.Storage.Writing

/-!
Trees as a disk holds them: whatever is there lies in a directory. They stay so when directories are made
on the way to a file, when it is written and when files are removed, and in them a path that goes down from
a directory shows the file that is there.
-/

namespace TableLoom.Storage

variable {t t' : Tree} {here p q : Place} {name s : String} {names : List String}

namespace Path

/-- A text leads down from a directory by these names. -/
structure Descends (s : String) (names : List String) : Prop where
  plain : ∀ name ∈ names, IsName name
  nonempty : names ≠ []
  joined : s = Text.join "/" names

theorem IsName.descends (h : IsName s) : Descends s [s] :=
  ⟨List.forall_mem_singleton.mpr h, List.cons_ne_nil _ _, String.intercalate_singleton.symm⟩

theorem foldl_follow (plain : ∀ name ∈ names, IsName name) :
    names.foldl follow here = here ++ names := by
  induction names generalizing here with
  | nil => exact (List.append_nil here).symm
  | cons name rest ih =>
      obtain ⟨hname, hrest⟩ := List.forall_mem_cons.mp plain
      rw [List.foldl_cons, ih hrest, follow_name hname, List.append_assoc, List.singleton_append]

namespace Descends

theorem ofText_eq (h : Descends s names) : ofText s = ⟨false, names⟩ := by
  have hsplit : Text.split '/' s = names := by
    rw [h.joined]
    exact Text.split_join (fun name hname => (h.plain name hname).slash) h.nonempty
  have hkept : names.filter (fun p => !p.isEmpty && p != ".") = names :=
    List.filter_eq_self.mpr fun name hname => by
      simp [(h.plain name hname).nonempty, (h.plain name hname).here]
  -- A text that starts with a slash has an empty first part.
  have hrelative : (s.toList.head? == some '/') = false := by
    rw [beq_eq_false_iff_ne]
    intro hslash
    obtain ⟨rest, hrest⟩ := List.head?_eq_some_iff.mp hslash
    have hempty : "" ∈ names := by
      rw [← hsplit, Text.split, hrest]
      exact List.mem_cons_self
    exact (h.plain _ hempty).nonempty rfl
  rw [ofText, hsplit, hkept, hrelative]

theorem child_eq (h : Descends s names) (path : Path) :
    path.child s = { path with parts := path.parts ++ names } := by
  rw [child, h.ofText_eq]
  rfl

theorem place_child (h : Descends s names) (path : Path) : (path.child s).place = path.place ++ names := by
  rw [h.child_eq, place, List.foldl_append]
  exact foldl_follow h.plain

/-- Two texts that lead to one place are the same. -/
theorem injective {s' : String} {names' : List String} (h : Descends s names) (h' : Descends s' names')
    (path : Path) (same : (path.child s).place = (path.child s').place) : s = s' := by
  rw [h.place_child, h'.place_child, List.append_cancel_left_eq] at same
  rw [h.joined, h'.joined, same]

end Descends

theorem follow_cases (here : Place) (step : String) :
    follow here step = here ++ [step] ∨ follow here step = here ++ [".."] ∨ follow here step <+: here := by
  unfold follow
  split
  · exact .inl rfl
  split
  · exact .inr (.inl rfl)
  · exact .inr (.inl rfl)
  · exact .inr (.inr List.prefix_rfl)
  · exact .inr (.inr (List.dropLast_prefix here))

/-- Where a step leads is below where the way has been, by that step or one back. -/
theorem prefix_follow {step : String} (h : p ++ [name] <+: follow here step) :
    p ++ [name] = follow here step ∧ (name = step ∨ name = "..") ∨ p ++ [name] <+: here := by
  obtain hstep | hstep | hstep := follow_cases here step
  · rw [hstep] at h ⊢
    exact (List.prefix_concat_iff.mp h).imp_left fun h => ⟨h, .inl (by simpa using (List.append_inj' h rfl).2)⟩
  · rw [hstep] at h ⊢
    exact (List.prefix_concat_iff.mp h).imp_left fun h => ⟨h, .inr (by simpa using (List.append_inj' h rfl).2)⟩
  · exact .inr (h.trans hstep)

/-- What lies above a place on the way of a path is on that way as well. -/
theorem over_of_prefix {path : Path} (hq : path.Over q) (hp : p ++ [name] <+: q) :
    isGiven (p ++ [name]) = true ∨ path.Over (p ++ [name]) ∧ (name ∈ path.parts ∨ name = "..") := by
  obtain ⟨n, rfl⟩ := hq
  induction n with
  | zero =>
      left
      dsimp only [place, start] at hp
      rw [List.take_zero, List.foldl_nil] at hp
      split at hp
      · obtain ⟨rfl, rfl⟩ : p = [] ∧ name = "/" := by
          have hlength := hp.length_le
          cases p <;> simp_all [List.prefix_cons_iff]
        rfl
      · simp at hp
  | succ n ih =>
      by_cases hn : n < path.parts.length
      · have hfollow : place ⟨path.absolute, path.parts.take (n + 1)⟩ =
            follow (place ⟨path.absolute, path.parts.take n⟩) path.parts[n] := by
          dsimp only [place]
          rw [List.take_add_one, List.getElem?_eq_getElem hn, List.foldl_append]
          rfl
        rw [hfollow] at hp
        obtain ⟨hsame, hname⟩ | hbefore := prefix_follow hp
        · have hpart : path.parts[n] ∈ path.parts := List.getElem_mem hn
          refine .inr ⟨⟨n + 1, hsame.trans hfollow.symm⟩, ?_⟩
          exact hname.imp_left fun (hstep : name = _) => hstep ▸ hpart
        · exact ih hbefore
      · rw [List.take_of_length_le (by omega)] at hp
        rw [List.take_of_length_le (by omega)] at ih
        exact ih hp

end Path

namespace Tree

/-- A tree as a disk holds it: what has a name lies in a directory, and the name can be in a path. -/
structure Sound (t : Tree) : Prop where
  rooted : ∀ p name node, t.find? (p ++ [name]) = some node → t.find? p = some .directory
  named : ∀ p name, isGiven (p ++ [name]) = false → t.find? (p ++ [name]) ≠ none →
    '/' ∉ name.toList ∧ '\x00' ∉ name.toList

theorem isGiven_of_append (h : isGiven (p ++ [name]) = true) : isGiven p = true := by
  rw [isGiven, Bool.or_eq_true, beq_iff_eq, List.all_append, Bool.and_eq_true] at h
  obtain hroot | ⟨hback, -⟩ := h
  · obtain ⟨rfl, -⟩ := List.append_eq_singleton_iff.mp hroot |>.resolve_right (by simp)
    rfl
  · rw [isGiven, hback, Bool.or_true]

theorem isGiven_concat (hname : Path.IsName name) : isGiven (p ++ [name]) = false := by
  have hroot : name ≠ "/" := by
    rintro rfl
    exact hname.slash (by decide)
  simp [isGiven, hname.back, hroot, List.append_eq_singleton_iff]

theorem find?_given (t : Tree) (h : isGiven p = true) : t.find? p = some .directory := by
  rw [find?, if_pos h]

theorem mem_places_iff (hgiven : isGiven p = false) : p ∈ t.places ↔ t.find? p ≠ none := by
  rw [find?, hgiven, if_neg Bool.false_ne_true, ne_eq, List.lookup_eq_none_iff, places, List.mem_map]
  push Not
  exact exists_congr fun x => and_congr_right' (by rw [ne_eq, bne_iff_ne, not_not, eq_comm])

/-- A tree is sound if each place that it lists is. -/
theorem Sound.of_places (h : ∀ p ∈ t.places, ∀ name ∈ p.getLast?,
    t.isDirectory p.dropLast = true ∧ '/' ∉ name.toList ∧ '\x00' ∉ name.toList) : t.Sound := by
  have hlisted (p : Place) (name : String) (hgiven : isGiven (p ++ [name]) = false)
      (hfind : t.find? (p ++ [name]) ≠ none) :=
    h _ ((mem_places_iff hgiven).mpr hfind) name (by simp)
  constructor
  · intro p name node hfind
    cases hgiven : isGiven (p ++ [name]) with
    | true => exact t.find?_given (isGiven_of_append hgiven)
    | false =>
        have hdirectory := (hlisted p name hgiven (by simp [hfind])).1
        rwa [List.dropLast_concat, isDirectory_iff] at hdirectory
  · intro p name hgiven hfind
    exact (hlisted p name hgiven hfind).2

namespace Sound

theorem congr (sound : t.Sound) (same : t'.find? = t.find?) : t'.Sound := by
  constructor
  · rw [same]
    exact sound.rooted
  · rw [same]
    exact sound.named

theorem nul_notMem (sound : t.Sound) (h : t.isFile (p ++ [name]) = true) : '\x00' ∉ name.toList := by
  obtain ⟨b, hb⟩ := isFile_iff.mp h
  exact (sound.named p name (isGiven_eq_false (t := t) (by simp [hb])) (by simp [hb])).2

/-- Above what is there are directories. -/
theorem above {node : Node} (sound : t.Sound) (h : t.find? q = some node) (hp : p <+: q) :
    p = q ∨ t.find? p = some .directory := by
  induction q using List.reverseRecOn generalizing node with
  | nil => exact .inl (List.prefix_nil.mp hp)
  | append_singleton init last ih =>
      obtain hwhole | hinit := List.prefix_concat_iff.mp hp
      · exact .inl hwhole
      · have hdirectory := sound.rooted _ _ _ h
        obtain rfl | habove := ih hdirectory hinit
        · exact .inr hdirectory
        · exact .inr habove

theorem grown {path : Path} (sound : t.Sound) (h : Grown path t t') (stands : t'.Stands path)
    (slashless : ∀ part ∈ path.parts, '/' ∉ part.toList) : t'.Sound := by
  have hclear := (Path.nul_notMem_text path).mp (resolve_eq_ok.mp stands.1).1
  constructor
  · intro p name node hfind
    obtain hsame | ⟨hover, -, -⟩ := h.nodes (p ++ [name])
    · exact h.covers _ (sound.rooted _ _ _ (hsame.symm.trans hfind))
    · obtain rfl | ⟨above, last, rfl⟩ := p.eq_nil_or_concat
      · exact t'.find?_given rfl
      · rw [List.concat_eq_append] at hover ⊢
        obtain hgiven | ⟨hover', -⟩ := Path.over_of_prefix hover (List.prefix_append ..)
        · exact t'.find?_given hgiven
        · exact stands.find?_over hover'
  · intro p name hgiven hfind
    obtain hsame | ⟨hover, -, -⟩ := h.nodes (p ++ [name])
    · exact sound.named p name hgiven (hsame ▸ hfind)
    · obtain hgiven' | ⟨-, hpart | rfl⟩ := Path.over_of_prefix hover List.prefix_rfl
      · rw [hgiven] at hgiven'
        cases hgiven'
      · exact ⟨slashless name hpart, hclear name hpart⟩
      · decide

theorem written {text : String} (sound : t.Sound) (h : Disk.Written (p ++ [name]) text t t')
    (parent : t.find? p = some .directory) (slash : '/' ∉ name.toList) (clear : '\x00' ∉ name.toList) :
    t'.Sound := by
  have hother {q : Place} (hq : q ≠ p ++ [name]) : t'.find? q = t.find? q := by
    rw [h.find, Function.update_of_ne hq]
  have hdirectory {q : Place} (hq : t.find? q = some .directory) : t'.find? q = some .directory := by
    rw [hother fun hsame => h.vacant (hsame ▸ hq), hq]
  constructor
  · intro p' name' node hfind
    by_cases hplace : p' ++ [name'] = p ++ [name]
    · obtain ⟨rfl, -⟩ := List.append_inj' hplace rfl
      exact hdirectory parent
    · exact hdirectory (sound.rooted _ _ _ (hother hplace ▸ hfind))
  · intro p' name' hgiven hfind
    by_cases hplace : p' ++ [name'] = p ++ [name]
    · obtain rfl : name' = name := by simpa using (List.append_inj' hplace rfl).2
      exact ⟨slash, clear⟩
    · exact sound.named p' name' hgiven (hother hplace ▸ hfind)

theorem without {gone : List Place} (sound : t.Sound) (files : ∀ p ∈ gone, t.isFile p = true) :
    (t.without gone).Sound := by
  have hthere {q : Place} (hgiven : isGiven q = false) (h : (t.without gone).find? q ≠ none) :
      (t.without gone).find? q = t.find? q :=
    find?_without fun hgone => h (find?_without_self hgone hgiven)
  constructor
  · intro p name node hfind
    cases hgiven : isGiven (p ++ [name]) with
    | true => exact find?_given _ (isGiven_of_append hgiven)
    | false =>
        refine covers_without files _ (sound.rooted p name node ?_)
        rw [← hthere hgiven (by simp [hfind]), hfind]
  · intro p name hgiven hfind
    exact sound.named p name hgiven (hthere hgiven hfind ▸ hfind)

end Sound

/-- Names lead down over directories, unless one is too long. -/
theorem walk_names (plain : ∀ name ∈ names, Path.IsName name)
    (way : ∀ p, here <+: p → p <+: here ++ names → p = here ++ names ∨ t.find? p = some .directory) :
    t.walk here names = .ok (here ++ names) ∨ t.walk here names = .error .tooLong := by
  induction names generalizing here with
  | nil => exact .inl (by rw [List.append_nil]; rfl)
  | cons name rest ih =>
      obtain ⟨hname, hrest⟩ := List.forall_mem_cons.mp plain
      have hhere : t.find? here = some .directory :=
        (way here List.prefix_rfl (List.prefix_append ..)).resolve_left (by simp)
      rw [walk, hhere]
      dsimp only
      split
      · exact .inr rfl
      · rw [Path.follow_name hname, List.append_cons here name rest]
        refine ih hrest fun p hp hdown => ?_
        rw [← List.append_cons] at hdown ⊢
        exact way p ((List.prefix_append ..).trans hp) hdown

/-- A file is shown by a path down from a directory exactly if it is there. -/
theorem Stands.look_descends {path : Path} {node : Option Node} (stands : t.Stands path)
    (sound : t.Sound) (down : Path.Descends s names) (hlook : t.look (path.child s) = .ok node)
    (b : ByteArray) :
    node = some (.file b) ↔ t.find? (path.place ++ names) = some (.file b) := by
  rw [← down.place_child path]
  refine look_file (fun hfile => ?_) hlook
  rw [down.place_child path] at hfile ⊢
  obtain ⟨hclear, -, hwalk⟩ := resolve_eq_ok.mp stands.1
  have hchild : '\x00' ∉ (path.child s).text.toList := by
    rw [Path.nul_notMem_text] at hclear ⊢
    rw [down.child_eq path]
    refine List.forall_mem_append.mpr ⟨hclear, fun name hname => ?_⟩
    obtain ⟨before, after, rfl⟩ := List.append_of_mem hname
    rw [List.append_cons, ← List.append_assoc] at hfile
    refine (sound.named (path.place ++ before) name (isGiven_concat (down.plain name hname)) ?_).2
    rw [List.append_assoc]
    obtain hwhole | habove := sound.above hfile (List.prefix_append ..)
    · rw [hwhole, hfile]
      exact Option.some_ne_none _
    · rw [habove]
      exact Option.some_ne_none _
  rw [resolve, if_neg (by simpa using hchild)]
  split
  · exact .inr rfl
  · rw [down.child_eq path]
    dsimp only [Path.start] at hwalk ⊢
    rw [walk_append hwalk]
    exact walk_names down.plain fun p _ hp => sound.above hfile hp

end Tree

namespace Disk

variable {path : Path} {text : String}

theorem Written.covers (h : Written p text t t') : t'.Covers t := by
  intro q hq
  have hne : q ≠ p := fun hsame => h.vacant (hsame ▸ hq)
  rw [h.find, Function.update_of_ne hne, hq]

/-- A file that is written down from a directory leaves a tree as a disk holds it. -/
theorem sound_writeFile {n : Nat} (stands : t.Stands path) (sound : t.Sound)
    (slashless : ∀ part ∈ path.parts, '/' ∉ part.toList) (down : Path.Descends s names)
    (h : Runs (writeFile (path.child s) text) t (.ok n) t') : t'.Sound ∧ t'.Stands path := by
  obtain ⟨t₁, grown, ⟨⟨_, hr⟩, -⟩ | ⟨-, hclear, hparent, written⟩⟩ := runs_writeFile h
  · cases hr
  obtain ⟨init, last, rfl⟩ := (List.eq_nil_or_concat names).resolve_left down.nonempty
  rw [List.concat_eq_append] at down
  obtain ⟨hinit, hlast⟩ := List.forall_mem_append.mp down.plain
  have hlast := List.forall_mem_singleton.mp hlast
  have hchild : (path.child s).parts = path.parts ++ init ++ [last] := by
    rw [down.child_eq, List.append_assoc]
  have habove : (path.child s).parent = ⟨path.absolute, path.parts ++ init⟩ := by
    rw [Path.parent, hchild, List.dropLast_concat, down.child_eq]
  have hplace : (path.child s).parent.place = path.place ++ init := by
    rw [habove, Path.place, List.foldl_append]
    exact Path.foldl_follow hinit
  have hslashless : ∀ part ∈ (path.child s).parent.parts, '/' ∉ part.toList := by
    rw [habove]
    exact List.forall_mem_append.mpr ⟨slashless, fun name hname => (hinit name hname).slash⟩
  have hnul : '\x00' ∉ last.toList := by
    rw [Path.nul_notMem_text, hchild] at hclear
    exact hclear last (by simp)
  rw [down.place_child, ← List.append_assoc, ← hplace] at written
  exact ⟨(sound.grown grown hparent hslashless).written written hparent.2 hlast.slash hnul,
    written.covers.stands (grown.covers.stands stands)⟩

end Disk

end TableLoom.Storage
