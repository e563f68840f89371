import TableLoom.Proofs.Storage.Without
import TableLoom.Proofs.Text.Legible

/-!
What steps make of a tree, place by place: one node more, one node less, or directories on a way.
-/

namespace TableLoom.Storage

namespace Path

/-- The path comes to this place on its way, or ends there. -/
def Over (p : Path) (q : Place) : Prop :=
  ∃ n, q = place ⟨p.absolute, p.parts.take n⟩

theorem over_place (p : Path) : p.Over p.place :=
  ⟨p.parts.length, by rw [List.take_length]⟩

theorem Over.concat {absolute : Bool} {parts : List String} {q : Place}
    (h : Over ⟨absolute, parts⟩ q) (name : String) : Over ⟨absolute, parts ++ [name]⟩ q := by
  obtain ⟨n, rfl⟩ := h
  refine ⟨min n parts.length, ?_⟩
  dsimp only
  rw [List.take_append_of_le_length (Nat.min_le_right _ _), ← List.take_take, List.take_length]

/-- The characters of a path's text are separators and those of its names. -/
theorem each_text {allowed : Char → Prop} (slash : allowed '/') (point : allowed '.') (p : Path) :
    Text.Each allowed p.text ↔ ∀ part ∈ p.parts, Text.Each allowed part := by
  have hslash : Text.Each allowed "/" := by simpa [Text.Each] using slash
  have hpoint : Text.Each allowed "." := by simpa [Text.Each] using point
  have hnames : Text.Each allowed (Text.join "/" p.parts) ↔
      ∀ part ∈ p.parts, Text.Each allowed part :=
    ⟨Text.each_of_join, Text.each_join hslash⟩
  unfold text
  dsimp only
  split
  · rw [Text.each_append, hnames, and_iff_right hslash]
  · split
    · next hempty => simp [List.isEmpty_iff.mp hempty, hpoint]
    · exact hnames

theorem nul_notMem_text (p : Path) :
    '\x00' ∉ p.text.toList ↔ ∀ part ∈ p.parts, '\x00' ∉ part.toList := by
  have hmem (s : String) : '\x00' ∉ s.toList ↔ Text.Each (· ≠ '\x00') s :=
    ⟨fun h c hc hsame => h (hsame ▸ hc), fun h hc => h _ hc rfl⟩
  simp only [hmem]
  exact each_text (by decide) (by decide) p

theorem parent_child (p : Path) {name : String} (h : IsName name) : (p.child name).parent = p := by
  rw [child_name p h, parent, List.dropLast_concat]

end Path

namespace Tree

variable {t t' : Tree} {p q : Place}

theorem isGiven_eq_false (h : t.find? p ≠ some .directory) : isGiven p = false := by
  rw [← Bool.not_eq_true]
  intro hgiven
  exact h (by rw [find?, if_pos hgiven])

theorem isDirectory_iff : t.isDirectory p = true ↔ t.find? p = some .directory := by
  unfold isDirectory
  split
  · next h => simp [h]
  · next h => simpa using h

theorem isFile_iff : t.isFile p = true ↔ ∃ b, t.find? p = some (.file b) := by
  unfold isFile
  split
  · next b h => simp [h]
  · next h => simpa using h

theorem content?_eq_some {b : ByteArray} : t.content? p = some b ↔ t.find? p = some (.file b) := by
  unfold content?
  split
  · next h => simp [h]
  · next h => simpa using h b

theorem erase_eq (t : Tree) (p : Place) : t.erase p = t.without [p] := by
  simp only [erase, without, List.contains_cons, List.contains_nil, Bool.or_false]
  rfl

@[simp] theorem without_nil (t : Tree) : t.without [] = t := by
  simp [without]

theorem without_without (t : Tree) (gone more : List Place) :
    (t.without gone).without more = t.without (gone ++ more) := by
  simp only [without, List.filter_filter, List.contains_append, Bool.not_or, Bool.and_comm]

theorem find?_without_self {gone : List Place} (h : p ∈ gone) (hgiven : isGiven p = false) :
    (t.without gone).find? p = none := by
  rw [find?, hgiven, if_neg Bool.false_ne_true, List.lookup_eq_none_iff]
  rintro x hx
  have hstays : x.1 ∉ gone := by simpa [without] using (List.mem_filter.mp hx).2
  exact bne_iff_ne.mpr fun hsame => hstays (hsame ▸ h)

theorem file_of_without {gone : List Place} {b : ByteArray}
    (h : (t.without gone).find? p = some (.file b)) : p ∉ gone ∧ t.find? p = some (.file b) := by
  have hstays : p ∉ gone := by
    intro hgone
    have hgiven := isGiven_eq_false (t := t.without gone) (p := p) (by simp [h])
    have hnone := find?_without_self (t := t) hgone hgiven
    rw [h] at hnone
    cases hnone
  exact ⟨hstays, by rwa [find?_without hstays] at h⟩

theorem isFile_of_without {gone : List Place} (h : (t.without gone).isFile p = true) :
    t.isFile p = true := by
  obtain ⟨b, hb⟩ := isFile_iff.mp h
  exact isFile_iff.mpr ⟨b, (file_of_without hb).2⟩

theorem find?_erase (hgiven : isGiven p = false) :
    (t.erase p).find? = Function.update t.find? p none := by
  funext q
  rw [erase_eq]
  by_cases hq : q = p
  · rw [hq, Function.update_self, find?_without_self List.mem_cons_self hgiven]
  · rw [Function.update_of_ne hq, find?_without (by simpa using hq)]

theorem find?_put (n : Node) (hgiven : isGiven p = false) :
    (t.put p n).find? = Function.update t.find? p (some n) := by
  funext q
  have herased := congrFun (find?_erase (t := t) hgiven) q
  unfold find? at herased ⊢
  rw [put, List.lookup_append]
  by_cases hq : q = p
  · subst hq
    rw [Function.update_self, hgiven, if_neg Bool.false_ne_true] at herased ⊢
    simp [herased]
  · rw [Function.update_of_ne hq] at herased ⊢
    rw [← herased]
    have hnone : [(p, n)].lookup q = none := by
      rw [List.lookup_cons, beq_false_of_ne hq]
      rfl
    rw [hnone, Option.or_none]

theorem places_put (t : Tree) (p : Place) (n : Node) (h : q ∈ (t.put p n).places) :
    q ∈ t.places ∨ q = p := by
  simp only [places, put, erase, List.map_append, List.mem_append, List.mem_map, List.mem_filter] at h
  obtain ⟨x, hx, rfl⟩ | ⟨x, hx, rfl⟩ := h
  · exact .inl (List.mem_map_of_mem hx.1)
  · exact .inr (by rw [List.mem_singleton.mp hx])

theorem mem_names_iff {name : String} : name ∈ t.names p ↔ p ++ [name] ∈ t.places := by
  rw [names_eq, List.mem_mergeSort, List.mem_filterMap]
  simp only [nameIn_eq_some, exists_eq_right]

/-- Names on a disk hold no separator and no null character. -/
def Named (t : Tree) : Prop :=
  ∀ p ∈ t.places, ∀ name ∈ p.getLast?, '/' ∉ name.toList ∧ '\x00' ∉ name.toList

theorem Named.file (named : t.Named) {name : String} (h : t.isFile (p ++ [name]) = true) :
    '\x00' ∉ name.toList :=
  (named _ (mem_places h) name (by simp)).2

/-- Nothing happened to a tree but that directories were made on the way of a path. -/
structure Grown (p : Path) (t t' : Tree) : Prop where
  nodes : ∀ q, t'.find? q = t.find? q ∨
    p.Over q ∧ t.find? q = none ∧ t'.find? q = some .directory
  places : ∀ q ∈ t'.places, q ∈ t.places ∨ p.Over q

namespace Grown

variable {path : Path} {t'' : Tree}

theorem refl (path : Path) (t : Tree) : Grown path t t :=
  ⟨fun _ => .inl rfl, fun _ h => .inl h⟩

theorem trans (h : Grown path t t') (h' : Grown path t' t'') : Grown path t t'' where
  nodes q := by
    rcases h.nodes q with hsame | ⟨hover, hnone, hmade⟩
    · rw [← hsame]
      exact h'.nodes q
    · rcases h'.nodes q with hsame' | ⟨_, hnone', _⟩
      · exact .inr ⟨hover, hnone, hsame'.trans hmade⟩
      · rw [hmade] at hnone'
        cases hnone'
  places q hq := (h'.places q hq).elim (h.places q) .inr

theorem concat {absolute : Bool} {parts : List String} (h : Grown ⟨absolute, parts⟩ t t')
    (name : String) : Grown ⟨absolute, parts ++ [name]⟩ t t' where
  nodes q := (h.nodes q).imp id fun ⟨hover, made⟩ => ⟨hover.concat name, made⟩
  places q hq := (h.places q hq).imp id (·.concat name)

theorem put (h : t.find? path.place = none) : Grown path t (t.put path.place .directory) where
  nodes q := by
    rw [find?_put _ (isGiven_eq_false (t := t) (by simp [h]))]
    by_cases hq : q = path.place
    · subst hq
      exact .inr ⟨path.over_place, h, Function.update_self ..⟩
    · exact .inl (Function.update_of_ne hq ..)
  places q hq := (places_put t _ _ hq).imp_right fun (hq : q = path.place) => hq ▸ path.over_place

theorem covers (h : Grown path t t') : t'.Covers t := by
  intro q hq
  rcases h.nodes q with hsame | ⟨_, hnone, _⟩
  · rw [hsame, hq]
  · rw [hq] at hnone
    cases hnone

theorem file_iff (h : Grown path t t') {b : ByteArray} :
    t'.find? q = some (.file b) ↔ t.find? q = some (.file b) := by
  rcases h.nodes q with hsame | ⟨_, hnone, hmade⟩
  · rw [hsame]
  · simp [hnone, hmade]

end Grown

theorem directory_of_walk {here : Place} {steps : List String} {place : Place}
    (h : t.walk here steps = .ok place) (hplace : t.find? place = some .directory) (n : Nat) :
    t.find? ((steps.take n).foldl Path.follow here) = some .directory := by
  induction steps generalizing here n with
  | nil =>
      rw [List.take_nil, List.foldl_nil, Except.ok.inj h]
      exact hplace
  | cons step rest ih =>
      rw [walk] at h
      cases hhere : t.find? here with
      | none => simp [hhere] at h
      | some node =>
          cases node with
          | file b => simp [hhere] at h
          | directory =>
              simp only [hhere] at h
              split at h
              · cases h
              · cases n with
                | zero => exact hhere
                | succ n => exact ih h n

theorem resolve_eq_ok {path : Path} : t.resolve path = .ok p ↔
    '\x00' ∉ path.text.toList ∧ path.text.utf8ByteSize ≤ longestPath ∧
      t.walk path.start path.parts = .ok p := by
  unfold resolve
  simp only [List.contains_iff_mem]
  split
  · next hnul => simp [hnul]
  · next hclear =>
      split
      · next hlong => simp [hlong]
      · next hfits => simp [hclear, Nat.le_of_not_lt hfits]

theorem walk_append {here : Place} {before after : List String} (h : t.walk here before = .ok p) :
    t.walk here (before ++ after) = t.walk p after := by
  induction before generalizing here with
  | nil =>
      obtain rfl := Except.ok.inj h
      rfl
  | cons step rest ih =>
      rw [walk] at h
      rw [List.cons_append, walk]
      cases hhere : t.find? here with
      | none => simp [hhere] at h
      | some node =>
          cases node with
          | file b => simp [hhere] at h
          | directory =>
              simp only [hhere] at h ⊢
              split at h
              · cases h
              · next hfits => rw [if_neg hfits, ih h]

/-- A path shows a file exactly if it is there, unless the path is too long or the way to the file is no
way. -/
theorem look_file {path : Path} {b : ByteArray} {node : Option Node}
    (leads : t.find? path.place = some (.file b) →
      t.resolve path = .ok path.place ∨ t.resolve path = .error .tooLong)
    (hlook : t.look path = .ok node) :
    node = some (.file b) ↔ t.find? path.place = some (.file b) := by
  unfold look at hlook
  cases hresolve : t.resolve path with
  | ok place =>
      obtain rfl := place_of_resolve hresolve
      rw [hresolve] at hlook
      rw [Except.ok.inj hlook]
  | error trouble =>
      rw [hresolve] at hlook leads
      have habsent : t.find? path.place ≠ some (.file b) := by
        intro hfile
        obtain hok | hlong := leads hfile
        · cases hok
        · obtain rfl := Except.error.inj hlong
          cases hlook
      have hnone : node = none := by
        cases trouble <;> cases hlook <;> rfl
      simp [hnone, habsent]

namespace Stands

variable {path : Path}

/-- On the way to a directory there are directories. -/
theorem find?_over (h : t.Stands path) (hq : path.Over q) : t.find? q = some .directory := by
  obtain ⟨n, rfl⟩ := hq
  exact directory_of_walk (resolve_eq_ok.mp h.1).2.2 h.2 n

/-- A name in a directory leads there, unless the way or the name is too long. -/
theorem resolve_child (h : t.Stands path) {name : String} (hname : Path.IsName name)
    (clear : '\x00' ∉ name.toList) :
    t.resolve (path.child name) = .ok (path.place ++ [name]) ∨
      t.resolve (path.child name) = .error .tooLong := by
  obtain ⟨hclear, -, hwalk⟩ := resolve_eq_ok.mp h.1
  have hchild : '\x00' ∉ (path.child name).text.toList := by
    rw [Path.nul_notMem_text] at hclear ⊢
    rw [Path.child_name path hname]
    exact List.forall_mem_append.mpr ⟨hclear, List.forall_mem_singleton.mpr clear⟩
  rw [resolve, if_neg (by simpa using hchild)]
  split
  · exact .inr rfl
  · rw [Path.child_name path hname]
    dsimp only [Path.start] at hwalk ⊢
    rw [walk_append hwalk, walk, h.2]
    dsimp only
    split
    · exact .inr rfl
    · rw [Path.follow_name hname]
      exact .inl rfl

/-- A file is shown by a name in a directory exactly if it is there. -/
theorem look_child (h : t.Stands path) {name : String} (hname : Path.IsName name)
    (clear : t.isFile (path.place ++ [name]) = true → '\x00' ∉ name.toList) {node : Option Node}
    (hlook : t.look (path.child name) = .ok node) (b : ByteArray) :
    node = some (.file b) ↔ t.find? (path.place ++ [name]) = some (.file b) := by
  rw [← Path.place_child path hname]
  refine look_file (fun hfile => ?_) hlook
  rw [Path.place_child path hname] at hfile ⊢
  exact h.resolve_child hname (clear (isFile_iff.mpr ⟨b, hfile⟩))

end Stands

/-- On a way that is there, nothing grows. -/
theorem Grown.same {path : Path} (h : Grown path t t') (stands : t.Stands path) :
    t'.find? = t.find? := by
  funext q
  rcases h.nodes q with hsame | ⟨hover, hnone, _⟩
  · exact hsame
  · rw [stands.find?_over hover] at hnone
    cases hnone

end Tree

end TableLoom.Storage
