import TableLoom.Proofs.Storage.Runs

/-!
Directories that are made and files that are written and removed: what the outcome tells of the tree.
-/

namespace TableLoom.Storage.Disk

variable {α : Type} {t t' : Tree} {p : Path}

/-- A place that was found is where the path leads. -/
theorem runs_resolve {named : String} {k : Place → Work α} {r : Except DiskError α}
    (h : Runs (resolve p named >>= k) t r t') :
    t.resolve p = .ok p.place ∧ Runs (k p.place) t r t' ∨ ∃ e, r = .error e ∧ t' = t := by
  obtain ⟨place, hplace, h⟩ | ⟨e, -, hr, ht⟩ := runs_ask_bind h
  · cases hresolve : t.resolve p with
    | error trouble => simp [hresolve, Except.mapError] at hplace
    | ok found =>
        rw [hresolve] at hplace
        obtain rfl := Except.ok.inj hplace
        obtain rfl := Tree.place_of_resolve hresolve
        exact .inl ⟨rfl, h⟩
  · exact .inr ⟨e, hr, ht⟩

/-- Directories were made on the way of a path, and unless the work is refused, it leads to one. -/
structure Ensures (p : Path) (t : Tree) (r : Except DiskError Unit) (t' : Tree) : Prop where
  grown : Tree.Grown p t t'
  stands : r = .ok () → t'.Stands p

theorem runs_makeDirectory {r : Except DiskError Unit} (h : Runs (makeDirectory p) t r t') :
    Ensures p t r t' := by
  have hrefused : (∃ e, r = .error e ∧ t' = t) → Ensures p t r t' := by
    rintro ⟨e, rfl, rfl⟩
    exact ⟨.refl p _, nofun⟩
  obtain h | h := runs_meet h
  swap
  · exact hrefused h
  obtain ⟨hresolve, h⟩ | h := runs_resolve h
  swap
  · exact hrefused h
  obtain ⟨d, rfl, h⟩ := runs_get h
  split at h
  · exact hrefused ⟨_, runs_throw h⟩
  · next hnone =>
      obtain ⟨-, rfl⟩ := runs_change h
      have grown : Tree.Grown p d.tree (d.tree.put p.place .directory) := .put hnone
      refine ⟨grown, fun _ => ⟨grown.covers.resolve hresolve, ?_⟩⟩
      rw [Tree.find?_put _ (Tree.isGiven_eq_false (t := d.tree) (by simp [hnone]))]
      exact Function.update_self ..

theorem run_ask {question : Tree → Except DiskError α} (d : Disk) :
    (ask question).run.run d = (question d.tree, d) := by
  have hget (k : Disk → Work α) : (get >>= k : Work α).run.run d = (k d).run.run d := rfl
  rw [ask, hget]
  cases question d.tree <;> rfl

theorem orPresent_eq (p : Path) (w : Work Unit) :
    orPresent p w = tryCatch w (fun e => do
      let shown ← ask (·.showsDirectory p)
      if e.trouble.isRefusal && shown then pure () else throw e) := by
  have hbind {α β : Type} (a : α) (f : α → Id β) : @bind Id _ _ _ a f = f a := rfl
  have hpure {α : Type} (a : α) : @pure Id _ _ a = a := rfl
  refine ExceptT.ext (StateT.ext fun d => ?_)
  simp only [orPresent, ExceptT.run_bind, ExceptT.run_tryCatch, StateT.run_bind]
  rcases w.run.run d with ⟨e | a, d₁⟩
  · simp only [hbind, hpure, StateT.run_bind, StateT.run_pure, run_ask]
    cases d₁.tree.showsDirectory p with
    | error e' => rfl
    | ok shown => cases e.trouble.isRefusal <;> cases shown <;> rfl
  · rfl

/-- What runs under a refusal that may pass runs as it does alone. -/
theorem runs_orPresent {w : Work Unit} {r : Except DiskError Unit} (h : Runs (orPresent p w) t r t') :
    ∃ r', Runs w t r' t' ∧ (r = .ok () → r' = .ok () ∨ t'.Stands p) := by
  rw [orPresent_eq] at h
  obtain ⟨_, -, hw⟩ | ⟨e, t₁, hw, hrecover⟩ := runs_tryCatch h
  · exact ⟨_, hw, fun _ => .inl rfl⟩
  · obtain ⟨shown, hshown, hend⟩ | ⟨_, -, rfl, rfl⟩ := runs_ask_bind hrecover
    · split at hend
      · next hpass =>
          obtain ⟨-, rfl⟩ := runs_pure hend
          obtain rfl := (Bool.and_eq_true_iff.mp hpass).2
          exact ⟨_, hw, fun _ => .inr (Tree.showsDirectory_iff.mp hshown)⟩
      · obtain ⟨rfl, rfl⟩ := runs_throw hend
        exact ⟨_, hw, nofun⟩
    · exact ⟨_, hw, nofun⟩

theorem ensures_orPresent {w : Work Unit} {r : Except DiskError Unit}
    (h : Runs (orPresent p w) t r t') (hw : ∀ r', Runs w t r' t' → Ensures p t r' t') :
    Ensures p t r t' := by
  obtain ⟨r', hrun, hok⟩ := runs_orPresent h
  have ensures := hw r' hrun
  exact ⟨ensures.grown, fun hr => (hok hr).elim ensures.stands id⟩

/-- The directories on the way are made from the outermost that is not there. -/
theorem runs_makeDirectories {absolute : Bool} {names : List String} {r : Except DiskError Unit}
    (h : Runs (makeDirectories absolute names) t r t') :
    Ensures ⟨absolute, names.reverse⟩ t r t' := by
  induction names generalizing t r t' with
  | nil => exact ensures_orPresent h fun r' => runs_makeDirectory
  | cons name before ih =>
      obtain ⟨_, rfl, hmade⟩ | ⟨e, t₁, hrefused, hrecover⟩ := runs_tryCatch h
      · exact runs_makeDirectory hmade
      · have grown := (runs_makeDirectory hrefused).grown
        split at hrecover
        · have hbefore {r₂ t₂} (hrun : Runs (makeDirectories absolute before) t₁ r₂ t₂) :
              Tree.Grown ⟨absolute, (name :: before).reverse⟩ t t₂ := by
            rw [List.reverse_cons] at grown ⊢
            exact grown.trans ((ih hrun).grown.concat name)
          obtain ⟨_, t₂, hrun, hmade⟩ | ⟨_, rfl, hrun⟩ := runs_bind hrecover
          · have ensures := ensures_orPresent hmade fun r' => runs_makeDirectory
            exact ⟨(hbefore hrun).trans ensures.grown, ensures.stands⟩
          · exact ⟨hbefore hrun, nofun⟩
        · obtain ⟨r', hthrow, hok⟩ := runs_orPresent hrecover
          obtain ⟨rfl, rfl⟩ := runs_throw hthrow
          exact ⟨grown, fun hr => (hok hr).resolve_left nofun⟩

theorem runs_ensureDirectory {r : Except DiskError Unit} (h : Runs (ensureDirectory p) t r t') :
    Ensures p t r t' := by
  have hmade {r₁ t₁} (hrun : Runs (makeDirectories p.absolute p.parts.reverse) t r₁ t₁) :
      Ensures p t r₁ t₁ := by
    have ensures := runs_makeDirectories hrun
    rwa [List.reverse_reverse] at ensures
  obtain ⟨_, t₁, hrun, hnote⟩ | ⟨e, rfl, hrun⟩ := runs_bind h
  · obtain ⟨rfl, rfl⟩ := runs_note hnote
    exact hmade hrun
  · exact ⟨(hmade hrun).grown, nofun⟩

theorem runs_removeFile {r : Except DiskError Unit} (h : Runs (removeFile p) t r t') :
    (∃ e, r = .error e ∧ t' = t) ∨
      r = .ok () ∧ (∃ b, t.find? p.place = some (.file b)) ∧ t' = t.erase p.place := by
  obtain h | h := runs_meet h
  swap
  · exact .inl h
  obtain ⟨-, h⟩ | h := runs_resolve h
  swap
  · exact .inl h
  obtain ⟨d, rfl, h⟩ := runs_get h
  split at h
  · next b hfile =>
      obtain ⟨rfl, rfl⟩ := runs_change h
      exact .inr ⟨rfl, ⟨b, hfile⟩, rfl⟩
  · exact .inl ⟨_, runs_throw h⟩
  · exact .inl ⟨_, runs_throw h⟩

/-- The text that is looked for is that of the file shown. -/
theorem runs_textThere {k : Option String → Work α} {r : Except DiskError α}
    (h : Runs (textThere? p >>= k) t r t') :
    (∃ node, t.look p = .ok node ∧
      Runs (k (node.bind fun | .file b => textOf? b | .directory => none)) t r t') ∨
      ∃ e, r = .error e ∧ t' = t := by
  unfold textThere? at h
  rw [bind_assoc] at h
  obtain ⟨node, hlook, h⟩ | ⟨e, -, hr, ht⟩ := runs_ask_bind h
  · refine .inl ⟨node, hlook, ?_⟩
    match node with
    | some (.file b) => exact h
    | some .directory => exact h
    | none => exact h
  · exact .inr ⟨e, hr, ht⟩

/-- The text of what is shown is that of the file that is there. -/
theorem text_shown {q : Place} {node : Option Node}
    (shown : ∀ b, node = some (.file b) ↔ t.find? q = some (.file b)) :
    (node.bind fun | .file b => textOf? b | .directory => none) = (t.content? q).bind textOf? := by
  refine Option.ext fun s => ?_
  rw [Option.bind_eq_some_iff, Option.bind_eq_some_iff]
  constructor
  · rintro ⟨_ | b, hnode, hs⟩
    · cases hs
    · exact ⟨b, Tree.content?_eq_some.mpr ((shown b).mp hnode), hs⟩
  · rintro ⟨b, hb, hs⟩
    exact ⟨.file b, (shown b).mpr (Tree.content?_eq_some.mp hb), hs⟩

/-- The text that a name in a directory shows. -/
theorem runs_textInside {out : Path} {name : String} {k : Option String → Work α}
    {r : Except DiskError α} (stands : t.Stands out) (hname : Path.IsName name)
    (clear : t.isFile (out.place ++ [name]) = true → '\x00' ∉ name.toList)
    (h : Runs (textThere? (out.child name) >>= k) t r t') :
    Runs (k ((t.content? (out.place ++ [name])).bind textOf?)) t r t' ∨
      ∃ e, r = .error e ∧ t' = t := by
  obtain ⟨node, hlook, h⟩ | h := runs_textThere h
  swap
  · exact .inr h
  rw [text_shown (stands.look_child hname clear hlook)] at h
  exact .inl h

section

variable {directory : Place} {name : String}

theorem le_foldl_max {β : Type} (f : β → Nat) (xs : List β) (n : Nat) :
    n ≤ xs.foldl (fun n x => max n (f x)) n ∧
      ∀ x ∈ xs, f x ≤ xs.foldl (fun n x => max n (f x)) n := by
  induction xs generalizing n with
  | nil => simp
  | cons x rest ih =>
      obtain ⟨hstart, hrest⟩ := ih (max n (f x))
      exact ⟨(Nat.le_max_left ..).trans hstart,
        List.forall_mem_cons.mpr ⟨(Nat.le_max_right ..).trans hstart, hrest⟩⟩

/-- A fresh name is longer than all names. -/
theorem find?_fresh (t : Tree) (directory : Place) (name : String) :
    t.find? (directory ++ [freshName t name]) = none := by
  have hlonger : t.nodes.foldl (fun n x => max n (x.1.getLast?.getD "").length) 0 + 5 ≤
      (freshName t name).length := by
    have hend : ".tmp".length = 4 := rfl
    simp only [freshName, String.length_append, Text.repeated, String.length_ofList,
      List.length_replicate]
    omega
  have hgiven : isGiven (directory ++ [freshName t name]) = false := by
    have hback : freshName t name ≠ ".." := by
      intro h
      rw [h, show "..".length = 2 from rfl] at hlonger
      omega
    have hroot : freshName t name ≠ "/" := by
      intro h
      rw [h, show "/".length = 1 from rfl] at hlonger
      omega
    simp [isGiven, hback, List.append_eq_singleton_iff, hroot]
  rw [Tree.find?, hgiven, if_neg Bool.false_ne_true, List.lookup_eq_none_iff]
  intro x hx
  refine bne_iff_ne.mpr fun hsame => ?_
  have hle := (le_foldl_max (fun x : Place × Node => (x.1.getLast?.getD "").length) t.nodes 0).2 x hx
  rw [← hsame, List.getLast?_concat, Option.getD_some] at hle
  omega

theorem runs_temporaryPlace {k : Place → Work α} {r : Except DiskError α}
    (h : Runs (temporaryPlace p >>= k) t r t') :
    (∃ place, t.find? place = none ∧ Runs (k place) t r t') ∨ ∃ e, r = .error e ∧ t' = t := by
  have hplace {r₁ t₁} (hrun : Runs (temporaryPlace p) t r₁ t₁) :
      (∃ place, t.find? place = none ∧ r₁ = .ok place ∧ t₁ = t) ∨ ∃ e, r₁ = .error e ∧ t₁ = t := by
    obtain hrun | hrun := runs_meet hrun
    swap
    · exact .inr hrun
    obtain ⟨-, hrun⟩ | hrun := runs_resolve hrun
    swap
    · exact .inr hrun
    dsimp only at hrun
    split at hrun
    · exact .inr (runs_throw_bind hrun)
    split at hrun
    · exact .inr (runs_throw_bind hrun)
    · obtain ⟨d, rfl, hrun⟩ := runs_get hrun
      exact .inl ⟨_, find?_fresh d.tree _ _, runs_pure hrun⟩
  obtain ⟨place, t₁, hrun, hk⟩ | ⟨e, rfl, hrun⟩ := runs_bind h
  · obtain ⟨_, hfresh, hsame, rfl⟩ | ⟨_, hsame, -⟩ := hplace hrun
    · cases hsame
      exact .inl ⟨place, hfresh, hk⟩
    · cases hsame
  · obtain ⟨_, -, hsame, -⟩ | ⟨_, -, rfl⟩ := hplace hrun
    · cases hsame
    · exact .inr ⟨e, rfl, rfl⟩

theorem runs_moveInto {temporary : Place} {content : ByteArray} {r : Except DiskError Unit}
    (h : Runs (moveInto temporary content p) t r t') :
    (∃ e, r = .error e ∧ t' = t) ∨ r = .ok () ∧ '\x00' ∉ p.text.toList ∧
      t.find? p.place ≠ some .directory ∧ t' = (t.erase temporary).put p.place (.file content) := by
  obtain h | h := runs_meet h
  swap
  · exact .inl h
  obtain ⟨d, rfl, h⟩ := runs_get h
  split at h
  · exact .inl ⟨_, runs_throw h⟩
  · next place hresolve =>
      obtain rfl := Tree.place_of_resolve hresolve
      have hclear := (Tree.resolve_eq_ok.mp hresolve).1
      split at h
      · exact .inl ⟨_, runs_throw h⟩
      obtain ⟨d', hsame, h⟩ := runs_get h
      split at h
      · exact .inl ⟨_, runs_throw h⟩
      · next hfile =>
          rw [hsame, Tree.isDirectory_iff] at hfile
          obtain ⟨rfl, rfl⟩ := runs_change h
          exact .inr ⟨rfl, hclear, hfile, rfl⟩

/-- Two trees are the same but for one place. -/
def SameBut (place : Place) (t t' : Tree) : Prop :=
  ∃ n, t'.find? = Function.update t.find? place n

theorem SameBut.put {place : Place} {t₁ : Tree} (same : SameBut place t t₁) (n : Node)
    (hgiven : isGiven place = false) : SameBut place t (t₁.put place n) := by
  obtain ⟨m, hm⟩ := same
  exact ⟨some n, by rw [Tree.find?_put n hgiven, hm, Function.update_idem]⟩

theorem SameBut.find?_erase {place : Place} {t₁ : Tree} (same : SameBut place t t₁)
    (hnone : t.find? place = none) : (t₁.erase place).find? = t.find? := by
  obtain ⟨m, hm⟩ := same
  rw [Tree.find?_erase (Tree.isGiven_eq_false (t := t) (by simp [hnone])), hm, Function.update_idem,
    ← hnone, Function.update_eq_self]

/-- While a file is written beside its place, only that one changes; in the end it is moved. -/
theorem runs_placing {temporary : Place} {content : ByteArray} {t₁ : Tree} {r : Except DiskError Unit}
    (fresh : t.find? temporary = none) (same : SameBut temporary t t₁)
    (h : Runs (do
      meet temporaryName
      change fun t => t.put temporary (.file content)
      meet temporaryName
      moveInto temporary content p) t₁ r t') :
    (∃ e, r = .error e) ∧ SameBut temporary t t' ∨ r = .ok () ∧ '\x00' ∉ p.text.toList ∧
      t.find? p.place ≠ some .directory ∧
        t'.find? = Function.update t.find? p.place (some (.file content)) := by
  have hgiven : isGiven temporary = false := Tree.isGiven_eq_false (t := t) (by simp [fresh])
  obtain h | ⟨e, hr, rfl⟩ := runs_meet h
  swap
  · exact .inl ⟨⟨e, hr⟩, same⟩
  have same' := same.put (.file content) hgiven
  obtain h | ⟨e, hr, rfl⟩ := runs_meet (runs_change_bind h)
  swap
  · exact .inl ⟨⟨e, hr⟩, same'⟩
  obtain ⟨e, hr, rfl⟩ | ⟨hr, hclear, hfile, rfl⟩ := runs_moveInto h
  · exact .inl ⟨⟨e, hr⟩, same'⟩
  · refine .inr ⟨hr, hclear, ?_, ?_⟩
    · obtain ⟨n, hn⟩ := same'
      by_cases hplace : p.place = temporary
      · simp [hplace, fresh]
      · rwa [hn, Function.update_of_ne hplace] at hfile
    · rw [Tree.find?_put _ (Tree.isGiven_eq_false hfile), same'.find?_erase fresh]

/-- The place, where no directory was, holds the bytes of a text, and all others what they held. -/
structure Written (place : Place) (text : String) (t t' : Tree) : Prop where
  whole : Text.loneHalves? text = none
  vacant : t.find? place ≠ some .directory
  find : t'.find? = Function.update t.find? place (some (.file text.toUTF8))

/-- Directories are made on the way to a file. Then it is written, or nothing changes. -/
theorem runs_writeFile {text : String} {r : Except DiskError Nat}
    (h : Runs (writeFile p text) t r t') :
    ∃ t₁, Tree.Grown p.parent t t₁ ∧ ((∃ e, r = .error e) ∧ t'.find? = t₁.find? ∨
      (∃ n, r = .ok n) ∧ '\x00' ∉ p.text.toList ∧ t₁.Stands p.parent ∧
        Written p.place text t₁ t') := by
  obtain ⟨_, t₁, hensure, h⟩ | ⟨e, rfl, hensure⟩ := runs_bind h
  swap
  · exact ⟨t', (runs_ensureDirectory hensure).grown, .inl ⟨⟨e, rfl⟩, rfl⟩⟩
  obtain ⟨grown, stands⟩ := runs_ensureDirectory hensure
  refine ⟨t₁, grown, ?_⟩
  split at h
  · obtain ⟨e, rfl, rfl⟩ := runs_throw_bind h
    exact .inl ⟨⟨e, rfl⟩, rfl⟩
  next hwhole =>
  obtain ⟨temporary, fresh, h⟩ | ⟨e, rfl, rfl⟩ := runs_temporaryPlace h
  swap
  · exact .inl ⟨⟨e, rfl⟩, rfl⟩
  have hgiven : isGiven temporary = false := Tree.isGiven_eq_false (t := t₁) (by simp [fresh])
  have same : SameBut temporary t₁ (t₁.put temporary (.file ByteArray.empty)) :=
    ⟨_, Tree.find?_put _ hgiven⟩
  obtain ⟨_, t₂, htry, hend⟩ | ⟨e, rfl, htry⟩ := runs_bind (runs_change_bind h)
  · replace hend := runs_note_bind hend
    obtain ⟨rfl, rfl⟩ := runs_pure hend
    obtain ⟨_, hr, hplacing⟩ | ⟨e, _, -, hrecover⟩ := runs_tryCatch htry
    · obtain ⟨⟨_, h⟩, -⟩ | ⟨-, hclear, hfile, hfind⟩ := runs_placing fresh same hplacing
      · cases h
      · exact .inr ⟨⟨_, rfl⟩, hclear, stands rfl, hwhole, hfile, hfind⟩
    · cases (runs_throw (runs_change_bind hrecover)).1
  · obtain ⟨_, h, -⟩ | ⟨e, t₂, hplacing, hrecover⟩ := runs_tryCatch htry
    · cases h
    · obtain ⟨-, same'⟩ | ⟨h, -⟩ := runs_placing fresh same hplacing
      · obtain ⟨-, rfl⟩ := runs_throw (runs_change_bind hrecover)
        exact .inl ⟨⟨_, rfl⟩, same'.find?_erase fresh⟩
      · cases h

/-- In a directory that is there, only the file changes. -/
theorem runs_writeInside {out : Path} {text : String} {r : Except DiskError Nat}
    (stands : t.Stands out) (hname : Path.IsName name)
    (h : Runs (writeFile (out.child name) text) t r t') :
    (∃ e, r = .error e) ∧ t'.find? = t.find? ∨
      (∃ n, r = .ok n) ∧ Written (out.place ++ [name]) text t t' := by
  obtain ⟨t₁, grown, hresult⟩ := runs_writeFile h
  rw [Path.parent_child out hname] at grown hresult
  rw [Path.place_child out hname] at hresult
  obtain ⟨hr, hsame⟩ | ⟨hr, -, -, written⟩ := hresult
  · exact .inl ⟨hr, hsame.trans (grown.same stands)⟩
  · have hsame := grown.same stands
    exact .inr ⟨hr, written.whole, hsame ▸ written.vacant, hsame ▸ written.find⟩

end

end TableLoom.Storage.Disk
