import TableLoom.Proofs.Schema.Intake
import TableLoom.Proofs.Schema.Sweep
import TableLoom.Proofs.Storage.Without

/-!
One file beside the others. Every file that is text within the limits of its format is taken in once,
and what the tables hold that no erring file names is what they hold without the erring files. A file
that is no such text ends the reading of all.
-/

namespace TableLoom.Schema

open Storage (Path Place Tree)

/-- A file of fragments: it is not hidden, and its name tells one of the formats. -/
structure IsFragmentFile (t : Tree) (directory : Path) (name : String) : Prop where
  file : t.isFile (directory.place ++ [name]) = true
  shown : name.toList.head? ≠ some '.'
  suffix : Path.lowerSuffix ⟨false, [name]⟩ ∈ fragmentSuffixes

/-- The bytes of a file are text, and the text is within the limits of its format. -/
def InBounds (t : Tree) (p : Path) : Prop :=
  ∃ bytes text parsed, t.readBytes p = .ok bytes ∧ Storage.textOf? bytes = some text ∧
    parseFile (isYaml p) text = .ok parsed

/-- Whether a file holds a fragment. -/
def holdsFragment (t : Tree) (directory : Path) (name : String) : Bool :=
  match arrival t directory name with
  | .ok a => a.isOk
  | .error _ => false

section

variable {t : Tree} {directory : Path} {name : String} {names : List String}

theorem holdsFragment_of_arrival {a : Arrival} (arrived : arrival t directory name = .ok a) :
    holdsFragment t directory name = a.isOk := by
  unfold holdsFragment
  simp only [arrived]

theorem arrived_of_holdsFragment (h : holdsFragment t directory name = true) :
    ∃ a, arrival t directory name = .ok a := by
  unfold holdsFragment at h
  split at h
  · next a ha => exact ⟨a, ha⟩
  · cases h

theorem discover_ok (found : discover t directory = .ok names) :
    t.showsDirectory directory = .ok true ∧
      names = (t.names directory.place).filter fun name =>
        t.isFile (directory.place ++ [name]) && name.toList.head? != some '.'
          && fragmentSuffixes.contains (Path.lowerSuffix ⟨false, [name]⟩) := by
  unfold discover at found
  split at found
  · cases found
  · cases found
  · next h => exact ⟨h, (Except.ok.inj found).symm⟩

theorem mem_discover (found : discover t directory = .ok names) :
    name ∈ names ↔ IsFragmentFile t directory name := by
  rw [(discover_ok found).2, List.mem_filter]
  simp only [Bool.and_eq_true, bne_iff_ne, List.contains_iff_mem]
  exact ⟨fun h => ⟨h.2.1.1, h.2.1.2, h.2.2⟩, fun h => ⟨Tree.mem_names h.file, ⟨h.file, h.shown⟩, h.suffix⟩⟩

theorem IsFragmentFile.isName (h : IsFragmentFile t directory name) (plain : '/' ∉ name.toList) :
    Path.IsName name where
  slash := plain
  nonempty := by
    rintro rfl
    exact absurd h.suffix (by decide)
  here := by
    rintro rfl
    exact h.shown rfl
  back := by
    rintro rfl
    exact h.shown rfl

theorem arrival_ok_iff :
    (∃ a, arrival t directory name = .ok a) ↔ InBounds t (directory.child name) := by
  unfold arrival loadFile InBounds
  cases t.readBytes (directory.child name) with
  | error e => simp [Except.mapError, bind, Except.bind]
  | ok bytes =>
      cases htext : Storage.textOf? bytes with
      | none => simp [Except.mapError, bind, Except.bind, htext]
      | some text =>
          cases hparsed : parseFile (isYaml (directory.child name)) text with
          | error f => simp [Except.mapError, bind, Except.bind, htext, hparsed]
          | ok parsed => cases parsed <;> simp [Except.mapError, bind, Except.bind, htext, hparsed]

theorem source?_of_arrival (h : Path.IsName name) {a : Arrival}
    (arrived : arrival t directory name = .ok a) : a.source? = some name := by
  unfold arrival at arrived
  split at arrived
  · next data hdata =>
      obtain rfl := Except.ok.inj arrived
      unfold parseFragment
      split <;> rfl
  · next e he =>
      obtain rfl := Except.ok.inj arrived
      unfold loadFile at he
      cases hbytes : t.readBytes (directory.child name) with
      | error trouble => simp [hbytes, Except.mapError, bind, Except.bind] at he
      | ok bytes =>
          simp only [hbytes, Except.mapError, bind, Except.bind] at he
          split at he
          · cases he
          · split at he
            · cases he
            · cases he
              exact congrArg some (Path.name_child directory h)
            · cases he
  · cases arrived

/-- The places of the files that hold no fragment. -/
def erring (t : Tree) (directory : Path) (names : List String) : List Place :=
  (names.filter fun name => !holdsFragment t directory name).map (directory.place ++ [·])

theorem mem_erring {p : Place} :
    p ∈ erring t directory names ↔
      ∃ name ∈ names, holdsFragment t directory name = false ∧ directory.place ++ [name] = p := by
  simp only [erring, List.mem_map, List.mem_filter, Bool.not_eq_true', and_assoc]

theorem concat_mem_erring :
    directory.place ++ [name] ∈ erring t directory names ↔
      name ∈ names ∧ holdsFragment t directory name = false := by
  rw [mem_erring]
  constructor
  · rintro ⟨other, hother, hholds, heq⟩
    rw [List.append_cancel_left_eq, List.singleton_inj] at heq
    exact heq ▸ ⟨hother, hholds⟩
  · exact fun h => ⟨name, h.1, h.2, rfl⟩

theorem files_erring (found : discover t directory = .ok names) :
    ∀ p ∈ erring t directory names, t.isFile p = true := by
  intro p hp
  obtain ⟨name, hname, _, rfl⟩ := mem_erring.mp hp
  exact ((mem_discover found).mp hname).file

theorem discover_without (found : discover t directory = .ok names) :
    discover (t.without (erring t directory names)) directory =
      .ok (names.filter (holdsFragment t directory)) := by
  obtain ⟨hshown, hnames⟩ := discover_ok found
  unfold discover
  rw [Tree.showsDirectory_without (files_erring found) hshown]
  simp only
  rw [Tree.names_without, List.filter_filter]
  conv => rhs; rw [hnames, List.filter_filter]
  refine congrArg Except.ok (List.filter_congr fun name hname => ?_)
  by_cases hgone : directory.place ++ [name] ∈ erring t directory names
  · rw [(concat_mem_erring.mp hgone).2, List.contains_iff_mem.mpr hgone]
    simp
  · have hstays : (erring t directory names).contains (directory.place ++ [name]) = false := by
      rwa [← Bool.not_eq_true, List.contains_iff_mem]
    rw [Tree.isFile_without hgone, hstays, Bool.not_false, Bool.and_true]
    cases hcounts : t.isFile (directory.place ++ [name]) && name.toList.head? != some '.'
        && fragmentSuffixes.contains (Path.lowerSuffix ⟨false, [name]⟩) with
    | false => rw [Bool.and_false]
    | true =>
        have hmem : name ∈ names := by
          rw [hnames, List.mem_filter]
          exact ⟨hname, hcounts⟩
        cases hholds : holdsFragment t directory name with
        | true => rfl
        | false => exact absurd (concat_mem_erring.mpr ⟨hmem, hholds⟩) hgone

/-- What stays is read as it was. -/
theorem arrival_without (found : discover t directory = .ok names) (hname : Path.IsName name)
    (holds : holdsFragment t directory name = true) :
    arrival (t.without (erring t directory names)) directory name = arrival t directory name := by
  obtain ⟨bytes, _, _, hbytes, _⟩ := arrival_ok_iff.mp (arrived_of_holdsFragment holds)
  have hstays : (directory.child name).place ∉ erring t directory names := by
    rw [Path.place_child directory hname, concat_mem_erring, holds]
    simp
  unfold arrival loadFile
  rw [Tree.readBytes_without (files_erring found) hbytes hstays, hbytes]

end

namespace Registry

/-- What a registry says of the files of a directory: each is taken in once, under its name, and stands
with the table that it names or beside all tables. -/
structure Accounts (t : Tree) (directory : Path) (names : List String) (r : Registry) : Prop where
  once : ∃ arrivals, List.Forall₂ (fun name a => arrival t directory name = .ok a ∧
    a.source? = some name) names arrivals ∧ r.contributions.Perm arrivals
  housed : r.Housed

variable {t : Tree} {directory : Path} {names : List String}

theorem ofDirectory_ok (found : discover t directory = .ok names) {r : Registry} :
    ofDirectory t directory = .ok r ↔
      ∃ arrivals, names.mapM (arrival t directory) = .ok arrivals ∧ r = ofArrivals arrivals := by
  unfold ofDirectory
  rw [found]
  cases h : names.mapM (arrival t directory) with
  | error e => simp [bind, Except.bind, h]
  | ok arrivals => simp [bind, Except.bind, pure, Except.pure, h, eq_comm]

/-- Of a directory, every file that counts is taken in once, and the directory is read if each of them
is text in bounds. Without the files that hold no fragment it is read whatever they hold, and the
tables that none of them names have the same entries. -/
theorem directory_accounts (proper : t.Proper) (found : discover t directory = .ok names) :
    (names.Nodup ∧ ∀ name, name ∈ names ↔ IsFragmentFile t directory name) ∧
    ((∃ r, ofDirectory t directory = .ok r) ↔ ∀ name ∈ names, InBounds t (directory.child name)) ∧
    ∃ r', ofDirectory (t.without (erring t directory names)) directory = .ok r' ∧
      ∀ r, ofDirectory t directory = .ok r → r.Accounts t directory names ∧
        ∀ table, (∀ name ∈ names, ∀ e, arrival t directory name = .ok (.error e) →
            Arrival.table? (.error e) ≠ some table) →
          entry? r table = entry? r' table := by
  have hname : ∀ name ∈ names, Path.IsName name := by
    intro name hmem
    have hcounts := (mem_discover found).mp hmem
    exact hcounts.isName (proper.plain _ (Tree.mem_places hcounts.file) name (by simp))
  have hwithout := discover_without found
  have hsame : ∀ name ∈ names, holdsFragment t directory name = true →
      arrival (t.without (erring t directory names)) directory name = arrival t directory name :=
    fun name hmem holds => arrival_without found (hname name hmem) holds
  refine ⟨⟨?_, fun _ => mem_discover found⟩, ?_, ?_⟩
  · rw [(discover_ok found).2]
    exact (Tree.nodup_names proper directory.place).filter _
  · simp only [ofDirectory_ok found, ← arrival_ok_iff, ← exists_mapM_eq_ok]
    exact ⟨fun ⟨_, arrivals, h, _⟩ => ⟨arrivals, h⟩, fun ⟨arrivals, h⟩ => ⟨_, arrivals, h, rfl⟩⟩
  · obtain ⟨kept, hkept⟩ : ∃ kept, (names.filter (holdsFragment t directory)).mapM
        (arrival (t.without (erring t directory names)) directory) = .ok kept := by
      rw [exists_mapM_eq_ok]
      intro name hmem
      obtain ⟨hmem, hholds⟩ := List.mem_filter.mp hmem
      rw [hsame name hmem hholds]
      exact arrived_of_holdsFragment hholds
    refine ⟨ofArrivals kept, (ofDirectory_ok hwithout).mpr ⟨kept, hkept, rfl⟩, fun r hr => ?_⟩
    obtain ⟨arrivals, harrivals, rfl⟩ := (ofDirectory_ok found).mp hr
    refine ⟨⟨⟨arrivals, ?_, contributions_ofArrivals arrivals⟩, housed_ofArrivals arrivals⟩, ?_⟩
    · have hnamed := (List.forall₂_and_left _ _).mpr ⟨hname, mapM_eq_ok.mp harrivals⟩
      exact hnamed.imp fun name a h => ⟨h.2, source?_of_arrival h.1 h.2⟩
    · intro table hnone
      have hfilter : kept = arrivals.filter (·.isOk) := by
        refine Except.ok.inj (hkept.symm.trans (mapM_filter harrivals fun name hmem a ha => ?_))
        exact ⟨holdsFragment_of_arrival ha, fun hholds => (hsame name hmem hholds).trans ha⟩
      rw [hfilter]
      refine (entry?_ofArrivals_filter arrivals fun a ha hnamed => ?_).symm
      cases a with
      | ok f => rfl
      | error e =>
          obtain ⟨name, hmem, harrived⟩ := exists_left_of_paired (mapM_eq_ok.mp harrivals) ha
          exact absurd hnamed (hnone name hmem e harrived)

/-- Two files in a directory, of which one describes users. -/
def usersBeside (other : ByteArray) : Tree :=
  { nodes := [(["schemas"], .directory),
      (["schemas", "a.json"], .file "\x7b\"table_name\": \"users\"\x7d".toUTF8),
      (["schemas", "b.json"], .file other)] }

theorem proper_usersBeside (other : ByteArray) : (usersBeside other).Proper where
  distinct := by
    change ([["schemas"], ["schemas", "a.json"], ["schemas", "b.json"]] : List Place).Nodup
    decide
  plain := by
    change ∀ p ∈ ([["schemas"], ["schemas", "a.json"], ["schemas", "b.json"]] : List Place), _
    decide

theorem discover_usersBeside (other : ByteArray) :
    discover (usersBeside other) ⟨false, ["schemas"]⟩ = .ok ["a.json", "b.json"] := by
  have hnames : (usersBeside other).names ["schemas"] = ["a.json", "b.json"] := by
    rw [Tree.names_eq]
    change List.mergeSort ["a.json", "b.json"] _ = _
    exact List.mergeSort_of_pairwise (by decide)
  unfold discover
  rw [show (usersBeside other).showsDirectory ⟨false, ["schemas"]⟩ = .ok true from rfl]
  simp only
  rw [show Path.place ⟨false, ["schemas"]⟩ = ["schemas"] from rfl, hnames]
  rfl

/-- A text that breaks off is one error, and the directory is read with it as without it. -/
theorem directory_accounts_brokenOff :
    ∃ r r', ofDirectory (usersBeside ⟨#[0x7b]⟩) ⟨false, ["schemas"]⟩ = .ok r ∧
      r.Accounts (usersBeside ⟨#[0x7b]⟩) ⟨false, ["schemas"]⟩ ["a.json", "b.json"] ∧
      ofDirectory ((usersBeside ⟨#[0x7b]⟩).without
        (erring (usersBeside ⟨#[0x7b]⟩) ⟨false, ["schemas"]⟩ ["a.json", "b.json"]))
        ⟨false, ["schemas"]⟩ = .ok r' := by
  obtain ⟨_, hread, r', hr', haccounts⟩ :=
    directory_accounts (proper_usersBeside ⟨#[0x7b]⟩) (discover_usersBeside ⟨#[0x7b]⟩)
  have harrives : ∀ name ∈ ["a.json", "b.json"],
      (arrival (usersBeside ⟨#[0x7b]⟩) ⟨false, ["schemas"]⟩ name).isOk = true := by
    decide +kernel
  have hbounds : ∀ name ∈ ["a.json", "b.json"],
      InBounds (usersBeside ⟨#[0x7b]⟩) (Path.child ⟨false, ["schemas"]⟩ name) := by
    intro name hmem
    have hok := harrives name hmem
    rw [← arrival_ok_iff]
    cases h : arrival (usersBeside ⟨#[0x7b]⟩) ⟨false, ["schemas"]⟩ name with
    | ok a => exact ⟨a, rfl⟩
    | error e => rw [h] at hok; cases hok
  obtain ⟨r, hr⟩ := hread.mpr hbounds
  exact ⟨r, r', hr, (haccounts r hr).1, hr'⟩

/-- Bytes that are no text end the reading of the file beside them. -/
theorem undecodable_ends_all :
    discover (usersBeside ⟨#[0xff]⟩) ⟨false, ["schemas"]⟩ = .ok ["a.json", "b.json"] ∧
      ¬ ∃ r, ofDirectory (usersBeside ⟨#[0xff]⟩) ⟨false, ["schemas"]⟩ = .ok r := by
  have found := discover_usersBeside ⟨#[0xff]⟩
  refine ⟨found, fun ⟨r, hr⟩ => ?_⟩
  obtain ⟨arrivals, harrivals, _⟩ := (ofDirectory_ok found).mp hr
  obtain ⟨_, text, _, hbytes, htext, _⟩ :=
    arrival_ok_iff.mp (exists_mapM_eq_ok.mp ⟨arrivals, harrivals⟩ "b.json" (by simp))
  obtain rfl := Except.ok.inj hbytes
  rw [show Storage.textOf? ⟨#[0xff]⟩ = none by decide +kernel] at htext
  cases htext

end Registry

end TableLoom.Schema
