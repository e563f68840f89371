import Mathlib.Tactic.Tauto
import TableLoom.Code.Import

/-!
What collected imports ask for: they ask for all that was added or merged and for nothing else, and adding
and merging keeps what holds of every module and the names asked of it.
-/

namespace TableLoom.Code.Imports

theorem mem_addNames {names : List String} {n : String} {acc : List String} :
    n ∈ names.foldl (fun acc n => addName n acc) acc ↔ n ∈ acc ∨ n ∈ names := by
  induction names generalizing acc with
  | nil => simp
  | cons first rest ih =>
      rw [List.foldl_cons, ih, List.mem_cons, ← or_assoc]
      refine or_congr_left ?_
      unfold addName
      split
      · next hthere =>
          exact ⟨.inl, fun h => h.elim id fun heq => heq ▸ List.contains_iff_mem.mp hthere⟩
      · rw [List.mem_append, List.mem_singleton]

/-- The name is asked of the module. -/
def Gives (imports : Imports) (module name : String) : Prop :=
  ∃ e ∈ imports, e.1 = module ∧ name ∈ e.2

section

variable {module name : String}

theorem gives_nil : ¬ Gives [] module name := by
  simp [Gives]

theorem gives_cons {e : String × List String} {imports : Imports} :
    Gives (e :: imports) module name ↔ e.1 = module ∧ name ∈ e.2 ∨ imports.Gives module name := by
  simp [Gives]

theorem gives_addAll {imports : Imports} {asked : String} {names : List String} :
    (imports.addAll asked names).Gives module name ↔
      imports.Gives module name ∨ asked = module ∧ name ∈ names := by
  induction imports with
  | nil => simp [addAll, gives_cons, gives_nil, mem_addNames]
  | cons first rest ih =>
      unfold addAll
      split
      · next heq =>
          have hasked : first.1 = asked := beq_iff_eq.mp heq
          simp only [gives_cons, mem_addNames, hasked]
          tauto
      · simp only [gives_cons, ih]
        tauto

/-- What is collected step by step is what was there at first and what each step adds. -/
theorem gives_foldl {α : Type} {step : Imports → α → Imports} {adds : α → Prop}
    (hstep : ∀ acc a, (step acc a).Gives module name ↔ acc.Gives module name ∨ adds a)
    (as : List α) (start : Imports) :
    (as.foldl step start).Gives module name ↔ start.Gives module name ∨ ∃ a ∈ as, adds a := by
  induction as generalizing start with
  | nil => simp
  | cons a rest ih => simp [ih, hstep, or_assoc]

theorem gives_merge {a b : Imports} :
    (a.merge b).Gives module name ↔ a.Gives module name ∨ b.Gives module name := by
  refine gives_foldl (fun _ _ => ?_) b a
  exact gives_addAll

theorem gives_mergeAll {all : List Imports} :
    (mergeAll all).Gives module name ↔ ∃ i ∈ all, i.Gives module name := by
  refine (gives_foldl (fun _ _ => ?_) all []).trans (or_iff_right gives_nil)
  exact gives_merge

/-- A block of import lines has one that imports the name from the module. -/
def Brings (block module name : String) : Prop :=
  ∃ lines names, block = Text.join "\n" lines ∧
    s!"from {module} import " ++ Text.join ", " names ∈ lines ∧ name ∈ names

theorem brings_block {imports : Imports} (h : imports.Gives module name) :
    Brings imports.block module name := by
  obtain ⟨e, he, rfl, hname⟩ := h
  have hline : line e = s!"from {e.1} import " ++ Text.join ", " (sorted e.2) :=
    if_neg (by simpa using List.ne_nil_of_mem hname)
  refine ⟨_, sorted e.2, rfl, ?_, List.mem_mergeSort.mpr hname⟩
  rw [← hline]
  exact List.mem_map_of_mem (List.mem_mergeSort.mpr he)

end

/-- What holds of every module and the names asked of it. -/
def Each (p : String → List String → Prop) (imports : Imports) : Prop :=
  ∀ e ∈ imports, p e.1 e.2

/-- More names may be asked of a module. -/
def Extends (p : String → List String → Prop) : Prop :=
  ∀ module names more, p module more → names = [] ∨ p module names →
    p module (more.foldl (fun acc n => addName n acc) names)

section

variable {p : String → List String → Prop} (closed : Extends p)

include closed

theorem each_addAll {imports : Imports} {module : String} {names : List String}
    (h : imports.Each p) (new : p module names) : (imports.addAll module names).Each p := by
  induction imports with
  | nil =>
      intro e he
      rw [List.mem_singleton.mp he]
      exact closed module [] names new (.inl rfl)
  | cons first rest ih =>
      obtain ⟨hfirst, hrest⟩ := List.forall_mem_cons.mp h
      unfold addAll
      split
      · next heq =>
          have hmodule : first.1 = module := beq_iff_eq.mp heq
          exact List.forall_mem_cons.mpr
            ⟨closed first.1 first.2 names (hmodule ▸ new) (.inr hfirst), hrest⟩
      · exact List.forall_mem_cons.mpr ⟨hfirst, ih hrest⟩

theorem each_merge {a b : Imports} (ha : a.Each p) (hb : b.Each p) : (a.merge b).Each p :=
  List.foldlRecOn (motive := Each p) b _ ha fun _ hacc e he => each_addAll closed hacc (hb e he)

theorem each_mergeAll {all : List Imports} (h : ∀ i ∈ all, i.Each p) : (mergeAll all).Each p :=
  List.foldlRecOn (motive := Each p) all merge (fun _ he => absurd he (by simp))
    fun _ hacc i hi => each_merge closed hacc (h i hi)

end

end TableLoom.Code.Imports
