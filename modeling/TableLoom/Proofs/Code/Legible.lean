import TableLoom.Code.Module
import TableLoom.Proofs.Code.Imports
import TableLoom.Proofs.Text.Legible

/-!
A module whose parts are legible is written as a legible text. The predicates follow the parts of a
module, and each has one lemma on the lines that the part is written as.
-/

namespace TableLoom.Code

open Text (legible_append legible_comma legible_commas legible_join legible_ofList
  legible_sourceQuoted legible_toString)

def Binding.Legible (b : Binding) : Prop :=
  Text.Legible b.name ∧ Text.Legible b.type ∧ ∀ d ∈ b.default, Text.Legible d

@[simp]
def Literal.Legible : Literal → Prop
  | .text s | .source s => Text.Legible s
  | .tuple ss => ∀ s ∈ ss, Text.Legible s
  | .mapping entries => ∀ e ∈ entries, Text.Legible e.1 ∧ Text.Legible e.2
  | .listing opening closing items =>
    Text.Legible opening ∧ Text.Legible closing ∧ ∀ i ∈ items, Text.Legible i

@[simp]
def Assignment.Legible (a : Assignment) : Prop :=
  Text.Legible a.name ∧ (∀ t ∈ a.type, Text.Legible t) ∧ a.value.Legible

@[simp]
def Signature.Legible (s : Signature) : Prop :=
  (∀ n ∈ s.receiver, Text.Legible n) ∧ (∀ b ∈ s.positional, b.Legible) ∧
    (∀ b ∈ s.named, b.Legible) ∧ ∀ b ∈ s.others, b.Legible

@[simp]
def Function.Legible (f : Function) : Prop :=
  Text.Legible f.name ∧ f.signature.Legible ∧ Text.Legible f.result ∧
    (∀ d ∈ f.doc, Text.Legible d) ∧ ∀ l ∈ f.body, Text.Legible l.text

@[simp]
def Section.Legible : Section → Prop
  | .settings as => ∀ a ∈ as, a.Legible
  | .members bs => ∀ b ∈ bs, b.Legible
  | .method f => f.Legible

@[simp]
def RecordClass.Legible (c : RecordClass) : Prop :=
  Text.Legible c.name ∧ Text.Legible c.base ∧ Text.Legible c.doc ∧ ∀ s ∈ c.sections, s.Legible

@[simp]
def Item.Legible : Item → Prop
  | .constants as => ∀ a ∈ as, a.Legible
  | .table a => a.Legible
  | .record c => c.Legible
  | .function f => f.Legible

def Module.Legible (m : Module) : Prop :=
  Text.Legible m.title ∧ (∀ block ∈ m.imports, Text.Legible block) ∧ (∀ i ∈ m.items, i.Legible) ∧
    ∀ s ∈ m.siblings, Text.Legible s.module ∧ Text.Legible s.alias_

@[simp]
theorem Binding.legible_mk {name type : String} {default : Option String} :
    (⟨name, type, default⟩ : Binding).Legible ↔
      Text.Legible name ∧ Text.Legible type ∧ ∀ d ∈ default, Text.Legible d :=
  Iff.rfl

theorem Binding.legible_text {b : Binding} (h : b.Legible) : Text.Legible b.text := by
  obtain ⟨hname, htype, hdefault⟩ := h
  unfold Binding.text
  split
  · next d hd =>
      simp only [legible_append, legible_toString, hname, htype, hdefault d hd, true_and, and_true]
      and_intros <;> exact legible_ofList (by decide)
  · simp only [legible_append, legible_toString, hname, htype, true_and, and_true]
    exact legible_ofList (by decide)

theorem legible_textTuple {ss : List String} (h : ∀ s ∈ ss, Text.Legible s) :
    Text.Legible (textTuple ss) := by
  unfold textTuple
  split
  · simp only [legible_append, legible_sourceQuoted (h _ (List.mem_singleton_self _)), and_true]
    and_intros <;> exact legible_ofList (by decide)
  · have hjoin : Text.Legible (Text.join ", " (ss.map Text.sourceQuoted)) :=
      legible_commas fun s hs => legible_sourceQuoted (h s hs)
    simp only [legible_append, hjoin, and_true]
    and_intros <;> exact legible_ofList (by decide)

theorem Literal.legible_mappingText {entries : List (String × String)}
    (h : ∀ e ∈ entries, Text.Legible e.1 ∧ Text.Legible e.2) :
    Text.Legible (mappingText entries) := by
  have hentry : ∀ e ∈ entries, Text.Legible (Text.sourceQuoted e.1 ++ ": " ++ Text.sourceQuoted e.2) := by
    intro e he
    simp only [legible_append, legible_sourceQuoted (h e he).1, legible_sourceQuoted (h e he).2,
      true_and, and_true]
    exact legible_ofList (by decide)
  simp only [mappingText, legible_append]
  exact ⟨⟨legible_ofList (by decide), legible_commas hentry⟩, legible_ofList (by decide)⟩

theorem Literal.legible_lines {v : Literal} {head : String} (h : v.Legible)
    (hhead : Text.Legible head) : ∀ l ∈ v.lines head, Text.Legible l.text := by
  cases v with
  | text s => simpa [lines, hhead] using legible_sourceQuoted h
  | tuple ss => simpa [lines, hhead] using legible_textTuple h
  | mapping entries => simpa [lines, hhead] using legible_mappingText h
  | source s => simpa [lines, hhead] using show Text.Legible s from h
  | listing opening closing items =>
      obtain ⟨hopening, hclosing, hitems⟩ := h
      simp only [lines, List.cons_append, List.forall_mem_cons, List.forall_mem_append,
        List.forall_mem_map, legible_append, hhead, hopening, hclosing, true_and]
      exact ⟨fun i hi => ⟨hitems i hi, legible_ofList (by decide)⟩, by simp⟩

theorem Assignment.legible_lines {a : Assignment} (h : a.Legible) :
    ∀ l ∈ a.lines, Text.Legible l.text := by
  obtain ⟨hname, htype, hvalue⟩ := h
  unfold Assignment.lines
  split
  · next t ht =>
      refine Literal.legible_lines hvalue ?_
      simp only [legible_append, legible_toString, hname, htype t ht, true_and, and_true]
      and_intros <;> exact legible_ofList (by decide)
  · refine Literal.legible_lines hvalue ?_
    simp only [legible_append, legible_toString, hname, true_and]
    exact legible_ofList (by decide)

theorem legible_docLine {style : Style} {doc : Option String} (h : ∀ d ∈ doc, Text.Legible d) :
    ∀ l ∈ docLine style doc, Text.Legible l.text := by
  unfold docLine
  split
  · next d =>
      split
      · simp only [List.forall_mem_singleton, legible_append, h d rfl, and_true]
        and_intros <;> exact legible_ofList (by decide)
      · simp
  · simp

theorem Signature.legible_inlineTexts {s : Signature} (h : s.Legible) :
    ∀ p ∈ s.inlineTexts, Text.Legible p := by
  obtain ⟨hreceiver, hpositional, -, hothers⟩ := h
  simp only [inlineTexts, List.forall_mem_append, List.forall_mem_map, Option.mem_toList,
    legible_append]
  exact ⟨⟨hreceiver, fun b hb => Binding.legible_text (hpositional b hb)⟩,
    fun b hb => ⟨legible_ofList (by decide), Binding.legible_text (hothers b hb)⟩⟩

theorem Signature.legible_lines {s : Signature} {name result : String} (h : s.Legible)
    (hname : Text.Legible name) (hresult : Text.Legible result) :
    ∀ l ∈ s.lines name result, Text.Legible l.text := by
  have hinline := legible_inlineTexts h
  have hnamed : ∀ p ∈ s.inlineTexts ++ ["*"] ++ s.named.map Binding.text, Text.Legible p := by
    simp only [List.forall_mem_append, List.forall_mem_singleton, List.forall_mem_map]
    exact ⟨⟨hinline, legible_ofList (by decide)⟩, fun b hb => Binding.legible_text (h.2.2.1 b hb)⟩
  unfold Signature.lines
  split
  · simp only [List.forall_mem_singleton, legible_append, legible_toString, hname, hresult,
      legible_join legible_comma hinline, and_true]
    and_intros <;> exact legible_ofList (by decide)
  · rw [List.cons_append, List.forall_mem_cons, List.forall_mem_append, List.forall_mem_map,
      List.forall_mem_singleton]
    refine ⟨?_, fun p hp => ?_, ?_⟩
    · simp only [legible_append, legible_toString, hname, and_true]
      and_intros <;> exact legible_ofList (by decide)
    · rw [legible_append]
      exact ⟨hnamed p hp, legible_ofList (by decide)⟩
    · simp only [legible_append, legible_toString, hresult, and_true]
      and_intros <;> exact legible_ofList (by decide)

theorem Function.legible_lines {style : Style} {f : Function} (h : f.Legible) :
    ∀ l ∈ f.lines style, Text.Legible l.text := by
  obtain ⟨hname, hsignature, hresult, hdoc, hbody⟩ := h
  simp only [Function.lines, List.forall_mem_append, List.forall_mem_map, Line.deeper]
  refine ⟨⟨⟨?_, Signature.legible_lines hsignature hname hresult⟩, legible_docLine hdoc⟩, hbody⟩
  split
  · rw [List.forall_mem_singleton]
    exact legible_ofList (by decide)
  · simp

theorem Section.legible_lines {style : Style} {g : Section} (h : g.Legible) :
    ∀ l ∈ g.lines style, Text.Legible l.text := by
  cases g with
  | settings as =>
      simp only [lines, List.mem_flatMap, forall_exists_index, and_imp]
      exact fun l a ha hl => Assignment.legible_lines (h a ha) l hl
  | members bs =>
      simp only [lines, List.forall_mem_map]
      exact fun b hb => Binding.legible_text (h b hb)
  | method f => exact Function.legible_lines h

theorem RecordClass.legible_lines {style : Style} {c : RecordClass} (h : c.Legible) :
    ∀ l ∈ c.lines style, Text.Legible l.text := by
  obtain ⟨hname, hbase, hdoc, hsections⟩ := h
  rw [RecordClass.lines, List.cons_append, List.forall_mem_cons, List.forall_mem_append]
  refine ⟨?_, legible_docLine (by simpa using hdoc), ?_⟩
  · simp only [legible_append, legible_toString, hname, hbase, and_true]
    and_intros <;> exact legible_ofList (by decide)
  · intro l hl
    obtain ⟨g, hg, hl⟩ := List.mem_flatMap.mp hl
    rcases List.mem_cons.mp hl with rfl | hl
    · exact Text.legible_empty
    · obtain ⟨inner, hinner, rfl⟩ := List.mem_map.mp hl
      exact Section.legible_lines (hsections g hg) inner hinner

theorem Item.legible_lines {style : Style} {i : Item} (h : i.Legible) :
    ∀ l ∈ i.lines style, Text.Legible l.text := by
  cases i with
  | constants as =>
      simp only [lines, List.mem_flatMap, forall_exists_index, and_imp]
      exact fun l a ha hl => Assignment.legible_lines (h a ha) l hl
  | table a => exact Assignment.legible_lines h
  | record c => exact RecordClass.legible_lines h
  | function f => exact Function.legible_lines h

theorem legible_endLine {s : String} (h : Text.Legible s) : Text.Legible (endLine s) := by
  rw [endLine, legible_append]
  refine ⟨fun c hc => h c ?_, legible_ofList (by decide)⟩
  rw [String.toList_ofList, List.mem_reverse] at hc
  simpa using List.dropWhile_subset _ hc

theorem legible_titleLines {title : String} (h : Text.Legible title) :
    ∀ l ∈ titleLines title, Text.Legible l := by
  simp only [titleLines, List.forall_mem_cons, h, true_and]
  refine ⟨legible_ofList (by decide), legible_ofList (by decide), legible_ofList (by decide),
    legible_ofList (by decide), by simp⟩

theorem Module.legible_siblingLines {siblings : List Sibling}
    (h : ∀ s ∈ siblings, Text.Legible s.module ∧ Text.Legible s.alias_) :
    ∀ l ∈ siblingLines siblings, Text.Legible l := by
  unfold siblingLines
  split
  · simp
  · simp only [List.forall_mem_append, List.forall_mem_cons, List.forall_mem_map, legible_append,
      legible_toString]
    refine ⟨⟨legible_ofList (by decide), legible_ofList (by decide), by simp⟩, fun s hs => ?_⟩
    simp only [h s hs, and_true]
    and_intros <;> exact legible_ofList (by decide)

theorem Module.legible_text {style : Style} {m : Module} (h : m.Legible) :
    Text.Legible (m.text style) := by
  obtain ⟨htitle, himports, hitems, hsiblings⟩ := h
  refine legible_endLine (legible_join (legible_ofList (by decide)) ?_)
  simp only [Module.lines, List.forall_mem_append, List.forall_mem_singleton]
  refine ⟨⟨⟨⟨legible_titleLines htitle, legible_ofList (by decide)⟩, ?_⟩, ?_⟩,
    legible_siblingLines hsiblings⟩
  · intro l hl
    obtain ⟨block, hblock, hl⟩ := List.mem_flatMap.mp hl
    simp only [List.mem_cons, List.not_mem_nil, or_false] at hl
    rcases hl with rfl | rfl
    · exact Text.legible_empty
    · exact himports _ hblock
  · intro l hl
    obtain ⟨i, hi, hl⟩ := List.mem_flatMap.mp hl
    rcases List.mem_append.mp hl with hl | hl
    · exact List.eq_of_mem_replicate hl ▸ Text.legible_empty
    · obtain ⟨inner, hinner, rfl⟩ := List.mem_map.mp hl
      rw [Line.render, legible_append]
      exact ⟨Text.legible_repeated (by decide), Item.legible_lines (hitems i hi) inner hinner⟩

namespace Imports

def Legible (imports : Imports) : Prop :=
  ∀ e ∈ imports, Text.Legible e.1 ∧ ∀ n ∈ e.2, Text.Legible n

end Imports

end TableLoom.Code
