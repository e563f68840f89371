import TableLoom.Proofs.Query.Marked

/-!
Properties of statements that pass from the texts that callers supply to the statements made of them.
A texture says what may stand as a whole and what may stand behind plain text; every statement is
put together in ways that a texture allows, so what holds of the supplied texts holds of it.
-/

namespace TableLoom.Query

/-- Two properties of marks: `loose` is asked of supplied text, and `firm` says besides that the marks
can follow any others. -/
structure Texture where
  firm : List Mark → Prop
  loose : List Mark → Prop
  /-- What names a relation. -/
  label : List Char → Prop
  loose_of_firm : ∀ {xs}, firm xs → loose xs
  firm_nil : firm []
  firm_append : ∀ {xs ys}, firm xs → firm ys → firm (xs ++ ys)
  loose_append : ∀ {xs ys}, loose xs → firm ys → loose (xs ++ ys)
  glued : ∀ {cs xs}, isGlue cs = true → loose xs → firm (chars cs ++ xs)
  enclosed : ∀ {xs}, loose xs → firm (.char '(' :: xs ++ [.char ')'])
  loose_plain : ∀ {cs}, cs.all isPlain = true → loose (chars cs)
  loose_label : ∀ {cs}, label cs → loose (chars cs)
  quoted_label : ∀ {cs}, label cs → firm (chars ('"' :: cs ++ ['"']))
  quoted_list : firm (chars "'[]'".toList)

namespace Texture

variable (T : Texture)

theorem loose_nil : T.loose [] :=
  T.loose_of_firm T.firm_nil

theorem firm_glue {cs : List Char} (h : isGlue cs = true) : T.firm (chars cs) := by
  have hfirm := T.glued h T.loose_nil
  rwa [List.append_nil] at hfirm

theorem loose_glue {cs : List Char} (h : isGlue cs = true) : T.loose (chars cs) :=
  T.loose_of_firm (T.firm_glue h)

theorem firm_woven {parts : List (String × List Mark)}
    (all : ∀ p ∈ parts, isGlue p.1.toList = true ∧ T.loose p.2) :
    T.firm (parts.flatMap fun p => chars p.1.toList ++ p.2) := by
  induction parts with
  | nil => exact T.firm_nil
  | cons p rest ih =>
      obtain ⟨hglue, hloose⟩ := all p List.mem_cons_self
      have hrest := ih fun q hq => all q (List.mem_cons_of_mem p hq)
      rw [List.flatMap_cons]
      exact T.firm_append (T.glued hglue hloose) hrest

theorem firm_call {f x : List Char} {xs : List Mark} (hf : isGlue f = true)
    (hx : x.all isPlain = true) (hxs : T.firm xs) :
    T.firm (chars (f ++ '(' :: x ++ [')']) ++ xs) := by
  have hcall := T.glued hf (T.loose_of_firm (T.enclosed (T.loose_plain hx)))
  simpa using T.firm_append hcall hxs

theorem loose_glued {xs ys : List Mark} {cs : List Char} (hx : T.loose xs) (h : isGlue cs = true)
    (hy : T.loose ys) : T.loose (xs ++ chars cs ++ ys) := by
  rw [List.append_assoc]
  exact T.loose_append hx (T.glued h hy)

theorem loose_joined {sep : String} (h : isGlue sep.toList = true) {pss : List (List Piece)}
    (all : ∀ ps ∈ pss, T.loose (marks ps)) : T.loose (marks (joined [.text sep] pss)) := by
  induction pss with
  | nil => exact T.loose_nil
  | cons ps rest ih =>
      cases rest with
      | nil => exact all ps List.mem_cons_self
      | cons qs rest =>
          have hrest := ih fun rs hrs => all rs (List.mem_cons_of_mem ps hrs)
          have htext := T.loose_glued (all ps List.mem_cons_self) h hrest
          simpa [joined] using htext

theorem loose_join {sep : String} (h : isGlue sep.toList = true) {ss : List String}
    (all : ∀ s ∈ ss, T.loose (chars s.toList)) : T.loose (chars (Text.join sep ss).toList) := by
  induction ss with
  | nil => exact T.loose_nil
  | cons s rest ih =>
      cases rest with
      | nil => simpa [Text.join] using all s List.mem_cons_self
      | cons t rest =>
          have hrest := ih fun r hr => all r (List.mem_cons_of_mem s hr)
          have htext := T.loose_glued (all s List.mem_cons_self) h hrest
          rw [Text.join_cons]
          simpa using htext

/-- How embedded queries are written keeps to the texture. -/
def Writes (write : Nat → Except Fault (List Piece)) : Prop :=
  ∀ id ps, write id = .ok ps → T.loose (marks ps)

/-- A phrase keeps to the texture wherever it is written. -/
def Takes (p : Phrase) : Prop :=
  ∀ write, T.Writes write → ∀ ps, expand write p = .ok ps → T.loose (marks ps)

end Texture

theorem expand_text {write : Nat → Except Fault (List Piece)} {s : String} {p : Phrase}
    {ps : List Piece} (h : expand write (.text s :: p) = .ok ps) :
    ∃ qs, expand write p = .ok qs ∧ ps = .text s :: qs := by
  obtain ⟨qs, hqs, heq⟩ := bind_ok h
  exact ⟨qs, hqs, (Except.ok.inj heq).symm⟩

theorem expand_query {write : Nat → Except Fault (List Piece)} {id : Nat} {p : Phrase}
    {ps : List Piece} (h : expand write (.query id :: p) = .ok ps) :
    ∃ inner qs, write id = .ok inner ∧ expand write p = .ok qs ∧ ps = inner ++ qs := by
  obtain ⟨inner, hinner, hrest⟩ := bind_ok h
  obtain ⟨qs, hqs, heq⟩ := bind_ok hrest
  exact ⟨inner, qs, hinner, hqs, (Except.ok.inj heq).symm⟩

theorem expand_append {write : Nat → Except Fault (List Piece)} {p q : Phrase} {ps : List Piece}
    (h : expand write (p ++ q) = .ok ps) :
    ∃ as bs, expand write p = .ok as ∧ expand write q = .ok bs ∧ ps = as ++ bs := by
  induction p generalizing ps with
  | nil => exact ⟨[], ps, rfl, h, rfl⟩
  | cons part p ih =>
      cases part with
      | text s =>
          obtain ⟨qs, hqs, rfl⟩ := expand_text h
          obtain ⟨as, bs, has, hbs, rfl⟩ := ih hqs
          exact ⟨.text s :: as, bs, by rw [expand, has]; rfl, hbs, rfl⟩
      | slot v =>
          obtain ⟨qs, hqs, heq⟩ := bind_ok h
          obtain rfl := Except.ok.inj heq
          obtain ⟨as, bs, has, hbs, rfl⟩ := ih hqs
          exact ⟨.slot v :: as, bs, by rw [expand, has]; rfl, hbs, rfl⟩
      | query id =>
          obtain ⟨inner, qs, hinner, hqs, rfl⟩ := expand_query h
          obtain ⟨as, bs, has, hbs, rfl⟩ := ih hqs
          refine ⟨inner ++ as, bs, ?_, hbs, (List.append_assoc inner as bs).symm⟩
          rw [expand, hinner, has]
          rfl
      | unwritable => cases h

namespace Texture

variable (T : Texture)

theorem takes_reads {m : Marked} {p : Phrase} (reads : m.Reads p) (h : T.loose m.marks) :
    T.Takes p := by
  intro write _ ps hps
  obtain ⟨qs, hqs, hmarks⟩ := expand_flat write reads.flat
  rw [hps] at hqs
  rw [Except.ok.inj hqs, hmarks, reads.same]
  exact h

theorem takes_unwritable : T.Takes [.unwritable] := by
  intro write _ ps hps
  cases hps

theorem takes_text {s : String} (h : T.loose (chars s.toList)) : T.Takes [.text s] := by
  intro write _ ps hps
  obtain ⟨qs, hqs, rfl⟩ := expand_text hps
  obtain rfl := Except.ok.inj hqs
  simpa using h

theorem takes_embedded {s : String} (h : isGlue s.toList = true) (query : Option Nat) :
    T.Takes [.text (s ++ " ("), embed query, .text ")"] := by
  intro write writes ps hps
  obtain ⟨qs, hqs, rfl⟩ := expand_text hps
  cases query with
  | none => cases hqs
  | some id =>
      obtain ⟨inner, rest, hinner, hrest, rfl⟩ := expand_query hqs
      obtain rfl := Except.ok.inj hrest
      have hglue : isGlue (s.toList ++ [' ']) = true := glue_append h (by decide)
      have hfirm := T.glued hglue (T.loose_of_firm (T.enclosed (writes id inner hinner)))
      simpa using T.loose_of_firm hfirm

end Texture

end TableLoom.Query
