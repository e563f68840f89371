import TableLoom.Proofs.Code.Template
import TableLoom.Proofs.Traversal

/-!
What the lines of emitted definitions read is bound around them or is among given names, if that is so of the
types, the values and the bodies that the definitions are made of.
-/

namespace TableLoom.Code

open Text (IsName isIdentifier isNameRest isNameStart_of_isIdentifier readTokens pending)

/-- A text of the characters of names and of line breaks. -/
def Wordy : String → Prop :=
  Text.Each fun c => isNameRest c = true ∨ c = '\n'

/-- A text without quotes and backslashes. -/
def Unquoted : String → Prop :=
  Text.Each fun c => c ≠ '"' ∧ c ≠ '\\'

instance (s : String) : Decidable (Unquoted s) :=
  List.decidableBAll (fun c => c ≠ '"' ∧ c ≠ '\\') s.toList

theorem Unquoted.append {s t : String} (hs : Unquoted s) (ht : Unquoted t) : Unquoted (s ++ t) :=
  Text.each_append.mpr ⟨hs, ht⟩

namespace Wordy

theorem of_isIdentifier {s : String} (h : isIdentifier s = true) : Wordy s :=
  fun c hc => (Text.mem_dropLineEnd hc).imp_left (Text.isNameRest_of_isNameChars h c)

theorem append {s t : String} (hs : Wordy s) (ht : Wordy t) : Wordy (s ++ t) :=
  Text.each_append.mpr ⟨hs, ht⟩

variable {s : String} (h : Wordy s)

include h

theorem unquoted : Unquoted s := by
  intro c hc
  rcases h c hc with hname | rfl
  · refine ⟨?_, ?_⟩ <;> rintro rfl <;> exact absurd hname (by decide)
  · decide

theorem quote_notMem : '"' ∉ s.toList :=
  fun hmem => (h.unquoted _ hmem).1 rfl

theorem closed : Closed s :=
  (hollow_unquoted h.quote_notMem).2

theorem words_eq : words s = (Text.tokens s).filter (· != "\n") := by
  rw [words, (hollow_unquoted h.quote_notMem).1]
  rfl

end Wordy

/-- What is read of names and line breaks are these. -/
theorem mem_readTokens {word cs : List Char} (hword : ∀ c ∈ word, isNameRest c = true)
    (hcs : ∀ c ∈ cs, isNameRest c = true ∨ c = '\n') :
    ∀ t ∈ readTokens word cs, t = "\n" ∨ ∀ c ∈ t.toList, isNameRest c = true := by
  have hpending (word : List Char) (hword : ∀ c ∈ word, isNameRest c = true) :
      ∀ t ∈ pending word, ∀ c ∈ t.toList, isNameRest c = true := by
    intro t ht
    unfold pending at ht
    split at ht
    · cases ht
    · rwa [List.mem_singleton.mp ht, String.toList_ofList]
  induction cs generalizing word with
  | nil => exact fun t ht => .inr (hpending word hword t ht)
  | cons c cs ih =>
      obtain ⟨hc, hrest⟩ := List.forall_mem_cons.mp hcs
      intro t ht
      rw [readTokens] at ht
      split at ht
      · next hname =>
          refine ih ?_ hrest t ht
          rw [List.forall_mem_append, List.forall_mem_singleton]
          exact ⟨hword, hname⟩
      · next hother =>
          obtain rfl : c = '\n' := hc.resolve_left hother
          rcases List.mem_append.mp ht with ht | ht
          · rcases List.mem_append.mp ht with ht | ht
            · exact .inr (hpending word hword t ht)
            · exact .inl (List.mem_singleton.mp ht)
          · exact ih (by simp) hrest t ht

/-- A name that is under way is read, with what goes on with it. -/
theorem exists_mem_readTokens {word cs : List Char} (hne : word ≠ [])
    (hword : ∀ c ∈ word, isNameRest c = true) : ∃ t ∈ readTokens word cs, t ≠ "\n" := by
  have hplain {word : List Char} (hne : word ≠ []) (hword : ∀ c ∈ word, isNameRest c = true) :
      ∃ t ∈ pending word, t ≠ "\n" := by
    refine ⟨String.ofList word, by simp [pending, hne], fun heq => ?_⟩
    have hchars : word = ['\n'] := by simpa using congrArg String.toList heq
    exact absurd (hword '\n' (by simp [hchars])) (by decide)
  induction cs generalizing word with
  | nil => exact hplain hne hword
  | cons c cs ih =>
      rw [readTokens]
      split
      · next hname =>
          refine ih (by simp) ?_
          rw [List.forall_mem_append, List.forall_mem_singleton]
          exact ⟨hword, hname⟩
      · obtain ⟨t, ht, hother⟩ := hplain hne hword
        exact ⟨t, List.mem_append_left _ (List.mem_append_left _ ht), hother⟩

section

variable {Q : String → Prop}

/-- A text of names and line breaks that begins with a name can stand in a hole. -/
theorem Wordy.stands {s : String} (h : Wordy s) {c : Char} {rest : List Char} (hs : s.toList = c :: rest)
    (hc : isNameRest c = true) (names : ∀ w ∈ words s, Q w) : Stands Q s := by
  have hplain : ∀ w ∈ words s, w ∉ [":", "="] := by
    intro w hw
    rw [h.words_eq, List.mem_filter] at hw
    rcases mem_readTokens (by simp) h w hw.1 with rfl | hchars
    · decide
    · simp only [List.mem_cons, List.not_mem_nil, or_false]
      rintro (rfl | rfl)
      · exact absurd (hchars ':' (by decide)) (by decide)
      · exact absurd (hchars '=' (by decide)) (by decide)
  constructor
  case closed => exact h.closed
  case nonempty =>
    rw [h.words_eq, Text.tokens, hs, readTokens, if_pos hc]
    obtain ⟨t, ht, hother⟩ : ∃ t ∈ readTokens [c] rest, t ≠ "\n" :=
      exists_mem_readTokens (by simp) (by simpa using hc)
    exact List.ne_nil_of_mem (List.mem_filter.mpr ⟨ht, by simpa using hother⟩)
  case first => exact fun w hw => hplain w (List.mem_of_head? hw)
  case last => exact fun w hw heq => hplain w (List.mem_of_getLast? hw) (by simp [heq])
  case names => exact fun n hn => names n (mem_of_mem_readsFrom hn)

theorem Wordy.of_isName {name : String} (h : IsName name) : Wordy name :=
  fun c hc => .inl (h.chars c hc)

theorem words_of_isName {name : String} (h : IsName name) : words name = [name] := by
  have hother : name ≠ "\n" := fun heq => h.no_line_break (by simp [heq])
  rw [(Wordy.of_isName h).words_eq, h.tokens]
  simp [hother]

/-- An identifier is one word; a line break at its end is dropped. -/
theorem words_of_isIdentifier {s : String} (h : isIdentifier s = true) :
    ∃ name, IsName name ∧ name.toList <+: s.toList ∧ words s = [name] := by
  rcases Text.isIdentifier_iff.mp h with hname | ⟨name, hname, rfl⟩
  · exact ⟨s, hname, List.prefix_refl _, words_of_isName hname⟩
  · have hbreak : words "\n" = [] := by decide
    refine ⟨name, hname, by simp, ?_⟩
    rw [words_append_begins (Wordy.of_isName hname).closed (by decide), words_of_isName hname, hbreak,
      List.append_nil]

theorem oneWord_of_isIdentifier {s : String} (h : isIdentifier s = true) : OneWord s := by
  obtain ⟨name, hname, -, hwords⟩ := words_of_isIdentifier h
  refine ⟨(Wordy.of_isIdentifier h).closed, name, hwords, ?_⟩
  have hmarks : ∀ m ∈ [":", "="], ¬ IsName m := by decide
  exact fun hmem => hmarks name hmem hname

theorem oneWord_of_isName {s : String} (h : IsName s) : OneWord s :=
  oneWord_of_isIdentifier (Text.isIdentifier_iff.mpr (.inl h))

theorem stands_of_isIdentifier {s : String} (h : isIdentifier s = true) (names : ∀ w ∈ words s, Q w) :
    Stands Q s := by
  obtain ⟨c, rest, hs, hc⟩ := isNameStart_of_isIdentifier h
  exact (Wordy.of_isIdentifier h).stands hs (Text.isNameRest_of_isNameStart hc) names

/-- Texts with commas between them can stand where each of them can. -/
theorem stands_join {parts : List String} (hne : parts ≠ []) (h : ∀ p ∈ parts, Stands Q p) :
    Stands Q (Text.join ", " parts) := by
  induction parts with
  | nil => exact absurd rfl hne
  | cons p rest ih =>
      obtain ⟨hp, hrest⟩ := List.forall_mem_cons.mp h
      cases rest with
      | nil => exact hp
      | cons next rest =>
          let T : Template := ⟨"", [(.given, ", "), (.given, "")]⟩
          have hfills : T.Fills Q (Text.join ", " (p :: next :: rest)) := by
            refine ⟨[p, Text.join ", " (next :: rest)], ?_, .cons hp (.cons (ih (by simp) hrest) .nil)⟩
            simp [T, Text.join_cons, String.append_assoc]
          exact hfills.stands_plain (by decide) (by decide)

theorem stands_sourceQuoted (s : String) : Stands Q (Text.sourceQuoted s) where
  closed := (hollow_sourceQuoted s).2
  nonempty := by simp
  first := by simp
  last := by simp
  names := by simp [show readsFrom ":" ["\"", "\""] = [] by decide]

/-- A text without holes. -/
theorem stands_text {s : String} (whole : (⟨s, []⟩ : Template).whole = true)
    (known : ∀ n ∈ readsFrom ":" (words s), Q n) : Stands Q s :=
  (Template.fills_text s).stands whole (by simpa [Template.tokens, Template.restTokens] using known)

/-- Brackets around texts with commas between them, or around none. -/
theorem stands_brackets {parts : List String} {b : String × String}
    (brackets : b ∈ [("(", ")"), ("[", "]"), ("\x7b", "\x7d")]) (h : ∀ p ∈ parts, Stands Q p) :
    Stands Q (b.1 ++ (Text.join ", " parts ++ b.2)) := by
  have hmarks : ∀ b ∈ [("(", ")"), ("[", "]"), ("\x7b", "\x7d")],
      ((⟨b.1 ++ b.2, []⟩ : Template).whole = true ∧ readsFrom ":" (words (b.1 ++ b.2)) = []) ∧
        (⟨b.1, [(.given, b.2)]⟩ : Template).whole = true ∧
        readsFrom ":" (⟨b.1, [(.given, b.2)]⟩ : Template).tokens = [] := by
    decide
  obtain ⟨hempty, hwhole, hnames⟩ := hmarks b brackets
  by_cases hne : parts = []
  · subst hne
    rw [show Text.join ", " [] = "" from rfl, String.empty_append]
    exact stands_text hempty.1 (by simp [hempty.2])
  · have hfills : (⟨b.1, [(.given, b.2)]⟩ : Template).Fills Q (b.1 ++ (Text.join ", " parts ++ b.2)) :=
      ⟨[Text.join ", " parts], by simp, .cons (stands_join hne h) .nil⟩
    exact hfills.stands hwhole (by simp [hnames])

/-- What documents a class or function is a literal, and reads nothing. -/
theorem reads_doc {d : String} (h : Unquoted d) : reads ("\"\"\"" ++ d ++ "\"\"\"") = [] := by
  have hinside {cs : List Char} (hcs : ∀ c ∈ cs, c ≠ '"' ∧ c ≠ '\\') :
      hollow .inside cs = [] ∧ cs.foldl Quoting.next .inside = .inside := by
    induction cs with
    | nil => exact ⟨rfl, rfl⟩
    | cons c cs ih =>
        obtain ⟨hc, hcs⟩ := List.forall_mem_cons.mp hcs
        simp [hollow, Quoting.keeps, Quoting.next, hc, ih hcs]
  have hhollow : hollow .outside ("\"\"\"" ++ d ++ "\"\"\"").toList = "\"\"\"\"\"\"".toList := by
    have hopen : "\"\"\"".toList.foldl Quoting.next .outside = .inside := by decide
    have hquotes : ∀ q ∈ [Quoting.outside, .inside], hollow q "\"\"\"".toList = "\"\"\"".toList := by
      decide
    obtain ⟨hdoc, hend⟩ := hinside h
    rw [String.toList_append, String.toList_append, hollow_append, hollow_append, List.foldl_append, hopen,
      hdoc, hend, hquotes _ (by simp), hquotes _ (by simp)]
    rfl
  rw [reads, words, hhollow]
  decide

/-- The name of a binding is one word, and its type and default can stand beside it. -/
structure Binding.Fits (Q : String → Prop) (b : Binding) : Prop where
  name : OneWord b.name
  type : Stands Q b.type
  default : ∀ d ∈ b.default, Stands Q d

theorem Binding.Fits.mono {P : String → Prop} {b : Binding} (h : b.Fits Q) (sub : ∀ n, Q n → P n) : b.Fits P :=
  ⟨h.name, h.type.mono sub, fun d hd => (h.default d hd).mono sub⟩

theorem Binding.Fits.stands {b : Binding} (h : b.Fits Q) : Stands Q b.text := by
  cases hdefault : b.default with
  | none =>
      let T : Template := ⟨"", [(.hidden, ": "), (.given, "")]⟩
      have hfills : T.Fills Q b.text := by
        refine ⟨[b.name, b.type], ?_, .cons h.name (.cons h.type .nil)⟩
        simp [T, Binding.text, hdefault, toString, String.append_assoc]
      exact hfills.stands_plain (by decide) (by decide)
  | some d =>
      let T : Template := ⟨"", [(.hidden, ": "), (.given, " = "), (.given, "")]⟩
      have hfills : T.Fills Q b.text := by
        refine ⟨[b.name, b.type, d], ?_, .cons h.name (.cons h.type (.cons (h.default d hdefault) .nil))⟩
        simp [T, Binding.text, hdefault, toString, String.append_assoc]
      exact hfills.stands_plain (by decide) (by decide)

/-- What a signature consists of can stand in the head of a definition. -/
structure Signature.Fits (Q : String → Prop) (s : Signature) : Prop where
  receiver : ∀ r ∈ s.receiver, Stands Q r
  bindings : ∀ b ∈ s.positional ++ s.named ++ s.others.toList, b.Fits Q

theorem Signature.Fits.inlineTexts {s : Signature} (h : s.Fits Q) : ∀ p ∈ s.inlineTexts, Stands Q p := by
  obtain ⟨hreceiver, hbindings⟩ := h
  simp only [List.forall_mem_append, Option.mem_toList] at hbindings
  simp only [Signature.inlineTexts, List.forall_mem_append, List.forall_mem_map, Option.mem_toList]
  refine ⟨⟨hreceiver, fun b hb => (hbindings.1.1 b hb).stands⟩, fun b hb => ?_⟩
  let T : Template := ⟨"**", [(.given, "")]⟩
  have hfills : T.Fills Q ("**" ++ b.text) := by
    refine ⟨[b.text], ?_, .cons (hbindings.2 b hb).stands .nil⟩
    simp [T]
  exact hfills.stands_plain (by decide) (by decide)

theorem reads_comma {p : String} (h : Stands Q p) : ∀ n ∈ reads (p ++ ","), Q n := by
  let T : Template := ⟨"", [(.given, ",")]⟩
  have hfills : T.Fills Q (p ++ ",") := by
    refine ⟨[p], ?_, .cons h .nil⟩
    simp [T]
  exact hfills.reads_plain (by decide) (by decide)

/-- The head of a definition reads what its types, its defaults and the receiver read. -/
theorem Signature.Fits.reads {s : Signature} (h : s.Fits Q) {name result : String} (hname : OneWord name)
    (hresult : Stands Q result) : ∀ l ∈ s.lines name result, ∀ n ∈ Code.reads l.text, Q n := by
  have hinline := h.inlineTexts
  unfold Signature.lines
  split
  · rw [List.forall_mem_singleton]
    by_cases hnone : s.inlineTexts = []
    · let T : Template := ⟨"def ", [(.hidden, "() -> "), (.given, ":")]⟩
      have hfills : T.Fills Q (s!"def {name}(" ++ Text.join ", " s.inlineTexts ++ s!") -> {result}:") := by
        refine ⟨[name, result], ?_, .cons hname (.cons hresult .nil)⟩
        rw [hnone, show Text.join ", " [] = "" from rfl]
        exact String.toList_injective (by simp [T, toString])
      exact hfills.reads_plain (by decide) (by decide)
    · let T : Template := ⟨"def ", [(.hidden, "("), (.given, ") -> "), (.given, ":")]⟩
      have hfills : T.Fills Q (s!"def {name}(" ++ Text.join ", " s.inlineTexts ++ s!") -> {result}:") := by
        refine ⟨[name, Text.join ", " s.inlineTexts, result], ?_,
          .cons hname (.cons (stands_join hnone hinline) (.cons hresult .nil))⟩
        simp [T, toString, String.append_assoc]
      exact hfills.reads_plain (by decide) (by decide)
  · have hparts : ∀ p ∈ s.inlineTexts ++ ["*"] ++ s.named.map Binding.text, Stands Q p := by
      simp only [List.forall_mem_append, List.forall_mem_singleton, List.forall_mem_map]
      refine ⟨⟨hinline, stands_text (by decide) ?_⟩, fun b hb => (h.bindings b (by simp [hb])).stands⟩
      simp [show readsFrom ":" (words "*") = [] by decide]
    rw [List.forall_mem_append, List.forall_mem_cons, List.forall_mem_map, List.forall_mem_singleton]
    refine ⟨⟨?_, fun p hp => ?_⟩, ?_⟩
    · let T : Template := ⟨"def ", [(.hidden, "(")]⟩
      have hfills : T.Fills Q s!"def {name}(" := by
        refine ⟨[name], ?_, .cons hname .nil⟩
        simp [T, toString, String.append_assoc]
      exact hfills.reads_plain (by decide) (by decide)
    · exact reads_comma (hparts p hp)
    · let T : Template := ⟨") -> ", [(.given, ":")]⟩
      have hfills : T.Fills Q s!") -> {result}:" := by
        refine ⟨[result], ?_, .cons hresult .nil⟩
        simp [T, toString, String.append_assoc]
      exact hfills.reads_plain (by decide) (by decide)

/-- A literal that is written as it stands can stand behind a name. -/
def Literal.Fits (Q : String → Prop) : Literal → Prop
  | .source s => Stands Q s
  | .listing opening closing items =>
    (opening, closing) ∈ [("[", "]"), ("\x7b", "\x7d")] ∧ ∀ i ∈ items, Stands Q i
  | _ => True

structure Assignment.Fits (Q : String → Prop) (a : Assignment) : Prop where
  name : OneWord a.name
  type : ∀ t ∈ a.type, Stands Q t
  value : a.value.Fits Q

/-- The head of an assignment, and that a value can stand behind it. -/
theorem Assignment.Fits.exists_head {a : Assignment} (h : a.Fits Q) :
    ∃ head, a.lines = a.value.lines head ∧ ∀ v, Stands Q v → ∀ n ∈ Code.reads (head ++ v), Q n := by
  cases htype : a.type with
  | none =>
      refine ⟨s!"{a.name} = ", by simp [Assignment.lines, htype], fun v hv => ?_⟩
      let T : Template := ⟨"", [(.hidden, " = "), (.given, "")]⟩
      have hfills : T.Fills Q (s!"{a.name} = " ++ v) := by
        refine ⟨[a.name, v], ?_, .cons h.name (.cons hv .nil)⟩
        simp [T, toString, String.append_assoc]
      exact hfills.reads_plain (by decide) (by decide)
  | some t =>
      refine ⟨s!"{a.name}: {t} = ", by simp [Assignment.lines, htype], fun v hv => ?_⟩
      let T : Template := ⟨"", [(.hidden, ": "), (.given, " = "), (.given, "")]⟩
      have hfills : T.Fills Q (s!"{a.name}: {t} = " ++ v) := by
        refine ⟨[a.name, t, v], ?_, .cons h.name (.cons (h.type t htype) (.cons hv .nil))⟩
        simp [T, toString, String.append_assoc]
      exact hfills.reads_plain (by decide) (by decide)

theorem stands_textTuple (ss : List String) : Stands Q (textTuple ss) := by
  unfold textTuple
  split
  · next s =>
      let T : Template := ⟨"(", [(.literal, ",)")]⟩
      have hfills : T.Fills Q ("(" ++ Text.sourceQuoted s ++ ",)") := by
        refine ⟨[s], ?_, .cons trivial .nil⟩
        simp [T, String.append_assoc]
      exact hfills.stands_plain (by decide) (by decide)
  · rw [String.append_assoc]
    exact stands_brackets (b := ("(", ")")) (by simp) (List.forall_mem_map.mpr fun s _ => stands_sourceQuoted s)

theorem stands_mappingText (entries : List (String × String)) : Stands Q (Literal.mappingText entries) := by
  rw [Literal.mappingText, String.append_assoc]
  refine stands_brackets (b := ("\x7b", "\x7d")) (by simp) (List.forall_mem_map.mpr fun e _ => ?_)
  let T : Template := ⟨"", [(.literal, ": "), (.literal, "")]⟩
  have hfills : T.Fills Q (Text.sourceQuoted e.1 ++ ": " ++ Text.sourceQuoted e.2) := by
    refine ⟨[e.1, e.2], ?_, .cons trivial (.cons trivial .nil)⟩
    simp [T, String.append_assoc]
  exact hfills.stands_plain (by decide) (by decide)

theorem Assignment.Fits.reads {a : Assignment} (h : a.Fits Q) :
    ∀ l ∈ a.lines, ∀ n ∈ Code.reads l.text, Q n := by
  obtain ⟨head, hlines, hhead⟩ := h.exists_head
  have hvalue := h.value
  rw [hlines]
  cases hkind : a.value with
  | text s => exact List.forall_mem_singleton.mpr (hhead _ (stands_sourceQuoted s))
  | tuple ss => exact List.forall_mem_singleton.mpr (hhead _ (stands_textTuple ss))
  | mapping entries => exact List.forall_mem_singleton.mpr (hhead _ (stands_mappingText entries))
  | source s =>
      rw [hkind] at hvalue
      exact List.forall_mem_singleton.mpr (hhead _ hvalue)
  | listing opening closing items =>
      rw [hkind] at hvalue
      obtain ⟨hmarks, hitems⟩ := hvalue
      have hmark : ∀ b ∈ [("[", "]"), ("\x7b", "\x7d")],
          ((⟨b.1, []⟩ : Template).whole = true ∧ readsFrom ":" (words b.1) = []) ∧
            Code.reads b.2 = [] := by
        decide
      obtain ⟨hopening, hclosing⟩ := hmark _ hmarks
      rw [Literal.lines, List.forall_mem_append, List.forall_mem_cons, List.forall_mem_map,
        List.forall_mem_singleton]
      refine ⟨⟨hhead _ (stands_text hopening.1 (by simp [hopening.2])), fun i hi => ?_⟩, by simp [hclosing]⟩
      exact reads_comma (hitems i hi)

end

/-- What the line reads is bound around it or is among the given names. -/
def Scoped.Covered (G : String → Prop) (s : Scoped) : Prop :=
  ∀ n ∈ reads s.line.text, n ∈ s.bound ∨ G n

section

variable {G : String → Prop} {style : Style}

theorem covered_open {ls : List Line} (h : ∀ l ∈ ls, ∀ n ∈ reads l.text, G n) :
    ∀ s ∈ ls.map Line.open_, s.Covered G :=
  List.forall_mem_map.mpr fun l hl n hn => .inr (h l hl n hn)

theorem covered_docLine {doc : Option String} (h : ∀ d ∈ doc, Unquoted d) :
    ∀ s ∈ (docLine style doc).map Line.open_, s.Covered G := by
  refine covered_open fun l hl n hn => ?_
  unfold docLine at hl
  split at hl
  · next d =>
      split at hl
      · rw [List.mem_singleton.mp hl, reads_doc (h d rfl)] at hn
        cases hn
      · cases hl
  · cases hl

/-- The parts of a function can stand in its lines, and its body reads what is bound in it or given. -/
structure Function.Fits (G : String → Prop) (f : Function) : Prop where
  name : IsName f.name
  receiver : ∀ r ∈ f.signature.receiver, IsName r
  bindings : ∀ b ∈ f.signature.positional ++ f.signature.named ++ f.signature.others.toList, b.Fits G
  result : Stands G f.result
  doc : ∀ d ∈ f.doc, Unquoted d
  body : ∀ l ∈ f.body, ∀ n ∈ reads l.text, n ∈ f.locals ∨ G n

namespace Function

variable {f : Function}

theorem mem_locals_of_name {n p : String} (hp : p ∈ f.signature.names) (hn : n ∈ words p) :
    n ∈ f.locals :=
  List.mem_append_left _ (List.mem_flatMap.mpr ⟨p, hp, hn⟩)

/-- A form of the lines in bodies of functions, with the names that it needs beside common ones and those that
it binds. -/
structure Form where
  template : Template
  needs : List String
  binds : List String := []

/-- The fixed parts of the form read what it needs or what is common, and bind what it says. -/
def Form.sound (common : List String) (F : Form) : Bool :=
  F.template.sound && F.template.names.all (F.needs ++ common).contains
    && F.binds.all F.template.bound.contains

/-- A body whose lines have sound forms reads what is bound in the function or given, if that is so of what the
forms need. -/
theorem reads_body {common params extra : List String} {forms : List Form}
    (sound : ∀ F ∈ forms, F.sound common = true) (given_ : ∀ n ∈ common ++ extra, G n)
    (sub : params ⊆ f.signature.names) (plain : ∀ p ∈ params, IsName p)
    (body : List.Forall₂ (fun l F => F.template.Fills (fun n => n ∈ f.locals ∨ G n) l.text) f.body forms)
    (needs : forms.flatMap Form.needs ⊆ params ++ forms.flatMap Form.binds ++ extra) :
    ∀ l ∈ f.body, ∀ n ∈ reads l.text, n ∈ f.locals ∨ G n := by
  have hsound {F : Form} (hF : F ∈ forms) : F.template.sound = true ∧
      (∀ n ∈ F.template.names, n ∈ F.needs ++ common) ∧ ∀ n ∈ F.binds, n ∈ F.template.bound := by
    simpa [Form.sound, and_assoc] using sound F hF
  have hbinds : ∀ n ∈ forms.flatMap Form.binds, n ∈ f.locals := by
    intro n hn
    obtain ⟨F, hF, hn⟩ := List.mem_flatMap.mp hn
    obtain ⟨l, hl, hfills⟩ := exists_left_of_paired body hF
    exact List.mem_append_right _ (List.mem_flatMap.mpr
      ⟨l, hl, hfills.binds (hsound hF).1 n ((hsound hF).2.2 n hn)⟩)
  have hparams : ∀ n ∈ params, n ∈ f.locals := fun n hn =>
    mem_locals_of_name (sub hn) (by rw [words_of_isName (plain n hn)]; exact List.mem_cons_self)
  intro l hl
  obtain ⟨F, hF, hfills⟩ := exists_right_of_paired body hl
  refine hfills.reads (hsound hF).1 fun n hn => ?_
  rcases List.mem_append.mp ((hsound hF).2.1 n hn) with hn | hn
  · rcases List.mem_append.mp (needs (List.mem_flatMap.mpr ⟨F, hF, hn⟩)) with hn | hn
    · exact .inl ((List.mem_append.mp hn).elim (hparams n) (hbinds n))
    · exact .inr (given_ n (List.mem_append_right _ hn))
  · exact .inr (given_ n (List.mem_append_left _ hn))

theorem Fits.covered (h : f.Fits G) (builtin : G "classmethod") : ∀ s ∈ f.inScope style, s.Covered G := by
  simp only [inScope, List.forall_mem_append, List.forall_mem_map]
  refine ⟨⟨fun l hl => ?_, List.forall_mem_map.mp (covered_docLine h.doc)⟩, h.body⟩
  rcases List.mem_append.mp hl with hl | hl
  · have hmark : reads "@classmethod" = ["classmethod"] := by decide
    split at hl
    · rw [List.mem_singleton.mp hl, Scoped.Covered, hmark, List.forall_mem_singleton]
      exact .inr builtin
    · cases hl
  · have hsignature : f.signature.Fits fun n => n ∈ f.signature.receiver.toList ∨ G n := by
      refine ⟨fun p hp => ?_, fun b hb => (h.bindings b hb).mono fun _ => .inr⟩
      have hname := h.receiver p hp
      refine stands_of_isIdentifier (Text.isIdentifier_iff.mpr (.inl hname)) ?_
      rw [words_of_isName hname, List.forall_mem_singleton]
      exact .inl (Option.mem_toList.mpr hp)
    exact hsignature.reads (oneWord_of_isName h.name) (h.result.mono fun _ => .inr) l hl

end Function

def Section.Fits (G : String → Prop) : Section → Prop
  | .settings as => ∀ a ∈ as, a.Fits G
  | .members bs => ∀ b ∈ bs, b.Fits G
  | .method f => f.Fits G

structure RecordClass.Fits (G : String → Prop) (k : RecordClass) : Prop where
  name : Stands G k.name
  base : Stands G k.base
  doc : Unquoted k.doc
  sections : ∀ g ∈ k.sections, g.Fits G

theorem Section.Fits.covered {g : Section} (h : g.Fits G) (builtin : G "classmethod") :
    ∀ s ∈ g.inScope style, s.Covered G := by
  cases g with
  | settings as =>
      refine covered_open fun l hl => ?_
      obtain ⟨a, ha, hl⟩ := List.mem_flatMap.mp hl
      exact (h a ha).reads l hl
  | members bs => exact List.forall_mem_map.mpr fun b hb n hn => .inr ((h b hb).stands.reads n hn)
  | method f => exact Function.Fits.covered h builtin

theorem RecordClass.Fits.covered {k : RecordClass} (h : k.Fits G) (builtin : G "classmethod") :
    ∀ s ∈ k.inScope style, s.Covered G := by
  have hhead : ∀ n ∈ reads s!"class {k.name}({k.base}):", G n := by
    let T : Template := ⟨"class ", [(.given, "("), (.given, "):")]⟩
    have hfills : T.Fills G s!"class {k.name}({k.base}):" := by
      refine ⟨[k.name, k.base], ?_, .cons h.name (.cons h.base .nil)⟩
      simp [T, toString, String.append_assoc]
    exact hfills.reads_plain (by decide) (by decide)
  have hgap : gap.open_.Covered G := by
    intro n hn
    cases (show reads "" = [] from rfl) ▸ hn
  simp only [inScope, List.forall_mem_append, List.map_cons, List.forall_mem_cons, List.forall_mem_flatMap,
    List.forall_mem_map]
  have hdoc : ∀ d ∈ some k.doc, Unquoted d := fun d hd => Option.some_inj.mp hd ▸ h.doc
  exact ⟨⟨fun n hn => .inr (hhead n hn), List.forall_mem_map.mp (covered_docLine hdoc)⟩,
    fun g hg => ⟨hgap, (h.sections g hg).covered builtin⟩⟩

def Item.Fits (G : String → Prop) : Item → Prop
  | .constants as => ∀ a ∈ as, a.Fits G
  | .table a => a.Fits G
  | .record k => k.Fits G
  | .function f => f.Fits G

/-- The lines of a module read what is bound around them or given, if the parts of its items are fit. -/
theorem Module.covered {m : Module} (h : ∀ i ∈ m.items, i.Fits G) (builtin : G "classmethod") :
    ∀ s ∈ m.inScope style, s.Covered G := by
  refine List.forall_mem_flatMap.mpr fun i hi => ?_
  have hfits := h i hi
  cases i with
  | constants as =>
      refine covered_open fun l hl => ?_
      obtain ⟨a, ha, hl⟩ := List.mem_flatMap.mp hl
      exact (hfits a ha).reads l hl
  | table a => exact covered_open hfits.reads
  | record k => exact RecordClass.Fits.covered hfits builtin
  | function f => exact Function.Fits.covered hfits builtin

end

end TableLoom.Code
