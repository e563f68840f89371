import TableLoom.Query.Render
import TableLoom.Text.Blank

/-!
The text of a condition as tokens: words with the points inside them, quoted text, and single marks.
Reading goes from left to right and remembers only the token that is under way, so text that ends
outside quotes and text behind it can be read one after the other.
-/

namespace TableLoom.Query

inductive Token where
  | word (cs : List Char)
  | quoted (quote : Char) (cs : List Char)
  | mark (c : Char)
  deriving DecidableEq

/-- Whether a token is a word, in any case. -/
def Token.is (name : String) : Token → Bool
  | word cs => cs.map Char.toLower == name.toList
  | _ => false

/-- How deep in parentheses a token leads, unless it closes one that was never opened. -/
def Token.nest (d : Nat) : Token → Option Nat
  | mark '(' => some (d + 1)
  | mark ')' => if d = 0 then none else some (d - 1)
  | _ => some d

theorem Token.nest_succ {t : Token} {d e : Nat} (h : t.nest d = some e) :
    t.nest (d + 1) = some (e + 1) := by
  unfold nest at h ⊢
  split at h
  · cases h
    rfl
  · obtain ⟨hd, heq⟩ := Option.ite_none_left_eq_some.mp h
    cases heq
    rw [if_neg (Nat.succ_ne_zero d)]
    exact congrArg some (by omega)
  · cases h
    rfl

/-- How deep in parentheses tokens lead. -/
def balance (d : Nat) (ts : List Token) : Option Nat :=
  ts.foldlM Token.nest d

theorem balance_append (d : Nat) (ts us : List Token) :
    balance d (ts ++ us) = (balance d ts).bind fun k => balance k us :=
  List.foldlM_append

/-- The token that is under way. -/
inductive Lexing where
  | blank
  | word (cs : List Char)
  | quoted (quote : Char) (cs : List Char)

namespace Lexing

def isQuote (c : Char) : Bool :=
  c == '\'' || c == '"'

/-- Words go on over points, as in the name of a column behind that of its table. -/
def isRun (c : Char) : Bool :=
  Text.isWord c || c == '.'

theorem not_run_of_quote {q : Char} (h : isQuote q = true) : isRun q = false := by
  rcases Bool.or_eq_true_iff.mp h with h | h <;> rw [beq_iff_eq.mp h] <;> decide

/-- The token that is finished when the text ends. -/
def flush : Lexing → List Token
  | blank => []
  | word cs => [.word cs]
  | quoted q cs => [.quoted q cs]

/-- A character outside words and quotes: the token it is, if any, and the one it begins. -/
def start (c : Char) : List Token × Lexing :=
  if isRun c then ([], word [c])
  else if isQuote c then ([], quoted c [])
  else if Text.isBlank c then ([], blank)
  else ([.mark c], blank)

/-- The tokens that a character finishes, and the one under way behind it. -/
def step : Lexing → Char → List Token × Lexing
  | blank, c => start c
  | word cs, c =>
    if isRun c then ([], word (cs ++ [c])) else (.word cs :: (start c).1, (start c).2)
  | quoted q cs, c =>
    if c == q then ([.quoted q cs], blank) else ([], quoted q (cs ++ [c]))

/-- The tokens that characters finish. -/
def emitted (s : Lexing) : List Char → List Token
  | [] => []
  | c :: rest => (s.step c).1 ++ emitted (s.step c).2 rest

/-- The token under way behind characters. -/
def after (s : Lexing) (cs : List Char) : Lexing :=
  cs.foldl (fun s c => (s.step c).2) s

def isQuoted : Lexing → Bool
  | quoted _ _ => true
  | _ => false

@[simp] theorem emitted_nil (s : Lexing) : s.emitted [] = [] := rfl

@[simp] theorem after_nil (s : Lexing) : s.after [] = s := rfl

theorem emitted_cons (s : Lexing) (c : Char) (cs : List Char) :
    s.emitted (c :: cs) = (s.step c).1 ++ (s.step c).2.emitted cs := rfl

theorem after_cons (s : Lexing) (c : Char) (cs : List Char) :
    s.after (c :: cs) = (s.step c).2.after cs := rfl

theorem emitted_append (s : Lexing) (cs ds : List Char) :
    s.emitted (cs ++ ds) = s.emitted cs ++ (s.after cs).emitted ds := by
  induction cs generalizing s with
  | nil => rfl
  | cons c cs ih => rw [List.cons_append, emitted_cons, ih, emitted_cons, List.append_assoc, after_cons]

theorem after_append (s : Lexing) (cs ds : List Char) :
    s.after (cs ++ ds) = (s.after cs).after ds :=
  List.foldl_append

theorem balance_flush (s : Lexing) (d : Nat) : balance d s.flush = some d := by
  cases s <;> rfl

/-- Outside quotes, a character that is no part of a word finishes what is under way. -/
theorem step_apart {s : Lexing} (open_ : s.isQuoted = false) {c : Char} (hc : isRun c = false) :
    s.step c = (s.flush ++ (start c).1, (start c).2) := by
  cases s with
  | blank => rfl
  | word cs => simp [step, hc, flush]
  | quoted q cs => cases open_

theorem through_word {cs : List Char} (ws : List Char) (h : ∀ c ∈ cs, isRun c = true) :
    (word ws).emitted cs = [] ∧ (word ws).after cs = word (ws ++ cs) := by
  induction cs generalizing ws with
  | nil => exact ⟨rfl, by rw [List.append_nil, after_nil]⟩
  | cons c cs ih =>
      obtain ⟨hc, hrest⟩ := List.forall_mem_cons.mp h
      have hstep : (word ws).step c = ([], word (ws ++ [c])) := by simp [step, hc]
      rw [emitted_cons, after_cons, hstep]
      simpa using ih (ws ++ [c]) hrest

end Lexing

/-- The tokens of a text. -/
def tokens (cs : List Char) : List Token :=
  Lexing.blank.emitted cs ++ (Lexing.blank.after cs).flush

/-- Tokens of text that ends outside quotes, and of text that does not go on with its last word. -/
theorem tokens_append {cs : List Char} (open_ : (Lexing.blank.after cs).isQuoted = false) {c : Char}
    (hc : Lexing.isRun c = false) (ds : List Char) :
    tokens (cs ++ c :: ds) = tokens cs ++ tokens (c :: ds) := by
  have hstep := Lexing.step_apart open_ hc
  have hblank := Lexing.step_apart (s := .blank) rfl hc
  unfold tokens
  rw [Lexing.emitted_append, Lexing.after_append, Lexing.emitted_cons, Lexing.emitted_cons,
    Lexing.after_cons, Lexing.after_cons, hstep, hblank]
  simp [Lexing.flush]

theorem tokens_word {cs : List Char} (hne : cs ≠ []) (h : ∀ c ∈ cs, Lexing.isRun c = true) :
    tokens cs = [.word cs] := by
  cases cs with
  | nil => exact absurd rfl hne
  | cons c cs =>
      obtain ⟨hc, hrest⟩ := List.forall_mem_cons.mp h
      obtain ⟨hemitted, hafter⟩ := Lexing.through_word [c] hrest
      have hstep : Lexing.blank.step c = ([], .word [c]) := by
        simp [Lexing.step, Lexing.start, hc]
      rw [tokens, Lexing.emitted_cons, Lexing.after_cons, hstep, hemitted, hafter]
      rfl

theorem tokens_blank {c : Char} (hc : Lexing.isRun c = false) (hquote : Lexing.isQuote c = false)
    (hblank : Text.isBlank c = true) (cs : List Char) : tokens (c :: cs) = tokens cs := by
  have hstep : Lexing.blank.step c = ([], .blank) := by
    simp [Lexing.step, Lexing.start, hc, hquote, hblank]
  rw [tokens, Lexing.emitted_cons, Lexing.after_cons, hstep]
  rfl

theorem tokens_mark {c : Char} (hc : Lexing.isRun c = false) (hquote : Lexing.isQuote c = false)
    (hblank : Text.isBlank c = false) (cs : List Char) :
    tokens (c :: cs) = .mark c :: tokens cs := by
  have hstep : Lexing.blank.step c = ([.mark c], .blank) := by
    simp [Lexing.step, Lexing.start, hc, hquote, hblank]
  rw [tokens, Lexing.emitted_cons, Lexing.after_cons, hstep]
  rfl

example : tokens "x.a = 'it''s' OR (b)".toList =
    [.word "x.a".toList, .mark '=', .quoted '\'' "it".toList, .quoted '\'' "s".toList,
      .word "OR".toList, .mark '(', .word "b".toList, .mark ')'] := by
  decide

end TableLoom.Query
