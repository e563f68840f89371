import TableLoom.Proofs.Text.Name
import TableLoom.Query.Terminal

/-!
Text that has no meaning of its own in a statement: no quote, no parenthesis, no dollar and no
question mark. Names, column references and the fixed words are such text, and they do not start with
a digit either.
-/

namespace TableLoom.Query

open Text (isNameRest_of_isNameChars not_isDigit_of_isNameStart)

def isPlain (c : Char) : Bool :=
  c != '$' && c != '?' && c != '(' && c != ')' && c != '\'' && c != '"'

/-- Plain text that can follow a dollar without making it a placeholder. -/
def isGlue (cs : List Char) : Bool :=
  cs.all isPlain && cs.head?.any (!·.isDigit)

theorem plain_of_glue {cs : List Char} (h : isGlue cs = true) : cs.all isPlain = true := by
  rw [isGlue, Bool.and_eq_true] at h
  exact h.1

theorem notMem_of_plain {cs : List Char} (h : cs.all isPlain = true) (d : Char)
    (hd : isPlain d = false) : d ∉ cs := by
  intro hmem
  rw [List.all_eq_true.mp h d hmem] at hd
  cases hd

theorem glue_append {cs ds : List Char} (hc : isGlue cs = true) (hd : ds.all isPlain = true) :
    isGlue (cs ++ ds) = true := by
  cases cs with
  | nil => cases hc
  | cons c cs =>
      rw [isGlue, Bool.and_eq_true] at hc ⊢
      exact ⟨by rw [List.all_append, hc.1, hd, Bool.and_self], hc.2⟩

theorem isPlain_of_isNameRest {c : Char} (h : Text.isNameRest c = true) : isPlain c = true := by
  have hne : ∀ d, Text.isNameRest d = false → (c != d) = true := by
    intro d hd
    rw [bne_iff_ne]
    rintro rfl
    rw [h] at hd
    cases hd
  simp [isPlain, hne '$' rfl, hne '?' rfl, hne '(' rfl, hne ')' rfl, hne '\'' rfl, hne '"' rfl]

theorem glue_of_isNameChars {cs : List Char} (h : Text.isNameChars cs = true) :
    isGlue cs = true := by
  have hplain : cs.all isPlain = true :=
    List.all_eq_true.mpr fun c hc => isPlain_of_isNameRest (isNameRest_of_isNameChars h c hc)
  cases cs with
  | nil => cases h
  | cons c cs =>
      rw [Text.isNameChars, Bool.and_eq_true] at h
      have hdigit := not_isDigit_of_isNameStart h.1
      rw [isGlue, hplain, List.head?_cons, Option.any_some, hdigit]
      rfl

theorem glue_of_dropLineEnd {cs : List Char} (h : isGlue (Text.dropLineEnd cs) = true) :
    isGlue cs = true := by
  unfold Text.dropLineEnd at h
  split at h
  · next hend =>
      rw [beq_iff_eq, List.getLast?_eq_some_iff] at hend
      obtain ⟨front, rfl⟩ := hend
      rw [List.dropLast_concat] at h
      exact glue_append h (by decide)
  · exact h

theorem glue_of_isIdentifier {s : String} (h : Text.isIdentifier s = true) :
    isGlue s.toList = true :=
  glue_of_dropLineEnd (glue_of_isNameChars h)

theorem glue_of_isColumnReference {s : String} (h : Text.isColumnReference s = true) :
    isGlue s.toList = true := by
  apply glue_of_dropLineEnd
  unfold Text.isColumnReference at h
  extract_lets cs head at h
  change isGlue cs = true
  have hsplit : head ++ cs.dropWhile (· != '.') = cs := List.takeWhile_append_dropWhile
  cases htail : cs.dropWhile (· != '.') with
  | nil =>
      rw [htail] at h hsplit
      rw [List.append_nil] at hsplit
      rw [← hsplit]
      exact glue_of_isNameChars h
  | cons point tail =>
      rw [htail] at h hsplit
      simp only [Bool.and_eq_true, Bool.or_eq_true, beq_iff_eq] at h
      have hpoint : point = '.' := by
        have hneg := List.head?_dropWhile_not (· != '.') cs
        simpa [htail] using hneg
      have htailPlain : tail.all isPlain = true := by
        rcases h.2 with hname | hstar
        · exact plain_of_glue (glue_of_isNameChars hname)
        · rw [hstar]
          decide
      have hrest : (point :: tail).all isPlain = true := by
        rw [List.all_cons, hpoint, htailPlain]
        decide
      rw [← hsplit]
      exact glue_append (glue_of_isNameChars h.1) hrest

theorem plain_number (n : Int) : (toString n).toList.all isPlain = true := by
  have hnat : ∀ m : Nat, (Nat.repr m).toList.all isPlain = true := by
    intro m
    rw [Nat.repr, String.toList_ofList, List.all_eq_true]
    intro c hc
    have hdigit := Nat.isDigit_of_mem_toDigits (by decide) (by decide) hc
    refine isPlain_of_isNameRest ?_
    rw [Text.isNameRest, Char.isAlphanum, hdigit, Bool.or_true, Bool.true_or]
  cases n with
  | ofNat m => exact hnat m
  | negSucc m =>
      change ("-" ++ Nat.repr (m + 1)).toList.all isPlain = true
      rw [String.toList_append, List.all_append, hnat]
      decide

theorem glue_operator (op : Operator) : isGlue op.sql.toList = true := by
  cases op <;> decide

theorem glue_aggregate (a : Aggregate) : isGlue a.sql.toList = true := by
  cases a <;> decide

theorem glue_joinKind (k : JoinKind) : isGlue k.sql.toList = true := by
  cases k <;> decide

theorem glue_direction (d : Direction) : isGlue d.sql.toList = true := by
  cases d <;> decide

end TableLoom.Query
