import TableLoom.Proofs.Json.Depth
import TableLoom.Proofs.Json.Reading
import TableLoom.Proofs.Text.Utf8
import TableLoom.Proofs.Traversal
import TableLoom.Record.Embedded

/-!
What becomes of related records that a column embeds. Many of them decode together or not at all, in
their order, and a text decodes like the data that it means. Only a text in which lists and maps hold
one another too often gets no answer.
-/

namespace TableLoom.Record

open Json (blanks_nil)

/-! ### Payloads -/

/-- The text that a column holds, as it is or in bytes. -/
def textIn? : Value → Option String
  | .bytes b => some (Text.Utf8.decode b)
  | .text s => some s
  | _ => none

/-- A column whose text, if it holds one, has no more opening brackets than reading lets hold one
another. -/
def Shallow (v : Value) : Prop :=
  ∀ s, textIn? v = some s → Json.openings s.toList ≤ Json.deepest

theorem payload_eq (v : Value) : payload v = (textIn? v).elim (.ok v) said := by
  cases v <;> rfl

theorem payload_of_data {v : Value} (h : textIn? v = none) : payload v = .ok v := by
  rw [payload_eq, h, Option.elim_none]

theorem said_of_reads {s : String} {v : Value} (h : Json.readAll s.toList = .ok v) :
    said s = .ok v := by
  simp [said, Json.read, h, Except.mapError]

theorem said_of_stops {s : String} {stop : Json.Stop} (h : Json.readAll s.toList = .error stop) :
    said s = if stop.fault = .tooDeep then .error ⟨⟩ else .ok .null := by
  simp [said, Json.read, h, Except.mapError, Json.locate]

/-- What a text that means something in JSON says. -/
theorem said_of_means {s : String} {v : Value} {depth : Nat} {long : Bool}
    (h : Json.Means s v depth long) :
    (depth ≤ Json.deepest → long = false → said s = .ok v) ∧
      (depth ≤ Json.deepest → long = true → said s = .ok .null) ∧
      (Json.deepest < depth → long = false → said s = .error ⟨⟩) := by
  have hread := h.comes
  generalize hx : Json.readAll s.toList = x at hread
  cases hread with
  | reads shallow short =>
    refine ⟨fun _ _ => said_of_reads hx, fun _ hlong => ?_, fun hdeep _ => ?_⟩
    · simp [short] at hlong
    · omega
  | tooDeep left deep =>
    refine ⟨fun hshallow _ => ?_, fun hshallow _ => ?_, fun _ _ => said_of_stops hx⟩ <;> omega
  | tooLong digits left too_long =>
    refine ⟨fun _ hshort => ?_, fun _ _ => said_of_stops hx, fun _ hshort => ?_⟩ <;>
      simp [too_long] at hshort

theorem said_of_shallow {s : String} (h : Json.openings s.toList ≤ Json.deepest) :
    ∃ v, said s = .ok v := by
  cases hread : Json.readAll s.toList with
  | ok v => exact ⟨v, said_of_reads hread⟩
  | error stop =>
    have hfault : stop.fault ≠ .tooDeep := fun heq =>
      Nat.not_lt.mpr h (Json.deepest_lt_openings hread heq)
    exact ⟨.null, by rw [said_of_stops hread, if_neg hfault]⟩

theorem Shallow.payload {v : Value} (h : Shallow v) : ∃ p, payload v = .ok p := by
  rw [payload_eq]
  cases htext : textIn? v with
  | none => exact ⟨v, rfl⟩
  | some s => exact said_of_shallow (h s htext)

namespace Model

variable {α : Type} {model : Model α} {v : Value} {vs : List Value} {rs : List α}

theorem decodeOne_of_payload {p : Value} (h : payload v = .ok p) :
    model.decodeOne v = .ok (model.ofPayload? p) := by
  rw [decodeOne, h]
  rfl

theorem decodeOne_of_other {p : Value} (h : payload v = .ok p) (hp : ∀ es, p ≠ .map es) :
    model.decodeOne v = .ok none := by
  rw [decodeOne_of_payload h]
  cases p with
  | map es => exact absurd rfl (hp es)
  | _ => rfl

theorem decodeMany_of_payload (h : payload v = .ok (.list vs)) :
    model.decodeMany v = model.decodeAll vs := by
  rw [decodeMany, h]
  rfl

theorem decodeMany_of_other {p : Value} (h : payload v = .ok p) (hp : ∀ vs, p ≠ .list vs) :
    model.decodeMany v = .ok none := by
  rw [decodeMany, h]
  cases p with
  | list vs => exact absurd rfl (hp vs)
  | _ => rfl

/-- The first payload decides whether the others are looked at. -/
theorem decodeAll_cons (v : Value) (vs : List Value) :
    model.decodeAll (v :: vs) =
      match model.decodeOne v with
      | .ok none => .ok none
      | .ok (some r) => (model.decodeAll vs).map (Option.map (r :: ·))
      | .error e => .error e := by
  rw [decodeAll]
  cases model.decodeOne v with
  | error e => rfl
  | ok r =>
    cases r with
    | none => rfl
    | some r => cases model.decodeAll vs <;> rfl

theorem decodeAll_eq_some :
    model.decodeAll vs = .ok (some rs) ↔
      List.Forall₂ (fun v r => model.decodeOne v = .ok (some r)) vs rs := by
  induction vs generalizing rs with
  | nil => cases rs <;> simp [decodeAll]
  | cons v vs ih =>
    rw [decodeAll_cons]
    rcases hv : model.decodeOne v with e | _ | r
    · cases rs <;> simp [hv]
    · cases rs <;> simp [hv]
    · rcases hvs : model.decodeAll vs with e | _ | rs'
      · cases rs <;> simp [hv, Except.map, ← ih, hvs]
      · cases rs <;> simp [hv, Except.map, ← ih, hvs]
      · cases rs <;> simp [hv, Except.map, ← ih, hvs]

theorem decodeAll_eq_none {good rest : List Value}
    (hgood : ∀ g ∈ good, ∃ r, model.decodeOne g = .ok r) (hv : model.decodeOne v = .ok none) :
    model.decodeAll (good ++ v :: rest) = .ok none := by
  induction good with
  | nil => rw [List.nil_append, decodeAll_cons, hv]
  | cons g good ih =>
    obtain ⟨⟨r, hr⟩, hgood⟩ := List.forall_mem_cons.mp hgood
    rw [List.cons_append, decodeAll_cons, hr, ih hgood]
    cases r <;> rfl

theorem exists_decodeAll (h : ∀ v ∈ vs, ∃ r, model.decodeOne v = .ok r) :
    ∃ r, model.decodeAll vs = .ok r := by
  induction vs with
  | nil => exact ⟨some [], rfl⟩
  | cons v vs ih =>
    obtain ⟨⟨r, hr⟩, hrest⟩ := List.forall_mem_cons.mp h
    obtain ⟨rs, hrs⟩ := ih hrest
    rw [decodeAll_cons, hr, hrs]
    cases r with
    | none => exact ⟨none, rfl⟩
    | some r => exact ⟨rs.map (r :: ·), rfl⟩

theorem decodeMany_eq_some :
    model.decodeMany v = .ok (some rs) ↔ ∃ vs, payload v = .ok (.list vs) ∧
      List.Forall₂ (fun v r => model.decodeOne v = .ok (some r)) vs rs := by
  constructor
  · intro h
    cases hp : payload v with
    | error e => simp [decodeMany, hp, bind, Except.bind] at h
    | ok p =>
      by_cases hlist : ∃ vs, p = .list vs
      · obtain ⟨vs, rfl⟩ := hlist
        rw [decodeMany_of_payload hp] at h
        exact ⟨vs, rfl, decodeAll_eq_some.mp h⟩
      · rw [decodeMany_of_other hp fun vs heq => hlist ⟨vs, heq⟩] at h
        simp at h
  · rintro ⟨vs, hp, h⟩
    rw [decodeMany_of_payload hp, decodeAll_eq_some.mpr h]

end Model

/-! ### Columns -/

/-- What a model makes of a column, whatever the column holds. -/
structure Lenient {α : Type} (model : Model α) (v : Value) : Prop where
  map : ∀ es, payload v = .ok (.map es) → model.decodeOne v = .ok (model es)
  no_map : ∀ p, payload v = .ok p → (∀ es, p ≠ .map es) → model.decodeOne v = .ok none
  one_answered : Shallow v → ∃ r, model.decodeOne v = .ok r
  many_answered : Shallow v → (∀ vs, payload v = .ok (.list vs) → ∀ x ∈ vs, Shallow x) →
    ∃ rs, model.decodeMany v = .ok rs
  /-- The records of a list are those of its items, each in its place. -/
  together : ∀ rs, model.decodeMany v = .ok (some rs) ↔ ∃ vs, payload v = .ok (.list vs) ∧
    List.Forall₂ (fun x r => model.decodeOne x = .ok (some r)) vs rs
  empty : payload v = .ok (.list []) → model.decodeMany v = .ok (some [])
  /-- An item without a record leaves none for the others. -/
  spoiled : ∀ before bad after, payload v = .ok (.list (before ++ bad :: after)) →
    (∀ x ∈ before, ∃ r, model.decodeOne x = .ok r) → model.decodeOne bad = .ok none →
    model.decodeMany v = .ok none
  no_list : ∀ p, payload v = .ok p → (∀ vs, p ≠ .list vs) → model.decodeMany v = .ok none
  /-- A text that means the column's data, and its bytes, decode like the data. A number too long to be
  read leaves no record, and nesting too deep to be read no answer. -/
  meant : ∀ s depth long, Json.Means s v depth long → textIn? v = none →
    ∀ w ∈ [Value.text s, Value.bytes s.toUTF8],
      (depth ≤ Json.deepest → long = false →
        model.decodeOne w = model.decodeOne v ∧ model.decodeMany w = model.decodeMany v) ∧
      (depth ≤ Json.deepest → long = true →
        model.decodeOne w = .ok none ∧ model.decodeMany w = .ok none) ∧
      (Json.deepest < depth → long = false →
        model.decodeOne w = .error ⟨⟩ ∧ model.decodeMany w = .error ⟨⟩)

theorem payload_of_mem {s : String} {w : Value} (h : w ∈ [Value.text s, Value.bytes s.toUTF8]) :
    payload w = said s := by
  rcases List.mem_pair.mp h with rfl | rfl
  · rfl
  · rw [payload, Text.Utf8.decode_toUTF8]

/-- Related records decode together or not at all, and a text decodes like the data that it means. -/
theorem relations_decode_together {α : Type} (model : Model α) (v : Value) : Lenient model v where
  map es hp := Model.decodeOne_of_payload hp
  no_map p hp hmap := Model.decodeOne_of_other hp hmap
  one_answered shallow := by
    obtain ⟨p, hp⟩ := shallow.payload
    exact ⟨_, Model.decodeOne_of_payload hp⟩
  many_answered shallow items := by
    obtain ⟨p, hp⟩ := shallow.payload
    by_cases hlist : ∃ vs, p = .list vs
    · obtain ⟨vs, rfl⟩ := hlist
      rw [Model.decodeMany_of_payload hp]
      refine Model.exists_decodeAll fun x hx => ?_
      obtain ⟨q, hq⟩ := (items vs hp x hx).payload
      exact ⟨_, Model.decodeOne_of_payload hq⟩
    · exact ⟨none, Model.decodeMany_of_other hp fun vs heq => hlist ⟨vs, heq⟩⟩
  together rs := Model.decodeMany_eq_some
  empty hp := Model.decodeMany_of_payload hp
  spoiled before bad after hp hbefore hbad := by
    rw [Model.decodeMany_of_payload hp]
    exact Model.decodeAll_eq_none hbefore hbad
  no_list p hp hlist := Model.decodeMany_of_other hp hlist
  meant s depth long hmeans hdata w hw := by
    have hsaid := payload_of_mem hw
    obtain ⟨hread, hlong, hdeep⟩ := said_of_means hmeans
    refine ⟨fun hd hl => ?_, fun hd hl => ?_, fun hd hl => ?_⟩
    · have hsame := (hsaid.trans (hread hd hl)).trans (payload_of_data hdata).symm
      exact ⟨by simp only [Model.decodeOne, hsame], by simp only [Model.decodeMany, hsame]⟩
    · have hnull := hsaid.trans (hlong hd hl)
      exact ⟨Model.decodeOne_of_other hnull (by simp), Model.decodeMany_of_other hnull (by simp)⟩
    · have herror := hsaid.trans (hdeep hd hl)
      exact ⟨by rw [Model.decodeOne, herror]; rfl, by rw [Model.decodeMany, herror]; rfl⟩

/-! ### Records of one member -/

def tagShape : Shape := [{ name := "id", type := ⟨.i64, false⟩ }]

def tag (n : Nat) : Value := .map [(.text "id", .int n)]

theorem spelled_id : Json.Spelled "id".toList "id".toList :=
  .plainly (by decide)

theorem written_digit {d : Char} (hd : d.isDigit = true) (hzero : d ≠ '0') :
    Json.Written 0 false [d] (.value (.int (Decimal.ofDigits [d]))) := by
  have hwhole : Json.WholePart [d] := .inr ⟨⟨by simp, by simpa using hd⟩, by simpa using hzero⟩
  exact .number (.whole false hwhole)

theorem written_tag {d : Char} (hd : d.isDigit = true) (hzero : d ≠ '0') :
    Json.Written 1 false ("\x7b\"id\":".toList ++ d :: ['}'])
      (.value (tag (Decimal.ofDigits [d]))) :=
  .map (.lastEntry blanks_nil spelled_id blanks_nil blanks_nil (written_digit hd hzero) blanks_nil)

theorem means_tags :
    Json.Means "[\x7b\"id\":1\x7d,\x7b\"id\":2\x7d]" (.list [tag 1, tag 2]) 2 false := by
  have first := written_tag (d := '1') (by decide) (by decide)
  have second := written_tag (d := '2') (by decide) (by decide)
  exact ⟨[], _, [], rfl, blanks_nil, blanks_nil,
    .list (.item blanks_nil first blanks_nil (.lastItem blanks_nil second blanks_nil))⟩

theorem relations_decode_together_tags :
    tagShape.model.decodeMany (.text "[\x7b\"id\":1\x7d,\x7b\"id\":2\x7d]") =
        .ok (some [tag 1, tag 2]) ∧
      tagShape.model.decodeMany (.list [tag 1, .null]) = .ok none := by
  constructor
  · have hmeant := (relations_decode_together tagShape.model _).meant _ 2 false means_tags rfl
    exact ((hmeant _ List.mem_cons_self).1 (by decide) rfl).2.trans rfl
  · refine (relations_decode_together tagShape.model _).spoiled [tag 1] .null [] rfl ?_ rfl
    simpa using ⟨_, rfl⟩

/-! ### Nesting too deep -/

/-- Lists that hold one another, the innermost one empty. -/
def nested : Nat → Value
  | 0 => .list []
  | n + 1 => .list [nested n]

def nestedChars : Nat → List Char
  | 0 => ['[', ']']
  | n + 1 => '[' :: (nestedChars n ++ [']'])

theorem written_nested (n : Nat) :
    Json.Written (n + 1) false (nestedChars n) (.value (nested n)) := by
  induction n with
  | zero => exact .emptyList blanks_nil
  | succ n ih =>
    have item := Json.Written.lastItem blanks_nil ih blanks_nil
    rw [List.append_nil] at item
    exact .list item

/-- A tag that keeps lists in a member which its record does not have. -/
def laden (n : Nat) : Value :=
  .map [(.text "id", .int 7), (.text "by", nested n)]

def ladenText (n : Nat) : String :=
  String.ofList ('\x7b' :: '"' :: ("id".toList ++ '"' :: ':' :: '7' :: ',' :: '"' ::
    ("by".toList ++ '"' :: ':' :: (nestedChars n ++ ['}']))))

theorem spelled_by : Json.Spelled "by".toList "by".toList :=
  .plainly (by decide)

theorem mapOf_laden (x : Value) :
    Json.mapOf [(String.ofList "id".toList, .int (Decimal.ofDigits ['7'])),
      (String.ofList "by".toList, x)] = [(.text "id", .int 7), (.text "by", x)] := by
  rw [String.ofList_toList, String.ofList_toList]
  simp [Json.mapOf, Value.put]
  rfl

theorem means_laden (n : Nat) : Json.Means (ladenText n) (laden n) (n + 2) false := by
  have first := written_digit (d := '7') (by decide) (by decide)
  have behind := Json.Written.lastEntry blanks_nil spelled_by blanks_nil blanks_nil
    (written_nested n) blanks_nil
  have whole := Json.Written.map
    (.entry blanks_nil spelled_id blanks_nil blanks_nil first blanks_nil behind)
  rw [Nat.zero_max, mapOf_laden] at whole
  have hwritten : Json.Written (n + 2) false _ (.value (laden n)) := whole
  refine ⟨[], _, [], ?_, blanks_nil, blanks_nil, hwritten⟩
  simp only [ladenText, String.toList_ofList, List.nil_append, List.append_nil, List.cons_append,
    List.append_assoc]

theorem laden_refused {n : Nat} (h : Json.deepest < n + 2) :
    tagShape.model.decodeOne (.text (ladenText n)) = .error ⟨⟩ := by
  have hsaid := (said_of_means (means_laden n)).2.2 h rfl
  rw [Model.decodeOne, payload, hsaid]
  rfl

theorem laden_taken (n : Nat) : tagShape.model.decodeOne (laden n) = .ok (some (tag 7)) :=
  rfl

/-- A record is lost, and its query with it, when a member that it does not even take nests too
deeply in the text. -/
theorem record_lost_in_depth :
    tagShape.model.decodeOne (laden 20000) = .ok (some (tag 7)) ∧
      tagShape.model.decodeOne (.text (ladenText 20000)) = .error ⟨⟩ :=
  ⟨laden_taken 20000, laden_refused (by decide)⟩

end TableLoom.Record
