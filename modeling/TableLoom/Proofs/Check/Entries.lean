import TableLoom.Check.Scalar

/-!
Records read from the entries of a map. A record fits when all its parts do, and every flaw of a part is
told with the key of the part.
-/

namespace TableLoom

namespace Value

/-- The entries of a map from text keys. -/
def keyed (fields : List (String × Value)) : List (Value × Value) :=
  fields.map fun (k, v) => (.text k, v)

theorem ofFields_eq (fields : List (String × Value)) : ofFields fields = .map (keyed fields) := rfl

@[simp] theorem find?_keyed (key : String) (fields : List (String × Value)) :
    find? key (keyed fields) = fields.lookup key := by
  induction fields with
  | nil => rfl
  | cons x rest ih =>
      obtain ⟨k, v⟩ := x
      change (if k == key then some v else find? key (keyed rest)) = _
      rw [ih, List.lookup_cons]
      by_cases h : key = k
      · simp [h]
      · rw [beq_false_of_ne h, beq_false_of_ne (Ne.symm h)]
        rfl

section

variable {key : String} {entries entries' : List (Value × Value)} {v : Value}

theorem find?_cons_text (k : String) (v : Value) (rest : List (Value × Value)) :
    find? key ((.text k, v) :: rest) = if k = key then some v else find? key rest := by
  rw [find?]
  simp only [beq_iff_eq]

theorem find?_cons_of_ne {k : Value} (h : k ≠ .text key) (v : Value) (rest : List (Value × Value)) :
    find? key ((k, v) :: rest) = find? key rest := by
  cases k with
  | text s => rw [find?_cons_text, if_neg fun hs => h (congrArg _ hs)]
  | _ => rfl

/-- Where no two keys are the same, a text finds the entry that it is the key of. -/
theorem find?_eq_some_iff (distinct : (entries.map Prod.fst).Nodup) :
    find? key entries = some v ↔ (.text key, v) ∈ entries := by
  induction entries with
  | nil => simp [find?]
  | cons e rest ih =>
      obtain ⟨k, w⟩ := e
      obtain ⟨hfresh, hrest⟩ := List.nodup_cons.mp distinct
      by_cases hk : k = .text key
      · subst hk
        have hnot : (Value.text key, v) ∉ rest := fun h => hfresh (List.mem_map.mpr ⟨_, h, rfl⟩)
        rw [find?_cons_text, if_pos rfl, List.mem_cons]
        simp [hnot, eq_comm]
      · have hne : (Value.text key, v) ≠ (k, w) := fun h => hk (congrArg Prod.fst h).symm
        rw [find?_cons_of_ne hk, ih hrest, List.mem_cons]
        simp [hne]

theorem find?_of_perm (distinct : (entries.map Prod.fst).Nodup) (h : entries.Perm entries') :
    find? key entries = find? key entries' := by
  have distinct' : (entries'.map Prod.fst).Nodup := (h.map Prod.fst).nodup_iff.mp distinct
  refine Option.ext fun v => ?_
  rw [find?_eq_some_iff distinct, find?_eq_some_iff distinct', h.mem_iff]

end

end Value

namespace Check

variable {α β : Type}

namespace Checked

@[simp] theorem pure_eq_fits {a b : α} : (pure a : Checked α) = .fits b ↔ a = b :=
  ⟨Checked.fits.inj, congrArg _⟩

@[simp] theorem map_eq_fits {f : α → β} {c : Checked α} {b : β} :
    f <$> c = .fits b ↔ ∃ a, c = .fits a ∧ f a = b := by
  change map f c = .fits b ↔ _
  cases c <;> simp [map]

@[simp] theorem seq_eq_fits {f : Checked (α → β)} {c : Checked α} {b : β} :
    f <*> c = .fits b ↔ ∃ g a, f = .fits g ∧ c = .fits a ∧ g a = b := by
  change seq f c = .fits b ↔ _
  cases f <;> cases c <;> simp [seq]

@[simp] theorem seqLeft_eq_fits {c : Checked α} {d : Checked β} {a : α} :
    c <* d = .fits a ↔ c = .fits a ∧ ∃ b, d = .fits b := by
  change seq (map (Function.const β) c) d = .fits a ↔ _
  cases c <;> cases d <;> simp [seq, map]

@[simp] theorem andThen_eq_fits {c : Checked α} {f : α → Checked β} {b : β} :
    c.andThen f = .fits b ↔ ∃ a, c = .fits a ∧ f a = .fits b := by
  cases c <;> simp [andThen]

@[simp] theorem under_eq_fits {s : Step} {c : Checked α} {a : α} :
    c.under s = .fits a ↔ c = .fits a := by
  cases c <;> simp [under]

theorem value?_eq_some {c : Checked α} {a : α} : c.value? = some a ↔ c = .fits a := by
  cases c <;> simp [value?]

@[simp] theorem flaw_ne_fits {f : Flaw} {a : α} : (flaw f : Checked α) ≠ .fits a :=
  nofun

/-- Every flaw is told with a way that leads to it. -/
def Located (c : Checked α) : Prop :=
  ∀ i ∈ c.issues, i.path ≠ []

theorem located_fits (a : α) : Located (.fits a) := by
  simp [Located, issues]

theorem located_under (s : Step) (c : Checked α) : Located (c.under s) := by
  cases c <;> simp [Located, issues, under]

theorem Located.map {f : α → β} {c : Checked α} (h : Located c) : Located (f <$> c) := by
  cases c with
  | fits a => exact located_fits (f a)
  | flawed is => exact h

theorem Located.seq {f : Checked (α → β)} {c : Checked α} (hf : Located f) (hc : Located c) :
    Located (f <*> c) := by
  cases f with
  | fits g =>
      cases c with
      | fits a => exact located_fits (g a)
      | flawed is => exact hc
  | flawed is =>
      change ∀ i ∈ is ++ c.issues, i.path ≠ []
      exact List.forall_mem_append.mpr ⟨hf, hc⟩

theorem Located.seqLeft {c : Checked α} {d : Checked β} (hc : Located c) (hd : Located d) :
    Located (c <* d) :=
  hc.map.seq hd

end Checked

section

variable {entries : List (Value × Value)} {name : String} {read : Value → Checked α} {a : α}

theorem part_eq_fits :
    part entries name read = .fits a ↔ ∃ v, Value.find? name entries = some v ∧ read v = .fits a := by
  unfold part
  cases Value.find? name entries <;> simp

theorem partOr_eq_fits {default : α} : partOr entries name default read = .fits a ↔
    Value.find? name entries = none ∧ default = a ∨
      ∃ v, Value.find? name entries = some v ∧ read v = .fits a := by
  unfold partOr
  cases Value.find? name entries <;> simp

theorem part_found {v : Value} (h : Value.find? name entries = some v) :
    part entries name read = .fits a ↔ read v = .fits a := by
  simp [part_eq_fits, h]

theorem partOr_found {default : α} {v : Value} (h : Value.find? name entries = some v) :
    partOr entries name default read = .fits a ↔ read v = .fits a := by
  simp [partOr_eq_fits, h]

theorem partOr_absent {default : α} (h : Value.find? name entries = none) :
    partOr entries name default read = .fits a ↔ a = default := by
  simp [partOr_eq_fits, h, eq_comm]

theorem located_part : (part entries name read).Located := by
  unfold part
  split
  · exact Checked.located_under _ _
  · exact Checked.located_under _ _

theorem located_partOr {default : α} : (partOr entries name default read).Located := by
  unfold partOr
  split
  · exact Checked.located_under _ _
  · exact Checked.located_fits _

theorem located_noOthers (known : List String) (entries : List (Value × Value)) :
    (noOthers known entries).Located := by
  unfold noOthers
  dsimp only
  split
  · exact Checked.located_fits _
  · intro i hi
    obtain ⟨⟨k, v⟩, -, hstrange⟩ := List.mem_filterMap.mp hi
    dsimp only at hstrange
    split at hstrange
    · split at hstrange
      · cases hstrange
      · rw [← Option.some.inj hstrange]
        simp
    · rw [← Option.some.inj hstrange]
      simp

end

/-- All keys are among some that are known. -/
def Known (known : List String) (fields : List (String × Value)) : Prop :=
  ∀ x ∈ fields, x.1 ∈ known

section

variable {known : List String} {xs ys : List (String × Value)}

@[simp] theorem known_nil : Known known [] :=
  nofun

@[simp] theorem known_cons {x : String × Value} : Known known (x :: xs) ↔ x.1 ∈ known ∧ Known known xs :=
  List.forall_mem_cons

@[simp] theorem known_append : Known known (xs ++ ys) ↔ Known known xs ∧ Known known ys :=
  List.forall_mem_append

theorem noOthers_keyed (h : Known known xs) : noOthers known (Value.keyed xs) = .fits () := by
  unfold noOthers
  dsimp only
  rw [if_pos]
  rw [List.isEmpty_iff, List.filterMap_eq_nil_iff]
  intro y hy
  obtain ⟨x, hx, rfl⟩ := List.mem_map.mp hy
  simp [h x hx]

end

/-- A list fits, item by item. -/
theorem list_map_eq_fits {data : β → Value} {read : Value → Checked α} {made : β → α} {good : β → Prop}
    (h : ∀ x a, read (data x) = .fits a ↔ a = made x ∧ good x) {xs : List β} {as : List α} :
    list read (.list (xs.map data)) = .fits as ↔ as = xs.map made ∧ ∀ x ∈ xs, good x := by
  suffices hitems : ∀ i as, items read i (xs.map data) = .fits as ↔ as = xs.map made ∧ ∀ x ∈ xs, good x
    from hitems 0 as
  induction xs with
  | nil => simp [items, eq_comm]
  | cons x rest ih =>
      intro i as
      rw [List.map_cons, items]
      simp only [Checked.seq_eq_fits, Checked.map_eq_fits, Checked.under_eq_fits, h, ih, List.map_cons,
        List.forall_mem_cons]
      constructor
      · rintro ⟨_, _, ⟨_, ⟨rfl, hx⟩, rfl⟩, ⟨rfl, hrest⟩, rfl⟩
        exact ⟨rfl, hx, hrest⟩
      · rintro ⟨rfl, hx, hrest⟩
        exact ⟨_, _, ⟨_, ⟨rfl, hx⟩, rfl⟩, ⟨rfl, hrest⟩, rfl⟩

/-- Each item that is read comes from one of the list. -/
theorem exists_item_of_list {read : Value → Checked α} {v : Value} {as : List α} {a : α}
    (h : list read v = .fits as) (ha : a ∈ as) :
    ∃ vs, (v = .list vs ∨ v = .set vs) ∧ ∃ w ∈ vs, read w = .fits a := by
  have hitems (vs : List Value) : ∀ i as, items read i vs = .fits as → a ∈ as →
      ∃ w ∈ vs, read w = .fits a := by
    induction vs with
    | nil =>
        rintro i as h ha
        obtain rfl := Checked.fits.inj h
        cases ha
    | cons w rest ih =>
        intro i as h ha
        simp only [items, Checked.seq_eq_fits, Checked.map_eq_fits, Checked.under_eq_fits] at h
        obtain ⟨_, bs, ⟨b, hb, rfl⟩, hrest, rfl⟩ := h
        rcases List.mem_cons.mp ha with rfl | ha
        · exact ⟨w, List.mem_cons_self, hb⟩
        · obtain ⟨x, hx, hread⟩ := ih _ _ hrest ha
          exact ⟨x, List.mem_cons_of_mem _ hx, hread⟩
  cases v with
  | list vs => exact ⟨vs, .inl rfl, hitems vs 0 as h ha⟩
  | set vs => exact ⟨vs, .inr rfl, hitems vs 0 as h ha⟩
  | _ => cases h

theorem text_text {s t : String} : text (.text s) = .fits t ↔ t = s ∧ Text.hasHalf s = false := by
  unfold text
  dsimp only
  split
  · next hhalf => simp [hhalf]
  · next hwhole => rw [Checked.fits.injEq, eq_comm, and_iff_left (by simpa using hwhole)]

/-- What is read as a text holds no halves. -/
theorem whole_of_text {v : Value} {s : String} (h : text v = .fits s) : Text.hasHalf s = false := by
  have hspelled {t : String} (ht : text (.text t) = .fits s) : Text.hasHalf s = false := by
    obtain ⟨rfl, hwhole⟩ := text_text.mp ht
    exact hwhole
  cases v with
  | text t => exact hspelled h
  | bytes b =>
      unfold text at h
      cases hdecode : Text.Utf8.decode? b with
      | none => simp [hdecode] at h
      | some t => exact hspelled (by simpa only [hdecode, text] using h)
  | _ => cases h

theorem named_of_name {v : Value} {s : String} (h : name v = .fits s) :
    s ≠ "" ∧ Text.hasHalf s = false := by
  obtain ⟨t, ht, h⟩ := Checked.andThen_eq_fits.mp h
  split at h
  · cases h
  · next hempty =>
      obtain rfl := Checked.fits.inj h
      exact ⟨by simpa using hempty, whole_of_text ht⟩

theorem whole_of_optional {v : Value} {s : Option String} (h : optional text v = .fits s) :
    ∀ x ∈ s, Text.hasHalf x = false := by
  unfold optional at h
  split at h
  · obtain rfl := Checked.fits.inj h
    nofun
  · obtain ⟨t, ht, rfl⟩ := Checked.map_eq_fits.mp h
    exact fun x hx => Option.some.inj hx ▸ whole_of_text ht

theorem name_text {s t : String} :
    name (.text s) = .fits t ↔ t = s ∧ s ≠ "" ∧ Text.hasHalf s = false := by
  simp only [name, Checked.andThen_eq_fits, text_text]
  constructor
  · rintro ⟨_, ⟨rfl, hwhole⟩, h⟩
    split at h
    · cases h
    · next hempty => exact ⟨(Checked.fits.inj h).symm, by simpa using hempty, hwhole⟩
  · rintro ⟨rfl, hempty, hwhole⟩
    exact ⟨_, ⟨rfl, hwhole⟩, by simp [hempty]⟩

/-- What is chosen has the name that is spelled out. -/
theorem spelling_of_oneOf {all : List α} {name : α → String} {v : Value} {a : α}
    (h : oneOf all name v = .fits a) : spelling? v = some (name a) := by
  unfold oneOf at h
  split at h
  · next b hb =>
      obtain rfl := Checked.fits.inj h
      have hnamed := List.find?_some (p := fun x => some (name x) == spelling? v) hb
      exact (beq_iff_eq.mp hnamed).symm
  · cases h

/-- A choice by its name, where names tell choices apart. -/
theorem oneOf_name {all : List α} {name : α → String} {a b : α} (member : a ∈ all)
    (apart : ∀ x ∈ all, name x = name a → x = a) :
    oneOf all name (.text (name a)) = .fits b ↔ b = a := by
  have hfound : all.find? (fun x => some (name x) == spelling? (.text (name a))) = some a := by
    have hsame : (fun x => some (name x) == spelling? (.text (name a))) = fun x => name x == name a :=
      rfl
    have hsome : (all.find? fun x => name x == name a).isSome = true :=
      List.find?_isSome.mpr ⟨a, member, beq_self_eq_true (name a)⟩
    obtain ⟨x, hx⟩ := Option.isSome_iff_exists.mp hsome
    have hname : (name x == name a) = true := List.find?_some (p := fun x => name x == name a) hx
    rw [hsame, hx, apart x (List.mem_of_find?_eq_some hx) (beq_iff_eq.mp hname)]
  rw [oneOf, hfound]
  simp [eq_comm]

section

variable {entries : List (Value × Value)} {key : String}

/-- The entries give a value under a key, or leave it out where that says the same. -/
def Given (entries : List (Value × Value)) (key : String) (v : Value) (customary : Prop) : Prop :=
  Value.find? key entries = some v ∨ Value.find? key entries = none ∧ customary

theorem flag_given {b c : Bool} (h : Given entries key (.bool b) (b = false)) :
    partOr entries key false bool = .fits c ↔ c = b := by
  obtain h | ⟨h, rfl⟩ := h
  · rw [partOr_found h]
    change Checked.fits b = .fits c ↔ c = b
    rw [Checked.fits.injEq, eq_comm]
  · exact partOr_absent h

theorem choice_given {all : List α} {name : α → String} {a b customary : α}
    (reads : ∀ b, oneOf all name (.text (name a)) = .fits b ↔ b = a)
    (h : Given entries key (.text (name a)) (a = customary)) :
    partOr entries key customary (oneOf all name) = .fits b ↔ b = a := by
  obtain h | ⟨h, rfl⟩ := h
  · rw [partOr_found h, reads]
  · exact partOr_absent h

theorem name_given {s a : String} (h : Value.find? key entries = some (.text s)) :
    part entries key name = .fits a ↔ a = s ∧ s ≠ "" ∧ Text.hasHalf s = false := by
  rw [part_found h, name_text]

theorem nameOr_given {s a customary : String} (h : Given entries key (.text s) (s = customary))
    (named : customary ≠ "" ∧ Text.hasHalf customary = false) :
    partOr entries key customary name = .fits a ↔
      a = s ∧ s ≠ "" ∧ Text.hasHalf s = false := by
  obtain h | ⟨h, rfl⟩ := h
  · rw [partOr_found h, name_text]
  · rw [partOr_absent h, and_iff_left named]

theorem given_text {s : Option String} (h : Value.find? key entries = s.map .text) :
    Given entries key (.ofText? s) (s = none) := by
  cases s with
  | none => exact .inr ⟨h, rfl⟩
  | some x => exact .inl h

theorem text_given {s a : Option String} (h : Given entries key (.ofText? s) (s = none)) :
    partOr entries key none (optional text) = .fits a ↔
      a = s ∧ ∀ x ∈ s, Text.hasHalf x = false := by
  obtain h | ⟨h, rfl⟩ := h
  · rw [partOr_found h]
    cases s with
    | none =>
        change Checked.fits none = .fits a ↔ _
        rw [Checked.fits.injEq, eq_comm]
        simp
    | some x =>
        change some <$> text (.text x) = .fits a ↔ _
        simp only [Checked.map_eq_fits, text_text, Option.mem_some_iff, forall_eq']
        constructor
        · rintro ⟨_, ⟨rfl, hwhole⟩, rfl⟩
          exact ⟨rfl, hwhole⟩
        · rintro ⟨rfl, hwhole⟩
          exact ⟨x, ⟨rfl, hwhole⟩, rfl⟩
  · simp [partOr_absent h]

theorem list_given {data : β → Value} {read : Value → Checked α} {made : β → α}
    {good : β → Prop} (reads : ∀ x a, read (data x) = .fits a ↔ a = made x ∧ good x) {xs : List β}
    {as : List α} (h : Given entries key (.list (xs.map data)) (xs = [])) :
    partOr entries key [] (list read) = .fits as ↔
      as = xs.map made ∧ ∀ x ∈ xs, good x := by
  obtain h | ⟨h, rfl⟩ := h
  · rw [partOr_found h, list_map_eq_fits reads]
  · simp [partOr_absent h]

end

end Check

end TableLoom
