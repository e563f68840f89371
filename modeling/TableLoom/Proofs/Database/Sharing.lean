import TableLoom.Proofs.Database.Lending

/-!
Transactions that share a pool. However they interleave, a connection is lent exactly while one active
transaction has it. An executor is given out by an active transaction only, but it stays bound to the
connection: what is issued through it later runs there all the same, and so in the transaction that it
was given out for exactly if that one is still active.
-/

namespace TableLoom.Database

open Statement (Bound)

/-- The transactions begun over a pool, the connections that it has lent, and the executors given out,
each with the number of its transaction. -/
structure Sharing where
  pool : String
  begun : List Transaction := []
  lent : List ConnectionId := []
  given : List (Nat × Executor) := []

/-- The connections that are lent after an event. -/
def Event.settle (lent : List ConnectionId) : Event → List ConnectionId
  | .take c => c :: lent
  | .giveBack c => lent.filter (· != c)
  | _ => lent

namespace Sharing

/-- What can be asked for while transactions share a pool. -/
inductive Request where
  /-- A transaction is begun on what the pool offers. -/
  | begin (offer : Except Fault ConnectionId)
  | use (i : Nat) (u : Transaction.Use)
  /-- The executor of a transaction is asked for, and kept. -/
  | ask (i : Nat)
  /-- A statement is issued through an executor that was given out. -/
  | issue (k : Nat) (offer : Except Fault ConnectionId) (statement : Bound) (reply : Reply)

/-- Whether the pool can make an offer: what is lent it does not offer. -/
def canOffer (s : Sharing) : Except Fault ConnectionId → Bool
  | .ok c => !s.lent.contains c
  | .error _ => true

/-- What has come about, with the pool's ledger brought up to date. -/
def book (s : Sharing) (events : List Event) : Sharing × List Event :=
  ({ s with lent := events.foldl Event.settle s.lent }, events)

def step (s : Sharing) : Request → Sharing × List Event
  | .begin offer =>
    if s.canOffer offer then
      let o := Transaction.begin (.pooled s.pool) offer
      ({ s with begun := s.begun ++ o.result.toOption.toList }).book o.events
    else (s, [])
  | .use i u =>
    match s.begun[i]? with
    | none => (s, [])
    | some t => ({ s with begun := s.begun.set i (t.use u).1 }).book (t.use u).2
  | .ask i =>
    let executor := s.begun[i]?.bind fun t => t.executor.toOption
    ({ s with given := s.given ++ (executor.map fun e => (i, e)).toList }, [])
  | .issue k offer statement reply =>
    match s.given[k]? with
    | none => (s, [])
    | some (_, e) => s.book (e.run offer statement reply).events

def after (s : Sharing) (requests : List Request) : Sharing :=
  requests.foldl (fun s r => (s.step r).1) s

/-- A transaction is active and has a connection. -/
def Holds (s : Sharing) (i : Nat) (c : ConnectionId) : Prop :=
  ∃ t, s.begun[i]? = some t ∧ t.state = .active ∧ t.connection = c

def IsActive (s : Sharing) (i : Nat) : Prop :=
  ∃ c, s.Holds i c

/-- The transaction whose executor was given out for what a request issues. -/
def through? (s : Sharing) : Request → Option Nat
  | .issue k .. => s.given[k]?.map (·.1)
  | _ => none

/-- The transaction that the statements of a request are meant for. -/
def meantFor? (s : Sharing) : Request → Option Nat
  | .use i _ => some i
  | r => s.through? r

/-- The statements of a request run on the connection of the transaction that they are meant for, and
while it is active. -/
def Within (s : Sharing) (r : Request) : Prop :=
  ∀ i ∈ s.meantFor? r, ∀ c st, .send c st ∈ (s.step r).2 → s.Holds i c

/-- What all sharing of a pool keeps. -/
structure Sound (s : Sharing) : Prop where
  lent : ∀ c, c ∈ s.lent ↔ ∃ i, s.Holds i c
  apart : ∀ c i j, s.Holds i c → s.Holds j c → i = j
  sources : ∀ t ∈ s.begun, t.source = .pooled s.pool
  given : ∀ x ∈ s.given, ∃ t, s.begun[x.1]? = some t ∧ x.2 = .bound t.connection true

/-- What one request can change. -/
inductive Change (s : Sharing) : Sharing → Prop
  | none : Change s s
  | lends {t : Transaction} (source : t.source = .pooled s.pool) (active : t.state = .active)
      (free : t.connection ∉ s.lent) :
      Change s { s with begun := s.begun ++ [t], lent := t.connection :: s.lent }
  | ends {i : Nat} {t : Transaction} {state : TransactionState} (at_ : s.begun[i]? = some t)
      (active : t.state = .active) (spent : state ≠ .active) :
      Change s { s with
        begun := s.begun.set i { t with state }, lent := s.lent.filter (· != t.connection) }
  | gives {i : Nat} {t : Transaction} (at_ : s.begun[i]? = some t) (active : t.state = .active) :
      Change s { s with given := s.given ++ [(i, .bound t.connection true)] }

section

variable {s : Sharing}

theorem settle_quiet {t : Transaction} {events : List Event} (quiet : t.Quiet events)
    (lent : List ConnectionId) : events.foldl Event.settle lent = lent := by
  induction events with
  | nil => rfl
  | cons e rest ih =>
      obtain ⟨he, hrest⟩ := List.forall_mem_cons.mp quiet
      rw [List.foldl_cons]
      have hsettle : Event.settle lent e = lent := by
        rcases he with rfl | ⟨st, rfl⟩ | rfl <;> rfl
      rw [hsettle]
      exact ih hrest

theorem book_quiet {t : Transaction} {events : List Event} (quiet : t.Quiet events) :
    s.book events = (s, events) := by
  rw [book, settle_quiet quiet]

theorem set_begun {i : Nat} {t : Transaction} (at_ : s.begun[i]? = some t) :
    { s with begun := s.begun.set i t } = s := by
  obtain ⟨hi, rfl⟩ := List.getElem?_eq_some_iff.mp at_
  rw [List.set_getElem_self]

theorem change_begin (offer : Except Fault ConnectionId) : s.Change (s.step (.begin offer)).1 := by
  rw [step]
  split
  · next hoffer =>
      cases offer with
      | error f => simpa [Transaction.begin, Executor.acquire, Executor.connection, Except.map,
          Except.toOption, book] using Change.none
      | ok c =>
          have hfree : c ∉ s.lent := by simpa [canOffer] using hoffer
          exact Change.lends (t := { source := .pooled s.pool, connection := c }) rfl rfl hfree
  · exact .none

theorem change_use (sound : s.Sound) (i : Nat) (u : Transaction.Use) :
    s.Change (s.step (.use i u)).1 := by
  rw [step]
  cases hat : s.begun[i]? with
  | none => exact .none
  | some t =>
      have hrelease : t.source.release t.connection = [.giveBack t.connection] := by
        rw [sound.sources t (List.mem_of_getElem? hat)]
        rfl
      have hturn := t.turn_use u
      simp only
      generalize t.use u = next at hturn
      obtain ⟨t', events⟩ := next
      cases hturn with
      | working _ quiet =>
          rw [set_begun hat, book_quiet quiet]
          exact .none
      | ended _ =>
          rw [set_begun hat]
          exact .none
      | settled state active spent ends =>
          rw [hrelease]
          obtain ⟨agreed, rfl | rfl⟩ := ends <;> exact .ends hat active spent

theorem executor_ok {t : Transaction} {e : Executor} (h : t.executor = .ok e) :
    t.state = .active ∧ e = .bound t.connection true := by
  unfold Transaction.executor at h
  split at h
  · next hactive => exact ⟨by simpa [Transaction.isActive] using hactive, (Except.ok.inj h).symm⟩
  · cases h

theorem change_ask (i : Nat) : s.Change (s.step (.ask i)).1 := by
  rw [step]
  cases hat : s.begun[i]? with
  | none => simpa using Change.none
  | some t =>
      cases hexecutor : t.executor with
      | error refusal => simpa [hexecutor, Except.toOption] using Change.none
      | ok e =>
          obtain ⟨hactive, rfl⟩ := executor_ok hexecutor
          simpa [hexecutor, Except.toOption] using Change.gives hat hactive

/-- What is issued through an executor that was given out runs on the connection of its transaction,
whatever has become of that one. -/
theorem issued (sound : s.Sound) {k i : Nat} {e : Executor} (hk : s.given[k]? = some (i, e))
    (offer : Except Fault ConnectionId) (st : Bound) (reply : Reply) :
    ∃ t, s.begun[i]? = some t ∧ s.step (.issue k offer st reply) =
      (s, [.openCursor t.connection, .send t.connection st, .closeCursor t.connection]) := by
  obtain ⟨t, hat, rfl⟩ := sound.given _ (List.mem_of_getElem? hk)
  refine ⟨t, hat, ?_⟩
  simp only [step, hk]
  rw [book_quiet (t.quiet_run offer st reply), Executor.events_run_bound]

theorem step_change (sound : s.Sound) (r : Request) : s.Change (s.step r).1 := by
  cases r with
  | begin offer => exact change_begin offer
  | use i u => exact change_use sound i u
  | ask i => exact change_ask i
  | issue k offer st reply =>
      cases hk : s.given[k]? with
      | none =>
          simp only [step, hk]
          exact .none
      | some x =>
          obtain ⟨t, -, hstep⟩ := issued sound hk offer st reply
          rw [hstep]
          exact .none

theorem holds_append {t : Transaction} (active : t.state = .active) {i : Nat} {c : ConnectionId} :
    Holds { s with begun := s.begun ++ [t], lent := t.connection :: s.lent } i c ↔
      s.Holds i c ∨ i = s.begun.length ∧ c = t.connection := by
  unfold Holds
  rcases Nat.lt_trichotomy i s.begun.length with hi | rfl | hi
  · simp [List.getElem?_append_left hi, Nat.ne_of_lt hi]
  · simp [active, eq_comm]
  · have hpos : i - s.begun.length ≠ 0 := by omega
    simp [List.getElem?_append_right (Nat.le_of_lt hi), hpos, Nat.le_of_lt hi,
      Nat.ne_of_gt hi]

theorem holds_set {i : Nat} {t : Transaction} {state : TransactionState}
    (at_ : s.begun[i]? = some t) (spent : state ≠ .active) {j : Nat} {c : ConnectionId} :
    Holds { s with
      begun := s.begun.set i { t with state }, lent := s.lent.filter (· != t.connection) } j c ↔
      s.Holds j c ∧ j ≠ i := by
  unfold Holds
  by_cases hj : j = i
  · subst hj
    simp [(List.getElem?_eq_some_iff.mp at_).1, spent]
  · simp [List.getElem?_set_ne (Ne.symm hj), hj]

/-- A connection that nobody has is lent to a transaction that begins. -/
theorem Sound.lends {t : Transaction} (sound : s.Sound) (source : t.source = .pooled s.pool)
    (active : t.state = .active) (free : t.connection ∉ s.lent) :
    Sound { s with begun := s.begun ++ [t], lent := t.connection :: s.lent } := by
  have hfree : ∀ i, ¬ s.Holds i t.connection := fun i hi => free ((sound.lent _).mpr ⟨i, hi⟩)
  refine ⟨fun c => ?_, fun c i j hi hj => ?_, ?_, fun x hx => ?_⟩
  · simp only [holds_append active, List.mem_cons, sound.lent]
    constructor
    · rintro (rfl | ⟨i, hi⟩)
      · exact ⟨_, .inr ⟨rfl, rfl⟩⟩
      · exact ⟨i, .inl hi⟩
    · rintro ⟨i, hi | ⟨-, rfl⟩⟩
      · exact .inr ⟨i, hi⟩
      · exact .inl rfl
  · rw [holds_append active] at hi hj
    rcases hi with hi | ⟨rfl, rfl⟩ <;> rcases hj with hj | ⟨rfl, hc⟩
    · exact sound.apart c i j hi hj
    · exact absurd (hc ▸ hi) (hfree i)
    · exact absurd hj (hfree j)
    · rfl
  · rw [List.forall_mem_append, List.forall_mem_singleton]
    exact ⟨sound.sources, source⟩
  · obtain ⟨u, hu, hx⟩ := sound.given x hx
    exact ⟨u, by rw [List.getElem?_append_left (List.getElem?_eq_some_iff.mp hu).1, hu], hx⟩

/-- What an active transaction had is free when it has ended, as no other one had it. -/
theorem Sound.ends {i : Nat} {t : Transaction} {state : TransactionState} (sound : s.Sound)
    (at_ : s.begun[i]? = some t) (active : t.state = .active) (spent : state ≠ .active) :
    Sound { s with
      begun := s.begun.set i { t with state }, lent := s.lent.filter (· != t.connection) } := by
  have hholds : s.Holds i t.connection := ⟨t, at_, active, rfl⟩
  refine ⟨fun c => ?_, fun c j k hj hk => ?_, fun u hu => ?_, fun x hx => ?_⟩
  · simp only [holds_set at_ spent, List.mem_filter, sound.lent, bne_iff_ne]
    constructor
    · rintro ⟨⟨j, hj⟩, hc⟩
      refine ⟨j, hj, ?_⟩
      rintro rfl
      obtain ⟨u, hu, -, rfl⟩ := hj
      rw [at_] at hu
      exact hc (congrArg _ (Option.some.inj hu).symm)
    · rintro ⟨j, hj, hji⟩
      refine ⟨⟨j, hj⟩, ?_⟩
      rintro rfl
      exact hji (sound.apart _ j i hj hholds)
  · rw [holds_set at_ spent] at hj hk
    exact sound.apart c j k hj.1 hk.1
  · rcases List.mem_or_eq_of_mem_set hu with hu | rfl
    · exact sound.sources u hu
    · exact sound.sources t (List.mem_of_getElem? at_)
  · obtain ⟨u, hu, hx⟩ := sound.given x hx
    by_cases hi : x.1 = i
    · rw [hi, at_] at hu
      obtain rfl := Option.some.inj hu
      exact ⟨{ t with state }, by simp [hi, (List.getElem?_eq_some_iff.mp at_).1], hx⟩
    · exact ⟨u, by rw [List.getElem?_set_ne (Ne.symm hi), hu], hx⟩

theorem Change.sound {s' : Sharing} (change : s.Change s') (sound : s.Sound) : s'.Sound := by
  cases change with
  | none => exact sound
  | lends source active free => exact sound.lends source active free
  | ends at_ active spent => exact sound.ends at_ active spent
  | gives at_ active =>
      refine ⟨sound.lent, sound.apart, sound.sources, ?_⟩
      rw [List.forall_mem_append, List.forall_mem_singleton]
      exact ⟨sound.given, _, at_, rfl⟩

theorem sound_after (sound : s.Sound) (requests : List Request) : (s.after requests).Sound := by
  induction requests generalizing s with
  | nil => exact sound
  | cons r rest ih => exact ih ((step_change sound r).sound sound)

theorem sound_idle (pool : String) : Sound { pool } where
  lent c := by simp [Holds]
  apart c i j hi hj := by
    obtain ⟨t, ht, -⟩ := hi
    cases ht
  sources := by simp
  given := by simp

/-- What is asked of a transaction at the time runs in it. -/
theorem within_use (sound : s.Sound) (i : Nat) (u : Transaction.Use) : s.Within (.use i u) := by
  intro j hj c st hmem
  obtain rfl := Option.mem_some.mp hj
  rw [step] at hmem
  cases hat : s.begun[i]? with
  | none => simp [hat] at hmem
  | some t =>
      have hturn := t.turn_use u
      simp only [hat, book] at hmem
      generalize t.use u = next at hturn hmem
      obtain ⟨t', events⟩ := next
      cases hturn with
      | working active quiet =>
          rcases quiet _ hmem with h | ⟨st', h⟩ | h
          · cases h
          · obtain ⟨rfl, -⟩ := Event.send.inj h
            exact ⟨t', hat, active, rfl⟩
          · cases h
      | ended _ => cases hmem
      | settled state active spent ends =>
          rw [sound.sources t (List.mem_of_getElem? hat)] at hmem
          obtain ⟨agreed, rfl | rfl⟩ := ends <;> simp [Executor.release] at hmem

theorem isActive_iff {i : Nat} {t : Transaction} (hat : s.begun[i]? = some t) :
    s.IsActive i ↔ t.state = .active := by
  constructor
  · rintro ⟨c, u, hu, hactive, -⟩
    rw [hat] at hu
    exact Option.some.inj hu ▸ hactive
  · exact fun hactive => ⟨t.connection, t, hat, hactive, rfl⟩

theorem within_issue (sound : s.Sound) (k : Nat) (offer : Except Fault ConnectionId) (st : Bound)
    (reply : Reply) : s.Within (.issue k offer st reply) ↔
      ∀ i ∈ s.through? (.issue k offer st reply), s.IsActive i := by
  refine forall₂_congr fun i hi => ?_
  obtain ⟨⟨i, e⟩, hk, rfl⟩ := Option.map_eq_some_iff.mp hi
  obtain ⟨t, hat, hstep⟩ := issued sound hk offer st reply
  rw [hstep]
  constructor
  · exact fun h => ⟨t.connection, h _ st (by simp)⟩
  · intro hactive c st' hmem
    have hc : c = t.connection := by
      have h : c = t.connection ∧ st' = st := by simpa using hmem
      exact h.1
    exact ⟨t, hat, (isActive_iff hat).mp hactive, hc.symm⟩

theorem within_iff (sound : s.Sound) (r : Request) :
    s.Within r ↔ ∀ i ∈ s.through? r, s.IsActive i := by
  cases r with
  | begin offer => exact iff_of_true (by simp [Within, meantFor?, through?]) (by simp [through?])
  | ask i => exact iff_of_true (by simp [Within, meantFor?, through?]) (by simp [through?])
  | use i u => exact iff_of_true (within_use sound i u) (by simp [through?])
  | issue k offer st reply => exact within_issue sound k offer st reply

theorem ask_spent {i : Nat} (spent : ¬ s.IsActive i) : s.step (.ask i) = (s, []) := by
  rw [step]
  cases hat : s.begun[i]? with
  | none => simp
  | some t =>
      have hexecutor : t.executor = .error (.finished t.state) := by
        rw [isActive_iff hat] at spent
        simp [Transaction.executor, Transaction.isActive, spent]
      simp [hexecutor, Except.toOption]

end

/-- However transactions over one pool interleave, a connection is lent exactly while one active
transaction has it, and a transaction gives out its executor only while it is active. The statements of a
request run in the transaction that they are meant for exactly if that one is active at the time. Else
they run all the same, on a connection that is back in the pool or belongs to another transaction. -/
theorem statements_within_active (pool : String) (requests : List Request) :
    let s := Sharing.after { pool } requests
    (∀ c, (c ∈ s.lent ↔ ∃ i, s.Holds i c) ∧ ∀ i j, s.Holds i c → s.Holds j c → i = j) ∧
    (∀ i, ¬ s.IsActive i → s.step (.ask i) = (s, [])) ∧
    ∀ r, (s.Within r ↔ ∀ i ∈ s.through? r, s.IsActive i) ∧
      ∀ i ∈ s.through? r, ¬ s.IsActive i → ∃ c st,
        (s.step r).2 = [.openCursor c, .send c st, .closeCursor c] ∧
        (c ∉ s.lent ∨ ∃ j, j ≠ i ∧ s.Holds j c) := by
  intro s
  have sound : s.Sound := sound_after (sound_idle pool) requests
  refine ⟨fun c => ⟨sound.lent c, sound.apart c⟩, fun i => ask_spent,
    fun r => ⟨within_iff sound r, fun i hi spent => ?_⟩⟩
  cases r with
  | issue k offer st reply =>
      obtain ⟨⟨i, e⟩, hk, rfl⟩ := Option.map_eq_some_iff.mp hi
      obtain ⟨t, -, hstep⟩ := issued sound hk offer st reply
      refine ⟨t.connection, st, congrArg Prod.snd hstep, ?_⟩
      by_cases hlent : t.connection ∈ s.lent
      · obtain ⟨j, hj⟩ := (sound.lent _).mp hlent
        refine .inr ⟨j, ?_, hj⟩
        rintro rfl
        exact spent ⟨_, hj⟩
      · exact .inl hlent
  | _ => cases hi

/-- A transaction gives out its executor and is committed; the next one gets its connection. -/
def handedOn : List Request :=
  [.begin (.ok 7), .ask 0, .use 0 (.commit none), .begin (.ok 7)]

/-- What is then issued through the first transaction's executor runs in the second one. -/
theorem statement_within_other :
    let s := Sharing.after { pool := "main" } handedOn
    let r : Request := .issue 0 (.ok 7) ⟨"DELETE FROM posts", []⟩ (.count 3)
    s.through? r = some 0 ∧ ¬ s.IsActive 0 ∧ s.Holds 1 7 ∧
      .send 7 ⟨"DELETE FROM posts", []⟩ ∈ (s.step r).2 ∧ ¬ s.Within r := by
  intro s r
  have hspent : ¬ s.IsActive 0 := by
    rintro ⟨c, t, ht, hactive, -⟩
    cases ht
    cases hactive
  have hsound : s.Sound := sound_after (sound_idle "main") handedOn
  refine ⟨rfl, hspent, ⟨_, rfl, rfl, rfl⟩, List.mem_of_mem_tail (List.mem_cons_self), ?_⟩
  exact fun h => hspent ((within_iff hsound r).mp h 0 rfl)

end Sharing

end TableLoom.Database
