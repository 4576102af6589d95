import EventSourcing.Proofs.Store.Run
import EventSourcing.Store.Query

/-! What calls and readings of an aggregate depend on. A store holds three things of an aggregate, its
stream, its key and its snapshot, together its cell. Readings of an aggregate see its cell and nothing
else, and neither does a call to it. So two stores with the same cells cannot be told apart. -/

namespace EventSourcing

/-- What a store holds of one aggregate. -/
structure Cell where
  stream : Option (List Message)
  key : Option String
  snapshot : Option Record

/-- The cell of an aggregate that was never used. -/
def Cell.unused : Cell := ⟨none, none, none⟩

inductive Reply
  | appended (m : Message)
  | stored
  /-- Whether there was such an event. -/
  | deleted (existed : Bool)
  /-- How many events the aggregate had. -/
  | removed (count : Nat)
  | cleared

variable {α σ : Type}

section

variable [Content α]

/-- The call is one to the aggregate. Calls that clear the store address none, and neither do appends
of what is no event of a registered domain. -/
inductive Operation.Addresses (r : Registry α σ) : Operation α → AggregateKey → Prop
  | append {now id : Int64} {v : Int32} {origin : List Record} {p : Payload α} {d : Int32}
      (h : r.eventDomain p = .ok d) : Addresses r (.append now id v origin p) ⟨d, id⟩
  | appendKeyed {now : Int64} {key : String} {origin : List Record} {p : Payload α} {d : Int32}
      (h : r.eventDomain p = .ok d) :
      Addresses r (.appendKeyed now key origin p) ⟨d, textHash key⟩
  | storeSnapshot (record : Record) : Addresses r (.storeSnapshot record) ⟨record.domain, record.id⟩
  | deleteEvent (k : AggregateKey) (v : Int32) : Addresses r (.deleteEvent k v) k
  | deleteAggregate (k : AggregateKey) : Addresses r (.deleteAggregate k) k

/-- A call addresses one aggregate at most. -/
theorem Operation.Addresses.unique {r : Registry α σ} {op : Operation α} {k k' : AggregateKey}
    (h : op.Addresses r k) (h' : op.Addresses r k') : k = k' := by
  cases h with
  | append hd =>
    cases h' with
    | append hd' => rw [Except.ok.inj (hd.symm.trans hd')]
  | appendKeyed hd =>
    cases h' with
    | appendKeyed hd' => rw [Except.ok.inj (hd.symm.trans hd')]
  | storeSnapshot record => cases h' with | storeSnapshot => rfl
  | deleteEvent k v => cases h' with | deleteEvent => rfl
  | deleteAggregate k => cases h' with | deleteAggregate => rfl

end

namespace Store

def cell (s : Store) (k : AggregateKey) : Cell :=
  ⟨s.streams.get? k, s.keys.get? k, s.snapshots.get? k⟩

/-- No reading of the aggregate tells the stores apart. -/
structure ReadsAlike (k : AggregateKey) (s t : Store) : Prop where
  currentVersion : s.currentVersion k = t.currentVersion k
  event? : ∀ version, s.event? k version = t.event? k version
  events : ∀ first, s.events k first = t.events k first
  eventsInPeriod : ∀ first last, s.eventsInPeriod k first last = t.eventsInPeriod k first last
  snapshot? : s.snapshot? k = t.snapshot? k
  eventsWithSnapshot : s.eventsWithSnapshot k = t.eventsWithSnapshot k
  keyedEvents : ∀ key first, textHash key = k.id →
    s.keyedEvents k.domain key first = t.keyedEvents k.domain key first

section Cells

variable {s t : Store} {k : AggregateKey}

theorem stream_eq_of_cell (h : s.cell k = t.cell k) : s.stream k = t.stream k :=
  congrArg (fun c : Cell => c.stream.getD []) h

theorem checkKey_eq_of_cell (h : s.cell k = t.cell k) (key : String) :
    s.checkKey k key = t.checkKey k key := by
  have hkey : s.keys.get? k = t.keys.get? k := congrArg Cell.key h
  unfold checkKey
  rw [hkey]

theorem currentVersion_eq_of_cell (h : s.cell k = t.cell k) :
    s.currentVersion k = t.currentVersion k := by
  unfold currentVersion
  rw [stream_eq_of_cell h]

/-- Readings of an aggregate see its cell only. -/
theorem readsAlike_of_cell (h : s.cell k = t.cell k) : s.ReadsAlike k t := by
  have hstream := stream_eq_of_cell h
  have hevents : ∀ first, s.events k first = t.events k first := by
    intro first
    unfold Store.events
    rw [hstream]
  have hsnapshot : s.snapshot? k = t.snapshot? k := congrArg Cell.snapshot h
  constructor
  case currentVersion => exact currentVersion_eq_of_cell h
  case event? =>
    intro version
    unfold Store.event?
    rw [hstream]
  case events => exact hevents
  case eventsInPeriod =>
    intro first last
    unfold Store.eventsInPeriod
    rw [hstream]
  case snapshot? => exact hsnapshot
  case eventsWithSnapshot =>
    unfold Store.eventsWithSnapshot
    simp only [hsnapshot, hevents]
  case keyedEvents =>
    intro key first hhash
    have hk : (⟨k.domain, textHash key⟩ : AggregateKey) = k := by rw [hhash]
    unfold Store.keyedEvents
    simp only [hk, checkKey_eq_of_cell h, hevents]

theorem cell_push (s : Store) (k x : AggregateKey) (m : Message) :
    (s.push k m).cell x =
      if k = x then { s.cell k with stream := some (s.stream k ++ [m]) } else s.cell x := by
  unfold push cell
  rw [Table.get?_insert]
  split
  · next hk => rw [hk]
  · rfl

theorem cell_bind (s : Store) (k x : AggregateKey) (key : String) :
    (s.bind k key).cell x =
      if k = x then { s.cell k with key := some ((s.cell k).key.getD key) } else s.cell x := by
  unfold bind Table.contains cell
  cases hbound : s.keys.get? k with
  | none =>
    rw [if_neg (by simp)]
    dsimp only
    rw [Table.get?_insert]
    split
    · next hk => rw [hk, Option.getD_none]
    · rfl
  | some bound =>
    rw [if_pos (by simp)]
    dsimp only
    split
    · next hk => rw [← hk, hbound, Option.getD_some]
    · rfl

theorem cell_storeSnapshot (s : Store) (record : Record) (x : AggregateKey) :
    (s.storeSnapshot record).cell x =
      if ⟨record.domain, record.id⟩ = x then { s.cell x with snapshot := some record }
      else s.cell x := by
  unfold storeSnapshot cell
  rw [Table.get?_insert]
  split
  · rfl
  · rfl

theorem cell_deleteEvent (s : Store) (k x : AggregateKey) (v : Int32) :
    (s.deleteEvent k v).2.cell x =
      if k = x then
        { s.cell k with stream := (s.cell k).stream.map fun events => events.filter (·.version ≠ v) }
      else s.cell x := by
  unfold deleteEvent cell
  cases hstream : s.streams.get? k with
  | none =>
    dsimp only
    split
    · next hk => rw [← hk, hstream, Option.map_none]
    · rfl
  | some events =>
    dsimp only
    rw [Table.get?_insert]
    split
    · next hk => rw [hk, Option.map_some]
    · rfl

theorem cell_deleteAggregate (s : Store) (k x : AggregateKey) :
    (s.deleteAggregate k).2.cell x = if k = x then .unused else s.cell x := by
  unfold deleteAggregate cell
  rw [Table.get?_erase, Table.get?_erase, Table.get?_erase]
  split
  · rfl
  · rfl

end Cells

section Calls

variable [Content α] {r : Registry α σ} {s s' t : Store} {op : Operation α} {k x : AggregateKey}

def answered (result : Attempt StoreError Message × Store) : Attempt StoreError Reply × Store :=
  (result.1.map .appended, result.2)

theorem answered_eq_error_iff {result : Attempt StoreError Message × Store}
    {fault : Fault StoreError} : (answered result).1 = .error fault ↔ result.1 = .error fault := by
  unfold answered
  cases result.1 with
  | ok m => simp [Except.map]
  | error fault' => simp [Except.map]

def call (r : Registry α σ) (s : Store) : Operation α → Attempt StoreError Reply × Store
  | .append now id v origin p => answered (s.append r now id v origin p)
  | .appendKeyed now key origin p => answered (s.appendKeyed r now key origin p)
  | .storeSnapshot record => (.ok .stored, s.storeSnapshot record)
  | .deleteEvent k v => (.ok (.deleted (s.deleteEvent k v).1), (s.deleteEvent k v).2)
  | .deleteAggregate k => (.ok (.removed (s.deleteAggregate k).1), (s.deleteAggregate k).2)
  | .clear => (.ok .cleared, .empty)

def answers (r : Registry α σ) (s : Store) : List (Operation α) → List (Attempt StoreError Reply)
  | [] => []
  | op :: rest => (s.call r op).1 :: answers r (s.perform r op) rest

theorem call_snd (r : Registry α σ) (s : Store) (op : Operation α) :
    (s.call r op).2 = s.perform r op := by
  cases op with
  | _ => rfl

/-- Both appends fail alike, or both put an event into the cell of `k`, which `f` then leaves with
what is done there besides. -/
def AppendsAlike (s t : Store) (k : AggregateKey) (f : Store → Store)
    (a b : Attempt StoreError Message × Store) : Prop :=
  (∃ m, a = (.ok m, f (s.push k m)) ∧ b = (.ok m, f (t.push k m))) ∨
    ∃ fault, a = (.error fault, s) ∧ b = (.error fault, t)

theorem appendAt_congr (h : s.cell k = t.cell k) (now : Int64) (v : Int32) (origin : List Record)
    (p : Payload α) :
    AppendsAlike s t k id (s.appendAt r now k v origin p) (t.appendAt r now k v origin p) := by
  unfold appendAt
  rw [currentVersion_eq_of_cell h]
  split
  · exact .inr ⟨_, rfl, rfl⟩
  dsimp only
  split
  · exact .inr ⟨_, rfl, rfl⟩
  · cases r.newMessage k.id v now origin p with
    | ok m => exact .inl ⟨m, rfl, rfl⟩
    | error e => exact .inr ⟨_, rfl, rfl⟩

theorem appendKeyed_congr {p : Payload α} {d : Int32} {key : String}
    (hd : r.eventDomain p = .ok d) (h : s.cell ⟨d, textHash key⟩ = t.cell ⟨d, textHash key⟩)
    (now : Int64) (origin : List Record) :
    AppendsAlike s t ⟨d, textHash key⟩ (·.bind ⟨d, textHash key⟩ key)
      (s.appendKeyed r now key origin p) (t.appendKeyed r now key origin p) := by
  unfold appendKeyed
  split
  · exact .inr ⟨_, rfl, rfl⟩
  simp only [hd, checkKey_eq_of_cell h, currentVersion_eq_of_cell h]
  split
  · exact .inr ⟨_, rfl, rfl⟩
  split
  · exact .inr ⟨_, rfl, rfl⟩
  rcases appendAt_congr h now _ origin p with ⟨m, hs, ht⟩ | ⟨e, hs, ht⟩
  · rw [hs, ht]
    exact .inl ⟨m, rfl, rfl⟩
  · rw [hs, ht]
    exact .inr ⟨e, rfl, rfl⟩

theorem cell_push_congr (h : s.cell k = t.cell k) (hx : s.cell x = t.cell x) (m : Message) :
    (s.push k m).cell x = (t.push k m).cell x := by
  rw [cell_push, cell_push, h, stream_eq_of_cell h, hx]

theorem cell_bind_congr (h : s.cell k = t.cell k) (hx : s.cell x = t.cell x) (key : String) :
    (s.bind k key).cell x = (t.bind k key).cell x := by
  rw [cell_bind, cell_bind, h, hx]

omit [Content α] in
theorem AppendsAlike.answered {f : Store → Store} {a b : Attempt StoreError Message × Store}
    (h : AppendsAlike s t k f a b)
    (hf : ∀ m x, s.cell x = t.cell x → (f (s.push k m)).cell x = (f (t.push k m)).cell x) :
    (Store.answered a).1 = (Store.answered b).1 ∧
      ∀ x, s.cell x = t.cell x → (Store.answered a).2.cell x = (Store.answered b).2.cell x := by
  rcases h with ⟨m, rfl, rfl⟩ | ⟨e, rfl, rfl⟩
  · exact ⟨rfl, hf m⟩
  · exact ⟨rfl, fun x hx => hx⟩

/-- The answer to a call depends on the cell that the call addresses. Where two stores hold the same,
they still do after calls that they answer alike. -/
theorem call_congr (h : ∀ x, op.Addresses r x → s.cell x = t.cell x) :
    (s.call r op).1 = (t.call r op).1 ∧
      ∀ x, s.cell x = t.cell x → (s.call r op).2.cell x = (t.call r op).2.cell x := by
  cases op with
  | append now id v origin p =>
    unfold call append
    dsimp only
    cases hd : r.eventDomain p with
    | error e => exact ⟨rfl, fun x hx => hx⟩
    | ok d =>
      have hk := h _ (.append hd)
      exact (appendAt_congr hk now v origin p).answered fun m x hx => cell_push_congr hk hx m
  | appendKeyed now key origin p =>
    cases hd : r.eventDomain p with
    | error e =>
      unfold call appendKeyed
      dsimp only
      rw [hd]
      split
      · exact ⟨rfl, fun x hx => hx⟩
      · exact ⟨rfl, fun x hx => hx⟩
    | ok d =>
      have hk := h _ (.appendKeyed hd)
      refine (appendKeyed_congr hd hk now origin).answered ?_
      intro m x hx
      exact cell_bind_congr (cell_push_congr hk hk m) (cell_push_congr hk hx m) key
  | storeSnapshot record =>
    refine ⟨rfl, ?_⟩
    intro x hx
    simp only [call, cell_storeSnapshot, hx]
  | deleteEvent k v =>
    have hk := h k (.deleteEvent k v)
    have hstream : s.streams.get? k = t.streams.get? k := congrArg Cell.stream hk
    refine ⟨?_, ?_⟩
    · simp only [call, deleteEvent, hstream]
      split
      · rfl
      · rfl
    · intro x hx
      simp only [call, cell_deleteEvent, hk, hx]
  | deleteAggregate k =>
    have hk := h k (.deleteAggregate k)
    refine ⟨?_, ?_⟩
    · simp only [call, deleteAggregate, stream_eq_of_cell hk]
    · intro x hx
      simp only [call, cell_deleteAggregate, hx]
  | clear => exact ⟨rfl, fun x _ => rfl⟩

/-- Calls to the aggregates in `K`, and readings of them in between, do not tell the stores apart. -/
def Indistinguishable (r : Registry α σ) (K : AggregateKey → Prop) (s t : Store) : Prop :=
  ∀ ops : List (Operation α), (∀ op ∈ ops, ∀ x, op.Addresses r x → K x) →
    s.answers r ops = t.answers r ops ∧
      ∀ x, K x → (ops.foldl (perform r) s).ReadsAlike x (ops.foldl (perform r) t)

theorem indistinguishable_of_cell {K : AggregateKey → Prop} (h : ∀ x, K x → s.cell x = t.cell x) :
    s.Indistinguishable r K t := by
  intro ops hops
  induction ops generalizing s t with
  | nil => exact ⟨rfl, fun x hx => readsAlike_of_cell (h x hx)⟩
  | cons op rest ih =>
    obtain ⟨hanswer, hcells⟩ := call_congr fun x hx => h x (hops op List.mem_cons_self x hx)
    rw [call_snd, call_snd] at hcells
    obtain ⟨hanswers, hreads⟩ := ih (fun x hx => hcells x (h x hx))
      fun op' hop' => hops op' (List.mem_cons_of_mem op hop')
    refine ⟨?_, hreads⟩
    unfold answers
    rw [hanswer, hanswers]

end Calls

end Store
end EventSourcing
