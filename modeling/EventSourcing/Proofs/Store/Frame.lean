import EventSourcing.Proofs.Store.Appended
import EventSourcing.Proofs.Store.Cells
import EventSourcing.Proofs.Store.Isolation
import EventSourcing.Proofs.Table

/-! What a call leaves alone. A call that fails changes nothing. One that succeeds changes the cell that
it addresses, and there only what it is for; all other cells stay as they are, and so does every
reading of other aggregates and other domains. An aggregate that was deleted cannot be told from one
that was never used. -/

namespace EventSourcing

variable {α σ : Type}

namespace Store

section Domains

variable {s s' : Store} {d : Int32}

/-- The reading of a domain sees the streams of the domain, in the order of the table. -/
theorem domainEvents_eq_of_entries
    (h : s'.streams.entries.filter (fun e => e.1.domain = d) =
      s.streams.entries.filter (fun e => e.1.domain = d))
    (first last : Int64) : s'.domainEvents d first last = s.domainEvents d first last := by
  unfold domainEvents
  rw [h]

theorem entries_insert {k : AggregateKey} (hd : d ≠ k.domain) (events : List Message) :
    (s.streams.insert k events).entries.filter (fun e => e.1.domain = d) =
      s.streams.entries.filter (fun e => e.1.domain = d) :=
  filter_assign (f := fun x : AggregateKey => decide (x.domain = d)) (decide_eq_false hd.symm) events _

theorem entries_erase {k : AggregateKey} (hd : d ≠ k.domain) :
    (s.streams.erase k).entries.filter (fun e => e.1.domain = d) =
      s.streams.entries.filter (fun e => e.1.domain = d) := by
  unfold Table.erase
  rw [List.filter_filter]
  refine List.filter_congr ?_
  intro e _
  by_cases he : e.1.domain = d
  · have hk : e.1 ≠ k := by
      rintro rfl
      exact hd he.symm
    simp [he, hk]
  · simp [he]

theorem stream_eq_of_mem_entries {k : AggregateKey} {events : List Message}
    (h : (k, events) ∈ s.streams.entries) : s.stream k = events := by
  unfold stream
  rw [Table.get?_eq_some_iff.2 h, Option.getD_some]

theorem mem_domainEvents_iff {first last : Int64} {m : Message} :
    m ∈ s.domainEvents d first last ↔
      (∃ id, m ∈ s.stream ⟨d, id⟩) ∧ m.inPeriod first last = true := by
  unfold domainEvents
  rw [List.mem_mergeSort, List.mem_filter, List.mem_flatMap]
  refine and_congr_left fun _ => ⟨?_, ?_⟩
  · rintro ⟨⟨⟨d', id⟩, events⟩, he, hm⟩
    obtain ⟨hentry, hd⟩ := List.mem_filter.1 he
    obtain rfl : d' = d := of_decide_eq_true hd
    exact ⟨id, (stream_eq_of_mem_entries hentry).symm ▸ hm⟩
  · rintro ⟨id, hm⟩
    unfold stream at hm
    cases hevents : s.streams.get? ⟨d, id⟩ with
    | none => simp [hevents] at hm
    | some events =>
      rw [hevents] at hm
      refine ⟨(⟨d, id⟩, events), List.mem_filter.2 ⟨?_, decide_eq_true rfl⟩, hm⟩
      exact Table.get?_eq_some_iff.1 hevents

end Domains

variable [Content α] {r : Registry α σ} {s s' : Store} {op : Operation α} {k : AggregateKey}

/-- From `s` to `s'` nothing has changed but what is held of `k`, and no reading of anything else. -/
structure ChangesOnly (k : AggregateKey) (s s' : Store) : Prop where
  cells : ∀ x, x ≠ k → s'.cell x = s.cell x
  reads : ∀ x, x ≠ k → s'.ReadsAlike x s
  domains : ∀ d, d ≠ k.domain → ∀ first last,
    s'.domainEvents d first last = s.domainEvents d first last

section Changes

omit [Content α]

theorem changesOnly_of_cells (hcells : ∀ x, s'.cell x = if k = x then s'.cell k else s.cell x)
    (hentries : s'.streams = s.streams ∨ s'.streams = s.streams.erase k ∨
      ∃ events, s'.streams = s.streams.insert k events) : ChangesOnly k s s' := by
  have hother : ∀ x, x ≠ k → s'.cell x = s.cell x := by
    intro x hx
    rw [hcells x, if_neg hx.symm]
  refine ⟨hother, fun x hx => readsAlike_of_cell (hother x hx), ?_⟩
  intro d hd
  refine domainEvents_eq_of_entries ?_
  rcases hentries with h | h | ⟨events, h⟩
  · rw [h]
  · rw [h, entries_erase hd]
  · rw [h, entries_insert hd]

theorem changesOnly_push (s : Store) (k : AggregateKey) (m : Message) :
    s.ChangesOnly k (s.push k m) := by
  refine changesOnly_of_cells ?_ (.inr (.inr ⟨_, rfl⟩))
  intro x
  rw [cell_push, cell_push, if_pos rfl]

theorem changesOnly_push_bind (s : Store) (k : AggregateKey) (m : Message) (key : String) :
    s.ChangesOnly k ((s.push k m).bind k key) := by
  refine changesOnly_of_cells ?_ (.inr (.inr ⟨s.stream k ++ [m], ?_⟩))
  · intro x
    rw [cell_bind, cell_bind, if_pos rfl, cell_push s k x, cell_push s k k, if_pos rfl]
    split
    · rfl
    · rfl
  · unfold bind
    split
    · rfl
    · rfl

theorem changesOnly_storeSnapshot (s : Store) (record : Record) :
    s.ChangesOnly ⟨record.domain, record.id⟩ (s.storeSnapshot record) := by
  refine changesOnly_of_cells ?_ (.inl rfl)
  intro x
  rw [cell_storeSnapshot, cell_storeSnapshot, if_pos rfl]
  split
  · next hk => rw [hk]
  · rfl

theorem changesOnly_deleteEvent (s : Store) (k : AggregateKey) (v : Int32) :
    s.ChangesOnly k (s.deleteEvent k v).2 := by
  refine changesOnly_of_cells ?_ ?_
  · intro x
    rw [cell_deleteEvent, cell_deleteEvent, if_pos rfl]
  · unfold deleteEvent
    split
    · exact .inl rfl
    · exact .inr (.inr ⟨_, rfl⟩)

theorem changesOnly_deleteAggregate (s : Store) (k : AggregateKey) :
    s.ChangesOnly k (s.deleteAggregate k).2 := by
  refine changesOnly_of_cells ?_ (.inr (.inl rfl))
  intro x
  rw [cell_deleteAggregate, cell_deleteAggregate, if_pos rfl]

end Changes

/-- An append adds its event at the end of a stream. An append by key binds the key besides. -/
structure AppendFrame (r : Registry α σ) (s : Store) (op : Operation α) (m : Message) (s' : Store) :
    Prop where
  addressed : op.Addresses r m.aggregateKey
  stream : s'.stream m.aggregateKey = s.stream m.aggregateKey ++ [m]
  snapshots : s'.snapshots = s.snapshots
  keys : ∀ now id v origin p, op = .append now id v origin p → s'.keys = s.keys
  bound : ∀ now key origin p, op = .appendKeyed now key origin p →
    s'.keys.get? m.aggregateKey = some key

/-- A deletion of events leaves those of other versions. -/
structure DeleteFrame (k : AggregateKey) (v : Int32) (s : Store) (existed : Bool) (s' : Store) :
    Prop where
  stream : s'.stream k = (s.stream k).filter (·.version ≠ v)
  existed : existed = true ↔ ∃ m ∈ s.stream k, m.version = v
  keys : s'.keys = s.keys
  snapshots : s'.snapshots = s.snapshots

/-- A deleted aggregate cannot be told from one that was never used, be it alone or together with
others that are the same. -/
structure RemoveFrame (r : Registry α σ) (k : AggregateKey) (s s' : Store) : Prop where
  cell : s'.cell k = .unused
  indistinguishable : ∀ (K : AggregateKey → Prop) (t : Store), t.cell k = .unused →
    (∀ x, K x → x ≠ k → t.cell x = s.cell x) → s'.Indistinguishable r K t
  domains : ∀ d first last, ∀ m ∈ s'.domainEvents d first last, ∃ x, x ≠ k ∧ m ∈ s.stream x

/-- What becomes of a store in a call, given the answer. -/
structure CallFrame (r : Registry α σ) (s : Store) (op : Operation α)
    (answer : Attempt StoreError Reply) (s' : Store) : Prop where
  failed : ∀ fault, answer = .error fault → s' = s
  addressed : ∀ reply, answer = .ok reply → ∃ k, op.Addresses r k
  others : ∀ k, op.Addresses r k → s.ChangesOnly k s'
  appended : ∀ p, op.payload? = some p → ∀ reply, answer = .ok reply →
    ∃ m, reply = .appended m ∧ s.AppendFrame r op m s'
  stored : ∀ record, op = .storeSnapshot record →
    answer = .ok .stored ∧ s'.streams = s.streams ∧ s'.keys = s.keys ∧
      s'.snapshot? ⟨record.domain, record.id⟩ = some record
  deleted : ∀ k v, op = .deleteEvent k v →
    ∃ existed, answer = .ok (.deleted existed) ∧ s.DeleteFrame k v existed s'
  removed : ∀ k, op = .deleteAggregate k →
    answer = .ok (.removed (s.stream k).length) ∧ s.RemoveFrame r k s'

section Frames

variable {now id : Int64} {v : Int32} {key : String} {origin : List Record} {p : Payload α}
  {m : Message}

theorem appendFrame_of_append (h : s.append r now id v origin p = (.ok m, s')) :
    s.AppendFrame r (.append now id v origin p) m s' := by
  obtain ⟨hmake, -, rfl⟩ := append_eq_ok_iff.1 h
  constructor
  case addressed =>
    have hk : m.aggregateKey = ⟨m.aggregateKey.domain, id⟩ := by rw [← hmake.id_eq]
    rw [hk]
    exact .append hmake.eventDomain
  case stream => rw [stream_push, if_pos rfl]
  case snapshots => rfl
  case keys => exact fun _ _ _ _ _ _ => rfl
  case bound =>
    intro now key origin p h
    cases h

theorem appendFrame_of_appendKeyed (h : s.appendKeyed r now key origin p = (.ok m, s')) :
    s.AppendFrame r (.appendKeyed now key origin p) m s' := by
  obtain ⟨-, v, hmake, hcheck, -, rfl⟩ := appendKeyed_eq_ok_iff.1 h
  constructor
  case addressed =>
    have hk : m.aggregateKey = ⟨m.aggregateKey.domain, textHash key⟩ := by rw [← hmake.id_eq]
    rw [hk]
    exact .appendKeyed hmake.eventDomain
  case stream => rw [stream_bind, stream_push, if_pos rfl]
  case snapshots =>
    unfold bind
    split
    · rfl
    · rfl
  case keys =>
    intro now id v origin p h
    cases h
  case bound =>
    intro now key origin p h
    cases h
    exact get?_keys_bind hcheck

theorem deleteFrame (s : Store) (k : AggregateKey) (v : Int32) :
    s.DeleteFrame k v (s.deleteEvent k v).1 (s.deleteEvent k v).2 where
  stream := by rw [stream_deleteEvent, if_pos rfl]
  existed := by
    unfold deleteEvent stream
    cases h : s.streams.get? k with
    | none => simp
    | some events =>
      simp only [decide_eq_true_eq, Option.getD_some]
      rw [List.length_filter_lt_length_iff_exists]
      simp
  keys := (s.keys_deleteEvent k v).1
  snapshots := (s.keys_deleteEvent k v).2

theorem removeFrame (s : Store) (k : AggregateKey) :
    s.RemoveFrame r k (s.deleteAggregate k).2 := by
  have hcell : (s.deleteAggregate k).2.cell k = .unused := by rw [cell_deleteAggregate, if_pos rfl]
  refine ⟨hcell, ?_, ?_⟩
  · intro K t hk ht
    refine indistinguishable_of_cell ?_
    intro x hx
    by_cases hxk : x = k
    · rw [hxk, hcell, hk]
    · rw [cell_deleteAggregate, if_neg (Ne.symm hxk), ht x hx hxk]
  · intro d first last m hm
    obtain ⟨⟨id, hx⟩, -⟩ := mem_domainEvents_iff.1 hm
    rw [stream_deleteAggregate] at hx
    split at hx
    · cases hx
    · next hk => exact ⟨⟨d, id⟩, Ne.symm hk, hx⟩

end Frames

omit [Content α] in
theorem ChangesOnly.refl (k : AggregateKey) (s : Store) : s.ChangesOnly k s :=
  ⟨fun _ _ => rfl, fun _ _ => readsAlike_of_cell rfl, fun _ _ _ _ => rfl⟩

section Appends

variable {p : Payload α} (hp : op.payload? = some p)
include hp

omit [Content α] in
theorem payload?_ne_none_of_eq {op' : Operation α} (h : op = op') : op'.payload? ≠ none := by
  rw [← h, hp]
  exact nofun

theorem callFrame_failed (fault : Fault StoreError) : s.CallFrame r op (.error fault) s where
  failed _ _ := rfl
  addressed := nofun
  others k _ := .refl k s
  appended _ _ := nofun
  stored _ hop := absurd rfl (payload?_ne_none_of_eq hp hop)
  deleted _ _ hop := absurd rfl (payload?_ne_none_of_eq hp hop)
  removed _ hop := absurd rfl (payload?_ne_none_of_eq hp hop)

theorem callFrame_appended {m : Message} (hframe : s.AppendFrame r op m s')
    (hchanges : s.ChangesOnly m.aggregateKey s') : s.CallFrame r op (.ok (.appended m)) s' where
  failed := nofun
  addressed _ _ := ⟨_, hframe.addressed⟩
  others k hk := by
    rw [hk.unique hframe.addressed]
    exact hchanges
  appended p _ reply hreply := by
    cases hreply
    exact ⟨m, rfl, hframe⟩
  stored _ hop := absurd rfl (payload?_ne_none_of_eq hp hop)
  deleted _ _ hop := absurd rfl (payload?_ne_none_of_eq hp hop)
  removed _ hop := absurd rfl (payload?_ne_none_of_eq hp hop)

end Appends

theorem callFrame_edited {reply : Reply} {k : AggregateKey} (hp : op.payload? = none)
    (hk : op.Addresses r k) (hchanges : s.ChangesOnly k s')
    (stored : ∀ record, op = .storeSnapshot record →
      (.ok reply : Attempt StoreError Reply) = .ok .stored ∧ s'.streams = s.streams ∧
        s'.keys = s.keys ∧ s'.snapshot? ⟨record.domain, record.id⟩ = some record)
    (deleted : ∀ k v, op = .deleteEvent k v →
      ∃ existed, (.ok reply : Attempt StoreError Reply) = .ok (.deleted existed) ∧
        s.DeleteFrame k v existed s')
    (removed : ∀ k, op = .deleteAggregate k →
      (.ok reply : Attempt StoreError Reply) = .ok (.removed (s.stream k).length) ∧
        s.RemoveFrame r k s') :
    s.CallFrame r op (.ok reply) s' where
  failed := nofun
  addressed _ _ := ⟨k, hk⟩
  others x hx := by
    rw [hx.unique hk]
    exact hchanges
  appended p h := by
    rw [hp] at h
    cases h
  stored
  deleted
  removed

/-- A call that fails leaves the store as it was. One that succeeds changes nothing but the aggregate
that it addresses: an append puts the event it answers at the end of the stream, a deletion of events
keeps the others, and a deleted aggregate is as if it had never been used. -/
theorem call_frame (r : Registry α σ) (s : Store) {op : Operation α} (hop : op ≠ .clear) :
    s.CallFrame r op (s.call r op).1 (s.call r op).2 := by
  cases op with
  | append now id v origin p =>
    rcases s.append_cases r now id v origin p with ⟨m, s', h⟩ | ⟨fault, h⟩
    · obtain ⟨-, -, hs⟩ := append_eq_ok_iff.1 h
      rw [call, h]
      exact callFrame_appended rfl (appendFrame_of_append h) (hs ▸ changesOnly_push s _ m)
    · rw [call, h]
      exact callFrame_failed rfl fault
  | appendKeyed now key origin p =>
    rcases s.appendKeyed_cases r now key origin p with ⟨m, s', h⟩ | ⟨fault, h⟩
    · obtain ⟨-, v, -, -, -, hs⟩ := appendKeyed_eq_ok_iff.1 h
      rw [call, h]
      exact callFrame_appended rfl (appendFrame_of_appendKeyed h)
        (hs ▸ changesOnly_push_bind s _ m key)
    · rw [call, h]
      exact callFrame_failed rfl fault
  | storeSnapshot record =>
    refine callFrame_edited rfl (.storeSnapshot record) (changesOnly_storeSnapshot s record) ?_ ?_ ?_
    · intro record' h
      cases h
      refine ⟨rfl, rfl, rfl, ?_⟩
      show (s.snapshots.insert _ _).get? _ = _
      rw [Table.get?_insert, if_pos rfl]
    · intro k v h
      cases h
    · intro k h
      cases h
  | deleteEvent k v =>
    refine callFrame_edited rfl (.deleteEvent k v) (changesOnly_deleteEvent s k v) ?_ ?_ ?_
    · intro record h
      cases h
    · intro k' v' h
      cases h
      exact ⟨_, rfl, deleteFrame s k v⟩
    · intro k' h
      cases h
  | deleteAggregate k =>
    refine callFrame_edited rfl (.deleteAggregate k) (changesOnly_deleteAggregate s k) ?_ ?_ ?_
    · intro record h
      cases h
    · intro k' v h
      cases h
    · intro k' h
      cases h
      exact ⟨rfl, removeFrame s k⟩
  | clear => exact absurd rfl hop

/-- Of two aggregates one is deleted, and the other keeps its events. Before that a version that does
not follow, a colliding key and the least version are refused, and change nothing. -/
theorem call_frame_refusals :
    let r : Registry ValueChanger.Change ValueChanger.Value := .minimal "test/source"
    let p : Payload ValueChanger.Change := .errorRaised ⟨"disk full"⟩
    let key := "22d394539e605f01"
    let k : AggregateKey := ⟨textHash32 systemUri, 7⟩
    let x : AggregateKey := ⟨textHash32 systemUri, textHash key⟩
    let s := run r [.append 1 7 1 [] p, .appendKeyed 2 key [] p]
    let conflicting : Operation ValueChanger.Change := .append 3 7 1 [] p
    let colliding : Operation ValueChanger.Change := .appendKeyed 3 "e5056d13bb9ef1db" [] p
    let least : Operation ValueChanger.Change := .append 3 7 Int32.minValue [] p
    let removal : Operation ValueChanger.Change := .deleteAggregate k
    (conflicting ≠ .clear ∧ (s.call r conflicting).1 = refuse (.concurrencyConflict k 0 1) ∧
        (s.call r conflicting).2 = s) ∧
      (colliding ≠ .clear ∧
        (s.call r colliding).1 = refuse (.keyCollision "e5056d13bb9ef1db" key) ∧
        (s.call r colliding).2 = s) ∧
      (least ≠ .clear ∧ (s.call r least).1 = .error (.panic .subOverflow) ∧
        (s.call r least).2 = s) ∧
      removal ≠ .clear ∧ (s.call r removal).2.cell k = .unused ∧
        (s.call r removal).2.stream x = s.stream x ∧
        s.stream x = [r.report (textHash key) 1 2 [] ⟨"disk full"⟩] := by
  intro r p key k x s conflicting colliding least removal
  have hr : r.Built := Registry.built_minimal "test/source"
  have hdomain : r.eventDomain p = .ok (textHash32 systemUri) :=
    (hr.makes_report 7 1 1 [] ⟨"disk full"⟩).eventDomain
  have hkx : k ≠ x := by decide +kernel
  have hfirst : run r [.append 1 7 1 [] p] = Store.empty.push k (r.report 7 1 1 [] ⟨"disk full"⟩) :=
    perform_report hr 1 7 [] ⟨"disk full"⟩ rfl
  have hcurrent : (run r [.append 1 7 1 [] p]).currentVersion x = 0 := by
    rw [hfirst, currentVersion_push_of_ne _ hkx]
    rfl
  have happend : (run r [.append 1 7 1 [] p]).appendKeyed r 2 key [] p =
      (.ok (r.report (textHash key) 1 2 [] ⟨"disk full"⟩), _) :=
    appendKeyed_report hr 2 [] ⟨"disk full"⟩ (by decide) (by rw [hfirst]; rfl)
      (by rw [hcurrent]; rfl)
  have hs : s = _ := congrArg Prod.snd happend
  have hlast : s.currentVersion k = 1 := by
    rw [hs, currentVersion, stream_bind, stream_push, if_neg hkx.symm, hfirst, stream_push, if_pos rfl]
    rfl
  have hconflict : (s.call r conflicting).1 = refuse (.concurrencyConflict k 0 1) := by
    have h : s.append r 3 7 1 [] p = _ := append_conflict hdomain (by decide) (by rw [hlast]; decide)
    rw [hlast] at h
    exact answered_eq_error_iff.2 (congrArg Prod.fst h)
  have hcollide : (s.call r colliding).1 = refuse (.keyCollision "e5056d13bb9ef1db" key) := by
    have hbound : s.Holds key (r.report (textHash key) 1 2 [] ⟨"disk full"⟩) :=
      hs ▸ holds_of_appendKeyed happend
    have hwithheld : s.Withholds r key _ "e5056d13bb9ef1db" :=
      hbound.withholds (wellFormed_run hr.filed _) (by decide)
    have h := (hwithheld.collides (by decide) (by decide +kernel)).2 3 [] p hdomain
    exact answered_eq_error_iff.2 (congrArg Prod.fst h)
  have hleast : (s.call r least).1 = .error (.panic .subOverflow) :=
    answered_eq_error_iff.2 (congrArg Prod.fst (append_least hdomain))
  have hframe₁ : s.CallFrame r conflicting _ _ := call_frame r s nofun
  have hframe₂ : s.CallFrame r colliding _ _ := call_frame r s nofun
  have hframe₃ : s.CallFrame r least _ _ := call_frame r s nofun
  have hframe₄ : s.CallFrame r removal _ _ := call_frame r s nofun
  refine ⟨⟨nofun, hconflict, hframe₁.failed _ hconflict⟩,
    ⟨nofun, hcollide, hframe₂.failed _ hcollide⟩, ⟨nofun, hleast, hframe₃.failed _ hleast⟩, nofun,
    (hframe₄.removed k rfl).2.cell,
    stream_eq_of_cell ((hframe₄.others k (.deleteAggregate k)).cells x hkx.symm), ?_⟩
  rw [hs, stream_bind, stream_push, if_pos rfl, hfirst, stream_push, if_neg hkx]
  rfl

end Store
end EventSourcing
