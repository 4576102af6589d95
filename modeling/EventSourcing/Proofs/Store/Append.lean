import EventSourcing.Proofs.Domain.Registered
import EventSourcing.Store.Append

/-! What appending does. An append that succeeds puts one event, made of the payload, at the end of
the stream that it is addressed to, at the version after the last one there (`Appends`). A keyed
append may bind its key besides; nothing else changes (`Adds`). An append that fails is refused,
unless a version leaves its 32 bits. -/

namespace EventSourcing

def Message.aggregateKey (m : Message) : AggregateKey := ⟨m.domain, m.id⟩

theorem previousVersion?_eq_some_iff_next {u v : Int32} :
    previousVersion? v = some u ↔ nextVersion? u = some v := by
  rw [previousVersion?_eq_some_iff, nextVersion?_eq_some_iff]
  exact eq_comm

theorem previousVersion?_eq_some_iff_toInt {u v : Int32} :
    previousVersion? v = some u ↔ v.toInt = u.toInt + 1 :=
  previousVersion?_eq_some_iff.trans eq_comm

/-- Every number below the greatest version is followed by a version. -/
theorem exists_version_after {n : Nat} (h : (n : Int) < Int32.maxValue.toInt) :
    ∃ v : Int32, v.toInt = n + 1 := by
  rw [Int32.toInt_maxValue] at h
  exact ⟨Int32.ofInt (n + 1), Int32.toInt_ofInt_of_le (by omega) (by omega)⟩

theorem nextVersion?_eq_none_iff {v : Int32} : nextVersion? v = none ↔ v = Int32.maxValue := by
  unfold nextVersion?
  split
  · next h => simp [h]
  · next h => simp [h]

theorem previousVersion?_eq_none_iff {v : Int32} : previousVersion? v = none ↔ v = Int32.minValue := by
  unfold previousVersion?
  split
  · next h => simp [h]
  · next h => simp [h]

theorem MessageType.kind_eq_event_iff {α : Type} (t : MessageType α) :
    t.kind = .event ↔ t.isCommand = false := by
  unfold isCommand
  cases t.kind <;> decide

variable {α σ : Type} [Content α]

namespace Registry

/-- The payload is an event of domain `d`, with the entry `t` there. -/
structure Lists (r : Registry α σ) (p : Payload α) (d : Domain α σ) (t : MessageType α) : Prop where
  domain : r.domainOf p = some d
  entry : d.messageType p = some t
  event : t.kind = .event

/-- `m` is the event that the payload becomes at version `v` of the aggregate `id`. -/
def Makes (r : Registry α σ) (id : Int64) (v : Int32) (now : Int64) (origin : List Record)
    (p : Payload α) (m : Message) : Prop :=
  ∃ d t data, r.Lists p d t ∧ p.encode = .ok data ∧
    m = ⟨⟨r.sourceId, d.shortId, id, v⟩, origin, now, t.typeId, data⟩

theorem eventDomain_eq_ok_iff {r : Registry α σ} {p : Payload α} {k : Int32} :
    r.eventDomain p = .ok k ↔ ∃ d t, r.Lists p d t ∧ d.shortId = k := by
  unfold eventDomain
  refine ⟨?_, ?_⟩
  · intro h
    split at h
    case h_2 => cases h
    next d hd =>
    split at h
    case h_2 => cases h
    next t ht =>
    split at h
    · cases h
    · next hc =>
      cases h
      exact ⟨d, t, ⟨hd, ht, t.kind_eq_event_iff.2 (Bool.not_eq_true _ ▸ hc)⟩, rfl⟩
  · rintro ⟨d, t, ⟨hd, ht, he⟩, rfl⟩
    simp only [hd, ht, t.kind_eq_event_iff.1 he, Bool.false_eq_true, if_false]
    rfl

theorem newMessage_eq_ok_iff {r : Registry α σ} {id now : Int64} {v : Int32} {origin : List Record}
    {p : Payload α} {m : Message} :
    r.newMessage id v now origin p = .ok m ↔
      ∃ d t data, r.domainOf p = some d ∧ d.messageType p = some t ∧ p.encode = .ok data ∧
        m = ⟨⟨r.sourceId, d.shortId, id, v⟩, origin, now, t.typeId, data⟩ := by
  unfold newMessage
  refine ⟨?_, ?_⟩
  · intro h
    split at h
    case h_2 => cases h
    next d hd =>
    obtain ⟨t, data, ht, hp, hm⟩ := Domain.newMessage_eq_ok_iff.1 h
    exact ⟨d, t, data, hd, ht, hp, hm⟩
  · rintro ⟨d, t, data, hd, ht, hp, hm⟩
    simp only [hd]
    exact Domain.newMessage_eq_ok_iff.2 ⟨t, data, ht, hp, hm⟩

section

variable {r : Registry α σ} {id now : Int64} {v : Int32} {origin : List Record} {p : Payload α}
  {m : Message}

theorem makes_of_newMessage {k : Int32} (hk : r.eventDomain p = .ok k)
    (hm : r.newMessage id v now origin p = .ok m) :
    r.Makes id v now origin p m ∧ m.aggregateKey = ⟨k, id⟩ := by
  obtain ⟨d, t, hl, rfl⟩ := eventDomain_eq_ok_iff.1 hk
  obtain ⟨d', t', data, hd, ht, hp, rfl⟩ := newMessage_eq_ok_iff.1 hm
  obtain rfl : d = d' := Option.some.inj (hl.domain.symm.trans hd)
  obtain rfl : t = t' := Option.some.inj (hl.entry.symm.trans ht)
  exact ⟨⟨d, t, data, hl, hp, rfl⟩, rfl⟩

theorem Makes.eventDomain (h : r.Makes id v now origin p m) :
    r.eventDomain p = .ok m.aggregateKey.domain := by
  obtain ⟨d, t, data, hl, -, rfl⟩ := h
  exact eventDomain_eq_ok_iff.2 ⟨d, t, hl, rfl⟩

theorem Makes.newMessage (h : r.Makes id v now origin p m) :
    r.newMessage id v now origin p = .ok m := by
  obtain ⟨d, t, data, hl, hp, rfl⟩ := h
  exact newMessage_eq_ok_iff.2 ⟨d, t, data, hl.domain, hl.entry, hp, rfl⟩

theorem Makes.id_eq (h : r.Makes id v now origin p m) : m.aggregateKey.id = id := by
  obtain ⟨d, t, data, -, -, rfl⟩ := h
  rfl

theorem Makes.version_eq (h : r.Makes id v now origin p m) : m.version = v := by
  obtain ⟨d, t, data, -, -, rfl⟩ := h
  rfl

theorem Makes.origin_eq (h : r.Makes id v now origin p m) : m.origin = origin := by
  obtain ⟨d, t, data, -, -, rfl⟩ := h
  rfl

end

end Registry

namespace Store

theorem currentVersion_eq_or_mem (s : Store) (k : AggregateKey) :
    s.currentVersion k = 0 ∨ ∃ m ∈ s.stream k, m.version = s.currentVersion k := by
  unfold currentVersion
  cases h : (s.stream k).getLast? with
  | none => exact .inl rfl
  | some m => exact .inr ⟨m, List.mem_of_getLast? h, rfl⟩

theorem currentVersion_ne_max {s : Store} {k : AggregateKey}
    (h : ∀ m ∈ s.stream k, m.version ≠ Int32.maxValue) : s.currentVersion k ≠ Int32.maxValue := by
  rcases s.currentVersion_eq_or_mem k with h0 | ⟨m, hm, hv⟩
  · rw [h0]
    decide
  · rw [← hv]
    exact h m hm

variable {s s' : Store} {r : Registry α σ} {k : AggregateKey} {now id : Int64} {v : Int32}
  {key : String} {origin : List Record} {p : Payload α} {m : Message}

theorem appendAt_eq_ok_iff :
    s.appendAt r now k v origin p = (.ok m, s') ↔
      previousVersion? v = some (s.currentVersion k) ∧
        r.newMessage k.id v now origin p = .ok m ∧ s' = s.push k m := by
  unfold appendAt
  refine ⟨?_, ?_⟩
  · intro h
    split at h
    · cases h
    next expected hv =>
    dsimp only at h
    split at h
    · cases h
    next hf =>
    split at h
    · cases h
    next hm =>
    cases h
    rw [Decidable.not_not] at hf
    exact ⟨hv.trans (congrArg some hf.symm), hm, rfl⟩
  · rintro ⟨hv, hm, rfl⟩
    simp only [hv, hm, ne_eq, not_true_eq_false, if_false]

theorem append_eq_ok_iff :
    s.append r now id v origin p = (.ok m, s') ↔
      r.Makes id v now origin p m ∧
        previousVersion? v = some (s.currentVersion m.aggregateKey) ∧
        s' = s.push m.aggregateKey m := by
  unfold append
  refine ⟨?_, ?_⟩
  · intro h
    split at h
    · cases h
    next domain hd =>
    obtain ⟨hv, hm, rfl⟩ := appendAt_eq_ok_iff.1 h
    obtain ⟨hmake, hk⟩ := Registry.makes_of_newMessage hd hm
    rw [hk]
    exact ⟨hmake, hv, rfl⟩
  · rintro ⟨hmake, hv, rfl⟩
    have hk : m.aggregateKey = ⟨m.aggregateKey.domain, id⟩ := by rw [← hmake.id_eq]
    simp only [hmake.eventDomain]
    rw [← hk]
    exact appendAt_eq_ok_iff.2 ⟨hv, by rw [hmake.id_eq]; exact hmake.newMessage, rfl⟩

/-- A version that does not follow the last one is refused, whatever is to be appended. -/
theorem append_conflict {domain : Int32} (hd : r.eventDomain p = .ok domain) (hv : v ≠ Int32.minValue)
    (hlast : nextVersion? (s.currentVersion ⟨domain, id⟩) ≠ some v) :
    s.append r now id v origin p =
      (refuse (.concurrencyConflict ⟨domain, id⟩ (v - 1) (s.currentVersion ⟨domain, id⟩)), s) := by
  have hprevious : previousVersion? v = some (v - 1) := if_neg hv
  have hfound : s.currentVersion ⟨domain, id⟩ ≠ v - 1 := by
    intro h
    rw [h, Ne, ← previousVersion?_eq_some_iff_next] at hlast
    exact hlast hprevious
  unfold append appendAt
  simp only [hd, hprevious, hfound, ne_eq, not_false_eq_true, if_true]

theorem append_least {domain : Int32} (hd : r.eventDomain p = .ok domain) :
    s.append r now id Int32.minValue origin p = (.error (.panic .subOverflow), s) := by
  unfold append
  rw [hd]
  rfl

theorem appendKeyed_eq_ok_iff :
    s.appendKeyed r now key origin p = (.ok m, s') ↔
      key ≠ "" ∧ ∃ v, r.Makes (textHash key) v now origin p m ∧
        s.checkKey m.aggregateKey key = .ok () ∧
        previousVersion? v = some (s.currentVersion m.aggregateKey) ∧
        s' = (s.push m.aggregateKey m).bind m.aggregateKey key := by
  unfold appendKeyed
  refine ⟨?_, ?_⟩
  · intro h
    split at h
    · cases h
    next hkey =>
    split at h
    · cases h
    next domain hd =>
    dsimp only at h
    split at h
    · cases h
    next hc =>
    split at h
    · cases h
    next v hv =>
    split at h
    · cases h
    next ha =>
    cases h
    obtain ⟨-, hm, rfl⟩ := appendAt_eq_ok_iff.1 ha
    obtain ⟨hmake, hk⟩ := Registry.makes_of_newMessage hd hm
    rw [hk]
    exact ⟨hkey, v, hmake, hc, previousVersion?_eq_some_iff_next.2 hv, rfl⟩
  · rintro ⟨hkey, v, hmake, hc, hv, rfl⟩
    have hk : m.aggregateKey = ⟨m.aggregateKey.domain, textHash key⟩ := by rw [← hmake.id_eq]
    have ha : s.appendAt r now m.aggregateKey v origin p = (.ok m, s.push m.aggregateKey m) :=
      appendAt_eq_ok_iff.2 ⟨hv, by rw [hmake.id_eq]; exact hmake.newMessage, rfl⟩
    rw [if_neg hkey]
    simp only [hmake.eventDomain]
    rw [← hk]
    simp only [hc, previousVersion?_eq_some_iff_next.1 hv, ha]

/-- A version check that fails, and a message that cannot be made, come before the store is
touched. -/
theorem appendAt_cases (s : Store) (r : Registry α σ) (now : Int64) (k : AggregateKey) (v : Int32)
    (origin : List Record) (p : Payload α) :
    (∃ m, s.appendAt r now k v origin p = (.ok m, s.push k m)) ∨
      ∃ fault, s.appendAt r now k v origin p = (.error fault, s) := by
  unfold appendAt
  split
  · exact .inr ⟨_, rfl⟩
  dsimp only
  split
  · exact .inr ⟨_, rfl⟩
  split
  · exact .inr ⟨_, rfl⟩
  · exact .inl ⟨_, rfl⟩

theorem append_cases (s : Store) (r : Registry α σ) (now id : Int64) (v : Int32)
    (origin : List Record) (p : Payload α) :
    (∃ m s', s.append r now id v origin p = (.ok m, s')) ∨
      ∃ fault, s.append r now id v origin p = (.error fault, s) := by
  unfold append
  split
  · exact .inr ⟨_, rfl⟩
  next domain _ =>
  rcases s.appendAt_cases r now ⟨domain, id⟩ v origin p with ⟨m, h⟩ | h
  · exact .inl ⟨m, _, h⟩
  · exact .inr h

/-- Of the exits of an append by key only the last one, after the event is stored, binds the key. -/
theorem appendKeyed_cases (s : Store) (r : Registry α σ) (now : Int64) (key : String)
    (origin : List Record) (p : Payload α) :
    (∃ m s', s.appendKeyed r now key origin p = (.ok m, s')) ∨
      ∃ fault, s.appendKeyed r now key origin p = (.error fault, s) := by
  unfold appendKeyed
  split
  · exact .inr ⟨_, rfl⟩
  split
  · exact .inr ⟨_, rfl⟩
  next domain _ =>
  dsimp only
  split
  · exact .inr ⟨_, rfl⟩
  split
  · exact .inr ⟨_, rfl⟩
  next version _ =>
  rcases s.appendAt_cases r now ⟨domain, textHash key⟩ version origin p with ⟨m, h⟩ | ⟨fault, h⟩
  · rw [h]
    exact .inl ⟨m, _, rfl⟩
  · rw [h]
    exact .inr ⟨fault, rfl⟩

/-- `s'` is `s` after an append of `m` that succeeded, by id or by key. -/
structure Appends (r : Registry α σ) (s : Store) (m : Message) (s' : Store) : Prop where
  makes : ∃ id now p, r.Makes id m.version now m.origin p m
  follows : previousVersion? m.version = some (s.currentVersion m.aggregateKey)
  result : s' = s.push m.aggregateKey m ∨
    ∃ key, key ≠ "" ∧ textHash key = m.id ∧ s.checkKey m.aggregateKey key = .ok () ∧
      s' = (s.push m.aggregateKey m).bind m.aggregateKey key

theorem appends_of_append (h : s.append r now id v origin p = (.ok m, s')) : s.Appends r m s' := by
  obtain ⟨hmake, hv, rfl⟩ := append_eq_ok_iff.1 h
  obtain rfl := hmake.version_eq
  obtain rfl := hmake.origin_eq
  exact ⟨⟨id, now, p, hmake⟩, hv, .inl rfl⟩

theorem appends_of_appendKeyed (h : s.appendKeyed r now key origin p = (.ok m, s')) :
    s.Appends r m s' := by
  obtain ⟨hkey, v, hmake, hc, hv, rfl⟩ := appendKeyed_eq_ok_iff.1 h
  obtain rfl := hmake.version_eq
  obtain rfl := hmake.origin_eq
  exact ⟨⟨textHash key, now, p, hmake⟩, hv, .inr ⟨key, hkey, hmake.id_eq.symm, hc, rfl⟩⟩

/-- `s'` differs from `s` only by `m` at the end of the stream of its aggregate, and perhaps by a key
bound to that aggregate, which had none. -/
structure Adds (s : Store) (m : Message) (s' : Store) : Prop where
  streams : s'.streams = s.streams.insert m.aggregateKey (s.stream m.aggregateKey ++ [m])
  keys : s'.keys = s.keys ∨
    ∃ key, s.keys.get? m.aggregateKey = none ∧ s'.keys = s.keys.insert m.aggregateKey key
  snapshots : s'.snapshots = s.snapshots

theorem Appends.adds (h : s.Appends r m s') : s.Adds m s' := by
  rcases h.result with rfl | ⟨key, -, -, -, rfl⟩
  · exact ⟨rfl, .inl rfl, rfl⟩
  · unfold bind
    split
    · exact ⟨rfl, .inl rfl, rfl⟩
    · next hc =>
      exact ⟨rfl, .inr ⟨key, Option.not_isSome_iff_eq_none.1 hc, rfl⟩, rfl⟩

theorem Appends.stream_eq (h : s.Appends r m s') (x : AggregateKey) :
    s'.stream x = if m.aggregateKey = x then s.stream m.aggregateKey ++ [m] else s.stream x := by
  rcases h.result with rfl | ⟨key, -, -, -, rfl⟩
  · rw [stream_push]
  · rw [stream_bind, stream_push]

theorem Appends.mem_stream_iff (h : s.Appends r m s') {n : Message} :
    n ∈ s'.stream k ↔ n ∈ s.stream k ∨ n = m ∧ m.aggregateKey = k := by
  rw [h.stream_eq]
  split
  · next hk => simp [hk]
  · next hk => simp [hk]

theorem appendAt_panic {q : Panic} (h : (s.appendAt r now k v origin p).1 = .error (.panic q)) :
    previousVersion? v = none := by
  unfold appendAt at h
  split at h
  · next hv => exact hv
  dsimp only at h
  split at h
  · cases h
  split at h
  · cases h
  · cases h

/-- Only the least version has none before it. -/
theorem append_panic {q : Panic} (h : (s.append r now id v origin p).1 = .error (.panic q)) :
    v = Int32.minValue := by
  unfold append at h
  split at h
  · cases h
  · exact previousVersion?_eq_none_iff.1 (appendAt_panic h)

/-- Only after the greatest version there is no next one. -/
theorem appendKeyed_panic {q : Panic} (h : (s.appendKeyed r now key origin p).1 = .error (.panic q)) :
    ∃ k, s.currentVersion k = Int32.maxValue := by
  unfold appendKeyed at h
  split at h
  · cases h
  split at h
  · cases h
  next domain _ =>
  dsimp only at h
  split at h
  · cases h
  split at h
  · next hv => exact ⟨⟨domain, textHash key⟩, nextVersion?_eq_none_iff.1 hv⟩
  next v hv =>
  rw [← previousVersion?_eq_some_iff_next] at hv
  split at h
  · next ha =>
    cases h
    rw [appendAt_panic (congrArg Prod.fst ha)] at hv
    cases hv
  · cases h

end Store
end EventSourcing
