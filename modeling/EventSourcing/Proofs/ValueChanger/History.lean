import EventSourcing.Proofs.Json.RoundTrip
import EventSourcing.Proofs.ValueChanger.Application

/-! Histories of values. Each change of a well-linked history starts from the value that the one
before it has led to, and it changes that value. Replaying such a history gives the last value, counts
the changes and remembers every value that was ever set. -/

namespace EventSourcing.ValueChanger

/-- A change that leads from the value `v` to another one. -/
inductive Link : String → Change → String → Prop
  | set {v x : String} (hx : x ≠ "") (hne : x ≠ v) : Link v (.valueSet ⟨x, v⟩) x
  | cleared {v : String} (hv : v ≠ "") : Link v (.valueCleared ⟨v⟩) ""

/-- Changes that lead from the empty value to `v`, each of them from where the one before it has led. -/
inductive Linked : List Change → String → Prop
  | nil : Linked [] ""
  | snoc {cs : List Change} {v v' : String} {c : Change} (h : Linked cs v) (hc : Link v c v') :
    Linked (cs ++ [c]) v'

/-- The hash of the text that a change sets. -/
def Change.setHash? : Change → Option Int64
  | .valueSet e => some (textHash e.value)
  | _ => none

/-- The state after listed changes that have led to the value `v`. -/
def Value.after (cs : List Change) (v : String) : Value :=
  ⟨v, UInt64.ofNat cs.length, .ofList (cs.filterMap Change.setHash?)⟩

/-- What was seen are the hashes of the texts that were ever set. -/
theorem Value.mem_seen_after {cs : List Change} {v : String} {hash : Int64} :
    hash ∈ (Value.after cs v).seen.members ↔
      ∃ x previous, .valueSet ⟨x, previous⟩ ∈ cs ∧ textHash x = hash := by
  show hash ∈ (IdSet.ofList _).members ↔ _
  rw [IdSet.mem_ofList, List.mem_filterMap]
  refine ⟨?_, ?_⟩
  · rintro ⟨c, hc, hhash⟩
    cases c with
    | valueSet e => exact ⟨e.value, e.previous, hc, Option.some.inj hhash⟩
    | _ => cases hhash
  · rintro ⟨x, previous, hc, rfl⟩
    exact ⟨_, hc, rfl⟩

theorem Link.apply {v v' : String} {c : Change} (h : Link v c v') (cs : List Change) :
    (Value.after cs v).apply c = .after (cs ++ [c]) v' := by
  unfold Value.after
  rw [List.length_append, UInt64.ofNat_add, List.filterMap_append, IdSet.ofList, IdSet.ofList,
    List.foldl_append]
  cases h with
  | set _ _ => rfl
  | cleared _ => rfl

theorem Linked.replay {cs : List Change} {v : String} (h : Linked cs v) :
    domain.aggregate.replay (cs.map .custom) = .custom (.after cs v) := by
  induction h with
  | nil => rfl
  | @snoc cs v v' c _ hc ih =>
    have happly := hc.apply cs
    unfold AggregateType.replay at ih ⊢
    rw [List.map_append, List.foldl_append, ih, ← happly]
    rfl

/-- The events of an aggregate that was changed by `cs` and is at the value `v` now. The version of an
event is its place. -/
structure History (events : List Message) (cs : List Change) (v : String) : Prop where
  version : ∀ (i : Nat) (m : Message), events[i]? = some m → m.version.toInt = i + 1
  decoded : events.mapM domain.decodeEvent = .ok (cs.map .custom)
  linked : Linked cs v

namespace History

variable {events : List Message} {cs : List Change} {v v' : String}

theorem nil : History [] [] "" where
  version _ _ h := nomatch h
  decoded := rfl
  linked := .nil

theorem snoc (h : History events cs v) {m : Message} {c : Change}
    (hv : m.version.toInt = events.length + 1) (hm : domain.decodeEvent m = .ok (.custom c))
    (hc : Link v c v') : History (events ++ [m]) (cs ++ [c]) v' where
  version i n hn := by
    rw [List.getElem?_append] at hn
    split at hn
    · exact h.version i n hn
    · next hi =>
      obtain ⟨h0, hnm⟩ := List.getElem?_eq_some_iff.1 hn
      rw [List.length_singleton] at h0
      obtain rfl : m = n := by simpa using hnm
      omega
  decoded := by
    rw [List.mapM_append, bind_eq_ok_iff]
    refine ⟨_, h.decoded, ?_⟩
    rw [bind_eq_ok_iff]
    refine ⟨[.custom c], ?_, ?_⟩
    · rw [List.mapM_cons, bind_eq_ok_iff]
      exact ⟨_, hm, rfl⟩
    · rw [List.map_append]
      rfl
  linked := h.linked.snoc hc

/-- The last event of a history has gone on with the history before it. -/
theorem exists_of_snoc {m : Message} (h : History (events ++ [m]) cs v') :
    ∃ front c v, cs = front ++ [c] ∧ History events front v ∧
      domain.decodeEvent m = .ok (.custom c) ∧ Link v c v' := by
  have hdecoded := h.decoded
  rw [List.mapM_append, bind_eq_ok_iff] at hdecoded
  obtain ⟨first, hfirst, hdecoded⟩ := hdecoded
  obtain ⟨last, hlast, hdecoded⟩ := bind_eq_ok_iff.1 hdecoded
  rw [List.mapM_cons, bind_eq_ok_iff] at hlast
  obtain ⟨p, hp, hlast⟩ := hlast
  cases hlast
  have hmap : first ++ [p] = cs.map .custom := Except.ok.inj hdecoded
  cases hl : h.linked with
  | nil => simp at hmap
  | @snoc front v _ c hfront hc =>
    rw [List.map_append] at hmap
    obtain ⟨rfl, hlast⟩ := List.append_inj' hmap rfl
    cases hlast
    refine ⟨front, c, v, rfl, ⟨?_, hfirst, hfront⟩, hp, hc⟩
    intro i n hn
    refine h.version i n ?_
    rw [List.getElem?_append_left (List.getElem?_eq_some_iff.1 hn).1]
    exact hn

/-- The value is what the last event has set, if it has set one. -/
theorem eq_of_getLast? {m : Message} {x previous : String} (h : History events cs v)
    (hm : events.getLast? = some m)
    (hdecode : domain.decodeEvent m = .ok (.custom (.valueSet ⟨x, previous⟩))) : v = x := by
  obtain ⟨front, rfl⟩ := List.getLast?_eq_some_iff.1 hm
  obtain ⟨_, c, _, -, -, hc, hlink⟩ := h.exists_of_snoc
  cases hc.symm.trans hdecode
  cases hlink
  rfl

/-- Each event of a history has gone on with the history before it. -/
theorem exists_at (h : History events cs v) {i : Nat} {m : Message} (hm : events[i]? = some m) :
    ∃ front c u u', History (events.take i) front u ∧ domain.decodeEvent m = .ok (.custom c) ∧
      Link u c u' ∧ History (events.take (i + 1)) (front ++ [c]) u' := by
  induction events using List.reverseRecOn generalizing cs v with
  | nil => cases hm
  | append_singleton events last ih =>
    obtain ⟨front, c, u, rfl, hfront, hlast, hc⟩ := h.exists_of_snoc
    rcases Nat.lt_trichotomy i events.length with hlt | rfl | hgt
    · rw [List.getElem?_append_left hlt] at hm
      rw [List.take_append_of_le_length (Nat.le_of_lt hlt), List.take_append_of_le_length hlt]
      exact ih hfront hm
    · obtain rfl : last = m := by simpa using hm
      refine ⟨front, c, u, v, ?_, hlast, hc, ?_⟩
      · rw [List.take_left]
        exact hfront
      · rw [List.take_of_length_le (by simp)]
        exact h
    · rw [List.getElem?_eq_none (by simpa using hgt)] at hm
      cases hm

theorem length_eq (h : History events cs v) : events.length = cs.length := by
  have hlength := length_of_mapM_eq_ok h.decoded
  rw [List.length_map] at hlength
  exact hlength.symm

theorem eq_of_version {m n : Message} (h : History events cs v) (hm : m ∈ events) (hn : n ∈ events)
    (hv : m.version = n.version) : m = n := by
  obtain ⟨i, hi⟩ := List.mem_iff_getElem?.1 hm
  obtain ⟨j, hj⟩ := List.mem_iff_getElem?.1 hn
  have hversion := h.version i m hi
  rw [hv, h.version j n hj] at hversion
  obtain rfl : j = i := by omega
  exact Option.some.inj (hi.symm.trans hj)

theorem getLast?_eq_some_iff {m : Message} (h : History events cs v) (hm : m ∈ events) :
    events.getLast? = some m ↔ m.version.toInt = events.length := by
  obtain ⟨i, hi⟩ := List.mem_iff_getElem?.1 hm
  have hversion := h.version i m hi
  have hlt := (List.getElem?_eq_some_iff.1 hi).1
  rw [List.getLast?_eq_getElem?]
  refine ⟨?_, ?_⟩
  · intro hlast
    rw [h.version _ m hlast]
    omega
  · intro hplace
    obtain rfl : i = events.length - 1 := by omega
    exact hi

/-- Versions have 32 bits, so no history is longer. -/
theorem length_le (h : History events cs v) : (events.length : Int) ≤ Int32.maxValue.toInt := by
  rcases List.eq_nil_or_concat events with hn | ⟨front, last, hl⟩
  · rw [hn]
    decide
  · have hv := h.version front.length last (by simp [hl])
    have hle := last.version.toInt_le
    rw [Int32.toInt_maxValue] at hle ⊢
    rw [hl, List.concat_eq_append, List.length_append, List.length_singleton]
    omega

theorem replay (h : History events cs v) : domain.replay events = .ok (.custom (.after cs v)) :=
  Domain.replay_eq_ok_iff.2 ⟨_, h.decoded, h.linked.replay⟩

theorem toNat_changes (h : History events cs v) :
    (Value.after cs v).changes.toNat = events.length := by
  have hle := h.length_le
  rw [Int32.toInt_maxValue] at hle
  rw [h.length_eq] at hle ⊢
  exact UInt64.toNat_ofNat_of_lt' (by simp [UInt64.size]; omega)

theorem unique {cs' : List Change} (h : History events cs v) (h' : History events cs' v') :
    cs = cs' ∧ v = v' := by
  have hcs : cs = cs' := by
    have hmap := Except.ok.inj (h.decoded.symm.trans h'.decoded)
    refine List.map_injective_iff.2 ?_ hmap
    intro c c' hc
    exact Payload.custom.inj hc
  refine ⟨hcs, ?_⟩
  have hstate := Except.ok.inj (h.replay.symm.trans h'.replay)
  exact congrArg Value.value (State.custom.inj hstate)

end History
end EventSourcing.ValueChanger
