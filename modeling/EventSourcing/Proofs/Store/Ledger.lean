import EventSourcing.Proofs.Store.Effects
import EventSourcing.Proofs.Store.Frame

/-! The books of a store. The number of events that it holds is told by the answers of its calls alone:
one more for each append that succeeds, one less for each deletion of an event that has found one, and
less by as many events as a deleted aggregate is reported to have had; clearing the store starts new
books. A deletion of events takes all events of a version, but there is one at most. -/

namespace EventSourcing

/-- What the answers to calls add up to, since the store was last cleared. -/
structure Tally where
  /-- Appends that succeeded. -/
  appended : Nat
  /-- Deletions of a version that was there. -/
  deleted : Nat
  /-- Events that were deleted with their aggregates. -/
  removed : Nat

namespace Tally

def zero : Tally := ⟨0, 0, 0⟩

def add (t : Tally) : Attempt StoreError Reply → Tally
  | .ok (.appended _) => { t with appended := t.appended + 1 }
  | .ok (.deleted true) => { t with deleted := t.deleted + 1 }
  | .ok (.removed count) => { t with removed := t.removed + count }
  | .ok .cleared => zero
  | _ => t

def ofAnswers (answers : List (Attempt StoreError Reply)) : Tally := answers.foldl add zero

theorem ofAnswers_concat (answers : List (Attempt StoreError Reply))
    (answer : Attempt StoreError Reply) :
    ofAnswers (answers ++ [answer]) = (ofAnswers answers).add answer := by
  unfold ofAnswers
  rw [List.foldl_append, List.foldl_cons, List.foldl_nil]

theorem ofAnswers_cleared (before after : List (Attempt StoreError Reply)) :
    ofAnswers (before ++ .ok .cleared :: after) = ofAnswers after := by
  unfold ofAnswers
  rw [List.foldl_append, List.foldl_cons]
  rfl

end Tally

section Counting

variable {κ τ : Type} [DecidableEq κ]

/-- A list put into a table takes the place of the one that was there. -/
theorem length_flatten_assign (k : κ) (l : List τ) (es : List (κ × List τ)) :
    ((assign k l es).map Prod.snd).flatten.length +
        (((es.find? (·.1 = k)).map Prod.snd).getD []).length =
      (es.map Prod.snd).flatten.length + l.length := by
  induction es with
  | nil => simp [assign]
  | cons e rest ih =>
    unfold assign
    by_cases he : e.1 = k
    · rw [if_pos he, List.find?_cons_of_pos (by simpa using he)]
      simp only [List.map_cons, List.flatten_cons, List.length_append, Option.map_some,
        Option.getD_some]
      omega
    · rw [if_neg he, List.find?_cons_of_neg (by simpa using he)]
      simp only [List.map_cons, List.flatten_cons, List.length_append]
      omega

theorem length_flatten_erase {k : κ} {es : List (κ × List τ)} (h : (es.map Prod.fst).Nodup) :
    ((es.filter (·.1 ≠ k)).map Prod.snd).flatten.length +
        (((es.find? (·.1 = k)).map Prod.snd).getD []).length =
      (es.map Prod.snd).flatten.length := by
  induction es with
  | nil => rfl
  | cons e rest ih =>
    rw [List.map_cons, List.nodup_cons] at h
    by_cases he : e.1 = k
    · have hrest : rest.filter (·.1 ≠ k) = rest := by
        rw [List.filter_eq_self]
        intro x hx
        have hne : x.1 ≠ k := fun hk => h.1 (he ▸ hk ▸ List.mem_map_of_mem hx)
        exact decide_eq_true hne
      rw [List.filter_cons_of_neg (by simpa using he), hrest,
        List.find?_cons_of_pos (by simpa using he), List.map_cons, List.flatten_cons,
        List.length_append, Option.map_some, Option.getD_some, Nat.add_comm]
    · have hih := ih h.2
      rw [List.filter_cons_of_pos (by simpa using he), List.find?_cons_of_neg (by simpa using he)]
      simp only [List.map_cons, List.flatten_cons, List.length_append]
      omega

end Counting

/-- Of ascending versions there is one at most that is `v`. -/
theorem length_filter_version {l : List Message} (h : l.Pairwise fun m n => m.version < n.version)
    (v : Int32) : l.length ≤ (l.filter (·.version ≠ v)).length + 1 := by
  induction l with
  | nil => exact Nat.zero_le _
  | cons m rest ih =>
    rw [List.pairwise_cons] at h
    by_cases hv : m.version = v
    · have hrest : rest.filter (·.version ≠ v) = rest := by
        rw [List.filter_eq_self]
        intro n hn
        exact decide_eq_true (hv ▸ (Int32.ne_of_lt (h.1 n hn)).symm)
      rw [List.filter_cons_of_neg (by simpa using hv), hrest]
      exact Nat.le_refl _
    · rw [List.filter_cons_of_pos (by simpa using hv), List.length_cons, List.length_cons]
      exact Nat.succ_le_succ (ih h.2)

namespace Store

section Events

variable {s s' : Store} {k : AggregateKey} {v : Int32} {m : Message}

theorem eventCount_insert (s : Store) (k : AggregateKey) (events : List Message) :
    ({ s with streams := s.streams.insert k events } : Store).eventCount + (s.stream k).length =
      s.eventCount + events.length :=
  length_flatten_assign k events s.streams.entries

theorem Adds.eventCount (h : s.Adds m s') : s'.eventCount = s.eventCount + 1 := by
  have hinsert := s.eventCount_insert m.aggregateKey (s.stream m.aggregateKey ++ [m])
  have hcount : s'.eventCount = ({ s with streams := s'.streams } : Store).eventCount := rfl
  rw [hcount, h.streams]
  rw [List.length_append, List.length_singleton] at hinsert
  omega

theorem eventCount_deleteAggregate (s : Store) (k : AggregateKey) :
    (s.deleteAggregate k).2.eventCount + (s.stream k).length = s.eventCount :=
  length_flatten_erase s.streams.distinct

/-- A deletion takes one event at most, and says whether it has. -/
theorem eventCount_deleteEvent (h : (s.stream k).Pairwise fun m n => m.version < n.version)
    (v : Int32) :
    (s.deleteEvent k v).2.eventCount + (if (s.deleteEvent k v).1 then 1 else 0) = s.eventCount := by
  unfold deleteEvent
  cases hevents : s.streams.get? k with
  | none => simp
  | some events =>
    have hstream : s.stream k = events := by rw [stream, hevents, Option.getD_some]
    have hinsert := s.eventCount_insert k (events.filter (·.version ≠ v))
    rw [hstream] at h hinsert
    have hone := length_filter_version h v
    have hle := List.length_filter_le (fun m : Message => m.version ≠ v) events
    dsimp only
    split
    · next hlt =>
      rw [decide_eq_true_eq] at hlt
      omega
    · next hlt =>
      rw [decide_eq_true_eq] at hlt
      omega

theorem event?_eq_some_iff (h : (s.stream k).Pairwise fun m n => m.version < n.version) :
    s.event? k v = some m ↔ m ∈ s.stream k ∧ m.version = v := by
  unfold event?
  refine ⟨?_, ?_⟩
  · intro hm
    exact ⟨List.mem_of_find?_eq_some hm, by simpa using List.find?_some hm⟩
  · rintro ⟨hm, rfl⟩
    obtain ⟨before, after, hl⟩ := List.append_of_mem hm
    rw [hl, List.pairwise_append] at h
    rw [List.find?_eq_some_iff_append]
    refine ⟨decide_eq_true rfl, before, after, hl, ?_⟩
    intro n hn
    have hlt := h.2.2 n hn m List.mem_cons_self
    simp [Int32.ne_of_lt hlt]

theorem deleteEvent_fst_eq_true_iff :
    (s.deleteEvent k v).1 = true ↔ ∃ m ∈ s.stream k, m.version = v :=
  (deleteFrame s k v).existed

theorem isSome_event? : (s.event? k v).isSome = (s.deleteEvent k v).1 := by
  rw [Bool.eq_iff_iff, deleteEvent_fst_eq_true_iff, event?, List.find?_isSome]
  simp

end Events

variable {α σ : Type} [Content α] {r : Registry α σ} {s s' : Store}

/-- The books agree with what the store holds. -/
def Balanced (s : Store) (t : Tally) : Prop := s.eventCount + t.deleted + t.removed = t.appended

theorem Balanced.effect {t : Tally} {answer : Attempt StoreError Reply} (ht : s.Balanced t)
    (hs : s.WellFormed r) (h : s.Effect r answer s') : s'.Balanced (t.add answer) := by
  unfold Balanced at ht ⊢
  cases h with
  | failed fault => exact ht
  | appended ha =>
    have hcount := ha.adds.eventCount
    simp only [Tally.add]
    omega
  | stored record => exact ht
  | deleted k v =>
    have hcount := eventCount_deleteEvent (hs.ascending k) v
    cases hexisted : (s.deleteEvent k v).1 with
    | true =>
      simp only [hexisted, if_true] at hcount
      simp only [Tally.add]
      omega
    | false =>
      simp only [hexisted, Bool.false_eq_true, if_false] at hcount
      simp only [Tally.add]
      omega
  | removed k =>
    have hcount := s.eventCount_deleteAggregate k
    simp only [Tally.add]
    omega
  | cleared => rfl

theorem balanced_run (hr : r.Filed) (ops : List (Operation α)) :
    (run r ops).Balanced (.ofAnswers (empty.answers r ops)) := by
  have h := answers_induction (r := r) (s := .empty)
    (P := fun t as => t.WellFormed r ∧ t.Balanced (.ofAnswers as)) ops ⟨wellFormed_empty, rfl⟩ ?_
  · exact h.2
  · rintro t as op ⟨hwell, hbalanced⟩
    rw [Tally.ofAnswers_concat]
    exact ⟨hwell.perform hr op, hbalanced.effect hwell (t.effect_call r op)⟩

/-- A version that was deleted is missing until an event of this version is appended again. -/
theorem deleteEvent_again (s : Store) {k : AggregateKey} {v : Int32} {later : List (Operation α)}
    (h : ∀ m ∈ appendedEvents ((s.deleteEvent k v).2.answers r later),
      m.aggregateKey = k → m.version ≠ v) :
    ((later.foldl (perform r) (s.deleteEvent k v).2).deleteEvent k v).1 = false := by
  rw [Bool.eq_false_iff, ne_eq, deleteEvent_fst_eq_true_iff]
  rintro ⟨m, hm, hv⟩
  rcases List.mem_append.1 ((stream_sublist_appended _ later k).subset hm) with hm | hm
  · rw [stream_deleteEvent, if_pos rfl] at hm
    exact of_decide_eq_true (List.mem_filter.1 hm).2 hv
  · obtain ⟨hm, hk⟩ := List.mem_filter.1 hm
    exact h m hm (of_decide_eq_true hk) hv

/-- Whatever calls are made, the store holds as many events as its answers account for. A deletion
takes one event at most, the one that is read under the version, and answers whether there was one.
Deleted once more, the version is not there, unless it was appended again in between. -/
theorem event_count_balances (hr : r.Built) (ops : List (Operation α)) :
    let s := run r ops
    let t := Tally.ofAnswers (empty.answers r ops)
    (s.eventCount : Int) = t.appended - t.deleted - t.removed ∧
    ∀ k v,
      let s' := (s.deleteEvent k v).2
      let existed := (s.deleteEvent k v).1
      s'.eventCount + (if existed then 1 else 0) = s.eventCount ∧
      (∀ m, s.event? k v = some m ↔ m ∈ s.stream k ∧ m.version = v) ∧
      (s.event? k v).isSome = existed ∧
      (s'.deleteEvent k v).1 = false ∧
      ∀ later : List (Operation α),
        (∀ m ∈ appendedEvents (s'.answers r later), m.aggregateKey = k → m.version ≠ v) →
        ((later.foldl (perform r) s').deleteEvent k v).1 = false := by
  intro s t
  have hs : s.WellFormed r := wellFormed_run hr.filed ops
  have hbalanced : s.Balanced t := balanced_run hr.filed ops
  refine ⟨?_, ?_⟩
  · unfold Balanced at hbalanced
    omega
  · intro k v s' existed
    have hagain : ∀ later : List (Operation α),
        (∀ m ∈ appendedEvents (s'.answers r later), m.aggregateKey = k → m.version ≠ v) →
        ((later.foldl (perform r) s').deleteEvent k v).1 = false :=
      fun later h => s.deleteEvent_again h
    exact ⟨eventCount_deleteEvent (hs.ascending k) v, fun m => event?_eq_some_iff (hs.ascending k),
      isSome_event?, hagain [] nofun, hagain⟩

/-- After the store was cleared, a version is deleted and used again. The books are those of the calls
since then. Deleted once more, the version is gone for good. -/
theorem event_count_balances_reused :
    let r : Registry ValueChanger.Change ValueChanger.Value := .minimal "test/source"
    let p : Payload ValueChanger.Change := .errorRaised ⟨"disk full"⟩
    let k : AggregateKey := ⟨textHash32 systemUri, 7⟩
    let x : AggregateKey := ⟨textHash32 systemUri, 8⟩
    let recent : List (Operation ValueChanger.Change) := [.append 2 7 1 [] p, .deleteEvent k 1,
      .append 3 7 1 [] p, .append 4 8 1 [] p]
    let s := run r (.append 1 8 1 [] p :: .clear :: recent)
    let t := Tally.ofAnswers (empty.answers r recent)
    let s' := (s.deleteEvent k 1).2
    let later : List (Operation ValueChanger.Change) := [.deleteEvent x 1, .deleteAggregate x]
    r.Built ∧ (s.eventCount : Int) = t.appended - t.deleted - t.removed ∧
      (∀ m ∈ appendedEvents (s'.answers r later), m.aggregateKey = k → m.version ≠ 1) ∧
      ((later.foldl (perform r) s').deleteEvent k 1).1 = false := by
  intro r p k x recent s t s' later
  have hr : r.Built := Registry.built_minimal "test/source"
  have hlater : ∀ m ∈ appendedEvents (s'.answers r later), m.aggregateKey = k → m.version ≠ 1 := by
    simp [later, answers, call, appendedEvents, appended?]
  obtain ⟨hcount, hdelete⟩ := event_count_balances hr (.append 1 8 1 [] p :: .clear :: recent)
  obtain ⟨-, -, -, -, hagain⟩ := hdelete k 1
  refine ⟨hr, ?_, hlater, hagain later hlater⟩
  have ht : Tally.ofAnswers (empty.answers r (.append 1 8 1 [] p :: .clear :: recent)) = t :=
    Tally.ofAnswers_cleared [(empty.call r (.append 1 8 1 [] p)).1] (empty.answers r recent)
  rw [ht] at hcount
  exact hcount

end Store
end EventSourcing
