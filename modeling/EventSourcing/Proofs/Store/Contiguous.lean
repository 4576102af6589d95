import EventSourcing.Proofs.Store.Run
import EventSourcing.Store.Query

/-! Streams without holes. As long as no single event is deleted, the events of a stream are numbered
from one on, in their order. The version of the last event is the number of events then, and a
reading from version zero on gives the whole stream. -/

namespace EventSourcing.Store

/-- The event at place `i` of the stream, counted from zero, has the version `i + 1`. -/
def ContiguousAt (s : Store) (k : AggregateKey) : Prop :=
  ∀ (i : Nat) (m : Message), (s.stream k)[i]? = some m → m.version.toInt = i + 1

def Contiguous (s : Store) : Prop := ∀ k, s.ContiguousAt k

variable {s : Store} {k : AggregateKey}

theorem contiguousAt_of_stream_eq_nil (h : s.stream k = []) : s.ContiguousAt k := by
  intro i m hm
  simp [h] at hm

theorem contiguous_empty : empty.Contiguous := fun _ => contiguousAt_of_stream_eq_nil rfl

theorem ContiguousAt.toInt_currentVersion (h : s.ContiguousAt k) :
    (s.currentVersion k).toInt = (s.stream k).length := by
  unfold currentVersion
  rcases List.eq_nil_or_concat (s.stream k) with hn | ⟨front, last, hl⟩
  · rw [hn]
    rfl
  · have hv := h front.length last (by simp [hl])
    rw [hl, List.concat_eq_append, List.getLast?_concat, List.length_append, List.length_singleton]
    show last.version.toInt = _
    omega

theorem Contiguous.toInt_currentVersion (h : s.Contiguous) (k : AggregateKey) :
    (s.currentVersion k).toInt = (s.stream k).length :=
  ContiguousAt.toInt_currentVersion (h k)

theorem ContiguousAt.events_eq (h : s.ContiguousAt k) : s.events k 0 = s.stream k := by
  unfold events
  rw [List.filter_eq_self]
  intro m hm
  obtain ⟨i, hi⟩ := List.getElem?_of_mem hm
  have hv := h i m hi
  rw [decide_eq_true_eq, Int32.le_iff_toInt_le, Int32.toInt_zero]
  omega

theorem Contiguous.events_eq (h : s.Contiguous) (k : AggregateKey) : s.events k 0 = s.stream k :=
  ContiguousAt.events_eq (h k)

section

variable {α σ : Type} [Content α] {r : Registry α σ} {m : Message} {s' : Store}

theorem ContiguousAt.appends (h : s.ContiguousAt k) (ha : s.Appends r m s') : s'.ContiguousAt k := by
  intro i n hn
  rw [ha.stream_eq] at hn
  split at hn
  · next hk =>
    subst hk
    have hnext := previousVersion?_eq_some_iff.1 ha.follows
    rw [h.toInt_currentVersion] at hnext
    rw [List.getElem?_append] at hn
    split at hn
    · exact h i n hn
    · next hi =>
      obtain ⟨h0, hnm⟩ := List.getElem?_eq_some_iff.1 hn
      rw [List.length_singleton] at h0
      obtain rfl : m = n := by simpa using hnm
      omega
  · exact h i n hn

theorem Contiguous.appends (h : s.Contiguous) (ha : s.Appends r m s') : s'.Contiguous :=
  fun k => ContiguousAt.appends (h k) ha

/-- Only the deletion of a single event can leave a hole. -/
theorem ContiguousAt.perform (h : s.ContiguousAt k) {op : Operation α}
    (hop : ∀ v, op ≠ .deleteEvent k v) : (s.perform r op).ContiguousAt k := by
  cases op with
  | append now id v origin p =>
    rcases perform_append now id v origin p with hs | ⟨m, ha⟩
    · rw [hs]
      exact h
    · exact h.appends ha
  | appendKeyed now key origin p =>
    rcases perform_appendKeyed now key origin p with hs | ⟨m, ha⟩
    · rw [hs]
      exact h
    · exact h.appends ha
  | storeSnapshot record => exact h
  | deleteEvent x v =>
    have hx : x ≠ k := by
      rintro rfl
      exact hop v rfl
    intro i m hm
    simp only [Store.perform, stream_deleteEvent, hx, if_false] at hm
    exact h i m hm
  | deleteAggregate x =>
    intro i m hm
    unfold Store.perform at hm
    rw [stream_deleteAggregate] at hm
    split at hm
    · cases hm
    · exact h i m hm
  | clear => exact contiguousAt_of_stream_eq_nil rfl

theorem Contiguous.perform (h : s.Contiguous) {op : Operation α}
    (hop : ∀ k v, op ≠ .deleteEvent k v) : (s.perform r op).Contiguous :=
  fun k => ContiguousAt.perform (h k) (hop k)

/-- A run that deletes no single event of an aggregate leaves no hole in its stream. -/
theorem run_contiguousAt {ops : List (Operation α)} (hops : ∀ v, .deleteEvent k v ∉ ops) :
    (run r ops).ContiguousAt k := by
  refine run_induction (P := fun s => s.ContiguousAt k) (contiguousAt_of_stream_eq_nil rfl) ?_
  intro s op hop h
  refine h.perform ?_
  rintro v rfl
  exact hops v hop

end

end EventSourcing.Store
