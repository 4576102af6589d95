import EventSourcing.Proofs.Store.Append
import EventSourcing.Store.Edit

/-! Runs of a store: the calls that may change it, in any order and with any arguments, from the
empty store on. A call that fails leaves the store as it was. -/

namespace EventSourcing

variable {α σ : Type} [Content α]

/-- A call that may change a store. The clock reads `now` when an event is appended. -/
inductive Operation (α : Type)
  | append (now id : Int64) (version : Int32) (origin : List Record) (p : Payload α)
  | appendKeyed (now : Int64) (key : String) (origin : List Record) (p : Payload α)
  | storeSnapshot (record : Record)
  | deleteEvent (k : AggregateKey) (version : Int32)
  | deleteAggregate (k : AggregateKey)
  | clear

namespace Store

def perform (r : Registry α σ) (s : Store) : Operation α → Store
  | .append now id version origin p => (s.append r now id version origin p).2
  | .appendKeyed now key origin p => (s.appendKeyed r now key origin p).2
  | .storeSnapshot record => s.storeSnapshot record
  | .deleteEvent k version => (s.deleteEvent k version).2
  | .deleteAggregate k => (s.deleteAggregate k).2
  | .clear => .empty

def run (r : Registry α σ) (ops : List (Operation α)) : Store := ops.foldl (perform r) .empty

variable {r : Registry α σ} {s : Store}

theorem run_append (before after : List (Operation α)) :
    run r (before ++ after) = after.foldl (perform r) (run r before) := List.foldl_append

theorem perform_append (now id : Int64) (v : Int32) (origin : List Record) (p : Payload α) :
    s.perform r (.append now id v origin p) = s ∨
      ∃ m, s.Appends r m (s.perform r (.append now id v origin p)) := by
  unfold perform
  dsimp only
  rcases s.append_cases r now id v origin p with ⟨m, s', h⟩ | ⟨fault, h⟩
  · rw [h]
    exact .inr ⟨m, appends_of_append h⟩
  · rw [h]
    exact .inl rfl

theorem perform_appendKeyed (now : Int64) (key : String) (origin : List Record) (p : Payload α) :
    s.perform r (.appendKeyed now key origin p) = s ∨
      ∃ m, s.Appends r m (s.perform r (.appendKeyed now key origin p)) := by
  unfold perform
  dsimp only
  rcases s.appendKeyed_cases r now key origin p with ⟨m, s', h⟩ | ⟨fault, h⟩
  · rw [h]
    exact .inr ⟨m, appends_of_appendKeyed h⟩
  · rw [h]
    exact .inl rfl

/-- What holds of the empty store and is kept by each call of a run holds after the run. -/
theorem run_induction {P : Store → Prop} {ops : List (Operation α)} (empty : P .empty)
    (step : ∀ s, ∀ op ∈ ops, P s → P (s.perform r op)) : P (run r ops) := by
  unfold run
  generalize Store.empty = start at empty
  induction ops generalizing start with
  | nil => exact empty
  | cons op rest ih =>
    rw [List.foldl_cons]
    refine ih ?_ _ (step start op List.mem_cons_self empty)
    exact fun s x hx => step s x (List.mem_cons_of_mem op hx)

end Store
end EventSourcing
