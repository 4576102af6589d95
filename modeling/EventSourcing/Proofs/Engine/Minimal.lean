import EventSourcing.Proofs.Domain.System
import EventSourcing.Proofs.Engine.Outcome
import EventSourcing.Proofs.Json.RoundTrip

/-! The smallest engine: the system domain with its handler, and nothing else. A command that raises
an error is hydrated there, on the initial state of the error log. -/

namespace EventSourcing

variable {α σ : Type} [Content α]

theorem quiet_systemHandler (i : Invocation α σ) : (systemHandler.run i).Quiet := by
  unfold systemHandler
  dsimp only
  split
  · exact .call _ .done
  · exact .call _ .done

theorem World.hasRoom_fresh (publisher : Publisher) (time : Nat → Int64) :
    (fresh publisher time).HasRoom where
  versions _ _ hm := nomatch hm
  histories _ := by
    show Int32.ofNat 0 ≠ Int32.maxValue
    decide

namespace World

def serving (s : Store) : World := { fresh .noop fun _ => 0 with store := s }

theorem store_serving (s : Store) : (serving s).store = s := rfl

theorem mem_answers_serving (s : Store) (domain : Int32) (id : Int64) :
    .ok (s.events ⟨domain, id⟩ 0) ∈ (serving s).answers domain (.id id) :=
  mem_answers_of_outage_none rfl domain id

def refusing (s : Store) (error : StoreError) : World :=
  { serving s with outage := ⟨[some error], [], id⟩ }

theorem mem_answers_refusing (s : Store) (error : StoreError) (domain : Int32) (id : Int64) :
    .ok (s.events ⟨domain, id⟩ 0) ∈ (refusing s error).answers domain (.id id) :=
  mem_answers_of_refused rfl rfl domain id

end World

namespace Wiring

def minimal : Wiring α σ := ⟨Table.empty.insert (textHash32 systemUri) systemHandler, [], .empty⟩

/-- A registry that was built knows the system domain, so its handler can always be wired. -/
theorem start_of_built {r : Registry α σ} (hr : r.Built) : WiringBuilder.start r = ⟨minimal, none⟩ := by
  have hadd : (Wiring.empty : Wiring α σ).addHandler r systemUri systemHandler = (.ok (), minimal) := by
    unfold addHandler
    rw [hr.domainByUri_system]
    rfl
  unfold WiringBuilder.start WiringBuilder.add add
  dsimp only
  rw [hadd]

theorem build_nil (sourceUri : String) : build (.minimal sourceUri) [] = .ok (minimal : Wiring α σ) := by
  unfold build
  rw [List.foldl_nil, start_of_built (Registry.built_minimal sourceUri)]
  rfl

theorem build_handler {r : Registry α σ} (hr : r.Built) {uri : String} {h : Handler α σ}
    {d : Domain α σ} (hd : r.domainByUri uri = some d) (ha : d.aggregate.fullName = h.aggregate)
    (hne : textHash32 systemUri ≠ d.shortId) :
    build r [.handler uri h] =
      .ok { (minimal : Wiring α σ) with handlers := minimal.handlers.insert d.shortId h } := by
  have hfree : (minimal : Wiring α σ).handlers.contains d.shortId = false := by
    unfold minimal Table.contains
    rw [Table.get?_insert, if_neg hne]
    rfl
  unfold build
  rw [List.foldl_cons, List.foldl_nil, start_of_built hr]
  unfold WiringBuilder.add add addHandler
  dsimp only
  rw [hd]
  dsimp only
  rw [if_neg (Decidable.not_not.2 ha), hfree]
  rfl

theorem get?_minimal {domain : Int32} {h : Handler α σ}
    (hh : (minimal : Wiring α σ).handlers.get? domain = some h) : h = systemHandler := by
  unfold minimal at hh
  rw [Table.get?_insert] at hh
  split at hh
  · exact (Option.some.inj hh).symm
  · cases hh

theorem quiet_minimal : (minimal : Wiring α σ).Quiet := by
  intro domain h hh i
  rw [get?_minimal hh]
  exact quiet_systemHandler i

end Wiring

namespace Engine

def minimal (sourceUri : String) : Engine α σ where
  registry := .minimal sourceUri
  wiring := .minimal
  reporter := .standard fun _ => 1

def diskFullAt (id : Int64) : Message where
  header := ⟨0, textHash32 systemUri, id, 0⟩
  origin := []
  timestamp := 0
  typeId := typeIdOf .command (Text.lowercase "RaiseError") 1
  data := Json.encode (⟨"disk full"⟩ : RaiseError)

def diskFull : Message := diskFullAt 7

def diskFullHydration : Hydration α σ where
  task := ⟨systemDomain, systemHandler, .raiseError ⟨"disk full"⟩⟩
  events := []
  decoded := []

omit [Content α] in
theorem extract_diskFullAt (id : Int64) :
    (raiseErrorEntry : MessageType α).extract (diskFullAt id) = .ok (.raiseError ⟨"disk full"⟩) := by
  exact MessageType.extract_eq_ok rfl (Json.LawfulCodec.encode_ne_nil _)
    (PayloadType.decode_encode "RaiseError" systemUri .raiseError ⟨"disk full"⟩)

theorem accepts_diskFullAt (sourceUri : String) (id : Int64) :
    (minimal sourceUri : Engine α σ).Accepts (diskFullAt id) diskFullHydration.task := by
  refine ⟨Registry.domain_minimal sourceUri,
    ⟨raiseErrorEntry, byId_raiseError, extract_diskFullAt id⟩, ?_⟩
  unfold minimal Wiring.minimal
  rw [Table.get?_insert]
  exact if_pos rfl

theorem hydrates_diskFull (sourceUri : String) (publisher : Publisher) (time : Nat → Int64) :
    (minimal sourceUri : Engine α σ).Hydrates diskFull (.fresh publisher time) diskFullHydration where
  accepts := accepts_diskFullAt sourceUri 7
  reads := List.mem_cons_self
  decodes := .nil

end Engine

end EventSourcing
