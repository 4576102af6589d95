import EventSourcing.Proofs.Domain.Lookup
import EventSourcing.Proofs.Domain.Registered
import EventSourcing.ValueChanger.Domain

/-! The two ways to a payload. The catalog compares the type id that a message carries with the one
that it has stored; the typed way makes the id anew, from the name of the type and the seven bits of
the version that the message carries. A version that fits into seven bits leads both ways to one
payload. A greater one is cut, so the typed way looks for the id of another name: unless the hashes of
the two names coincide, it refuses every message of the type. -/

namespace EventSourcing

variable {α σ : Type}

/-- Both ways to the payload of a message lead to one payload, or both fail. -/
def Message.Agrees (m : Message) (type : PayloadType α) (t : MessageType α) : Prop :=
  (m.extract type).toOption = (t.extract m).toOption

/-- The name of the type at the version that its messages carry. -/
def MessageType.carriedName (t : MessageType α) : String :=
  EventSourcing.canonicalName t.lowerName (t.version &&& 127)

/-- Cut to the slot of a packed id, the two names have one hash. -/
def TypeId.Coincide (name name' : String) : Prop := idBits (textHash name) = idBits (textHash name')

/-- A decoder fails under one name just when it fails under any other, and decodes the same. -/
theorem Decoder.toOption_run (decoder : Decoder α) (name name' : String) (data : Bytes) :
    (run decoder name data).toOption = (run decoder name' data).toOption := by
  unfold run
  cases decoder data with
  | ok payload => rfl
  | error fault => cases fault <;> rfl

namespace Member

variable {kind : Kind} {uri : String} {x : Member α} {t : MessageType α} {m : Message}

/-- The typed way takes a message of a member's type just when the name that it makes has the hash of
the canonical one. -/
theorem carries_iff (h : x.compile kind uri = .ok t) (hm : m.typeId = t.typeId) :
    m.carries x.type.name = true ↔ TypeId.Coincide t.carriedName t.canonicalName := by
  obtain ⟨-, v, -, rfl⟩ := compile_eq_ok_iff.1 h
  have hid : m.typeId = TypeId.pack kind (textHash (x.entry kind uri v).canonicalName) v := hm
  unfold Message.carries typeIdOf
  rw [decide_eq_true_iff, hid, TypeId.kind_pack, TypeId.version_pack, TypeId.pack_eq_pack_iff]
  refine ⟨fun h => h.2.1, fun h => ⟨rfl, h, ?_⟩⟩
  rw [UInt8.and_assoc, UInt8.and_self]

/-- The typed way fails on a message that it does not take, and does as the catalog on one that it
takes. -/
theorem toOption_extract (h : x.compile kind uri = .ok t) (hm : m.typeId = t.typeId) :
    (m.extract x.type).toOption =
      if m.carries x.type.name then (t.extract m).toOption else none := by
  obtain ⟨-, v, -, rfl⟩ := compile_eq_ok_iff.1 h
  unfold Message.extract MessageType.extract MessageType.decode
  rw [if_neg (Decidable.not_not.2 hm)]
  cases m.carries x.type.name with
  | false => rfl
  | true =>
    cases m.data.isEmpty with
    | false => exact Decoder.toOption_run _ _ _ _
    | true => rfl

theorem agrees_iff (h : x.compile kind uri = .ok t) (hm : m.typeId = t.typeId) :
    m.Agrees x.type t ↔
      TypeId.Coincide t.carriedName t.canonicalName ∨ (t.extract m).toOption = none := by
  unfold Message.Agrees
  rw [toOption_extract h hm, ← carries_iff h hm]
  cases m.carries x.type.name with
  | true => simp
  | false => simp [eq_comm]

theorem carriedName_of_lt (h : x.compile kind uri = .ok t) (hv : t.version < 128) :
    t.carriedName = t.canonicalName := by
  obtain ⟨-, v, -, rfl⟩ := compile_eq_ok_iff.1 h
  unfold MessageType.carriedName
  rw [TypeId.and_127_of_lt _ hv]
  rfl

end Member

variable [Content α]

def PayloadType.Covers (type : PayloadType α) (p : Payload α) : Prop :=
  p.name = type.name ∧ p.uri = type.uri

/-- A message that a payload is packed into, by the domain itself or by a registry that has it. -/
inductive Domain.Packs (d : Domain α σ) (p : Payload α) (m : Message) : Prop
  | domain (source id : Int64) (version : Int32) (now : Int64) (origin : List Record)
    (h : d.newMessage source id version now origin p = .ok m)
  | registry (r : Registry α σ) (id : Int64) (version : Int32) (now : Int64) (origin : List Record)
    (hd : r.domainOf p = some d) (h : r.newMessage id version now origin p = .ok m)

namespace Domain

variable {d : Domain α σ} {p : Payload α} {m : Message} {t : MessageType α}

theorem Packs.typeId (h : d.Packs p m) (ht : d.messageType p = some t) : m.typeId = t.typeId := by
  have hpacked {source id now : Int64} {version : Int32} {origin : List Record}
      (h : d.newMessage source id version now origin p = .ok m) : m.typeId = t.typeId := by
    obtain ⟨u, data, hu, -, rfl⟩ := newMessage_eq_ok_iff.1 h
    exact congrArg MessageType.typeId (Option.some.inj (hu.symm.trans ht))
  cases h with
  | domain source id version now origin h => exact hpacked h
  | registry r id version now origin hd h =>
    unfold Registry.newMessage at h
    rw [hd] at h
    exact hpacked h

theorem messageType_of_covers {type : PayloadType α} (hp : type.Covers p) :
    d.messageType p = d.catalog.byType type := by
  unfold messageType Catalog.byInstance Catalog.byType
  rw [hp.1, hp.2]

end Domain

namespace ValueChanger

def tagged (tag : String) : Definition Change Value :=
  { definition with events := some ⟨.event, [⟨valueSetType, some tag⟩, ⟨valueClearedType, none⟩]⟩ }

theorem hasMember_tagged (tag : String) : (tagged tag).HasMember .event ⟨valueSetType, some tag⟩ :=
  ⟨_, rfl, List.mem_cons_self⟩

def taggedEntry (uri tag : String) (v : UInt8) : MessageType Change :=
  Member.entry .event uri ⟨valueSetType, some tag⟩ v

theorem exists_tagged (tag : String) (v : UInt8) (h : (tagged tag).compile.toOption.isSome = true)
    (hv : readVersion tag.toList = .ok v) :
    ∃ d, (tagged tag).compile = .ok d ∧
      (⟨valueSetType, some tag⟩ : Member Change).compile .event d.uri = .ok (taggedEntry d.uri tag v) ∧
      d.catalog.byType valueSetType = some (taggedEntry d.uri tag v) := by
  obtain ⟨d, hd⟩ := Option.isSome_iff_exists.1 h
  rw [toOption_eq_some_iff] at hd
  obtain ⟨t, ht, htype⟩ := (tagged tag).exists_entry hd (hasMember_tagged tag)
  obtain ⟨-, w, hw, rfl⟩ := Member.compile_eq_ok_iff.1 ht
  unfold Member.version at hw
  dsimp only at hw
  rw [hv] at hw
  cases hw
  exact ⟨d, hd, ht, htype⟩

def valueSetMessage (d : Domain Change Value) (t : MessageType Change) (e : ValueSet) : Message where
  header := ⟨1, d.shortId, 7, 1⟩
  origin := []
  timestamp := 0
  typeId := t.typeId
  data := Json.encode e

theorem decode_valueSet :
    (Json.decode (Json.encode (⟨"b", "a"⟩ : ValueSet)) : Except SerializationError ValueSet) =
      .ok ⟨"b", "a"⟩ :=
  toOption_eq_some_iff.1 (by decide +kernel)

theorem extract_valueSet {m : Message} {t : MessageType Change} (ht : m.typeId = t.typeId)
    (hdecoder : t.decoder = valueSetType.decode) (hdata : m.data = Json.encode (⟨"b", "a"⟩ : ValueSet)) :
    t.extract m = .ok (.custom (.valueSet ⟨"b", "a"⟩)) := by
  have hne : Json.encode (⟨"b", "a"⟩ : ValueSet) ≠ [] := by decide +kernel
  refine MessageType.extract_eq_ok ht (hdata ▸ hne) ?_
  rw [hdecoder, hdata]
  exact PayloadType.decode_ofJson decode_valueSet

theorem lowercase_valueSet : Text.lowercase "ValueSet" = "valueset" := by decide +kernel

/-- The slot of the id tells the name with the cut version from the canonical one. -/
theorem not_coincide_valueSet (uri : String) :
    ¬ TypeId.Coincide (taggedEntry uri "200" 200).carriedName
      (taggedEntry uri "200" 200).canonicalName := by
  have hcut : (200 : UInt8) &&& 127 = 72 := by decide
  have hcarried : (taggedEntry uri "200" 200).carriedName = canonicalName "valueset" 72 := by
    rw [← lowercase_valueSet, ← hcut]
    rfl
  have hcanonical : (taggedEntry uri "200" 200).canonicalName = canonicalName "valueset" 200 := by
    rw [← lowercase_valueSet]
    rfl
  rw [hcarried, hcanonical]
  unfold TypeId.Coincide
  decide +kernel

theorem refuses_valueSet {uri : String} {m : Message}
    (h : (⟨valueSetType, some "200"⟩ : Member Change).compile .event uri =
      .ok (taggedEntry uri "200" 200))
    (hm : m.typeId = (taggedEntry uri "200" 200).typeId) :
    (m.extract valueSetType).toOption = none := by
  have hcut : ¬ m.carries valueSetType.name = true :=
    fun hc => not_coincide_valueSet uri ((Member.carries_iff h hm).1 hc)
  rw [Member.toOption_extract h hm, if_neg hcut]

theorem packs_valueSet {d : Domain Change Value} {t : MessageType Change}
    (h : d.catalog.byType valueSetType = some t) (e : ValueSet) :
    d.Packs (.custom (.valueSet e)) (valueSetMessage d t e) := by
  have hp : valueSetType.Covers (.custom (.valueSet e)) := ⟨rfl, rfl⟩
  refine .domain 1 7 1 0 [] (Domain.newMessage_eq_ok_iff.2 ⟨t, _, ?_, rfl, rfl⟩)
  rw [Domain.messageType_of_covers hp, h]

end ValueChanger

open ValueChanger

/-- For a member whose version fits into seven bits, the typed way and the way through the catalog
lead to one payload or fail both, on every message of the member's type. Whatever the version is, they
do so just where the name with the cut version has the hash of the canonical name, or the catalog cannot
decode the message either. -/
theorem typed_extraction_agrees_iff {definition : Definition α σ} {d : Domain α σ}
    (h : definition.compile = .ok d) {kind : Kind} {x : Member α} (hx : definition.HasMember kind x)
    {p : Payload α} (hp : x.type.Covers p) {m : Message} (hm : d.Packs p m) :
    ∃ t, d.catalog.byType x.type = some t ∧ m.typeId = t.typeId ∧
      (t.version < 128 → m.Agrees x.type t) ∧
      (m.Agrees x.type t ↔
        TypeId.Coincide t.carriedName t.canonicalName ∨ (t.extract m).toOption = none) := by
  obtain ⟨t, ht, htype⟩ := definition.exists_entry h hx
  have hid : m.typeId = t.typeId := hm.typeId (by rw [Domain.messageType_of_covers hp, htype])
  have hagrees := Member.agrees_iff ht hid
  refine ⟨t, htype, hid, ?_, hagrees⟩
  intro hv
  refine hagrees.2 (.inl ?_)
  rw [Member.carriedName_of_lt ht hv]
  rfl

/-- The greatest version of seven bits. -/
theorem typed_extraction_agrees_iff_greatest :
    ∃ d m, (tagged "127").compile = .ok d ∧
      (tagged "127").HasMember .event ⟨valueSetType, some "127"⟩ ∧
      valueSetType.Covers (.custom (.valueSet ⟨"b", "a"⟩)) ∧
      d.Packs (.custom (.valueSet ⟨"b", "a"⟩)) m ∧
      ∃ t, d.catalog.byType valueSetType = some t ∧ t.version = 127 ∧ m.Agrees valueSetType t := by
  obtain ⟨d, hd, -, htype⟩ := exists_tagged "127" 127 (by decide +kernel) rfl
  have hpacks := packs_valueSet htype ⟨"b", "a"⟩
  have hcovers : valueSetType.Covers (.custom (.valueSet ⟨"b", "a"⟩)) := ⟨rfl, rfl⟩
  obtain ⟨t, ht, -, hfits, -⟩ :=
    typed_extraction_agrees_iff hd (hasMember_tagged "127") hcovers hpacks
  obtain rfl : taggedEntry d.uri "127" 127 = t := Option.some.inj (htype.symm.trans ht)
  have hversion : (taggedEntry d.uri "127" 127).version = 127 := rfl
  exact ⟨d, _, hd, hasMember_tagged "127", hcovers, hpacks, _, ht, hversion,
    hfits (by rw [hversion]; decide)⟩

/-- A version of eight bits: the catalog decodes a message that the typed way refuses. -/
theorem typed_extraction_refuses_cut_version :
    ∃ d t m, (tagged "200").compile = .ok d ∧
      (tagged "200").HasMember .event ⟨valueSetType, some "200"⟩ ∧
      valueSetType.Covers (.custom (.valueSet ⟨"b", "a"⟩)) ∧
      d.Packs (.custom (.valueSet ⟨"b", "a"⟩)) m ∧ d.catalog.byType valueSetType = some t ∧
      t.extract m = .ok (.custom (.valueSet ⟨"b", "a"⟩)) ∧
      (m.extract valueSetType).toOption = none := by
  obtain ⟨d, hd, hcompile, htype⟩ := exists_tagged "200" 200 (by decide +kernel) rfl
  exact ⟨d, _, _, hd, hasMember_tagged "200", ⟨rfl, rfl⟩, packs_valueSet htype _, htype,
    extract_valueSet rfl rfl rfl, refuses_valueSet hcompile rfl⟩

end EventSourcing
