import EventSourcing.Proofs.Domain.Checks
import EventSourcing.Proofs.Domain.Extraction
import EventSourcing.Proofs.Domain.Search

/-! Canonical names are unambiguous. A canonical name is a name, a mark and the digits of a version, and
the name may have marks and digits itself. But no digit stands in a mark, so the last mark of a canonical
name is the one before its version, and to cut the name there gives back what it was made of. Only their hashes
can be alike: two events of a door share their ids, and a lookup by that id finds the later one. -/

namespace EventSourcing

/-- The text is cut into two at its last mark. -/
structure CutAtMark (text front back : List Char) : Prop where
  eq : text = front ++ versionMark ++ back
  last : ¬ versionMark <:+: back

/-- A mark at the very start, which `suffix?` passes over, counts behind one more character. -/
theorem CutAtMark.suffix?_cons {text front back : List Char} (h : CutAtMark text front back) (c : Char) :
    suffix? (c :: text) = some back := by
  refine suffix?_eq_some_iff.2 ⟨c :: front, List.cons_ne_nil c front, ?_, h.last⟩
  rw [h.eq]
  rfl

theorem CutAtMark.unique {text front back front' back' : List Char} (h : CutAtMark text front back)
    (h' : CutAtMark text front' back') : front = front' ∧ back = back' := by
  -- Behind one more character any cut is one that `suffix?` finds, and it finds one suffix.
  have hback : back = back' := by
    have hfound := h.suffix?_cons 'x'
    rw [h'.suffix?_cons 'x'] at hfound
    exact (Option.some.inj hfound).symm
  refine ⟨?_, hback⟩
  have htext := h.eq.symm.trans h'.eq
  rw [hback, List.append_assoc, List.append_assoc] at htext
  exact List.append_cancel_right htext

/-- What separates the name from the version is not in the version. -/
theorem cutAtMark_canonicalName (name : String) (v : UInt8) :
    CutAtMark (canonicalName name v).toList name.toList (Numeral.decimal v.toNat).toList where
  eq := by
    unfold canonicalName
    rw [String.toList_append, String.toList_append]
    rfl
  last := by
    intro h
    have hmark : '_' ∈ versionMark := List.mem_cons_self
    exact Numeral.not_mem_decimal rfl v.toNat (h.subset hmark)

theorem cutAtMark_canonicalName_iff {name : String} {v : UInt8} {front back : List Char} :
    CutAtMark (canonicalName name v).toList front back ↔
      front = name.toList ∧ back = (Numeral.decimal v.toNat).toList := by
  constructor
  · intro h
    exact h.unique (cutAtMark_canonicalName name v)
  · intro ⟨hfront, hback⟩
    rw [hfront, hback]
    exact cutAtMark_canonicalName name v

theorem readVersion_decimal (v : UInt8) : readVersion (Numeral.decimal v.toNat).toList = .ok v :=
  Member.readVersion_eq_ok_iff.2 (.inl (Numeral.digits_decimal v.toNat))

/-- The compiler finds the version in a canonical name too, unless nothing is in front of it. -/
theorem suffix?_canonicalName {name : String} (hname : name ≠ "") (v : UInt8) :
    suffix? (canonicalName name v).toList = some (Numeral.decimal v.toNat).toList := by
  have hcut := cutAtMark_canonicalName name v
  have hfront : name.toList ≠ [] := mt String.toList_eq_nil_iff.1 hname
  exact suffix?_eq_some_iff.2 ⟨name.toList, hfront, hcut.eq, hcut.last⟩

theorem canonicalName_eq_iff {name name' : String} {v v' : UInt8} :
    canonicalName name v = canonicalName name' v' ↔ name = name' ∧ v = v' := by
  constructor
  · intro h
    have hcut := cutAtMark_canonicalName name v
    rw [h, cutAtMark_canonicalName_iff] at hcut
    obtain ⟨hname, hdigits⟩ := hcut
    have hread := readVersion_decimal v
    rw [hdigits, readVersion_decimal v'] at hread
    exact ⟨String.toList_inj.1 hname, (Except.ok.inj hread).symm⟩
  · intro ⟨hname, hv⟩
    rw [hname, hv]

variable {α σ : Type}

theorem Member.clashes_iff_lowercase {m n : Member α} :
    m.Clashes n ↔ m.type.name = n.type.name ∨
      Text.lowercase m.type.name = Text.lowercase n.type.name ∧ ∃ v, m.HasVersion v ∧ n.HasVersion v := by
  unfold Clashes
  simp only [canonicalName_eq_iff]
  apply or_congr_right
  constructor
  · intro ⟨v, w, hv, hw, hname, hvw⟩
    exact ⟨hname, v, hv, hvw ▸ hw⟩
  · intro ⟨hname, v, hv, hw⟩
    exact ⟨v, v, hv, hw, hname, rfl⟩

/-- Two names that are hashed alike. -/
def Collide (name name' : String) : Prop := name ≠ name' ∧ textHash name = textHash name'

/-- Two names whose hashes are alike in the slot of a packed id. -/
def TypeId.Collide (name name' : String) : Prop := name ≠ name' ∧ Coincide name name'

/-- The entries have one name in lower case and one version. -/
def MessageType.Alike (t u : MessageType α) : Prop := t.lowerName = u.lowerName ∧ t.version = u.version

namespace Domain.Compiled

variable {d : Domain α σ} (h : d.Compiled) {t u : MessageType α} (ht : t ∈ d.catalog.entries)
  (hu : u ∈ d.catalog.entries)
include h ht

theorem names_of_mem : t.canonicalName = canonicalName t.lowerName t.version ∧
    t.id = textHash t.canonicalName ∧ t.typeId = TypeId.pack t.kind t.id t.version := by
  obtain ⟨m, hm⟩ := h.exists_member ht
  obtain ⟨-, v, -, he⟩ := Member.compile_eq_ok_iff.1 hm
  rw [he]
  exact ⟨rfl, rfl, rfl⟩

include hu

theorem canonicalName_eq_iff_alike : t.canonicalName = u.canonicalName ↔ t.Alike u := by
  rw [(h.names_of_mem ht).1, (h.names_of_mem hu).1]
  exact canonicalName_eq_iff

theorem id_eq_iff : t.id = u.id ↔ t.Alike u ∨ Collide t.canonicalName u.canonicalName := by
  rw [← h.canonicalName_eq_iff_alike ht hu, (h.names_of_mem ht).2.1,
    (h.names_of_mem hu).2.1]
  unfold Collide
  by_cases hname : t.canonicalName = u.canonicalName
  · simp [hname]
  · simp [hname]

theorem alike_of_typeId_eq (hid : t.typeId = u.typeId) :
    t.kind = u.kind ∧ (t.Alike u ∨ TypeId.Collide t.canonicalName u.canonicalName) := by
  obtain ⟨-, htid, htype⟩ := h.names_of_mem ht
  obtain ⟨-, huid, hutype⟩ := h.names_of_mem hu
  rw [htype, hutype, TypeId.pack_eq_pack_iff, htid, huid] at hid
  obtain ⟨hkind, hbits, -⟩ := hid
  refine ⟨hkind, ?_⟩
  rw [← h.canonicalName_eq_iff_alike ht hu]
  by_cases hname : t.canonicalName = u.canonicalName
  · exact .inl hname
  · exact .inr ⟨hname, hbits⟩

theorem eq_of_alike (halike : t.Alike u) : t = u := by
  rw [← h.canonicalName_eq_iff_alike ht hu] at halike
  obtain ⟨definition, h⟩ := h
  obtain ⟨members, hcatalog, hapart, -⟩ := definition.exists_members h
  rw [hcatalog, Catalog.mem_entries_ofMembers] at ht hu
  exact eq_of_pairwise_ne (hapart.imp And.right) ht hu halike

end Domain.Compiled

/-- Canonical names are equal just if the names and the versions are, and to cut one at its last mark
gives back both. So in a compiled domain entries have one canonical name just if they have one name in
lower case and one version, and then they are the same; those of other names have ids of their own unless
the hashes of their canonical names collide. -/
theorem canonical_names_unambiguous :
    (∀ (name name' : String) (v v' : UInt8),
      canonicalName name v = canonicalName name' v' ↔ name = name' ∧ v = v') ∧
    (∀ (name : String) (v : UInt8),
      (∀ front back, CutAtMark (canonicalName name v).toList front back ↔
        front = name.toList ∧ back = (Numeral.decimal v.toNat).toList) ∧
      (name ≠ "" → suffix? (canonicalName name v).toList = some (Numeral.decimal v.toNat).toList) ∧
      readVersion (Numeral.decimal v.toNat).toList = .ok v) ∧
    (∀ m n : Member α, m.Clashes n ↔ m.type.name = n.type.name ∨
      Text.lowercase m.type.name = Text.lowercase n.type.name ∧
        ∃ v, m.HasVersion v ∧ n.HasVersion v) ∧
    ∀ d : Domain α σ, d.Compiled → ∀ t ∈ d.catalog.entries, ∀ u ∈ d.catalog.entries,
      (t.canonicalName = u.canonicalName ↔ t.Alike u) ∧
      (t.id = u.id ↔ t.Alike u ∨ Collide t.canonicalName u.canonicalName) ∧
      (t.typeId = u.typeId →
        t.kind = u.kind ∧ (t.Alike u ∨ TypeId.Collide t.canonicalName u.canonicalName)) ∧
      (t.Alike u → t = u) := by
  refine ⟨?_, ?_, ?_, ?_⟩
  · intro name name' v v'
    exact canonicalName_eq_iff
  · intro name v
    refine ⟨?_, ?_, readVersion_decimal v⟩
    · intro front back
      exact cutAtMark_canonicalName_iff
    · intro hname
      exact suffix?_canonicalName hname v
  · intro m n
    exact Member.clashes_iff_lowercase
  · intro d hd t ht u hu
    exact ⟨hd.canonicalName_eq_iff_alike ht hu, hd.id_eq_iff ht hu, hd.alike_of_typeId_eq ht hu,
      hd.eq_of_alike ht hu⟩

namespace ValueChanger

def taggedEvent : Member Change := ⟨valueSetType, some "3"⟩

def suffixedEvent : Member Change := ⟨⟨"valueset_v3", uri, valueSetType.decode⟩, none⟩

def suffixed : Definition Change Value :=
  { definition with events := some ⟨.event, [taggedEvent, suffixedEvent]⟩ }

end ValueChanger

open ValueChanger

/-- An event may be named like the canonical name of another: the canonical names are `valueset_v3` and
`valueset_v3_v3`. -/
theorem canonical_names_unambiguous_suffixed :
    ∃ d, suffixed.compile = .ok d ∧ d.Compiled ∧
      ∃ t ∈ d.catalog.entries, ∃ u ∈ d.catalog.entries,
        t.canonicalName = u.displayName ∧ t.version = u.version ∧ t.canonicalName ≠ u.canonicalName ∧
        (t.id = u.id → Collide t.canonicalName u.canonicalName) ∧
        suffix? t.canonicalName.toList = some (Numeral.decimal t.version.toNat).toList := by
  obtain ⟨d, hd⟩ : ∃ d, suffixed.compile = .ok d := exists_eq_ok_of_isOk (by decide +kernel)
  have ht : taggedEvent.entry .event d.uri 3 ∈ d.catalog.entries :=
    suffixed.mem_entries hd ⟨_, rfl, List.mem_cons_self⟩ rfl
  have hlower : Text.lowercase "valueset_v3" = "valueset_v3" := by decide +kernel
  have hversion : suffixedEvent.version (Text.lowercase "valueset_v3") = .ok 3 := by
    rw [hlower]
    rfl
  have hu : suffixedEvent.entry .event d.uri 3 ∈ d.catalog.entries :=
    suffixed.mem_entries hd ⟨_, rfl, List.mem_cons_of_mem _ List.mem_cons_self⟩ hversion
  obtain ⟨-, hcuts, -, hentries⟩ := canonical_names_unambiguous (α := Change) (σ := Value)
  obtain ⟨hname, hid, -, -⟩ := hentries d ⟨_, hd⟩ _ ht _ hu
  have hapart : ¬ (taggedEvent.entry .event d.uri 3).Alike (suffixedEvent.entry .event d.uri 3) := by
    intro ⟨hsame, _⟩
    have hnames : Text.lowercase "ValueSet" = Text.lowercase "valueset_v3" := hsame
    rw [lowercase_valueSet, hlower] at hnames
    exact absurd hnames (by decide)
  have hnonempty : Text.lowercase "ValueSet" ≠ "" := by
    rw [lowercase_valueSet]
    decide
  refine ⟨d, hd, ⟨_, hd⟩, _, ht, _, hu, ?_, rfl, ?_, ?_, (hcuts _ 3).2.1 hnonempty⟩
  · show canonicalName (Text.lowercase "ValueSet") 3 = "valueset_v3"
    rw [lowercase_valueSet]
    rfl
  · rwa [Ne, hname]
  · intro h
    exact (hid.1 h).resolve_left hapart

inductive Turn
  | knock
  | opened
  | closed
  deriving DecidableEq, Repr

namespace Turn

def uri : String := "test/door/v1"

/-- The names of the events are chosen so that the hashes of their canonical names are alike in the
slot of a packed id. -/
instance : Content Turn where
  name
    | knock => "Knock"
    | opened => "Opened229374761"
    | closed => "Closed551498726"
  uri _ := uri
  key _ := none
  encode _ := .ok [0]

def type (t : Turn) : PayloadType Turn := ⟨Content.name t, uri, fun _ => .ok (.custom t)⟩

def kind : Turn → Kind
  | knock => .command
  | opened => .event
  | closed => .event

def entry (t : Turn) : MessageType Turn := Member.entry t.kind uri ⟨t.type, none⟩ 1

def aggregate : AggregateType Turn (List Turn) :=
  .ofCustom "Door" []
    (fun s p => match p with
      | .custom t => s ++ [t]
      | _ => s)
    (fun _ => .ok [0])

def door : Definition Turn (List Turn) where
  location := uri
  uri := none
  aggregate := some aggregate
  commands := some ⟨.command, [⟨knock.type, none⟩]⟩
  events := some ⟨.event, [⟨closed.type, none⟩, ⟨opened.type, none⟩]⟩

def domain : Domain Turn (List Turn) where
  uri
  id := textHash uri
  shortId := textHash32 uri
  name := "door"
  version := 1
  aggregate
  catalog := .ofMembers [knock.entry, closed.entry, opened.entry]

theorem normalize_uri : Uri.normalize uri = uri := by decide +kernel

theorem collide_opened_closed :
    TypeId.Collide opened.entry.canonicalName closed.entry.canonicalName := by
  unfold TypeId.Collide TypeId.Coincide
  decide +kernel

theorem typeId_opened : opened.entry.typeId = closed.entry.typeId := by
  show TypeId.pack .event (textHash opened.entry.canonicalName) 1 =
    TypeId.pack .event (textHash closed.entry.canonicalName) 1
  exact TypeId.pack_eq_pack_iff.2 ⟨rfl, collide_opened_closed.2, rfl⟩

theorem compile_door : door.compile = .ok domain := by
  have hu : door.resolvedUri = uri := normalize_uri
  have hn : Uri.nameAndVersion? uri = some ("door", 1) := by decide +kernel
  have hmember (t : Turn) : (⟨t.type, none⟩ : Member Turn).compile t.kind uri = .ok t.entry := by
    refine Member.compile_untagged t.kind normalize_uri ?_
    cases t with
    | _ => decide +kernel
  have hcommands : [⟨knock.type, none⟩].mapM (Member.compile .command uri) = .ok [knock.entry] :=
    mapM_eq_ok_iff_forall₂.2 (.cons (hmember knock) .nil)
  have hevents : [⟨closed.type, none⟩, ⟨opened.type, none⟩].mapM (Member.compile .event uri) =
      .ok [closed.entry, opened.entry] :=
    mapM_eq_ok_iff_forall₂.2 (.cons (hmember closed) (.cons (hmember opened) .nil))
  have hdisplay : ([knock.entry, closed.entry, opened.entry].map MessageType.displayName).Nodup := by
    decide +kernel
  have hcanonical : ([knock.entry, closed.entry, opened.entry].map MessageType.canonicalName).Nodup := by
    decide +kernel
  rw [Definition.compile_eq_ok_iff_groups, hu]
  exact ⟨aggregate, _, "door", 1, _, _, rfl, rfl, hn, ⟨_, rfl, hcommands⟩, ⟨_, rfl, hevents⟩,
    (List.pairwise_map.1 hdisplay).and (List.pairwise_map.1 hcanonical), rfl⟩

theorem compiled_domain : domain.Compiled := ⟨door, compile_door⟩

theorem entries_domain : domain.catalog.entries = [knock.entry, closed.entry, opened.entry] := by
  have hsorted : [knock.entry, closed.entry, opened.entry].Pairwise
      fun t u => t.precedes u = true := by decide +kernel
  unfold domain
  rw [Catalog.ofMembers_of_pairwise hsorted]

theorem messageType_closed : domain.messageType (.custom closed) = some closed.entry := by
  refine compiled_domain.byOwner_eq_some_iff.2 ⟨?_, rfl, normalize_uri⟩
  rw [entries_domain]
  simp

theorem commands_byId_knock :
    domain.catalog.commands.byId knock.entry.typeId = some knock.entry := by
  have hclosed : closed.entry.typeId ≠ knock.entry.typeId := by decide +kernel
  refine Option.filter_eq_some_iff.2 ⟨?_, rfl⟩
  show domain.catalog.byId knock.entry.typeId = _
  rw [compiled_domain.byId_eq, entries_domain]
  simp [typeId_opened, hclosed]

/-- The later one of the events is found by the id that both have. -/
theorem events_byId_closed :
    domain.catalog.events.byId closed.entry.typeId = some opened.entry := by
  refine Option.filter_eq_some_iff.2 ⟨?_, rfl⟩
  show domain.catalog.byId closed.entry.typeId = _
  rw [compiled_domain.byId_eq, entries_domain]
  simp [typeId_opened]

end Turn

end EventSourcing
