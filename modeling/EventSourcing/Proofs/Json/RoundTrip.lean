import EventSourcing.Domain.Aggregate
import EventSourcing.Message.Basic
import EventSourcing.Proofs.Json.Lawful
import EventSourcing.ValueChanger.Domain

/-! Everything that is stored or sent is read back as it was: messages with their chains, records,
payloads and states. A message text may leave the chain out, which then is empty, and may not have a
record in it whose bytes are too few for a header. -/

namespace EventSourcing

open Json

section Texts

theorem readRecord_texts (name : String) (fields : List (String × String))
    (hnames : (fields.map Prod.fst).Nodup) :
    readRecord name (fields.map fun f => .of f.1 readText)
      (.record (fields.map fun f => (f.1, .ofText f.2))) = .ok (fields.map fun f => .ofText f.2) := by
  have h := readRecord_record name
    (fields.map fun f => (Field.of f.1 readText, Value.ofText f.2)) (by rwa [List.map_map]) ?_
  · simp only [List.map_map] at h
    exact h
  · intro p hp
    obtain ⟨f, -, rfl⟩ := List.mem_map.1 hp
    exact check_of f.1 rfl

theorem written_texts (fields : List (String × String)) :
    Written (.record (fields.map fun f => (f.1, .ofText f.2))) := by
  refine .record fun f hf => ?_
  obtain ⟨f, -, rfl⟩ := List.mem_map.1 hf
  exact .text f.2

instance : LawfulCodec RaiseError where
  written e := written_texts [("message", e.message)]
  ofJson_toJson e :=
    bind_eq_ok_iff.2 ⟨_, readRecord_texts "RaiseError" [("message", e.message)] (by simp), rfl⟩

instance : LawfulCodec ErrorRaised where
  written e := written_texts [("message", e.message)]
  ofJson_toJson e :=
    bind_eq_ok_iff.2 ⟨_, readRecord_texts "ErrorRaised" [("message", e.message)] (by simp), rfl⟩

instance : LawfulCodec ValueChanger.SetValue where
  written c := written_texts [("value", c.value)]
  ofJson_toJson c :=
    bind_eq_ok_iff.2 ⟨_, readRecord_texts "SetValue" [("value", c.value)] (by simp), rfl⟩

instance : LawfulCodec ValueChanger.ClearValue where
  written _ := written_texts []
  ofJson_toJson _ := rfl

instance : LawfulCodec ValueChanger.ValueSet where
  written e := written_texts [("value", e.value), ("previous", e.previous)]
  ofJson_toJson e :=
    bind_eq_ok_iff.2 ⟨_, readRecord_texts "ValueSet" [("value", e.value), ("previous", e.previous)]
      (by simp), rfl⟩

instance : LawfulCodec ValueChanger.ValueCleared where
  written e := written_texts [("previous", e.previous)]
  ofJson_toJson e :=
    bind_eq_ok_iff.2 ⟨_, readRecord_texts "ValueCleared" [("previous", e.previous)] (by simp), rfl⟩

end Texts

theorem readOption_ofOption (s : Option String) : readOption readText (ofOption s) = .ok s := by
  cases s with
  | none => rfl
  | some s => rfl

theorem written_ofOption (s : Option String) : Written (ofOption s) := by
  cases s with
  | none => exact .null
  | some s => exact .text s

instance : LawfulCodec ErrorLog where
  written l := .record (by simp [written_ofInt, written_ofOption])
  ofJson_toJson l := by
    refine bind_eq_ok_iff.2 ⟨_, readRecord_record "ErrorLog"
      [(.of "count" readUInt64, .ofInt l.count.toNat), (.optional "last" readText, ofOption l.last)]
      (by simp [Field.of, Field.optional])
      (by simp [check_of _ (readUInt64_ofInt _), check_optional _ (readOption_ofOption _)]), ?_⟩
    simp only [List.map_cons, List.map_nil, readUInt64_ofInt, readOption_ofOption]
    rfl

namespace ValueChanger.Value

def form (s : Value) (seen : List Int64) : Json.Value :=
  .record [("value", .ofText s.value), ("changes", .ofInt s.changes.toNat),
    ("seen", .list (seen.map fun x => .ofInt x.toInt))]

theorem written_form (s : Value) (seen : List Int64) : Written (s.form seen) := by
  have hseen := written_list (fun x : Int64 => written_ofInt x.toInt) seen
  have hvalue := Written.text s.value
  exact .record (by simp [written_ofInt, hseen, hvalue])

theorem ofJson_form {s : Value} {seen : List Int64} (h : seen.Perm s.seen.members) :
    Codec.ofJson (s.form seen) = .ok s := by
  have hset := ofJson_of_perm h
  have hvalue : readText (.ofText s.value) = .ok s.value := rfl
  have hfields := readRecord_record "Value"
    [(.of "value" readText, .ofText s.value), (.of "changes" readUInt64, .ofInt s.changes.toNat),
      (.of "seen" (Codec.ofJson : Reader IdSet), .list (seen.map fun x => .ofInt x.toInt))]
    (by simp [Field.of])
    (by simp [check_of _ hvalue, check_of _ (readUInt64_ofInt _), check_of _ hset])
  refine bind_eq_ok_iff.2 ⟨_, hfields, ?_⟩
  simp only [List.map_cons, List.map_nil, hvalue, readUInt64_ofInt, hset]
  rfl

instance : LawfulCodec Value where
  written s := s.written_form s.seen.members
  ofJson_toJson _ := ofJson_form (.refl _)

end ValueChanger.Value

section Messages

variable {v : Json.Value} {m : Message}

def messageFields : List Field :=
  [.of "_agg" (Codec.ofJson : Reader Header), .listOrEmpty "_orig" (Codec.ofJson : Reader Record),
    .of "_ts" readInt64, .of "_type" (Codec.ofJson : Reader TypeId), .of "_data" (readList readByte)]

theorem ofJson_message_eq_ok_iff : Codec.ofJson v = .ok m ↔
    ∃ header origin timestamp typeId data,
      readRecord "MessageData" messageFields v = .ok [header, origin, timestamp, typeId, data] ∧
        Codec.ofJson header = .ok m.header ∧ readList Codec.ofJson origin = .ok m.origin ∧
        readInt64 timestamp = .ok m.timestamp ∧ Codec.ofJson typeId = .ok m.typeId ∧
        readList readByte data = .ok m.data := by
  refine ⟨?_, ?_⟩
  · intro h
    obtain ⟨values, hvalues, h⟩ := bind_eq_ok_iff.1 h
    split at h
    · obtain ⟨a, ha, h⟩ := bind_eq_ok_iff.1 h
      obtain ⟨o, ho, h⟩ := bind_eq_ok_iff.1 h
      obtain ⟨t, ht, h⟩ := bind_eq_ok_iff.1 h
      obtain ⟨y, hy, h⟩ := bind_eq_ok_iff.1 h
      obtain ⟨d, hd, h⟩ := bind_eq_ok_iff.1 h
      cases h
      exact ⟨_, _, _, _, _, hvalues, ha, ho, ht, hy, hd⟩
    · cases h
  · rintro ⟨header, origin, timestamp, typeId, data, hvalues, ha, ho, ht, hy, hd⟩
    refine bind_eq_ok_iff.2 ⟨_, hvalues, ?_⟩
    dsimp only
    rw [ha, ho, ht, hy, hd]
    rfl

theorem readRecords_map (l : List Record) :
    readList Codec.ofJson (.list (l.map Codec.toJson)) = .ok l :=
  readList_map LawfulCodec.ofJson_toJson l

instance : LawfulCodec Message where
  written m := by
    have horigin : Written (.list (m.origin.map Codec.toJson)) :=
      written_list LawfulCodec.written m.origin
    exact .record (by simp [LawfulCodec.written, written_ofInt, written_ofBytes, horigin])
  ofJson_toJson m := by
    have hheader := LawfulCodec.ofJson_toJson m.header
    have horigin := readRecords_map m.origin
    have htype := LawfulCodec.ofJson_toJson m.typeId
    have hfields := readRecord_record "MessageData"
      [(.of "_agg" (Codec.ofJson : Reader Header), Codec.toJson m.header),
        (.listOrEmpty "_orig" (Codec.ofJson : Reader Record), .list (m.origin.map Codec.toJson)),
        (.of "_ts" readInt64, .ofInt m.timestamp.toInt),
        (.of "_type" (Codec.ofJson : Reader TypeId), Codec.toJson m.typeId),
        (.of "_data" (readList readByte), ofBytes m.data)]
      (by simp [Field.of, Field.listOrEmpty])
      (by simp [check_of _ hheader, check_listOrEmpty _ horigin, check_of _ (readInt64_ofInt _),
        check_of _ htype, check_of _ (readBytes_ofBytes _)])
    exact ofJson_message_eq_ok_iff.2 ⟨_, _, _, _, _, hfields, hheader, horigin, readInt64_ofInt _,
      htype, readBytes_ofBytes _⟩

/-- The entries give all of the message but its chain, in any order, and perhaps more. -/
def Unchained (entries : List (Option String × Json.Value)) (m : Message) : Prop :=
  ∃ header timestamp typeId data others,
    entries.Perm ([(some "_agg", header), (some "_ts", timestamp), (some "_type", typeId),
      (some "_data", data)] ++ others) ∧
    Codec.ofJson header = .ok m.header ∧ readInt64 timestamp = .ok m.timestamp ∧
    Codec.ofJson typeId = .ok m.typeId ∧ readList readByte data = .ok m.data ∧
    ∀ e ∈ others, ∃ k, e.1 = some k ∧ k ∉ messageFields.map Field.name ∧ e.2.complete

theorem ofJson_of_unchained {entries : List (Option String × Json.Value)} (h : Unchained entries m) :
    Codec.ofJson (.object entries true) = .ok { m with origin := [] } := by
  obtain ⟨header, timestamp, typeId, data, others, hentries, ha, ht, hy, hd, hothers⟩ := h
  have hempty : readList (Codec.ofJson : Reader Record) (.list []) = .ok [] := rfl
  refine ofJson_message_eq_ok_iff.2 ⟨header, .list [], timestamp, typeId, data, ?_, ha, hempty, ht, hy,
    hd⟩
  let present : List (String × Json.Value) :=
    [("_agg", header), ("_ts", timestamp), ("_type", typeId), ("_data", data)]
  have hentries : entries.Perm ((present.map fun f => (some f.1, f.2)) ++ others) := hentries
  refine readRecord_object hentries (by simp [present]) ?_ ?_
    (.cons rfl (.cons rfl (.cons rfl (.cons rfl (.cons rfl .nil)))))
  · simp only [present, List.forall_mem_cons]
    exact ⟨⟨_, rfl, check_of _ ha⟩, ⟨_, rfl, check_of _ ht⟩, ⟨_, rfl, check_of _ hy⟩,
      ⟨_, rfl, check_of _ hd⟩, List.forall_mem_nil _⟩
  · intro e he
    obtain ⟨k, hk, hnone, hcomplete⟩ := hothers e he
    refine ⟨k, hk, ?_, hcomplete⟩
    rw [List.find?_eq_none]
    rintro f hf hname
    exact hnone (List.mem_map.2 ⟨f, hf, of_decide_eq_true hname⟩)

/-- The place of the chain in a message, which is an object or else an array of all its parts. -/
inductive ChainAt (chain : Json.Value) : Json.Value → Prop
  | entry {entries : List (Option String × Json.Value)} {closed : Bool} :
    (some "_orig", chain) ∈ entries → ChainAt chain (.object entries closed)
  | item {header : Json.Value} {rest : List Json.Value} {closed : Bool} :
    ChainAt chain (.array (header :: chain :: rest) closed)

theorem origin_eq_getD {name : String} {entries : List (Option String × Json.Value)} {closed : Bool}
    {header origin timestamp typeId data : Json.Value}
    (h : readRecord name messageFields (.object entries closed) =
      .ok [header, origin, timestamp, typeId, data]) :
    ((known messageFields entries).map Prod.fst).Nodup ∧
      origin = ((known messageFields entries).lookup "_orig").getD (.list []) := by
  obtain ⟨-, -, hnodup, hvalues⟩ := readRecord_object_eq_ok_iff.1 h
  refine ⟨hnodup, ?_⟩
  have hvalue : ((known messageFields entries).lookup "_orig").or (some (.list [])) = some origin :=
    (List.forall₂_cons.1 (List.forall₂_cons.1 hvalues).2).1
  cases hlookup : (known messageFields entries).lookup "_orig" with
  | none =>
    rw [hlookup] at hvalue
    exact (Option.some.inj hvalue).symm
  | some v =>
    rw [hlookup] at hvalue
    exact (Option.some.inj hvalue).symm

theorem origin_of_chainAt {chain : Json.Value} (hchain : ChainAt chain v)
    (h : Codec.ofJson v = .ok m) : readList Codec.ofJson chain = .ok m.origin := by
  obtain ⟨header, origin, timestamp, typeId, data, hvalues, -, horigin, -⟩ :=
    ofJson_message_eq_ok_iff.1 h
  suffices hsame : origin = chain by rwa [← hsame]
  cases hchain with
  | entry hmem =>
    obtain ⟨hnodup, rfl⟩ := origin_eq_getD hvalues
    have hknown : ("_orig", chain) ∈ known messageFields _ := mem_known_iff.2 ⟨hmem, rfl⟩
    rw [(lookup_eq_some_iff_mem hnodup).2 hknown]
    rfl
  | item =>
    obtain ⟨hfront, -⟩ := prefix_of_takeFields hvalues
    obtain ⟨-, hfront⟩ := List.cons_prefix_cons.1 hfront
    exact (List.cons_prefix_cons.1 hfront).1.symm

theorem origin_eq_nil {entries : List (Option String × Json.Value)} {closed : Bool}
    (hnone : ∀ e ∈ entries, e.1 ≠ some "_orig") (h : Codec.ofJson (.object entries closed) = .ok m) :
    m.origin = [] := by
  obtain ⟨header, origin, timestamp, typeId, data, hvalues, -, horigin, -⟩ :=
    ofJson_message_eq_ok_iff.1 h
  obtain ⟨-, rfl⟩ := origin_eq_getD hvalues
  have hlookup : (known messageFields entries).lookup "_orig" = none := by
    rw [List.lookup_eq_none_iff]
    rintro ⟨k, v⟩ hmem
    rw [bne_iff_ne]
    rintro rfl
    exact hnone _ (mem_known_iff.1 hmem).1 rfl
  rw [hlookup] at horigin
  exact (Except.ok.inj horigin).symm

/-- The records of the chain are its items, each of which holds a header. -/
theorem forall₂_origin {items : List Json.Value} {closed : Bool}
    (hchain : ChainAt (.array items closed) v) (h : Codec.ofJson v = .ok m) :
    List.Forall₂ (fun item r => rawBody item = .ok r.bytes) items m.origin :=
  (readItems_eq_ok_iff.1 (origin_of_chainAt hchain h)).2.imp fun _ _ => ofJson_record_eq_ok_iff.1

end Messages

theorem PayloadType.decode_encode {α τ : Type} [Codec τ] [LawfulCodec τ] (name uri : String)
    (wrap : τ → Payload α) (x : τ) : (ofJson τ name uri wrap).decode (encode x) = .ok (wrap x) :=
  decode_ofJson (LawfulCodec.decode_encode x)

def RoundTrips (α : Type) [Codec α] : Prop := ∀ a : α, decode (encode a) = .ok a

/-- What is stored or sent is read back as it was, and sets in whatever order their members stand. A
message text without a chain gives a message with an empty one, whatever else is in the text and in
whatever order. Records are read just from bytes that hold a header: fewer are refused, on their own
and in the chain of a message. -/
theorem serialized_types_round_trip :
    (RoundTrips Message ∧ RoundTrips Header ∧ RoundTrips Record ∧ RoundTrips TypeId ∧
      RoundTrips IdSet ∧ RoundTrips ErrorLog ∧ RoundTrips RaiseError ∧ RoundTrips ErrorRaised ∧
      RoundTrips ValueChanger.SetValue ∧ RoundTrips ValueChanger.ClearValue ∧
      RoundTrips ValueChanger.ValueSet ∧ RoundTrips ValueChanger.ValueCleared ∧
      RoundTrips ValueChanger.Value) ∧
    ((∀ (s : IdSet) (xs : List Int64), xs.Perm s.members →
        decode (render (.list (xs.map fun x => .ofInt x.toInt))) = .ok s) ∧
      ∀ (s : ValueChanger.Value) (xs : List Int64), xs.Perm s.seen.members →
        decode (render (s.form xs)) = .ok s) ∧
    ((∀ source entries (m : Message), parse source = ⟨.object entries true, false⟩ →
        Unchained entries m → decode source = .ok { m with origin := [] }) ∧
      ∀ source entries closed (m : Message), (parse source).value = .object entries closed →
        (∀ e ∈ entries, e.1 ≠ some "_orig") → decode source = .ok m → m.origin = []) ∧
    ((∀ source (r : Record), decode source = .ok r →
        readDocument rawBody source = .ok r.bytes ∧ 24 ≤ r.bytes.length) ∧
      ∀ source b, readDocument rawBody source = .ok b → b.length < 24 →
        decode source = (.error ⟨(HeaderError.tooShort b.length).message⟩ : Except _ Record)) ∧
    ((∀ source items closed (m : Message), ChainAt (.array items closed) (parse source).value →
        decode source = .ok m →
          List.Forall₂ (fun v r => rawBody v = .ok r.bytes ∧ 24 ≤ r.bytes.length) items m.origin) ∧
      ∀ source items closed v b, ChainAt (.array items closed) (parse source).value → v ∈ items →
        rawBody v = .ok b → b.length < 24 → ∃ e, (decode source : Except _ Message) = .error e) := by
  refine ⟨?_, ⟨?_, ?_⟩, ⟨?_, ?_⟩, ⟨?_, ?_⟩, ⟨?_, ?_⟩⟩
  · refine ⟨?_, ?_, ?_, ?_, ?_, ?_, ?_, ?_, ?_, ?_, ?_, ?_, ?_⟩ <;> exact LawfulCodec.decode_encode
  · intro s xs hperm
    exact decode_render (written_list (fun _ => written_ofInt _) xs) (ofJson_of_perm hperm)
  · intro s xs hperm
    exact decode_render (s.written_form xs) (ValueChanger.Value.ofJson_form hperm)
  · intro source entries m hparse h
    rw [decode_eq_ok_iff, hparse]
    refine ⟨?_, ofJson_of_unchained h, rfl⟩
    rintro rfl
    cases hparse
  · intro source entries closed m hparse hnone h
    have hread := (decode_eq_ok_iff.1 h).2.1
    rw [hparse] at hread
    exact origin_eq_nil hnone hread
  · intro source r h
    obtain ⟨-, hread, htrailing⟩ := decode_eq_ok_iff.1 h
    exact ⟨readDocument_eq_ok_iff.2 ⟨ofJson_record_eq_ok_iff.1 hread, htrailing⟩, r.full⟩
  · intro source b
    exact decode_record_of_short
  · intro source items closed m hchain h
    have hitems := forall₂_origin hchain (decode_eq_ok_iff.1 h).2.1
    exact hitems.imp fun _ r hr => ⟨hr, r.full⟩
  · intro source items closed v b hchain hv hbody hshort
    cases h : (decode source : Except _ Message) with
    | error e => exact ⟨e, rfl⟩
    | ok m =>
      have hitems := forall₂_origin hchain (decode_eq_ok_iff.1 h).2.1
      obtain ⟨r, hr⟩ := exists_of_forall₂ hitems hv
      rw [hbody] at hr
      cases hr
      exact absurd r.full (by omega)

/-- A message without a chain and with a note is read, and a record of three bytes is not, on its own
or in a chain. -/
theorem serialized_types_round_trip_three_bytes :
    let record : Json.Value := .record [("_data", ofBytes [1, 2, 3])]
    let header : Header := ⟨1, -2, 3, 4⟩
    let parts : List (String × Json.Value) := [("_agg", Codec.toJson header), ("_ts", .ofInt 5),
      ("_type", .ofInt 6), ("_data", ofBytes [7])]
    decode (render (.record (parts ++ [("note", .null)]))) = .ok (⟨header, [], 5, ⟨6⟩, [7]⟩ : Message) ∧
      decode (render record) =
        (.error ⟨"aggregate header requires 24 bytes, got 3"⟩ : Except _ Record) ∧
      ∃ e, decode (render (.record (parts ++ [("_orig", .list [record])]))) =
        (.error e : Except _ Message) := by
  intro record header parts
  obtain ⟨-, -, ⟨hunchained, -⟩, ⟨-, hrecord⟩, -, hchain⟩ := serialized_types_round_trip
  have hdata (b : Bytes) : Written (.record [("_data", ofBytes b)]) :=
    .record (by simp [written_ofBytes])
  have hbody : rawBody record = .ok [1, 2, 3] := rfl
  have hwritten (last : String × Json.Value) (h : Written last.2) :
      Written (.record (parts ++ [last])) := by
    refine .record ?_
    simp [parts, written_ofInt, written_ofBytes, LawfulCodec.written, h]
  refine ⟨?_, ?_, ?_⟩
  · refine hunchained _ _ ⟨header, [], 5, ⟨6⟩, [7]⟩ (parse_render (hwritten ("note", .null) .null)) ?_
    exact ⟨_, _, _, _, [(some "note", .null)], .refl _, rfl, rfl, rfl, rfl,
      List.forall_mem_singleton.2 ⟨"note", rfl, by decide, rfl⟩⟩
  · refine hrecord _ [1, 2, 3] ?_ (by decide)
    rw [readDocument_eq_ok_iff, parse_render (hdata _)]
    exact ⟨hbody, rfl⟩
  · have hlist : Written (.list [record]) := .list (by simpa using hdata [1, 2, 3])
    have hparse := parse_render (hwritten ("_orig", .list [record]) hlist)
    refine hchain _ [record] true record [1, 2, 3] ?_ List.mem_cons_self hbody (by decide)
    rw [hparse]
    exact .entry (by simp [parts, Json.Value.list])

end EventSourcing
