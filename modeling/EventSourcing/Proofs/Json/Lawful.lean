import EventSourcing.Json.Codec
import EventSourcing.Proofs.IdSet
import EventSourcing.Proofs.Json.Parsing
import EventSourcing.Proofs.Json.Records

/-! Codecs that lose nothing. What a codec writes can be written, and is read as what it was: numbers
because they are in the range of their type, lists item by item, and records because their fields are
met once and in their order. Then so is the text, since values are read back from their texts. -/

namespace EventSourcing.Json

/-- A codec whose forms can be written and are read as what they were made from. -/
class LawfulCodec (α : Type) [Codec α] : Prop where
  written : ∀ a : α, Written (Codec.toJson a)
  ofJson_toJson : ∀ a : α, Codec.ofJson (Codec.toJson a) = .ok a

theorem readDocument_eq_ok_iff {α : Type} {read : Reader α} {source : Bytes} {a : α} :
    readDocument read source = .ok a ↔
      read (parse source).value = .ok a ∧ (parse source).trailing = false := by
  unfold readDocument
  rw [bind_eq_ok_iff]
  cases (parse source).trailing with
  | true => simp [bind, Except.bind, throw, throwThe, MonadExceptOf.throw]
  | false => simp [pure, Except.pure]

theorem decode_eq_ok_iff {α : Type} [Codec α] {source : Bytes} {a : α} :
    decode source = .ok a ↔
      source ≠ [] ∧ Codec.ofJson (parse source).value = .ok a ∧ (parse source).trailing = false := by
  unfold decode
  split
  · next h => simp [List.isEmpty_iff.1 h]
  · next h =>
    rw [mapError_eq_ok_iff]
    refine readDocument_eq_ok_iff.trans (and_iff_right ?_).symm
    rwa [Ne, ← List.isEmpty_iff]

theorem decode_render {α : Type} [Codec α] {v : Value} {a : α} (hv : Written v)
    (ha : Codec.ofJson v = .ok a) : decode (render v) = .ok a := by
  rw [decode_eq_ok_iff, parse_render hv]
  exact ⟨render_ne_nil hv, ha, rfl⟩

theorem LawfulCodec.decode_encode {α : Type} [Codec α] [LawfulCodec α] (a : α) :
    decode (encode a) = .ok a :=
  decode_render (written a) (ofJson_toJson a)

theorem LawfulCodec.encode_ne_nil {α : Type} [Codec α] [LawfulCodec α] (a : α) : encode a ≠ [] :=
  (decode_eq_ok_iff.1 (decode_encode a)).1

section Numbers

theorem quantity_ofInt {i : Int} (hmin : Int64.minValue.toInt ≤ i) (hmax : i ≤ significandMax) :
    (Number.ofInt i).quantity = .integer i := by
  cases i with
  | ofNat n =>
    have hn : n ≤ significandMax := Int.ofNat_le.1 hmax
    simp [Number.ofInt, Number.quantity, hn]
  | negSucc n =>
    have hn : Int64.minValue.toInt ≤ -((n + 1 : Nat) : Int) := hmin
    have hpos : 0 < n + 1 := Nat.succ_pos n
    simp only [Number.ofInt, Number.quantity, hn, hpos]
    rfl

theorem readInt_ofInt {min max i : Int} (expected : String) (hmin : min ≤ i) (hmax : i ≤ max)
    (hlow : Int64.minValue.toInt ≤ min) (hhigh : max ≤ significandMax) :
    readInt min max expected (.ofInt i) = .ok i := by
  simp only [readInt, Value.ofInt, quantity_ofInt (hlow.trans hmin) (hmax.trans hhigh)]
  exact if_pos ⟨hmin, hmax⟩

theorem readInt64_ofInt (i : Int64) : readInt64 (.ofInt i.toInt) = .ok i := by
  rw [readInt64, readInt_ofInt "i64" i.minValue_le_toInt i.toInt_le (by decide) (by decide)]
  exact congrArg Except.ok i.ofInt_toInt

theorem readInt32_ofInt (i : Int32) : readInt32 (.ofInt i.toInt) = .ok i := by
  rw [readInt32, readInt_ofInt "i32" i.minValue_le_toInt i.toInt_le (by decide) (by decide)]
  exact congrArg Except.ok i.ofInt_toInt

theorem readUInt64_ofInt (n : UInt64) : readUInt64 (.ofInt n.toNat) = .ok n := by
  have hmax : (n.toNat : Int) ≤ UInt64.size - 1 := by
    have hlt := n.toNat_lt_size
    omega
  rw [readUInt64, readInt_ofInt "u64" (Int.natCast_nonneg _) hmax (by decide) (by decide)]
  exact congrArg Except.ok n.ofNat_toNat

theorem readByte_ofInt (b : UInt8) : readByte (.ofInt b.toNat) = .ok b := by
  have hmax : (b.toNat : Int) ≤ 255 := by
    have hlt := b.toNat_lt
    omega
  rw [readByte, readInt_ofInt "u8" (Int.natCast_nonneg _) hmax (by decide) (by decide)]
  exact congrArg Except.ok UInt8.ofNat_toNat

theorem written_ofInt (i : Int) : Written (.ofInt i) := by
  cases i with
  | ofNat n => exact .number false n
  | negSucc n => exact .number true (n + 1)

end Numbers

section Lists

variable {α : Type} {read : Reader α} {write : α → Value}

theorem exists_of_forall₂ {β γ : Type} {R : β → γ → Prop} {l : List β} {l' : List γ}
    (h : List.Forall₂ R l l') {b : β} (hb : b ∈ l) : ∃ c, R b c := by
  induction h with
  | nil => cases hb
  | cons hR _ ih =>
    rcases List.mem_cons.1 hb with rfl | hb
    · exact ⟨_, hR⟩
    · exact ih hb

/-- A list is read item by item, and only if it has an end. -/
theorem readItems_eq_ok_iff {closed : Bool} {items : List Value} {l : List α} :
    readItems read closed items = .ok l ↔
      closed = true ∧ List.Forall₂ (fun v a => read v = .ok a) items l := by
  induction items generalizing l with
  | nil =>
    rw [List.forall₂_nil_left_iff]
    cases closed with
    | false => simp [readItems]
    | true => simp [readItems, eq_comm]
  | cons v items ih =>
    rw [readItems, bind_eq_ok_iff, List.forall₂_cons_left_iff]
    refine ⟨?_, ?_⟩
    · rintro ⟨a, ha, h⟩
      obtain ⟨rest, hrest, h⟩ := bind_eq_ok_iff.1 h
      cases h
      obtain ⟨hclosed, hitems⟩ := ih.1 hrest
      exact ⟨hclosed, a, rest, ha, hitems, rfl⟩
    · rintro ⟨hclosed, a, rest, ha, hitems, rfl⟩
      refine ⟨a, ha, ?_⟩
      rw [ih.2 ⟨hclosed, hitems⟩]
      rfl

theorem readList_map (h : ∀ a, read (write a) = .ok a) (l : List α) :
    readList read (.list (l.map write)) = .ok l := by
  refine readItems_eq_ok_iff.2 ⟨rfl, ?_⟩
  rw [List.forall₂_map_left_iff, List.forall₂_same]
  exact fun a _ => h a

theorem readBytes_ofBytes (b : Bytes) : readList readByte (ofBytes b) = .ok b :=
  readList_map readByte_ofInt b

theorem written_list (h : ∀ a, Written (write a)) (l : List α) : Written (.list (l.map write)) := by
  refine .list fun v hv => ?_
  obtain ⟨a, -, rfl⟩ := List.mem_map.1 hv
  exact h a

theorem written_ofBytes (b : Bytes) : Written (ofBytes b) :=
  written_list (fun _ => written_ofInt _) b

end Lists

section Fields

variable {α : Type} {read : Reader α} {v : Value} (name : String)

theorem check_of {a : α} (h : read v = .ok a) : (Field.of name read).check v = .ok () := by
  simp only [Field.of, h]
  rfl

theorem check_optional {a : Option α} (h : readOption read v = .ok a) :
    (Field.optional name read).check v = .ok () := by
  simp only [Field.optional, h]
  rfl

theorem check_listOrEmpty {l : List α} (h : readList read v = .ok l) :
    (Field.listOrEmpty name read).check v = .ok () := by
  simp only [Field.listOrEmpty, h]
  rfl

end Fields

instance : LawfulCodec TypeId where
  written t := written_ofInt _
  ofJson_toJson t := by
    show (readInt64 (.ofInt t.raw.toInt)).map TypeId.mk = .ok t
    rw [readInt64_ofInt]
    rfl

theorem ofJson_of_perm {xs : List Int64} {s : IdSet} (h : xs.Perm s.members) :
    Codec.ofJson (.list (xs.map fun x => .ofInt x.toInt)) = .ok s := by
  show (readList readInt64 _).map IdSet.ofList = .ok s
  rw [readList_map readInt64_ofInt, ← IdSet.ofList_eq_of_perm h]
  rfl

instance : LawfulCodec IdSet where
  written s := written_list (fun _ => written_ofInt _) s.members
  ofJson_toJson s := ofJson_of_perm (.refl s.members)

instance : LawfulCodec Header where
  written h := .record (by simp [written_ofInt])
  ofJson_toJson h := by
    refine bind_eq_ok_iff.2 ⟨_, readRecord_record "AggregateHeaderData"
      [(.of "_source" readInt64, .ofInt h.source.toInt),
        (.of "_domain" readInt32, .ofInt h.domain.toInt),
        (.of "_id" readInt64, .ofInt h.id.toInt), (.of "_ver" readInt32, .ofInt h.version.toInt)]
      (by simp [Field.of])
      (by simp [check_of _ (readInt64_ofInt _), check_of _ (readInt32_ofInt _)]),
      ?_⟩
    simp only [List.map_cons, List.map_nil, readInt64_ofInt, readInt32_ofInt]
    rfl

section Records

variable {v : Value} {r : Record} {b : Bytes}

def rawBody : Reader Bytes := fun v => do
  match ← readRecord "RawBody" [.of "_data" (readList readByte)] v with
  | [data] => readList readByte data
  | _ => throw .malformed

theorem ofJson_record (v : Value) : (Codec.ofJson v : Except ReadError Record) =
    rawBody v >>= fun b => (Record.ofBytes b).mapError fun e => .refused e.message := by
  show (readRecord _ _ v >>= fun values => _) = (readRecord _ _ v >>= fun values => _) >>= _
  rw [bind_assoc]
  refine congrArg _ (funext fun values => ?_)
  rcases values with _ | ⟨data, _ | ⟨_, _⟩⟩ <;> rfl

theorem ofBytes_eq_ok_iff : Record.ofBytes b = .ok r ↔ r.bytes = b := by
  unfold Record.ofBytes
  split
  · next h =>
    refine ⟨nofun, ?_⟩
    rintro rfl
    exact absurd r.full (by omega)
  · refine ⟨?_, ?_⟩
    · rintro ⟨⟩
      rfl
    · rintro rfl
      rfl

theorem ofJson_record_eq_ok_iff : Codec.ofJson v = .ok r ↔ rawBody v = .ok r.bytes := by
  rw [ofJson_record, bind_eq_ok_iff]
  simp only [mapError_eq_ok_iff, ofBytes_eq_ok_iff]
  refine ⟨?_, fun h => ⟨r.bytes, h, rfl⟩⟩
  rintro ⟨b, h, rfl⟩
  exact h

/-- Bytes that hold no header are refused, and it is said how many they are. -/
theorem ofJson_record_of_short (h : rawBody v = .ok b) (hshort : b.length < 24) :
    (Codec.ofJson v : Except ReadError Record) =
      .error (.refused (HeaderError.tooShort b.length).message) := by
  rw [ofJson_record, h]
  show (Record.ofBytes b).mapError _ = _
  unfold Record.ofBytes
  rw [dif_pos hshort]
  rfl

theorem decode_record_of_short {source : Bytes} (h : readDocument rawBody source = .ok b)
    (hshort : b.length < 24) :
    decode source = (.error ⟨(HeaderError.tooShort b.length).message⟩ : Except _ Record) := by
  have hne : source.isEmpty = false := by
    rw [List.isEmpty_eq_false_iff]
    rintro rfl
    cases h
  have hread := ofJson_record_of_short (readDocument_eq_ok_iff.1 h).1 hshort
  unfold decode readAs readDocument
  dsimp only
  rw [hne, hread]
  rfl

theorem rawBody_toJson (r : Record) : rawBody (Codec.toJson r) = .ok r.bytes := by
  refine bind_eq_ok_iff.2 ⟨_, readRecord_record "RawBody"
    [(.of "_data" (readList readByte), ofBytes r.bytes)]
    (by simp) (by simp [check_of _ (readBytes_ofBytes _)]), ?_⟩
  exact readBytes_ofBytes r.bytes

instance : LawfulCodec Record where
  written r := .record (by simp [written_ofBytes])
  ofJson_toJson r := ofJson_record_eq_ok_iff.2 (rawBody_toJson r)

end Records

end EventSourcing.Json
