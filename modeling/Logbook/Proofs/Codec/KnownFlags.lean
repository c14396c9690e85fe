import Logbook.Proofs.Codec.Apart
import Logbook.Proofs.Json.Natural

/-! Flags that are not known and come through no codec. A byte or a number that is no set of flags is
refused where the flags of a record stand, and a record that is decoded has flags that are kept when it
is encoded again. -/
namespace Logbook

variable {r : Record} {m : Message} {bs : Bytes} {u : UInt8}

theorem Bytes.set_between (before : Bytes) (b u : UInt8) (after : Bytes) :
    (before ++ b :: after).set before.length u = before ++ u :: after := by
  rw [List.set_append_right _ _ (Nat.le_refl _), Nat.sub_self]
  rfl

namespace Json

variable {l : Layout}

/-- The text of a record, with an integer in place of its flags. -/
def withFlags (l : Layout) (r : Record) (u : Int) : Bytes :=
  0x7b :: leading l r (field false l "flags" (writeInt u) (l.line 0 ++ [0x7d]))

theorem writeRecord_flags (l : Layout) (r : Record) (flags : Flags) :
    writeRecord l { r with flags } = withFlags l r flags.bits.toNat := by
  have text := writeRecord_fields (l := l) { r with flags } []
  rwa [List.append_nil] at text

theorem readRecord_withFlags {number : Int} (unknown : number < 0 ∨ 127 < number) :
    ∃ fault, readRecord (withFlags l r number) = .error fault := by
  have ends : EndsNumber (l.line 0 ++ [0x7d]) := endsNumber_close (.inr rfl)
  obtain ⟨fault, refused⟩ := readFlags_writeInt unknown ends
  -- three fields come before, each of at least one byte
  have long : 3 ≤ (leading l r
      (field false l "flags" (writeInt number) (l.line 0 ++ [0x7d]))).length := by
    simp [leading, field, writeText]
    omega
  obtain ⟨fuel, size⟩ := Nat.exists_eq_add_of_le long
  refine ⟨fault, ?_⟩
  rw [withFlags, readRecord, readStart_cons rfl, if_neg (by decide), if_pos rfl, size,
    Nat.add_comm 3, readFields_flags, refused]
  rfl

end Json

namespace Codec

/-- Where a codec has the flags of a record. It writes the record with any flags as `put` puts these
there, and refuses as malformed what `put` makes of what is not known. -/
structure Guards {α : Type} (c : Codec) (r : Record) (ofFlags : Flags → α) (unknown : α → Prop)
    (put : α → Bytes) : Prop where
  writes : ∀ flags, c.encode (.record { r with flags }) = .ok (put (ofFlags flags))
  refuses : ∀ u, unknown u → Refuses c .record (put u)

namespace Fixed

theorem encode_eq_ok : Codec.fixed.encode (.record r) = .ok bs ↔ Fits r ∧ bs = write r := by
  rw [Codec.encode]
  constructor
  · intro written
    split at written
    case isTrue fits =>
      cases written
      exact ⟨fits, rfl⟩
    case isFalse => cases written
  · rintro ⟨fits, rfl⟩
    exact if_pos fits

theorem guards (written : Codec.fixed.encode (.record r) = .ok bs) :
    Guards .fixed r Flags.bits (0x80 ≤ ·) (bs.set 0) := by
  obtain ⟨fits, rfl⟩ := encode_eq_ok.mp written
  constructor
  case writes => exact fun flags => encode_eq_ok.mpr ⟨fits, rfl⟩
  case refuses =>
    intro u unknown
    cases result : Codec.fixed.decode .record ((write r).set 0 u) with
    | error fault => exact ⟨fault, result, decode_refused result⟩
    | ok m =>
      obtain ⟨r', given⟩ := decode_eq_ok result
      have first : some u = some r'.flags.bits := congrArg List.head? (read_eq_ok.mp given).2
      rw [Option.some.inj first] at unknown
      exact absurd r'.flags.bits_lt (UInt8.not_lt.mpr unknown)

end Fixed

namespace Binary

def front (r : Record) : Bytes :=
  writeText r.key ++ writeBytes r.data ++ Varint.write r.watermark.toNat

theorem write_front (r : Record) : write (.record r) = front r ++ [r.flags.bits] := rfl

theorem readRecord_front (fits : Message.FitsMemory (.record r)) (bs : Bytes) :
    readRecord (front r ++ bs) = (readFlags bs).map fun x => ({ r with flags := x.1 }, x.2) := by
  have content : (Text.Utf8.encode r.key).length < capacity := by
    rw [Text.Utf8.length_encode]
    exact fits.1
  have key (rest : Bytes) : readText (writeText r.key ++ rest) = .ok (r.key, rest) :=
    readText_eq_ok.mpr ⟨_, spells_writeBytes content, rfl⟩
  have data (rest : Bytes) : readBytes (writeBytes r.data ++ rest) = .ok (r.data, rest) :=
    readBytes_eq_ok.mpr ⟨_, spells_writeBytes fits.2, rfl⟩
  have watermark : lift (Varint.read (Varint.write r.watermark.toNat ++ bs)) =
      .ok (r.watermark.toNat, bs) :=
    mapError_eq_ok.mpr (Varint.read_eq_ok.mpr ⟨_, Varint.form_write r.watermark.toNat_lt, rfl⟩)
  have back : r.watermark.toNat.toUInt64 = r.watermark := UInt64.ofNat_toNat
  rw [front, List.append_assoc, List.append_assoc]
  simp only [readRecord, key, data, watermark, back, bind, Except.bind]
  cases readFlags bs with
  | error fault => rfl
  | ok x => rfl

theorem read_unknown (fits : Message.FitsMemory (.record r)) (unknown : 0x80 ≤ u) :
    read .record (front r ++ [u]) = .error (.flags (.unknownFlags (u &&& 0x80))) := by
  have last : readFlags [u] = .error (.flags (.unknownFlags (u &&& 0x80))) := by
    rw [readFlags, Flags.ofBits_unknown unknown]
  rw [read, readRecord_front fits, last]
  rfl

theorem guards (fits : Message.FitsMemory (.record r))
    (written : Codec.binary.encode (.record r) = .ok bs) :
    Guards .binary r Flags.bits (0x80 ≤ ·) (bs.set (bs.length - 1)) := by
  have whole : bs = front r ++ [r.flags.bits] := (Except.ok.inj written).symm
  have place (u : UInt8) : bs.set (bs.length - 1) u = front r ++ [u] := by
    rw [whole, List.length_append, List.length_singleton, Nat.add_sub_cancel]
    exact Bytes.set_between (front r) r.flags.bits u []
  constructor
  case writes =>
    intro flags
    rw [place]
    rfl
  case refuses =>
    intro u unknown
    rw [place]
    refine ⟨.binary (.flags (.unknownFlags (u &&& 0x80))), ?_, rfl⟩
    rw [decode, readAll, read_unknown fits unknown]
    rfl

end Binary

namespace Frame

/-- A frame whose checksum is computed again. -/
def reseal (bs : Bytes) : Bytes :=
  let before := bs.take (bs.length - trailerSize)
  before ++ Bytes.ofNatLE 4 (Checksum.crc32 (before.drop headerSize)).toNat

variable {schema : String}

/-- The last byte of the payload, with what stands before and after it. -/
theorem Frames.around {before : Bytes} {b : UInt8} (frames : Frames schema (before ++ [b]) bs) :
    ∃ header sum : Bytes, header.length = 10 ∧ sum.length = 4 ∧ bs = header ++ before ++ b :: sum ∧
      bs.length - 5 = (header ++ before).length ∧ ∀ u, Frames schema (before ++ [u])
        (header ++ (before ++ [u]) ++ Bytes.ofNatLE 4 (Checksum.crc32 (before ++ [u])).toNat) := by
  obtain ⟨fits, whole⟩ := frames
  refine ⟨[0xc3, 0x01] ++ Bytes.ofNatLE 4 (Checksum.crc32 (Text.Utf8.encode schema)).toNat ++
    Bytes.ofNatLE 4 (before ++ [b]).length, Bytes.ofNatLE 4 (Checksum.crc32 (before ++ [b])).toNat,
    by simp, by simp, by simp [whole], by simp [whole]; omega, ?_⟩
  intro u
  have size : (before ++ [b]).length = (before ++ [u]).length := by simp
  rw [size] at fits ⊢
  exact ⟨fits, rfl⟩

theorem frames_reseal {before : Bytes} {b : UInt8} (frames : Frames schema (before ++ [b]) bs)
    (u : UInt8) : Frames schema (before ++ [u]) (reseal (bs.set (bs.length - 5) u)) := by
  obtain ⟨header, sum, ten, four, rfl, place, resealed⟩ := frames.around
  have replaced : header ++ before ++ u :: sum = header ++ (before ++ [u]) ++ sum := by simp
  have front : (header ++ (before ++ [u]) ++ sum).take
      ((header ++ (before ++ [u]) ++ sum).length - trailerSize) = header ++ (before ++ [u]) :=
    List.take_left' (by simp [trailerSize]; omega)
  have payload : (header ++ (before ++ [u])).drop headerSize = before ++ [u] := List.drop_left' ten
  rw [place, Bytes.set_between, replaced, reseal]
  simp only [front, payload]
  exact resealed u

theorem guards (written : (Codec.frame schema).encode (.record r) = .ok bs) :
    Guards (.frame schema) r Flags.bits (0x80 ≤ ·) fun u => reseal (bs.set (bs.length - 5) u) := by
  have frames := encode_frame.mp written
  rw [Binary.write_front] at frames
  constructor
  case writes =>
    intro flags
    rw [encode_frame, Binary.write_front]
    exact frames_reseal frames flags.bits
  case refuses =>
    intro u unknown
    have fits : Message.FitsMemory (.record r) := fitsMemory_of_fits frames.1
    refine ⟨.frame (.payload (.flags (.unknownFlags (u &&& 0x80)))), ?_, rfl⟩
    rw [decode, read, unwrap_eq_ok.mpr (frames_reseal frames u)]
    simp only [bind, Except.bind, Binary.read_unknown fits unknown]
    rfl

end Frame

theorem guards_json (l : Json.Layout) (r : Record) :
    Guards (.json l) r (fun flags => (flags.bits.toNat : Int)) (fun u => u < 0 ∨ 127 < u)
      (Json.withFlags l r) := by
  constructor
  case writes =>
    intro flags
    rw [encode, Json.write, Json.writeRecord_flags]
  case refuses =>
    intro u unknown
    obtain ⟨fault, refused⟩ := Json.readRecord_withFlags (l := l) (r := r) unknown
    apply refuses_json
    rw [Json.read, Json.readMessage, refused]
    rfl

/-! ### What is decoded -/

variable {c : Codec} {t : MessageType}

theorem admits_json (accepted : Json.read t bs = .ok m) : t.Admits m := by
  obtain ⟨⟨m', rest⟩, taken, whole⟩ := bind_eq_ok.mp accepted
  simp only at whole
  split at whole
  case isFalse => cases whole
  case isTrue =>
    cases whole
    cases t with
    | record =>
      obtain ⟨x, -, same⟩ := map_eq_ok.mp taken
      cases same
      trivial
    | string | named path =>
      rw [Json.readMessage] at taken
      · obtain ⟨x, -, same⟩ := map_eq_ok.mp taken
        cases same
        trivial
      · intro same
        cases same

/-- What is decoded is encoded again, and then decoded as the same message. -/
theorem encode_again (accepted : c.decode t bs = .ok m) :
    t.Admits m ∧ ∃ again, c.encode m = .ok again ∧ c.decode t again = .ok m := by
  cases c with
  | binary =>
    obtain ⟨admitted, stands⟩ := Binary.decode_binary.mp accepted
    exact ⟨admitted, _, rfl,
      Binary.decode_binary.mpr ⟨admitted, Binary.stands_write stands.fitsMemory⟩⟩
  | frame schema =>
    obtain ⟨payload, frames, accepted⟩ := Frame.decode_frame.mp accepted
    obtain ⟨admitted, stands⟩ := Binary.decode_binary.mp accepted
    -- the payload that is written is no longer than the one that was read
    have fits : (Binary.write m).length < lengthLimit := by
      have short : payload.length < lengthLimit := frames.1
      rcases stands.noLonger with shorter | same
      · omega
      · rwa [same]
    have written : (Codec.frame schema).encode m = .ok (Frame.wrap schema (Binary.write m)) :=
      if_pos fits
    exact ⟨admitted, _, written, Frame.decode_frame.mpr ⟨_, Frame.encode_frame.mp written,
      Binary.decode_binary.mpr ⟨admitted, Binary.stands_write stands.fitsMemory⟩⟩⟩
  | json l =>
    have admitted := admits_json (mapError_eq_ok.mp accepted)
    exact ⟨admitted, _, rfl, mapError_eq_ok.mpr (Json.read_write admitted)⟩
  | fixed =>
    cases t with
    | string | named path => cases accepted
    | record =>
      have written := Fixed.decode_fixed.mp accepted
      cases m with
      | text s => cases written
      | record r => exact ⟨trivial, bs, written, accepted⟩

theorem Binary.Stands.last (stands : Stands (.record r) bs) :
    ∃ before, bs = before ++ [r.flags.bits] := by
  cases stands with
  | record key data watermark => exact ⟨_, rfl⟩

theorem Binary.flags_last (accepted : Codec.binary.decode .record bs = .ok (.record r)) :
    bs[bs.length - 1]? = some r.flags.bits := by
  obtain ⟨before, rfl⟩ := (decode_binary.mp accepted).2.last
  rw [List.length_append, List.length_singleton, Nat.add_sub_cancel]
  exact List.getElem?_concat_length

theorem Frame.flags_sealed {schema : String}
    (accepted : (Codec.frame schema).decode .record bs = .ok (.record r)) :
    bs[bs.length - 5]? = some r.flags.bits := by
  obtain ⟨payload, frames, accepted⟩ := decode_frame.mp accepted
  obtain ⟨before, rfl⟩ := (Binary.decode_binary.mp accepted).2.last
  obtain ⟨header, sum, -, -, rfl, place, -⟩ := frames.around
  rw [place, List.getElem?_append_right (Nat.le_refl _), Nat.sub_self]
  rfl

theorem Fixed.flags_first (accepted : Codec.fixed.decode .record bs = .ok (.record r)) :
    bs[0]? = some r.flags.bits := by
  rw [(encode_eq_ok.mp (decode_fixed.mp accepted)).2]
  rfl

/-- Flags that are not known come through no codec. Where a record has its flags no codec takes a byte,
and JSON no integer, that is not known. A record that is decoded, from whatever bytes, has the flags that
stand there, which are some of the seven and are kept when it is encoded and decoded again. -/
structure OnlyKnownFlags : Prop where
  fixed : ∀ r bs, Codec.fixed.encode (.record r) = .ok bs →
    Guards .fixed r Flags.bits (0x80 ≤ ·) (bs.set 0)
  binary : ∀ r bs, Message.FitsMemory (.record r) → Codec.binary.encode (.record r) = .ok bs →
    Guards .binary r Flags.bits (0x80 ≤ ·) (bs.set (bs.length - 1))
  frame : ∀ schema r bs, (Codec.frame schema).encode (.record r) = .ok bs →
    Guards (.frame schema) r Flags.bits (0x80 ≤ ·) fun u => Frame.reseal (bs.set (bs.length - 5) u)
  json : ∀ l r, Guards (.json l) r (fun flags => (flags.bits.toNat : Int)) (fun u => u < 0 ∨ 127 < u)
    (Json.withFlags l r)
  decoded : ∀ (c : Codec) bs m, c.decode .record bs = .ok m → ∃ r again, m = .record r ∧
    r.flags.bits < 0x80 ∧ Flags.ofList r.flags.toList = r.flags ∧
    c.encode m = .ok again ∧ c.decode .record again = .ok m
  first : ∀ r bs, Codec.fixed.decode .record bs = .ok (.record r) → bs[0]? = some r.flags.bits
  last : ∀ r bs, Codec.binary.decode .record bs = .ok (.record r) →
    bs[bs.length - 1]? = some r.flags.bits
  sealed : ∀ schema r bs, (Codec.frame schema).decode .record bs = .ok (.record r) →
    bs[bs.length - 5]? = some r.flags.bits
  digits : ∀ bs flags rest, Json.readFlags bs = .ok (flags, rest) ↔
    Json.skipBlanks bs = Json.writeNat flags.bits.toNat ++ rest ∧ Json.EndsNumber rest

theorem only_known_flags : OnlyKnownFlags := by
  constructor
  case fixed => exact fun r bs written => Fixed.guards written
  case binary => exact fun r bs fits written => Binary.guards fits written
  case frame => exact fun schema r bs written => Frame.guards written
  case json => exact guards_json
  case decoded =>
    intro c bs m accepted
    obtain ⟨admitted, again, written, kept⟩ := encode_again accepted
    cases m with
    | text s => cases admitted
    | record r => exact ⟨r, again, rfl, r.flags.bits_lt, r.flags.ofList_toList, written, kept⟩
  case first => exact fun r bs accepted => Fixed.flags_first accepted
  case last => exact fun r bs accepted => Binary.flags_last accepted
  case sealed => exact fun schema r bs accepted => Frame.flags_sealed accepted
  case digits => exact fun bs flags rest => Json.readFlags_eq_ok

end Codec

end Logbook
