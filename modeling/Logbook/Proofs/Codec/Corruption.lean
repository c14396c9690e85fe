import Logbook.Proofs.Checksum.Crc32
import Logbook.Proofs.Codec.Frame

/-! Frames that were changed on their way: of two frames that differ no further than within four bytes in
a row one is refused. -/
namespace Logbook

/-- Of one length, and different only at places of one stretch of `n` places. -/
def Bytes.DifferWithin (n : Nat) (bs cs : Bytes) : Prop :=
  bs.length = cs.length ∧ ∃ start, ∀ i, bs[i]? ≠ cs[i]? → start ≤ i ∧ i < start + n

namespace Bytes

variable {n : Nat} {bs cs : Bytes}

theorem DifferWithin.drop (differ : DifferWithin n bs cs) (k : Nat) :
    DifferWithin n (bs.drop k) (cs.drop k) := by
  obtain ⟨size, start, inside⟩ := differ
  refine ⟨by rw [List.length_drop, List.length_drop, size], start - k, ?_⟩
  intro i other
  rw [List.getElem?_drop, List.getElem?_drop] at other
  have := inside (k + i) other
  omega

/-- The stretch, with what is before and after it. -/
theorem DifferWithin.replaced (differ : DifferWithin n bs cs) : ∃ front old new back,
    bs = front ++ old ++ back ∧ cs = front ++ new ++ back ∧ old.length = new.length ∧
      old.length ≤ n := by
  obtain ⟨size, start, inside⟩ := differ
  have outside (i : Nat) (out : i < start ∨ start + n ≤ i) : bs[i]? = cs[i]? := by
    apply Classical.byContradiction
    intro other
    have := inside i other
    omega
  have before : bs.take start = cs.take start := by
    apply List.ext_getElem?
    intro i
    rw [List.getElem?_take, List.getElem?_take]
    split
    case isTrue first => exact outside i (.inl first)
    case isFalse => rfl
  have after : bs.drop (start + n) = cs.drop (start + n) := by
    apply List.ext_getElem?
    intro i
    rw [List.getElem?_drop, List.getElem?_drop]
    exact outside (start + n + i) (.inr (Nat.le_add_right _ _))
  have parts (bs : Bytes) :
      bs = bs.take start ++ (bs.drop start).take n ++ bs.drop (start + n) := by
    rw [← List.drop_drop, List.append_assoc, List.take_append_drop, List.take_append_drop]
  refine ⟨bs.take start, (bs.drop start).take n, (cs.drop start).take n, bs.drop (start + n),
    parts bs, ?_, ?_, List.length_take_le _ _⟩
  · rw [before, after]
    exact parts cs
  · rw [List.length_take, List.length_take, List.length_drop, List.length_drop, size]

theorem differWithin_replaced {front old new back : Bytes} (sizes : old.length = new.length)
    (short : old.length ≤ n) : DifferWithin n (front ++ old ++ back) (front ++ new ++ back) := by
  refine ⟨by simp only [List.length_append, sizes], front.length, ?_⟩
  intro i other
  apply Classical.byContradiction
  intro out
  apply other
  by_cases first : i < front.length
  · simp only [List.append_assoc, List.getElem?_append_left first]
  · have last : (front ++ old).length ≤ i := by
      rw [List.length_append]
      omega
    have last' : (front ++ new).length ≤ i := by
      rwa [List.length_append, ← sizes, ← List.length_append]
    rw [List.getElem?_append_right last, List.getElem?_append_right last', List.length_append,
      List.length_append, sizes]

end Bytes

namespace Codec.Frame

variable {schema : String} {bs cs payload payload' : Bytes} {t : MessageType} {m : Message}

theorem Frames.length_eq (frames : Frames schema payload bs) : bs.length = 14 + payload.length := by
  rw [frames.2]
  simp
  omega

/-- What the header does not fix. -/
theorem Frames.drop_header (frames : Frames schema payload bs) :
    bs.drop 10 = payload ++ Bytes.ofNatLE 4 (Checksum.crc32 payload).toNat := by
  rw [(frames_iff_parts.mp frames).2]
  exact drop_parts _ _ _ _ 0

/-- Frames of one length have the same header, and a burst in what follows changes the remainder. -/
theorem Frames.eq_of_differWithin (frames : Frames schema payload bs)
    (frames' : Frames schema payload' cs) (differ : Bytes.DifferWithin 4 bs cs) : bs = cs := by
  have size : payload.length = payload'.length := by
    have := frames.length_eq
    have := frames'.length_eq
    have := differ.1
    omega
  obtain ⟨front, old, new, back, bodyIs, bodyIs', sizes, short⟩ := (differ.drop 10).replaced
  rw [frames.drop_header] at bodyIs
  rw [frames'.drop_header] at bodyIs'
  have same : (front ++ old ++ back).foldl Checksum.crcByte 0xffffffff =
      (front ++ new ++ back).foldl Checksum.crcByte 0xffffffff := by
    rw [← bodyIs, ← bodyIs', Checksum.foldl_crcByte_checksum, Checksum.foldl_crcByte_checksum]
  obtain rfl := Checksum.eq_of_foldl_crcByte same sizes short
  have payloads := (List.append_inj (bodyIs.trans bodyIs'.symm) size).1
  obtain rfl := payloads
  rw [frames.2, frames'.2]

/-- What is no frame is told as such, before its payload is read. -/
theorem unwrap_kind {fault : Fault} (refused : unwrap schema bs = .error fault) :
    (CodecError.decode (.frame schema) (.frame fault)).kind = .decode ∨
      (CodecError.decode (.frame schema) (.frame fault)).kind = .schemaMismatch := by
  by_cases short : bs.length < 14
  · rw [unwrap_short short] at refused
    cases refused
    exact .inl rfl
  obtain ⟨first, second, found, length, rest, rfl, enough⟩ := exists_parts (Nat.le_of_not_lt short)
  rw [unwrap_parts _ _ _ _ enough] at refused
  split at refused
  case isTrue => cases refused; exact .inl rfl
  split at refused
  case isTrue => cases refused; exact .inr rfl
  split at refused
  case isTrue => cases refused; exact .inl rfl
  split at refused
  · cases refused
    exact .inl rfl
  · cases refused

/-- A frame that was changed within four bytes in a row, wherever these stand, is refused. -/
theorem corruption_detected (accepted : (Codec.frame schema).decode t bs = .ok m)
    (differ : Bytes.DifferWithin 4 bs cs) (other : cs ≠ bs) : ∃ fault,
    (Codec.frame schema).decode t cs = .error fault ∧
      ((CodecError.decode (.frame schema) fault).kind = .decode ∨
        (CodecError.decode (.frame schema) fault).kind = .schemaMismatch) := by
  obtain ⟨payload, frames, -⟩ := decode_frame.mp accepted
  cases result : unwrap schema cs with
  | error fault => exact ⟨.frame fault, by rw [decode, read, result]; rfl, unwrap_kind result⟩
  | ok payload' =>
    exact absurd (frames.eq_of_differWithin (unwrap_eq_ok.mp result) differ).symm other

/-- A change of the payload's last byte and the first three of its checksum. -/
theorem corrupted_note :
    (Codec.frame "note").decode .string
        [195, 1, 20, 250, 189, 207, 3, 0, 0, 0, 2, 104, 105, 47, 53, 143, 101] =
      .ok (.text "hi") ∧
    ∃ fault, (Codec.frame "note").decode .string
        [195, 1, 20, 250, 189, 207, 3, 0, 0, 0, 2, 104, 111, 0, 53, 144, 101] = .error fault ∧
      ((CodecError.decode (.frame "note") fault).kind = .decode ∨
        (CodecError.decode (.frame "note") fault).kind = .schemaMismatch) := by
  have frames : Frames "note" (Binary.write (.text "hi"))
      [195, 1, 20, 250, 189, 207, 3, 0, 0, 0, 2, 104, 105, 47, 53, 143, 101] :=
    ⟨by decide +kernel, by decide +kernel⟩
  have payload : Codec.binary.decode .string (Binary.write (.text "hi")) = .ok (.text "hi") :=
    Binary.decode_binary.mpr ⟨trivial, Binary.stands_write (fitsMemory_of_fits frames.1)⟩
  have accepted := decode_frame.mpr ⟨_, frames, payload⟩
  have differ : Bytes.DifferWithin 4
      ([195, 1, 20, 250, 189, 207, 3, 0, 0, 0, 2, 104] ++ [105, 47, 53, 143] ++ [101])
      ([195, 1, 20, 250, 189, 207, 3, 0, 0, 0, 2, 104] ++ [111, 0, 53, 144] ++ [101]) :=
    Bytes.differWithin_replaced rfl (by decide)
  exact ⟨accepted, corruption_detected accepted differ (by decide)⟩

end Codec.Frame

end Logbook
