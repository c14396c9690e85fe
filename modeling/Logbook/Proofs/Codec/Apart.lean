import Logbook.Proofs.Codec.Delimited
import Logbook.Proofs.Codec.Json

/-! Formats that are told apart by how they begin. The first byte of a frame is no set of flags, and no
JSON text begins with it, so that what is framed is read neither as a record of the fixed layout nor as
JSON, and what these write is no frame. -/
namespace Logbook

/-- No value begins with the mark. -/
theorem Json.read_marked (t : MessageType) (rest : Bytes) :
    Json.read t (0xc3 :: rest) = .error .expectedValue := by
  have solid : isBlank 0xc3 = false := rfl
  cases t with
  | record =>
    have record : readRecord (0xc3 :: rest) = .error .expectedValue := readStart_cons solid
    rw [Json.read, readMessage, record]
    rfl
  | string | named path =>
    have text : readString (0xc3 :: rest) = .error .expectedValue := readStart_cons solid
    rw [Json.read, readMessage, text]
    · rfl
    · intro same
      cases same

namespace Codec

def Refuses (c : Codec) (t : MessageType) (bs : Bytes) : Prop :=
  ∃ fault, c.decode t bs = .error fault ∧ (CodecError.decode c fault).kind = .decode

theorem Refuses.not_accepted {c : Codec} {t : MessageType} {bs : Bytes} {m : Message}
    (refuses : Refuses c t bs) : c.decode t bs ≠ .ok m := by
  obtain ⟨fault, refused, -⟩ := refuses
  rw [refused]
  exact nofun

def Marked (bs : Bytes) : Prop := Frame.magic <+: bs

variable {schema : String} {l : Json.Layout} {t : MessageType} {m : Message} {bs : Bytes}

namespace Frame

theorem Frames.marked {payload : Bytes} (frames : Frames schema payload bs) : Marked bs := by
  obtain ⟨-, whole⟩ := frames_iff_parts.mp frames
  rw [whole]
  exact List.prefix_append _ _

theorem refuses_unmarked (unmarked : ¬Marked bs) : Refuses (.frame schema) t bs := by
  by_cases short : bs.length < 14
  · exact ⟨.frame (.tooShort bs.length), by rw [decode, read, unwrap_short short]; rfl, rfl⟩
  · obtain ⟨first, second, found, length, rest, rfl, enough⟩ := exists_parts (Nat.le_of_not_lt short)
    have other : [first, second] ≠ magic := by
      intro same
      apply unmarked
      rw [Marked, ← same]
      exact List.prefix_append _ _
    refine ⟨.frame .magic, ?_, rfl⟩
    rw [decode, read, unwrap_parts _ _ _ _ enough, if_pos other]
    rfl

end Frame

namespace Fixed

/-- The flags are the first byte. -/
theorem head_write (r : Record) : (write r).head? = some r.flags.bits := rfl

theorem refuses_marked (marked : Marked bs) : Refuses .fixed t bs := by
  cases result : Codec.fixed.decode t bs with
  | error fault => exact ⟨fault, result, decode_refused result⟩
  | ok m =>
    obtain ⟨r, given⟩ := decode_eq_ok result
    obtain ⟨-, rfl⟩ := read_eq_ok.mp given
    -- the eighth bit of the mark is that of no flag
    obtain ⟨rest, whole⟩ := marked
    have first : r.flags.bits = 0xc3 := by
      have heads := congrArg List.head? whole
      rw [head_write] at heads
      exact (Option.some.inj heads).symm
    have known := r.flags.known
    rw [first] at known
    exact absurd known (by decide)

end Fixed

theorem refuses_json {fault : Json.Fault} (refused : Json.read t bs = .error fault) :
    Refuses (.json l) t bs := ⟨.json fault, by rw [decode, refused]; rfl, rfl⟩

/-- Two codecs between which nothing is mistaken: no bytes are decoded by both, and what one of them
writes the other refuses as malformed. -/
structure Apart (c : Codec) (t : MessageType) (d : Codec) (t' : MessageType) : Prop where
  disjoint : ∀ bs m n, ¬(c.decode t bs = .ok m ∧ d.decode t' bs = .ok n)
  written : ∀ m bs, c.encode m = .ok bs → Refuses d t' bs
  refused : ∀ m bs, d.encode m = .ok bs → Refuses c t bs

/-- Frames are apart from what refuses all that is marked and writes what it can read. -/
theorem apart_of_refuses {d : Codec} {t' : MessageType} (refuses : ∀ t bs, Marked bs → Refuses d t bs)
    (reads : ∀ m bs, d.encode m = .ok bs → ∃ t n, d.decode t bs = .ok n) :
    Apart (.frame schema) t d t' := by
  have unmarked {bs : Bytes} {t : MessageType} {n : Message} (accepted : d.decode t bs = .ok n) :
      ¬Marked bs := fun marked => (refuses t bs marked).not_accepted accepted
  constructor
  case disjoint =>
    rintro bs m n ⟨framed, accepted⟩
    exact (Frame.refuses_unmarked (unmarked accepted)).not_accepted framed
  case written =>
    intro m bs written
    exact refuses t' bs (Frame.encode_frame.mp written).marked
  case refused =>
    intro m bs written
    obtain ⟨t, n, accepted⟩ := reads m bs written
    exact Frame.refuses_unmarked (unmarked accepted)

theorem formats_apart (schema : String) (l : Json.Layout) (t t' : MessageType) :
    Apart (.frame schema) t .fixed t' ∧ Apart (.frame schema) t (.json l) t' := by
  constructor
  · apply apart_of_refuses fun t bs marked => Fixed.refuses_marked marked
    intro m bs written
    exact ⟨.record, m, Fixed.decode_fixed.mpr written⟩
  · apply apart_of_refuses
    · rintro t _ ⟨rest, rfl⟩
      exact refuses_json (Json.read_marked t _)
    intro m bs written
    cases written
    cases m with
    | record r => exact ⟨.record, _, mapError_eq_ok.mpr (Json.read_write trivial)⟩
    | text s => exact ⟨.string, _, mapError_eq_ok.mpr (Json.read_write trivial)⟩

end Codec

end Logbook
