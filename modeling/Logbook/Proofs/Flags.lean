import Logbook.Flags

/-! Sets of flags and the bytes of their bits. -/
namespace Logbook.Flags

variable {bits : UInt8} {flags : Flags}

theorem ofBits_eq_ok : ofBits bits = .ok flags ↔ flags.bits = bits := by
  rw [ofBits]
  constructor
  · intro known
    split at known
    · cases known
      rfl
    · cases known
  · rintro rfl
    rw [dif_pos flags.known]

/-- The known bits are the seven lowest ones. -/
theorem known_iff : bits &&& 0x80 = 0 ↔ bits < 0x80 := by
  have each : ∀ n, n < 256 → (n.toUInt8 &&& 0x80 = 0 ↔ n.toUInt8 < 0x80) := by decide +kernel
  have whole := each bits.toNat bits.toNat_lt
  rwa [Nat.toUInt8, UInt8.ofNat_toNat] at whole

theorem ofBits_unknown (unknown : 0x80 ≤ bits) :
    ofBits bits = .error (.unknownFlags (bits &&& 0x80)) := by
  rw [ofBits, dif_neg]
  intro known
  exact absurd (known_iff.mp known) (UInt8.not_lt.mpr unknown)

theorem bits_lt (flags : Flags) : flags.bits < 0x80 := known_iff.mp flags.known

/-- Each bit is that of one of the seven flags. -/
theorem ofList_toList (flags : Flags) : ofList flags.toList = flags := by
  have each : ∀ n, n < 128 →
      (ofList (Flag.all.filter fun f => n.toUInt8 &&& f.bit != 0)).bits = n.toUInt8 := by
    decide +kernel
  have whole := each flags.bits.toNat (UInt8.lt_iff_toNat_lt.mp flags.bits_lt)
  rw [Nat.toUInt8, UInt8.ofNat_toNat] at whole
  rw [Flags.mk.injEq]
  exact whole

end Logbook.Flags
