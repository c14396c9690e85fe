import Logbook.Codec.Basic
import Logbook.Proofs.Json.Message
import Logbook.Proofs.Success

/-! JSON: the two layouts as one format, and the compact one without control characters. -/
namespace Logbook.Json

variable {depth : Nat}

theorem printable_append {bs cs : Bytes} : Printable (bs ++ cs) ↔ Printable bs ∧ Printable cs :=
  List.forall_mem_append

theorem printable_writeText (s : String) : Printable (writeText s) := by
  have quote : Printable [0x22] := by simp [Printable]
  have content : Printable (s.toList.flatMap escapeChar) := by
    intro b here
    obtain ⟨c, -, here⟩ := List.mem_flatMap.mp here
    exact (spelling_escapeChar c).printable b here
  exact printable_append.mpr ⟨printable_append.mpr ⟨quote, content⟩, quote⟩

theorem printable_writeNat (n : Nat) : Printable (writeNat n) := by
  intro b here
  have digit := isDigit_of_mem_writeNat here
  simp only [isDigit, Bool.and_eq_true, decide_eq_true_eq, UInt8.le_iff_toNat_le] at digit
  exact Nat.le_trans (by decide) digit.1

theorem printable_writeItems {items : List Bytes} (each : ∀ item ∈ items, Printable item) :
    Printable (writeItems .compact depth items) := by
  cases items with
  | nil => exact List.forall_mem_nil _
  | cons item items =>
    have comma : Printable (lead false .compact (depth + 1)) := by simp [Printable, lead, Layout.line]
    rw [List.forall_mem_cons] at each
    have others : Printable (items.flatMap (lead false .compact (depth + 1) ++ ·)) := by
      intro b here
      obtain ⟨item, is, here⟩ := List.mem_flatMap.mp here
      exact printable_append.mpr ⟨comma, each.2 item is⟩ b here
    rw [writeItems_cons]
    simp only [printable_append]
    exact ⟨⟨⟨List.forall_mem_nil _, each.1⟩, others⟩, List.forall_mem_nil _⟩

theorem printable_writeData (data : Bytes) : Printable (writeData .compact depth data) := by
  rw [writeData]
  split
  · simp [Printable]
  · have each : ∀ item ∈ data.map (fun b => writeNat b.toNat), Printable item := by
      intro item is
      obtain ⟨b, -, rfl⟩ := List.mem_map.mp is
      exact printable_writeNat _
    simp only [printable_append]
    exact ⟨⟨by simp [Printable], printable_writeItems each⟩, by simp [Printable]⟩

theorem printable_write (m : Message) : Printable (write .compact m) := by
  cases m with
  | text s => exact printable_writeText s
  | record r =>
    have field {name : String} {value : Bytes} (plain : Printable value) :
        Printable (writeText name ++ Layout.colon .compact ++ value) := by
      simp only [printable_append]
      exact ⟨⟨printable_writeText name, by simp [Printable, Layout.colon]⟩, plain⟩
    rw [write, writeRecord]
    simp only [printable_append]
    refine ⟨⟨by simp [Printable], printable_writeItems ?_⟩, by simp [Printable]⟩
    simp only [List.forall_mem_cons]
    exact ⟨field (printable_writeText _), field (printable_writeData _), field (printable_writeNat _),
      field (printable_writeNat _), List.forall_mem_nil _⟩

end Logbook.Json

namespace Logbook.Codec

/-- JSON is one format in two layouts. What is written in either of them is read back with either
codec, and the compact layout has no line breaks. -/
structure Interchange : Prop where
  returns : ∀ t m, MessageType.Admits t m → ∀ writer reader, ∃ bs,
    (Codec.json writer).encode m = .ok bs ∧ (Codec.json reader).decode t bs = .ok m
  oneLine : ∀ m bs, (Codec.json .compact).encode m = .ok bs → 0x0a ∉ bs

theorem json_interchange : Interchange := by
  constructor
  case returns =>
    intro t m admitted writer reader
    exact ⟨Json.write writer m, rfl, mapError_eq_ok.mpr (Json.read_write admitted)⟩
  case oneLine =>
    intro m bs written here
    cases written
    exact absurd (Json.printable_write m _ here) (by decide)

end Logbook.Codec
