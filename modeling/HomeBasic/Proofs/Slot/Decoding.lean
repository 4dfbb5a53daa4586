import HomeBasic.Proofs.Program.Reading
import HomeBasic.Proofs.Variables.Decoding

/-!
# Blocks from anywhere

A block that was not saved by this machine is taken for an image all the same, if its bytes say
so. What is taken from it is then exactly what they say: packing it again gives the bytes that
were read, and those behind them do not matter.

Main statement: `decoding_exact`.
-/

namespace HomeBasic
namespace Image

/--
Both halves of an image are decoded soundly and exactly, whatever the bytes of a block are.

A block is a program exactly if it opens with lines in ascending order, each ended by a newline,
and a number of zero behind them, all within the room for a program; the program is then these
bytes. A store of variables that is decoded from a block packs to the bytes that the block opens
with, up to the end of the store: it accounts for them to the byte, it has room for them, bytes
that end before them are no store, and whatever stands behind them is not read. Every sound store
is decoded from its packing.
-/
theorem decoding_exact (size : WordSize) (capacity : Nat) (block : List Code) :
    (∀ program, Program.decode? capacity block = some program ↔
      ∃ lines rest, Program.Ordered lines ∧
        block = Program.packLines lines ++ Program.terminator ++ rest ∧
        (Program.packLines lines ++ Program.terminator).length ≤ capacity ∧
        program = ⟨Program.packLines lines ++ Program.terminator, capacity⟩) ∧
    (∀ store, Variables.decode? size capacity block = some store →
      (∃ rest, block = store.encode ++ rest) ∧
      store.used = store.encode.length ∧
      (1 ≤ capacity → store.used ≤ capacity) ∧
      (∀ other, Variables.decode? size capacity (store.encode ++ other) = some store) ∧
      ∀ length, Variables.decode? size capacity (block.take length) =
        if store.encode.length ≤ length then some store else none) ∧
    ∀ store, Variables.Sound size capacity store →
      ∀ rest, Variables.decode? size capacity (store.encode ++ rest) = some store := by
  refine ⟨fun program => Program.decode?_eq_some_iff, fun store run => ?_,
    fun store sound => Variables.decode?_encode sound⟩
  obtain ⟨opens, used, within, again⟩ := Variables.exists_of_decode? run
  exact ⟨opens, used, within, again, Variables.decode?_take run⟩

/-- A block with a line and one with a text and an array, each with more bytes behind. -/
theorem decoding_exact_opened :
    let stored : List Code := Program.packLines [⟨118, [0xF6]⟩] ++ Program.terminator
    let store : Variables :=
      ⟨.short, [⟨[0x21], .text [0x28, 0x29]⟩, ⟨[0x22], .array [7, -1]⟩], 16, 13⟩
    Program.decode? 6 (stored ++ [9]) = some ⟨stored, 6⟩ ∧
      Variables.decode? .short 16 (store.encode ++ [9]) = some store ∧
      store.used = store.encode.length ∧
      Variables.decode? .short 16 ((store.encode ++ [9]).take 12) = none := by
  intro stored store
  have decoded : Variables.decode? .short 16 (store.encode ++ [9]) = some store := by
    decide +kernel
  obtain ⟨program, -, -⟩ := decoding_exact .short 6 (stored ++ [9])
  obtain ⟨-, exact, -⟩ := decoding_exact .short 16 (store.encode ++ [9])
  obtain ⟨-, used, -, -, prefixes⟩ := exact store decoded
  refine ⟨(program _).mpr ⟨_, [9], ⟨?_, ?_, ?_⟩, rfl, ?_, rfl⟩, decoded, used, ?_⟩
  · decide
  · decide
  · decide
  · decide
  · rw [prefixes 12]
    decide +kernel

end Image
end HomeBasic
