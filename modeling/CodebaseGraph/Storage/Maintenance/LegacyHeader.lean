import CodebaseGraph.Collections.Layout

/-! The control record of the legacy proof stream (`src/storage/maintenance_legacy_stream.rs`) and
the sources it names (`maintenance_legacy_bootstrap.rs`, `locks.rs`). Each record has a fixed size
and ends in its checksum.
-/

namespace CodebaseGraph.Storage.Maintenance.Legacy

open CodebaseGraph.Collections

-- Checksums

/-- The SHA-256 of the bytes stands behind them. -/
def finish (sha256 : List UInt8 → Block 32) (body : List UInt8) : List UInt8 :=
  body ++ (sha256 body).val

def checked (sha256 : List UInt8 → Block 32) (bytes : List UInt8) : Bool :=
  32 ≤ bytes.length
  && (sha256 (bytes.take (bytes.length - 32))).val = bytes.drop (bytes.length - 32)

theorem checked_finish (sha256 : List UInt8 → Block 32) (body : List UInt8)
    : checked sha256 (finish sha256 body) = true := by
  have cut : (finish sha256 body).length - 32 = body.length := by simp [finish]
  rw [checked, cut, finish, List.take_left, List.drop_left]
  simp

theorem finish_flatten (sha256 : List UInt8 → Block 32) (segments : List (List UInt8))
    : finish sha256 segments.flatten
      = (segments ++ [(sha256 segments.flatten).val]).flatten := by
  simp [finish]

-- Stamps of files

/-- The two words of a file identity. -/
structure FixedWords where
  volume : UInt64
  index : UInt64
deriving DecidableEq

def FixedWords.bytes (words : FixedWords) : List UInt8 :=
  wordBytes words.volume ++ wordBytes words.index

@[simp]
theorem FixedWords.bytes_length (words : FixedWords) : words.bytes.length = 16 := by
  simp [FixedWords.bytes]

def readId (bytes : List UInt8) (offset : Nat) : FixedWords :=
  { volume := word (bytes.drop offset), index := word (bytes.drop (offset + 8)) }

theorem readId_of_slice {bytes : List UInt8} {offset : Nat} {words : FixedWords}
    (read : slice bytes offset 16 = words.bytes)
    : readId bytes offset = words := by
  have first : slice bytes offset 8 = wordBytes words.volume := by
    have taken := congrArg (List.take 8) read
    rw [FixedWords.bytes, List.take_left' (wordBytes_length _)] at taken
    rw [← taken, slice, slice, List.take_take]
    rfl
  have second : slice bytes (offset + 8) 8 = wordBytes words.index := by
    have dropped := congrArg (List.drop 8) read
    rw [FixedWords.bytes, List.drop_left' (wordBytes_length _), slice, List.drop_take,
      List.drop_drop] at dropped
    exact dropped
  rw [readId, word_of_slice first, word_of_slice second]

-- Closed sources

-- Active sources

-- Either kind of source

-- Headers

end CodebaseGraph.Storage.Maintenance.Legacy
