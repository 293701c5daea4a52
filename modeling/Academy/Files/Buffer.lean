import Academy.Failure
import Academy.Files.Lines
import Academy.Host

/-!
# Writing through a buffer

The text of a file is not written piece by piece as it comes about. Pieces
wait in a buffer until the next one does not fit in any more; what waits is
written then, in one go, and what is left at the end is written at the end.
A piece that is as large as the buffer does not wait at all. What is
written in one go is a chunk, and which chunks there are depends on the
pieces alone, as long as nothing fails.

A chunk that cannot be written is the failure of what was being written
then: of a record, if it is for a piece of a record that there was no
room, and of the file otherwise. Those of its bytes that have waited are
tried once more when the file is closed, and nobody asks what came of it.
-/

namespace Academy

/-- **A piece of the text of a file.** -/
structure Piece where
  /-- The bytes of the piece. -/
  bytes : List UInt8
  /-- Whether it belongs to the text of a record. -/
  inRecord : Bool

/-- **What is written in one go.** -/
structure Chunk where
  /-- The bytes that are written. -/
  bytes : List UInt8
  /-- Whether a record is being written when this is done. -/
  inRecord : Bool
  /-- Whether the bytes have waited. -/
  waited : Bool

/-! ## What waits -/

/-- **Bytes that wait to be written.** -/
structure Buffer where
  /-- The pieces that wait, the last one first. -/
  pieces : List (List UInt8)
  /-- How many bytes they have. -/
  size : Nat
  /-- The number is that of the bytes. -/
  size_eq : size = pieces.flatten.length

namespace Buffer

/-- How many bytes wait at most. -/
def capacity : Nat := 8192

/-- A buffer in which nothing waits. -/
def empty : Buffer := ⟨[], 0, rfl⟩

/-- A buffer in which one more piece waits. -/
def push (buffer : Buffer) (piece : List UInt8) : Buffer :=
  ⟨piece :: buffer.pieces, piece.length + buffer.size, by
    rw [List.flatten_cons, List.length_append, buffer.size_eq]⟩

/-- The bytes that wait. -/
def bytes (buffer : Buffer) : List UInt8 :=
  buffer.pieces.reverse.flatten

/-- Makes room for a piece: what waits is written if the piece does not fit in any
more. The chunks that have been written are given with what waits, the last one
first. -/
def makeRoom (state : Buffer × List Chunk) (piece : Piece) : Buffer × List Chunk :=
  if capacity - state.1.size < piece.bytes.length then
    (empty, ⟨state.1.bytes, piece.inRecord, true⟩ :: state.2)
  else state

/-- Takes a piece, which waits unless it is as large as the buffer. -/
def take (state : Buffer × List Chunk) (piece : Piece) : Buffer × List Chunk :=
  let (buffer, chunks) := makeRoom state piece
  if piece.bytes.length < capacity then (buffer.push piece.bytes, chunks)
  else (buffer, ⟨piece.bytes, piece.inRecord, false⟩ :: chunks)

/-- **The chunks in which some pieces are written.** -/
def chunks (pieces : List Piece) : List Chunk :=
  let (buffer, chunks) := pieces.foldl take (empty, [])
  (⟨buffer.bytes, false, true⟩ :: chunks).reverse

end Buffer

/-! ## Writing -/

/-- The failure of a chunk that cannot be written. -/
def Chunk.failure (chunk : Chunk) (path : Path) (fault : FileFault) : Failure :=
  if chunk.inRecord then .write path fault else .file path fault

/-- **Writes a chunk** to a file that has been opened. -/
def Chunk.writeTo {m : Type → Type} [Monad m] [Host m] (path : Path) (chunk : Chunk) :
    ExceptT Failure m Unit := do
  match ← ExceptT.lift (Host.appendFile path chunk.bytes) with
  | .ok () => pure ()
  | .error unwritten =>
    if chunk.waited then
      -- the last attempt, when the file is closed
      let _ ← ExceptT.lift (Host.appendFile path unwritten.rest)
    throw (chunk.failure path unwritten.fault)

/-- **The pieces of records**: those of the text of each, and the end of its line. -/
def Codec.pieces {α : Type} (c : Codec α) (records : List α) : List Piece :=
  records.flatMap fun a =>
    (c.encode a).pieces.map (fun s => ⟨utf8Bytes s, true⟩) ++ [⟨[0x0A], false⟩]

end Academy
