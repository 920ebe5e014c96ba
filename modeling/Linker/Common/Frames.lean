import Mathlib.Algebra.Ring.Nat
import Mathlib.Data.List.Basic
import Mathlib.Tactic.SplitIfs

/-!
# Length-prefixed frames

A stream of frames, each of which begins with the length of its payload in four bytes.  The sender
writes a prefix for any payload; the receiver turns down a frame that is longer than it takes, the
prefix included.

## Main definitions

* `LengthFieldPrepender.encode` : the frame of a payload.
* `LengthFieldBasedFrameDecoder.decode` : what a receiver makes of the beginning of a stream.

## Main results

* `LengthFieldBasedFrameDecoder.decode_encode_iff` : the payloads that come through.
-/

namespace Linker

abbrev Bytes := List UInt8

/-- `writeInt`: the lowest 32 bits, the highest byte first. -/
def writeInt (n : ℕ) : Bytes :=
  [.ofNat (n / 2 ^ 24), .ofNat (n / 2 ^ 16), .ofNat (n / 2 ^ 8), .ofNat n]

/-- `readUnsignedInt`, and what comes after it. -/
def readUnsignedInt : Bytes → Option (ℕ × Bytes)
  | a :: b :: c :: d :: rest =>
    some (a.toNat * 2 ^ 24 + b.toNat * 2 ^ 16 + c.toNat * 2 ^ 8 + d.toNat, rest)
  | _ => none

theorem readUnsignedInt_writeInt (n : ℕ) (rest : Bytes) :
    readUnsignedInt (writeInt n ++ rest) = some (n % 2 ^ 32, rest) := by
  simp only [writeInt, List.cons_append, List.nil_append, readUnsignedInt, UInt8.toNat_ofNat',
    Option.some.injEq, Prod.mk.injEq, and_true]
  omega

/-- Netty's `LengthFieldPrepender` with a length field of four bytes. -/
def LengthFieldPrepender.encode (payload : Bytes) : Bytes := writeInt payload.length ++ payload

namespace LengthFieldBasedFrameDecoder

/-- What is decoded from the beginning of a stream. -/
inductive Decoded where
  /-- The frame has not come in full. -/
  | incomplete
  /-- A `TooLongFrameException`; the frame is skipped. -/
  | tooLong (rest : Bytes)
  | frame (payload rest : Bytes)
  deriving DecidableEq, Repr

/-- Netty's `LengthFieldBasedFrameDecoder(max, 0, 4, 0, 4)`. -/
def decode (max : ℕ) (stream : Bytes) : Decoded :=
  match readUnsignedInt stream with
  | none => .incomplete
  | some (length, rest) =>
    if max < 4 + length then .tooLong (rest.drop length)
    else if rest.length < length then .incomplete
    else .frame (rest.take length) (rest.drop length)

theorem decode_encode {max : ℕ} {payload : Bytes} (h : 4 + payload.length ≤ max)
    (hlength : payload.length < 2 ^ 32) (rest : Bytes) :
    decode max (LengthFieldPrepender.encode payload ++ rest) = .frame payload rest := by
  rw [decode, LengthFieldPrepender.encode, List.append_assoc, readUnsignedInt_writeInt,
    Nat.mod_eq_of_lt hlength]
  simp [Nat.not_lt.2 h]

/-- **What comes through**: a payload is decoded from its frame, wherever the frame is in a stream,
exactly if it fits with its prefix. -/
theorem decode_encode_iff {max : ℕ} (hmax : max < 2 ^ 32) {payload : Bytes} :
    (∀ rest, decode max (LengthFieldPrepender.encode payload ++ rest) = .frame payload rest) ↔
      4 + payload.length ≤ max := by
  refine ⟨fun h => ?_, fun h => decode_encode h (by omega)⟩
  have hframe := h []
  rw [decode, LengthFieldPrepender.encode, List.append_assoc, readUnsignedInt_writeInt] at hframe
  simp only at hframe
  split_ifs at hframe with hlong hshort
  -- the length that is read is that of the payload
  have hlength := congrArg List.length (Decoded.frame.inj hframe).1
  rw [List.append_nil, List.length_take] at hlength
  omega

end LengthFieldBasedFrameDecoder

end Linker
