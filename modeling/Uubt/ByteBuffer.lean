import Mathlib.Data.List.TakeDrop

namespace Uubt.ByteBuffer

structure Buffer (capacity : Nat) where
  bytes : List UInt8
  length_bytes : bytes.length = capacity

variable {n : Nat}

def Buffer.zero (n : Nat) : Buffer n := ⟨List.replicate n 0, List.length_replicate⟩

/-- Copy to the front of the buffer. What does not fit is lost; the memory
behind the buffer is not part of it. -/
def Buffer.memcpy (b : Buffer n) (src : List UInt8) : Buffer n :=
  ⟨(src ++ b.bytes.drop src.length).take n, by
    have h := b.length_bytes
    simp only [List.length_take, List.length_append, List.length_drop]
    omega⟩

def Buffer.read (b : Buffer n) (len : Nat) : List UInt8 := b.bytes.take len

@[simp]
theorem Buffer.length_read (b : Buffer n) (len : Nat) : (b.read len).length = min len n := by
  simp [Buffer.read, b.length_bytes]

/-- What is read back does not depend on what the buffer held before. -/
theorem Buffer.read_memcpy_eq_take (b : Buffer n) (src : List UInt8) :
    (b.memcpy src).read src.length = src.take n := by
  simp only [Buffer.read, Buffer.memcpy, List.take_take]
  rw [List.take_append_of_le_length (Nat.min_le_left _ _), Nat.min_comm]
  exact List.take_eq_take_min.symm

theorem Buffer.read_memcpy_take (b : Buffer n) (src : List UInt8) {size : Nat} (hs : size ≤ src.length) :
    (b.memcpy (src.take size)).read size = (src.take size).take n := by
  have hlen : (src.take size).length = size := by
    rw [List.length_take, Nat.min_eq_left hs]
  have hread := Buffer.read_memcpy_eq_take b (src.take size)
  rwa [hlen] at hread

theorem Buffer.read_memcpy (b : Buffer n) (src : List UInt8) (h : src.length ≤ n) :
    (b.memcpy src).read src.length = src := by
  rw [Buffer.read_memcpy_eq_take, List.take_of_length_le h]

end Uubt.ByteBuffer
