import BusTestPlatform.Lib.Bytes

/-!
# Bounded access

Reads, writes and copies that fail outside of a buffer, and sizes that wrap around. Code that does
the same with them as with the plain ones stays inside of its buffers.
-/

namespace Bytes

/-- `std::size_t` arithmetic. -/
def sizeT (n : ℕ) : ℕ := n % 2 ^ 64

/-- Read from a buffer of `size` bytes. -/
def readAt (size : ℕ) (m : Mem) (i : ℕ) : Option UInt8 := if i < size then some (m i) else none

/-- Write to a buffer of `size` bytes. -/
def writeAt (size : ℕ) (m : Mem) (i : ℕ) (b : UInt8) : Option Mem :=
  if i < size then some (set m i b) else none

/-- `memcpy` between two buffers. -/
def copyAt (dstSize : ℕ) (dst : Mem) (dstOff srcSize : ℕ) (src : Mem) (srcOff n : ℕ) :
    Option Mem :=
  if dstOff + n ≤ dstSize ∧ srcOff + n ≤ srcSize then some (memcpy dst dstOff src srcOff n)
  else none

lemma sizeT_of_lt {n : ℕ} (h : n < 2 ^ 64) : sizeT n = n := Nat.mod_eq_of_lt h

lemma readAt_of_lt {size i : ℕ} (h : i < size) (m : Mem) : readAt size m i = some (m i) :=
  if_pos h

lemma writeAt_of_lt {size i : ℕ} (h : i < size) (m : Mem) (b : UInt8) :
    writeAt size m i b = some (set m i b) :=
  if_pos h

lemma copyAt_of_le {dstSize dstOff srcSize srcOff n : ℕ} (hdst : dstOff + n ≤ dstSize)
    (hsrc : srcOff + n ≤ srcSize) (dst src : Mem) :
    copyAt dstSize dst dstOff srcSize src srcOff n = some (memcpy dst dstOff src srcOff n) :=
  if_pos ⟨hdst, hsrc⟩

end Bytes
