import BusTestPlatform.Lib.XorShift
import BusTestPlatform.Software.SimStream

/-!
# The payload generator of `usb_device_sim.cpp`

The three steps of `read_frames` are an xorshift generator on 64 bits, so the state is never lost
and never 0. Nine bytes of the stream tell the state that they come from.
-/

namespace BusTestPlatform

namespace SimUsbDevice

lemma toBitVec_xorshift (x : UInt64) :
    (xorshift x).toBitVec = XorShift.next 13 7 17 x.toBitVec := rfl

lemma toBitVec_iterate_xorshift (n : ℕ) (x : UInt64) :
    (xorshift^[n] x).toBitVec = (XorShift.next 13 7 17)^[n] x.toBitVec :=
  Function.Semiconj.iterate_right toBitVec_xorshift n x

lemma xorshift_injective : Function.Injective xorshift := by
  intro x y h
  apply UInt64.toBitVec_inj.mp
  apply XorShift.next_injective (a := 13) (b := 7) (c := 17) (by decide) (by decide) (by decide)
  rw [← toBitVec_xorshift, ← toBitVec_xorshift, h]

lemma xorshift_eq_zero_iff {x : UInt64} : xorshift x = 0 ↔ x = 0 :=
  xorshift_injective.eq_iff' rfl

lemma iterate_xorshift_ne_zero {x : UInt64} (h : x ≠ 0) (n : ℕ) : xorshift^[n] x ≠ 0 := by
  have hzero : xorshift^[n] 0 = 0 := Function.iterate_fixed rfl n
  rw [← hzero]
  exact (xorshift_injective.iterate n).ne h

lemma start_ne_zero (cfg : SimConfig) : cfg.start ≠ 0 := by
  rw [SimConfig.start]
  split_ifs with h
  · exact h
  · decide

/-- **Payload generator.** A step is a permutation of the words that keeps 0 apart, so no device
ever comes to the state 0, and two devices that start in different states stay in different ones.
The state of a device is the one after as many steps as it has sent payload bytes. -/
theorem prng_never_degenerates :
    Function.Bijective xorshift ∧ (∀ x, xorshift x = 0 ↔ x = 0) ∧
    (∀ (cfg : SimConfig) (n : ℕ), xorshift^[n] cfg.start ≠ 0) ∧
    (∀ (cfg cfg' : SimConfig) (n : ℕ), cfg.start ≠ cfg'.start →
      xorshift^[n] cfg.start ≠ xorshift^[n] cfg'.start) ∧
    ∀ (cfg : SimConfig) (cs : List Call) (fs : List BusFrame) (d : SimUsbDevice),
      (new cfg).calls cs = some (fs, d) → d.prngState = xorshift^[payloadBytes fs] cfg.start := by
  refine ⟨Finite.injective_iff_bijective.mp xorshift_injective, fun x => xorshift_eq_zero_iff,
    fun cfg n => iterate_xorshift_ne_zero (start_ne_zero cfg) n, ?_, ?_⟩
  · intro cfg cfg' n h
    exact (xorshift_injective.iterate n).ne h
  · intro cfg cs fs d hrun
    exact (calls_spec hrun).2

/-! ### Reading the state off the payload -/

/-- The words that put the state together from the bits of the next nine bytes. -/
def columns : List (List (BitVec 64)) := [
  [0x3a6b0437928f8951, 0x2cc891663d14767a, 0xb0c89938a9ec0c4b, 0x89faae98b85dbc4b,
   0x054615757bef8425, 0x499d79ce9ae1a590, 0x7d5e2d84609869c0, 0x38127b0324fde161],
  [0x733c13523d2a8edf, 0x5df46c0f7ca0dbf6, 0xba0d5f68b9618cc7, 0xeb2666cc56946512,
   0x0b88938f6ed1d45d, 0x0b9e4a5c01ded3d4, 0x9c365afd150f4bd1, 0xb3b0c492a4abac7c],
  [0x59639570dcd77f90, 0x890bd56712075919, 0x1be14be3441c349e, 0x1a7efd801304d92d,
   0x33fdf472ab5f1d80, 0xcd6b9ddb1cacde0e, 0xd4f1c493abaeace6, 0x880383dc78587d46],
  [0xd996ef810217cdc5, 0xb7f720aa6da6bd70, 0x5c48dab62aaf33f2, 0xd854cdedfe0c75ce,
   0x92da666d33c87a17, 0xb67141887566d475, 0x674acd3c47bbcbbf, 0xa9ac38b6d221e806],
  [0x596dbff37c4765a3, 0xb414790469695e9e, 0x3a5f39618826e9ff, 0xf411ad49e26d7244,
   0x3a37aa943ecb15a4, 0xdeeab051ad39acfc, 0x3a18e778ded9b294, 0xcf784df90606deb3],
  [0x721b850f86bef507, 0x06ef22cdf2fc8654, 0x16d797343fbf0ef1, 0x9efb3dda0b8c5daa,
   0x12af427ff5328fe8, 0x01e92959f9c432f2, 0xaf2bbd9f0c74b5ac, 0xc84d233e05477a42],
  [0x7f709b3c1b257250, 0x2e78411f2a3be255, 0x34bef7b88f95daac, 0xb6730d4a96a08d48,
   0xabcb7b321f674559, 0x32ca5dd407eb3357, 0xc0f816b15bb0374f, 0x3233414eca8e70a0],
  [0x1bc97eaeed7ee58b, 0x8449af150b35c470, 0x5d2778eaa9a0ea1d, 0x45e89e1b152a6d83,
   0x3ef0ef4e67b0a3c0, 0x98145e92d8ace57d, 0x004fb41eba16abe8],
  [0, 0, 0, 0,
   0, 0, 0xc778cd684b9c8f76]]

/-- They do so for every state with a single bit. -/
lemma decode_twoPow : ∀ i < 64, XorShift.decode (XorShift.next 13 7 17)
    (fun x => XorShift.next 13 7 17 x >>> 56) columns (BitVec.twoPow 64 i) =
      BitVec.twoPow 64 i := by
  decide +kernel

/-- The top byte of a word. -/
lemma shiftRight_eq_of_toUInt8_eq {x y : UInt64} (h : (x >>> 56).toUInt8 = (y >>> 56).toUInt8) :
    x >>> 56 = y >>> 56 := by
  have hlt : ∀ z : UInt64, (z >>> 56).toNat < 2 ^ 8 := by
    intro z
    have hz := UInt64.toNat_lt z
    rw [UInt64.toNat_shiftRight, Nat.shiftRight_eq_div_pow]
    exact Nat.div_lt_of_lt_mul hz
  rw [← UInt8.toNat_inj, UInt64.toNat_toUInt8, UInt64.toNat_toUInt8, Nat.mod_eq_of_lt (hlt x),
    Nat.mod_eq_of_lt (hlt y)] at h
  exact UInt64.toNat_inj.mp h

/-- Streams that begin with the same nine bytes come from the same state. -/
theorem eq_of_xorshiftByte_eq {p q : UInt64} (h : ∀ j < 9, xorshiftByte p j = xorshiftByte q j) :
    p = q := by
  apply UInt64.toBitVec_inj.mp
  apply XorShift.eq_of_outputs_eq XorShift.next_linear
    ((XorShift.linear_ushiftRight 56).comp XorShift.next_linear) decode_twoPow
  intro j hj
  have hbyte := congrArg UInt64.toBitVec (shiftRight_eq_of_toUInt8_eq (h j hj))
  rw [Function.iterate_succ_apply', Function.iterate_succ_apply'] at hbyte
  rw [← toBitVec_iterate_xorshift, ← toBitVec_iterate_xorshift]
  exact hbyte

end SimUsbDevice

end BusTestPlatform
