/-
AsioServer.Lib.Words — machine words as byte strings, in either byte order.

`bytesLE n x` are the `n` low bytes of `x`, least significant first, and
`ofBytesLE` reads such a string back; both directions are proved exact. A host
of byte order `e` keeps a word in memory as `store e n x` and reads it with
`load e`. `hostToNetwork e n` is what the socket library's conversion does on
that host: swap the bytes on a little-endian one, nothing on a big-endian one.

`store_hostToNetwork` and `networkToHost_load` are the two facts a wire format
rests on: after the conversion the memory image no longer depends on the host,
and it is the big-endian one.
-/
import Mathlib.Data.List.Basic
import Mathlib.Tactic.Ring

namespace AsioServer.Lib

/-- The byte order of a host. -/
inductive Endian where
  | little
  | big
  deriving DecidableEq, Repr

/-! ## Byte strings of a fixed width -/

/-- The `n` low bytes of `x`, least significant first. -/
def bytesLE : Nat → Nat → List UInt8
  | 0, _ => []
  | n + 1, x => UInt8.ofNat x :: bytesLE n (x / 256)

/-- The number a little-endian byte string stands for. -/
def ofBytesLE : List UInt8 → Nat
  | [] => 0
  | b :: bs => b.toNat + 256 * ofBytesLE bs

@[simp] theorem length_bytesLE (n x : Nat) : (bytesLE n x).length = n := by
  induction n generalizing x with
  | zero => rfl
  | succ n ih => simp [bytesLE, ih]

/-- Writing `n` bytes and reading them back keeps the number modulo `256 ^ n`. -/
theorem ofBytesLE_bytesLE (n x : Nat) : ofBytesLE (bytesLE n x) = x % 256 ^ n := by
  induction n generalizing x with
  | zero => simp [bytesLE, ofBytesLE, Nat.mod_one]
  | succ n ih =>
      have hb : (UInt8.ofNat x).toNat = x % 256 := UInt8.toNat_ofNat'
      rw [bytesLE, ofBytesLE, ih, hb, Nat.pow_succ', Nat.mod_mul]

theorem ofBytesLE_bytesLE_of_lt {n x : Nat} (h : x < 256 ^ n) :
    ofBytesLE (bytesLE n x) = x := by
  rw [ofBytesLE_bytesLE, Nat.mod_eq_of_lt h]

theorem ofBytesLE_lt (bs : List UInt8) : ofBytesLE bs < 256 ^ bs.length := by
  induction bs with
  | nil => simp [ofBytesLE]
  | cons b bs ih =>
      have hb : b.toNat < 256 := b.toNat_lt
      simp only [ofBytesLE, List.length_cons, Nat.pow_succ]
      omega

/-- Reading a byte string and writing the number back gives the string. -/
theorem bytesLE_ofBytesLE (bs : List UInt8) : bytesLE bs.length (ofBytesLE bs) = bs := by
  induction bs with
  | nil => rfl
  | cons b bs ih =>
      have hb : b.toNat < 256 := b.toNat_lt
      have hlow : UInt8.ofNat (b.toNat + 256 * ofBytesLE bs) = b := by
        apply UInt8.toNat_inj.mp
        rw [UInt8.toNat_ofNat']
        omega
      have hrest : (b.toNat + 256 * ofBytesLE bs) / 256 = ofBytesLE bs := by omega
      rw [List.length_cons, ofBytesLE, bytesLE, hlow, hrest, ih]

/-! ## Memory images and the conversion to network order -/

/-- The bytes of an `n`-byte word in the memory of a host. -/
def store (e : Endian) (n x : Nat) : List UInt8 :=
  match e with
  | .little => bytesLE n x
  | .big => (bytesLE n x).reverse

/-- The word a host reads from a byte string in its memory. -/
def load (e : Endian) (bs : List UInt8) : Nat :=
  match e with
  | .little => ofBytesLE bs
  | .big => ofBytesLE bs.reverse

theorem load_lt (e : Endian) (bs : List UInt8) : load e bs < 256 ^ bs.length := by
  cases e with
  | little => exact ofBytesLE_lt bs
  | big => simpa [load] using ofBytesLE_lt bs.reverse

/-- The bytes of an `n`-byte word in reverse order. -/
def byteSwap (n x : Nat) : Nat := ofBytesLE (bytesLE n x).reverse

/-- `host_to_network` on an `n`-byte word. -/
def hostToNetwork (e : Endian) (n x : Nat) : Nat :=
  match e with
  | .little => byteSwap n x
  | .big => x

/-- `network_to_host` on an `n`-byte word: the same permutation of bytes. -/
def networkToHost (e : Endian) (n x : Nat) : Nat := hostToNetwork e n x

@[simp] theorem length_store (e : Endian) (n x : Nat) : (store e n x).length = n := by
  cases e <;> simp [store]

theorem byteSwap_lt (n x : Nat) : byteSwap n x < 256 ^ n := by
  simpa [byteSwap] using ofBytesLE_lt (bytesLE n x).reverse

theorem hostToNetwork_lt {e : Endian} {n x : Nat} (h : x < 256 ^ n) :
    hostToNetwork e n x < 256 ^ n := by
  cases e with
  | little => exact byteSwap_lt n x
  | big => exact h

/-- Swapping the bytes of the number of a byte string reverses the string. -/
theorem byteSwap_ofBytesLE (bs : List UInt8) :
    byteSwap bs.length (ofBytesLE bs) = ofBytesLE bs.reverse := by
  rw [byteSwap, bytesLE_ofBytesLE]

theorem byteSwap_byteSwap {n x : Nat} (h : x < 256 ^ n) : byteSwap n (byteSwap n x) = x := by
  have hswap := byteSwap_ofBytesLE (bytesLE n x).reverse
  rw [List.length_reverse, length_bytesLE, List.reverse_reverse, ofBytesLE_bytesLE_of_lt h]
    at hswap
  exact hswap

/-- The conversion to network order is undone by the conversion back. -/
theorem networkToHost_hostToNetwork (e : Endian) {n x : Nat} (h : x < 256 ^ n) :
    networkToHost e n (hostToNetwork e n x) = x := by
  cases e with
  | little => exact byteSwap_byteSwap h
  | big => rfl

/-- **On every host the image of a converted word is the big-endian one.** -/
theorem store_hostToNetwork (e : Endian) (n x : Nat) :
    store e n (hostToNetwork e n x) = (bytesLE n x).reverse := by
  cases e with
  | little =>
      have h := bytesLE_ofBytesLE (bytesLE n x).reverse
      simpa [store, hostToNetwork, byteSwap] using h
  | big => rfl

/-- **On every host a received word converts to its big-endian reading.** -/
theorem networkToHost_load (e : Endian) (bs : List UInt8) :
    networkToHost e bs.length (load e bs) = ofBytesLE bs.reverse := by
  cases e with
  | little => exact byteSwap_ofBytesLE bs
  | big => rfl

end AsioServer.Lib
