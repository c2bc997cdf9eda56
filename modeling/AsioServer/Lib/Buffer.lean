/-
AsioServer.Lib.Buffer — a buffer whose accesses are checked.

A buffer is the list of its elements. `bufWrite` overwrites a range and
`bufRead` returns one; both answer `none` when the range does not lie inside.
A write keeps the size, and reading the range that was written gives back what
was written (`bufRead_bufWrite`).
-/
import Mathlib.Data.List.Basic

namespace AsioServer.Lib

variable {β : Type*}

/-- Overwrite the elements from `off` on. -/
def bufWrite (buf : List β) (off : Nat) (bs : List β) : Option (List β) :=
  if off + bs.length ≤ buf.length then
    some (buf.take off ++ bs ++ buf.drop (off + bs.length))
  else none

/-- The `n` elements from `off` on. -/
def bufRead (buf : List β) (off n : Nat) : Option (List β) :=
  if off + n ≤ buf.length then some ((buf.drop off).take n) else none

variable {buf buf' bs : List β} {off n : Nat}

theorem bufWrite_of_le (h : off + bs.length ≤ buf.length) :
    bufWrite buf off bs = some (buf.take off ++ bs ++ buf.drop (off + bs.length)) := if_pos h

theorem bufWrite_eq_none_iff : bufWrite buf off bs = none ↔ buf.length < off + bs.length := by
  unfold bufWrite
  split
  · next h => exact ⟨fun hnone => absurd hnone (by simp), fun hlt => absurd h (by omega)⟩
  · next h => exact ⟨fun _ => by omega, fun _ => rfl⟩

theorem bufRead_of_le (h : off + n ≤ buf.length) :
    bufRead buf off n = some ((buf.drop off).take n) := if_pos h

/-- A write keeps the size of the buffer. -/
theorem length_bufWrite (h : bufWrite buf off bs = some buf') : buf'.length = buf.length := by
  unfold bufWrite at h
  split at h
  · next hle =>
    obtain rfl := Option.some.inj h
    simp only [List.length_append, List.length_take, List.length_drop]
    omega
  · exact absurd h (by simp)

/-- Reading the range of a write gives back what was written. -/
theorem bufRead_bufWrite (h : bufWrite buf off bs = some buf') :
    bufRead buf' off bs.length = some bs := by
  have hlen := length_bufWrite h
  unfold bufWrite at h
  split at h
  · next hle =>
    have htake : (buf.take off).length = off := by
      rw [List.length_take]
      omega
    rw [bufRead_of_le (hlen ▸ hle), ← Option.some.inj h, List.append_assoc]
    rw [List.drop_left' htake, List.take_left]
  · exact absurd h (by simp)

end AsioServer.Lib
