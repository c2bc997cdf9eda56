/-
AsioServer.Lib.Framing — streams of self-delimiting frames.

A `Framing` reads one message from the front of a stream, or says that the
stream does not hold a whole one, and always consumes something when it
succeeds. `decodeAll` repeats it and returns the messages with the undecoded
tail.

The two laws of a codec lift from one frame to whole streams. If reading undoes
writing in front of any continuation, `decodeAll_flatMap` recovers a list of
messages from the concatenation of their encodings. If whatever is read off
equals its encoding, `flatMap_decodeAll` gives back the stream from the
decoded messages and the tail.
-/
import Mathlib.Data.List.Basic

namespace AsioServer.Lib

/-- A reader of one message from the front of a stream. -/
structure Framing (β μ : Type*) where
  next : List β → Option (μ × List β)
  shrinks : ∀ {s m r}, next s = some (m, r) → r.length < s.length

namespace Framing

variable {β μ ν : Type*} (F : Framing β μ)

/-- Read messages until the stream holds no whole one; the fuel bounds their number. -/
def decodeFuel : Nat → List β → List μ × List β
  | 0, s => ([], s)
  | n + 1, s =>
      match F.next s with
      | none => ([], s)
      | some (m, r) => (m :: (decodeFuel n r).1, (decodeFuel n r).2)

/-- All messages of the stream and the tail that holds no whole one. Every
message takes at least one element, so the length is fuel enough. -/
def decodeAll (s : List β) : List μ × List β := F.decodeFuel s.length s

variable {F}

/-- An empty stream holds no message. -/
theorem next_nil : F.next [] = none := by
  cases hx : F.next [] with
  | none => rfl
  | some p => exact absurd (F.shrinks (m := p.1) (r := p.2) hx) (by simp)

theorem decodeFuel_nil (n : Nat) : F.decodeFuel n [] = ([], []) := by
  cases n with
  | zero => rfl
  | succ n => rw [decodeFuel, next_nil]

/-- Two fuels that both bound the length of the stream give the same answer. -/
theorem decodeFuel_congr : ∀ (k n : Nat) (s : List β), s.length ≤ k → s.length ≤ n →
    F.decodeFuel n s = F.decodeFuel k s
  | 0, n, s, hk, _ => by
      have hs : s = [] := List.length_eq_zero_iff.mp (by omega)
      rw [hs, decodeFuel_nil, decodeFuel_nil]
  | k + 1, 0, s, _, hn => by
      have hs : s = [] := List.length_eq_zero_iff.mp (by omega)
      rw [hs, decodeFuel_nil, decodeFuel_nil]
  | k + 1, n + 1, s, hk, hn => by
      rw [decodeFuel, decodeFuel]
      cases hx : F.next s with
      | none => rfl
      | some p =>
          have hlt := F.shrinks (m := p.1) (r := p.2) hx
          simp only [decodeFuel_congr k n p.2 (by omega) (by omega)]

theorem decodeFuel_eq {n : Nat} {s : List β} (h : s.length ≤ n) :
    F.decodeFuel n s = F.decodeAll s :=
  decodeFuel_congr s.length n s (Nat.le_refl _) h

theorem decodeAll_of_none {s : List β} (h : F.next s = none) : F.decodeAll s = ([], s) := by
  rw [decodeAll]
  cases s.length with
  | zero => rfl
  | succ n => rw [decodeFuel, h]

theorem decodeAll_of_some {s r : List β} {m : μ} (h : F.next s = some (m, r)) :
    F.decodeAll s = (m :: (F.decodeAll r).1, (F.decodeAll r).2) := by
  have hlt := F.shrinks h
  obtain ⟨n, hn⟩ := Nat.exists_eq_add_of_lt hlt
  have hr : F.decodeFuel (r.length + n) r = F.decodeAll r := decodeFuel_eq (by omega)
  rw [← decodeFuel_eq (F := F) (n := r.length + n + 1) (s := s) (by omega), decodeFuel, h]
  simp only [hr]

/-- Reading a stream to its end leaves a tail that holds no whole message. -/
theorem next_decodeAll_tail (s : List β) : F.next (F.decodeAll s).2 = none := by
  induction hn : s.length using Nat.strongRecOn generalizing s with
  | _ n ih =>
      cases hx : F.next s with
      | none => rw [decodeAll_of_none hx]; exact hx
      | some p =>
          have hlt := F.shrinks (m := p.1) (r := p.2) hx
          rw [decodeAll_of_some (m := p.1) (r := p.2) hx]
          exact ih p.2.length (by omega) p.2 rfl

/-- **Decoding the concatenated encodings of a list of messages.** If reading
undoes writing (up to `canon`) in front of every continuation, the stream
decodes to the messages in order and the tail is what follows them. -/
theorem decodeAll_flatMap {encode : ν → List β} {canon : ν → μ} {tail : List β} (ms : List ν)
    (hlaw : ∀ m ∈ ms, ∀ r, F.next (encode m ++ r) = some (canon m, r))
    (htail : F.next tail = none) :
    F.decodeAll (ms.flatMap encode ++ tail) = (ms.map canon, tail) := by
  induction ms with
  | nil => simpa using decodeAll_of_none htail
  | cons m ms ih =>
      have hm := hlaw m (by simp) (ms.flatMap encode ++ tail)
      have hms := ih fun m' hm' => hlaw m' (by simp [hm'])
      rw [List.flatMap_cons, List.append_assoc, decodeAll_of_some hm, hms]
      rfl

/-- **Decoding what has arrived so far.** If reading does not look behind the message that it
takes, a stream that goes on decodes to more messages, behind those it decoded to before. -/
theorem decodeAll_append (hlaw : ∀ s m r, F.next s = some (m, r) →
    ∀ x, F.next (s ++ x) = some (m, r ++ x)) (s x : List β) :
    (F.decodeAll s).1 <+: (F.decodeAll (s ++ x)).1 := by
  induction hn : s.length using Nat.strongRecOn generalizing s with
  | _ n ih =>
      cases hs : F.next s with
      | none =>
          rw [decodeAll_of_none hs]
          exact List.nil_prefix
      | some p =>
          obtain ⟨m, r⟩ := p
          have hlt := F.shrinks hs
          rw [decodeAll_of_some hs, decodeAll_of_some (hlaw s m r hs x)]
          exact List.cons_prefix_cons.mpr ⟨rfl, ih r.length (by omega) r rfl⟩

/-- **Encoding what was decoded gives back the stream.** If every message read
off the front of a stream is followed by exactly what its encoding is followed
by, the encodings of the decoded messages and the tail make up the stream. -/
theorem flatMap_decodeAll {encode : μ → List β}
    (hlaw : ∀ s m r, F.next s = some (m, r) → encode m ++ r = s) (s : List β) :
    (F.decodeAll s).1.flatMap encode ++ (F.decodeAll s).2 = s := by
  induction hn : s.length using Nat.strongRecOn generalizing s with
  | _ n ih =>
      cases hx : F.next s with
      | none => rw [decodeAll_of_none hx]; rfl
      | some p =>
          have hlt := F.shrinks (m := p.1) (r := p.2) hx
          rw [decodeAll_of_some (m := p.1) (r := p.2) hx, List.flatMap_cons, List.append_assoc,
            ih p.2.length (by omega) p.2 rfl]
          exact hlaw s p.1 p.2 hx

end Framing

end AsioServer.Lib
