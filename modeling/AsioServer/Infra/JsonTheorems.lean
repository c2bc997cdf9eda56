/-
AsioServer.Infra.JsonTheorems — which values `dump` can write.

`dump` throws for a string that is not UTF-8 and for nothing else
(`isSome_text`). What `get<std::string>` and `at` take out of a parsed value is
UTF-8 again.

The text of an integer determines it (`integerText_injective`) and has no other
bytes than digits and the sign.
-/
import Mathlib.Logic.Function.Basic
import AsioServer.Infra.Json

namespace AsioServer.Infra

open AsioServer.Core

theorem isSome_quoted (s : Bytes) : (quoted s).isSome = isUtf8 s := by
  unfold quoted
  split
  · next h => simp [h]
  · next h => simp [h]

mutual

/-- **`dump` succeeds exactly on the values whose strings are all UTF-8.** -/
theorem isSome_text (lib : JsonLib) (step : Option Nat) (cur : Nat) : ∀ j : Json,
    (j.text lib step cur).isSome = j.isText
  | .null | .boolean _ | .integer _ | .float _ => rfl
  | .string s => isSome_quoted s
  | .array items => by
      rw [Json.text, Option.isSome_map, isSome_textItems]
      rfl
  | .object fields => by
      rw [Json.text, Option.isSome_map, isSome_textFields]
      rfl

theorem isSome_textItems (lib : JsonLib) (step : Option Nat) (cur : Nat) : ∀ items : List Json,
    (textItems lib step cur items).isSome = isTextItems items
  | [] => rfl
  | j :: items => by
      have hj := isSome_text lib step cur j
      have hitems := isSome_textItems lib step cur items
      rw [textItems, isTextItems, ← hj, ← hitems]
      cases j.text lib step cur with
      | none => rfl
      | some member => cases textItems lib step cur items <;> rfl

theorem isSome_textFields (lib : JsonLib) (step : Option Nat) (cur : Nat) :
    ∀ fields : List (Bytes × Json), (textFields lib step cur fields).isSome = isTextFields fields
  | [] => rfl
  | (key, j) :: fields => by
      have hkey := isSome_quoted key
      have hj := isSome_text lib step cur j
      have hfields := isSome_textFields lib step cur fields
      rw [textFields, isTextFields, ← hkey, ← hj, ← hfields]
      cases quoted key with
      | none => rfl
      | some name =>
          cases j.text lib step cur with
          | none => rfl
          | some value => cases textFields lib step cur fields <;> rfl

end

theorem dump4_eq_some_iff {lib : JsonLib} {j : Json} :
    (∃ text, j.dump4 lib = some text) ↔ j.isText = true := by
  rw [← isSome_text lib (some 4) 0 j, Option.isSome_iff_exists]
  rfl

/-! ## What is taken out of a value -/

theorem isText_of_lookup {fields : List (Bytes × Json)} {key : Bytes} {j : Json}
    (h : isTextFields fields = true) (hj : fields.lookup key = some j) : j.isText = true := by
  induction fields with
  | nil => simp at hj
  | cons field fields ih =>
      obtain ⟨name, member⟩ := field
      simp only [isTextFields, Bool.and_eq_true] at h
      rw [List.lookup_cons] at hj
      split at hj
      · obtain rfl := Option.some.inj hj
        exact h.2.1
      · exact ih h.2.2 hj

theorem isText_of_atKey {j member : Json} {key : Bytes} (h : j.isText = true)
    (hmember : j.atKey key = some member) : member.isText = true := by
  cases j with
  | object fields => exact isText_of_lookup h hmember
  | null | boolean | integer | float | string | array => simp [Json.atKey] at hmember

theorem isUtf8_of_getString {j : Json} {s : Bytes} (h : j.isText = true)
    (hs : j.getString = some s) : isUtf8 s = true := by
  cases j with
  | string s =>
      obtain rfl := Option.some.inj hs
      exact h
  | null | boolean | integer | float | array | object => simp [Json.getString] at hs

/-! ## The text of an integer -/

/-- The number that a string of decimal digits stands for, after the digits of `n`. -/
def decimal (n : Nat) (text : Bytes) : Nat :=
  text.foldl (fun v b => 10 * v + (b.toNat - 48)) n

theorem toNat_digit (n : Nat) : ((48 + n % 10).toUInt8).toNat = 48 + n % 10 := by
  have hlt : n % 10 < 10 := Nat.mod_lt n (by decide)
  rw [Nat.toUInt8, UInt8.toNat_ofNat']
  exact Nat.mod_eq_of_lt (by omega)

/-- Reading the digits of a number goes on as if it had been read. -/
theorem decimal_digits {fuel n : Nat} (h : n < fuel) (acc : Bytes) :
    decimal 0 (digits fuel n acc) = decimal n acc := by
  induction fuel generalizing n acc with
  | zero => omega
  | succ fuel ih =>
      simp only [digits]
      split
      · next hlt =>
        have hn : 10 * 0 + (48 + n % 10 - 48) = n := by omega
        simp only [decimal, List.foldl_cons, toNat_digit, hn]
      · next hge =>
        have hn : 10 * (n / 10) + (48 + n % 10 - 48) = n := by omega
        rw [ih (by omega)]
        simp only [decimal, List.foldl_cons, toNat_digit, hn]

/-- The bytes of decimal digits. -/
def isDigit (b : UInt8) : Bool := 48 ≤ b.toNat && b.toNat ≤ 57

theorem isDigit_of_mem_digits {fuel n : Nat} {acc : Bytes} (hacc : ∀ b ∈ acc, isDigit b = true) :
    ∀ b ∈ digits fuel n acc, isDigit b = true := by
  induction fuel generalizing n acc with
  | zero => exact hacc
  | succ fuel ih =>
      have hcons : ∀ b ∈ (48 + n % 10).toUInt8 :: acc, isDigit b = true := by
        intro b hb
        rcases List.mem_cons.mp hb with rfl | hb
        · rw [isDigit, toNat_digit]
          simp only [Bool.and_eq_true, decide_eq_true_eq]
          omega
        · exact hacc b hb
      simp only [digits]
      split
      · exact hcons
      · exact ih hcons

/-- The minus sign in front of a negative number is no digit. -/
theorem mem_integerText {i : Int} {b : UInt8} (hb : b ∈ integerText i) :
    isDigit b = true ∨ b = 0x2D := by
  have hdigits : ∀ b ∈ digits (i.natAbs + 1) i.natAbs [], isDigit b = true :=
    isDigit_of_mem_digits (by simp)
  unfold integerText at hb
  split at hb
  · rcases List.mem_append.mp hb with hb | hb
    · exact Or.inr (by simpa [ascii] using hb)
    · exact Or.inl (hdigits b hb)
  · exact Or.inl (hdigits b hb)

/-- **The text of an integer determines it.** -/
theorem integerText_injective : Function.Injective integerText := by
  have hdecimal : ∀ i : Int, decimal 0 (digits (i.natAbs + 1) i.natAbs []) = i.natAbs := by
    intro i
    rw [decimal_digits (Nat.lt_succ_self _)]
    rfl
  -- a text that begins with a digit is not one that begins with the sign
  have hsign : ∀ i j : Int, ascii "-" ++ digits (i.natAbs + 1) i.natAbs [] ≠
      digits (j.natAbs + 1) j.natAbs [] := by
    intro i j heq
    have hmem : (0x2D : UInt8) ∈ digits (j.natAbs + 1) j.natAbs [] := by
      rw [← heq]
      simp [ascii]
    have hdigit : isDigit 0x2D = true := isDigit_of_mem_digits (by simp) _ hmem
    exact absurd hdigit (by decide)
  intro i j h
  unfold integerText at h
  split at h
  · next hi =>
    split at h
    · next hj =>
      have habs := congrArg (decimal 0) (List.append_cancel_left h)
      rw [hdecimal, hdecimal] at habs
      omega
    · exact absurd h (hsign i j)
  · next hi =>
    split at h
    · exact absurd h.symm (hsign j i)
    · next hj =>
      have habs := congrArg (decimal 0) h
      rw [hdecimal, hdecimal] at habs
      omega

/-- A library that parses the texts of a table. -/
def JsonLib.ofTable (table : List (Bytes × Json)) (h : ∀ e ∈ table, e.2.isText = true) :
    JsonLib where
  parse b := table.lookup b
  floatText _ := []
  parse_isText := by
    intro b j hj
    obtain ⟨l₁, l₂, rfl, -⟩ := List.lookup_eq_some_iff.mp hj
    exact h (b, j) (by simp)

/-! ## Narrowing -/

/-- Narrowing to `int` on the way to `uint16_t` changes nothing. -/
theorem toUInt16_toInt32 (i : Int) : Json.toUInt16 (Json.toInt32 i) = Json.toUInt16 i := by
  have hword : Json.toInt32 i = i.bmod (2 ^ 32) := by
    rw [Json.toInt32, BitVec.toInt_ofInt]
  have hdvd : i.bmod (2 ^ 32) % 65536 = i % 65536 := by
    rw [Int.bmod_def]
    split <;> omega
  rw [hword]
  exact hdvd

end AsioServer.Infra
