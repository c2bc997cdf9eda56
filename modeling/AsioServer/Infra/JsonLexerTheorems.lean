/-
AsioServer.Infra.JsonLexerTheorems — what the lexer takes from its input.

A token takes a byte at least (`length_scan`), so the fuel of the loops is
enough. A NUL ends the input wherever the lexer meets it between two tokens, and
no token contains one: what stands behind a NUL is never looked at
(`tokens_nul`).

Whatever the lexer accepts as a string is UTF-8, also where it was put together
from escapes, and an integer fits into 64 bits (`fits_of_lexes`).
-/
import AsioServer.Lib.Table
import AsioServer.Infra.JsonLexer
import AsioServer.Infra.JsonTheorems

namespace AsioServer.Infra.Lexer

open AsioServer.Core AsioServer.Lib

/-! ## Every token takes a byte -/

theorem length_readDigits {factors : List Nat} {input rest : Bytes} {n : Nat}
    (h : readDigits factors input = some (n, rest)) : rest.length ≤ input.length := by
  induction factors generalizing input n rest with
  | nil =>
      obtain ⟨-, rfl⟩ := Prod.mk.inj (Option.some.inj h)
      exact Nat.le_refl _
  | cons factor factors ih =>
      cases input with
      | nil => exact absurd h (by simp [readDigits])
      | cons c input =>
          simp only [readDigits, Option.bind_eq_some_iff, Option.map_eq_some_iff] at h
          obtain ⟨digit, -, ⟨m, r⟩, hr, heq⟩ := h
          obtain ⟨-, rfl⟩ := Prod.mk.inj heq
          exact Nat.le_succ_of_le (ih hr)

theorem length_scanUnicode {input rest added : Bytes}
    (h : scanUnicode input = some (added, rest)) : rest.length ≤ input.length := by
  unfold scanUnicode at h
  obtain ⟨⟨n, r⟩, hn, h⟩ := Option.bind_eq_some_iff.mp h
  have hle := length_readDigits hn
  dsimp only at h
  split at h
  · split at h
    · obtain ⟨⟨m, r'⟩, hm, h⟩ := Option.bind_eq_some_iff.mp h
      have hle' := length_readDigits hm
      dsimp only at h
      split at h
      · obtain ⟨-, rfl⟩ := Prod.mk.inj (Option.some.inj h)
        simp only [List.length_drop] at hle'
        omega
      · exact absurd h (by simp)
    · exact absurd h (by simp)
  · split at h
    · exact absurd h (by simp)
    · obtain ⟨-, rfl⟩ := Prod.mk.inj (Option.some.inj h)
      exact hle

theorem length_nextByteInRange {ranges : List (UInt8 × UInt8)} {input added rest : Bytes}
    (h : nextByteInRange ranges input = some (added, rest)) : rest.length ≤ input.length := by
  induction ranges generalizing input added rest with
  | nil =>
      obtain ⟨-, rfl⟩ := Prod.mk.inj (Option.some.inj h)
      exact Nat.le_refl _
  | cons range ranges ih =>
      cases input with
      | nil => exact absurd h (by simp [nextByteInRange])
      | cons b input =>
          simp only [nextByteInRange] at h
          split at h
          · obtain ⟨⟨a, r⟩, hr, heq⟩ := Option.map_eq_some_iff.mp h
            obtain ⟨-, rfl⟩ := Prod.mk.inj heq
            exact Nat.le_succ_of_le (ih hr)
          · exact absurd h (by simp)

theorem length_scanChar {b : UInt8} {input added rest : Bytes}
    (h : scanChar b input = some (added, rest)) : rest.length ≤ input.length := by
  unfold scanChar at h
  split at h
  · cases input with
    | nil => exact absurd h (by simp [scanEscape])
    | cons c input =>
        simp only [scanEscape] at h
        split at h
        · exact Nat.le_succ_of_le (length_scanUnicode h)
        · obtain ⟨a, -, heq⟩ := Option.map_eq_some_iff.mp h
          obtain ⟨-, rfl⟩ := Prod.mk.inj heq
          exact Nat.le_succ _
  · split at h
    · exact absurd h (by simp)
    · split at h
      · obtain ⟨-, rfl⟩ := Prod.mk.inj (Option.some.inj h)
        exact Nat.le_refl _
      · obtain ⟨ranges, -, h⟩ := Option.bind_eq_some_iff.mp h
        obtain ⟨⟨a, r⟩, hr, heq⟩ := Option.map_eq_some_iff.mp h
        obtain ⟨-, rfl⟩ := Prod.mk.inj heq
        exact length_nextByteInRange hr

theorem length_scanString {fuel : Nat} {token s input rest : Bytes}
    (h : scanString fuel token input = some (s, rest)) : rest.length < input.length := by
  induction fuel generalizing token input with
  | zero => exact absurd h (by simp [scanString])
  | succ fuel ih =>
      cases input with
      | nil => exact absurd h (by simp [scanString])
      | cons b input =>
          rw [scanString] at h
          split at h
          · obtain ⟨-, rfl⟩ := Prod.mk.inj (Option.some.inj h)
            exact Nat.lt_succ_self _
          · obtain ⟨⟨a, r⟩, hr, h⟩ := Option.bind_eq_some_iff.mp h
            exact Nat.lt_succ_of_lt (Nat.lt_of_lt_of_le (ih h) (length_scanChar hr))

/-- The fuel of `scanString` does not matter when it covers the input. -/
theorem scanString_congr : ∀ {n m : Nat} {token input : Bytes}, input.length < n →
    input.length < m → scanString n token input = scanString m token input
  | n + 1, m + 1, token, [], _, _ => rfl
  | n + 1, m + 1, token, b :: input, hn, hm => by
      rw [scanString, scanString]
      split
      · rfl
      · cases hr : scanChar b input with
        | none => rfl
        | some r =>
            obtain ⟨added, rest⟩ := r
            have hle := length_scanChar hr
            simp only [List.length_cons] at hn hm
            rw [Option.bind_some, Option.bind_some]
            exact scanString_congr (Nat.lt_of_le_of_lt hle (Nat.lt_of_succ_lt_succ hn))
              (Nat.lt_of_le_of_lt hle (Nat.lt_of_succ_lt_succ hm))

theorem length_scanDigits {state : NumberState} {type type' : NumberType}
    {token token' input rest : Bytes}
    (h : scanDigits state type token input = some (type', token', rest)) :
    rest.length ≤ input.length := by
  induction input generalizing state type token with
  | nil =>
      simp only [scanDigits] at h
      split at h
      · obtain ⟨-, -, rfl⟩ := by simpa using h
        exact Nat.le_refl _
      · exact absurd h (by simp)
  | cons b input ih =>
      simp only [scanDigits] at h
      split at h
      · exact Nat.le_succ_of_le (ih h)
      · obtain ⟨-, -, rfl⟩ := by simpa using h
        exact Nat.le_refl _
      · exact absurd h (by simp)

/-- The first character of a number is part of it. -/
theorem scanDigits_init (b : UInt8) : ∃ state type, state ≠ .init ∧ ∀ input : Bytes,
    scanDigits .init .unsigned [] (b :: input) = scanDigits state type [b] input := by
  by_cases hminus : b = 0x2D
  · refine ⟨.minus, .integer, by decide, fun input => ?_⟩
    simp [scanDigits, NumberState.move, hminus, NumberState.type]
  · by_cases hzero : b = 0x30
    · refine ⟨.zero, .unsigned, by decide, fun input => ?_⟩
      simp [scanDigits, NumberState.move, hzero, NumberState.type]
    · refine ⟨.any1, .unsigned, by decide, fun input => ?_⟩
      simp [scanDigits, NumberState.move, hminus, hzero, NumberState.type]

theorem length_scanNumber {strtod : Bytes → Option Rat} {b : UInt8} {input rest : Bytes}
    {t : Token} (h : scanNumber strtod (b :: input) = (t, rest)) (ht : isLast t = false) :
    rest.length ≤ input.length := by
  obtain ⟨state, type, -, hinit⟩ := scanDigits_init b
  rw [scanNumber, hinit] at h
  split at h
  · next type' token r hr =>
    obtain ⟨-, rfl⟩ := Prod.mk.inj h
    exact length_scanDigits hr
  · obtain ⟨rfl, -⟩ := Prod.mk.inj h
    exact absurd ht (by decide)

/-! ### The branches of `scan` -/

section

variable {strtod : Bytes → Option Rat} {b : UInt8}

theorem scanToken_structural {t : Token} (h : structural.lookup b = some t) (input : Bytes) :
    scanToken strtod (b :: input) = (t, input) := by
  simp only [scanToken, h]

theorem scanToken_literal (hs : structural.lookup b = none) {text : Bytes} {t : Token}
    (hl : literals.lookup b = some (text, t)) (input : Bytes) :
    scanToken strtod (b :: input) = scanLiteral text t input := by
  simp only [scanToken, hs, hl]

/-- The token of a string whose closing quote is found or not. -/
def stringToken : Option (Bytes × Bytes) → Token × Bytes
  | some (s, rest) => (.valueString s, rest)
  | none => (.parseError, [])

theorem scanToken_quote (input : Bytes) : scanToken strtod (0x22 :: input) =
    stringToken (scanString (input.length + 1) [] input) := by
  have hs : structural.lookup 0x22 = none := by decide
  have hl : literals.lookup 0x22 = none := by decide
  simp only [scanToken, hs, hl, if_true]
  cases scanString (input.length + 1) [] input <;> rfl

theorem scanToken_other (hs : structural.lookup b = none) (hl : literals.lookup b = none)
    (hq : b ≠ 0x22) (input : Bytes) : scanToken strtod (b :: input) =
      if b = 0x2D ∨ isDecimal b then scanNumber strtod (b :: input)
      else if b = 0x00 then (.endOfInput, input) else (.parseError, []) := by
  simp only [scanToken, hs, hl, if_neg hq]

end

theorem length_scanToken {strtod : Bytes → Option Rat} {input rest : Bytes} {t : Token}
    (h : scanToken strtod input = (t, rest)) (ht : isLast t = false) :
    rest.length < input.length := by
  have hlast : t = .parseError ∨ t = .endOfInput → rest.length < input.length := by
    rintro (rfl | rfl) <;> exact absurd ht (by decide)
  cases input with
  | nil => exact hlast (Or.inr (Prod.mk.inj h).1.symm)
  | cons b input =>
      rw [List.length_cons, Nat.lt_succ_iff]
      rw [List.length_cons, Nat.lt_succ_iff] at hlast
      cases hs : structural.lookup b with
      | some token =>
          rw [scanToken_structural hs] at h
          exact (Prod.mk.inj h).2 ▸ Nat.le_refl _
      | none =>
          cases hl : literals.lookup b with
          | some r =>
              rw [scanToken_literal hs hl, scanLiteral] at h
              split at h
              · obtain ⟨-, rfl⟩ := Prod.mk.inj h
                simp
              · exact hlast (Or.inl (Prod.mk.inj h).1.symm)
          | none =>
              by_cases hq : b = 0x22
              · subst hq
                rw [scanToken_quote] at h
                cases hr : scanString (input.length + 1) [] input with
                | none =>
                    rw [hr] at h
                    exact hlast (Or.inl (Prod.mk.inj h).1.symm)
                | some r =>
                    rw [hr] at h
                    obtain ⟨-, rfl⟩ := Prod.mk.inj h
                    exact Nat.le_of_lt (length_scanString hr)
              · rw [scanToken_other hs hl hq] at h
                split at h
                · exact length_scanNumber h ht
                · split at h
                  · exact hlast (Or.inr (Prod.mk.inj h).1.symm)
                  · exact hlast (Or.inl (Prod.mk.inj h).1.symm)

theorem length_scan {strtod : Bytes → Option Rat} {input rest : Bytes} {t : Token}
    (h : scan strtod input = (t, rest)) (ht : isLast t = false) : rest.length < input.length := by
  have hle : (input.dropWhile isSpace).length ≤ input.length :=
    (List.dropWhile_suffix isSpace).length_le
  exact Nat.lt_of_lt_of_le (length_scanToken h ht) hle

/-! ## Tokens one after the other -/

/-- Scanning the input answers the tokens, none of which ends it, and leaves the rest. -/
inductive Lexes (strtod : Bytes → Option Rat) : Bytes → List Token → Bytes → Prop
  | nil {input : Bytes} : Lexes strtod input [] input
  | cons {input rest last : Bytes} {t : Token} {ts : List Token} :
      scan strtod input = (t, rest) → isLast t = false → Lexes strtod rest ts last →
        Lexes strtod input (t :: ts) last

variable {strtod : Bytes → Option Rat}

theorem Lexes.append {input rest last : Bytes} {ts us : List Token}
    (h : Lexes strtod input ts rest) (h' : Lexes strtod rest us last) :
    Lexes strtod input (ts ++ us) last := by
  induction h with
  | nil => exact h'
  | cons hscan ht _ ih => exact .cons hscan ht (ih h')

theorem Lexes.single {input rest : Bytes} {t : Token} (h : scan strtod input = (t, rest))
    (ht : isLast t = false) : Lexes strtod input [t] rest := .cons h ht .nil

theorem tokenize_congr : ∀ {n m : Nat} {input : Bytes}, input.length < n → input.length < m →
    tokenize strtod n input = tokenize strtod m input
  | n + 1, m + 1, input, hn, hm => by
      rw [tokenize, tokenize]
      cases hscan : scan strtod input with
      | mk t rest =>
          cases ht : isLast t with
          | true => simp [ht]
          | false =>
              have hlt := length_scan hscan ht
              simp only [ht, Bool.false_eq_true, if_false]
              rw [tokenize_congr (n := n) (m := m) (by omega) (by omega)]

/-- The tokens of an input, by its first one. -/
theorem tokens_eq {input rest : Bytes} {t : Token} (h : scan strtod input = (t, rest)) :
    tokens strtod input = if isLast t then [t] else t :: tokens strtod rest := by
  rw [tokens, tokenize, h]
  cases ht : isLast t with
  | true => simp [ht]
  | false =>
      have hlt := length_scan h ht
      simp only [ht, Bool.false_eq_true, if_false]
      rw [tokenize_congr (by omega) (Nat.lt_succ_self _)]
      rfl

theorem tokens_of_lexes {input rest : Bytes} {ts : List Token}
    (h : Lexes strtod input ts rest) : tokens strtod input = ts ++ tokens strtod rest := by
  induction h with
  | nil => rfl
  | cons hscan ht _ ih => rw [tokens_eq hscan, ht, ih]; rfl

/-- A part of the tokens that does not end the input was scanned from it. -/
theorem lexes_of_tokens {input : Bytes} {ts us : List Token}
    (h : tokens strtod input = ts ++ us) (hts : ∀ t ∈ ts, isLast t = false) :
    ∃ rest, Lexes strtod input ts rest ∧ tokens strtod rest = us := by
  induction ts generalizing input with
  | nil => exact ⟨input, .nil, h⟩
  | cons t ts ih =>
      cases hscan : scan strtod input with
      | mk u rest =>
          rw [tokens_eq hscan] at h
          cases hu : isLast u with
          | true =>
              simp only [hu, if_true, List.cons_append, List.cons.injEq] at h
              exact absurd (hts t List.mem_cons_self) (by simp [← h.1, hu])
          | false =>
              simp only [hu, Bool.false_eq_true, if_false, List.cons_append,
                List.cons.injEq] at h
              obtain ⟨rfl, h⟩ := h
              obtain ⟨last, hlexes, hlast⟩ := ih h fun t ht => hts t (List.mem_cons_of_mem _ ht)
              exact ⟨last, .cons hscan hu hlexes, hlast⟩

theorem head?_tokens (input : Bytes) :
    (tokens strtod input).head? = some (scan strtod input).1 := by
  have hscan : scan strtod input = ((scan strtod input).1, (scan strtod input).2) := rfl
  rw [tokens_eq hscan]
  split <;> rfl

/-! ## UTF-8 -/

/-- The bytes with which a character goes on in a state of the decoder. -/
def ranges : Utf8 → List (UInt8 × UInt8)
  | .accept | .reject => []
  | .one => [(0x80, 0xBF)]
  | .two => [(0x80, 0xBF), (0x80, 0xBF)]
  | .three => [(0x80, 0xBF), (0x80, 0xBF), (0x80, 0xBF)]
  | .afterE0 => [(0xA0, 0xBF), (0x80, 0xBF)]
  | .afterED => [(0x80, 0x9F), (0x80, 0xBF)]
  | .afterF0 => [(0x90, 0xBF), (0x80, 0xBF), (0x80, 0xBF)]
  | .afterF4 => [(0x80, 0x8F), (0x80, 0xBF), (0x80, 0xBF)]

/-- The lexer and the serializer expect the same bytes behind the first of a character. -/
theorem followers_eq_some_iff {b : UInt8} (h : 0x7F < b) {rs : List (UInt8 × UInt8)} :
    followers b = some rs ↔ Utf8.step .accept b ≠ .reject ∧ rs = ranges (.step .accept b) := by
  have hb : ¬ b ≤ 0x7F := UInt8.not_le.mpr h
  simp only [followers, Utf8.step, if_neg hb]
  split_ifs <;> simp [ranges, eq_comm]

theorem isUtf8_iff {s : Bytes} : isUtf8 s = true ↔ s.foldl Utf8.step .accept = .accept := by
  rw [isUtf8, beq_iff_eq]

theorem isUtf8_append {s t : Bytes} (hs : isUtf8 s = true) (ht : isUtf8 t = true) :
    isUtf8 (s ++ t) = true := by
  rw [isUtf8_iff] at *
  rw [List.foldl_append, hs, ht]

theorem foldl_reject (s : Bytes) : s.foldl Utf8.step .reject = .reject := by
  induction s with
  | nil => rfl
  | cons b s ih => exact ih

/-- A state inside a character takes one byte of its first range. -/
theorem step_of_ranges {q : Utf8} {range : UInt8 × UInt8} {rs : List (UInt8 × UInt8)}
    (h : ranges q = range :: rs) :
    ∃ q', q' ≠ .reject ∧ ranges q' = rs ∧ 0x80 ≤ range.1 ∧
      ∀ b, q.step b = Utf8.within range.1 range.2 b q' := by
  cases q with
  | accept | reject => exact absurd h (by simp [ranges])
  | one =>
      obtain ⟨rfl, rfl⟩ := List.cons.inj h
      exact ⟨.accept, by decide, rfl, by decide, fun _ => rfl⟩
  | two | afterE0 | afterED =>
      obtain ⟨rfl, rfl⟩ := List.cons.inj h
      exact ⟨.one, by decide, rfl, by decide, fun _ => rfl⟩
  | three | afterF0 | afterF4 =>
      obtain ⟨rfl, rfl⟩ := List.cons.inj h
      exact ⟨.two, by decide, rfl, by decide, fun _ => rfl⟩

/-- Between characters nothing is due. -/
theorem eq_accept_of_ranges {q : Utf8} (hq : q ≠ .reject) (h : ranges q = []) : q = .accept := by
  cases q with
  | accept => rfl
  | reject => exact absurd rfl hq
  | _ => exact absurd h (by simp [ranges])

/-- The bytes that `next_byte_in_range` takes complete the character. -/
theorem foldl_of_nextByteInRange {q : Utf8} (hq : q ≠ .reject) {input added rest : Bytes}
    (h : nextByteInRange (ranges q) input = some (added, rest)) :
    added.foldl Utf8.step q = .accept := by
  generalize hr : ranges q = rs at h
  induction rs generalizing q input added with
  | nil =>
      obtain ⟨rfl, -⟩ := Prod.mk.inj (Option.some.inj h)
      exact eq_accept_of_ranges hq hr
  | cons range rs ih =>
      obtain ⟨q', hq', hrs, -, hstep⟩ := step_of_ranges hr
      cases input with
      | nil => exact absurd h (by simp [nextByteInRange])
      | cons b input =>
          simp only [nextByteInRange] at h
          split at h
          · next hb =>
            obtain ⟨⟨a, r⟩, hnext, heq⟩ := Option.map_eq_some_iff.mp h
            obtain ⟨rfl, rfl⟩ := Prod.mk.inj heq
            rw [List.foldl_cons, hstep, Utf8.within, if_pos hb]
            exact ih hq' hrs hnext
          · exact absurd h (by simp)

/-- UTF-8 begins with the rest of the character, which `next_byte_in_range` takes. -/
theorem nextByteInRange_of_foldl {q : Utf8} {s : Bytes}
    (h : s.foldl Utf8.step q = .accept) :
    ∃ added s', s = added ++ s' ∧ isUtf8 s' = true ∧ (∀ b ∈ added, 0x80 ≤ b) ∧
      ∀ rest, nextByteInRange (ranges q) (added ++ rest) = some (added, rest) := by
  have hq : q ≠ .reject := by
    rintro rfl
    rw [foldl_reject] at h
    exact absurd h (by decide)
  generalize hr : ranges q = rs
  induction rs generalizing q s with
  | nil =>
      obtain rfl := eq_accept_of_ranges hq hr
      exact ⟨[], s, rfl, isUtf8_iff.mpr h, by simp, fun _ => rfl⟩
  | cons range rs ih =>
      obtain ⟨q', hq', hrs, hlo, hstep⟩ := step_of_ranges hr
      cases s with
      | nil =>
          obtain rfl : q = .accept := h
          exact absurd hr (by simp [ranges])
      | cons b s =>
          rw [List.foldl_cons, hstep, Utf8.within] at h
          split at h
          · next hb =>
            obtain ⟨added, s', rfl, hs', hadded, hnext⟩ := ih h hq' hrs
            refine ⟨b :: added, s', rfl, hs', ?_, fun rest => ?_⟩
            · intro c hc
              rcases List.mem_cons.mp hc with rfl | hc
              · exact UInt8.le_trans hlo hb.1
              · exact hadded c hc
            · rw [List.cons_append, nextByteInRange, if_pos hb, hnext]
              rfl
          · rw [foldl_reject] at h
            exact absurd h (by decide)

/-! ## Behind a NUL -/

/-- A result whose rest has more bytes behind it. -/
abbrev extend {α : Type} (e : Bytes) (r : α × Bytes) : α × Bytes := (r.1, r.2 ++ e)

variable {x : Bytes}

theorem isPrefixOf_nul {text : Bytes} (h : 0 ∉ text) (input : Bytes) :
    text.isPrefixOf (input ++ 0 :: x) = text.isPrefixOf input := by
  induction text generalizing input with
  | nil => rfl
  | cons c text ih =>
      have hc : (c == 0) = false := by
        rw [beq_eq_false_iff_ne]
        rintro rfl
        exact h List.mem_cons_self
      cases input with
      | nil => simp [List.isPrefixOf, hc]
      | cons b input =>
          simp only [List.cons_append, List.isPrefixOf]
          rw [ih fun hmem => h (List.mem_cons_of_mem _ hmem)]

/-- Behind a prefix nothing of what follows is dropped. -/
theorem drop_append_of_isPrefixOf {text input : Bytes} (h : text.isPrefixOf input = true)
    (e : Bytes) : (input ++ e).drop text.length = input.drop text.length ++ e :=
  List.drop_append_of_le_length (List.isPrefixOf_iff_prefix.mp h).length_le

theorem readDigits_nul (factors : List Nat) (input : Bytes) :
    readDigits factors (input ++ 0 :: x) =
      (readDigits factors input).map (extend (0 :: x)) := by
  induction factors generalizing input with
  | nil => rfl
  | cons factor factors ih =>
      cases input with
      | nil => rfl
      | cons c input =>
          rw [List.cons_append, readDigits, readDigits, ih]
          cases hexValue c with
          | none => rfl
          | some digit => cases readDigits factors input <;> rfl

theorem scanUnicode_nul (input : Bytes) :
    scanUnicode (input ++ 0 :: x) = (scanUnicode input).map (extend (0 :: x)) := by
  have hfree : 0 ∉ ascii "\\u" := by decide +kernel
  simp only [scanUnicode, getCodepoint, readDigits_nul]
  cases readDigits [12, 8, 4, 0] input with
  | none => rfl
  | some r =>
      obtain ⟨codepoint, rest⟩ := r
      simp only [Option.map_some, Option.bind_some, extend]
      rw [isPrefixOf_nul hfree]
      split
      · split
        · next hp =>
          have hdrop := drop_append_of_isPrefixOf hp (0 :: x)
          have hlen : (ascii "\\u").length = 2 := by decide +kernel
          rw [hlen] at hdrop
          rw [hdrop, readDigits_nul]
          cases readDigits [12, 8, 4, 0] (rest.drop 2) with
          | none => rfl
          | some r =>
              simp only [Option.map_some, Option.bind_some]
              split
              · rw [Option.map_some]
              · rfl
        · rfl
      · split
        · rfl
        · rw [Option.map_some]

theorem scanEscape_nul (input : Bytes) :
    scanEscape (input ++ 0 :: x) = (scanEscape input).map (extend (0 :: x)) := by
  cases input with
  | nil => rfl
  | cons c input =>
      rw [List.cons_append, scanEscape, scanEscape, scanUnicode_nul]
      split
      · rfl
      · cases letterEscapes.lookup c <;> rfl

/-- No byte that continues a character is a NUL. -/
theorem pos_of_mem_followers {b : UInt8} (h : 0x7F < b) {rs : List (UInt8 × UInt8)}
    (hrs : followers b = some rs) : ∀ range ∈ rs, 0 < range.1 := by
  have hall : ∀ q, (ranges q).all (fun range => 0 < range.1) = true := by
    intro q
    cases q <;> rfl
  obtain ⟨-, rfl⟩ := (followers_eq_some_iff h).mp hrs
  exact fun range hrange => of_decide_eq_true (List.all_eq_true.mp (hall _) range hrange)

theorem nextByteInRange_nul {ranges : List (UInt8 × UInt8)} (h : ∀ range ∈ ranges, 0 < range.1)
    (input : Bytes) : nextByteInRange ranges (input ++ 0 :: x) =
      (nextByteInRange ranges input).map (extend (0 :: x)) := by
  induction ranges generalizing input with
  | nil => rfl
  | cons range ranges ih =>
      obtain ⟨lo, hi⟩ := range
      have hlo : ¬ lo ≤ 0 := UInt8.not_le.mpr (h _ List.mem_cons_self)
      cases input with
      | nil => simp [nextByteInRange, hlo]
      | cons b input =>
          rw [List.cons_append, nextByteInRange, nextByteInRange,
            ih fun range hrange => h range (List.mem_cons_of_mem _ hrange)]
          split
          · cases nextByteInRange ranges input <;> rfl
          · rfl

theorem scanChar_nul (b : UInt8) (input : Bytes) :
    scanChar b (input ++ 0 :: x) = (scanChar b input).map (extend (0 :: x)) := by
  unfold scanChar
  rw [scanEscape_nul]
  split
  · rfl
  · split
    · rfl
    · split
      · rfl
      · cases hb : followers b with
        | none => rfl
        | some ranges =>
            simp only [Option.bind_some]
            rw [nextByteInRange_nul (pos_of_mem_followers (UInt8.not_le.mp ‹_›) hb)]
            cases nextByteInRange ranges input <;> rfl

theorem scanString_nul : ∀ (fuel : Nat) (token input : Bytes), input.length < fuel →
    scanString fuel token (input ++ 0 :: x) =
      (scanString fuel token input).map (extend (0 :: x))
  | fuel + 1, token, [], _ => by
      rfl
  | fuel + 1, token, b :: input, h => by
      rw [List.cons_append, scanString, scanString, scanChar_nul]
      split
      · rfl
      · cases hr : scanChar b input with
        | none => rfl
        | some r =>
            obtain ⟨added, rest⟩ := r
            have hle := length_scanChar hr
            simp only [List.length_cons] at h
            exact scanString_nul fuel (token ++ added) rest (by omega)

theorem move_nul {state : NumberState} (h : state ≠ .init) :
    state.move 0 = if state.final then .done else .error := by
  cases state with
  | init => exact absurd rfl h
  | _ => decide

theorem move_ne_init {b : UInt8} {state next : NumberState} (h : state.move b = .goto next) :
    next ≠ .init := by
  rintro rfl
  cases state <;> simp only [NumberState.move] at h <;> repeat' split at h
  all_goals exact absurd h (by simp)

theorem scanDigits_nul {state : NumberState} (hstate : state ≠ .init) (type : NumberType)
    (token input : Bytes) : scanDigits state type token (input ++ 0 :: x) =
      (scanDigits state type token input).map fun r => (r.1, r.2.1, r.2.2 ++ 0 :: x) := by
  induction input generalizing state type token with
  | nil =>
      rw [List.nil_append, scanDigits, scanDigits, move_nul hstate]
      cases state.final <;> rfl
  | cons b input ih =>
      rw [List.cons_append, scanDigits, scanDigits]
      split
      · next next hmove => exact ih (move_ne_init hmove) _ _
      · rfl
      · rfl

theorem scanNumber_nul {b : UInt8} {input rest : Bytes} {t : Token}
    (h : scanNumber strtod (b :: input) = (t, rest)) :
    ∃ rest', scanNumber strtod (b :: (input ++ 0 :: x)) = (t, rest') ∧
      (isLast t = false → rest' = rest ++ 0 :: x) := by
  obtain ⟨state, type, hstate, hinit⟩ := scanDigits_init b
  rw [scanNumber, hinit] at h
  rw [scanNumber, hinit, scanDigits_nul hstate]
  cases hr : scanDigits state type [b] input with
  | none =>
      simp only [hr, Prod.mk.injEq] at h
      obtain ⟨rfl, -⟩ := h
      exact ⟨[], rfl, fun ht => absurd ht (by decide)⟩
  | some r =>
      simp only [hr, Prod.mk.injEq] at h
      obtain ⟨rfl, rfl⟩ := h
      exact ⟨_, rfl, fun _ => rfl⟩

theorem not_mem_literal {b : UInt8} {text : Bytes} {t : Token}
    (h : literals.lookup b = some (text, t)) : 0 ∉ text := by
  have hall : literals.all (fun e => !e.2.1.contains 0) = true := by decide
  have hfree := List.all_eq_true.mp hall (b, text, t) (Table.mem_of_lookup h)
  simpa using hfree

theorem scanToken_nul {input rest : Bytes} {t : Token}
    (h : scanToken strtod input = (t, rest)) :
    ∃ rest', scanToken strtod (input ++ 0 :: x) = (t, rest') ∧
      (isLast t = false → rest' = rest ++ 0 :: x) := by
  have hlast : ∀ {rest' : Bytes}, isLast t = true →
      (isLast t = false → rest' = rest ++ 0 :: x) := fun ht hf => absurd hf (by simp [ht])
  cases input with
  | nil =>
      obtain ⟨rfl, -⟩ := Prod.mk.inj h
      exact ⟨x, rfl, hlast rfl⟩
  | cons b input =>
      rw [List.cons_append]
      cases hs : structural.lookup b with
      | some token =>
          rw [scanToken_structural hs] at h ⊢
          obtain ⟨rfl, rfl⟩ := Prod.mk.inj h
          exact ⟨_, rfl, fun _ => rfl⟩
      | none =>
          cases hl : literals.lookup b with
          | some r =>
              rw [scanToken_literal hs hl, scanLiteral] at h ⊢
              rw [isPrefixOf_nul (not_mem_literal hl)]
              split at h
              · next hp =>
                obtain ⟨rfl, rfl⟩ := Prod.mk.inj h
                rw [if_pos hp, drop_append_of_isPrefixOf hp]
                exact ⟨_, rfl, fun _ => rfl⟩
              · next hp =>
                obtain ⟨rfl, -⟩ := Prod.mk.inj h
                rw [if_neg hp]
                exact ⟨_, rfl, hlast rfl⟩
          | none =>
              by_cases hq : b = 0x22
              · subst hq
                have hlen : input.length < (input ++ 0 :: x).length + 1 := by
                  rw [List.length_append]
                  omega
                have hcongr : scanString ((input ++ 0 :: x).length + 1) [] (input ++ 0 :: x) =
                    (scanString (input.length + 1) [] input).map (extend (0 :: x)) := by
                  rw [scanString_nul _ _ _ hlen,
                    scanString_congr (m := input.length + 1) hlen (Nat.lt_succ_self _)]
                rw [scanToken_quote] at h ⊢
                rw [hcongr]
                cases hr : scanString (input.length + 1) [] input with
                | none =>
                    rw [hr] at h
                    obtain ⟨rfl, -⟩ := Prod.mk.inj h
                    exact ⟨_, rfl, hlast rfl⟩
                | some r =>
                    rw [hr] at h
                    obtain ⟨rfl, rfl⟩ := Prod.mk.inj h
                    exact ⟨_, rfl, fun _ => rfl⟩
              · rw [scanToken_other hs hl hq] at h ⊢
                split at h
                · next hnum =>
                  rw [if_pos hnum]
                  exact scanNumber_nul h
                · next hnum =>
                  rw [if_neg hnum]
                  split at h
                  · next hzero =>
                    obtain ⟨rfl, -⟩ := Prod.mk.inj h
                    rw [if_pos hzero]
                    exact ⟨_, rfl, hlast rfl⟩
                  · next hzero =>
                    obtain ⟨rfl, -⟩ := Prod.mk.inj h
                    rw [if_neg hzero]
                    exact ⟨_, rfl, hlast rfl⟩

theorem dropWhile_nul (input : Bytes) :
    (input ++ 0 :: x).dropWhile isSpace = input.dropWhile isSpace ++ 0 :: x := by
  induction input with
  | nil => rfl
  | cons b input ih =>
      rw [List.cons_append, List.dropWhile_cons, List.dropWhile_cons, ih]
      split <;> rfl

/-- **What stands behind a NUL is never looked at.** -/
theorem tokens_nul (input : Bytes) :
    tokens strtod (input ++ 0 :: x) = tokens strtod input := by
  induction hn : input.length using Nat.strongRecOn generalizing input with
  | _ n ih =>
      cases hscan : scan strtod input with
      | mk t rest =>
          obtain ⟨rest', hscan', hrest⟩ := scanToken_nul (x := x) hscan
          rw [← dropWhile_nul] at hscan'
          rw [tokens_eq hscan, tokens_eq hscan']
          cases ht : isLast t with
          | true => rfl
          | false =>
              have hlt := length_scan hscan ht
              rw [hrest ht, ih rest.length (by omega) rest rfl]

theorem skipBom_nul (input : Bytes) :
    skipBom (input ++ 0 :: x) = (skipBom input).map (· ++ 0 :: x) := by
  unfold skipBom
  rw [isPrefixOf_nul (by decide), isPrefixOf_nul (by decide)]
  split
  · split
    · next hmark => exact congrArg some (drop_append_of_isPrefixOf hmark (0 :: x))
    · rfl
  · rfl

/-! ## What a token holds -/

theorem hexValue_lt {b : UInt8} {n : Nat} (h : hexValue b = some n) : n < 16 := by
  unfold hexValue at h
  split at h
  · next hb =>
    obtain rfl := Option.some.inj h
    have hle : b.toNat ≤ 0x39 := UInt8.le_iff_toNat_le.mp hb.2
    omega
  · split at h
    · next hb =>
      obtain rfl := Option.some.inj h
      have hle : b.toNat ≤ 0x46 := UInt8.le_iff_toNat_le.mp hb.2
      omega
    · split at h
      · next hb =>
        obtain rfl := Option.some.inj h
        have hle : b.toNat ≤ 0x66 := UInt8.le_iff_toNat_le.mp hb.2
        omega
      · exact absurd h (by simp)

theorem getCodepoint_le {input rest : Bytes} {n : Nat} (h : getCodepoint input = some (n, rest)) :
    n ≤ 0xFFFF := by
  have hstep : ∀ {factor : Nat} {factors : List Nat} {input rest : Bytes} {n : Nat},
      readDigits (factor :: factors) input = some (n, rest) →
        ∃ d m input', d < 16 ∧ readDigits factors input' = some (m, rest) ∧
          n = d * 2 ^ factor + m := by
    intro factor factors input rest n h
    cases input with
    | nil => exact absurd h (by simp [readDigits])
    | cons c input =>
        simp only [readDigits, Option.bind_eq_some_iff, Option.map_eq_some_iff] at h
        obtain ⟨d, hd, ⟨m, r⟩, hr, heq⟩ := h
        obtain ⟨rfl, rfl⟩ := Prod.mk.inj heq
        exact ⟨d, m, input, hexValue_lt hd, hr, by rw [Nat.shiftLeft_eq]⟩
  obtain ⟨d1, m1, input1, hd1, h1, rfl⟩ := hstep h
  obtain ⟨d2, m2, input2, hd2, h2, rfl⟩ := hstep h1
  obtain ⟨d3, m3, input3, hd3, h3, rfl⟩ := hstep h2
  obtain ⟨d4, m4, input4, hd4, h4, rfl⟩ := hstep h3
  obtain ⟨rfl, -⟩ := Prod.mk.inj (Option.some.inj h4)
  omega

theorem isUtf8_ascii {b : UInt8} (h : b ≤ 0x7F) : isUtf8 [b] = true := by
  rw [isUtf8_iff]
  simp only [List.foldl_cons, List.foldl_nil, Utf8.step, if_pos h]

/-- A byte with the upper bits `hi` and the lower bits `n`. -/
theorem toNat_or {hi n i a : Nat} (hhi : hi = 2 ^ i * a) (hn : n < 2 ^ i) (hlt : hi + n < 256) :
    ((hi ||| n).toUInt8).toNat = hi + n := by
  rw [hhi, ← Nat.two_pow_add_eq_or_of_lt hn, ← hhi, Nat.toUInt8, UInt8.toNat_ofNat']
  exact Nat.mod_eq_of_lt hlt

/-- A byte that continues a character. -/
theorem toNat_tail (n : Nat) : ((0x80 ||| n % 0x40).toUInt8).toNat = 0x80 + n % 0x40 :=
  toNat_or (i := 7) (a := 1) rfl (by omega) (by omega)

/-- The first byte of a character, by its number. -/
theorem step_accept_eq (b : UInt8) : Utf8.step .accept b =
    if b.toNat ≤ 0x7F then .accept
    else if b.toNat < 0xC2 then .reject
    else if b.toNat ≤ 0xDF then .one
    else if b.toNat = 0xE0 then .afterE0
    else if b.toNat = 0xED then .afterED
    else if b.toNat ≤ 0xEF then .two
    else if b.toNat = 0xF0 then .afterF0
    else if b.toNat ≤ 0xF3 then .three
    else if b.toNat = 0xF4 then .afterF4
    else .reject := by
  simp only [Utf8.step, UInt8.le_iff_toNat_le, UInt8.lt_iff_toNat_lt, ← UInt8.toNat_inj]
  rfl

/-- A byte between the bounds goes on. -/
theorem within_of_toNat {lo hi b : UInt8} (l u : Nat) (q : Utf8) (hl : lo.toNat = l)
    (hu : hi.toNat = u) (h : l ≤ b.toNat ∧ b.toNat ≤ u) : Utf8.within lo hi b q = q :=
  if_pos ⟨UInt8.le_iff_toNat_le.mpr (hl ▸ h.1), UInt8.le_iff_toNat_le.mpr (hu ▸ h.2)⟩

theorem foldl_one (n : Nat) :
    [(0x80 ||| n % 0x40).toUInt8].foldl Utf8.step .one = .accept :=
  within_of_toNat 0x80 0xBF .accept rfl rfl (by rw [toNat_tail]; omega)

theorem foldl_two (m n : Nat) :
    [(0x80 ||| m % 0x40).toUInt8, (0x80 ||| n % 0x40).toUInt8].foldl Utf8.step .two =
      .accept := by
  have hfirst : Utf8.step .two (0x80 ||| m % 0x40).toUInt8 = .one :=
    within_of_toNat 0x80 0xBF .one rfl rfl (by rw [toNat_tail]; omega)
  rw [List.foldl_cons, hfirst, foldl_one]

/-- **The bytes of a code point are UTF-8**, when it is no surrogate. -/
theorem isUtf8_codepointBytes {n : Nat} (h : n ≤ 0x10FFFF) (hs : ¬ (0xD800 ≤ n ∧ n ≤ 0xDFFF)) :
    isUtf8 (codepointBytes n) = true := by
  unfold codepointBytes
  rw [isUtf8_iff, Nat.shiftRight_eq_div_pow, Nat.shiftRight_eq_div_pow, Nat.shiftRight_eq_div_pow]
  split
  · next h1 =>
    have hb : n.toUInt8.toNat = n := by
      rw [Nat.toUInt8, UInt8.toNat_ofNat']
      exact Nat.mod_eq_of_lt (by omega)
    rw [List.foldl_cons, List.foldl_nil, step_accept_eq, hb, if_pos (by omega)]
  · split
    · next h1 h2 =>
      have hlead : (0xC0 ||| n / 2 ^ 6).toUInt8.toNat = 0xC0 + n / 2 ^ 6 :=
        toNat_or (i := 6) (a := 3) rfl (by omega) (by omega)
      rw [List.foldl_cons, step_accept_eq, hlead, if_neg (by omega), if_neg (by omega),
        if_pos (by omega)]
      exact foldl_one n
    · split
      · next h1 h2 h3 =>
        have hlead : (0xE0 ||| n / 2 ^ 12).toUInt8.toNat = 0xE0 + n / 2 ^ 12 :=
          toNat_or (i := 5) (a := 7) rfl (by omega) (by omega)
        have hnext := toNat_tail (n / 2 ^ 6)
        rw [List.foldl_cons, step_accept_eq, hlead, if_neg (by omega), if_neg (by omega),
          if_neg (by omega)]
        split
        · next hE0 =>
          have hfirst : Utf8.step .afterE0 (0x80 ||| n / 2 ^ 6 % 0x40).toUInt8 = .one :=
            within_of_toNat 0xA0 0xBF .one rfl rfl (by rw [hnext]; omega)
          rw [List.foldl_cons, hfirst, foldl_one]
        · split
          · next hED =>
            have hfirst : Utf8.step .afterED (0x80 ||| n / 2 ^ 6 % 0x40).toUInt8 = .one :=
              within_of_toNat 0x80 0x9F .one rfl rfl (by rw [hnext]; omega)
            rw [List.foldl_cons, hfirst, foldl_one]
          · rw [if_pos (by omega), foldl_two]
      · next h1 h2 h3 =>
        have hlead : (0xF0 ||| n / 2 ^ 18).toUInt8.toNat = 0xF0 + n / 2 ^ 18 :=
          toNat_or (i := 4) (a := 15) rfl (by omega) (by omega)
        have hnext := toNat_tail (n / 2 ^ 12)
        rw [List.foldl_cons, step_accept_eq, hlead, if_neg (by omega), if_neg (by omega),
          if_neg (by omega), if_neg (by omega), if_neg (by omega), if_neg (by omega)]
        split
        · next hF0 =>
          have hfirst : Utf8.step .afterF0 (0x80 ||| n / 2 ^ 12 % 0x40).toUInt8 = .two :=
            within_of_toNat 0x90 0xBF .two rfl rfl (by rw [hnext]; omega)
          rw [List.foldl_cons, hfirst, foldl_two]
        · split
          · next hF3 =>
            have hfirst : Utf8.step .three (0x80 ||| n / 2 ^ 12 % 0x40).toUInt8 = .two :=
              within_of_toNat 0x80 0xBF .two rfl rfl (by rw [hnext]; omega)
            rw [List.foldl_cons, hfirst, foldl_two]
          · next hF3 =>
            have hfirst : Utf8.step .afterF4 (0x80 ||| n / 2 ^ 12 % 0x40).toUInt8 = .two :=
              within_of_toNat 0x80 0x8F .two rfl rfl (by rw [hnext]; omega)
            rw [if_pos (by omega), List.foldl_cons, hfirst, foldl_two]

theorem isUtf8_scanUnicode {input added rest : Bytes}
    (h : scanUnicode input = some (added, rest)) : isUtf8 added = true := by
  unfold scanUnicode at h
  obtain ⟨⟨n, r⟩, hn, h⟩ := Option.bind_eq_some_iff.mp h
  have hle := getCodepoint_le hn
  dsimp only at h
  split at h
  · next hhigh =>
    split at h
    · obtain ⟨⟨m, r'⟩, hm, h⟩ := Option.bind_eq_some_iff.mp h
      dsimp only at h
      split at h
      · next hlow =>
        obtain ⟨rfl, -⟩ := Prod.mk.inj (Option.some.inj h)
        rw [Nat.shiftLeft_eq]
        exact isUtf8_codepointBytes (by omega) (by omega)
      · exact absurd h (by simp)
    · exact absurd h (by simp)
  · split at h
    · exact absurd h (by simp)
    · obtain ⟨rfl, -⟩ := Prod.mk.inj (Option.some.inj h)
      exact isUtf8_codepointBytes (by omega) (by omega)

theorem isUtf8_letterEscape {b c : UInt8} (h : letterEscapes.lookup b = some c) :
    isUtf8 [c] = true := by
  have hall : letterEscapes.all (fun e => isUtf8 [e.2]) = true := by decide
  exact List.all_eq_true.mp hall (b, c) (Table.mem_of_lookup h)

theorem isUtf8_scanChar {b : UInt8} {input added rest : Bytes}
    (h : scanChar b input = some (added, rest)) : isUtf8 added = true := by
  unfold scanChar at h
  split at h
  · cases input with
    | nil => exact absurd h (by simp [scanEscape])
    | cons c input =>
        simp only [scanEscape] at h
        split at h
        · exact isUtf8_scanUnicode h
        · obtain ⟨a, ha, heq⟩ := Option.map_eq_some_iff.mp h
          obtain ⟨rfl, -⟩ := Prod.mk.inj heq
          exact isUtf8_letterEscape ha
  · split at h
    · exact absurd h (by simp)
    · split at h
      · next hb =>
        obtain ⟨rfl, -⟩ := Prod.mk.inj (Option.some.inj h)
        exact isUtf8_ascii hb
      · next hb =>
        obtain ⟨rs, hrs, h⟩ := Option.bind_eq_some_iff.mp h
        obtain ⟨⟨a, r⟩, hnext, heq⟩ := Option.map_eq_some_iff.mp h
        obtain ⟨rfl, -⟩ := Prod.mk.inj heq
        obtain ⟨hne, rfl⟩ := (followers_eq_some_iff (UInt8.not_le.mp hb)).mp hrs
        exact isUtf8_iff.mpr (foldl_of_nextByteInRange hne hnext)

/-- **What the lexer accepts as a string is UTF-8.** -/
theorem isUtf8_scanString {fuel : Nat} {token s input rest : Bytes} (htoken : isUtf8 token = true)
    (h : scanString fuel token input = some (s, rest)) : isUtf8 s = true := by
  induction fuel generalizing token input with
  | zero => exact absurd h (by simp [scanString])
  | succ fuel ih =>
      cases input with
      | nil => exact absurd h (by simp [scanString])
      | cons b input =>
          rw [scanString] at h
          split at h
          · exact (Prod.mk.inj (Option.some.inj h)).1 ▸ htoken
          · obtain ⟨⟨added, r⟩, hr, h⟩ := Option.bind_eq_some_iff.mp h
            exact ih (isUtf8_append htoken (isUtf8_scanChar hr)) h

/-- A token whose string is UTF-8, whose integer fits into 64 bits, and whose
floating-point number is a result of `strtod`. -/
def Fits (strtod : Bytes → Option Rat) : Token → Prop
  | .valueString s => isUtf8 s = true
  | .valueUnsigned n => n < 2 ^ 64
  | .valueInteger i => -2 ^ 63 ≤ i ∧ i ≤ 0
  | .valueFloat q => ∃ text, strtod text = q
  | _ => True

theorem fits_convert (type : NumberType) (token : Bytes) :
    Fits strtod (convert strtod type token) := by
  cases type with
  | unsigned =>
      simp only [convert]
      split
      · next h => exact h
      · exact ⟨token, rfl⟩
  | integer =>
      simp only [convert]
      split
      · next h =>
        constructor <;> omega
      · exact ⟨token, rfl⟩
  | float => exact ⟨token, rfl⟩

theorem fits_scanNumber (input : Bytes) : Fits strtod (scanNumber strtod input).1 := by
  unfold scanNumber
  split
  · exact fits_convert _ _
  · exact trivial

theorem fits_scanToken (input : Bytes) : Fits strtod (scanToken strtod input).1 := by
  cases input with
  | nil => exact trivial
  | cons b input =>
      cases hs : structural.lookup b with
      | some t =>
          have hall : ∀ e ∈ structural, Fits strtod e.2 := by simp [structural, Fits]
          rw [scanToken_structural hs]
          exact hall (b, t) (Table.mem_of_lookup hs)
      | none =>
          cases hl : literals.lookup b with
          | some r =>
              obtain ⟨text, t⟩ := r
              have hall : ∀ e ∈ literals, Fits strtod e.2.2 := by simp [literals, Fits]
              rw [scanToken_literal hs hl, scanLiteral]
              split
              · exact hall (b, text, t) (Table.mem_of_lookup hl)
              · exact trivial
          | none =>
              by_cases hq : b = 0x22
              · subst hq
                rw [scanToken_quote]
                cases hr : scanString (input.length + 1) [] input with
                | none => exact trivial
                | some r => exact isUtf8_scanString rfl hr
              · rw [scanToken_other hs hl hq]
                split
                · exact fits_scanNumber _
                · split <;> exact trivial

/-- The tokens of an input hold UTF-8 and integers of 64 bits. -/
theorem fits_of_lexes {input rest : Bytes} {ts : List Token} (h : Lexes strtod input ts rest) :
    ∀ t ∈ ts, Fits strtod t := by
  induction h with
  | nil => simp
  | @cons input rest last t ts hscan ht _ ih =>
      intro u hu
      rcases List.mem_cons.mp hu with rfl | hu
      · have hfits : Fits strtod (scan strtod input).1 := fits_scanToken _
        rwa [hscan] at hfits
      · exact ih u hu

end AsioServer.Infra.Lexer
