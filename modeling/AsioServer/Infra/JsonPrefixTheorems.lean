/-
AsioServer.Infra.JsonPrefixTheorems — what a text that is cut short is read as.

The lexer takes a token without a look at what stands behind it, numbers apart: a
number ends where the next byte does not go on with it. So the tokens that are
read from the front of a text are those of the whole text, unless the front ends
in a number (`Lexes.extend`).

The last token of an array or an object is its bracket. The front of a text that
is read as one is therefore read as the same value, or not at all (`parse_cut`).
-/
import AsioServer.Infra.JsonRoundTrip

namespace AsioServer.Infra.Lexer

open AsioServer.Core AsioServer.Lib

variable {x : Bytes}

/-! ## Strings -/

theorem readDigits_append {factors : List Nat} {input : Bytes} {r : Nat × Bytes}
    (h : readDigits factors input = some r) :
    readDigits factors (input ++ x) = some (extend x r) := by
  induction factors generalizing input r with
  | nil =>
      obtain rfl := Option.some.inj h
      rfl
  | cons factor factors ih =>
      cases input with
      | nil => exact absurd h (by simp [readDigits])
      | cons c input =>
          rw [readDigits] at h
          obtain ⟨digit, hdigit, h⟩ := Option.bind_eq_some_iff.mp h
          obtain ⟨r', hr, rfl⟩ := Option.map_eq_some_iff.mp h
          rw [List.cons_append, readDigits, hdigit, Option.bind_some, ih hr]
          rfl

/-- A prefix of the front is a prefix of the whole. -/
theorem isPrefixOf_append {text input : Bytes} (h : text.isPrefixOf input = true) :
    text.isPrefixOf (input ++ x) = true :=
  List.isPrefixOf_iff_prefix.mpr
    ((List.isPrefixOf_iff_prefix.mp h).trans (List.prefix_append input x))

theorem scanUnicode_append {input : Bytes} {r : Bytes × Bytes} (h : scanUnicode input = some r) :
    scanUnicode (input ++ x) = some (extend x r) := by
  unfold scanUnicode at h ⊢
  obtain ⟨⟨n, rest⟩, hn, h⟩ := Option.bind_eq_some_iff.mp h
  have hn' : getCodepoint (input ++ x) = some (n, rest ++ x) := readDigits_append hn
  rw [hn', Option.bind_some]
  dsimp only at h ⊢
  split at h
  · next hhigh =>
    rw [if_pos hhigh]
    split at h
    · next hp =>
      obtain ⟨⟨m, rest'⟩, hm, h⟩ := Option.bind_eq_some_iff.mp h
      have hlen : (ascii "\\u").length = 2 := by decide +kernel
      have hdrop := drop_append_of_isPrefixOf hp x
      rw [hlen] at hdrop
      have hm' : getCodepoint ((rest ++ x).drop 2) = some (m, rest' ++ x) :=
        hdrop ▸ readDigits_append hm
      rw [if_pos (isPrefixOf_append hp), hm', Option.bind_some]
      dsimp only at h ⊢
      split at h
      · next hlow =>
        obtain rfl := Option.some.inj h
        rw [if_pos hlow]
      · exact absurd h (by simp)
    · exact absurd h (by simp)
  · next hhigh =>
    rw [if_neg hhigh]
    split at h
    · exact absurd h (by simp)
    · next hlow =>
      obtain rfl := Option.some.inj h
      rw [if_neg hlow]

theorem nextByteInRange_append {ranges : List (UInt8 × UInt8)} {input : Bytes} {r : Bytes × Bytes}
    (h : nextByteInRange ranges input = some r) :
    nextByteInRange ranges (input ++ x) = some (extend x r) := by
  induction ranges generalizing input r with
  | nil =>
      obtain rfl := Option.some.inj h
      rfl
  | cons range ranges ih =>
      cases input with
      | nil => exact absurd h (by simp [nextByteInRange])
      | cons b input =>
          rw [nextByteInRange] at h
          split at h
          · next hb =>
            obtain ⟨r', hr, rfl⟩ := Option.map_eq_some_iff.mp h
            rw [List.cons_append, nextByteInRange, if_pos hb, ih hr]
            rfl
          · exact absurd h (by simp)

theorem scanChar_append {b : UInt8} {input : Bytes} {r : Bytes × Bytes}
    (h : scanChar b input = some r) : scanChar b (input ++ x) = some (extend x r) := by
  unfold scanChar at h ⊢
  split at h
  · next hescape =>
    rw [if_pos hescape]
    cases input with
    | nil => exact absurd h (by simp [scanEscape])
    | cons c input =>
        rw [scanEscape] at h
        rw [List.cons_append, scanEscape]
        split at h
        · next hu => rw [if_pos hu, scanUnicode_append h]
        · next hu =>
          obtain ⟨a, ha, rfl⟩ := Option.map_eq_some_iff.mp h
          rw [if_neg hu, ha]
          rfl
  · next hescape =>
    rw [if_neg hescape]
    split at h
    · exact absurd h (by simp)
    · next hcontrol =>
      rw [if_neg hcontrol]
      split at h
      · next hascii =>
        obtain rfl := Option.some.inj h
        rw [if_pos hascii]
      · next hascii =>
        obtain ⟨rs, hrs, h⟩ := Option.bind_eq_some_iff.mp h
        obtain ⟨r', hr, rfl⟩ := Option.map_eq_some_iff.mp h
        rw [if_neg hascii, hrs, Option.bind_some, nextByteInRange_append hr]
        rfl

theorem scanString_append {n m : Nat} {token input : Bytes} {r : Bytes × Bytes}
    (h : scanString n token input = some r) (hle : n ≤ m) :
    scanString m token (input ++ x) = some (extend x r) := by
  induction n generalizing m token input with
  | zero => exact absurd h (by simp [scanString])
  | succ n ih =>
      obtain ⟨m, rfl⟩ : ∃ k, m = k + 1 := ⟨m - 1, by omega⟩
      cases input with
      | nil => exact absurd h (by simp [scanString])
      | cons b input =>
          rw [scanString] at h
          rw [List.cons_append, scanString]
          split at h
          · next hquote =>
            obtain rfl := Option.some.inj h
            rw [if_pos hquote]
          · next hquote =>
            obtain ⟨r', hr, h⟩ := Option.bind_eq_some_iff.mp h
            rw [if_neg hquote, scanChar_append hr, Option.bind_some]
            exact ih h (by omega)

/-! ## Tokens -/

/-- A token that the next byte may still change. -/
def isNumber : Token → Bool
  | .valueUnsigned _ | .valueInteger _ | .valueFloat _ => true
  | _ => false

/-- A number with a byte behind it has been read to its end. -/
theorem scanDigits_append {state : NumberState} {type type' : NumberType}
    {token token' input rest : Bytes}
    (h : scanDigits state type token input = some (type', token', rest)) (hrest : rest ≠ []) :
    scanDigits state type token (input ++ x) = some (type', token', rest ++ x) := by
  induction input generalizing state type token with
  | nil =>
      rw [scanDigits] at h
      split at h
      · exact absurd (Prod.mk.inj (Prod.mk.inj (Option.some.inj h)).2).2.symm hrest
      · exact absurd h (by simp)
  | cons b input ih =>
      rw [scanDigits] at h
      rw [List.cons_append, scanDigits]
      split at h
      · exact ih h
      · obtain ⟨rfl, rfl, rfl⟩ := by simpa using h
        rfl
      · exact absurd h (by simp)

variable {strtod : Bytes → Option Rat}

theorem isNumber_convert (type : NumberType) (token : Bytes) :
    isNumber (convert strtod type token) = true := by
  cases type <;> simp only [convert] <;> try split
  all_goals rfl

theorem scanToken_append {input rest : Bytes} {t : Token}
    (h : scanToken strtod input = (t, rest)) (ht : isLast t = false)
    (hnumber : isNumber t = true → rest ≠ []) :
    scanToken strtod (input ++ x) = (t, rest ++ x) := by
  have hlast : t = .parseError ∨ t = .endOfInput → scanToken strtod (input ++ x) = (t, rest ++ x) :=
    by rintro (rfl | rfl) <;> exact absurd ht (by decide)
  cases input with
  | nil => exact hlast (Or.inr (Prod.mk.inj h).1.symm)
  | cons b input =>
      rw [List.cons_append]
      rw [List.cons_append] at hlast
      cases hs : structural.lookup b with
      | some token =>
          rw [scanToken_structural hs] at h ⊢
          obtain ⟨rfl, rfl⟩ := Prod.mk.inj h
          rfl
      | none =>
          cases hl : literals.lookup b with
          | some r =>
              rw [scanToken_literal hs hl, scanLiteral] at h
              split at h
              · next hp =>
                obtain ⟨rfl, rfl⟩ := Prod.mk.inj h
                rw [scanToken_literal hs hl, scanLiteral, if_pos (isPrefixOf_append hp),
                  drop_append_of_isPrefixOf hp]
              · exact hlast (Or.inl (Prod.mk.inj h).1.symm)
          | none =>
              by_cases hq : b = 0x22
              · subst hq
                rw [scanToken_quote] at h
                cases hr : scanString (input.length + 1) [] input with
                | none =>
                    rw [hr] at h
                    exact hlast (Or.inl (Prod.mk.inj h).1.symm)
                | some r =>
                    rw [hr] at h
                    obtain ⟨rfl, rfl⟩ := Prod.mk.inj h
                    rw [scanToken_quote, scanString_append hr (by simp)]
                    rfl
              · rw [scanToken_other hs hl hq] at h
                split at h
                · next hb =>
                  rw [scanToken_other hs hl hq, if_pos hb]
                  rw [scanNumber] at h
                  split at h
                  · next type token r hr =>
                    obtain ⟨rfl, rfl⟩ := Prod.mk.inj h
                    have hrest : r ≠ [] := hnumber (isNumber_convert type token)
                    have hr' := scanDigits_append (x := x) hr hrest
                    rw [List.cons_append] at hr'
                    rw [scanNumber, hr']
                  · exact absurd ht (by rw [← (Prod.mk.inj h).1]; decide)
                · split at h
                  · exact hlast (Or.inr (Prod.mk.inj h).1.symm)
                  · exact hlast (Or.inl (Prod.mk.inj h).1.symm)

/-- White space in front of a token ends within the front. -/
theorem dropWhile_append {input : Bytes} (h : input.dropWhile isSpace ≠ []) :
    (input ++ x).dropWhile isSpace = input.dropWhile isSpace ++ x := by
  rw [List.dropWhile_append, if_neg (by simpa using h)]

theorem dropWhile_ne_nil {input rest : Bytes} {t : Token} (h : scan strtod input = (t, rest))
    (ht : isLast t = false) : input.dropWhile isSpace ≠ [] := by
  intro hempty
  rw [scan, hempty] at h
  obtain rfl := (Prod.mk.inj h).1
  exact absurd ht (by decide)

theorem scan_append {input rest : Bytes} {t : Token} (h : scan strtod input = (t, rest))
    (ht : isLast t = false) (hnumber : isNumber t = true → rest ≠ []) :
    scan strtod (input ++ x) = (t, rest ++ x) := by
  rw [scan, dropWhile_append (dropWhile_ne_nil h ht)]
  exact scanToken_append h ht hnumber

/-- **The tokens at the front of a text are read whatever stands behind them**, unless
the last of them is a number. -/
theorem Lexes.extend {input rest : Bytes} {ts : List Token} (h : Lexes strtod input ts rest)
    (hlast : ∀ t ∈ ts.getLast?, isNumber t = false) :
    Lexes strtod (input ++ x) ts (rest ++ x) := by
  induction h with
  | nil => exact .nil
  | @cons input rest last t ts hscan ht hothers ih =>
      refine .cons (scan_append hscan ht fun hnumber => ?_) ht (ih fun u hu => ?_)
      · cases hothers with
        | nil => exact absurd hnumber (by simp [hlast t rfl])
        | cons hnext hu _ =>
            rintro rfl
            exact dropWhile_ne_nil hnext hu rfl
      · cases ts with
        | nil => exact absurd hu (by simp)
        | cons v ts => exact hlast u (by simpa using hu)

/-- An opening bracket is known by its byte. -/
theorem structural_of_begin {b : UInt8} {input : Bytes} {t : Token}
    (ht : t = .beginArray ∨ t = .beginObject) (h : (scanToken strtod (b :: input)).1 = t) :
    structural.lookup b = some t := by
  cases hs : structural.lookup b with
  | some u =>
      rw [scanToken_structural hs] at h
      exact congrArg some h
  | none =>
      exfalso
      cases hl : literals.lookup b with
      | some r =>
          obtain ⟨text, u⟩ := r
          have hall : literals.all (fun e =>
              e.2.2 != .beginArray && e.2.2 != .beginObject) = true := by decide
          have hu := List.all_eq_true.mp hall (b, text, u) (Table.mem_of_lookup hl)
          rw [scanToken_literal hs hl, scanLiteral] at h
          split at h
          · rcases ht with rfl | rfl <;> exact absurd hu (by simp [show u = _ from h])
          · rcases ht with rfl | rfl <;> exact absurd h (by simp)
      | none =>
          by_cases hq : b = 0x22
          · subst hq
            rw [scanToken_quote] at h
            cases hr : scanString (input.length + 1) [] input <;> rw [hr] at h <;>
              rcases ht with rfl | rfl <;> exact absurd h (by simp [stringToken])
          · rw [scanToken_other hs hl hq] at h
            split at h
            · rw [scanNumber] at h
              split at h
              · next type token r hr =>
                have hnumber : isNumber (convert strtod type token) = true :=
                  isNumber_convert type token
                rw [show convert strtod type token = t from h] at hnumber
                rcases ht with rfl | rfl <;> exact absurd hnumber (by decide)
              · rcases ht with rfl | rfl <;> exact absurd h (by simp)
            · split at h <;> rcases ht with rfl | rfl <;> exact absurd h (by simp)

theorem skipBom_append {text input : Bytes} (h : skipBom text = some input) (hne : text ≠ []) :
    skipBom (text ++ x) = some (input ++ x) := by
  obtain ⟨b, text, rfl⟩ := List.exists_cons_of_ne_nil hne
  unfold skipBom at h ⊢
  have hfirst : [0xEF].isPrefixOf (b :: text ++ x) = [0xEF].isPrefixOf (b :: text) := rfl
  rw [hfirst]
  split at h
  · next hbegun =>
    rw [if_pos hbegun]
    split at h
    · next hmark =>
      obtain rfl := Option.some.inj h
      rw [if_pos (isPrefixOf_append hmark)]
      exact congrArg some (drop_append_of_isPrefixOf hmark x)
    · exact absurd h (by simp)
  · next hbegun =>
    obtain rfl := Option.some.inj h
    rw [if_neg hbegun]

end AsioServer.Infra.Lexer

namespace AsioServer.Infra

open AsioServer.Core AsioServer.Lib Lexer

variable {strtod : Bytes → Option Rat}

/-! ## Values -/

/-- A value between brackets. -/
def Json.isStructured : Json → Bool
  | .array _ | .object _ => true
  | _ => false

theorem isStructured_of_scalar {t : Token} {j : Json} (h : scalar t = some j) :
    j.isStructured = false := by
  cases t with
  | literalTrue | literalFalse | literalNull | valueString | valueUnsigned | valueInteger =>
      obtain rfl := Option.some.inj h
      rfl
  | valueFloat q =>
      obtain ⟨q, -, rfl⟩ := Option.map_eq_some_iff.mp h
      rfl
  | _ => exact absurd h (by simp [scalar])

/-- What stands between brackets begins and ends with one. -/
theorem IsValue.brackets {j : Json} {ts : List Token} (h : IsValue j ts)
    (hj : j.isStructured = true) :
    ∃ t us, ts = t :: us ∧ (t = .beginArray ∨ t = .beginObject) ∧
      ∀ u ∈ ts.getLast?, isNumber u = false := by
  cases h with
  | scalar h => exact absurd hj (by simp [isStructured_of_scalar h])
  | emptyArray => exact ⟨_, _, rfl, .inl rfl, by simp [isNumber]⟩
  | array => exact ⟨_, _, rfl, .inl rfl, by simp [List.getLast?_cons, isNumber]⟩
  | emptyObject => exact ⟨_, _, rfl, .inr rfl, by simp [isNumber]⟩
  | object => exact ⟨_, _, rfl, .inr rfl, by simp [List.getLast?_cons, isNumber]⟩

/-- **The front of a text that is read as an array or an object is read as the same
value, or not at all.** -/
theorem parse_cut {text behind : Bytes} {j : Json} (hj : j.isStructured = true)
    (h : parse strtod false (text ++ behind) = some j) :
    parse strtod false text = none ∨ parse strtod false text = some j := by
  cases hfront : parse strtod false text with
  | none => exact .inl rfl
  | some i =>
      refine .inr ?_
      obtain ⟨input, ts, rest, hskip, hlexes, hvalue, -⟩ := parse_eq_some_iff.mp hfront
      obtain ⟨whole, vs, rest', hskip', hlexes', hvalue', -⟩ := parse_eq_some_iff.mp h
      have hts : ts ≠ [] := by
        rintro rfl
        obtain ⟨t, us, heq, -⟩ := reads_value hvalue
        exact absurd heq (by simp)
      have hne : text ≠ [] := by
        rintro rfl
        obtain rfl := Option.some.inj hskip
        cases hlexes with
        | nil => exact hts rfl
        | cons hscan ht _ => exact dropWhile_ne_nil hscan ht rfl
      obtain rfl : whole = input ++ behind :=
        Option.some.inj (hskip'.symm.trans (skipBom_append hskip hne))
      obtain ⟨t, us, rfl, ht, -⟩ := hvalue'.brackets hj
      -- the front begins with the bracket of the whole
      have hstructured : i.isStructured = true := by
        cases hlexes with
        | nil => exact absurd rfl hts
        | @cons _ _ _ u ts hscan hu hothers =>
            obtain ⟨b, input', hinput⟩ := List.exists_cons_of_ne_nil (dropWhile_ne_nil hscan hu)
            cases hlexes' with
            | cons hscan' _ _ =>
                rw [scan, dropWhile_append (dropWhile_ne_nil hscan hu), hinput] at hscan'
                have hs := structural_of_begin ht (congrArg Prod.fst hscan')
                rw [scan, hinput, scanToken_structural hs] at hscan
                obtain rfl := (Prod.mk.inj hscan).1
                cases hvalue with
                | scalar hscalar =>
                    rcases ht with rfl | rfl <;> exact absurd hscalar (by simp [scalar])
                | _ => rfl
      obtain ⟨-, -, -, -, hlast⟩ := hvalue.brackets hstructured
      have hboth : parse strtod false (text ++ behind) = some i :=
        parse_eq_some_iff.mpr ⟨_, ts, _, hskip', hlexes.extend hlast, hvalue,
          fun hstrict => absurd hstrict Bool.false_ne_true⟩
      rw [← h, hboth]

end AsioServer.Infra
