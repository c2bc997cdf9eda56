/-
AsioServer.Infra.JsonTextTheorems — what the lexer makes of the text that `dump`
writes.

`LexesAs text ts` says that the text is read as these tokens in front of
everything that cannot go on a number (`Ends`). Strings are read back byte by
byte where they were escaped and character by character where they were not;
an integer is read back because its digits have no zero in front. White space
between the tokens is what sets `dump(4)` apart from `dump()`, and the lexer
does not see it.
-/
import AsioServer.Infra.JsonGrammar
import AsioServer.Infra.JsonLexerTheorems

namespace AsioServer.Infra.Lexer

open AsioServer.Core AsioServer.Lib

variable {strtod : Bytes → Option Rat}

/-! ## In front of a token -/

theorem scan_spaces {w : Bytes} (h : ∀ b ∈ w, isSpace b = true) (input : Bytes) :
    scan strtod (w ++ input) = scan strtod input := by
  rw [scan, List.dropWhile_append_of_pos h, scan]

theorem scan_cons {b : UInt8} (h : isSpace b = false) (input : Bytes) :
    scan strtod (b :: input) = scanToken strtod (b :: input) := by
  rw [scan, List.dropWhile_cons_of_neg (by simp [h])]

/-- The input does not go on a number. -/
def Ends (input : Bytes) : Prop :=
  ∀ b ∈ input.head?, isDecimal b = false ∧ b ≠ 0x2E ∧ isExponent b = false

/-- The text is read as the tokens. -/
def LexesAs (strtod : Bytes → Option Rat) (text : Bytes) (ts : List Token) : Prop :=
  ∀ rest, Ends rest → Lexes strtod (text ++ rest) ts rest

/-! ## Strings -/

theorem hexValue_hexDigit {n : UInt8} (h : n.toNat < 16) :
    hexValue (hexDigit n) = some n.toNat := by
  unfold hexDigit
  split
  · next hlt =>
    have hn : n.toNat < 10 := UInt8.lt_iff_toNat_lt.mp hlt
    have hsum : (0x30 + n).toNat = 48 + n.toNat := by
      rw [UInt8.toNat_add]
      exact Nat.mod_eq_of_lt (by change 48 + n.toNat < 2 ^ 8; omega)
    rw [hexValue, if_pos ⟨UInt8.le_iff_toNat_le.mpr (by rw [hsum]; exact Nat.le_add_right _ _),
      UInt8.le_iff_toNat_le.mpr (by rw [hsum]; change _ ≤ 57; omega)⟩, hsum]
    simp
  · next hge =>
    have hn : 10 ≤ n.toNat := UInt8.le_iff_toNat_le.mp (UInt8.not_lt.mp hge)
    have hsum : (0x57 + n).toNat = 87 + n.toNat := by
      rw [UInt8.toNat_add]
      exact Nat.mod_eq_of_lt (by change 87 + n.toNat < 2 ^ 8; omega)
    have hnot9 : ¬ (0x57 + n) ≤ 0x39 := by
      rw [UInt8.le_iff_toNat_le, hsum]
      change ¬ _ ≤ 57
      omega
    have hnotF : ¬ (0x57 + n) ≤ 0x46 := by
      rw [UInt8.le_iff_toNat_le, hsum]
      change ¬ _ ≤ 70
      omega
    rw [hexValue, if_neg fun hr => hnot9 hr.2, if_neg fun hr => hnotF hr.2,
      if_pos ⟨UInt8.le_iff_toNat_le.mpr (by rw [hsum]; change 97 ≤ _; omega),
        UInt8.le_iff_toNat_le.mpr (by rw [hsum]; change _ ≤ 102; omega)⟩, hsum]
    simp

/-- A control character is read back from its four digits. -/
theorem scanUnicode_control {b : UInt8} (h : b ≤ 0x1F) (rest : Bytes) :
    scanUnicode (0x30 :: 0x30 :: hexDigit (b / 16) :: hexDigit (b % 16) :: rest) =
      some ([b], rest) := by
  have hb : b.toNat ≤ 31 := UInt8.le_iff_toNat_le.mp h
  have hdiv : (b / 16).toNat = b.toNat / 16 := UInt8.toNat_div b 16
  have hmod : (b % 16).toNat = b.toNat % 16 := UInt8.toNat_mod b 16
  have hzero : hexValue 0x30 = some 0 := by decide
  have hcode : getCodepoint
      (0x30 :: 0x30 :: hexDigit (b / 16) :: hexDigit (b % 16) :: rest) = some (b.toNat, rest) := by
    simp only [getCodepoint, readDigits, hzero, Option.bind_some, Option.map_some,
      hexValue_hexDigit (n := b / 16) (by omega), hexValue_hexDigit (n := b % 16) (by omega),
      Nat.shiftLeft_eq, hdiv, hmod]
    congr 2
    omega
  rw [scanUnicode, hcode, Option.bind_some]
  dsimp only
  rw [if_neg (by omega), if_neg (by omega), codepointBytes, if_pos (by omega)]
  simp

/-- The lexer reads an escaped byte back, if it is ASCII. -/
theorem scanChar_escapeByte {b : UInt8} (h : b ≤ 0x7F) :
    ∃ c cs, escapeByte b = c :: cs ∧ c ≠ 0x22 ∧
      ∀ rest, scanChar c (cs ++ rest) = some ([b], rest) := by
  unfold escapeByte
  split
  · next hb => exact ⟨0x5C, [0x62], by decide, by decide, fun rest => by rw [hb]; rfl⟩
  split
  · next hb => exact ⟨0x5C, [0x74], by decide, by decide, fun rest => by rw [hb]; rfl⟩
  split
  · next hb => exact ⟨0x5C, [0x6E], by decide, by decide, fun rest => by rw [hb]; rfl⟩
  split
  · next hb => exact ⟨0x5C, [0x66], by decide, by decide, fun rest => by rw [hb]; rfl⟩
  split
  · next hb => exact ⟨0x5C, [0x72], by decide, by decide, fun rest => by rw [hb]; rfl⟩
  split
  · next hb => exact ⟨0x5C, [0x22], by decide, by decide, fun rest => by rw [hb]; rfl⟩
  split
  · next hb => exact ⟨0x5C, [0x5C], by decide, by decide, fun rest => by rw [hb]; rfl⟩
  split
  · next hb =>
    refine ⟨0x5C, [0x75, 0x30, 0x30, hexDigit (b / 16), hexDigit (b % 16)], rfl, by decide,
      fun rest => ?_⟩
    exact scanUnicode_control hb rest
  · next hq hs hc =>
    refine ⟨b, [], rfl, hq, fun rest => ?_⟩
    rw [scanChar, if_neg hs, if_neg hc, if_pos h]
    rfl

theorem escapeByte_of_le {b : UInt8} (h : 0x80 ≤ b) : escapeByte b = [b] := by
  have hne : ∀ c : UInt8, c < 0x80 → b ≠ c := by
    rintro c hc rfl
    exact absurd h (UInt8.not_le.mpr hc)
  have hgt : ¬ b ≤ 0x1F := fun hle => absurd (UInt8.le_trans h hle) (by decide)
  rw [escapeByte, if_neg (hne _ (by decide)), if_neg (hne _ (by decide)),
    if_neg (hne _ (by decide)), if_neg (hne _ (by decide)), if_neg (hne _ (by decide)),
    if_neg (hne _ (by decide)), if_neg (hne _ (by decide)), if_neg hgt]

theorem flatMap_escapeByte {s : Bytes} (h : ∀ b ∈ s, 0x80 ≤ b) : s.flatMap escapeByte = s := by
  induction s with
  | nil => rfl
  | cons b s ih =>
      rw [List.flatMap_cons, escapeByte_of_le (h b List.mem_cons_self),
        ih fun c hc => h c (List.mem_cons_of_mem _ hc)]
      rfl

/-- A character of UTF-8 is read back as a whole. -/
theorem exists_scanChar {b : UInt8} {s : Bytes} (h : isUtf8 (b :: s) = true) :
    ∃ added c cs s', b :: s = added ++ s' ∧ isUtf8 s' = true ∧ s'.length < (b :: s).length ∧
      added.flatMap escapeByte = c :: cs ∧ c ≠ 0x22 ∧
      ∀ rest, scanChar c (cs ++ rest) = some (added, rest) := by
  rw [isUtf8_iff, List.foldl_cons] at h
  by_cases hb : b ≤ 0x7F
  · rw [Utf8.step, if_pos hb] at h
    obtain ⟨c, cs, hesc, hc, hscan⟩ := scanChar_escapeByte hb
    exact ⟨[b], c, cs, s, rfl, isUtf8_iff.mpr h, by simp, by simpa using hesc, hc, hscan⟩
  · have hgt : 0x7F < b := UInt8.not_le.mp hb
    have hle : 0x80 ≤ b := UInt8.le_iff_toNat_le.mpr (UInt8.lt_iff_toNat_lt.mp hgt)
    have hne : Utf8.step .accept b ≠ .reject := by
      intro hr
      rw [hr, foldl_reject] at h
      exact absurd h (by decide)
    obtain ⟨added, s', rfl, hs', hadded, hnext⟩ := nextByteInRange_of_foldl h
    have hlength : s'.length < (b :: (added ++ s')).length := by
      rw [List.length_cons, List.length_append]
      omega
    refine ⟨b :: added, b, added, s', rfl, hs', hlength, ?_, ?_, fun rest => ?_⟩
    · exact flatMap_escapeByte fun c hc => by
        rcases List.mem_cons.mp hc with rfl | hc
        · exact hle
        · exact hadded c hc
    · rintro rfl
      exact absurd hle (by decide)
    · have hb5C : b ≠ 0x5C := by
        rintro rfl
        exact absurd hle (by decide)
      have hb1F : ¬ b ≤ 0x1F := fun h1F => hb (UInt8.le_trans h1F (by decide))
      rw [scanChar, if_neg hb5C, if_neg hb1F, if_neg hb,
        (followers_eq_some_iff hgt).mpr ⟨hne, rfl⟩, Option.bind_some, hnext]
      rfl

/-- **The string between its quotes is read back.** -/
theorem scanString_escaped {s : Bytes} (h : isUtf8 s = true) (token rest : Bytes) {fuel : Nat}
    (hfuel : (s.flatMap escapeByte ++ 0x22 :: rest).length < fuel) :
    scanString fuel token (s.flatMap escapeByte ++ 0x22 :: rest) = some (token ++ s, rest) := by
  induction hn : s.length using Nat.strongRecOn generalizing s token fuel with
  | _ n ih =>
      obtain ⟨fuel, rfl⟩ := Nat.exists_eq_add_of_lt (Nat.zero_lt_of_lt hfuel)
      rw [Nat.zero_add] at hfuel ⊢
      cases s with
      | nil => rw [List.flatMap_nil, List.nil_append, scanString, if_pos rfl, List.append_nil]
      | cons b s =>
          obtain ⟨added, c, cs, s', hs, hs', hlt, hesc, hc, hscan⟩ := exists_scanChar h
          have htext : (b :: s).flatMap escapeByte ++ 0x22 :: rest =
              c :: (cs ++ (s'.flatMap escapeByte ++ 0x22 :: rest)) := by
            rw [hs, List.flatMap_append, hesc]
            simp
          rw [htext] at hfuel ⊢
          rw [scanString, if_neg hc, hscan, Option.bind_some]
          have hrest : (s'.flatMap escapeByte ++ 0x22 :: rest).length < fuel := by
            simp only [List.length_cons, List.length_append] at hfuel ⊢
            omega
          rw [ih s'.length (hn ▸ hlt) hs' (token ++ added) hrest rfl, hs, List.append_assoc]

theorem lexesAs_quoted {s text : Bytes} (h : quoted s = some text) :
    LexesAs strtod text [.valueString s] := by
  intro rest _
  unfold quoted at h
  split at h
  · next hs =>
    obtain rfl := Option.some.inj h
    have hquote : ascii "\"" = [0x22] := by decide
    have htext : ascii "\"" ++ s.flatMap escapeByte ++ ascii "\"" ++ rest =
        0x22 :: (s.flatMap escapeByte ++ 0x22 :: rest) := by
      simp [hquote]
    refine .single ?_ rfl
    rw [htext, scan_cons (by decide), scanToken_quote,
      scanString_escaped hs [] rest (Nat.lt_succ_self _)]
    rfl
  · exact absurd h (by simp)

/-! ## Literals -/

theorem lexesAs_literal {b : UInt8} {text : Bytes} {t : Token} (hspace : isSpace b = false)
    (hs : structural.lookup b = none) (hl : literals.lookup b = some (text, t))
    (ht : isLast t = false) : LexesAs strtod (b :: text) [t] := by
  intro rest _
  refine .single ?_ ht
  rw [List.cons_append, scan_cons hspace, scanToken_literal hs hl, scanLiteral,
    if_pos (List.isPrefixOf_iff_prefix.mpr (List.prefix_append text rest)), List.drop_left]

theorem lexesAs_null : LexesAs strtod (ascii "null") [.literalNull] := by
  have htext : ascii "null" = 0x6E :: ascii "ull" := by decide
  rw [htext]
  exact lexesAs_literal rfl rfl rfl rfl

theorem lexesAs_true : LexesAs strtod (ascii "true") [.literalTrue] := by
  have htext : ascii "true" = 0x74 :: ascii "rue" := by decide
  rw [htext]
  exact lexesAs_literal rfl rfl rfl rfl

theorem lexesAs_false : LexesAs strtod (ascii "false") [.literalFalse] := by
  have htext : ascii "false" = 0x66 :: ascii "alse" := by decide
  rw [htext]
  exact lexesAs_literal rfl rfl rfl rfl

/-! ## Integers -/

theorem isDecimal_eq (b : UInt8) : isDecimal b = isDigit b := by
  simp only [isDecimal, isDigit, UInt8.le_iff_toNat_le]
  rfl

/-- No zero stands in front of the digits of a number. -/
theorem digits_eq_cons {fuel n : Nat} (hfuel : n < fuel) (hn : n ≠ 0) {acc : Bytes}
    (hacc : ∀ b ∈ acc, isDecimal b = true) :
    ∃ b ds, digits fuel n acc = b :: ds ∧ b ≠ 0x30 ∧ isDecimal b = true ∧
      ∀ d ∈ ds, isDecimal d = true := by
  induction fuel generalizing n acc with
  | zero => omega
  | succ fuel ih =>
      have hdigit : isDecimal (48 + n % 10).toUInt8 = true := by
        rw [isDecimal_eq, isDigit, toNat_digit]
        simp only [Bool.and_eq_true, decide_eq_true_eq]
        omega
      simp only [digits]
      split
      · next hlt =>
        refine ⟨_, acc, rfl, fun hzero => ?_, hdigit, hacc⟩
        have hvalue := congrArg UInt8.toNat hzero
        rw [toNat_digit] at hvalue
        change 48 + n % 10 = 48 at hvalue
        omega
      · next hge =>
        refine ih (by omega) (by omega) fun b hb => ?_
        rcases List.mem_cons.mp hb with rfl | hb
        · exact hdigit
        · exact hacc b hb

theorem Ends.move {input : Bytes} (h : Ends input) {b : UInt8} {rest : Bytes}
    (hinput : input = b :: rest) :
    NumberState.zero.move b = .done ∧ NumberState.any1.move b = .done := by
  obtain ⟨hdecimal, hpoint, hexponent⟩ := h b (by rw [hinput]; rfl)
  simp [NumberState.move, hdecimal, hpoint, hexponent]

theorem scanDigits_zero (type : NumberType) (token : Bytes) {rest : Bytes} (h : Ends rest) :
    scanDigits .zero type token rest = some (type, token, rest) := by
  cases rest with
  | nil => rfl
  | cons b rest => rw [scanDigits, (h.move rfl).1]

theorem scanDigits_any1 (type : NumberType) (token : Bytes) {ds rest : Bytes}
    (hds : ∀ d ∈ ds, isDecimal d = true) (h : Ends rest) :
    scanDigits .any1 type token (ds ++ rest) = some (type, token ++ ds, rest) := by
  induction ds generalizing token with
  | nil =>
      rw [List.nil_append, List.append_nil]
      cases rest with
      | nil => rfl
      | cons b rest => rw [scanDigits, (h.move rfl).2]
  | cons d ds ih =>
      have hmove : NumberState.any1.move d = .goto .any1 := by
        simp [NumberState.move, hds d List.mem_cons_self]
      rw [List.cons_append, scanDigits, hmove]
      dsimp only [NumberState.type]
      rw [ih (token ++ [d]) fun c hc => hds c (List.mem_cons_of_mem _ hc), List.append_assoc]
      rfl

/-- A digit or a minus begins a number. -/
theorem scan_number {b : UInt8} (h : b = 0x2D ∨ isDecimal b = true) (input : Bytes) :
    scan strtod (b :: input) = scanNumber strtod (b :: input) := by
  have hne : ∀ c : UInt8, c ≠ 0x2D → isDecimal c = false → b ≠ c := by
    rintro c hminus hdecimal rfl
    rcases h with h | h
    · exact hminus h
    · exact Bool.false_ne_true (hdecimal.symm.trans h)
  have hs : structural.lookup b = none := by
    have hall : structural.all (fun e => e.1 != 0x2D && !isDecimal e.1) = true := by decide
    refine List.lookup_eq_none_iff.mpr fun e he => bne_iff_ne.mpr ?_
    obtain ⟨hminus, hdecimal⟩ := by simpa using List.all_eq_true.mp hall e he
    exact hne e.1 hminus hdecimal
  have hl : literals.lookup b = none := by
    have hall : literals.all (fun e => e.1 != 0x2D && !isDecimal e.1) = true := by decide
    refine List.lookup_eq_none_iff.mpr fun e he => bne_iff_ne.mpr ?_
    obtain ⟨hminus, hdecimal⟩ := by simpa using List.all_eq_true.mp hall e he
    exact hne e.1 hminus hdecimal
  have hspace : isSpace b = false := by
    simp only [isSpace, Bool.or_eq_false_iff, beq_eq_false_iff_ne]
    exact ⟨⟨⟨hne _ (by decide) rfl, hne _ (by decide) rfl⟩, hne _ (by decide) rfl⟩,
      hne _ (by decide) rfl⟩
  rw [scan_cons hspace, scanToken_other hs hl (hne _ (by decide) rfl), if_pos h]

/-- The token of an integer. -/
def integerToken (i : Int) : Token :=
  if i < 0 then .valueInteger i else .valueUnsigned i.natAbs

theorem strtoull_digits (n : Nat) : strtoull (digits (n + 1) n []) = n :=
  (decimal_digits (Nat.lt_succ_self n) []).trans rfl

/-- **An integer of 64 bits is read back.** -/
theorem lexesAs_integerText {i : Int} (hlo : -2 ^ 63 ≤ i) (hhi : i < 2 ^ 64) :
    LexesAs strtod (integerText i) [integerToken i] := by
  intro rest hrest
  by_cases hzero : i = 0
  · subst hzero
    have htext : integerText 0 = [0x30] := by decide
    refine .single ?_ rfl
    rw [htext, List.singleton_append, scan_number (Or.inr rfl), scanNumber, scanDigits]
    have hmove : NumberState.init.move 0x30 = .goto .zero := by decide
    rw [hmove]
    dsimp only [NumberState.type]
    rw [scanDigits_zero _ _ hrest]
    rfl
  · have hnat : i.natAbs ≠ 0 := Int.natAbs_ne_zero.mpr hzero
    have hnone : ∀ b ∈ ([] : Bytes), isDecimal b = true := by simp
    obtain ⟨b, ds, hdigits, hb, hdecimal, hds⟩ :=
      digits_eq_cons (Nat.lt_succ_self i.natAbs) hnat hnone
    have hvalue : strtoull (b :: ds) = i.natAbs := hdigits ▸ strtoull_digits i.natAbs
    have hminus : b ≠ 0x2D := by
      rintro rfl
      exact absurd hdecimal (by decide)
    by_cases hneg : i < 0
    · have htext : integerText i = 0x2D :: b :: ds := by
        rw [integerText, if_pos hneg, hdigits]
        rfl
      have hinit : NumberState.init.move 0x2D = .goto .minus := by decide
      have hmove : NumberState.minus.move b = .goto .any1 := by
        simp [NumberState.move, hb, hdecimal]
      have htoken : convert strtod .integer (0x2D :: b :: ds) = .valueInteger i := by
        rw [convert, List.drop_one, List.tail_cons, hvalue, if_pos (by omega)]
        congr 1
        omega
      refine .single ?_ (by rw [integerToken, if_pos hneg]; rfl)
      rw [htext, List.cons_append, scan_number (Or.inl rfl), scanNumber, scanDigits, hinit]
      dsimp only [NumberState.type]
      rw [List.cons_append, scanDigits, hmove]
      dsimp only [NumberState.type]
      rw [scanDigits_any1 _ _ hds hrest]
      dsimp only [List.nil_append, List.cons_append]
      rw [htoken, integerToken, if_pos hneg]
    · have htext : integerText i = b :: ds := by rw [integerText, if_neg hneg, hdigits]
      have hmove : NumberState.init.move b = .goto .any1 := by
        simp [NumberState.move, hb, hminus]
      have htoken : convert strtod .unsigned (b :: ds) = .valueUnsigned i.natAbs := by
        rw [convert, hvalue, if_pos (by omega)]
      refine .single ?_ (by rw [integerToken, if_neg hneg]; rfl)
      rw [htext, List.cons_append, scan_number (Or.inr hdecimal), scanNumber, scanDigits, hmove]
      dsimp only [NumberState.type]
      rw [scanDigits_any1 _ _ hds hrest]
      dsimp only [List.nil_append, List.cons_append]
      rw [htoken, integerToken, if_neg hneg]

end AsioServer.Infra.Lexer
