/-
AsioServer.Infra.JsonRoundTrip — `parse` and `dump` undo each other.

`parse_eq_some_iff` says for the bytes of a text what `parseTokens_eq_some_iff`
says for its tokens. From it follow the two halves.

* What `parse` answers is a value that `dump` can write (`valid_of_parse`): its
  strings are UTF-8, its integers fit into 64 bits and the entries of its
  objects are in the order of their keys, each key once. So the parser meets
  what the server asks of the library (`JsonLib.nlohmann`).
* What `dump` writes of such a value is parsed as this value again, whatever the
  indent (`parse_of_text`).

The text of a floating-point number is not modelled. The second half asks that
`strtod` reads it back (`ReadsBack`), for the numbers that occur in the value.
-/
import AsioServer.Infra.JsonGrammar
import AsioServer.Infra.JsonTextTheorems

namespace AsioServer.Infra

open AsioServer.Core AsioServer.Lib Lexer

variable {strtod : Bytes → Option Rat} {lib : JsonLib} {floats : Rat → Prop}

/-! ## The values that have a text -/

mutual

/-- A value as the parser answers it, with floating-point numbers of the given kind. -/
def Json.Valid (floats : Rat → Prop) : Json → Prop
  | .null | .boolean _ => True
  | .integer i => -2 ^ 63 ≤ i ∧ i < 2 ^ 64
  | .float q => floats q
  | .string s => isUtf8 s = true
  | .array items => ValidItems floats items
  | .object fields => OrderedMap.Sorted fields ∧ ValidFields floats fields

def ValidItems (floats : Rat → Prop) : List Json → Prop
  | [] => True
  | j :: items => j.Valid floats ∧ ValidItems floats items

def ValidFields (floats : Rat → Prop) : List (Bytes × Json) → Prop
  | [] => True
  | (key, j) :: fields => isUtf8 key = true ∧ j.Valid floats ∧ ValidFields floats fields

end

/-! ## Lists in the grammar -/

theorem IsItems.of_forall₂ {items : List Json} {tss : List (List Token)} (hne : items ≠ [])
    (h : List.Forall₂ IsValue items tss) :
    IsItems items (tss.intersperse [.valueSeparator]).flatten := by
  induction h with
  | nil => exact absurd rfl hne
  | @cons j ts items tss hj hitems ih =>
      cases hitems with
      | nil => simpa using IsItems.last hj
      | cons hnext hrest => simpa using IsItems.cons hj (ih (by simp))

/-- The tokens of one member of an object. -/
def IsMember (member : Bytes × Json) (ts : List Token) : Prop :=
  ∃ us, IsValue member.2 us ∧ ts = .valueString member.1 :: .nameSeparator :: us

theorem IsMembers.of_forall₂ {members : List (Bytes × Json)} {tss : List (List Token)}
    (hne : members ≠ []) (h : List.Forall₂ IsMember members tss) :
    IsMembers members (tss.intersperse [.valueSeparator]).flatten := by
  induction h with
  | nil => exact absurd rfl hne
  | @cons member ts members tss hmember hmembers ih =>
      obtain ⟨us, hj, rfl⟩ := hmember
      cases hmembers with
      | nil => simpa using IsMembers.last hj
      | cons hnext hrest => simpa using IsMembers.cons hj (ih (by simp))

mutual

/-- No token of a value ends the input. -/
theorem IsValue.not_isLast {j : Json} {ts : List Token} :
    IsValue j ts → ∀ t ∈ ts, isLast t = false
  | .scalar (t := t) h => by
      intro u hu
      obtain rfl := List.mem_singleton.mp hu
      cases u <;> first | rfl | exact absurd h (by simp [scalar])
  | .emptyArray => by decide
  | .emptyObject => by decide
  | .array hitems => by
      have ih := hitems.not_isLast
      simp only [List.mem_cons, List.mem_append, List.not_mem_nil, or_false]
      rintro t (rfl | ht | rfl)
      exacts [rfl, ih t ht, rfl]
  | .object hmembers => by
      have ih := hmembers.not_isLast
      simp only [List.mem_cons, List.mem_append, List.not_mem_nil, or_false]
      rintro t (rfl | ht | rfl)
      exacts [rfl, ih t ht, rfl]

theorem IsItems.not_isLast {items : List Json} {ts : List Token} :
    IsItems items ts → ∀ t ∈ ts, isLast t = false
  | .last hj => hj.not_isLast
  | .cons hj hitems => by
      have ihj := hj.not_isLast
      have ih := hitems.not_isLast
      simp only [List.mem_cons, List.mem_append]
      rintro t (ht | rfl | ht)
      exacts [ihj t ht, rfl, ih t ht]

theorem IsMembers.not_isLast {members : List (Bytes × Json)} {ts : List Token} :
    IsMembers members ts → ∀ t ∈ ts, isLast t = false
  | .last hj => by
      have ihj := hj.not_isLast
      simp only [List.mem_cons]
      rintro t (rfl | rfl | ht)
      exacts [rfl, rfl, ihj t ht]
  | .cons hj hmembers => by
      have ihj := hj.not_isLast
      have ih := hmembers.not_isLast
      simp only [List.mem_cons, List.mem_append]
      rintro t (rfl | rfl | ht | rfl | ht)
      exacts [rfl, rfl, ihj t ht, rfl, ih t ht]

end

/-! ## parse on bytes -/

/-- **A text is accepted when its bytes spell a value**, and nothing but white space stands
behind it if the parser is strict. -/
theorem parse_eq_some_iff {strict : Bool} {text : Bytes} {j : Json} :
    parse strtod strict text = some j ↔
      ∃ input ts rest, skipBom text = some input ∧ Lexes strtod input ts rest ∧ IsValue j ts ∧
        (strict = true → (scan strtod rest).1 = .endOfInput) := by
  rw [parse, Option.bind_eq_some_iff]
  constructor
  · rintro ⟨input, hbom, h⟩
    obtain ⟨ts, us, htokens, hvalue, hend⟩ := parseTokens_eq_some_iff.mp h
    obtain ⟨rest, hlexes, hrest⟩ := lexes_of_tokens htokens hvalue.not_isLast
    refine ⟨input, ts, rest, hbom, hlexes, hvalue, fun hstrict => ?_⟩
    have hhead := hend hstrict
    rw [← hrest, head?_tokens] at hhead
    exact Option.some.inj hhead
  · rintro ⟨input, ts, rest, hbom, hlexes, hvalue, hend⟩
    refine ⟨input, hbom, parseTokens_eq_some_iff.mpr
      ⟨ts, tokens strtod rest, tokens_of_lexes hlexes, hvalue, fun hstrict => ?_⟩⟩
    rw [head?_tokens, hend hstrict]

/-! ## What parse answers -/

/-- A number that `strtod` can answer. -/
def IsResult (strtod : Bytes → Option Rat) (q : Rat) : Prop := ∃ text, strtod text = some q

theorem validItems_iff {items : List Json} :
    ValidItems floats items ↔ ∀ j ∈ items, j.Valid floats := by
  induction items with
  | nil => simp [ValidItems]
  | cons j items ih => simp [ValidItems, ih]

theorem validFields_iff {fields : List (Bytes × Json)} :
    ValidFields floats fields ↔ ∀ m ∈ fields, isUtf8 m.1 = true ∧ m.2.Valid floats := by
  induction fields with
  | nil => simp [ValidFields]
  | cons m fields ih => simp [ValidFields, ih, and_assoc]

theorem valid_scalar {t : Token} {j : Json} (ht : Fits strtod t) (h : scalar t = some j) :
    j.Valid (IsResult strtod) := by
  cases t with
  | literalTrue | literalFalse | literalNull =>
      obtain rfl := Option.some.inj h
      exact trivial
  | valueString s =>
      obtain rfl := Option.some.inj h
      exact ht
  | valueUnsigned n =>
      obtain rfl := Option.some.inj h
      have hn : n < 2 ^ 64 := ht
      constructor <;> omega
  | valueInteger i =>
      obtain rfl := Option.some.inj h
      have hi : -2 ^ 63 ≤ i ∧ i ≤ 0 := ht
      constructor <;> omega
  | valueFloat q =>
      obtain ⟨q, rfl, rfl⟩ := Option.map_eq_some_iff.mp h
      exact ht
  | beginArray | beginObject | endArray | endObject | nameSeparator | valueSeparator
  | parseError | endOfInput => exact absurd h (by simp [scalar])

mutual

theorem valid_of_isValue {j : Json} {ts : List Token} :
    IsValue j ts → (∀ t ∈ ts, Fits strtod t) → j.Valid (IsResult strtod)
  | .scalar h, hts => valid_scalar (hts _ (List.mem_singleton_self _)) h
  | .emptyArray, _ => trivial
  | .emptyObject, _ => ⟨List.Pairwise.nil, trivial⟩
  | .array hitems, hts => by
      refine validItems_iff.mpr (valid_of_isItems hitems fun t ht => hts t ?_)
      exact List.mem_cons_of_mem _ (List.mem_append_left _ ht)
  | @IsValue.object members _ hmembers, hts => by
      have hvalid := valid_of_isMembers hmembers fun t ht =>
        hts t (List.mem_cons_of_mem _ (List.mem_append_left _ ht))
      exact ⟨OrderedMap.sorted_ofList members,
        validFields_iff.mpr fun m hm => hvalid m (OrderedMap.mem_of_ofList hm)⟩

theorem valid_of_isItems {items : List Json} {ts : List Token} :
    IsItems items ts → (∀ t ∈ ts, Fits strtod t) → ∀ j ∈ items, j.Valid (IsResult strtod)
  | .last hj, hts => by
      have hvalid := valid_of_isValue hj hts
      simpa using hvalid
  | .cons hj hitems, hts => by
      have hfirst := valid_of_isValue hj fun t ht => hts t (List.mem_append_left _ ht)
      have hothers := valid_of_isItems hitems fun t ht =>
        hts t (List.mem_append_right _ (List.mem_cons_of_mem _ ht))
      exact List.forall_mem_cons.mpr ⟨hfirst, hothers⟩

theorem valid_of_isMembers {members : List (Bytes × Json)} {ts : List Token} :
    IsMembers members ts → (∀ t ∈ ts, Fits strtod t) →
      ∀ m ∈ members, isUtf8 m.1 = true ∧ m.2.Valid (IsResult strtod)
  | @IsMembers.last key _ _ hj, hts => by
      have hkey : isUtf8 key = true := hts _ List.mem_cons_self
      have hvalid := valid_of_isValue hj fun t ht =>
        hts t (List.mem_cons_of_mem _ (List.mem_cons_of_mem _ ht))
      simpa using And.intro hkey hvalid
  | @IsMembers.cons key _ _ _ _ hj hmembers, hts => by
      have hkey : isUtf8 key = true := hts _ List.mem_cons_self
      have hrest : ∀ t ∈ _, Fits strtod t := fun t ht =>
        hts t (List.mem_cons_of_mem _ (List.mem_cons_of_mem _ ht))
      have hfirst := valid_of_isValue hj fun t ht => hrest t (List.mem_append_left _ ht)
      have hothers := valid_of_isMembers hmembers fun t ht =>
        hrest t (List.mem_append_right _ (List.mem_cons_of_mem _ ht))
      exact List.forall_mem_cons.mpr ⟨⟨hkey, hfirst⟩, hothers⟩

end

/-- **What `parse` answers is valid**: UTF-8, 64 bits, and each key once in its order. -/
theorem valid_of_parse {strict : Bool} {text : Bytes} {j : Json}
    (h : parse strtod strict text = some j) : j.Valid (IsResult strtod) := by
  obtain ⟨input, ts, rest, -, hlexes, hvalue, -⟩ := parse_eq_some_iff.mp h
  exact valid_of_isValue hvalue (fits_of_lexes hlexes)

mutual

theorem isText_of_valid : ∀ {j : Json}, j.Valid floats → j.isText = true
  | .null, _ | .boolean _, _ | .integer _, _ | .float _, _ => rfl
  | .string _, h => h
  | .array _, h => isTextItems_of_valid h
  | .object _, h => isTextFields_of_valid h.2

theorem isTextItems_of_valid : ∀ {items : List Json}, ValidItems floats items →
    isTextItems items = true
  | [], _ => rfl
  | j :: items, h => by
      rw [isTextItems, isText_of_valid h.1, isTextItems_of_valid h.2]
      rfl

theorem isTextFields_of_valid : ∀ {fields : List (Bytes × Json)}, ValidFields floats fields →
    isTextFields fields = true
  | [], _ => rfl
  | (key, j) :: fields, h => by
      rw [isTextFields, h.1, isText_of_valid h.2.1, isTextFields_of_valid h.2.2]
      rfl

end

mutual

/-- Validity only weakens with the floating-point numbers. -/
theorem Json.Valid.imp {p q : Rat → Prop} (hpq : ∀ x, p x → q x) :
    ∀ {j : Json}, j.Valid p → j.Valid q
  | .null, _ | .boolean _, _ => trivial
  | .integer _, h => h
  | .float _, h => hpq _ h
  | .string _, h => h
  | .array _, h => ValidItems.imp hpq h
  | .object _, h => ⟨h.1, ValidFields.imp hpq h.2⟩

theorem ValidItems.imp {p q : Rat → Prop} (hpq : ∀ x, p x → q x) :
    ∀ {items : List Json}, ValidItems p items → ValidItems q items
  | [], _ => trivial
  | _ :: _, h => ⟨Json.Valid.imp hpq h.1, ValidItems.imp hpq h.2⟩

theorem ValidFields.imp {p q : Rat → Prop} (hpq : ∀ x, p x → q x) :
    ∀ {fields : List (Bytes × Json)}, ValidFields p fields → ValidFields q fields
  | [], _ => trivial
  | _ :: _, h => ⟨h.1, Json.Valid.imp hpq h.2.1, ValidFields.imp hpq h.2.2⟩

end

/-- The library as it is, up to the conversions of floating-point numbers. -/
def JsonLib.nlohmann (strtod : Bytes → Option Rat) (floatText : Rat → Bytes) : JsonLib where
  parse := Infra.parse strtod true
  floatText := floatText
  parse_isText h := isText_of_valid (valid_of_parse h)

/-! ## The text of a value -/

/-- The text is read as the tokens, of which there is one at least. -/
structure Spells (strtod : Bytes → Option Rat) (text : Bytes) (ts : List Token) : Prop where
  lexes : LexesAs strtod text ts
  ne_nil : ts ≠ []

theorem ends_cons {b : UInt8} (h : isDecimal b = false ∧ b ≠ 0x2E ∧ isExponent b = false)
    (rest : Bytes) : Ends (b :: rest) := by
  intro c hc
  obtain rfl : b = c := by simpa using hc
  exact h

theorem ends_space {w : Bytes} (hw : ∀ b ∈ w, isSpace b = true) {rest : Bytes} (h : Ends rest) :
    Ends (w ++ rest) := by
  cases w with
  | nil => exact h
  | cons b w =>
      have hb : isSpace b = true := hw b List.mem_cons_self
      refine ends_cons ?_ _
      simp only [isSpace, Bool.or_eq_true, beq_iff_eq] at hb
      rcases hb with ((rfl | rfl) | rfl) | rfl <;> decide

theorem Lexer.Lexes.of_scan_eq {input input' rest : Bytes} {t : Token} {ts : List Token}
    (h : Lexes strtod input (t :: ts) rest) (heq : scan strtod input' = scan strtod input) :
    Lexes strtod input' (t :: ts) rest := by
  cases h with
  | cons hscan ht hothers => exact .cons (heq.trans hscan) ht hothers

/-- White space in front of a text changes nothing. -/
theorem Spells.spaces {text w : Bytes} {ts : List Token} (h : Spells strtod text ts)
    (hw : ∀ b ∈ w, isSpace b = true) : Spells strtod (w ++ text) ts := by
  refine ⟨fun rest hrest => ?_, h.ne_nil⟩
  obtain ⟨t, ts, rfl⟩ := List.exists_cons_of_ne_nil h.ne_nil
  rw [List.append_assoc]
  exact (h.lexes rest hrest).of_scan_eq (scan_spaces hw _)

/-- One text behind the other, when the second does not go on a number. -/
theorem Spells.append {a b : Bytes} {ts us : List Token} (ha : Spells strtod a ts)
    (hb : Spells strtod b us) (hends : ∀ rest, Ends rest → Ends (b ++ rest)) :
    Spells strtod (a ++ b) (ts ++ us) := by
  refine ⟨fun rest hrest => ?_, by simp [ha.ne_nil]⟩
  rw [List.append_assoc]
  exact (ha.lexes _ (hends rest hrest)).append (hb.lexes rest hrest)

/-- What can stand behind a structural character, and that it stands behind a number. -/
theorem of_structural {b : UInt8} {t : Token} (h : structural.lookup b = some t) :
    isSpace b = false ∧ isLast t = false ∧
      (isDecimal b = false ∧ b ≠ 0x2E ∧ isExponent b = false) := by
  have hall : structural.all (fun e => !isSpace e.1 && !isLast e.2 &&
      (!isDecimal e.1 && e.1 != 0x2E && !isExponent e.1)) = true := by decide
  simpa [and_assoc] using List.all_eq_true.mp hall (b, t) (Table.mem_of_lookup h)

/-- A structural character, whatever stands behind it. -/
theorem lexes_structural {b : UInt8} {t : Token} (h : structural.lookup b = some t)
    (rest : Bytes) : Lexes strtod (b :: rest) [t] rest := by
  obtain ⟨hspace, hlast, -⟩ := of_structural h
  exact .single (by rw [scan_cons hspace, scanToken_structural h]) hlast

/-- A structural character and a text behind it. -/
theorem Spells.structural {b : UInt8} {t : Token} (h : structural.lookup b = some t)
    {text : Bytes} {ts : List Token} (htext : LexesAs strtod text ts) :
    Spells strtod (b :: text) (t :: ts) :=
  ⟨fun rest hrest => (lexes_structural h (text ++ rest)).append (htext rest hrest), by simp⟩

/-- Texts with commas between them; white space may stand around each. -/
theorem spells_join {texts : List Bytes} {tss : List (List Token)} {pad w : Bytes}
    (hne : texts ≠ []) (hpad : ∀ b ∈ pad, isSpace b = true) (hw : ∀ b ∈ w, isSpace b = true)
    (h : List.Forall₂ (Spells strtod) texts tss) :
    Spells strtod (((texts.map fun m => pad ++ m).intersperse (0x2C :: w)).flatten)
      (tss.intersperse [.valueSeparator]).flatten := by
  induction h with
  | nil => exact absurd rfl hne
  | @cons text ts texts tss htext htexts ih =>
      cases htexts with
      | nil => simpa using htext.spaces hpad
      | @cons next us texts tss hnext hrest =>
          have hothers := (ih (by simp)).spaces hw
          have hcomma : structural.lookup 0x2C = some .valueSeparator := by decide
          have hjoin := (htext.spaces hpad).append (.structural hcomma hothers.lexes)
            fun rest _ => ends_cons (of_structural hcomma).2.2 _
          simpa using hjoin

/-- `bracket` is an opening bracket, the members with commas between them, and the closing
bracket, with white space in between. -/
theorem bracket_eq (step : Option Nat) (cur : Nat) (left right : Bytes) {texts : List Bytes}
    (hne : texts ≠ []) : ∃ pad w before after : Bytes,
      (∀ b ∈ pad ++ w ++ before ++ after, isSpace b = true) ∧
      bracket step cur left right texts = left ++ (before ++
        (((texts.map fun m => pad ++ m).intersperse (0x2C :: w)).flatten ++ (after ++ right))) := by
  obtain ⟨text, texts, rfl⟩ := List.exists_cons_of_ne_nil hne
  have hcomma : ascii "," = [0x2C] := by decide
  have hline : ascii ",\n" = [0x2C, 0x0A] := by decide
  have hnewline : ascii "\n" = [0x0A] := by decide
  cases step with
  | none => exact ⟨[], [], [], [], by simp, by simp [bracket, hcomma]⟩
  | some n =>
      refine ⟨List.replicate (cur + n) 0x20, [0x0A], [0x0A], 0x0A :: List.replicate cur 0x20,
        ?_, by simp [bracket, hline, hnewline]⟩
      intro b hb
      simp only [List.mem_append, List.mem_cons, List.not_mem_nil, or_false,
        List.mem_replicate] at hb
      rcases hb with ((⟨-, rfl⟩ | rfl) | rfl) | rfl | ⟨-, rfl⟩ <;> decide

theorem spells_bracket {l r : UInt8} {opening closing : Token}
    (hl : structural.lookup l = some opening) (hr : structural.lookup r = some closing)
    (step : Option Nat) (cur : Nat) {texts : List Bytes} {tss : List (List Token)}
    (hne : texts ≠ []) (h : List.Forall₂ (Spells strtod) texts tss) :
    Spells strtod (bracket step cur [l] [r] texts)
      (opening :: ((tss.intersperse [.valueSeparator]).flatten ++ [closing])) := by
  obtain ⟨pad, w, before, after, hspace, htext⟩ := bracket_eq step cur [l] [r] hne
  simp only [List.mem_append, or_imp, forall_and] at hspace
  obtain ⟨⟨⟨hpad, hw⟩, hbefore⟩, hafter⟩ := hspace
  have hclosing : Spells strtod [r] [closing] := .structural hr fun _ _ => .nil
  have hmembers := (spells_join hne hpad hw h).append (hclosing.spaces hafter) fun rest _ => by
    rw [List.append_assoc]
    exact ends_space hafter (ends_cons (of_structural hr).2.2 rest)
  rw [htext]
  exact .structural hl (hmembers.spaces hbefore).lexes

/-- The text of a floating-point number is read back. -/
def ReadsBack (strtod : Bytes → Option Rat) (floatText : Rat → Bytes) (q : Rat) : Prop :=
  LexesAs strtod (floatText q) [.valueFloat (some q)]

mutual

/-- **A valid value has a text**, and its tokens spell the value. -/
theorem spells_text (step : Option Nat) (cur : Nat) : ∀ {j : Json},
    j.Valid (ReadsBack strtod lib.floatText) →
      ∃ text ts, j.text lib step cur = some text ∧ IsValue j ts ∧ Spells strtod text ts
  | .null, _ => ⟨_, _, rfl, .scalar rfl, lexesAs_null, by simp⟩
  | .boolean true, _ => ⟨_, _, rfl, .scalar rfl, lexesAs_true, by simp⟩
  | .boolean false, _ => ⟨_, _, rfl, .scalar rfl, lexesAs_false, by simp⟩
  | .integer i, h => by
      refine ⟨_, [integerToken i], rfl, .scalar ?_, lexesAs_integerText h.1 h.2, by simp⟩
      unfold integerToken
      split
      · rfl
      · next hi =>
        change some (Json.integer i.natAbs) = _
        rw [Int.natAbs_of_nonneg (Int.not_lt.mp hi)]
  | .float q, h => ⟨_, _, rfl, .scalar rfl, h, by simp⟩
  | .string s, h => by
      obtain ⟨text, htext⟩ := Option.isSome_iff_exists.mp ((isSome_quoted s).trans h)
      exact ⟨text, _, htext, .scalar rfl, lexesAs_quoted htext, by simp⟩
  | .array [], _ => by
      have htext : Json.text lib step cur (.array []) = some [0x5B, 0x5D] := by
        have hl : ascii "[" = [0x5B] := by decide
        have hr : ascii "]" = [0x5D] := by decide
        rw [Json.text, textItems, Option.map_some, bracket, hl, hr]
        rfl
      refine ⟨_, _, htext, .emptyArray, .structural (by decide) fun rest _ => ?_⟩
      exact lexes_structural (by decide) rest
  | .array (j :: items), h => by
      obtain ⟨texts, tss, htexts, hitems, hspells⟩ :=
        spells_textItems step (cur + step.getD 0) h
      have hne : texts ≠ [] := by
        rintro rfl
        cases hspells
        cases hitems
      have hl : ascii "[" = [0x5B] := by decide
      have hr : ascii "]" = [0x5D] := by decide
      refine ⟨_, _, by rw [Json.text, htexts, Option.map_some, hl, hr],
        .array (.of_forall₂ (by simp) hitems), ?_⟩
      exact spells_bracket (by decide) (by decide) step cur hne hspells
  | .object [], _ => by
      have htext : Json.text lib step cur (.object []) = some [0x7B, 0x7D] := by
        have hl : ascii "\x7b" = [0x7B] := by decide
        have hr : ascii "\x7d" = [0x7D] := by decide
        rw [Json.text, textFields, Option.map_some, bracket, hl, hr]
        rfl
      refine ⟨_, _, htext, .emptyObject, .structural (by decide) fun rest _ => ?_⟩
      exact lexes_structural (by decide) rest
  | .object (m :: fields), h => by
      obtain ⟨texts, tss, htexts, hmembers, hspells⟩ :=
        spells_textFields step (cur + step.getD 0) h.2
      have hne : texts ≠ [] := by
        rintro rfl
        cases hspells
        cases hmembers
      have hl : ascii "\x7b" = [0x7B] := by decide
      have hr : ascii "\x7d" = [0x7D] := by decide
      have hobject : IsValue (.object (m :: fields))
          (.beginObject :: ((tss.intersperse [.valueSeparator]).flatten ++ [.endObject])) := by
        have hmap : mapOf (m :: fields) = m :: fields := OrderedMap.ofList_of_sorted h.1
        have hvalue := IsValue.object (IsMembers.of_forall₂ (by simp) hmembers)
        rwa [hmap] at hvalue
      refine ⟨_, _, by rw [Json.text, htexts, Option.map_some, hl, hr], hobject, ?_⟩
      exact spells_bracket (by decide) (by decide) step cur hne hspells

theorem spells_textItems (step : Option Nat) (cur : Nat) : ∀ {items : List Json},
    ValidItems (ReadsBack strtod lib.floatText) items →
      ∃ texts tss, textItems lib step cur items = some texts ∧
        List.Forall₂ IsValue items tss ∧ List.Forall₂ (Spells strtod) texts tss
  | [], _ => ⟨[], [], rfl, .nil, .nil⟩
  | j :: items, h => by
      obtain ⟨text, ts, htext, hvalue, hspells⟩ := spells_text step cur h.1
      obtain ⟨texts, tss, htexts, hvalues, hothers⟩ := spells_textItems step cur h.2
      refine ⟨text :: texts, ts :: tss, ?_, .cons hvalue hvalues, .cons hspells hothers⟩
      rw [textItems, htext, htexts]
      rfl

theorem spells_textFields (step : Option Nat) (cur : Nat) : ∀ {fields : List (Bytes × Json)},
    ValidFields (ReadsBack strtod lib.floatText) fields →
      ∃ texts tss, textFields lib step cur fields = some texts ∧
        List.Forall₂ IsMember fields tss ∧ List.Forall₂ (Spells strtod) texts tss
  | [], _ => ⟨[], [], rfl, .nil, .nil⟩
  | (key, j) :: fields, h => by
      obtain ⟨name, hname⟩ := Option.isSome_iff_exists.mp ((isSome_quoted key).trans h.1)
      obtain ⟨text, ts, htext, hvalue, hspells⟩ := spells_text step cur h.2.1
      obtain ⟨texts, tss, htexts, hmembers, hothers⟩ := spells_textFields step cur h.2.2
      have hcolon : ∃ w : Bytes, (∀ b ∈ w, isSpace b = true) ∧
          ascii (if step.isSome then ": " else ":") = 0x3A :: w := by
        cases step with
        | none => exact ⟨[], by simp, by decide⟩
        | some n =>
            have hspace : ascii ": " = [0x3A, 0x20] := by decide
            exact ⟨[0x20], by simp [isSpace], hspace⟩
      obtain ⟨w, hw, hcolon⟩ := hcolon
      have hlookup : structural.lookup 0x3A = some .nameSeparator := by decide
      have hkey : Spells strtod name [.valueString key] := ⟨lexesAs_quoted hname, by simp⟩
      have hfield := hkey.append (.structural hlookup (hspells.spaces hw).lexes)
        fun rest _ => ends_cons (of_structural hlookup).2.2 _
      refine ⟨(name ++ 0x3A :: w ++ text) :: texts, _ :: tss, ?_,
        .cons ⟨ts, hvalue, rfl⟩ hmembers, .cons ?_ hothers⟩
      · rw [textFields, hname, htext, htexts, hcolon]
        rfl
      · simpa using hfield

end

/-! ## Round trips -/

/-- A text that begins with a token begins with no byte order mark. -/
theorem skipBom_of_lexes {input rest : Bytes} {t : Token} {ts : List Token}
    (h : Lexes strtod input (t :: ts) rest) : skipBom input = some input := by
  unfold skipBom
  split
  · next hbom =>
    obtain ⟨tail, rfl⟩ := List.isPrefixOf_iff_prefix.mp hbom
    have hscan : scan strtod (0xEF :: tail) = (.parseError, []) := by
      rw [scan_cons (by decide), scanToken_other (by decide) (by decide) (by decide),
        if_neg (by decide), if_neg (by decide)]
    cases h with
    | cons hfirst hlast _ =>
        obtain ⟨rfl, -⟩ := Prod.mk.inj (hscan.symm.trans hfirst)
        exact absurd hlast (by decide)
  · rfl

theorem parse_of_spells {text : Bytes} {ts : List Token} {j : Json} (h : Spells strtod text ts)
    (hvalue : IsValue j ts) (strict : Bool) : parse strtod strict text = some j := by
  have hlexes := h.lexes [] (fun b hb => absurd hb (by simp))
  rw [List.append_nil] at hlexes
  obtain ⟨t, ts, rfl⟩ := List.exists_cons_of_ne_nil h.ne_nil
  exact parse_eq_some_iff.mpr
    ⟨text, t :: ts, [], skipBom_of_lexes hlexes, hlexes, hvalue, fun _ => rfl⟩

variable (strtod lib) in
/-- **What is dumped is parsed as the same value.** -/
theorem parse_of_text {j : Json} (hj : j.Valid (ReadsBack strtod lib.floatText))
    (step : Option Nat) (cur : Nat) : ∃ text, j.text lib step cur = some text ∧
      ∀ strict, parse strtod strict text = some j := by
  obtain ⟨text, ts, htext, hvalue, hspells⟩ := spells_text step cur hj
  exact ⟨text, htext, fun strict => parse_of_spells hspells hvalue strict⟩

section

variable {floatText : Rat → Bytes}

/-- **The library parses what it dumps**, with every indent. -/
theorem nlohmann_dump_parses_back {j : Json} (hj : j.Valid (ReadsBack strtod floatText))
    (step : Option Nat) : ∃ text, j.text (.nlohmann strtod floatText) step 0 = some text ∧
      (JsonLib.nlohmann strtod floatText).parse text = some j := by
  obtain ⟨text, htext, hparse⟩ := parse_of_text strtod (.nlohmann strtod floatText) hj step 0
  exact ⟨text, htext, hparse true⟩

theorem nlohmann_dump_parses_back_nested :
    ∃ text, (Json.object [(ascii "k", .array [.integer (-7), .string [0x0A, 0xC3, 0xA9]]),
        (ascii "l", .null)]).text (.nlohmann (fun _ => none) fun _ => []) (some 4) 0 = some text ∧
      (JsonLib.nlohmann (fun _ => none) fun _ => []).parse text =
        some (.object [(ascii "k", .array [.integer (-7), .string [0x0A, 0xC3, 0xA9]]),
          (ascii "l", .null)]) := by
  have hinteger : (-2 ^ 63 : Int) ≤ -7 ∧ (-7 : Int) < 2 ^ 64 := by decide
  have hj : Json.Valid (ReadsBack (fun _ => none) fun _ => [])
      (.object [(ascii "k", .array [.integer (-7), .string [0x0A, 0xC3, 0xA9]]),
        (ascii "l", .null)]) :=
    ⟨by decide, by decide, ⟨hinteger, rfl, trivial⟩, by decide, trivial, trivial⟩
  exact nlohmann_dump_parses_back hj (some 4)

/-- **Dumping what was parsed changes nothing any more**: the text that is written for an
accepted one is accepted again, as the same value. -/
theorem nlohmann_normalizes {text : Bytes} {j : Json}
    (hfloats : ∀ q, IsResult strtod q → ReadsBack strtod floatText q)
    (h : (JsonLib.nlohmann strtod floatText).parse text = some j) (step : Option Nat) :
    ∃ text', j.text (.nlohmann strtod floatText) step 0 = some text' ∧
      (JsonLib.nlohmann strtod floatText).parse text' = some j := by
  have hj := (valid_of_parse h).imp hfloats
  obtain ⟨text', htext, hparse⟩ := parse_of_text strtod (.nlohmann strtod floatText) hj step 0
  exact ⟨text', htext, hparse true⟩

theorem nlohmann_normalizes_members : ∃ text',
    (Json.object [(ascii "a", .integer 2), (ascii "b", .integer 3)]).text
      (.nlohmann (fun _ => none) fun _ => []) none 0 = some text' ∧
    (JsonLib.nlohmann (fun _ => none) fun _ => []).parse text' =
      some (.object [(ascii "a", .integer 2), (ascii "b", .integer 3)]) := by
  have hparse : (JsonLib.nlohmann (fun _ => none) fun _ => []).parse
      (ascii " \x7b\"b\":1, \"a\":2,\"b\":3\x7d\n") =
        some (.object [(ascii "a", .integer 2), (ascii "b", .integer 3)]) := rfl
  exact nlohmann_normalizes (fun q ⟨_, hq⟩ => absurd hq (by simp)) hparse none

/-- The tokens between the braces of an object. -/
def SpellsMembers (members : List (Bytes × Json)) (ts : List Token) : Prop :=
  members = [] ∧ ts = [] ∨ IsMembers members ts

theorem isValue_object_iff {fields : List (Bytes × Json)} {ts : List Token} :
    IsValue (.object fields) ts ↔
      ∃ members us, SpellsMembers members us ∧ fields = mapOf members ∧
        ts = .beginObject :: (us ++ [.endObject]) := by
  constructor
  · intro h
    cases h with
    | @scalar t _ ht => cases t <;> simp [scalar] at ht
    | emptyObject => exact ⟨[], [], Or.inl ⟨rfl, rfl⟩, rfl, rfl⟩
    | object hmembers => exact ⟨_, _, Or.inr hmembers, rfl, rfl⟩
  · rintro ⟨members, us, ⟨rfl, rfl⟩ | hmembers, rfl, rfl⟩
    · exact .emptyObject
    · exact .object hmembers

/-- **The members of an object that is accepted**: the text spells them in any order and as
often as it likes, and each key has the value that was given to it last. -/
theorem parse_object_iff {strict : Bool} {text : Bytes} {fields : List (Bytes × Json)} :
    parse strtod strict text = some (.object fields) ↔
      ∃ input members ts rest, skipBom text = some input ∧ SpellsMembers members ts ∧
        Lexes strtod input (.beginObject :: (ts ++ [.endObject])) rest ∧
        (strict = true → (scan strtod rest).1 = .endOfInput) ∧
        OrderedMap.Sorted fields ∧ ∀ key, fields.lookup key = members.reverse.lookup key := by
  constructor
  · intro h
    obtain ⟨input, ts, rest, hbom, hlexes, hvalue, hend⟩ := parse_eq_some_iff.mp h
    obtain ⟨members, us, hspells, rfl, rfl⟩ := isValue_object_iff.mp hvalue
    exact ⟨input, members, us, rest, hbom, hspells, hlexes, hend,
      OrderedMap.sorted_ofList members, OrderedMap.lookup_ofList members⟩
  · rintro ⟨input, members, ts, rest, hbom, hspells, hlexes, hend, hsorted, hlookup⟩
    have hfields : fields = mapOf members :=
      OrderedMap.eq_of_lookup_eq hsorted (OrderedMap.sorted_ofList members) fun key =>
        (hlookup key).trans (OrderedMap.lookup_ofList members key).symm
    exact parse_eq_some_iff.mpr ⟨input, _, rest, hbom, hlexes,
      isValue_object_iff.mpr ⟨members, ts, hspells, hfields, rfl⟩, hend⟩

/-- **What stands behind a NUL is not looked at.** -/
theorem parse_nul (strict : Bool) (text behind : Bytes) :
    parse strtod strict (text ++ 0 :: behind) = parse strtod strict text := by
  rw [parse, parse, skipBom_nul]
  cases skipBom text with
  | none => rfl
  | some input => rw [Option.map_some, Option.bind_some, Option.bind_some, tokens_nul]

end

end AsioServer.Infra
