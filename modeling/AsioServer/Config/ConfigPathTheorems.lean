/-
AsioServer.Config.ConfigPathTheorems — which value a key of the configuration means.

A path leads from a JSON value down to one inside it, by the names of members and
the places of items (`At`). Every path that is not empty has one key, its steps
escaped and joined by `/` (`keyOf`), and a key that means anything is the key of
one path (`tokens_eq_some_iff`): a token takes the place of an item in its shortest
decimal form only (`arrayIndex_eq_some_iff`).

So the answers of a reader are the values that paths lead to, in the JSON of the
last load that succeeded, as long as its first load did (`get_after_run_iff`).
-/
import AsioServer.Config.ConfigReaderTheorems
import AsioServer.Infra.JsonTextTheorems

namespace AsioServer.Config

open AsioServer.Core AsioServer.Infra AsioServer.Lib

/-! ## Escapes -/

/-- `escape` on one byte of a token. -/
def pointerByte (b : UInt8) : Bytes :=
  if b = 0x7E then [0x7E, 0x30] else if b = 0x2F then [0x7E, 0x31] else [b]

/-- The token for a step of a path. -/
def escape (name : Bytes) : Bytes := name.flatMap pointerByte

theorem unescape_cons {b : UInt8} (hb : b ≠ 0x7E) (rest : Bytes) :
    unescape (b :: rest) = (unescape rest).map (b :: ·) := by
  rw [unescape.eq_def]
  simp only [if_neg hb]

@[simp] theorem unescape_escape (name : Bytes) : unescape (escape name) = some name := by
  induction name with
  | nil => rfl
  | cons b name ih =>
      rw [escape, List.flatMap_cons, ← escape, pointerByte]
      split
      · next hb =>
        subst hb
        simp [unescape, ih]
      · next hb =>
        split
        · next hslash =>
          subst hslash
          simp [unescape, ih]
        · rw [List.singleton_append, unescape_cons hb, ih]
          rfl

theorem slash_not_mem_escape (name : Bytes) : 0x2F ∉ escape name := by
  intro hmem
  obtain ⟨b, -, hb⟩ := List.mem_flatMap.mp hmem
  unfold pointerByte at hb
  split at hb
  · exact absurd hb (by decide)
  · split at hb
    · exact absurd hb (by decide)
    · next hslash => exact hslash (List.mem_singleton.mp hb).symm

/-- A token without a `/` is the escaped form of what it stands for. -/
theorem escape_of_unescape {token name : Bytes} (h : unescape token = some name)
    (hslash : 0x2F ∉ token) : escape name = token := by
  induction token using unescape.induct generalizing name with
  | case1 =>
      obtain rfl := Option.some.inj h
      rfl
  | case2 => exact absurd h (by simp [unescape])
  | case3 rest ih =>
      simp only [unescape, if_true] at h
      obtain ⟨tail, htail, rfl⟩ := Option.map_eq_some_iff.mp h
      rw [← ih htail fun hmem => hslash (by simp [hmem])]
      rfl
  | case4 rest _ ih =>
      simp only [unescape, if_true, if_neg (show (0x31 : UInt8) ≠ 0x30 by decide)] at h
      obtain ⟨tail, htail, rfl⟩ := Option.map_eq_some_iff.mp h
      rw [← ih htail fun hmem => hslash (by simp [hmem])]
      rfl
  | case5 c rest hzero hone => exact absurd h (by simp [unescape, hzero, hone])
  | case6 b rest hb ih =>
      rw [unescape_cons hb] at h
      obtain ⟨tail, htail, rfl⟩ := Option.map_eq_some_iff.mp h
      have hne : b ≠ 0x2F := fun heq => hslash (heq ▸ List.mem_cons_self)
      rw [escape, List.flatMap_cons, ← escape, pointerByte, if_neg hb, if_neg hne,
        ih htail fun hmem => hslash (List.mem_cons_of_mem _ hmem)]
      rfl

/-! ## Keys -/

/-- The key of a path. -/
def keyOf (path : List Bytes) : Bytes := [0x2F].intercalate (path.map escape)

theorem mapM_escape (path : List Bytes) : (path.map escape).mapM unescape = some path := by
  induction path with
  | nil => rfl
  | cons name path ih => simp [ih]

theorem map_escape_of_mapM {parts path : List Bytes} (h : parts.mapM unescape = some path)
    (hslash : ∀ part ∈ parts, 0x2F ∉ part) : path.map escape = parts := by
  induction parts generalizing path with
  | nil =>
      obtain rfl := Option.some.inj h
      rfl
  | cons part parts ih =>
      simp only [List.mapM_cons, Option.bind_eq_bind, Option.bind_eq_some_iff] at h
      obtain ⟨name, hname, names, hnames, heq⟩ := h
      obtain rfl := Option.some.inj heq
      rw [List.map_cons, escape_of_unescape hname (hslash part List.mem_cons_self),
        ih hnames fun other hother => hslash other (List.mem_cons_of_mem _ hother)]

theorem not_mem_of_mem_splitOn {α : Type} [BEq α] [LawfulBEq α] {a : α} {l part : List α}
    (h : part ∈ l.splitOn a) : a ∉ part := by
  induction l generalizing part with
  | nil =>
      obtain rfl : part = [] := by simpa using h
      simp
  | cons b l ih =>
      rw [List.splitOn_cons_eq_if_modifyHead] at h
      split at h
      · rcases List.mem_cons.mp h with rfl | h
        · simp
        · exact ih h
      · next hb =>
        obtain ⟨first, others, hparts⟩ := List.exists_cons_of_ne_nil (List.splitOn_ne_nil a l)
        rw [hparts] at h ih
        rcases List.mem_cons.mp h with rfl | h
        · rintro hmem
          rcases List.mem_cons.mp hmem with rfl | hmem
          · exact hb (by simp)
          · exact ih List.mem_cons_self hmem
        · exact ih (List.mem_cons_of_mem _ h)

/-- **A key that means anything is the key of one path.** -/
theorem tokens_eq_some_iff {key : Bytes} {path : List Bytes} :
    tokens key = some path ↔ path ≠ [] ∧ key = keyOf path := by
  constructor
  · intro h
    refine ⟨tokens_ne_nil h, ?_⟩
    have hescape : path.map escape = key.splitOn 0x2F :=
      map_escape_of_mapM h fun part hpart => not_mem_of_mem_splitOn hpart
    rw [keyOf, hescape, List.intercalate_splitOn]
  · rintro ⟨hne, rfl⟩
    have hslash : ∀ part ∈ path.map escape, 0x2F ∉ part := by
      intro part hpart
      obtain ⟨name, -, rfl⟩ := List.mem_map.mp hpart
      exact slash_not_mem_escape name
    have hparts : (keyOf path).splitOn 0x2F = path.map escape :=
      List.splitOn_intercalate 0x2F hslash (by simpa using hne)
    rw [tokens, hparts, mapM_escape]

/-! ## Places -/

theorem le_decimal (n : Nat) (text : Bytes) : n ≤ decimal n text := by
  induction text generalizing n with
  | nil => exact Nat.le_refl n
  | cons b text ih =>
      have hstep : n ≤ 10 * n + (b.toNat - 48) := by omega
      exact Nat.le_trans hstep (ih _)

/-- A decimal text with no zero in front is written back as it was. -/
theorem digits_decimal {text acc : Bytes} {fuel : Nat} (hne : text ≠ [])
    (hdigits : ∀ b ∈ text, isDigit b = true) (hzero : text.head? = some 0x30 → text.length = 1)
    (hfuel : decimal 0 text < fuel) : digits fuel (decimal 0 text) acc = text ++ acc := by
  induction text using List.reverseRecOn generalizing fuel acc with
  | nil => exact absurd rfl hne
  | append_singleton text b ih =>
      have hvalue : decimal 0 (text ++ [b]) = 10 * decimal 0 text + (b.toNat - 48) := by
        simp [decimal]
      have hb : 48 ≤ b.toNat ∧ b.toNat ≤ 57 := by
        simpa [isDigit] using hdigits b (by simp)
      rw [hvalue] at hfuel ⊢
      obtain ⟨fuel, rfl⟩ : ∃ k, fuel = k + 1 := ⟨fuel - 1, by omega⟩
      have hlast : (48 + (10 * decimal 0 text + (b.toNat - 48)) % 10).toUInt8 = b := by
        apply UInt8.toNat_inj.mp
        rw [toNat_digit]
        omega
      simp only [digits, hlast]
      cases text with
      | nil =>
          have hsmall : 10 * decimal 0 [] + (b.toNat - 48) < 10 := by
            rw [decimal, List.foldl_nil]
            omega
          rw [if_pos hsmall]
          rfl
      | cons c text =>
          have hc : 48 ≤ c.toNat ∧ c.toNat ≤ 57 := by
            simpa [isDigit] using hdigits c (by simp)
          have hnotzero : c ≠ 0x30 := by
            rintro rfl
            exact absurd (hzero rfl) (by simp)
          have hpos : 0 < c.toNat - 48 := by
            have hne : c.toNat ≠ 48 := fun heq => hnotzero (UInt8.toNat_inj.mp heq)
            omega
          have hle : c.toNat - 48 ≤ decimal 0 (c :: text) := by
            have hfirst : decimal 0 (c :: text) = decimal (c.toNat - 48) text := by simp [decimal]
            rw [hfirst]
            exact le_decimal _ text
          have hdiv : (10 * decimal 0 (c :: text) + (b.toNat - 48)) / 10 =
              decimal 0 (c :: text) := by omega
          rw [if_neg (by omega), hdiv, ih (by simp)
            (fun d hd => hdigits d (List.mem_append_left _ hd))
            (fun hhead => absurd (Option.some.inj hhead) hnotzero) (by omega)]
          simp

theorem integerText_natCast (i : Nat) : integerText i = digits (i + 1) i [] := by
  rw [integerText, if_neg (by omega)]
  rfl

/-- **A token is the place of one item**, in its shortest decimal form. -/
theorem arrayIndex_eq_some_iff {token : Bytes} {i : Nat} :
    arrayIndex token = some i ↔ token = integerText i := by
  rw [integerText_natCast]
  constructor
  · intro h
    unfold arrayIndex at h
    split at h
    · exact absurd h (by simp)
    · next hform =>
      obtain ⟨hne, hhead⟩ := not_or.mp hform
      split at h
      · next hall =>
        obtain rfl := Option.some.inj h
        have hdigits : ∀ b ∈ token, isDigit b = true := fun b hb => by
          have hrange := of_decide_eq_true (List.all_eq_true.mp hall b hb)
          rw [← Lexer.isDecimal_eq]
          simpa [Lexer.isDecimal] using hrange
        have hzero : token.head? = some 0x30 → token.length = 1 := fun hfirst => by
          have hpos := List.length_pos_iff.mpr hne
          by_contra hlen
          exact hhead ⟨by omega, hfirst⟩
        exact ((digits_decimal hne hdigits hzero (Nat.lt_succ_self _)).trans
          (List.append_nil token)).symm
      · exact absurd h (by simp)
  · rintro rfl
    by_cases hi : i = 0
    · subst hi
      decide
    · have hnil : ∀ b ∈ ([] : Bytes), Lexer.isDecimal b = true :=
        fun _ hb => absurd hb List.not_mem_nil
      obtain ⟨b, ds, heq, hb, hdecimal, hds⟩ :=
        Lexer.digits_eq_cons (Nat.lt_succ_self i) hi hnil
      have hvalue : decimal 0 (b :: ds) = i := heq ▸ decimal_digits (Nat.lt_succ_self i) []
      have hall : (b :: ds).all (fun b => 0x30 ≤ b ∧ b ≤ 0x39) = true := by
        refine List.all_eq_true.mpr fun c hc => ?_
        have hc' : Lexer.isDecimal c = true := by
          rcases List.mem_cons.mp hc with rfl | hc
          · exact hdecimal
          · exact hds c hc
        simpa [Lexer.isDecimal] using hc'
      have hform : ¬ (b :: ds = [] ∨ 1 < (b :: ds).length ∧ (b :: ds).head? = some 0x30) := by
        simp [hb]
      rw [heq, arrayIndex, if_neg hform, if_pos hall]
      exact congrArg some hvalue

/-! ## Paths -/

/-- The path leads from the first value to the second. -/
inductive At : Json → List Bytes → Json → Prop
  | here {j : Json} : At j [] j
  | member {fields : List (Bytes × Json)} {name : Bytes} {path : List Bytes} {member v : Json} :
      fields.lookup name = some member → At member path v → At (.object fields) (name :: path) v
  | item {items : List Json} {i : Nat} {path : List Bytes} {item v : Json} :
      items[i]? = some item → At item path v → At (.array items) (integerText i :: path) v

theorem pointed_eq_some_iff {j v : Json} {path : List Bytes} :
    pointed j path = some v ↔ At j path v := by
  constructor
  · intro h
    induction path generalizing j with
    | nil =>
        obtain rfl := Option.some.inj h
        exact .here
    | cons name path ih =>
        cases j with
        | object fields =>
            obtain ⟨member, hmember, h⟩ := Option.bind_eq_some_iff.mp h
            exact .member hmember (ih h)
        | array items =>
            obtain ⟨i, hi, h⟩ := Option.bind_eq_some_iff.mp h
            obtain ⟨item, hitem, hrest⟩ := Option.bind_eq_some_iff.mp h
            obtain rfl := arrayIndex_eq_some_iff.mp hi
            exact .item hitem (ih hrest)
        | _ => exact absurd h (by simp [pointed])
  · intro h
    induction h with
    | here => rfl
    | member hmember _ ih => rw [pointed, hmember, Option.bind_some, ih]
    | item hitem _ ih =>
        rw [pointed, arrayIndex_eq_some_iff.mpr rfl, Option.bind_some, hitem, Option.bind_some, ih]

theorem valueAt_eq_some_iff {j v : Json} {key : Bytes} :
    valueAt j key = some v ↔ ∃ path, path ≠ [] ∧ key = keyOf path ∧ At j path v := by
  rw [valueAt, Option.bind_eq_some_iff]
  simp only [tokens_eq_some_iff, pointed_eq_some_iff, and_assoc]

/-! ## The answers of a reader -/

theorem ConfigReader.get_eq_some_iff {α : Type} {convert : Json → Option α} {v : α}
    (reader : ConfigReader) (key : Bytes) :
    reader.get convert key = some v ↔ reader.isLoaded = true ∧ ∃ j path w,
      reader.configJson = some j ∧ path ≠ [] ∧ key = keyOf path ∧ At j path w ∧
        convert w = some v := by
  unfold ConfigReader.get
  split
  · next hloaded =>
    have hvalue : ∀ j, (tokens key).bind (pointed j) = valueAt j key := fun _ => rfl
    simp only [hvalue, Option.bind_eq_some_iff, valueAt_eq_some_iff, hloaded, true_and]
    constructor
    · rintro ⟨j, hj, w, ⟨path, hne, hkey, hat⟩, hw⟩
      exact ⟨j, path, w, hj, hne, hkey, hat, hw⟩
    · rintro ⟨j, path, w, hj, hne, hkey, hat, hw⟩
      exact ⟨j, hj, w, ⟨path, hne, hkey, hat⟩, hw⟩
  · next hloaded => simp [hloaded]

namespace History

/-- What a run keeps: the JSON of the last load, and the flag of the first. -/
theorem run_keeps {history after : History} {requests : List Request}
    (hrun : run step history requests = some after) (h : history.Sound) :
    after.Sound ∧ after.reader.isLoaded = history.reader.isLoaded := by
  have hstep : ∀ s a t, (s.Sound ∧ s.reader.isLoaded = history.reader.isLoaded) → True →
      step s a = some t → t.Sound ∧ t.reader.isLoaded = history.reader.isLoaded :=
    fun _ _ _ hs _ ht => ⟨hs.1.step ht, (isLoaded_step ht).trans hs.2⟩
  exact run_invariant hstep ⟨h, rfl⟩ (AllSteps.of_step (fun _ _ _ _ => trivial) _ _) hrun

/-- **After any run of path changes and reloads, a key is answered with a value exactly
when the first load succeeded, the key is that of a path in the JSON of the last load
that did, and the value at its end converts to it.** -/
theorem get_after_run_iff {fs : FileSystem} {path : Bytes} {requests : List Request}
    {after : History} (hrun : run step (new fs path) requests = some after) {α : Type}
    (convert : Json → Option α) (key : Bytes) (v : α) :
    after.reader.get convert key = some v ↔ (loadable fs path).isSome = true ∧
      ∃ j steps w, after.latest = some j ∧ steps ≠ [] ∧ key = keyOf steps ∧ At j steps w ∧
        convert w = some v := by
  obtain ⟨hsound, hloaded⟩ := run_keeps hrun (sound_new fs path)
  have hfirst : after.reader.isLoaded = (loadable fs path).isSome :=
    hloaded.trans (ConfigReader.isLoaded_new fs path)
  have hjson : after.reader.configJson = after.latest := hsound
  rw [ConfigReader.get_eq_some_iff, hfirst, hjson]

/-- A configuration file with a list under a name that has a `/` in it. -/
def listFile (value : Int) : FileSystem :=
  oneFile (some (.object [(ascii "a/b", .array [.null, .integer value])]))

/-- Another path is set, a reload finds another value, and one after it finds no file. -/
def reloads : List Request :=
  [.setConfigPath (ascii "d.json"), .reloadConfig (listFile 9), .reloadConfig (oneFile none)]

/-- The second item of the list after these requests. -/
theorem get_after_run_iff_item : ∃ after,
    run step (new (listFile 7) (ascii "c.json")) reloads = some after ∧
    after.reader.get Json.getInt (ascii "a~1b/1") = some 9 ∧
    (loadable (listFile 7) (ascii "c.json")).isSome = true ∧
    ∃ j steps w, after.latest = some j ∧ steps ≠ [] ∧ ascii "a~1b/1" = keyOf steps ∧
      At j steps w ∧ Json.getInt w = some 9 := by
  obtain ⟨after, hrun, hget⟩ : ∃ after,
      run step (new (listFile 7) (ascii "c.json")) reloads = some after ∧
        after.reader.get Json.getInt (ascii "a~1b/1") = some 9 :=
    ⟨_, rfl, by decide +kernel⟩
  exact ⟨after, hrun, hget, (get_after_run_iff hrun Json.getInt (ascii "a~1b/1") 9).mp hget⟩

end History

end AsioServer.Config
