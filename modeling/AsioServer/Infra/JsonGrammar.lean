/-
AsioServer.Infra.JsonGrammar — the language that the parser accepts.

`IsValue j ts` says what a JSON text is, without a stack and without a loop: the
tokens `ts` spell the value `j`. When a key occurs twice in an object the later
member replaces the earlier one, and the entries are in the order of their keys
(`mapOf`).

The parser accepts the sequences of this language and no others, and answers
the value that they spell (`parseTokens_eq_some_iff`). One half follows the
derivation and runs the loop over it (`reads_value`); the other keeps, along
the loop, a derivation of all that was read so far (`Sound`): what is open on
the stack, and the value that was finished last.

The loop ends within its fuel because every round takes a token, or goes from
a token to its value (`measure_lt_of_round`).
-/
import Mathlib.Logic.Relation
import AsioServer.Infra.JsonParser

namespace AsioServer.Infra

open AsioServer.Core AsioServer.Lib

/-! ## The grammar -/

/-- The entries of an object with these members in their order. -/
def mapOf (members : List (Bytes × Json)) : List (Bytes × Json) := OrderedMap.ofList members

mutual

/-- The tokens spell the value. -/
inductive IsValue : Json → List Token → Prop
  | scalar {t : Token} {j : Json} : scalar t = some j → IsValue j [t]
  | emptyArray : IsValue (.array []) [.beginArray, .endArray]
  | array {items : List Json} {ts : List Token} :
      IsItems items ts → IsValue (.array items) (.beginArray :: (ts ++ [.endArray]))
  | emptyObject : IsValue (.object []) [.beginObject, .endObject]
  | object {members : List (Bytes × Json)} {ts : List Token} :
      IsMembers members ts →
        IsValue (.object (mapOf members)) (.beginObject :: (ts ++ [.endObject]))

/-- The tokens spell the items, with commas between them. -/
inductive IsItems : List Json → List Token → Prop
  | last {j : Json} {ts : List Token} : IsValue j ts → IsItems [j] ts
  | cons {j : Json} {items : List Json} {ts us : List Token} :
      IsValue j ts → IsItems items us → IsItems (j :: items) (ts ++ .valueSeparator :: us)

/-- The tokens spell the members, with commas between them. -/
inductive IsMembers : List (Bytes × Json) → List Token → Prop
  | last {key : Bytes} {j : Json} {ts : List Token} :
      IsValue j ts → IsMembers [(key, j)] (.valueString key :: .nameSeparator :: ts)
  | cons {key : Bytes} {j : Json} {members : List (Bytes × Json)} {ts us : List Token} :
      IsValue j ts → IsMembers members us →
        IsMembers ((key, j) :: members)
          (.valueString key :: .nameSeparator :: (ts ++ .valueSeparator :: us))

end

/-- Items with one more behind them. -/
theorem IsItems.append {items : List Json} {j : Json} {ts us : List Token} :
    IsItems items ts → IsValue j us → IsItems (items ++ [j]) (ts ++ .valueSeparator :: us)
  | .last h, hj => .cons h (.last hj)
  | .cons h hitems, hj => by
      rw [List.append_assoc, List.cons_append]
      exact .cons h (hitems.append hj)

/-- Members with one more behind them. -/
theorem IsMembers.append {members : List (Bytes × Json)} {key : Bytes} {j : Json}
    {ts us : List Token} :
    IsMembers members ts → IsValue j us →
      IsMembers (members ++ [(key, j)])
        (ts ++ .valueSeparator :: .valueString key :: .nameSeparator :: us)
  | .last h, hj => .cons h (.last hj)
  | .cons h hmembers, hj => by
      simp only [List.cons_append, List.append_assoc]
      exact .cons h (hmembers.append hj)

/-! ## What one round does -/

theorem onToken_scalar {t : Token} {j : Json} (h : scalar t = some j) (stack : List OpenValue)
    (ts : List Token) : onToken stack t ts = .next ⟨.value j, stack, ts⟩ := by
  cases t with
  | beginArray | beginObject => exact absurd h (by simp [scalar])
  | _ => simp only [onToken, h]

theorem onToken_beginArray {t : Token} (h : t ≠ .endArray) (stack : List OpenValue)
    (ts : List Token) :
    onToken stack .beginArray (t :: ts) = .next ⟨.token t, .array [] :: stack, ts⟩ := by
  cases t with
  | endArray => exact absurd rfl h
  | _ => rfl

/-- Everything that a round at a token can go on with. -/
theorem next_of_onToken {stack : List OpenValue} {t : Token} {ts : List Token} {loop : Loop}
    (h : onToken stack t ts = .next loop) :
    (∃ j, scalar t = some j ∧ loop = ⟨.value j, stack, ts⟩) ∨
    (∃ us, t = .beginObject ∧ ts = .endObject :: us ∧ loop = ⟨.value (.object []), stack, us⟩) ∨
    (∃ key u us, t = .beginObject ∧ ts = .valueString key :: .nameSeparator :: u :: us ∧
      loop = ⟨.token u, .object [] key :: stack, us⟩) ∨
    (∃ us, t = .beginArray ∧ ts = .endArray :: us ∧ loop = ⟨.value (.array []), stack, us⟩) ∨
    (∃ u us, t = .beginArray ∧ ts = u :: us ∧ loop = ⟨.token u, .array [] :: stack, us⟩) := by
  unfold onToken at h
  split at h
  · next us => exact Or.inr (Or.inl ⟨us, rfl, rfl, (Round.next.inj h).symm⟩)
  · next key u us =>
    exact Or.inr (Or.inr (Or.inl ⟨key, u, us, rfl, rfl, (Round.next.inj h).symm⟩))
  · exact absurd h (by simp)
  · next us => exact Or.inr (Or.inr (Or.inr (Or.inl ⟨us, rfl, rfl, (Round.next.inj h).symm⟩)))
  · next u us _ =>
    exact Or.inr (Or.inr (Or.inr (Or.inr ⟨u, us, rfl, rfl, (Round.next.inj h).symm⟩)))
  · exact absurd h (by simp)
  · split at h
    · next j hj => exact Or.inl ⟨j, hj, (Round.next.inj h).symm⟩
    · exact absurd h (by simp)

/-- Everything that a round after a value can go on with. -/
theorem next_of_onValue {j : Json} {stack : List OpenValue} {ts : List Token} {loop : Loop}
    (h : onValue j stack ts = .next loop) :
    (∃ items rest u us, stack = .array items :: rest ∧ ts = .valueSeparator :: u :: us ∧
      loop = ⟨.token u, .array (items ++ [j]) :: rest, us⟩) ∨
    (∃ items rest us, stack = .array items :: rest ∧ ts = .endArray :: us ∧
      loop = ⟨.value (.array (items ++ [j])), rest, us⟩) ∨
    (∃ fields key rest key' u us, stack = .object fields key :: rest ∧
      ts = .valueSeparator :: .valueString key' :: .nameSeparator :: u :: us ∧
      loop = ⟨.token u, .object (assignKey key j fields) key' :: rest, us⟩) ∨
    (∃ fields key rest us, stack = .object fields key :: rest ∧ ts = .endObject :: us ∧
      loop = ⟨.value (.object (assignKey key j fields)), rest, us⟩) := by
  unfold onValue at h
  split at h
  · exact absurd h (by simp)
  · next items rest u us =>
    exact Or.inl ⟨items, rest, u, us, rfl, rfl, (Round.next.inj h).symm⟩
  · next items rest us =>
    exact Or.inr (Or.inl ⟨items, rest, us, rfl, rfl, (Round.next.inj h).symm⟩)
  · exact absurd h (by simp)
  · next fields key rest key' u us =>
    exact Or.inr (Or.inr (Or.inl
      ⟨fields, key, rest, key', u, us, rfl, rfl, (Round.next.inj h).symm⟩))
  · next fields key rest us =>
    exact Or.inr (Or.inr (Or.inr ⟨fields, key, rest, us, rfl, rfl, (Round.next.inj h).symm⟩))
  · exact absurd h (by simp)

/-- The loop is done after a value when nothing is open, and only then. -/
theorem round_eq_done_iff {loop : Loop} {j : Json} {rest : List Token} :
    loop.round = .done j rest ↔ loop = ⟨.value j, [], rest⟩ := by
  obtain ⟨place, stack, input⟩ := loop
  cases place with
  | token t =>
      constructor
      · intro h
        simp only [Loop.round, onToken] at h
        split at h <;> first | exact absurd h (by simp) | (split at h <;> exact absurd h (by simp))
      · intro h
        exact absurd (congrArg Loop.place h) (by simp)
  | value i =>
      simp only [Loop.round]
      constructor
      · intro h
        unfold onValue at h
        split at h
        · obtain ⟨rfl, rfl⟩ := Round.done.inj h
          rfl
        all_goals exact absurd h (by simp)
      · intro h
        injection h with hplace hstack hinput
        injection hplace with hj
        subst hj hstack hinput
        rfl

/-! ## The loop ends -/

/-- What is left to do: the tokens to come, and a token that is no value yet. -/
def Loop.measure (loop : Loop) : Nat :=
  2 * loop.input.length + (match loop.place with | .token _ => 1 | .value _ => 0)

theorem measure_lt_of_round {loop next : Loop} (h : loop.round = .next next) :
    next.measure < loop.measure := by
  obtain ⟨place, stack, input⟩ := loop
  cases place with
  | token t =>
      obtain ⟨j, -, rfl⟩ | ⟨us, -, rfl, rfl⟩ | ⟨key, u, us, -, rfl, rfl⟩ | ⟨us, -, rfl, rfl⟩ |
        ⟨u, us, -, rfl, rfl⟩ := next_of_onToken h
      all_goals simp only [Loop.measure, List.length_cons]; omega
  | value j =>
      obtain ⟨items, rest, u, us, rfl, rfl, rfl⟩ | ⟨items, rest, us, rfl, rfl, rfl⟩ |
        ⟨fields, key, rest, key', u, us, rfl, rfl, rfl⟩ | ⟨fields, key, rest, us, rfl, rfl, rfl⟩ :=
          next_of_onValue h
      all_goals simp only [Loop.measure, List.length_cons]; omega

/-- Some rounds lead from one state of the loop to the other. -/
abbrev Reaches : Loop → Loop → Prop := Relation.ReflTransGen fun a b => a.round = .next b

/-- **The fuel is enough**: a loop that can end ends. -/
theorem saxParse_of_reaches {loop last : Loop} {j : Json} {rest : List Token}
    (h : Reaches loop last) (hlast : last.round = .done j rest) :
    ∀ fuel, loop.measure < fuel → saxParse fuel loop = some (j, rest) := by
  induction h using Relation.ReflTransGen.head_induction_on with
  | refl =>
      intro fuel hfuel
      obtain ⟨n, rfl⟩ := Nat.exists_eq_add_of_lt hfuel
      rw [saxParse, hlast]
  | head hround _ ih =>
      intro fuel hfuel
      have hlt := measure_lt_of_round hround
      obtain ⟨n, rfl⟩ := Nat.exists_eq_add_of_lt hfuel
      rw [saxParse, hround]
      exact ih _ (by omega)

theorem reaches_of_saxParse {fuel : Nat} {loop : Loop} {j : Json} {rest : List Token}
    (h : saxParse fuel loop = some (j, rest)) : Reaches loop ⟨.value j, [], rest⟩ := by
  induction fuel generalizing loop with
  | zero => exact absurd h (by simp [saxParse])
  | succ fuel ih =>
      rw [saxParse] at h
      split at h
      · next next hround => exact .head hround (ih h)
      · next i input hround =>
        obtain ⟨rfl, rfl⟩ := Prod.mk.inj (Option.some.inj h)
        rw [round_eq_done_iff.mp hround]
      · exact absurd h (by simp)

/-! ## What the grammar derives is accepted -/

/-- The loop reads the tokens as the value, whatever is open and whatever follows. -/
def ReadsValue (j : Json) (ts : List Token) : Prop :=
  ∃ t us, ts = t :: us ∧ t ≠ .endArray ∧ ∀ stack rest,
    Reaches ⟨.token t, stack, us ++ rest⟩ ⟨.value j, stack, rest⟩

/-- The loop reads the tokens as the remaining items of an open array. -/
def ReadsItems (items : List Json) (ts : List Token) : Prop :=
  ∃ t us, ts = t :: us ∧ t ≠ .endArray ∧ ∀ before stack rest,
    Reaches ⟨.token t, .array before :: stack, us ++ .endArray :: rest⟩
      ⟨.value (.array (before ++ items)), stack, rest⟩

/-- The loop reads the tokens as the remaining members of an open object. -/
def ReadsMembers (members : List (Bytes × Json)) (ts : List Token) : Prop :=
  ∃ key t us, ts = .valueString key :: .nameSeparator :: t :: us ∧ ∀ fields stack rest,
    Reaches ⟨.token t, .object fields key :: stack, us ++ .endObject :: rest⟩
      ⟨.value (.object (members.foldl (fun fields m => assignKey m.1 m.2 fields) fields)),
        stack, rest⟩

theorem ReadsValue.scalar {t : Token} {j : Json} (h : scalar t = some j) : ReadsValue j [t] := by
  refine ⟨t, [], rfl, ?_, fun stack rest => .single (onToken_scalar h stack rest)⟩
  rintro rfl
  exact absurd h (by simp [Infra.scalar])

theorem ReadsValue.array {items : List Json} {ts : List Token} (h : ReadsItems items ts) :
    ReadsValue (.array items) (.beginArray :: (ts ++ [.endArray])) := by
  obtain ⟨t, us, rfl, hne, hloop⟩ := h
  refine ⟨_, _, rfl, by simp, fun stack rest => .head ?_ (hloop [] stack rest)⟩
  simp only [Loop.round, List.cons_append, List.append_assoc, List.nil_append]
  exact onToken_beginArray hne stack (us ++ .endArray :: rest)

theorem ReadsValue.object {members : List (Bytes × Json)} {ts : List Token}
    (h : ReadsMembers members ts) :
    ReadsValue (.object (mapOf members)) (.beginObject :: (ts ++ [.endObject])) := by
  obtain ⟨key, t, us, rfl, hloop⟩ := h
  refine ⟨_, _, rfl, by simp, fun stack rest => .head ?_ (hloop [] stack rest)⟩
  simp [Loop.round, onToken]

theorem ReadsItems.last {j : Json} {ts : List Token} (h : ReadsValue j ts) :
    ReadsItems [j] ts := by
  obtain ⟨t, us, rfl, hne, hloop⟩ := h
  exact ⟨t, us, rfl, hne, fun before stack rest =>
    (hloop (.array before :: stack) (.endArray :: rest)).tail rfl⟩

theorem ReadsItems.cons {j : Json} {items : List Json} {ts us : List Token}
    (hj : ReadsValue j ts) (hitems : ReadsItems items us) :
    ReadsItems (j :: items) (ts ++ .valueSeparator :: us) := by
  obtain ⟨t, ts, rfl, hne, hvalue⟩ := hj
  obtain ⟨u, us, rfl, -, hrest⟩ := hitems
  refine ⟨t, ts ++ .valueSeparator :: u :: us, rfl, hne, fun before stack rest => ?_⟩
  have hfirst := hvalue (.array before :: stack)
    (.valueSeparator :: u :: (us ++ .endArray :: rest))
  have hothers := hrest (before ++ [j]) stack rest
  simp only [List.append_assoc, List.cons_append, List.nil_append] at hfirst hothers ⊢
  exact hfirst.trans (.head rfl hothers)

theorem ReadsMembers.last {key : Bytes} {j : Json} {ts : List Token} (h : ReadsValue j ts) :
    ReadsMembers [(key, j)] (.valueString key :: .nameSeparator :: ts) := by
  obtain ⟨t, us, rfl, -, hloop⟩ := h
  exact ⟨key, t, us, rfl, fun fields stack rest =>
    (hloop (.object fields key :: stack) (.endObject :: rest)).tail rfl⟩

theorem ReadsMembers.cons {key : Bytes} {j : Json} {members : List (Bytes × Json)}
    {ts us : List Token} (hj : ReadsValue j ts) (hmembers : ReadsMembers members us) :
    ReadsMembers ((key, j) :: members)
      (.valueString key :: .nameSeparator :: (ts ++ .valueSeparator :: us)) := by
  obtain ⟨t, ts, rfl, -, hvalue⟩ := hj
  obtain ⟨key', u, us, rfl, hrest⟩ := hmembers
  refine ⟨key, t, ts ++ .valueSeparator :: .valueString key' :: .nameSeparator :: u :: us, rfl,
    fun fields stack rest => ?_⟩
  have hfirst := hvalue (.object fields key :: stack)
    (.valueSeparator :: .valueString key' :: .nameSeparator :: u :: (us ++ .endObject :: rest))
  have hothers := hrest (assignKey key j fields) stack rest
  simp only [List.append_assoc, List.cons_append]
  exact hfirst.trans (.head rfl hothers)

mutual

/-- The loop reads a value from its first token to its last. -/
theorem reads_value {j : Json} {ts : List Token} : IsValue j ts → ReadsValue j ts
  | .scalar h => .scalar h
  | .emptyArray => ⟨_, _, rfl, by simp, fun _ _ => .single rfl⟩
  | .array hitems => .array (reads_items hitems)
  | .emptyObject => ⟨_, _, rfl, by simp, fun _ _ => .single rfl⟩
  | .object hmembers => .object (reads_members hmembers)

theorem reads_items {items : List Json} {ts : List Token} : IsItems items ts → ReadsItems items ts
  | .last hj => .last (reads_value hj)
  | .cons hj hitems => .cons (reads_value hj) (reads_items hitems)

theorem reads_members {members : List (Bytes × Json)} {ts : List Token} :
    IsMembers members ts → ReadsMembers members ts
  | .last hj => .last (reads_value hj)
  | .cons hj hmembers => .cons (reads_value hj) (reads_members hmembers)

end

/-! ## What is accepted is derived by the grammar -/

/-- The tokens before what is read now, for a stack of open arrays and objects. -/
inductive IsOpen : List OpenValue → List Token → Prop
  | nil : IsOpen [] []
  | beginArray {stack : List OpenValue} {pre : List Token} :
      IsOpen stack pre → IsOpen (.array [] :: stack) (pre ++ [.beginArray])
  | items {stack : List OpenValue} {items : List Json} {pre ts : List Token} :
      IsOpen stack pre → IsItems items ts →
        IsOpen (.array items :: stack) (pre ++ .beginArray :: (ts ++ [.valueSeparator]))
  | beginObject {stack : List OpenValue} {key : Bytes} {pre : List Token} :
      IsOpen stack pre →
        IsOpen (.object [] key :: stack)
          (pre ++ [.beginObject, .valueString key, .nameSeparator])
  | members {stack : List OpenValue} {members : List (Bytes × Json)} {key : Bytes}
      {pre ts : List Token} :
      IsOpen stack pre → IsMembers members ts →
        IsOpen (.object (mapOf members) key :: stack)
          (pre ++ .beginObject :: (ts ++ [.valueSeparator, .valueString key, .nameSeparator]))

/-- The loop has read a part of `all` that its stack and its place account for. -/
def Sound (all : List Token) (loop : Loop) : Prop :=
  ∃ pre, IsOpen loop.stack pre ∧
    match loop.place with
    | .token t => all = pre ++ t :: loop.input
    | .value j => ∃ vs, IsValue j vs ∧ all = pre ++ (vs ++ loop.input)

/-- An item of an open array: the items with it, and what was read before it. -/
theorem IsOpen.item {items : List Json} {stack : List OpenValue} {pre vs : List Token} {j : Json}
    (h : IsOpen (.array items :: stack) pre) (hj : IsValue j vs) :
    ∃ pre' ts, IsOpen stack pre' ∧ IsItems (items ++ [j]) ts ∧
      pre ++ vs = pre' ++ .beginArray :: ts := by
  cases h with
  | beginArray hstack => exact ⟨_, vs, hstack, .last hj, by simp⟩
  | items hstack hitems => exact ⟨_, _, hstack, hitems.append hj, by simp⟩

/-- A member of an open object: the members with it, and what was read before it. -/
theorem IsOpen.member {fields : List (Bytes × Json)} {key : Bytes} {stack : List OpenValue}
    {pre vs : List Token} {j : Json} (h : IsOpen (.object fields key :: stack) pre)
    (hj : IsValue j vs) :
    ∃ pre' members ts, IsOpen stack pre' ∧ IsMembers members ts ∧
      mapOf members = assignKey key j fields ∧ pre ++ vs = pre' ++ .beginObject :: ts := by
  cases h with
  | beginObject hstack => exact ⟨_, [(key, j)], _, hstack, .last hj, rfl, by simp⟩
  | members hstack hmembers =>
      exact ⟨_, _, _, hstack, hmembers.append hj, OrderedMap.ofList_append _ _ _, by simp⟩

theorem Sound.round {all : List Token} {loop next : Loop} (h : Sound all loop)
    (hround : loop.round = .next next) : Sound all next := by
  obtain ⟨place, stack, input⟩ := loop
  obtain ⟨pre, hopen, hplace⟩ := h
  dsimp only at hopen hplace
  cases place with
  | token t =>
      dsimp only at hplace
      obtain ⟨j, hj, rfl⟩ | ⟨us, rfl, rfl, rfl⟩ | ⟨key, u, us, rfl, rfl, rfl⟩ |
        ⟨us, rfl, rfl, rfl⟩ | ⟨u, us, rfl, rfl, rfl⟩ := next_of_onToken hround
      · exact ⟨pre, hopen, [t], .scalar hj, hplace⟩
      · exact ⟨pre, hopen, _, .emptyObject, hplace⟩
      · exact ⟨_, hopen.beginObject, by simp [hplace]⟩
      · exact ⟨pre, hopen, _, .emptyArray, hplace⟩
      · exact ⟨_, hopen.beginArray, by simp [hplace]⟩
  | value j =>
      dsimp only at hplace
      obtain ⟨vs, hj, hall⟩ := hplace
      rw [← List.append_assoc] at hall
      obtain ⟨items, rest, u, us, rfl, rfl, rfl⟩ | ⟨items, rest, us, rfl, rfl, rfl⟩ |
        ⟨fields, key, rest, key', u, us, rfl, rfl, rfl⟩ | ⟨fields, key, rest, us, rfl, rfl, rfl⟩ :=
          next_of_onValue hround
      · obtain ⟨pre', ts, hstack, hitems, hpre⟩ := hopen.item hj
        exact ⟨_, hstack.items hitems, by simp [hall, hpre]⟩
      · obtain ⟨pre', ts, hstack, hitems, hpre⟩ := hopen.item hj
        exact ⟨pre', hstack, _, .array hitems, by simp [hall, hpre]⟩
      · obtain ⟨pre', members, ts, hstack, hmembers, hmap, hpre⟩ := hopen.member hj
        rw [← hmap]
        exact ⟨_, hstack.members hmembers, by simp [hall, hpre]⟩
      · obtain ⟨pre', members, ts, hstack, hmembers, hmap, hpre⟩ := hopen.member hj
        rw [← hmap]
        exact ⟨pre', hstack, _, .object hmembers, by simp [hall, hpre]⟩

theorem Sound.reaches {all : List Token} {loop last : Loop} (h : Sound all loop)
    (hreach : Reaches loop last) : Sound all last := by
  induction hreach with
  | refl => exact h
  | tail _ hround ih => exact ih.round hround

/-! ## The parser and the grammar -/

/-- **The parser accepts the grammar**, and answers the value that it derives. -/
theorem parseTokens_eq_some_iff {strict : Bool} {ts : List Token} {j : Json} :
    parseTokens strict ts = some j ↔
      ∃ vs rest, ts = vs ++ rest ∧ IsValue j vs ∧
        (strict = true → rest.head? = some .endOfInput) := by
  constructor
  · intro h
    cases ts with
    | nil => exact absurd h (by simp [parseTokens])
    | cons t ts =>
        simp only [parseTokens] at h
        obtain ⟨⟨i, rest⟩, hsax, h⟩ := Option.bind_eq_some_iff.mp h
        dsimp only at h
        split at h
        · exact absurd h (by simp)
        · next hend =>
          obtain rfl := Option.some.inj h
          have hstart : Sound (t :: ts) ⟨.token t, [], ts⟩ := ⟨[], .nil, rfl⟩
          obtain ⟨pre, hopen, vs, hvalue, hall⟩ := hstart.reaches (reaches_of_saxParse hsax)
          cases hopen
          refine ⟨vs, rest, hall, hvalue, fun hstrict => ?_⟩
          by_contra hne
          exact hend ⟨hstrict, hne⟩
  · rintro ⟨vs, rest, rfl, hvalue, hend⟩
    obtain ⟨t, us, rfl, -, hloop⟩ := reads_value hvalue
    have hfuel : Loop.measure ⟨.token t, [], us ++ rest⟩ < Loop.fuel ⟨.token t, [], us ++ rest⟩ :=
      by simp [Loop.measure, Loop.fuel]
    have hsax := saxParse_of_reaches (hloop [] rest) rfl _ hfuel
    have hno : ¬ (strict = true ∧ rest.head? ≠ some .endOfInput) := fun h => h.2 (hend h.1)
    simp only [List.cons_append, parseTokens]
    rw [hsax, Option.bind_some, if_neg hno]

end AsioServer.Infra
