/-
AsioServer.Net.SessionRegistryTheorems — when the session map keeps no dead
session.

A session is dead once its accept handler has finished and its read coroutine
has ended. `CleanExit` names the two ways in which a step can leave a dead
session registered: the accept handler inserts an entry after the read
coroutine has ended, or the read coroutine ends without erasing the entry that
is there. `no_zombie_iff` says over whole runs that there are no others.
-/
import AsioServer.Net.SessionRegistry

namespace AsioServer.Net

open AsioServer.Lib

/-! ## The property and its condition -/

namespace Session

/-- The accept handler has finished, normally or by an exception. -/
def Accepted (x : Session) : Prop := x.accept = .inserted ∨ x.accept = .threw

/-- The read coroutine has ended. -/
def HasEnded (x : Session) : Prop := ∃ how, x.reader = .ended how

/-- The step ends the read coroutine without `DelSessionByUuid`: the loop finds
`_bStop` set, or an exception passes by the `catch` clause. -/
def Leaves (x : Session) (a : Action) : Prop :=
  (∃ hasBody, a = .read (.normal hasBody) ∧ x.reader = .loopTest ∧ x.bStop = true) ∨
    (a = .read .otherError ∧ x.reader.inTry = true)

end Session

/-- No dead session is registered. -/
def NoZombie (s : Registry) : Prop :=
  ∀ (i : Nat) (x : Session), s.sessions[i]? = some x → x.Accepted → x.HasEnded →
    i ∉ s.sessionMap

/-- An insertion finds the read coroutine still alive, and a read coroutine that
leaves without erasing its entry has none. -/
def CleanExit (s : Registry) (a : RegistryEvent) (_ : Registry) : Prop :=
  ∀ (i : Nat) (b : Action) (x : Session), a = .act i b → s.sessions[i]? = some x →
    (b = .insert → ¬ x.HasEnded) ∧ (x.Leaves b → i ∉ s.sessionMap)

/-! ## One session -/

/-- Only sessions that the accept handler inserted are registered. -/
def RegistryInv (s : Registry) : Prop :=
  ∀ i ∈ s.sessionMap, ∃ x, s.sessions[i]? = some x ∧ x.accept = .inserted

/-- The entry of the session that acts, after its step. -/
theorem mem_apply_self (e : MapEdit) (i : Nat) (m : Finset Nat) :
    i ∈ e.apply i m ↔ e = .insert ∨ (e = .keep ∧ i ∈ m) := by
  cases e <;> simp [MapEdit.apply]

/-- The entries of the other sessions do not change. -/
theorem mem_apply_of_ne {e : MapEdit} {i j : Nat} {m : Finset Nat} (h : j ≠ i) :
    j ∈ e.apply i m ↔ j ∈ m := by
  cases e <;> simp [MapEdit.apply, h]

/-- What a step does to a session and its entry. -/
inductive LocalEffect (x : Session) : Action → Session → MapEdit → Prop where
  | logEndpoint {ok} (ha : x.accept = .started) :
      LocalEffect x (.logEndpoint ok) { x with accept := if ok then .logged else .threw } .keep
  | insert (ha : x.accept = .logged) :
      LocalEffect x .insert { x with accept := .inserted } .insert
  /-- The read coroutine goes on. -/
  | advance {o pt b} (hx : ¬ x.HasEnded) (hpt : ∀ how, pt ≠ .ended how)
      (hstay : ¬ x.Leaves (.read o)) :
      LocalEffect x (.read o) { x with reader := pt, bStop := b } .keep
  /-- The read coroutine ends after `DelSessionByUuid`. -/
  | clean {hasBody} (hx : x.reader = .deleting) :
      LocalEffect x (.read (.normal hasBody)) { x with reader := .ended .cleaned } .erase
  /-- The read coroutine ends without it. -/
  | leave {o how} (hx : ¬ x.HasEnded) (hleave : x.Leaves (.read o)) :
      LocalEffect x (.read o) { x with reader := .ended how } .keep
  /-- The watchdog, `Close` or `DelSessionByUuid`. -/
  | elsewhere {a b w e} (hread : ∀ o, a ≠ .read o) (hinsert : a ≠ .insert) (he : e ≠ .insert) :
      LocalEffect x a { x with bStop := b, watchdog := w } e

theorem not_hasEnded_of_inTry {x : Session} (h : x.reader.inTry = true) : ¬ x.HasEnded := by
  rintro ⟨how, hx⟩
  simp [hx, ReadPoint.inTry] at h

theorem inTry_of_isReading {pt : ReadPoint} (h : pt.isReading = true) : pt.inTry = true := by
  cases pt <;> simp_all [ReadPoint.isReading, ReadPoint.inTry]

/-- The steps of the read coroutine. -/
theorem effect_of_read {x y : Session} {o : Outcome} {e : MapEdit}
    (h : x.read o = some (y, e)) : LocalEffect x (.read o) y e := by
  -- a point of the loop that is neither the test nor an end
  have going : ∀ {hasBody : Bool} {pt pt' : ReadPoint} {b : Bool}, x.reader = pt →
      pt ≠ .loopTest → (∀ how, pt ≠ .ended how) → (∀ how, pt' ≠ .ended how) →
      LocalEffect x (.read (.normal hasBody)) { x with reader := pt', bStop := b } .keep := by
    intro hasBody pt pt' b hx htest hend hend'
    refine .advance ?_ hend' ?_
    · rintro ⟨how, hx'⟩
      exact hend how (hx.symm.trans hx')
    · rintro (⟨-, -, hx', -⟩ | ⟨heq, -⟩)
      · exact htest (hx.symm.trans hx')
      · simp at heq
  cases o with
  | normal hasBody =>
      simp only [Session.read] at h
      split at h
      · next hx =>
        split at h
        · next hstop =>
          obtain ⟨rfl, rfl⟩ := Prod.mk.inj (Option.some.inj h)
          exact .leave (by rintro ⟨how, hx'⟩; simp [hx] at hx') (Or.inl ⟨hasBody, rfl, hx, hstop⟩)
        · next hstop =>
          obtain ⟨rfl, rfl⟩ := Prod.mk.inj (Option.some.inj h)
          refine .advance (by rintro ⟨how, hx'⟩; simp [hx] at hx') (by simp) ?_
          rintro (⟨-, -, -, hstop'⟩ | ⟨heq, -⟩)
          · exact hstop hstop'
          · simp at heq
      · next hx =>
        obtain ⟨rfl, rfl⟩ := Prod.mk.inj (Option.some.inj h)
        exact going hx (by simp) (by simp) (by simp)
      · next hx =>
        obtain ⟨rfl, rfl⟩ := Prod.mk.inj (Option.some.inj h)
        exact going hx (by simp) (by simp) (by cases hasBody <;> simp)
      · next hx =>
        obtain ⟨rfl, rfl⟩ := Prod.mk.inj (Option.some.inj h)
        exact going hx (by simp) (by simp) (by simp)
      · next hx =>
        obtain ⟨rfl, rfl⟩ := Prod.mk.inj (Option.some.inj h)
        exact going hx (by simp) (by simp) (by simp)
      · next hx =>
        obtain ⟨rfl, rfl⟩ := Prod.mk.inj (Option.some.inj h)
        exact going hx (by simp) (by simp) (by simp)
      · next hx =>
        obtain ⟨rfl, rfl⟩ := Prod.mk.inj (Option.some.inj h)
        exact .clean hx
      · simp at h
  | empty =>
      simp only [Session.read] at h
      split at h
      · next hx =>
        obtain ⟨rfl, rfl⟩ := Prod.mk.inj (Option.some.inj h)
        refine .advance (not_hasEnded_of_inTry (inTry_of_isReading hx)) (by simp) ?_
        rintro (⟨_, heq, -⟩ | ⟨heq, -⟩) <;> simp at heq
      · simp at h
  | systemError =>
      simp only [Session.read] at h
      split at h
      · next hx =>
        obtain ⟨rfl, rfl⟩ := Prod.mk.inj (Option.some.inj h)
        refine .advance (not_hasEnded_of_inTry hx) (by simp) ?_
        rintro (⟨_, heq, -⟩ | ⟨heq, -⟩) <;> simp at heq
      · simp at h
  | otherError =>
      simp only [Session.read] at h
      split at h
      · next hx =>
        obtain ⟨rfl, rfl⟩ := Prod.mk.inj (Option.some.inj h)
        exact .leave (not_hasEnded_of_inTry hx) (Or.inr ⟨rfl, hx⟩)
      · simp at h

theorem effect_of_localStep {x y : Session} {a : Action} {e : MapEdit}
    (h : x.localStep a = some (y, e)) : LocalEffect x a y e := by
  cases a with
  | logEndpoint ok =>
      simp only [Session.localStep] at h
      split at h
      · next ha =>
        obtain ⟨rfl, rfl⟩ := Prod.mk.inj (Option.some.inj h)
        exact .logEndpoint ha
      · simp at h
  | insert =>
      simp only [Session.localStep] at h
      split at h
      · next ha =>
        obtain ⟨rfl, rfl⟩ := Prod.mk.inj (Option.some.inj h)
        exact .insert ha
      · simp at h
  | read o => exact effect_of_read h
  | watch expired =>
      simp only [Session.localStep, Session.watch] at h
      split at h
      · split at h
        · obtain ⟨rfl, rfl⟩ := Prod.mk.inj (Option.some.inj h)
          exact .elsewhere (by simp) (by simp) (by simp)
        · split at h
          · obtain ⟨rfl, rfl⟩ := Prod.mk.inj (Option.some.inj h)
            exact .elsewhere (by simp) (by simp) (by simp)
          · obtain ⟨rfl, rfl⟩ := Prod.mk.inj (Option.some.inj h)
            exact .elsewhere (by simp) (by simp) (by simp)
      · obtain ⟨rfl, rfl⟩ := Prod.mk.inj (Option.some.inj h)
        exact .elsewhere (by simp) (by simp) (by simp)
      · simp at h
  | close =>
      obtain ⟨rfl, rfl⟩ := Prod.mk.inj (Option.some.inj h)
      exact .elsewhere (by simp) (by simp) (by simp)
  | delete =>
      obtain ⟨rfl, rfl⟩ := Prod.mk.inj (Option.some.inj h)
      exact .elsewhere (by simp) (by simp) (by simp)

/-- A session that its step leaves registered was inserted. -/
theorem accept_of_registered {x y : Session} {a : Action} {e : MapEdit}
    (h : LocalEffect x a y e) (he : e = .insert ∨ x.accept = .inserted) :
    y.accept = .inserted := by
  cases h with
  | logEndpoint ha => simp [ha] at he
  | insert ha => rfl
  | advance | clean | leave => exact he.resolve_left (by simp)
  | elsewhere hread hinsert hne => exact he.resolve_left hne

theorem Session.leaves_read {x : Session} {a : Action} (h : x.Leaves a) : ∃ o, a = .read o := by
  rcases h with ⟨hasBody, rfl, -⟩ | ⟨rfl, -⟩
  · exact ⟨_, rfl⟩
  · exact ⟨_, rfl⟩

/-- **One session.** A step leaves no dead session registered exactly when it is
a clean exit. -/
theorem clean_iff {x y : Session} {a : Action} {e : MapEdit} {i : Nat} {m : Finset Nat}
    (h : LocalEffect x a y e) (hinv : i ∈ m → x.accept = .inserted)
    (hx : x.Accepted → x.HasEnded → i ∉ m) :
    (y.Accepted → y.HasEnded → i ∉ e.apply i m) ↔
      (a = .insert → ¬ x.HasEnded) ∧ (x.Leaves a → i ∉ m) := by
  cases h with
  | logEndpoint ha =>
      have hout : i ∉ m := fun hi => absurd (ha.symm.trans (hinv hi)) (by simp)
      exact ⟨fun _ => ⟨by simp, fun _ => hout⟩, fun _ _ _ => hout⟩
  | insert ha =>
      constructor
      · intro hclean
        refine ⟨fun _ hend => hclean (Or.inl rfl) hend (Finset.mem_insert_self i m), ?_⟩
        intro hleave
        obtain ⟨o, ho⟩ := Session.leaves_read hleave
        simp at ho
      · exact fun hclean _ hend => absurd hend (hclean.1 rfl)
  | advance hgo hpt hstay =>
      refine ⟨fun _ => ⟨by simp, fun hleave => absurd hleave hstay⟩, ?_⟩
      rintro - - ⟨how, hend⟩
      exact absurd hend (hpt how)
  | clean hdel =>
      refine ⟨fun _ => ⟨by simp, ?_⟩, fun _ _ _ => Finset.notMem_erase i m⟩
      rintro (⟨-, -, htest, -⟩ | ⟨heq, -⟩)
      · simp [hdel] at htest
      · simp at heq
  | @leave o how hgo hleave =>
      constructor
      · intro hclean
        refine ⟨by simp, fun _ hi => ?_⟩
        exact hclean (Or.inl (hinv hi)) ⟨how, rfl⟩ hi
      · exact fun hclean _ _ => hclean.2 hleave
  | elsewhere hread hinsert hne =>
      constructor
      · refine fun _ => ⟨fun ha => absurd ha hinsert, fun hleave => ?_⟩
        obtain ⟨o, ho⟩ := Session.leaves_read hleave
        exact absurd ho (hread o)
      · intro _ hacc hend hi
        rcases (mem_apply_self e i m).mp hi with he | ⟨-, hi⟩
        · exact hne he
        · exact hx hacc hend hi

/-! ## One session with its entry -/

/-- One action of a session that may have an entry. -/
def entryStep (r : Session × Bool) (a : Action) : Option (Session × Bool) :=
  (r.1.localStep a).map fun q => (q.1, q.2.entry r.2)

/-- Session `i` of the registry, with its entry. -/
def Registry.Shows (s : Registry) (i : Nat) (r : Session × Bool) : Prop :=
  s.sessions[i]? = some r.1 ∧ (i ∈ s.sessionMap ↔ r.2 = true)

theorem Registry.Shows.step {s : Registry} {i : Nat} {r q : Session × Bool} {a : Action}
    (h : s.Shows i r) (hstep : entryStep r a = some q) :
    ∃ t, registryStep s (.act i a) = some t ∧ t.Shows i q := by
  obtain ⟨⟨z, edit⟩, hz, rfl⟩ := Option.map_eq_some_iff.mp hstep
  obtain ⟨hsession, hentry⟩ := h
  refine ⟨⟨s.sessions.set i z, edit.apply i s.sessionMap⟩, ?_, ?_, ?_⟩
  · simp only [registryStep, hsession, hz, Option.map_some]
  · have hi : i < s.sessions.length := (List.getElem?_eq_some_iff.mp hsession).1
    simp [hi]
  · cases edit <;> simp [MapEdit.apply, MapEdit.entry, hentry]

/-- **The registry follows** every run of the actions of one session. -/
theorem Registry.Shows.run {s : Registry} {i : Nat} {r q : Session × Bool} {as : List Action}
    (h : s.Shows i r) (hrun : Lib.run entryStep r as = some q) :
    ∃ t, Lib.run registryStep s (as.map (.act i)) = some t ∧ t.Shows i q := by
  induction as generalizing s r with
  | nil =>
      obtain rfl := Option.some.inj hrun
      exact ⟨s, rfl, h⟩
  | cons a as ih =>
      obtain ⟨r', hr, hrun⟩ := Option.bind_eq_some_iff.mp hrun
      obtain ⟨s', hs, h'⟩ := h.step hr
      obtain ⟨t, ht, hq⟩ := ih h' hrun
      exact ⟨t, by rw [List.map_cons, run_cons, hs, Option.bind_some, ht], hq⟩

/-! ## Whole runs -/

/-- A step of the server is a new connection, or a step of one session. -/
theorem registryStep_cases {s t : Registry} {a : RegistryEvent}
    (h : registryStep s a = some t) :
    (a = .accept ∧ t = { s with sessions := s.sessions ++ [{}] }) ∨
    ∃ i b x y e, a = .act i b ∧ s.sessions[i]? = some x ∧ LocalEffect x b y e ∧
      t = { sessions := s.sessions.set i y, sessionMap := e.apply i s.sessionMap } := by
  cases a with
  | accept => exact Or.inl ⟨rfl, (Option.some.inj h).symm⟩
  | act i b =>
      simp only [registryStep] at h
      split at h
      · next x hx =>
        obtain ⟨⟨y, e⟩, hlocal, rfl⟩ := Option.map_eq_some_iff.mp h
        exact Or.inr ⟨i, b, x, y, e, rfl, hx, effect_of_localStep hlocal, rfl⟩
      · simp at h

theorem RegistryInv.step {s t : Registry} {a : RegistryEvent} (h : RegistryInv s)
    (hs : registryStep s a = some t) : RegistryInv t := by
  intro j hj
  rcases registryStep_cases hs with ⟨-, rfl⟩ | ⟨i, b, x, y, e, -, hx, heff, rfl⟩
  · obtain ⟨x, hx, hacc⟩ := h j hj
    exact ⟨x, (List.getElem?_append_left (List.getElem?_eq_some_iff.mp hx).1).trans hx, hacc⟩
  · by_cases hij : j = i
    · subst hij
      refine ⟨y, getElem?_set_self_of_some hx, accept_of_registered heff ?_⟩
      rcases (mem_apply_self e j s.sessionMap).mp hj with he | ⟨-, hj⟩
      · exact Or.inl he
      · obtain ⟨x', hx', hacc⟩ := h j hj
        exact Or.inr (Option.some.inj (hx.symm.trans hx') ▸ hacc)
    · obtain ⟨z, hz, hacc⟩ := h j ((mem_apply_of_ne hij).mp hj)
      exact ⟨z, (List.getElem?_set_ne (Ne.symm hij)).trans hz, hacc⟩

/-- One step from a state without dead sessions in the map. -/
theorem noZombie_step_iff {s t : Registry} {a : RegistryEvent} (h : RegistryInv s)
    (hn : NoZombie s) (hs : registryStep s a = some t) : NoZombie t ↔ CleanExit s a t := by
  rcases registryStep_cases hs with ⟨rfl, rfl⟩ | ⟨i, b, x, y, e, rfl, hx, heff, rfl⟩
  · refine ⟨fun _ i b x heq => absurd heq (by simp), fun _ j x hx hacc hend hj => ?_⟩
    obtain ⟨z, hz, -⟩ := h j hj
    have hold : (s.sessions ++ [({} : Session)])[j]? = s.sessions[j]? :=
      List.getElem?_append_left (List.getElem?_eq_some_iff.mp hz).1
    exact hn j x (hold.symm.trans hx) hacc hend hj
  · have hinv : i ∈ s.sessionMap → x.accept = .inserted := by
      intro hi
      obtain ⟨z, hz, hacc⟩ := h i hi
      exact Option.some.inj (hx.symm.trans hz) ▸ hacc
    have hclean := clean_iff heff hinv (hn i x hx)
    constructor
    · intro hnt j b' z heq hz
      obtain ⟨rfl, rfl⟩ := RegistryEvent.act.inj heq
      obtain rfl := Option.some.inj (hx.symm.trans hz)
      exact hclean.mp (hnt i y (getElem?_set_self_of_some hx))
    · intro hexit j z hz hacc hend
      rcases getElem?_set_cases hz with ⟨rfl, rfl⟩ | ⟨hij, hz⟩
      · exact hclean.mpr (hexit j b x rfl hx) hacc hend
      · exact fun hj => hn j z hz hacc hend ((mem_apply_of_ne hij).mp hj)

/-- **No zombies, exactly.** From the start of the server, no state of a run has
a dead session in the map if and only if every insertion finds the read
coroutine alive and every read coroutine that ends without erasing its entry
has none. -/
theorem no_zombie_iff (as : List RegistryEvent) :
    AllStates registryStep NoZombie {} as ↔ AllSteps registryStep CleanExit {} as := by
  have hinv : ∀ s a t, RegistryInv s → registryStep s a = some t → RegistryInv t :=
    fun _ _ _ => RegistryInv.step
  have hstep : ∀ s a t, RegistryInv s → NoZombie s → registryStep s a = some t →
      (NoZombie t ↔ CleanExit s a t) := fun _ _ _ => noZombie_step_iff
  have hempty : RegistryInv {} := fun i hi => absurd hi (Finset.notMem_empty i)
  exact allStates_iff_allSteps hinv hstep as {} hempty fun i x hx => by simp at hx

/-- `Allocate` throws `bad_alloc` for a header that announces a huge body: the
session stays registered. -/
theorem bad_alloc_leaves_zombie : ¬ ∀ (s : Registry),
    Reachable registryStep (fun s => s = {}) s → NoZombie s := by
  let events : List RegistryEvent := [.accept, .act 0 (.logEndpoint true), .act 0 .insert,
    .act 0 (.read (.normal false)), .act 0 (.read (.normal true)), .act 0 (.read .otherError)]
  let dead : Session := { accept := .inserted, reader := .ended .escaped }
  have hreach : Reachable registryStep (fun s => s = {})
      { sessions := [dead], sessionMap := {0} } := ⟨{}, events, rfl, by decide⟩
  intro h
  exact h _ hreach 0 dead rfl (Or.inl rfl) ⟨.escaped, rfl⟩ (Finset.mem_singleton_self 0)

end AsioServer.Net
