/-
AsioServer.Services.ServiceManagerTheorems — the dispatch of the services does not depend on
how they were registered.

The rest of the development dispatches by `getServiceById` and `commandOf`, which are tables.
`registrations_dispatch` says that the objects of the program do the same, in any state: a
service that has been registered answers its own commands and no others, through the first
of its objects, whatever the order of the registrations and however many there are.
-/
import AsioServer.Services.ServiceManager
import AsioServer.Services.RequestTheorems
import AsioServer.Lib.Table

namespace AsioServer.Services

open AsioServer.Core AsioServer.Lib

variable {m : ServiceManager} {b : ServiceBook} {x : IService} {cmdId : UInt16}

/-! ## The commands of an object -/

theorem lookup_assignEntries (entries : List (UInt16 × Command))
    (map : AList (fun _ : UInt16 => Command))
    (hnodup : (entries.map Prod.fst).Nodup) (cmdId : UInt16) :
    (assignEntries entries map).lookup cmdId = (entries.lookup cmdId).or (map.lookup cmdId) := by
  induction entries generalizing map with
  | nil => rfl
  | cons entry entries ih =>
      obtain ⟨key, command⟩ := entry
      obtain ⟨hkey, hrest⟩ := List.nodup_cons.mp hnodup
      have hstep : assignEntries ((key, command) :: entries) map =
          assignEntries entries (map.insert key command) := rfl
      rw [hstep, ih _ hrest, Table.lookup_cons_ite]
      by_cases heq : cmdId = key
      · subst heq
        have hnone : entries.lookup cmdId = none := Table.lookup_eq_none_iff.mpr fun c hmem =>
          hkey (List.mem_map.mpr ⟨(cmdId, c), hmem, rfl⟩)
        rw [hnone, Option.none_or, AList.lookup_insert, if_pos rfl, Option.some_or]
      · rw [AList.lookup_insert_ne heq, if_neg heq]

/-- The entries of `RegisterCmd` are the commands of the service. -/
theorem lookup_entries (service : Service) (cmdId : UInt16) :
    service.entries.lookup cmdId = service.cmdMap cmdId := by
  cases service <;> simp only [Service.entries, Service.cmdMap, Table.lookup_cons_ite,
    List.lookup_nil]

theorem nodup_entries (service : Service) : (service.entries.map Prod.fst).Nodup := by
  cases service <;> decide

/-- The object knows no other commands than those of its class. -/
def IService.Sound (x : IService) : Prop :=
  ∀ cmdId command, x.cmdMap.lookup cmdId = some command → x.service.cmdMap cmdId = some command

/-- The object knows all of them. -/
def IService.Ready (x : IService) : Prop :=
  ∀ cmdId, x.cmdMap.lookup cmdId = x.service.cmdMap cmdId

/-- An object is ready once its commands are registered, also when they were before. -/
theorem IService.Sound.ready (h : x.Sound) : x.registerCmd.Ready := by
  intro cmdId
  show (assignEntries x.service.entries x.cmdMap).lookup cmdId = x.service.cmdMap cmdId
  rw [lookup_assignEntries _ _ (nodup_entries x.service), lookup_entries]
  cases hcommand : x.service.cmdMap cmdId with
  | some command => rfl
  | none =>
      cases hown : x.cmdMap.lookup cmdId with
      | none => rfl
      | some command => exact absurd ((h cmdId command hown).symm.trans hcommand) (by simp)

theorem IService.Ready.sound (h : x.Ready) : x.Sound :=
  fun cmdId _ hown => (h cmdId).symm.trans hown

/-! ## One event -/

theorem getServiceById_getServiceId (service : Service) :
    getServiceById service.getServiceId = some service := by
  cases service <;> decide

/-- **The invariant**: the manager has the entries of the book, and the objects that serve
are ready. -/
structure Keeps (m : ServiceManager) (b : ServiceBook) : Prop where
  made : m.services.map IService.service = b.made
  sound : ∀ x ∈ m.services, x.Sound
  server : ∀ service i, b.server service = some i →
    ∃ x, m.services[i]? = some x ∧ x.service = service ∧ x.Ready
  serviceMap : ∀ serviceId,
    m.findService serviceId = (getServiceById serviceId).bind b.server

namespace Keeps

theorem start : Keeps {} {} where
  made := rfl
  sound _ hx := absurd hx List.not_mem_nil
  server _ _ h := absurd h (by simp)
  serviceMap serviceId := by cases getServiceById serviceId <;> rfl

theorem make (h : Keeps m b) (service : Service) :
    Keeps (m.make service) { b with made := b.made ++ [service] } where
  made := by
    rw [← h.made]
    exact List.map_append
  sound x hx := by
    rcases List.mem_append.mp hx with hx | hx
    · exact h.sound x hx
    · obtain rfl := List.mem_singleton.mp hx
      exact fun _ _ hlookup => absurd hlookup (by simp)
  server service i hserver := by
    obtain ⟨x, hx, hready⟩ := h.server service i hserver
    exact ⟨x, List.getElem?_append_left (List.getElem?_eq_some_iff.mp hx).1 ▸ hx, hready⟩
  serviceMap := h.serviceMap

/-- The object is ready, and it serves its class. -/
theorem registered (h : Keeps m b) {i : Nat} (hx : m.services[i]? = some x) :
    Keeps { services := m.services.set i x.registerCmd
            serviceMap := m.serviceMap.insert x.service.getServiceId i }
      { b with server := Function.update b.server x.service (some i) } := by
  have hlt : i < m.services.length := (List.getElem?_eq_some_iff.mp hx).1
  have hsound : x.Sound := h.sound x (List.mem_of_getElem? hx)
  refine ⟨?_, ?_, ?_, ?_⟩
  · have hself : (m.services.map IService.service)[i]? = some x.service := by
      rw [List.getElem?_map, hx, Option.map_some]
    obtain ⟨hi, hget⟩ := List.getElem?_eq_some_iff.mp hself
    rw [List.map_set, ← h.made, show x.registerCmd.service = x.service from rfl, ← hget,
      List.set_getElem_self]
  · intro y hy
    rcases List.mem_or_eq_of_mem_set hy with hy | rfl
    · exact h.sound y hy
    · exact hsound.ready.sound
  · intro service j hserver
    dsimp only at hserver
    by_cases hservice : service = x.service
    · subst hservice
      rw [Function.update_self] at hserver
      obtain rfl := Option.some.inj hserver
      exact ⟨x.registerCmd, List.getElem?_set_self hlt, rfl, hsound.ready⟩
    · rw [Function.update_of_ne hservice] at hserver
      obtain ⟨y, hy, hclass, hready⟩ := h.server service j hserver
      have hij : i ≠ j := by
        rintro rfl
        obtain rfl := Option.some.inj (hx.symm.trans hy)
        exact hservice hclass.symm
      exact ⟨y, by rw [List.getElem?_set_ne hij, hy], hclass, hready⟩
  · intro serviceId
    show (m.serviceMap.insert x.service.getServiceId i).lookup serviceId =
      (getServiceById serviceId).bind (Function.update b.server x.service (some i))
    by_cases hid : serviceId = x.service.getServiceId
    · subst hid
      rw [AList.lookup_insert, getServiceById_getServiceId, Option.bind_some,
        Function.update_self]
    · rw [AList.lookup_insert_ne hid]
      have hsame := h.serviceMap serviceId
      cases hservice : getServiceById serviceId with
      | none => rw [hservice] at hsame; exact hsame
      | some service =>
          rw [hservice] at hsame
          have hne : service ≠ x.service := by
            rintro rfl
            exact hid (getServiceById_eq hservice)
          rw [Option.bind_some, Function.update_of_ne hne]
          exact hsame

theorem register (h : Keeps m b) (service : Option Nat) :
    Keeps (m.registerService service) (b.step (.register service)) := by
  cases service with
  | none => exact h
  | some i =>
      have hmade : b.made[i]? = m.services[i]?.map IService.service := by
        rw [← h.made, List.getElem?_map]
      simp only [ServiceManager.registerService, ServiceBook.step, hmade]
      cases hx : m.services[i]? with
      | none => exact h
      | some x =>
          have hlookup : m.serviceMap.lookup x.service.getServiceId = b.server x.service := by
            have hfound := h.serviceMap x.service.getServiceId
            rwa [getServiceById_getServiceId, Option.bind_some] at hfound
          simp only [Option.map_some, hlookup]
          cases hserver : b.server x.service with
          | some j =>
              rw [Option.isSome_some, if_pos rfl, Option.some_or, ← hserver,
                Function.update_eq_self]
              exact h
          | none =>
              rw [Option.isSome_none, if_neg Bool.false_ne_true, Option.none_or]
              exact h.registered hx

/-- **One event.** -/
theorem step (h : Keeps m b) (e : ManagerEvent) : Keeps (m.step e) (b.step e) := by
  cases e with
  | make service => exact h.make service
  | register service => exact h.register service
  | clear =>
      refine ⟨h.made, h.sound, fun service i hserver => ?_, fun serviceId => ?_⟩
      · exact absurd hserver (by simp [ServiceBook.step])
      · show (none : Option Nat) = (getServiceById serviceId).bind fun _ => none
        cases getServiceById serviceId <;> rfl

end Keeps

/-! ## Any number of registrations -/

/-- The manager after some events. -/
def managerAfter (events : List ManagerEvent) : ServiceManager :=
  events.foldl ServiceManager.step {}

/-- The book after some events. -/
def bookAfter (events : List ManagerEvent) : ServiceBook :=
  events.foldl ServiceBook.step {}

theorem keeps_foldl (h : Keeps m b) (events : List ManagerEvent) :
    Keeps (events.foldl ServiceManager.step m) (events.foldl ServiceBook.step b) := by
  induction events generalizing m b with
  | nil => exact h
  | cons e events ih => exact ih (h.step e)

/-- **The dispatch does not depend on the registrations.** Whatever objects are made and
registered, in whatever order and however often: a service is found exactly when one of its
objects has been registered, as the first of them, and a request is then dispatched to the
command that the tables give it. -/
theorem registrations_dispatch (events : List ManagerEvent) (header : MessageHeader) :
    (managerAfter events).findService header.serviceId =
        (getServiceById header.serviceId).bind (bookAfter events).server ∧
      (managerAfter events).dispatch header =
        if ((getServiceById header.serviceId).bind (bookAfter events).server).isSome then
          commandOf header
        else none := by
  have h : Keeps (managerAfter events) (bookAfter events) := keeps_foldl .start events
  refine ⟨h.serviceMap header.serviceId, ?_⟩
  rw [ServiceManager.dispatch, h.serviceMap, commandOf]
  cases hservice : getServiceById header.serviceId with
  | none => rfl
  | some service =>
      rw [Option.bind_some, Option.bind_some]
      cases hserver : (bookAfter events).server service with
      | none => rfl
      | some i =>
          obtain ⟨x, hx, rfl, hready⟩ := h.server service i hserver
          rw [Option.isSome_some, if_pos rfl, Option.bind_some, hx, Option.bind_some]
          exact hready header.cmdId

end AsioServer.Services
