/-
AsioServer.Services.ServiceManager — the services as objects, and how they are registered.

Translated from `services/ServiceManager.{h,cpp}`, `services/IService.{h,cpp}` and the
`RegisterCmd` of the four services. The static objects of the `*ServiceRegister.cpp` files
register three of them before `main`, in the order in which the linker puts these files,
and `RegisterServices` in `main` the fourth.

A `shared_ptr` is the number of its object, or `none`. Every call is one step. `RegisterService`
and `GetServiceById` hold the manager's lock for it; `ClearService`, which only the destructor
calls, takes no lock. What is logged is left out.
-/
import AsioServer.Services.Handlers

namespace AsioServer.Services

open AsioServer.Core

/-- An object of a class that is derived from `IService`. -/
structure IService where
  /-- Its class, which decides what the virtual functions do. -/
  service : Service
  cmdMap : AList (fun _ : UInt16 => Command) := ∅

/-- What `RegisterCmd` of a service enters into `_cmdMap`, in this order. -/
def Service.entries : Service → List (UInt16 × Command)
  | heart => [(Const.heartRecv, .heart)]
  | hello => [(Const.helloCmdTest, .hello)]
  | db => [(Const.dbExecute, .execute), (Const.dbClose, .dbClose)]
  | communication => [(Const.communicationRegister, .register), (Const.communicationClose, .close),
      (Const.communicationSend, .send), (Const.communicationShow, .showClients)]

/-- `_cmdMap[cmdId] = callback` for each entry. -/
def assignEntries (entries : List (UInt16 × Command)) (map : AList (fun _ : UInt16 => Command)) :
    AList (fun _ : UInt16 => Command) :=
  entries.foldl (fun map entry => map.insert entry.1 entry.2) map

/-- `RegisterCmd`. -/
def IService.registerCmd (x : IService) : IService :=
  { x with cmdMap := assignEntries x.service.entries x.cmdMap }

/-- The objects there are, and the `_serviceMap` of `ServiceManager`. -/
structure ServiceManager where
  services : List IService := []
  serviceMap : AList (fun _ : UInt16 => Nat) := ∅

namespace ServiceManager

/-- `std::make_shared` of a service. -/
def make (m : ServiceManager) (service : Service) : ServiceManager :=
  { m with services := m.services ++ [{ service }] }

/-- `ServiceManager::RegisterService`. -/
def registerService (m : ServiceManager) (service : Option Nat) : ServiceManager :=
  match service with
  | none => m
  | some i =>
      match m.services[i]? with
      | none => m
      | some x =>
          let serviceId := x.service.getServiceId
          if (m.serviceMap.lookup serviceId).isSome then m
          else
            { services := m.services.set i x.registerCmd
              serviceMap := m.serviceMap.insert serviceId i }

/-- `ServiceManager::GetServiceById`. -/
def findService (m : ServiceManager) (serviceId : UInt16) : Option Nat :=
  m.serviceMap.lookup serviceId

/-- `ServiceManager::ClearService`. -/
def clearService (m : ServiceManager) : ServiceManager := { m with serviceMap := ∅ }

/-- The callback that `IService::Handle` of the service runs, if there is one. -/
def dispatch (m : ServiceManager) (header : MessageHeader) : Option Command :=
  (m.findService header.serviceId).bind fun i =>
    m.services[i]?.bind fun x => x.cmdMap.lookup header.cmdId

end ServiceManager

/-- What happens to the manager. -/
inductive ManagerEvent where
  | make (service : Service)
  | register (service : Option Nat)
  | clear
  deriving DecidableEq, Repr

/-- One event. -/
def ServiceManager.step (m : ServiceManager) : ManagerEvent → ServiceManager
  | .make service => m.make service
  | .register service => m.registerService service
  | .clear => m.clearService

/-! ## What the manager is for -/

/-- The classes of the objects, and for each service the object that serves it. -/
structure ServiceBook where
  made : List Service := []
  server : Service → Option Nat := fun _ => none

/-- The first object of a class that is registered serves it. -/
def ServiceBook.step (b : ServiceBook) : ManagerEvent → ServiceBook
  | .make service => { b with made := b.made ++ [service] }
  | .register none => b
  | .register (some i) =>
      match b.made[i]? with
      | none => b
      | some service =>
          { b with server := Function.update b.server service ((b.server service).or (some i)) }
  | .clear => { b with server := fun _ => none }

end AsioServer.Services
