import CarRepairShop.Operations
import CarRepairShop.Staff

/-! # Routes and what guards them

The routers of `frameworks/http/routes` and the middlewares before their handlers
(`authMiddleware.ts`, `roleMiddleware.ts`, `internalTokenMiddleware.ts`). A route is
named as the method of its controller; the rate limiters, the health checks and
the documentation are left out.

A customer passes on two routes (`customer_admitted_iff`), an employee where the
role of the token is one of the route (`staff_admitted_iff`), and without a token
there is nothing but signing in and, with the internal token, the lookup.
-/

namespace CarRepairShop

/-! ## Middlewares -/

/-- What a middleware sees of a request. -/
structure Request where
  authorization : Option String
  /-- The header `x-internal-token`. -/
  internalToken : Option String := none
  /-- `req.user`, set by `authMiddleware`. -/
  user : Option JwtPayload := none
deriving DecidableEq, Repr

/-- The middlewares of the routers. -/
inductive Middleware where
  | authMiddleware
  | requireRole (roles : List UserRole)
  | requireStaff
  | requireCustomer
  | internalTokenMiddleware
deriving DecidableEq, Repr

def requireRole (roles : List UserRole) (req : Request) : Except Failure Unit :=
  match req.user with
  | some (.staff _ role) =>
      if (roles.map UserRole.name).contains role then .ok ()
      else .error (.app (.forbidden "Forbidden"))
  | _ => .error (.app (.forbidden "Forbidden"))

def requireStaff (req : Request) : Except Failure Unit :=
  match req.user with
  | some (.staff ..) => .ok ()
  | _ => .error (.app (.forbidden "Forbidden"))

/-- Without a configured token nothing is equal to it. -/
def internalTokenMiddleware (config : AuthConfig) (req : Request) : Except Failure Unit :=
  let provided := req.internalToken.getD ""
  let expected := config.internalToken.getD ""
  if expected = "" ∨ provided ≠ expected then .error (.app (.unauthorized "Unauthorized"))
  else .ok ()

/-- Passes a request on at this time, or answers it with an error. -/
def Middleware.run (config : AuthConfig) (time : ℕ) (req : Request) :
    Middleware → Except Failure Request
  | .authMiddleware => do
      let user ← CarRepairShop.authMiddleware (config.verify time) req.authorization
      .ok { req with user := some user }
  | .requireRole roles => do
      CarRepairShop.requireRole roles req
      .ok req
  | .requireStaff => do
      CarRepairShop.requireStaff req
      .ok req
  | .requireCustomer =>
      match req.user with
      | some user => do
          CarRepairShop.requireCustomer user
          .ok req
      | none => .error (.app (.forbidden "Forbidden"))
  | .internalTokenMiddleware => do
      CarRepairShop.internalTokenMiddleware config req
      .ok req

/-! ## Routes -/

/-- The routes of the service, by the methods of their controllers. -/
inductive Route where
  | login
  | register
  | lookupCustomer
  | listCustomers
  | createCustomer
  | getCustomerByTaxId
  | getCustomerById
  | updateCustomer
  | deleteCustomer
  | listVehicles
  | createVehicle
  | getVehicleById
  | updateVehicle
  | deleteVehicle
  | listItems
  | getItemById
  | createItem
  | updateItem
  | deleteItem
  | listServices
  | listAvgTime
  | getServiceById
  | createService
  | updateService
  | deleteService
  | getStatus
  | getHistory
  | updateStatus
  | listServiceOrders
  | createServiceOrder
  | getServiceOrderById
  | addServiceToOS
  | removeServiceFromOS
  | addItemToOS
  | removeItemFromOS
deriving DecidableEq, Repr

/-- What a request goes through before its handler. -/
def Route.middlewares : Route → List Middleware
  -- `authRoutes.ts`
  | .login => []
  | .register => [.authMiddleware, .requireRole [.admin]]
  | .lookupCustomer => [.internalTokenMiddleware]
  -- `customerRoutes.ts`
  | .listCustomers | .createCustomer | .getCustomerByTaxId | .getCustomerById | .updateCustomer
  | .deleteCustomer => [.authMiddleware, .requireRole [.attendant, .admin]]
  -- `vehicleRoutes.ts`
  | .listVehicles | .createVehicle | .getVehicleById | .updateVehicle | .deleteVehicle =>
      [.authMiddleware, .requireRole [.attendant, .admin]]
  -- `itemRoutes.ts`
  | .listItems | .getItemById => [.authMiddleware, .requireStaff]
  | .createItem | .updateItem | .deleteItem => [.authMiddleware, .requireRole [.admin]]
  -- `serviceRoutes.ts`
  | .listServices | .getServiceById => [.authMiddleware, .requireStaff]
  | .listAvgTime => [.authMiddleware, .requireRole [.admin, .mechanic, .attendant]]
  | .createService | .updateService | .deleteService => [.authMiddleware, .requireRole [.admin]]
  -- `serviceOrderRoutes.ts`: the router authenticates once more behind its first two routes
  | .getStatus => [.authMiddleware, .requireCustomer]
  | .getHistory => [.authMiddleware]
  | .updateStatus => [.authMiddleware, .requireRole [.mechanic, .admin]]
  | .listServiceOrders | .getServiceOrderById => [.authMiddleware, .requireStaff]
  | .createServiceOrder => [.authMiddleware, .requireRole [.attendant, .admin]]
  | .addServiceToOS | .removeServiceFromOS | .addItemToOS | .removeItemFromOS =>
      [.authMiddleware, .requireRole [.mechanic, .admin]]

/-- Passes a request through the middlewares of a route, in order. -/
def Route.admit (config : AuthConfig) (time : ℕ) (route : Route) (req : Request) :
    Except Failure Request :=
  route.middlewares.foldlM (fun req m => m.run config time req) req

/-- The route that runs an operation; those of the saga have none. The one status
that is set by hand is `DELIVERED`. -/
def Op.route : Op → Option Route
  | .createServiceOrder .. => some .createServiceOrder
  | .addItemToOS .. => some .addItemToOS
  | .removeItemFromOS .. => some .removeItemFromOS
  | .addServiceToOS .. => some .addServiceToOS
  | .removeServiceFromOS .. => some .removeServiceFromOS
  | .deliverOS _ => some .updateStatus
  | .handle .. | .handleFailedCommand .. => none
  | .createItem .. => some .createItem
  | .updateItem .. => some .updateItem
  | .deleteItem _ => some .deleteItem
  | .createService .. => some .createService
  | .updateService .. => some .updateService
  | .deleteService _ => some .deleteService
  | .createCustomer _ => some .createCustomer
  | .updateCustomer .. => some .updateCustomer
  | .deleteCustomer _ => some .deleteCustomer
  | .createVehicle _ => some .createVehicle
  | .updateVehicle .. => some .updateVehicle
  | .deleteVehicle _ => some .deleteVehicle

/-! ## Who is let in -/

/-- What a route asks of the user behind a token. -/
inductive Access where
  | anyone
  | staff
  | customer
  | oneOf (roles : List UserRole)
deriving DecidableEq, Repr

/-- The middleware that asks for it. -/
def Access.middlewares : Access → List Middleware
  | .anyone => []
  | .staff => [.requireStaff]
  | .customer => [.requireCustomer]
  | .oneOf roles => [.requireRole roles]

def Access.allows : Access → JwtPayload → Bool
  | .anyone, _ => true
  | .staff, .staff .. => true
  | .customer, .customer .. => true
  | .oneOf roles, .staff _ role => (roles.map UserRole.name).contains role
  | _, _ => false

/-- What the routes behind a token ask; signing in and the lookup ask for none. -/
def Route.access (route : Route) : Option Access :=
  match route.middlewares with
  | [.authMiddleware] => some .anyone
  | [.authMiddleware, .requireStaff] => some .staff
  | [.authMiddleware, .requireCustomer] => some .customer
  | [.authMiddleware, .requireRole roles] => some (.oneOf roles)
  | _ => none

theorem Route.middlewares_of_access {route : Route} {access : Access}
    (h : route.access = some access) :
    route.middlewares = .authMiddleware :: access.middlewares := by
  cases route <;> cases h <;> rfl

section Admit

variable {config : AuthConfig} {time : ℕ} {req : Request}

theorem Access.admit_iff (access : Access) {user : JwtPayload} (huser : req.user = some user) :
    (∃ req', access.middlewares.foldlM (fun req m => m.run config time req) req = .ok req') ↔
      access.allows user = true := by
  cases access with
  | anyone => simp [Access.middlewares, Access.allows, pure, Except.pure]
  | staff =>
      cases user <;> simp [Access.middlewares, Access.allows, Middleware.run, requireStaff, huser,
        bind, Except.bind, pure, Except.pure]
  | customer =>
      cases user <;> simp [Access.middlewares, Access.allows, Middleware.run, requireCustomer, huser,
        bind, Except.bind, pure, Except.pure]
  | oneOf roles =>
      cases user with
      | customer sub cpf name =>
          simp [Access.middlewares, Access.allows, Middleware.run, requireRole, huser, bind,
            Except.bind]
      | staff userId role =>
          by_cases hrole : (roles.map UserRole.name).contains role = true
          · simp only [Access.middlewares, Access.allows, Middleware.run, requireRole, huser, hrole,
              List.foldlM_cons, List.foldlM_nil, if_true, bind, Except.bind, pure, Except.pure]
            simp
          · simp only [Access.middlewares, Access.allows, Middleware.run, requireRole, huser, hrole,
              List.foldlM_cons, List.foldlM_nil, bind, Except.bind]
            simp

/-- A route behind a token lets in whoever the token names, if the route allows it. -/
theorem Route.admit_iff {route : Route} {access : Access} (haccess : route.access = some access) :
    (∃ req', route.admit config time req = .ok req') ↔
      ∃ user, authMiddleware (config.verify time) req.authorization = .ok user ∧
        access.allows user = true := by
  unfold Route.admit
  rw [Route.middlewares_of_access haccess, List.foldlM_cons]
  cases hauth : authMiddleware (config.verify time) req.authorization with
  | error failure => simp [Middleware.run, hauth, bind, Except.bind]
  | ok user =>
      simpa [Middleware.run, hauth, bind, Except.bind] using access.admit_iff rfl

/-- A customer is let in on two routes. -/
theorem customer_admitted_iff {route : Route} {access : Access}
    (haccess : route.access = some access) (sub cpf name : String) :
    access.allows (.customer sub cpf name) = true ↔ route = .getStatus ∨ route = .getHistory := by
  cases route <;> cases haccess <;> simp [Access.allows]

/-- The roles that may run an operation. -/
def Op.roles (op : Op) : List UserRole :=
  match op.route.bind Route.access with
  | some (.oneOf roles) => roles
  | _ => []

/-- A route that runs an operation asks for a role. -/
theorem Op.route_access {op : Op} {route : Route} (h : op.route = some route) :
    route.access = some (.oneOf op.roles) := by
  cases op <;> cases h <;> rfl

theorem Access.allows_role {roles : List UserRole} {userId : String} {role : UserRole} :
    (Access.oneOf roles).allows (.staff userId role.name) = true ↔ role ∈ roles := by
  simp only [Access.allows, List.contains_iff_mem, List.mem_map]
  constructor
  · rintro ⟨r, hr, hname⟩
    rw [← UserRole.name_inj hname]
    exact hr
  · intro hrole
    exact ⟨role, hrole, rfl⟩

end Admit

end CarRepairShop
