import CarRepairShop.Queries

/-! # What a customer sees of the orders

The two routes a customer reads orders on, from the token to the response:
`authMiddleware.ts`, `roleMiddleware.ts`, `ServiceOrderController.ts` and
`errorMiddleware.ts`. `verify` stands for `jwt.verify`: the claims of a token it
accepts; a token whose content is no object has none.

`toPayload` asks for a `sub` that is a string, and an empty one is a string.
`assertOwnership` then takes the empty id for a missing one, which means staff. So
`customer_sees_own_iff` excludes it, and `empty_sub_sees_any_order` is a token that
reads the order of somebody else.
-/

namespace CarRepairShop

/-! ## Tokens -/

/-- The claims of a token. -/
abbrev Claims := List (String × Json)

/-- `JwtPayload`. -/
inductive JwtPayload where
  | staff (userId role : String)
  | customer (sub cpf name : String)
deriving DecidableEq, Repr

/-- A claim that is a string. -/
def textClaim (raw : Claims) (name : String) : Option String :=
  match raw.lookup name with
  | some (.str text) => some text
  | _ => none

/-- `toPayload`: no payload where the token describes neither actor. -/
def toPayload (raw : Claims) : Option JwtPayload :=
  match raw.lookup "type" with
  | none | some .null => staff
  | some (.str type) =>
      if type = "staff" then staff
      else if type = "customer" then
        match textClaim raw "sub" with
        | some sub =>
            some (.customer sub ((textClaim raw "cpf").getD "") ((textClaim raw "name").getD ""))
        | none => none
      else none
  | some _ => none
where
  staff : Option JwtPayload :=
    match textClaim raw "userId", textClaim raw "role" with
    | some userId, some role => some (.staff userId role)
    | _, _ => none

/-- `authMiddleware`: the user of a request with this `Authorization` header. -/
def authMiddleware (verify : String → Option Claims) (authorization : Option String) :
    Except Failure JwtPayload :=
  match authorization with
  | none => .error (.app (.unauthorized "Unauthorized"))
  | some header =>
      if "Bearer ".toList.isPrefixOf header.toList then
        let token := String.ofList ((header.toList.splitOn ' ').getD 1 [])
        match (verify token).bind toPayload with
        | some user => .ok user
        | none => .error (.app (.unauthorized "Invalid or expired token"))
      else .error (.app (.unauthorized "Unauthorized"))

def requireCustomer : JwtPayload → Except Failure Unit
  | .customer .. => .ok ()
  | .staff .. => .error (.app (.forbidden "Forbidden"))

/-- `requesterCustomerId`. -/
def requesterCustomerId : JwtPayload → Option String
  | .customer sub _ _ => some sub
  | .staff .. => none

/-! ## Responses -/

/-- The body of a response. -/
inductive ResponseBody where
  | error (message : String)
  | status (id : IdText) (status : OSStatus) (budgetTotal : Option Money)
  | history (history : ServiceOrderHistory)
deriving DecidableEq, Repr

structure Response where
  statusCode : ℕ
  body : ResponseBody
deriving DecidableEq, Repr

/-- `errorMiddleware`. -/
def errorResponse : Failure → Response
  | .app error => ⟨error.statusCode, .error error.message⟩
  | .db _ => ⟨500, .error "Internal server error"⟩

/-- The response to a request: what its handler presents, or what it throws. -/
def respond : Except Failure ResponseBody → Response
  | .ok body => ⟨200, body⟩
  | .error failure => errorResponse failure

/-- `GET /service-orders/:id/status`. -/
def getStatusRoute (verify : String → Option Claims) (authorization : Option String)
    (osId : IdText) (db : Db) : Response :=
  respond do
    let user ← authMiddleware verify authorization
    requireCustomer user
    let data ← GetServiceOrder.execute osId (requesterCustomerId user) db
    .ok (.status data.id data.status data.budgetTotal)

/-- `GET /service-orders/:id/history`. -/
def getHistoryRoute (orderBy : List StatusChange → List StatusChange)
    (verify : String → Option Claims) (authorization : Option String) (osId : IdText) (db : Db) :
    Response :=
  respond do
    let user ← authMiddleware verify authorization
    let data ← GetServiceOrderHistory.execute orderBy osId (requesterCustomerId user) db
    .ok (.history data)

/-- The response has data of an order, and not an error. -/
def Response.HasData (r : Response) : Prop := ∀ message, r.body ≠ .error message

/-! ## Seeing one's own orders -/

/-- The order belongs to the customer the token names. -/
def OrderRow.OwnedBy (row : OrderRow) (sub : String) : Prop := row.customerId.text.render = sub

/-- The same orders, and the same data of those of this customer. -/
def SameToOwner (sub : String) (db db' : Db) : Prop :=
  ∀ o, Option.Rel
    (fun row row' : OrderRow => row.customerId = row'.customerId ∧ (row.OwnedBy sub → row = row'))
    (db.orders.find? o) (db'.orders.find? o)

/-- A route gives the data of an order to its customer only: it has none of anybody
else's, and what it answers does not depend on any. -/
structure SeesOnlyOwn (route : Db → Response) (sub : String) (osId : IdText) (db : Db) : Prop where
  own : (route db).HasData → ∃ row, db.order? osId = some row ∧ row.OwnedBy sub
  foreign : ∀ db', SameToOwner sub db db' → route db' = route db

theorem SameToOwner.order? {sub : String} {db db' : Db} (h : SameToOwner sub db db')
    (osId : IdText) :
    Option.Rel
      (fun row row' : OrderRow => row.customerId = row'.customerId ∧ (row.OwnedBy sub → row = row'))
      (db.order? osId) (db'.order? osId) := by
  unfold Db.order?
  cases osId.column? with
  | none => exact .none
  | some o => exact h o

/-- `assertOwnership` against a customer that is named. -/
theorem assertOwnership_named (row : OrderRow) {sub : String} (hsub : sub ≠ "") :
    (row.OwnedBy sub ∧ assertOwnership row.entity (some sub) = .ok ()) ∨
      (¬row.OwnedBy sub ∧
        assertOwnership row.entity (some sub) = .error (.app (.forbidden "Forbidden"))) := by
  have hid : row.entity.customerId.render = row.customerId.text.render := rfl
  by_cases hown : row.OwnedBy sub
  · left
    refine ⟨hown, ?_⟩
    have heq : row.customerId.text.render = sub := hown
    simp [assertOwnership, hid, heq]
  · right
    refine ⟨hown, ?_⟩
    have hne : ¬row.customerId.text.render = sub := hown
    simp [assertOwnership, hid, hne, hsub]

/-- A route that presents what it found of an order after the ownership check. -/
def presentOrder (present : OrderRow → ResponseBody) (sub : String) (osId : IdText) (db : Db) :
    Response :=
  respond (match db.order? osId with
    | none => .error (.app (.notFound "Service order"))
    | some row => (assertOwnership row.entity (some sub)).map fun _ => present row)

theorem presentOrder_missing (present : OrderRow → ResponseBody) {sub : String} {osId : IdText}
    {db : Db} (hnone : db.order? osId = none) :
    SeesOnlyOwn (presentOrder present sub osId) sub osId db where
  own := by
    intro hdata
    unfold presentOrder at hdata
    rw [hnone] at hdata
    exact absurd rfl (hdata _)
  foreign := by
    intro db' hsame
    have hrel := hsame.order? osId
    rw [hnone] at hrel
    have hnone' : db'.order? osId = none := by
      cases hrow' : db'.order? osId with
      | none => rfl
      | some row' =>
          rw [hrow'] at hrel
          cases hrel
    unfold presentOrder
    rw [hnone, hnone']

theorem presentOrder_found (present : OrderRow → ResponseBody) {sub : String} (hsub : sub ≠ "")
    {osId : IdText} {db : Db} {row : OrderRow} (hrow : db.order? osId = some row) :
    SeesOnlyOwn (presentOrder present sub osId) sub osId db where
  own := by
    intro hdata
    rcases assertOwnership_named row hsub with ⟨hown, -⟩ | ⟨-, hcheck⟩
    · exact ⟨row, hrow, hown⟩
    · unfold presentOrder at hdata
      simp only [hrow, hcheck] at hdata
      exact absurd rfl (hdata _)
  foreign := by
    intro db' hsame
    have hrel := hsame.order? osId
    rw [hrow] at hrel
    cases hrow' : db'.order? osId with
    | none =>
        rw [hrow'] at hrel
        cases hrel
    | some row' =>
        rw [hrow'] at hrel
        cases hrel with
        | some hsome =>
            rcases hsome with ⟨hcustomer, hsame⟩
            unfold presentOrder
            rcases assertOwnership_named row hsub with ⟨hown, -⟩ | ⟨hnot, hcheck⟩
            · rw [hrow, hrow', hsame hown]
            · -- the other row has the same customer, so both are refused
              have hnot' : ¬row'.OwnedBy sub := by
                unfold OrderRow.OwnedBy
                rw [← hcustomer]
                exact hnot
              rcases assertOwnership_named row' hsub with ⟨hown', -⟩ | ⟨-, hcheck'⟩
              · exact absurd hown' hnot'
              · simp only [hrow, hrow', hcheck, hcheck']
                rfl

/-! ## The routes -/

section Routes

variable {verify : String → Option Claims} {authorization : Option String} {sub cpf name : String}

theorem getStatusRoute_customer
    (huser : authMiddleware verify authorization = .ok (.customer sub cpf name)) (osId : IdText) :
    getStatusRoute verify authorization osId =
      presentOrder (fun row => .status row.id.text row.status row.budgetTotal) sub osId := by
  funext db
  unfold getStatusRoute presentOrder
  rw [huser]
  simp only [Bind.bind, Except.bind, requireCustomer, requesterCustomerId,
    GetServiceOrder.execute_eq]
  cases db.order? osId with
  | none => rfl
  | some row =>
      cases hown : assertOwnership row.entity (some sub) with
      | error failure => simp [Except.map, hown]
      | ok _ =>
          simp only [Except.map, hown]
          rfl

theorem getHistoryRoute_customer (orderBy : List StatusChange → List StatusChange)
    (huser : authMiddleware verify authorization = .ok (.customer sub cpf name)) (osId : IdText) :
    getHistoryRoute orderBy verify authorization osId =
      presentOrder (fun row => .history ⟨row.id.text, orderBy row.history⟩) sub osId := by
  funext db
  unfold getHistoryRoute presentOrder
  rw [huser]
  simp only [Bind.bind, Except.bind, requesterCustomerId, GetServiceOrderHistory.execute_eq]
  cases db.order? osId with
  | none => rfl
  | some row => cases hown : assertOwnership row.entity (some sub) <;> simp [Except.map, hown]

/-- A customer sees no more than their own order, unless the token has an empty `sub`
and the order is there. -/
theorem customer_sees_own_iff (orderBy : List StatusChange → List StatusChange)
    (huser : authMiddleware verify authorization = .ok (.customer sub cpf name)) (osId : IdText)
    (db : Db) :
    (SeesOnlyOwn (getStatusRoute verify authorization osId) sub osId db ∧
        SeesOnlyOwn (getHistoryRoute orderBy verify authorization osId) sub osId db) ↔
      (sub ≠ "" ∨ db.order? osId = none) := by
  rw [getStatusRoute_customer huser, getHistoryRoute_customer orderBy huser]
  constructor
  · rintro ⟨hstatus, -⟩
    by_contra hno
    push Not at hno
    rcases hno with ⟨rfl, hstored⟩
    rcases Option.ne_none_iff_exists'.mp hstored with ⟨row, hrow⟩
    have hdata : (presentOrder (fun row => .status row.id.text row.status row.budgetTotal) "" osId
        db).HasData := by
      intro message
      simp [presentOrder, hrow, assertOwnership, Except.map, respond]
    rcases hstatus.own hdata with ⟨row', -, hown⟩
    exact Uuid.render_ne_empty row'.customerId hown
  · intro hcond
    cases hstored : db.order? osId with
    | none => exact ⟨presentOrder_missing _ hstored, presentOrder_missing _ hstored⟩
    | some row =>
        have hsub : sub ≠ "" := by simpa [hstored] using hcond
        exact ⟨presentOrder_found _ hsub hstored, presentOrder_found _ hsub hstored⟩

end Routes

/-! ## A token of the customer, and a token without one -/

/-- The claims of a customer token. -/
def customerClaims (sub : String) : Claims :=
  [("type", .str "customer"), ("sub", .str sub), ("cpf", .str "52998224725"), ("name", .str "Ana")]

theorem owner_sees_own : ∃ s, ShopSys.start.play postgres program .none openingMoves = some s ∧
    SeesOnlyOwn (getHistoryRoute id (fun _ => some (customerClaims (Uuid.text 0).render))
      (some "Bearer t") (Uuid.text 4)) (Uuid.text 0).render (Uuid.text 4) s.db := by
  have hplay : (ShopSys.start.play postgres program .none openingMoves).isSome = true := by
    decide +kernel
  have huser : authMiddleware (fun _ => some (customerClaims (Uuid.text 0).render))
      (some "Bearer t") = .ok (.customer (Uuid.text 0).render "52998224725" "Ana") := by
    rfl
  rcases Option.isSome_iff_exists.mp hplay with ⟨s, hs⟩
  have hiff := customer_sees_own_iff id huser (Uuid.text 4) s.db
  exact ⟨s, hs, (hiff.mpr (.inl (Uuid.render_ne_empty 0))).2⟩

/-- With an empty `sub`, the first order is read by whoever asks. -/
theorem empty_sub_sees_any_order : ∃ s, ShopSys.start.play postgres program .none openingMoves = some s ∧
    authMiddleware (fun _ => some (customerClaims "")) (some "Bearer t")
      = .ok (.customer "" "52998224725" "Ana") ∧
    getStatusRoute (fun _ => some (customerClaims "")) (some "Bearer t") (Uuid.text 4) s.db
      = ⟨200, .status (Uuid.text 4) .received none⟩ ∧
    ∃ row, s.db.order? (Uuid.text 4) = some row ∧ ¬row.OwnedBy "" ∧
      ¬SeesOnlyOwn (getStatusRoute (fun _ => some (customerClaims "")) (some "Bearer t")
        (Uuid.text 4)) "" (Uuid.text 4) s.db := by
  have hplay : ∃ s ∈ ShopSys.start.play postgres program .none openingMoves,
      getStatusRoute (fun _ => some (customerClaims "")) (some "Bearer t") (Uuid.text 4) s.db
        = ⟨200, .status (Uuid.text 4) .received none⟩ ∧
      (s.db.order? (Uuid.text 4)).isSome = true := by
    decide +kernel
  rcases hplay with ⟨s, hs, hstatus, hstored⟩
  rcases Option.isSome_iff_exists.mp hstored with ⟨row, hrow⟩
  refine ⟨s, hs, rfl, hstatus, row, hrow, Uuid.render_ne_empty _, ?_⟩
  intro hsees
  have hdata : (getStatusRoute (fun _ => some (customerClaims "")) (some "Bearer t") (Uuid.text 4)
      s.db).HasData := by
    intro message
    rw [hstatus]
    simp
  rcases hsees.own hdata with ⟨row', -, hown⟩
  exact Uuid.render_ne_empty _ hown

end CarRepairShop
