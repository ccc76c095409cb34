import CarRepairShop.Routes
import CarRepairShop.Serial

/-! # Who may do what

The whole service at work: employees sign in and register others, requests run
the operations of the shop behind the middlewares of their routes, messages run
those of the saga, and every start seeds the default administrator, all of it
interleaved statement by statement on the tables of the shop and `users` side by
side.

Nobody acts above the role of their account (`staff_act_as_appointed`): whatever a
request committed was asked for with the token of an employee whose role the route
allows, and every account goes back, administrator by administrator, to the one
that a start seeded. What has to be assumed is what a signature is for
(`AuthConfig.Verifies`, `Unforged`).
-/

namespace CarRepairShop

open Lib Txn Prog

/-! ## The service -/

/-- What the service is asked to do. An operation of the shop is asked for on its
route, one of the saga by a message. -/
inductive Event where
  | login (email password : String)
  | register (authorization : Option String) (input : RegisterInput)
  | operate (authorization : Option String) (op : Op) (route : Route)
      (serves : op.route = some route)
  | message (op : Op) (queued : op.route = none)
  | start

inductive Answer where
  | token (token : String)
  | registered (user : RegisterOutput)
  | outcome (outcome : Outcome)
  | started
deriving DecidableEq, Repr

/-- A unit of work on all tables. -/
abbrev ServiceWork (α : Type) :=
  Prog (Stmt ⊕ UserStmt) (Sum.elim Stmt.Resp UserStmt.Resp) Failure α

/-- All tables. -/
def database : Engine (Db × Users) (Stmt ⊕ UserStmt) (Sum.elim Stmt.Resp UserStmt.Resp)
    (Write ⊕ UserRow) Failure :=
  postgres.beside usersEngine

abbrev ServiceTx := Tx (Stmt ⊕ UserStmt) (Sum.elim Stmt.Resp UserStmt.Resp) (Write ⊕ UserRow)

abbrev ServiceCommit :=
  Commit (Db × Users) (Stmt ⊕ UserStmt) (Sum.elim Stmt.Resp UserStmt.Resp) (Write ⊕ UserRow) Event
    Answer

abbrev ServiceSys :=
  Sys (Db × Users) (Stmt ⊕ UserStmt) (Sum.elim Stmt.Resp UserStmt.Resp) (Write ⊕ UserRow) Failure
    Event Answer

section Serve

variable (config : AuthConfig)

/-- The middlewares of the route, then its handler. -/
def behind (route : Route) (authorization : Option String) (handler : ServiceWork Answer) :
    ServiceWork Answer := do
  let time ← now
  match route.admit config time { authorization } with
  | .error failure => .throw failure
  | .ok _ => handler

/-- How an event is dealt with. -/
def serve : Event → ServiceWork Answer
  | .login email password => do
      let token ← (Login.execute config email password).right
      .pure (.token token)
  | .register authorization input => behind config .register authorization do
      let user ← (Register.execute config input).right
      .pure (.registered user)
  | .operate authorization op route _ => behind config route authorization do
      let outcome ← (program op).left
      .pure (.outcome outcome)
  | .message op _ => do
      let outcome ← (program op).left
      .pure (.outcome outcome)
  | .start => do
      let _seeded ← (seedDefaultAdmin config).right
      .pure .started

/-- The service on a new database. -/
def ServiceSys.start : ServiceSys := { db := ({}, Table.empty) }

/-- The states that the runs of the service reach. -/
abbrev ServiceReachable (s : ServiceSys) : Prop :=
  Reachable database (serve config) .none ServiceSys.start s

end Serve

/-! ## What is committed -/

section Served

variable (config : AuthConfig)

/-- The request was let in on the route at some time. -/
def LetIn (route : Route) (authorization : Option String) : Prop :=
  ∃ time req, route.admit config time { authorization } = .ok req

/-- The accounts that a transaction adds. -/
def accounts (tx : ServiceTx) : List UserRow := rights tx.writes

@[simp] theorem accounts_left (tx : ShopTx) : accounts tx.left = [] := rights_inl tx.writes

@[simp] theorem accounts_right (tx : Tx UserStmt UserStmt.Resp UserRow) :
    accounts tx.right = tx.writes := rights_inr tx.writes

/-- What the commit of each event did. -/
def Served : Event → Answer → ServiceTx → Db × Users → Prop
  | .login email password, answer, tx, db => ∃ token, answer = .token token ∧
      tx.writes = [] ∧ ∃ u, SignedFor config email password token db.2 u
  | .register authorization input, answer, tx, db => (∃ user, answer = .registered user) ∧
      LetIn config .register authorization ∧
      ∃ t row, tx = t.right ∧ AccountFor config input t db.2 row
  | .operate authorization op route _, answer, tx, db => LetIn config route authorization ∧
      ∃ t outcome, answer = .outcome outcome ∧ tx = t.left ∧
        Committed Rely AnyStep op outcome t db.1
  | .message op _, answer, tx, db => ∃ t outcome, answer = .outcome outcome ∧ tx = t.left ∧
      Committed Rely AnyStep op outcome t db.1
  | .start, answer, tx, db => answer = .started ∧ (tx.writes = [] ∨
      ∃ t input row, defaultAdmin config = some input ∧ tx = t.right ∧
        AccountFor config input t db.2 row)

variable {config}

/-- The interference of all tables. -/
theorem serviceInterference : Interference (Beside Rely UsersGrow) :=
  Interference.beside interference_rely usersInterference

/-- Every step of the whole service is allowed. -/
abbrev AnyServiceStep : ServiceTx → Stmt ⊕ UserStmt → Db × Users → Prop := fun _ _ _ => True

theorem behind_ensures {route : Route} {authorization : Option String}
    {handler : ServiceWork Answer} {Q : Answer → ServiceTx → Db × Users → Prop} {db : Db × Users}
    (h : LetIn config route authorization →
      handler.Ensures database (Beside Rely UsersGrow) AnyServiceStep Q {} db) :
    (behind config route authorization handler).Ensures database (Beside Rely UsersGrow)
      AnyServiceStep Q {} db := by
  intro time
  change Ensures _ _ _ _ (match route.admit config time { authorization } with
    | .error failure => _ | .ok _ => _) _ _
  cases hadmit : route.admit config time { authorization } with
  | error failure => trivial
  | ok req => exact h ⟨time, req, hadmit⟩

/-- An operation of the shop commits what it does in the shop alone. -/
theorem operation_ensures (op : Op) (db : Db × Users) :
    ((program op).left >>= fun outcome => Prog.pure (Answer.outcome outcome)).Ensures database
      (Beside Rely UsersGrow) AnyServiceStep
      (fun answer tx db => ∃ t outcome, answer = .outcome outcome ∧ tx = t.left ∧
        Committed Rely AnyStep op outcome t db.1) {} db := by
  have hop : ((program op).left : ServiceWork Outcome).Ensures database (Beside Rely UsersGrow)
      AnyServiceStep (fun outcome tx db => ∃ t, tx = t.left ∧
        Committed Rely AnyStep op outcome t db.1) (Tx.left {}) db :=
    Ensures.left (fun _ _ _ _ => trivial) (program_ensures shopInterference_rely op db.1)
  refine Ensures.map serviceInterference (hop.post ?_)
  rintro outcome tx db ⟨t, rfl, hcommitted⟩
  exact ⟨t, outcome, rfl, rfl, hcommitted⟩

/-- A unit of work on `users` commits what it does there alone. -/
theorem account_ensures {α : Type} {p : UserWork α} {f : α → Answer}
    {Q : α → Tx UserStmt UserStmt.Resp UserRow → Users → Prop} {db : Db × Users}
    (h : p.Ensures usersEngine UsersGrow (fun _ _ _ => True) Q {} db.2) :
    (p.right >>= fun a => Prog.pure (f a)).Ensures database (Beside Rely UsersGrow) AnyServiceStep
      (fun answer tx db => ∃ t a, answer = f a ∧ tx = t.right ∧ Q a t db.2) {} db := by
  have hp : (p.right : ServiceWork α).Ensures database (Beside Rely UsersGrow)
      AnyServiceStep (fun a tx db => ∃ t, tx = t.right ∧ Q a t db.2) (Tx.right {}) db :=
    Ensures.right (fun _ _ _ _ => trivial) h
  refine Ensures.map serviceInterference (hp.post ?_)
  rintro a tx db ⟨t, rfl, hQ⟩
  exact ⟨t, a, rfl, rfl, hQ⟩

theorem serve_ensures (event : Event) (db : Db × Users) :
    (serve config event).Ensures database (Beside Rely UsersGrow) AnyServiceStep
      (Served config event) {} db := by
  cases event with
  | login email password =>
      refine (account_ensures (Login.execute_ensures config email password db.2)).post ?_
      rintro answer tx db ⟨t, token, rfl, rfl, hwrites, u, hsigned⟩
      exact ⟨token, rfl, by simp [Tx.right, hwrites], u, hsigned⟩
  | register authorization input =>
      refine behind_ensures fun hadmitted => ?_
      refine (account_ensures (Register.execute_ensures config input rfl db.2)).post ?_
      rintro answer tx db ⟨t, user, rfl, rfl, row, hregistered⟩
      exact ⟨⟨user, rfl⟩, hadmitted, t, row, rfl, hregistered⟩
  | operate authorization op route serves =>
      refine behind_ensures fun hadmitted => ?_
      exact (operation_ensures op db).post fun _ _ _ h => ⟨hadmitted, h⟩
  | message op queued => exact operation_ensures op db
  | start =>
      refine (account_ensures (f := fun _ => .started) (seedDefaultAdmin_ensures config db.2)).post ?_
      rintro answer tx db ⟨t, -, rfl, rfl, hwrites | ⟨input, row, hinput, hregistered⟩⟩
      · exact ⟨rfl, .inl (by simp [Tx.right, hwrites])⟩
      · exact ⟨rfl, .inr ⟨t, input, row, hinput, rfl, hregistered⟩⟩

/-! ## Accounts along a run -/

/-- What is committed to `users` is new there. -/
theorem Served.lacks {event : Event} {answer : Answer} {tx : ServiceTx} {db : Db × Users}
    (h : Served config event answer tx db) :
    accounts tx = [] ∨ ∃ row, accounts tx = [row] ∧ db.2.Lacks row := by
  have hnone : tx.writes = [] → accounts tx = [] := by
    intro hwrites
    rw [accounts, hwrites]
    rfl
  have hright : ∀ {input : RegisterInput} {t : Tx UserStmt UserStmt.Resp UserRow} {row : UserRow},
      AccountFor config input t db.2 row → ∃ row, accounts t.right = [row] ∧ db.2.Lacks row := by
    intro input t row hregistered
    exact ⟨row, by simp [hregistered.writes], hregistered.isNew⟩
  cases event with
  | login email password =>
      rcases h with ⟨token, -, hwrites, -⟩
      exact .inl (hnone hwrites)
  | register authorization input =>
      rcases h with ⟨-, -, t, row, rfl, hregistered⟩
      exact .inr (hright hregistered)
  | operate authorization op route serves =>
      rcases h with ⟨-, t, outcome, -, rfl, -⟩
      exact .inl (accounts_left t)
  | message op queued =>
      rcases h with ⟨t, outcome, -, rfl, -⟩
      exact .inl (accounts_left t)
  | start =>
      rcases h with ⟨-, hwrites | ⟨t, input, row, -, rfl, hregistered⟩⟩
      · exact .inl (hnone hwrites)
      · exact .inr (hright hregistered)

/-- The accounts after a commit are those before and those it added. -/
theorem Served.mem_users {event : Event} {answer : Answer} {tx : ServiceTx} {db : Db × Users}
    (h : Served config event answer tx db) (u : UserRow) :
    u ∈ (database.applyAll db tx.writes).2.rows ↔ u ∈ accounts tx ∨ u ∈ db.2.rows := by
  rw [database, Engine.applyAll_beside]
  change u ∈ (usersEngine.applyAll db.2 (accounts tx)).rows ↔ _
  rcases h.lacks with hnone | ⟨row, hone, hnew⟩
  · simp [hnone]
  · rw [hone, List.mem_singleton]
    exact hnew.mem_put u

/-- What is committed to the tables of the shop is what an operation commits there. -/
theorem Served.shop {event : Event} {answer : Answer} {tx : ServiceTx} {db : Db × Users}
    (h : Served config event answer tx db) :
    lefts tx.writes = [] ∨ ∃ (op : Op) (outcome : Outcome) (t : ShopTx), tx = t.left ∧
      Committed Rely AnyStep op outcome t db.1 := by
  have hnone : tx.writes = [] → lefts tx.writes = [] := by
    intro hwrites
    rw [hwrites]
    rfl
  cases event with
  | login email password =>
      rcases h with ⟨token, -, hwrites, -⟩
      exact .inl (hnone hwrites)
  | register authorization input =>
      rcases h with ⟨-, -, t, row, rfl, -⟩
      exact .inl (lefts_inr t.writes)
  | operate authorization op route serves =>
      rcases h with ⟨-, t, outcome, -, rfl, hcommitted⟩
      exact .inr ⟨op, outcome, t, rfl, hcommitted⟩
  | message op queued =>
      rcases h with ⟨t, outcome, -, rfl, hcommitted⟩
      exact .inr ⟨op, outcome, t, rfl, hcommitted⟩
  | start =>
      rcases h with ⟨-, hwrites | ⟨t, input, row, -, rfl, -⟩⟩
      · exact .inl (hnone hwrites)
      · exact .inl (lefts_inr t.writes)

/-- A commit is no more than the others rely on. -/
theorem Served.grows {event : Event} {answer : Answer} {tx : ServiceTx} {db : Db × Users}
    (h : Served config event answer tx db) {held : List (Write ⊕ UserRow)}
    (hclear : ∀ w ∈ tx.writes, ∀ w' ∈ held, database.conflicts w w' = false) :
    Beside Rely UsersGrow held db (database.applyAll db tx.writes) := by
  constructor
  · rw [database, Engine.applyAll_beside]
    rcases h.shop with hnone | ⟨op, outcome, t, rfl, hcommitted⟩
    · rw [hnone]
      exact Rely.refl _ _
    · have hleft : lefts (Tx.left t : ServiceTx).writes = t.writes := lefts_inl t.writes
      rw [hleft]
      exact rely_of_commit hcommitted.advances (Engine.clear_left hclear)
  · refine ⟨fun u hu => (h.mem_users u).mpr (.inr hu), fun u hu => ?_⟩
    rcases (h.mem_users u).mp hu with hadded | hu
    · refine .inr fun r hr => ?_
      rcases List.mem_filterMap.mp hadded with ⟨w, hw, hwright⟩
      rcases List.mem_filterMap.mp hr with ⟨w', hw', hwright'⟩
      rw [Sum.getRight?_eq_some_iff] at hwright hwright'
      subst hwright hwright'
      have hfree : u.clashes r = false := hclear _ hw _ hw'
      simpa [UserRow.clashes] using hfree
    · exact .inl hu

theorem service_relyGuarantee :
    RelyGuarantee database (serve config) .none (Beside Rely UsersGrow) (Served config) where
  conflicts_comm := Engine.conflicts_beside_comm Write.conflicts_comm UserRow.clashes_comm
  refl := serviceInterference.refl
  trans := serviceInterference.trans
  launch event _ db := (serve_ensures event db).mono (fun _ _ _ h => h) (fun _ _ _ _ => trivial)
    fun _ _ _ h => h
  commit _ _ _ _ _ hQ hclear := hQ.grows hclear

/-- The accounts are those that the commits so far added, at every moment of the run. -/
structure AccountsInvariant (config : AuthConfig) (db : Db × Users) (log : List ServiceCommit) :
    Prop where
  served : ∀ c ∈ log, Served config c.op c.result c.tx c.before
  stored : ∀ u, u ∈ db.2.rows ↔ ∃ c ∈ log, u ∈ accounts c.tx
  before : ∀ (i : ℕ) (c : ServiceCommit), log[i]? = some c → ∀ u,
    u ∈ c.before.2.rows ↔ ∃ c' ∈ log.take i, u ∈ accounts c'.tx

theorem AccountsInvariant.commit {db : Db × Users} {log : List ServiceCommit} {c : ServiceCommit}
    (h : AccountsInvariant config db log) (hserved : Served config c.op c.result c.tx c.before)
    (hbefore : c.before = db) :
    AccountsInvariant config (database.applyAll db c.tx.writes) (log ++ [c]) where
  served c' hc' := by
    rcases List.mem_append.mp hc' with hc' | hc'
    · exact h.served c' hc'
    · obtain rfl := List.mem_singleton.mp hc'
      exact hserved
  stored u := by
    rw [hbefore] at hserved
    rw [hserved.mem_users, h.stored]
    constructor
    · rintro (hu | ⟨c', hc', hu⟩)
      · exact ⟨c, List.mem_append_right _ (List.mem_singleton_self c), hu⟩
      · exact ⟨c', List.mem_append_left _ hc', hu⟩
    · rintro ⟨c', hc', hu⟩
      rcases List.mem_append.mp hc' with hc' | hc'
      · exact .inr ⟨c', hc', hu⟩
      · obtain rfl := List.mem_singleton.mp hc'
        exact .inl hu
  before i c' hi u := by
    rcases Nat.lt_or_ge i log.length with hlt | hge
    · rw [List.getElem?_append_left hlt] at hi
      rw [List.take_append_of_le_length hlt.le]
      exact h.before i c' hi u
    · -- the new commit comes after all others
      rw [List.getElem?_append_right hge, List.getElem?_singleton] at hi
      split at hi
      · next hzero =>
        cases hi
        have hlength : i = log.length := by omega
        rw [hlength, List.take_left, hbefore]
        exact h.stored u
      · cases hi

theorem reachable_accounts {s : ServiceSys} (h : ServiceReachable config s) :
    AccountsInvariant config s.db s.log := by
  refine h.log_induction service_relyGuarantee rfl ?_ ?_
  · constructor
    · intro c hc
      cases hc
    · intro u
      simp [ServiceSys.start, Table.empty]
    · intro i c hi
      cases hi
  · intro db log i event answer tx hinv _ hQ
    exact hinv.commit (c := ⟨i, event, answer, tx, db⟩) hQ rfl

end Served

/-! ## Who signed in -/

/-- The token of a header, as `authMiddleware` takes it. -/
def bearer (header : String) : String := String.ofList ((header.toList.splitOn ' ').getD 1 [])

theorem authMiddleware_ok {verify : String → Option Claims} {authorization : Option String}
    {user : JwtPayload} (h : authMiddleware verify authorization = .ok user) :
    ∃ token, authorization.map bearer = some token ∧ (verify token).bind toPayload = some user := by
  cases authorization with
  | none => cases h
  | some header =>
      refine ⟨bearer header, rfl, ?_⟩
      simp only [authMiddleware] at h
      split at h
      · split at h
        · next payload hpayload =>
          cases h
          exact hpayload
        · cases h
      · cases h

/-- The token a request presents. -/
def Event.presents : Event → Option String
  | .register authorization _ => authorization.map bearer
  | .operate authorization .. => authorization.map bearer
  | _ => none

/-- The token an answer hands out. -/
def Answer.token? : Answer → Option String
  | .token text => some text
  | _ => none

/-- The tokens presented and handed out, commit by commit. -/
def tokens (log : List ServiceCommit) : List (Option String × Option String) :=
  log.map fun c => (c.op.presents, c.result.token?)

section Signed

variable (config : AuthConfig)

/-- What is verified is what was signed. -/
def AuthConfig.Verifies : Prop := ∀ t t' userId role claims,
  config.verify t' (config.sign t (staffClaims userId role)) = some claims →
    toPayload claims = some (.staff userId.render role.name)

/-- Nobody else signs tokens of employees: one that is presented was handed out before. -/
def Unforged (said : List (Option String × Option String)) : Prop :=
  ∀ (i : ℕ) (token : String) (handed : Option String) (t : ℕ) (userId role : String),
    said[i]? = some (some token, handed) →
    (config.verify t token).bind toPayload = some (.staff userId role) →
    ∃ x ∈ said.take i, x.2 = some token

/-- The employee was handed out the token, for the email and password of the account. -/
def SignedIn (log : List ServiceCommit) (token : String) (u : UserRow) : Prop :=
  ∃ c ∈ log, ∃ email password, c.op = .login email password ∧ c.result = .token token ∧
    SignedFor config email password token c.before.2 u

/-- The account was seeded by a start, or registered by an administrator who was
appointed and signed in before. -/
inductive Appointed : List ServiceCommit → UserRow → Prop where
  | seeded {log : List ServiceCommit} {c : ServiceCommit} {u : UserRow} (commit : c ∈ log)
      (op : c.op = .start) (added : u ∈ accounts c.tx) : Appointed log u
  | registered {log : List ServiceCommit} {i : ℕ} {c : ServiceCommit} {u : UserRow}
      {authorization : Option String} {input : RegisterInput} {token : String} {admin : UserRow}
      (commit : log[i]? = some c) (op : c.op = .register authorization input)
      (added : u ∈ accounts c.tx) (presented : c.op.presents = some token)
      (signedIn : SignedIn config (log.take i) token admin) (role : admin.role = .admin)
      (appointed : Appointed (log.take i) admin) : Appointed log u

variable {config} {s : ServiceSys}

/-- A request that was let in by role presented the token of an employee of that role. -/
theorem AccountsInvariant.asked {db : Db × Users} {log : List ServiceCommit}
    (h : AccountsInvariant config db log) (hverifies : config.Verifies)
    (hunforged : Unforged config (tokens log)) {i : ℕ} {c : ServiceCommit} (hc : log[i]? = some c)
    {route : Route} {roles : List UserRole} (haccess : route.access = some (.oneOf roles))
    {authorization : Option String} (hpresents : c.op.presents = authorization.map bearer)
    (hadmitted : LetIn config route authorization) :
    ∃ token u, c.op.presents = some token ∧ SignedIn config (log.take i) token u ∧
      u ∈ c.before.2.rows ∧ u.role ∈ roles := by
  rcases hadmitted with ⟨time, req, hadmit⟩
  rcases (Route.admit_iff haccess).mp ⟨req, hadmit⟩ with ⟨user, huser, hallows⟩
  rcases authMiddleware_ok huser with ⟨token, htoken, hpayload⟩
  cases user with
  | customer sub cpf name => cases hallows
  | staff userId role =>
      have hsaid : (tokens log)[i]? = some (some token, c.result.token?) := by
        simp [tokens, hc, hpresents, htoken]
      rcases hunforged i token _ time userId role hsaid hpayload with ⟨x, hx, hhanded⟩
      rw [tokens, ← List.map_take] at hx
      rcases List.mem_map.mp hx with ⟨c', hc', rfl⟩
      -- only signing in hands out tokens
      have hserved := h.served c' (List.mem_of_mem_take hc')
      cases hop : c'.op with
      | login email password =>
          rw [hop] at hserved
          rcases hserved with ⟨token', hresult, -, u, hsigned⟩
          have heq : token' = token := by
            simpa [hresult, Answer.token?] using hhanded
          subst heq
          refine ⟨token', u, hpresents.trans htoken,
            ⟨c', hc', email, password, hop, hresult, hsigned⟩, ?_, ?_⟩
          · rcases List.mem_iff_getElem?.mp hc' with ⟨j, hj⟩
            have hji : j < i := by
              have hlt := (List.getElem?_eq_some_iff.mp hj).1
              rw [List.length_take] at hlt
              omega
            rw [List.getElem?_take_of_lt hji] at hj
            rcases (h.before j c' hj u).mp hsigned.stored with ⟨c₀, hc₀, hu⟩
            exact (h.before i c hc u).mpr ⟨c₀, List.take_subset_take_left log hji.le hc₀, hu⟩
          · rcases hsigned.token with ⟨t, rfl⟩
            rcases Option.bind_eq_some_iff.mp hpayload with ⟨claims, hclaims, hrole⟩
            rw [hverifies t time _ _ claims hclaims] at hrole
            cases hrole
            exact Access.allows_role.mp hallows
      | register authorization input =>
          rw [hop] at hserved
          rcases hserved with ⟨⟨user, hresult⟩, -⟩
          simp [hresult, Answer.token?] at hhanded
      | operate authorization op route serves =>
          rw [hop] at hserved
          rcases hserved with ⟨-, t, outcome, hresult, -⟩
          simp [hresult, Answer.token?] at hhanded
      | message op queued =>
          rw [hop] at hserved
          rcases hserved with ⟨t, outcome, hresult, -⟩
          simp [hresult, Answer.token?] at hhanded
      | start =>
          rw [hop] at hserved
          simp [hserved.1, Answer.token?] at hhanded

/-- Every account that the first `n` commits added was appointed by them. -/
theorem AccountsInvariant.appointed {db : Db × Users} {log : List ServiceCommit}
    (h : AccountsInvariant config db log) (hverifies : config.Verifies)
    (hunforged : Unforged config (tokens log)) (n : ℕ) {u : UserRow}
    (hu : ∃ c ∈ log.take n, u ∈ accounts c.tx) : Appointed config (log.take n) u := by
  induction n using Nat.strong_induction_on generalizing u with
  | _ n ih =>
      rcases hu with ⟨c, hc, hu⟩
      rcases List.mem_iff_getElem?.mp hc with ⟨i, hi⟩
      have hin : i < n := by
        have hlt := (List.getElem?_eq_some_iff.mp hi).1
        rw [List.length_take] at hlt
        omega
      have hi' := hi
      rw [List.getElem?_take_of_lt hin] at hi'
      have hserved := h.served c (List.mem_of_mem_take hc)
      cases hop : c.op with
      | start => exact .seeded hc hop hu
      | register authorization input =>
          rw [hop] at hserved
          rcases hserved with ⟨-, hadmitted, -⟩
          have hpresents : c.op.presents = authorization.map bearer := by rw [hop]; rfl
          have haccess : Route.access .register = some (.oneOf [.admin]) := rfl
          rcases h.asked hverifies hunforged hi' haccess hpresents hadmitted with
            ⟨token, admin, htoken, hsigned, hstored, hrole⟩
          have htake : (log.take n).take i = log.take i := by
            rw [List.take_take, Nat.min_eq_left hin.le]
          have happointed := ih i hin ((h.before i c hi' admin).mp hstored)
          rw [← htake] at hsigned happointed
          exact .registered hi hop hu htoken hsigned (List.mem_singleton.mp hrole) happointed
      | login email password =>
          rw [hop] at hserved
          rcases hserved with ⟨token, -, hwrites, -⟩
          simp [accounts, hwrites, rights] at hu
      | operate authorization op route serves =>
          rw [hop] at hserved
          rcases hserved with ⟨-, t, outcome, -, hleft, -⟩
          simp [hleft] at hu
      | message op queued =>
          rw [hop] at hserved
          rcases hserved with ⟨t, outcome, -, hleft, -⟩
          simp [hleft] at hu

/-- In every interleaving of sign-ins, registrations, requests, messages and starts
on a new database, as long as tokens are not forged: every account was seeded or
registered by an administrator who was appointed before, and every operation of the
shop that a request committed was asked for with the token of an account, handed out
before for its password, that was appointed and has a role of the route. -/
theorem staff_act_as_appointed (h : ServiceReachable config s) (hverifies : config.Verifies)
    (hunforged : Unforged config (tokens s.log)) :
    (∀ u ∈ s.db.2.rows, Appointed config s.log u) ∧
    ∀ (i : ℕ) (c : ServiceCommit) (authorization : Option String) (op : Op) (route : Route)
      (serves : op.route = some route), s.log[i]? = some c →
      c.op = .operate authorization op route serves →
      ∃ token u, authorization.map bearer = some token ∧ SignedIn config (s.log.take i) token u ∧
        u ∈ c.before.2.rows ∧ u.role ∈ op.roles ∧ Appointed config (s.log.take i) u := by
  have hinv := reachable_accounts h
  constructor
  · intro u hu
    have happointed := hinv.appointed hverifies hunforged s.log.length (u := u)
    rw [List.take_length] at happointed
    exact happointed ((hinv.stored u).mp hu)
  · intro i c authorization op route serves hc hop
    have hserved := hinv.served c (List.mem_of_getElem? hc)
    rw [hop] at hserved
    have hpresents : c.op.presents = authorization.map bearer := by rw [hop]; rfl
    rcases hinv.asked hverifies hunforged hc (Op.route_access serves) hpresents hserved.1 with
      ⟨token, u, htoken, hsigned, hstored, hrole⟩
    exact ⟨token, u, hpresents.symm.trans htoken, hsigned, hstored, hrole,
      hinv.appointed hverifies hunforged i ((hinv.before i c hc u).mp hstored)⟩

end Signed

/-- The claims of a token that has the last letter of the role before the account. -/
def plainClaims : List Char → Option Claims
  | 't' :: userId => claims userId .attendant
  | 'c' :: userId => claims userId .mechanic
  | 'n' :: userId => claims userId .admin
  | _ => none
where
  claims (userId : List Char) (role : UserRole) : Option Claims :=
    some [("type", .str "staff"), ("userId", .str (String.ofList userId)), ("role", .str role.name)]

/-- Tokens that anybody can read, and passwords that are kept as they are. -/
def plainConfig : AuthConfig where
  sign _ claims := String.ofList
    (((textClaim claims "role").getD "").toList.getLastD ' ' ::
      ((textClaim claims "userId").getD "").toList)
  verify _ token := plainClaims token.toList
  hash _ password := password
  compare password hash := password == hash
  internalToken := none
  adminEmail := none
  adminPassword := some "secret"

theorem plainConfig_verifies : plainConfig.Verifies := by
  intro t t' userId role claims h
  have hsign : plainConfig.sign t (staffClaims userId role) =
      String.ofList (role.name.toList.getLastD ' ' :: userId.render.toList) := rfl
  rw [hsign] at h
  change plainClaims (String.ofList _).toList = some claims at h
  rw [String.toList_ofList] at h
  have hclaims : plainClaims (role.name.toList.getLastD ' ' :: userId.render.toList) =
      plainClaims.claims userId.render.toList role := by
    cases role <;> rfl
  rw [hclaims] at h
  cases h
  rw [String.ofList_toList]
  rfl

/-- The first start, the administrator signs in and registers an attendant, who
signs in and registers a customer. -/
def firstAttendant : List (Label Event) :=
  Label.session 0 .start 6 ++
  Label.session 1 (.login "admin@master.com" "secret") 3 ++
  Label.session 2 (.register (some s!"Bearer n{(Uuid.text 1).render}")
    ⟨"rui@shop", "pw", .attendant⟩) 6 ++
  Label.session 3 (.login "rui@shop" "pw") 3 ++
  Label.session 4 (.operate (some s!"Bearer t{(Uuid.text 3).render}")
    (.createCustomer ⟨"Ana", "529.982.247-25", .cpf, "ana@mail", "11987654321"⟩) .createCustomer
    rfl) 6

theorem first_attendant_appointed : ∃ s u,
    ServiceSys.start.play database (serve plainConfig) .none firstAttendant = some s ∧
    u ∈ s.db.2.rows ∧ u.role = .attendant ∧ Appointed plainConfig s.log u := by
  have hplay : ∃ s ∈ ServiceSys.start.play database (serve plainConfig) .none firstAttendant,
      tokens s.log = [(none, none), (none, some s!"n{(Uuid.text 1).render}"),
        (some s!"n{(Uuid.text 1).render}", none), (none, some s!"t{(Uuid.text 3).render}"),
        (some s!"t{(Uuid.text 3).render}", none)] ∧
      ∃ u ∈ s.db.2.rows, u.role = .attendant := by
    decide +kernel
  rcases hplay with ⟨s, hs, htokens, u, hu, hrole⟩
  have hreachable : ServiceReachable plainConfig s := reachable_of_play .init hs
  refine ⟨s, u, hs, hu, hrole, ?_⟩
  refine (staff_act_as_appointed hreachable plainConfig_verifies ?_).1 u hu
  rw [htokens]
  -- the two tokens that are presented were handed out just before
  intro i token handed t userId role hsaid _
  match i with
  | 0 | 1 | 3 => cases hsaid
  | 2 =>
      cases hsaid
      exact ⟨(none, some s!"n{(Uuid.text 1).render}"), by simp, rfl⟩
  | 4 =>
      cases hsaid
      exact ⟨(none, some s!"t{(Uuid.text 3).render}"), by simp, rfl⟩
  | i + 5 => cases hsaid

end CarRepairShop
