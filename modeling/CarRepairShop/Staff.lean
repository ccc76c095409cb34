import CarRepairShop.Lib.SideBySide
import CarRepairShop.Lib.UniqueColumn
import CarRepairShop.OrderAccess

/-! # The staff and their accounts

`users`, the table of the employees, and what reads and writes it: `LoginUseCase.ts`,
`RegisterUseCase.ts` and the `seed.ts` of every start. No table refers to `users`,
so they have an engine of their own.

`AuthConfig` stands for `jsonwebtoken` and `bcryptjs`, each function with the
randomness or the time it uses, and for the variables of the environment. An
account is never changed and never removed (`UsersGrow`): the role that `login`
signs is the one the account was registered with.
-/

namespace CarRepairShop

open Lib Txn Prog

/-! ## Accounts -/

/-- `UserRole`. -/
inductive UserRole where
  | attendant
  | mechanic
  | admin
deriving DecidableEq, Repr

/-- The name of a role in the code and in its tokens. -/
def UserRole.name : UserRole → String
  | .attendant => "attendant"
  | .mechanic => "mechanic"
  | .admin => "admin"

theorem UserRole.name_inj {a b : UserRole} (h : a.name = b.name) : a = b := by
  cases a <;> cases b <;> first | rfl | (revert h; decide)

/-- A row of `users`. -/
structure UserRow where
  id : Uuid
  email : String
  passwordHash : String
  role : UserRole
deriving DecidableEq, Repr

/-- `users`; the unique `email` is checked by the statement. -/
abbrev Users := Table (fun r : UserRow => r.id) (fun _ => True)

/-- The statements of `PostgresUserRepository`. -/
inductive UserStmt where
  | findUserByEmail (email : String)
  | insertUser (row : UserRow)

@[reducible] def UserStmt.Resp : UserStmt → Type
  | .findUserByEmail _ => Option UserRow
  | .insertUser _ => UserRow

/-- Rows that share an id or an email conflict. -/
def UserRow.clashes (r r' : UserRow) : Bool := decide (r.email = r'.email ∨ r.id = r'.id)

/-- PostgreSQL on `users`. A write is the row that was inserted. -/
def usersEngine : Engine Users UserStmt UserStmt.Resp UserRow Failure where
  exec
    | .findUserByEmail email, users =>
        if TextFits email then .ok (users.rows.find? fun r => r.email = email, [])
        else .error (.db .invalidText)
    | .insertUser row, users =>
        -- the texts are read before the keys are compared
        if ¬(TextFits row.email ∧ TextFits row.passwordHash) then .error (.db .invalidText)
        else if users.rows.any (fun r => r.email = row.email) then .error (.db (.unique ["email"]))
        else if users.rows.any (fun r => r.id = row.id) then .error (.db (.unique ["id"]))
        else .ok (row, [row])
  apply users row := users.put row trivial
  conflicts := UserRow.clashes

/-- A unit of work on `users`. -/
abbrev UserWork (α : Type) := Prog UserStmt UserStmt.Resp Failure α

/-- Sends a statement. -/
def userSql (s : UserStmt) : UserWork s.Resp := query s

/-- `User`. -/
structure User where
  id : IdText
  email : String
  passwordHash : String
  role : UserRole
deriving DecidableEq, Repr

def UserRow.toEntity (row : UserRow) : User where
  id := row.id.text
  email := row.email
  passwordHash := row.passwordHash
  role := row.role

namespace UserRepository

def findByEmail (email : String) : UserWork (Option User) := do
  let found : Option UserRow ← userSql (.findUserByEmail email)
  .pure (found.map UserRow.toEntity)

def create (email passwordHash : String) (role : UserRole) : UserWork User := do
  let id ← fresh
  let row : UserRow ← queryOr (UserStmt.insertUser { id, email, passwordHash, role })
    translatingUniqueViolation
  .pure row.toEntity

end UserRepository

/-! ## Signing in and registering -/

/-- The libraries the service authenticates with, and its environment. -/
structure AuthConfig where
  /-- `jwt.sign` with `JWT_SECRET`, at a time. -/
  sign : ℕ → Claims → String
  /-- `jwt.verify` with `JWT_SECRET`, at a time. -/
  verify : ℕ → String → Option Claims
  /-- `bcrypt.hash`, with the salt it draws. -/
  hash : ℕ → String → String
  /-- `bcrypt.compare`. -/
  compare : String → String → Bool
  /-- `INTERNAL_TOKEN`. -/
  internalToken : Option String
  /-- `ADMIN_EMAIL`. -/
  adminEmail : Option String
  /-- `ADMIN_PASSWORD`. -/
  adminPassword : Option String

/-- The claims that `LoginUseCase` signs. -/
def staffClaims (userId : IdText) (role : UserRole) : Claims :=
  [("type", .str "staff"), ("userId", .str userId.render), ("role", .str role.name)]

theorem toPayload_staffClaims (userId : IdText) (role : UserRole) :
    toPayload (staffClaims userId role) = some (.staff userId.render role.name) := by
  rfl

section UseCases

variable (config : AuthConfig)

/-- `LoginUseCase`: the token it returns. -/
def Login.execute (email password : String) : UserWork String := do
  let user ← UserRepository.findByEmail email
  match user with
  | none => .throw (.app (.unauthorized "Invalid credentials"))
  | some user =>
      if config.compare password user.passwordHash then do
        let issuedAt ← now
        .pure (config.sign issuedAt (staffClaims user.id user.role))
      else .throw (.app (.unauthorized "Invalid credentials"))

/-- `RegisterInput`. -/
structure RegisterInput where
  email : String
  password : String
  role : UserRole
deriving DecidableEq, Repr

/-- `RegisterOutput`. -/
structure RegisterOutput where
  id : IdText
  email : String
  role : UserRole
deriving DecidableEq, Repr

/-- `RegisterUseCase`. -/
def Register.execute (input : RegisterInput) : UserWork RegisterOutput := do
  let existing ← UserRepository.findByEmail input.email
  match existing with
  | some _ => .throw (.app (.conflict "Email already in use"))
  | none => do
      let salt ← fresh
      let user ← UserRepository.create input.email (config.hash salt input.password) input.role
      .pure { id := user.id, email := user.email, role := user.role }

/-- The account that `seedDefaultAdmin` registers; no password, no account. -/
def defaultAdmin : Option RegisterInput :=
  match config.adminPassword with
  | none | some "" => none
  | some password =>
      some { email := config.adminEmail.getD "admin@master.com", password, role := .admin }

def seedDefaultAdmin : UserWork Unit :=
  match defaultAdmin config with
  | none => .pure ()
  | some input => do
      let existing ← UserRepository.findByEmail input.email
      match existing with
      | some _ => .pure ()
      | none => do
          let _created ← Register.execute config input
          .pure ()

end UseCases

/-! ## Among the others -/

/-- Accounts stay as they are, and nobody takes the id or the email of an account
that is held. -/
structure UsersGrow (held : List UserRow) (a b : Users) : Prop where
  kept : ∀ u ∈ a.rows, u ∈ b.rows
  clear : ∀ u ∈ b.rows, u ∈ a.rows ∨ ∀ r ∈ held, u.email ≠ r.email ∧ u.id ≠ r.id

theorem usersInterference : Interference UsersGrow where
  refl _ _ := ⟨fun _ hu => hu, fun _ hu => .inl hu⟩
  trans held a b c hab hbc := by
    refine ⟨fun u hu => hbc.kept u (hab.kept u hu), fun u hu => ?_⟩
    rcases hbc.clear u hu with hu | hclear
    · exact hab.clear u hu
    · exact .inr hclear
  held ws ws' a b hab := by
    refine ⟨hab.kept, fun u hu => ?_⟩
    rcases hab.clear u hu with hu | hclear
    · exact .inl hu
    · exact .inr fun r hr => hclear r (List.mem_append_left _ hr)

theorem UserRow.clashes_comm (r r' : UserRow) : r.clashes r' = r'.clashes r := by
  simp [UserRow.clashes, eq_comm]

/-- No account has the email or the id of this one. -/
def Users.Lacks (users : Users) (row : UserRow) : Prop :=
  ∀ u ∈ users.rows, u.email ≠ row.email ∧ u.id ≠ row.id

/-- What an insert that is not refused writes. -/
theorem insertUser_ok {users : Users} {row r : UserRow} {ws : List UserRow}
    (h : usersEngine.exec (.insertUser row) users = .ok (r, ws)) :
    r = row ∧ ws = [row] ∧ users.Lacks row := by
  simp only [usersEngine] at h
  split at h
  · cases h
  · split at h
    · cases h
    · next hemail =>
      split at h
      · cases h
      · next hid =>
        cases h
        refine ⟨rfl, rfl, fun u hu => ⟨fun heq => hemail ?_, fun heq => hid ?_⟩⟩
        · exact List.any_eq_true.mpr ⟨u, hu, by simpa using heq⟩
        · exact List.any_eq_true.mpr ⟨u, hu, by simpa using heq⟩

/-- An account that is held stays new. -/
theorem Users.Lacks.stable {row : UserRow} {a b : Users} (h : a.Lacks row)
    (hgrow : UsersGrow [row] a b) : b.Lacks row := by
  intro u hu
  rcases hgrow.clear u hu with hu | hclear
  · exact h u hu
  · exact hclear row (List.mem_singleton_self row)

/-- Inserting a new account takes none away. -/
theorem Users.Lacks.mem_put {row : UserRow} {users : Users} (h : users.Lacks row) (u : UserRow) :
    u ∈ (users.put row trivial).rows ↔ u = row ∨ u ∈ users.rows := by
  rw [Table.mem_put]
  constructor
  · rintro (rfl | ⟨hu, -⟩)
    · exact .inl rfl
    · exact .inr hu
  · rintro (rfl | hu)
    · exact .inl rfl
    · exact .inr ⟨hu, (h u hu).2⟩

section Specs

variable (config : AuthConfig)
variable {G : Tx UserStmt UserStmt.Resp UserRow → UserStmt → Users → Prop}
variable {tx : Tx UserStmt UserStmt.Resp UserRow}

/-- An account that is found is there. -/
theorem UserRepository.findByEmail_ensures (email : String) (htx : tx.writes = []) (users : Users) :
    (findByEmail email).Ensures usersEngine UsersGrow G
      (fun found tx' users' => tx'.writes = [] ∧
        ∀ user, found = some user → ∃ u ∈ users'.rows, u.email = email ∧ user = u.toEntity)
      tx users := by
  intro db _ _ found ws he db' hgrow
  have hview : usersEngine.view tx db = db := by simp [Engine.view, htx]
  rw [hview] at he
  simp only [usersEngine] at he
  split at he
  case isFalse => cases he
  cases he
  refine ⟨by simp [htx], ?_⟩
  intro user huser
  rcases Option.map_eq_some_iff.mp huser with ⟨u, hu, rfl⟩
  exact ⟨u, hgrow.kept u (List.mem_of_find?_eq_some hu), by simpa using List.find?_some hu, rfl⟩

/-- An account that is created is new. -/
theorem UserRepository.create_ensures (email passwordHash : String) (role : UserRole)
    (htx : tx.writes = []) (users : Users) :
    (create email passwordHash role).Ensures usersEngine UsersGrow G
      (fun _ tx' users' => ∃ id, tx'.writes = [⟨id, email, passwordHash, role⟩] ∧
        users'.Lacks ⟨id, email, passwordHash, role⟩) tx users := by
  intro id db _ _ row ws he db' hgrow
  have hview : usersEngine.view tx db = db := by simp [Engine.view, htx]
  rw [hview] at he
  rcases insertUser_ok he with ⟨rfl, rfl, hnew⟩
  have hwrites : tx.writes ++ [(⟨id, email, passwordHash, role⟩ : UserRow)] =
      [⟨id, email, passwordHash, role⟩] := by simp [htx]
  rw [Tx.record_writes, hwrites] at hgrow
  exact ⟨id, hwrites, hnew.stable hgrow⟩

/-- The token is one for an account with this email and password. -/
structure SignedFor (email password token : String) (users : Users) (u : UserRow) : Prop where
  stored : u ∈ users.rows
  email : u.email = email
  password : config.compare password u.passwordHash = true
  token : ∃ t, token = config.sign t (staffClaims u.id.text u.role)

/-- Signing in reads an account and writes nothing. -/
theorem Login.execute_ensures (email password : String) (users : Users) :
    (Login.execute config email password).Ensures usersEngine UsersGrow G
      (fun token tx users => tx.writes = [] ∧ ∃ u, SignedFor config email password token users u)
      {} users := by
  refine Ensures.seq usersInterference (UserRepository.findByEmail_ensures email rfl users) ?_
  rintro found tx' users' ⟨hwrites, hfound⟩ -
  cases found with
  | none => trivial
  | some user =>
      rcases hfound user rfl with ⟨u, hu, hemail, rfl⟩
      change Ensures _ _ _ _ (if config.compare password u.passwordHash then _ else _) _ _
      split
      · next hpassword =>
        intro t users'' hgrow
        exact ⟨hwrites, u, hgrow.kept u hu, hemail, hpassword, t, rfl⟩
      · trivial

/-- The one account that an input asks for, new in the table. -/
structure AccountFor (input : RegisterInput) (tx : Tx UserStmt UserStmt.Resp UserRow)
    (users : Users) (row : UserRow) : Prop where
  writes : tx.writes = [row]
  email : row.email = input.email
  role : row.role = input.role
  password : ∃ salt, row.passwordHash = config.hash salt input.password
  isNew : users.Lacks row

/-- Registering inserts one account. -/
theorem Register.execute_ensures (input : RegisterInput) (htx : tx.writes = []) (users : Users) :
    (Register.execute config input).Ensures usersEngine UsersGrow G
      (fun _ tx users => ∃ row, AccountFor config input tx users row) tx users := by
  refine Ensures.seq usersInterference (UserRepository.findByEmail_ensures input.email htx users) ?_
  rintro found tx' users' ⟨hwrites, -⟩ -
  cases found with
  | some user => trivial
  | none =>
      intro salt
      refine Ensures.map usersInterference ((UserRepository.create_ensures _ _ _ hwrites users').post ?_)
      rintro user tx'' users'' ⟨id, hput, hnew⟩
      exact ⟨_, hput, rfl, rfl, ⟨salt, rfl⟩, hnew⟩

/-- A start registers the default administrator, or nobody. -/
theorem seedDefaultAdmin_ensures (users : Users) :
    (seedDefaultAdmin config).Ensures usersEngine UsersGrow G
      (fun _ tx users => tx.writes = [] ∨
        ∃ input row, defaultAdmin config = some input ∧ AccountFor config input tx users row)
      {} users := by
  unfold seedDefaultAdmin
  cases hadmin : defaultAdmin config with
  | none => exact fun _ _ => .inl rfl
  | some input =>
      refine Ensures.seq usersInterference
        (UserRepository.findByEmail_ensures input.email rfl users) ?_
      rintro found tx' users' ⟨hwrites, -⟩ -
      cases found with
      | some user => exact fun _ _ => .inl hwrites
      | none =>
          refine Ensures.map usersInterference
            ((Register.execute_ensures config input hwrites users').post ?_)
          rintro _ tx'' users'' ⟨row, hregistered⟩
          exact .inr ⟨input, row, rfl, hregistered⟩

end Specs

end CarRepairShop
