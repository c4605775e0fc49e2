import Ecommerce.Common.Column
import Ecommerce.Common.Rely
/-!
# Auth-service

`register`, `login` and `me` as programs over what they await, and the
guard that auth-service, order-service and catalog-service put before
their protected routes. `Users` is the table with its two unique columns.
`host` lets any number of such requests run side by side over one table
and one clock: every statement may fail, and a row may be committed
without the handler being told. bcrypt and jsonwebtoken are parameters
with the laws their callers rely on.
-/

namespace Ecommerce

namespace Auth

/-! ## Data -/

/-- A row of `users`. -/
structure User where
  id : String
  email : String
  passwordHash : String
  roles : List String
  createdAt : ℕ
deriving DecidableEq

/-- What `userRepository.create(..)` is given; the rest is the database's. -/
structure NewUser where
  email : String
  passwordHash : String
  roles : List String
deriving DecidableEq

structure RegisterDto where
  email : String
  password : String
deriving DecidableEq

structure LoginDto where
  email : String
  password : String
deriving DecidableEq

structure JwtPayload where
  sub : String
  email : String
  roles : List String
deriving DecidableEq

/-- The services that guard routes of theirs. -/
inductive Service
  | auth
  | order
  | catalog
deriving DecidableEq

/-- The exceptions of a handler; `internal` is any other error. -/
inductive Failure
  | conflict (message : String)
  | unauthorized (message : String)
  | notFound (message : String)
  | internal (message : String)
deriving DecidableEq

/-- What a call that resolves to `b`, or whose answer is lost, has resolved to. -/
theorem eq_of_told {β : Type} {a b : β} (h : (.ok a : Except Failure β) = .ok b ∨
    ∃ message, (.ok a : Except Failure β) = .error (.internal message)) : a = b := by
  obtain heq | ⟨message, heq⟩ := h
  · exact Except.ok.inj heq
  · cases heq

/-- And what it has rejected with. -/
theorem internal_of_told {β : Type} {e : Failure} {b : β}
    (h : (.error e : Except Failure β) = .ok b ∨
      ∃ message, (.error e : Except Failure β) = .error (.internal message)) :
    ∃ message, e = .internal message := by
  obtain heq | ⟨message, heq⟩ := h
  · cases heq
  · exact ⟨message, Except.error.inj heq⟩

/-- The rows of `users`; `id` and `email` are unique columns. -/
structure Users where
  rows : List User
  emails : (rows.map User.email).Nodup
  ids : (rows.map User.id).Nodup

namespace Users

def empty : Users := ⟨[], List.nodup_nil, List.nodup_nil⟩

/-- `findOne({ where: { email } })` -/
def findByEmail (users : Users) (email : String) : Option User :=
  findBy User.email users.rows email

/-- `findOne({ where: { id } })` -/
def findById (users : Users) (id : String) : Option User := findBy User.id users.rows id

/-- `INSERT`: a constraint rejects a second row of an email or of an id. -/
def insert (users : Users) (user : User) : Option Users :=
  if h : user.email ∉ users.rows.map User.email ∧ user.id ∉ users.rows.map User.id then
    some ⟨user :: users.rows, List.nodup_cons.mpr ⟨h.1, users.emails⟩,
      List.nodup_cons.mpr ⟨h.2, users.ids⟩⟩
  else none

theorem rows_of_insert {users users' : Users} {user : User} (h : users.insert user = some users') :
    users'.rows = user :: users.rows := by
  unfold insert at h
  split at h
  · obtain rfl := Option.some.inj h
    rfl
  · cases h

end Users

/-! ## The handlers -/

section Handlers

variable {Token : Type}

/-- What they await. -/
inductive Op (Token : Type)
  /-- `userRepository.findOne({ where: { email } })` -/
  | findByEmail (email : String)
  /-- `userRepository.findOne({ where: { id } })` -/
  | findById (id : String)
  /-- `bcrypt.hash(password, rounds)` -/
  | hash (password : String) (rounds : ℕ)
  /-- `bcrypt.compare(password, passwordHash)` -/
  | compare (password passwordHash : String)
  /-- `userRepository.save(userRepository.create(..))` -/
  | save (user : NewUser)
  /-- `jwtService.sign(payload)`, which reads the clock. -/
  | sign (payload : JwtPayload)
  /-- The guard of a service verifies a token. -/
  | verify (service : Service) (token : Token)

/-- What each of them resolves to. -/
@[reducible]
def Ans : Op Token → Type
  | .findByEmail _ => Option User
  | .findById _ => Option User
  | .hash _ _ => String
  | .compare _ _ => Bool
  | .save _ => User
  | .sign _ => Token
  | .verify _ _ => JwtPayload

/-- A computation of a service; it throws an exception. -/
abbrev Prog (Token : Type) := Program (Op Token) Ans Failure

/-- Await one of them. -/
abbrev query (op : Op Token) : Prog Token (Ans op) := Program.await op

def SALT_ROUNDS : ℕ := 10

/-- What a request is answered with. -/
inductive Reply (Token : Type)
  | registered (id email : String) (roles : List String)
  | accessToken (token : Token)
  | profile (id email : String) (roles : List String) (createdAt : ℕ)
  /-- The guard has let the request pass, with this `req.user`. -/
  | admitted (user : JwtPayload)
deriving DecidableEq

/-- `AuthService.register`. -/
def register (dto : RegisterDto) : Prog Token (Reply Token) := do
  let existing ← query (.findByEmail dto.email)
  if existing.isSome then throw (.conflict "Email already registered")
  else
    let passwordHash ← query (.hash dto.password SALT_ROUNDS)
    let user ← query (.save ⟨dto.email, passwordHash, ["customer"]⟩)
    pure (.registered user.id user.email user.roles)

/-- `AuthService.login`. -/
def login (dto : LoginDto) : Prog Token (Reply Token) := do
  let user ← query (.findByEmail dto.email)
  match user with
  | none => throw (.unauthorized "Invalid credentials")
  | some user =>
    let fits ← query (.compare dto.password user.passwordHash)
    if fits then
      let accessToken ← query (.sign ⟨user.id, user.email, user.roles⟩)
      pure (.accessToken accessToken)
    else throw (.unauthorized "Invalid credentials")

/-- `AuthService.me`. -/
def me (userId : String) : Prog Token (Reply Token) := do
  let user ← query (.findById userId)
  match user with
  | none => throw (.notFound "User not found")
  | some user => pure (.profile user.id user.email user.roles user.createdAt)

/-- `JwtStrategy.validate`. -/
def validate (payload : JwtPayload) : JwtPayload := ⟨payload.sub, payload.email, payload.roles⟩

/-- `JwtAuthGuard` of a service, on the bearer token of the request. -/
def canActivate (service : Service) (token : Option Token) : Prog Token JwtPayload :=
  match token with
  | none => throw (.unauthorized "Unauthorized")
  | some token => do
    let payload ← query (.verify service token)
    pure (validate payload)

/-- The requests. -/
inductive Request (Token : Type)
  /-- `POST /auth/register` -/
  | register (dto : RegisterDto)
  /-- `POST /auth/login` -/
  | login (dto : LoginDto)
  /-- `GET /auth/me` -/
  | me (token : Option Token)
  /-- `POST /orders` or `POST /products`, up to where its handler is called. -/
  | guarded (service : Service) (token : Option Token)
deriving DecidableEq

/-- What the controllers make of them. -/
def Request.handler : Request Token → Prog Token (Reply Token)
  | .register dto => Auth.register dto
  | .login dto => Auth.login dto
  | .me token => do
    let user ← canActivate .auth token
    Auth.me user.sub
  | .guarded service token => do
    let user ← canActivate service token
    pure (.admitted user)

/-- The token a request presents, and to whom. -/
def Request.presents : Request Token → Option (Service × Token)
  | .me (some token) => some (.auth, token)
  | .guarded service (some token) => some (service, token)
  | _ => none

end Handlers

/-! ## Collaborators -/

/-- bcrypt: a password fits a hash if it has the key (its first 72 bytes) of the password
that was hashed. -/
structure Bcrypt where
  Salt : Type
  key : String → String
  hash : ℕ → Salt → String → String
  compare : String → String → Bool
  compare_hash : ∀ rounds salt p p', compare p (hash rounds salt p') = true ↔ key p = key p'

/-- jsonwebtoken: `sign secret payload iat exp`, and `verify secret token now`. -/
structure Jwt (Token : Type) where
  sign : String → JwtPayload → ℕ → ℕ → Token
  verify : String → Token → ℕ → Option JwtPayload
  verify_sign : ∀ secret payload iat exp now, now < exp →
    verify secret (sign secret payload iat exp) now = some payload
  of_verify : ∀ secret secret' payload payload' iat exp now,
    verify secret' (sign secret payload iat exp) now = some payload' →
      payload' = payload ∧ now < exp

/-- `JWT_SECRET` in the environment of each service. -/
abbrev Config := Service → Option String

/-- `config.get('JWT_SECRET', 'dev-secret-change-me')` -/
def Config.secret (config : Config) (service : Service) : String :=
  (config service).getD "dev-secret-change-me"

/-- `expiresIn: '1h'`, in seconds. -/
def expiresIn : ℕ := 3600

/-! ## The services side by side -/

section Services

variable {Token : Type}

/-- A row that was saved, and by which request. -/
structure Registration (Token : Type) where
  thread : ℕ
  request : Request Token
  user : User
deriving DecidableEq

/-- A token that was signed, when, and for which request. -/
structure Issue (Token : Type) where
  token : Token
  payload : JwtPayload
  iat : ℕ
  request : Request Token

/-- What the requests share: the table and the clock. The two lists only record. -/
structure Shared (Token : Type) where
  users : Users
  now : ℕ
  registrations : List (Registration Token)
  issued : List (Issue Token)

/-- How an awaited call comes out. -/
inductive Choice (Salt : Type)
  | go
  /-- `bcrypt.hash` draws a salt. -/
  | salt (salt : Salt)
  /-- The database draws an id. -/
  | insert (id : String)
  /-- It commits the row, but its answer is lost. -/
  | lose (id message : String)
  /-- The call fails, and has done nothing. -/
  | fail (message : String)

/-- The row of a new user. -/
def NewUser.row (user : NewUser) (id : String) (now : ℕ) : User :=
  ⟨id, user.email, user.passwordHash, user.roles, now⟩

/-- A row is committed. -/
def Shared.commit (s : Shared Token) (i : ℕ) (req : Request Token) (user : User) :
    Option (Shared Token) :=
  (s.users.insert user).map fun users =>
    { s with users := users, registrations := ⟨i, req, user⟩ :: s.registrations }

/-- The statement that commits it, or that a constraint has rejected. -/
def Shared.save (s : Shared Token) (i : ℕ) (req : Request Token) (user : User) :
    Except Failure User × Shared Token :=
  match s.commit i req user with
  | some s' => (.ok user, s')
  | none => (.error (.internal "duplicate key value violates unique constraint"), s)

/-- A token is signed. -/
def Shared.issue (s : Shared Token) (req : Request Token) (payload : JwtPayload) (token : Token) :
    Shared Token :=
  { s with issued := ⟨token, payload, s.now, req⟩ :: s.issued }

/-- What the guard makes of a token. -/
def verified (J : Jwt Token) (secret : String) (token : Token) (now : ℕ) :
    Except Failure JwtPayload :=
  match J.verify secret token now with
  | some payload => .ok payload
  | none => .error (.unauthorized "Unauthorized")

variable (B : Bcrypt) (J : Jwt Token) (config : Config)

/-- What an awaited call comes to. -/
def perform (i : ℕ) (req : Request Token) :
    Choice B.Salt → (op : Op Token) → Shared Token → Option (Except Failure (Ans op) × Shared Token)
  | .fail message, _, s => some (.error (.internal message), s)
  | .go, .findByEmail email, s => some (.ok (s.users.findByEmail email), s)
  | .go, .findById id, s => some (.ok (s.users.findById id), s)
  | .salt salt, .hash password rounds, s => some (.ok (B.hash rounds salt password), s)
  | .go, .compare password passwordHash, s => some (.ok (B.compare password passwordHash), s)
  | .insert id, .save user, s => some (s.save i req (user.row id s.now))
  | .lose id message, .save user, s =>
    (s.commit i req (user.row id s.now)).map fun s' => (.error (.internal message), s')
  | .go, .sign payload, s =>
    let token := J.sign (config.secret .auth) payload s.now (s.now + expiresIn)
    some (.ok token, s.issue req payload token)
  | .go, .verify service token, s => some (verified J (config.secret service) token s.now, s)
  | _, _, _ => none

/-- The three services; the clock goes on by itself. -/
def host : Host (Op Token) Ans Failure (Reply Token) (Shared Token) (Request Token)
    (Choice B.Salt) ℕ where
  handler := Request.handler
  perform := perform B J config
  drift seconds s := some { s with now := s.now + seconds }

end Services

end Auth

end Ecommerce
