import Ecommerce.Auth.Model
/-!
# Accounts and sessions

An email is registered once and for all (`registered_once_of_reach`), what
a guard lets pass carries the identity of an account somebody has logged
in to within the hour (`admitted_of_reach`), and whoever has registered
gets in (`session_of_reach`): in every interleaving of requests, whichever
statements fail. `Answers` says what a call comes to, `Sound` what the
rows and the tokens have to show for themselves, and each handler is
judged on its own against everything the others keep (`Keeps`).
-/

namespace Ecommerce

namespace Auth

variable {Token : Type} {B : Bcrypt} {J : Jwt Token} {config : Config}
variable {s s' since : Shared Token} {i : ℕ} {req : Request Token} {op : Op Token}

/-! ## Calls -/

/-- What a call comes to. -/
inductive Answers (B : Bcrypt) (J : Jwt Token) (config : Config) (i : ℕ) (req : Request Token)
    (s : Shared Token) : (op : Op Token) → Except Failure (Ans op) → Shared Token → Prop
  /-- It fails. -/
  | fails (op : Op Token) (message : String) :
      Answers B J config i req s op (.error (.internal message)) s
  /-- The row of an email is found, or that there is none. -/
  | findsEmail (email : String) :
      Answers B J config i req s (.findByEmail email) (.ok (s.users.findByEmail email)) s
  /-- The row of an id is found, or that there is none. -/
  | findsId (id : String) :
      Answers B J config i req s (.findById id) (.ok (s.users.findById id)) s
  | hashes (password : String) (rounds : ℕ) (salt : B.Salt) :
      Answers B J config i req s (.hash password rounds) (.ok (B.hash rounds salt password)) s
  | compares (password passwordHash : String) :
      Answers B J config i req s (.compare password passwordHash)
        (.ok (B.compare password passwordHash)) s
  /-- The row is committed, and its handler is told so or not. -/
  | saves (user : NewUser) (id : String) (r : Except Failure User) (s' : Shared Token)
      (hcommit : s.commit i req (user.row id s.now) = some s')
      (hr : r = .ok (user.row id s.now) ∨ ∃ message, r = .error (.internal message)) :
      Answers B J config i req s (.save user) r s'
  | signs (payload : JwtPayload) :
      Answers B J config i req s (.sign payload)
        (.ok (J.sign (config.secret .auth) payload s.now (s.now + expiresIn)))
        (s.issue req payload (J.sign (config.secret .auth) payload s.now (s.now + expiresIn)))
  | verifies (service : Service) (token : Token) (payload : JwtPayload)
      (h : J.verify (config.secret service) token s.now = some payload) :
      Answers B J config i req s (.verify service token) (.ok payload) s
  | rejects (service : Service) (token : Token)
      (h : J.verify (config.secret service) token s.now = none) :
      Answers B J config i req s (.verify service token) (.error (.unauthorized "Unauthorized")) s

theorem answers_of_perform {c : Choice B.Salt} {r : Except Failure (Ans op)}
    (h : perform B J config i req c op s = some (r, s')) : Answers B J config i req s op r s' := by
  cases c with
  | fail message =>
    cases op <;> cases h <;> exact .fails _ message
  | go =>
    cases op with
    | findByEmail email => cases h; exact .findsEmail email
    | findById id => cases h; exact .findsId id
    | compare password passwordHash => cases h; exact .compares password passwordHash
    | sign payload => cases h; exact .signs payload
    | verify service token =>
      obtain ⟨hr, rfl⟩ := Prod.mk.inj (Option.some.inj h)
      unfold verified at hr
      split at hr
      · subst hr
        exact .verifies service token _ ‹_›
      · subst hr
        exact .rejects service token ‹_›
    | _ => cases h
  | salt salt =>
    cases op with
    | hash password rounds => cases h; exact .hashes password rounds salt
    | _ => cases h
  | insert id =>
    cases op with
    | save user =>
      have hsave := Option.some.inj h
      unfold Shared.save at hsave
      split at hsave
      · obtain ⟨rfl, rfl⟩ := Prod.mk.inj hsave
        exact .saves user id _ _ ‹_› (.inl rfl)
      · obtain ⟨rfl, rfl⟩ := Prod.mk.inj hsave
        exact .fails _ _
    | _ => cases h
  | lose id message =>
    cases op with
    | save user =>
      obtain ⟨s₁, hcommit, heq⟩ := Option.map_eq_some_iff.mp h
      cases heq
      exact .saves user id _ _ hcommit (.inr ⟨message, rfl⟩)
    | _ => cases h

/-! ## What is kept -/

/-- Rows and tokens are not taken back, and time goes on. -/
structure Grows (s s' : Shared Token) : Prop where
  users : ∀ user ∈ s.users.rows, user ∈ s'.users.rows
  registrations : ∀ g ∈ s.registrations, g ∈ s'.registrations
  issued : ∀ e ∈ s.issued, e ∈ s'.issued
  now : s.now ≤ s'.now

/-- A row is what the registration of somebody has made it. -/
def Registration.Sound (B : Bcrypt) (g : Registration Token) : Prop :=
  ∃ dto salt, g.request = .register dto ∧ g.user.email = dto.email ∧
    g.user.passwordHash = B.hash SALT_ROUNDS salt dto.password ∧ g.user.roles = ["customer"]

/-- A payload is the account of a login whose password fits. -/
def Vouched (B : Bcrypt) (users : Users) (req : Request Token) (payload : JwtPayload) : Prop :=
  ∃ dto, ∃ user ∈ users.rows, req = .login dto ∧ user.email = dto.email ∧
    B.compare dto.password user.passwordHash = true ∧
      payload = ⟨user.id, user.email, user.roles⟩

/-- **What rows and tokens have to show for themselves.** -/
structure Sound (B : Bcrypt) (J : Jwt Token) (config : Config) (s : Shared Token) : Prop where
  rows : s.registrations.map Registration.user = s.users.rows
  registered : ∀ g ∈ s.registrations, g.Sound B
  signed : ∀ e ∈ s.issued,
    e.token = J.sign (config.secret .auth) e.payload e.iat (e.iat + expiresIn) ∧
      Vouched B s.users e.request e.payload

/-- What every request relies on the others for. -/
abbrev Keeps (B : Bcrypt) (J : Jwt Token) (config : Config) : Shared Token → Shared Token → Prop :=
  Host.Keeping Grows (Sound B J config)

theorem Grows.refl (s : Shared Token) : Grows s s :=
  ⟨fun _ h => h, fun _ h => h, fun _ h => h, Nat.le_refl _⟩

theorem Grows.trans (a b c : Shared Token) (h : Grows a b) (h' : Grows b c) : Grows a c :=
  ⟨fun user hu => h'.users user (h.users user hu),
    fun g hg => h'.registrations g (h.registrations g hg),
    fun e he => h'.issued e (h.issued e he), Nat.le_trans h.now h'.now⟩

theorem Keeps.refl (s : Shared Token) : Keeps B J config s s := Host.Keeping.refl Grows.refl s

theorem Keeps.trans (a b c : Shared Token) (h : Keeps B J config a b)
    (h' : Keeps B J config b c) : Keeps B J config a c := Host.Keeping.trans Grows.trans a b c h h'

theorem Vouched.mono {users users' : Users} {payload : JwtPayload}
    (h : Vouched B users req payload) (hgrows : ∀ user ∈ users.rows, user ∈ users'.rows) :
    Vouched B users' req payload := by
  obtain ⟨dto, user, huser, hrest⟩ := h
  exact ⟨dto, user, hgrows user huser, hrest⟩

/-- What a handler has seen to when it awaits a call. -/
def Entitled (B : Bcrypt) (req : Request Token) (s : Shared Token) : Op Token → Prop
  | .save user => ∃ dto salt, req = .register dto ∧
      user = ⟨dto.email, B.hash SALT_ROUNDS salt dto.password, ["customer"]⟩
  | .sign payload => Vouched B s.users req payload
  | _ => True

theorem keeps_of_commit {user : NewUser} {id : String}
    (hentitled : Entitled B req s (.save user))
    (h : s.commit i req (user.row id s.now) = some s') : Keeps B J config s s' := by
  obtain ⟨users, hinsert, rfl⟩ := Option.map_eq_some_iff.mp h
  have hrows := Users.rows_of_insert hinsert
  have hmem : ∀ old ∈ s.users.rows, old ∈ users.rows := fun old hold =>
    hrows ▸ List.mem_cons_of_mem _ hold
  refine ⟨⟨hmem, fun _ => List.mem_cons_of_mem _, fun _ he => he, Nat.le_refl _⟩, fun hsound => ?_⟩
  refine ⟨?_, fun g hg => ?_, fun e he => ?_⟩
  · change user.row id s.now :: s.registrations.map Registration.user = users.rows
    rw [hsound.rows, hrows]
  · rcases List.mem_cons.mp hg with rfl | hg
    · obtain ⟨dto, salt, rfl, rfl⟩ := hentitled
      exact ⟨dto, salt, rfl, rfl, rfl, rfl⟩
    · exact hsound.registered g hg
  · obtain ⟨htoken, hvouched⟩ := hsound.signed e he
    exact ⟨htoken, hvouched.mono hmem⟩

/-- **A call keeps what the requests rely on**, if its handler was entitled to it. -/
theorem keeps_of_answers {r : Except Failure (Ans op)} (hentitled : Entitled B req s op)
    (h : Answers B J config i req s op r s') : Keeps B J config s s' := by
  cases h with
  | saves user id r s' hcommit => exact keeps_of_commit hentitled hcommit
  | signs payload =>
    refine ⟨⟨fun _ h => h, fun _ h => h, fun _ => List.mem_cons_of_mem _, Nat.le_refl _⟩,
      fun hsound => ⟨hsound.rows, hsound.registered, fun e he => ?_⟩⟩
    rcases List.mem_cons.mp he with rfl | he
    · exact ⟨rfl, hentitled⟩
    · exact hsound.signed e he
  | _ => exact .refl s

/-! ## The judgement on each handler -/

section Handlers

variable {α : Type} {post : Except Failure α → Shared Token → Prop}

/-- A handler ends as `post` says, whatever the others do and its calls come to. -/
abbrev Respects (B : Bcrypt) (J : Jwt Token) (config : Config) (i : ℕ) (req : Request Token)
    (p : Prog Token α) (post : Except Failure α → Shared Token → Prop) (s : Shared Token) : Prop :=
  p.Respects ((host B J config).answers i req) (Keeps B J config) (Keeps B J config) post s

/-- An awaited call, read through `Answers`. -/
theorem Respects.awaits {f : Ans op → Prog Token α}
    (hentitled : ∀ s₁, Keeps B J config s s₁ → Entitled B req s₁ op)
    (hok : ∀ s₁ a s₂, Keeps B J config s s₁ → Keeps B J config s₁ s₂ →
      Answers B J config i req s₁ op (.ok a) s₂ → Respects B J config i req (f a) post s₂)
    (herror : ∀ s₁ e s₂ t, Keeps B J config s s₁ → Answers B J config i req s₁ op (.error e) s₂ →
      Keeps B J config s₂ t → post (.error e) t) :
    Respects B J config i req (query op >>= f) post s := by
  refine Program.Respects.awaited fun s₁ r s₂ hrely ⟨c, hperform⟩ => ?_
  have hans := answers_of_perform hperform
  have hkeeps := keeps_of_answers (hentitled s₁ hrely) hans
  refine ⟨hkeeps, fun a ha => ?_, fun e he t ht => ?_⟩
  · subst ha
    exact hok s₁ a s₂ hrely hkeeps hans
  · subst he
    exact herror s₁ e s₂ t hrely hans ht

/-- How a registration ends: with a row of its own, or because there is one already. -/
structure RegisterEnds (i : ℕ) (dto : RegisterDto) (r : Except Failure (Reply Token))
    (s : Shared Token) : Prop where
  registered : ∀ reply, r = .ok reply → ∃ user, ⟨i, .register dto, user⟩ ∈ s.registrations ∧
    reply = .registered user.id user.email user.roles
  conflict : ∀ message, r = .error (.conflict message) → ∃ user ∈ s.users.rows,
    user.email = dto.email

theorem RegisterEnds.internal {dto : RegisterDto} (message : String) (s : Shared Token) :
    RegisterEnds i dto (.error (.internal message)) s :=
  ⟨fun _ h => (by cases h), fun _ h => (by cases h)⟩

theorem respects_register (dto : RegisterDto) (s : Shared Token) :
    Respects B J config i (.register dto) (register dto) (RegisterEnds i dto) s := by
  refine Respects.awaits (fun _ _ => trivial) (fun s₁ existing s₂ _ _ hfind => ?_)
    fun s₁ e s₂ t _ hans _ => ?_
  · cases hfind
    split
    · -- The row that was found stays.
      rename_i hsome
      obtain ⟨user, huser⟩ := Option.isSome_iff_exists.mp hsome
      obtain ⟨hmem, hemail⟩ := mem_of_findBy huser
      refine Program.Respects.thrown fun t ht => ⟨fun _ h => (by cases h), fun _ _ => ?_⟩
      exact ⟨user, ht.1.users user hmem, hemail⟩
    · refine Respects.awaits (fun _ _ => trivial) (fun s₃ passwordHash s₄ _ _ hhash => ?_)
        fun s₃ e s₄ t _ hans _ => ?_
      · cases hhash with
        | hashes password rounds salt =>
          refine Respects.awaits (fun _ _ => ⟨dto, salt, rfl, rfl⟩)
            (fun s₅ user s₆ _ _ hsave => ?_) fun s₅ e s₆ t _ hans _ => ?_
          · cases hsave with
            | saves new id r s' hcommit hr =>
              obtain ⟨users, -, rfl⟩ := Option.map_eq_some_iff.mp hcommit
              obtain rfl : user = NewUser.row _ id s₅.now := eq_of_told hr
              refine Program.Respects.returned fun t ht =>
                ⟨fun reply hreply => ?_, fun _ h => (by cases h)⟩
              obtain rfl := Except.ok.inj hreply
              exact ⟨_, ht.1.registrations _ (List.mem_cons_self ..), rfl⟩
          · cases hans with
            | fails op message => exact .internal message t
            | saves new id r s' hcommit hr =>
              obtain ⟨message, rfl⟩ := internal_of_told hr
              exact .internal message t
      · cases hans with
        | fails op message => exact .internal message t
  · cases hans with
    | fails op message => exact .internal message t

/-- How a login ends: with a token of its own, or because no account fits. -/
structure LoginEnds (B : Bcrypt) (dto : LoginDto) (since : Shared Token)
    (r : Except Failure (Reply Token)) (s : Shared Token) : Prop where
  signed : ∀ reply, r = .ok reply → ∃ e ∈ s.issued, e.request = .login dto ∧ since.now ≤ e.iat ∧
    reply = .accessToken e.token
  refused : ∀ e, r = .error e → (∃ message, e = .internal message) ∨
    ∀ user ∈ since.users.rows, user.email = dto.email →
      B.compare dto.password user.passwordHash = false

theorem LoginEnds.internal {dto : LoginDto} (message : String) (s : Shared Token) :
    LoginEnds B dto since (.error (.internal message)) s :=
  ⟨fun _ h => (by cases h), fun _ h => .inl ⟨message, (Except.error.inj h).symm⟩⟩

theorem LoginEnds.of_refused {dto : LoginDto} {message : String}
    (h : ∀ user ∈ since.users.rows, user.email = dto.email →
      B.compare dto.password user.passwordHash = false) (s : Shared Token) :
    LoginEnds B dto since (.error (.unauthorized message)) s :=
  ⟨fun _ h => (by cases h), fun _ _ => .inr h⟩

theorem respects_login (dto : LoginDto) (s : Shared Token) :
    Respects B J config i (.login dto) (login dto) (LoginEnds B dto s) s := by
  refine Respects.awaits (fun _ _ => trivial) (fun s₁ found s₂ hsince _ hfind => ?_)
    fun s₁ e s₂ t _ hans _ => ?_
  · cases hfind with
    | findsEmail email =>
      cases huser : s₁.users.findByEmail dto.email with
      | none =>
        -- A row that was there on arrival would have been found.
        refine Program.Respects.thrown fun t _ => .of_refused (fun user hold hemail => ?_) t
        exact absurd (hemail ▸ List.mem_map_of_mem (hsince.1.users user hold))
          (findBy_eq_none_iff.mp huser)
      | some user =>
        obtain ⟨hmem, hemail⟩ := mem_of_findBy huser
        refine Respects.awaits (fun _ _ => trivial) (fun s₃ fits s₄ hrely₃ hown₄ hcompare => ?_)
          fun s₃ e s₄ t _ hans _ => ?_
        · have hgrows : Grows s₁ s₄ := Grows.trans _ _ _ hrely₃.1 hown₄.1
          cases hcompare with
          | compares password passwordHash =>
            cases hfits : B.compare dto.password user.passwordHash with
            | true =>
              refine Respects.awaits (fun s₅ hrely₅ => ?_) (fun s₅ token s₆ hrely₅ _ hsign => ?_)
                fun s₅ e s₆ t _ hans _ => ?_
              · exact ⟨dto, user, hrely₅.1.users user (hgrows.users user hmem), rfl, hemail,
                  hfits, rfl⟩
              · cases hsign with
                | signs payload =>
                  refine Program.Respects.returned fun t ht =>
                    ⟨fun reply hreply => ?_, fun _ h => (by cases h)⟩
                  obtain rfl := Except.ok.inj hreply
                  exact ⟨_, ht.1.issued _ (List.mem_cons_self ..), rfl,
                    Nat.le_trans (Nat.le_trans hsince.1.now hgrows.now) hrely₅.1.now, rfl⟩
              · cases hans with
                | fails op message => exact .internal message t
            | false =>
              refine Program.Respects.thrown fun t _ => .of_refused (fun old hold hold' => ?_) t
              rwa [eq_of_column s₁.users.emails (hsince.1.users old hold) hmem
                (hold'.trans hemail.symm)]
        · cases hans with
          | fails op message => exact .internal message t
  · cases hans with
    | fails op message => exact .internal message t

/-- How a guard ends: it has verified the token, or could not. -/
structure GuardEnds (J : Jwt Token) (config : Config) (service : Service) (token : Option Token)
    (since : Shared Token) (r : Except Failure JwtPayload) (s : Shared Token) : Prop where
  passed : ∀ payload, r = .ok payload → ∃ t now, token = some t ∧ since.now ≤ now ∧
    now ≤ s.now ∧ J.verify (config.secret service) t now = some payload
  stopped : ∀ e, r = .error e → (∃ message, e = .internal message) ∨
    ∀ t, token = some t → ∃ now ≤ s.now, J.verify (config.secret service) t now = none

theorem respects_canActivate (service : Service) (token : Option Token) (s : Shared Token) :
    Respects B J config i req (canActivate service token) (GuardEnds J config service token s)
      s := by
  cases token with
  | none =>
    exact Program.Respects.thrown fun t _ =>
      ⟨fun _ h => (by cases h), fun _ _ => .inr fun _ h => (by cases h)⟩
  | some token =>
    refine Respects.awaits (fun _ _ => trivial) (fun s₁ payload s₂ hrely _ hverify => ?_)
      fun s₁ e s₂ t _ hans ht => ?_
    · cases hverify with
      | verifies service token payload h =>
        refine Program.Respects.returned fun t ht =>
          ⟨fun payload' hpayload => ?_, fun _ h => (by cases h)⟩
        obtain rfl := Except.ok.inj hpayload
        exact ⟨token, s₁.now, rfl, hrely.1.now, ht.1.now, h⟩
    · refine ⟨fun _ h => (by cases h), fun e' he => ?_⟩
      cases hans with
      | fails op message => exact .inl ⟨message, (Except.error.inj he).symm⟩
      | rejects service token h =>
        refine .inr fun token' htoken => ⟨s₁.now, ht.1.now, ?_⟩
        obtain rfl := Option.some.inj htoken
        exact h

/-- The reply is about this account. -/
def Reply.Identifies (user : User) : Reply Token → Prop
  | .profile id email roles createdAt =>
    id = user.id ∧ email = user.email ∧ roles = user.roles ∧ createdAt = user.createdAt
  | .admitted payload => payload = ⟨user.id, user.email, user.roles⟩
  | _ => False

/-- How a guarded request ends. -/
structure PassEnds (J : Jwt Token) (config : Config) (service : Service) (token : Option Token)
    (since : Shared Token) (r : Except Failure (Reply Token)) (s : Shared Token) : Prop where
  passed : ∀ reply, r = .ok reply → ∃ t now payload, token = some t ∧ since.now ≤ now ∧
    J.verify (config.secret service) t now = some payload ∧
      ∀ user ∈ s.users.rows, payload = ⟨user.id, user.email, user.roles⟩ → reply.Identifies user
  stopped : ∀ e, r = .error e → (∃ message, e = .internal message) ∨
    ∀ t, token = some t → ∃ now ≤ s.now, J.verify (config.secret service) t now = none ∨
      ∃ payload, J.verify (config.secret service) t now = some payload ∧
        ∀ user ∈ since.users.rows, user.id ≠ payload.sub

theorem GuardEnds.stops {service : Service} {token : Option Token} {e : Failure}
    (h : GuardEnds J config service token since (.error e) s) :
    PassEnds J config service token since (.error e) s := by
  refine ⟨fun _ h => (by cases h), fun e' he => ?_⟩
  obtain rfl := Except.error.inj he
  refine (h.stopped e rfl).imp id fun hnone t ht => ?_
  obtain ⟨now, hnow, hverify⟩ := hnone t ht
  exact ⟨now, hnow, .inl hverify⟩

theorem respects_guarded (service : Service) (token : Option Token) (s : Shared Token) :
    Respects B J config i req (Request.guarded service token).handler
      (PassEnds J config service token s) s := by
  refine Program.Respects.andThen Keeps.refl (respects_canActivate service token s)
    (fun payload s₁ hguard => ?_) fun e s₁ hguard => hguard.stops
  refine Program.Respects.returned fun t _ => ⟨fun reply hreply => ?_, fun _ h => (by cases h)⟩
  obtain rfl := Except.ok.inj hreply
  obtain ⟨token', now, htoken, hnow, -, hverify⟩ := hguard.passed payload rfl
  exact ⟨token', now, payload, htoken, hnow, hverify, fun user _ heq => heq⟩

theorem respects_me (token : Option Token) (s : Shared Token) :
    Respects B J config i req (Request.me token).handler (PassEnds J config .auth token s) s := by
  refine Program.Respects.andThen Keeps.refl
    ((respects_canActivate .auth token s).remembers Keeps.trans)
    (fun payload s₁ hguard => ?_) fun e s₁ hguard => hguard.2.stops
  obtain ⟨hsince, hguard⟩ := hguard
  obtain ⟨token', now, htoken, hnow, hnow', hverify⟩ := hguard.passed payload rfl
  refine Respects.awaits (fun _ _ => trivial) (fun s₂ found s₃ hrely hown hfind => ?_)
    fun s₂ e s₃ t _ hans _ => ?_
  · cases hfind with
    | findsId id =>
      cases huser : s₂.users.findById payload.sub with
      | none =>
        refine Program.Respects.thrown fun t ht =>
          ⟨fun _ h => (by cases h), fun _ _ => .inr fun t' ht' => ?_⟩
        obtain rfl := Option.some.inj (htoken.symm.trans ht')
        have hseen : now ≤ t.now := Nat.le_trans hnow' (Nat.le_trans hrely.1.now ht.1.now)
        refine ⟨now, hseen, .inr ⟨payload, hverify, ?_⟩⟩
        intro user hmem heq
        have hold := hrely.1.users user (hsince.1.users user hmem)
        exact findBy_eq_none_iff.mp huser (heq ▸ List.mem_map_of_mem hold)
      | some user =>
        obtain ⟨hmem, hid⟩ := mem_of_findBy huser
        refine Program.Respects.returned fun t ht =>
          ⟨fun reply hreply => ?_, fun _ h => (by cases h)⟩
        obtain rfl := Except.ok.inj hreply
        refine ⟨token', now, payload, htoken, hnow, hverify, fun user' hmem' heq => ?_⟩
        subst heq
        obtain rfl := eq_of_column t.users.ids (ht.1.users user hmem) hmem' hid
        exact ⟨rfl, rfl, rfl, rfl⟩
  · cases hans with
    | fails op message =>
      exact ⟨fun _ h => (by cases h), fun _ h => .inl ⟨message, (Except.error.inj h).symm⟩⟩

end Handlers

/-! ## Every interleaving -/

/-- The states of a run. -/
abbrev State (Token : Type) :=
  Host.State (Op Token) Ans Failure (Reply Token) (Shared Token) (Request Token)

/-- Before the first request: no accounts and no tokens. -/
structure Opens (s : State Token) : Prop where
  rows : s.shared.users.rows = []
  registrations : s.shared.registrations = []
  issued : s.shared.issued = []
  threads : s.threads = []

/-- How each request ends. -/
def Ends (B : Bcrypt) (J : Jwt Token) (config : Config) (i : ℕ) (since : Shared Token)
    (r : Except Failure (Reply Token)) (s : Shared Token) : Request Token → Prop
  | .register dto => RegisterEnds i dto r s
  | .login dto => LoginEnds B dto since r s
  | .me token => PassEnds J config .auth token since r s
  | .guarded service token => PassEnds J config service token since r s

theorem respects_handler (s : Shared Token) :
    Respects B J config i req req.handler (fun r t => Ends B J config i s r t req) s := by
  cases req with
  | register dto => exact respects_register dto s
  | login dto => exact respects_login dto s
  | me token => exact respects_me token s
  | guarded service token => exact respects_guarded service token s

theorem Sound.of_opens {s : State Token} (h : Opens s) : Sound B J config s.shared := by
  refine ⟨?_, fun g hg => ?_, fun e he => ?_⟩
  · rw [h.registrations, h.rows, List.map_nil]
  · rw [h.registrations] at hg
    cases hg
  · rw [h.issued] at he
    cases he

/-- The clock touches nothing else. -/
theorem keeps_tick (s : Shared Token) (seconds : ℕ) :
    Keeps B J config s { s with now := s.now + seconds } :=
  ⟨⟨fun _ h => h, fun _ h => h, fun _ h => h, Nat.le_add_right _ _⟩,
    fun hsound => ⟨hsound.rows, hsound.registered, hsound.signed⟩⟩

/-- **Every request is judged**, whatever an environment does. -/
theorem judged (guard : State Token → Host.Move (Request Token) (Choice B.Salt) ℕ → Prop) :
    Host.Judged (host B J config) Opens guard Grows (Sound B J config)
      fun i req since r s => Ends B J config i since r s req where
  refl := Grows.refl
  trans := Grows.trans
  opens s hopens := ⟨.of_opens hopens, hopens.threads⟩
  drifts s seconds shared hdrift := by
    obtain rfl := Option.some.inj hdrift
    exact keeps_tick s seconds
  handles s i req _ := respects_handler s.shared

/-! ## Accounts -/

/-- **An email is registered once and for all.** -/
structure RegisteredOnce (B : Bcrypt) (s : State Token) : Prop where
  /-- Two registrations of an email do not both succeed. -/
  once : ∀ i j dto dto' since since' reply reply', s.Answered i (.register dto) since (.ok reply) →
    s.Answered j (.register dto') since' (.ok reply') → dto.email = dto'.email → i = j
  /-- The account of a registration is there for good, a customer's and with its password. -/
  kept : ∀ i dto since reply, s.Answered i (.register dto) since (.ok reply) →
    ∃ user, s.shared.users.findByEmail dto.email = some user ∧ user.roles = ["customer"] ∧
      B.compare dto.password user.passwordHash = true ∧
      reply = .registered user.id user.email user.roles
  /-- A registration is turned down only if the email has an account. -/
  taken : ∀ i dto since message,
    s.Answered i (.register dto) since (.error (.conflict message)) →
      ∃ user, s.shared.users.findByEmail dto.email = some user

namespace Sound

variable {g g' : Registration Token} {e e' : Issue Token}

/-- One registration an email. -/
theorem eq_of_email (h : Sound B J config s) (hg : g ∈ s.registrations)
    (hg' : g' ∈ s.registrations) (heq : g.user.email = g'.user.email) : g = g' := by
  have hdistinct : (s.registrations.map fun g => g.user.email).Nodup := by
    have hemails := s.users.emails
    rwa [← h.rows, List.map_map] at hemails
  exact eq_of_column hdistinct hg hg' heq

theorem mem_rows (h : Sound B J config s) (hg : g ∈ s.registrations) : g.user ∈ s.users.rows :=
  h.rows ▸ List.mem_map_of_mem hg

theorem exists_registration (h : Sound B J config s) {user : User}
    (huser : user ∈ s.users.rows) : ∃ g ∈ s.registrations, g.user = user :=
  List.mem_map.mp (h.rows ▸ huser)

/-- The row of a registration is the one of its email. -/
theorem findByEmail_eq (h : Sound B J config s) {dto : RegisterDto} {user : User}
    (hg : ⟨i, .register dto, user⟩ ∈ s.registrations) :
    s.users.findByEmail dto.email = some user := by
  obtain ⟨dto', salt, heq, hemail, -⟩ := h.registered _ hg
  obtain rfl := Request.register.inj heq
  exact (findBy_eq_some_iff s.users.emails).mpr ⟨h.mem_rows hg, hemail⟩

/-- A password fits an account if it has the key of the one it was registered with. -/
theorem compare_iff (h : Sound B J config s) {dto : RegisterDto} {user : User}
    (hg : ⟨i, .register dto, user⟩ ∈ s.registrations) (password : String) :
    B.compare password user.passwordHash = true ↔ B.key password = B.key dto.password := by
  obtain ⟨dto', salt, heq, -, hhash, -⟩ := h.registered _ hg
  obtain rfl := Request.register.inj heq
  exact (congrArg (B.compare password · = true) hhash).to_iff.trans (B.compare_hash ..)

end Sound

/-- **An email is registered once and for all**, in every interleaving of requests and
whichever of their statements fail. -/
theorem registered_once_of_reach {s : State Token}
    (h : Reach (host B J config).step Opens (fun _ _ => True) s) : RegisteredOnce B s := by
  obtain ⟨hsound, hends⟩ := (judged _).ended_of_reach h
  have hregistered : ∀ {i dto since reply}, s.Answered i (.register dto) since (.ok reply) →
      ∃ user, ⟨i, .register dto, user⟩ ∈ s.shared.registrations ∧
        reply = .registered user.id user.email user.roles := fun hans =>
    RegisterEnds.registered (hends _ _ _ _ hans).2.2 _ rfl
  refine ⟨fun i j dto dto' since since' reply reply' hi hj heq => ?_,
    fun i dto since reply hi => ?_, fun i dto since message hi => ?_⟩
  · obtain ⟨user, hg, -⟩ := hregistered hi
    obtain ⟨user', hg', -⟩ := hregistered hj
    have hemail := (mem_of_findBy (hsound.findByEmail_eq hg)).2
    have hemail' := (mem_of_findBy (hsound.findByEmail_eq hg')).2
    exact congrArg Registration.thread
      (hsound.eq_of_email hg hg' ((hemail.trans heq).trans hemail'.symm))
  · obtain ⟨user, hg, hreply⟩ := hregistered hi
    obtain ⟨dto', salt, heq, -, -, hroles⟩ := hsound.registered _ hg
    exact ⟨user, hsound.findByEmail_eq hg, hroles, (hsound.compare_iff hg _).mpr rfl, hreply⟩
  · obtain ⟨user, hmem, hemail⟩ :=
      RegisterEnds.conflict (hends _ _ _ _ hi).2.2 message rfl
    exact ⟨user, (findBy_eq_some_iff s.shared.users.emails).mpr ⟨hmem, hemail⟩⟩

/-! ## Sessions -/

/-- Nobody but auth-service has signed the token: if it verifies at all, it was issued. -/
def Genuine (J : Jwt Token) (config : Config) (since : Shared Token) (service : Service)
    (token : Token) : Prop :=
  ∀ now payload, J.verify (config.secret service) token now = some payload →
    ∃ e ∈ since.issued, e.token = token

/-- Any request that presents a token ends as its guard does. -/
theorem Ends.pass {service : Service} {token : Token} {r : Except Failure (Reply Token)}
    (hpresents : req.presents = some (service, token)) (h : Ends B J config i since r s req) :
    PassEnds J config service (some token) since r s := by
  cases req with
  | register dto => cases hpresents
  | login dto => cases hpresents
  | me t =>
    cases t with
    | none => cases hpresents
    | some t => cases hpresents; exact h
  | guarded service' t =>
    cases t with
    | none => cases hpresents
    | some t => cases hpresents; exact h

/-- **Who is let in has logged in**: a guarded request of any of the services that is
answered at all presents a token signed less than an hour before it arrived, for a login with
the password of an account, and is answered as that account. -/
theorem admitted_of_reach {s : State Token}
    (h : Reach (host B J config).step Opens (fun _ _ => True) s) {since : Shared Token}
    {service : Service} {token : Token} {reply : Reply Token}
    (hpresents : req.presents = some (service, token))
    (hgenuine : Genuine J config since service token) (hans : s.Answered i req since (.ok reply)) :
    ∃ e ∈ since.issued, e.token = token ∧ since.now < e.iat + expiresIn ∧
      ∃ n dto user password, ⟨n, .register dto, user⟩ ∈ s.shared.registrations ∧
        e.request = .login ⟨dto.email, password⟩ ∧ B.key password = B.key dto.password ∧
        reply.Identifies user := by
  obtain ⟨hsound, hends⟩ := (judged _).ended_of_reach h
  obtain ⟨-, hgrows, hend⟩ := hends _ _ _ _ hans
  obtain ⟨t, now, payload, htoken, hnow, hverify, hidentifies⟩ :=
    (hend.pass hpresents).passed reply rfl
  obtain rfl := Option.some.inj htoken
  obtain ⟨e, he, rfl⟩ := hgenuine now payload hverify
  obtain ⟨hsigned, dto, user, huser, hlogin, hemail, hfits, hpayload⟩ :=
    hsound.signed e (hgrows.issued e he)
  rw [hsigned] at hverify
  obtain ⟨rfl, hlive⟩ := J.of_verify _ _ _ _ _ _ _ hverify
  obtain ⟨g, hg, rfl⟩ := hsound.exists_registration huser
  obtain ⟨n, request, user⟩ := g
  obtain ⟨dtoR, salt, rfl, hemail', hhash, -⟩ := hsound.registered _ hg
  refine ⟨e, he, rfl, Nat.lt_of_le_of_lt hnow hlive, n, dtoR, user, dto.password, hg, ?_,
    (hsound.compare_iff hg _).mp hfits, hidentifies user huser hpayload⟩
  rw [hlogin, ← hemail', hemail]

/-- The login got a token, and for an hour every guard that has auth-service's secret has
answered that token as the account; or else a call has failed. -/
def GetsIn (config : Config) (s : State Token) (user : User) (since : Shared Token)
    (r : Except Failure (Reply Token)) : Prop :=
  (∃ message, r = .error (.internal message)) ∨ ∃ token, r = .ok (.accessToken token) ∧
    ∀ j service req since' r', Request.presents req = some (service, token) →
      config.secret service = config.secret .auth → user ∈ since'.users.rows →
      s.Answered j req since' r' → s.shared.now < since.now + expiresIn →
        (∃ message, r' = .error (.internal message)) ∨
          ∃ reply, r' = .ok reply ∧ reply.Identifies user

/-- A token of an account is not refused while it verifies. -/
theorem PassEnds.admits {service : Service} {e : Issue Token} {user : User}
    {r : Except Failure (Reply Token)} (h : PassEnds J config service (some e.token) since r s)
    (hsigned : e.token = J.sign (config.secret service) e.payload e.iat (e.iat + expiresIn))
    (hpayload : e.payload = ⟨user.id, user.email, user.roles⟩) (hlive : s.now < e.iat + expiresIn)
    (hold : user ∈ since.users.rows) (hkept : user ∈ s.users.rows) :
    (∃ message, r = .error (.internal message)) ∨
      ∃ reply, r = .ok reply ∧ reply.Identifies user := by
  have hverify : ∀ now ≤ s.now,
      J.verify (config.secret service) e.token now = some e.payload := fun now hnow => by
    rw [hsigned]
    exact J.verify_sign _ _ _ _ _ (by omega)
  cases r with
  | error failure =>
    refine .inl ?_
    rcases h.stopped failure rfl with ⟨message, rfl⟩ | hstopped
    · exact ⟨message, rfl⟩
    · obtain ⟨now, hnow, hnone | ⟨payload, hsome, hmissing⟩⟩ := hstopped e.token rfl
      · rw [hverify now hnow] at hnone
        cases hnone
      · rw [hverify now hnow] at hsome
        obtain rfl := Option.some.inj hsome
        exact absurd (congrArg JwtPayload.sub hpayload).symm (hmissing user hold)
  | ok reply =>
    obtain ⟨token, now, payload, htoken, -, hsome, hidentifies⟩ := h.passed reply rfl
    obtain rfl := Option.some.inj htoken
    rw [hsigned] at hsome
    obtain ⟨rfl, -⟩ := J.of_verify _ _ _ _ _ _ _ hsome
    exact .inr ⟨reply, rfl, hidentifies user hkept hpayload⟩

/-- **Whoever has registered gets in**: a login with the password of an account that was
there when it arrived is not refused, and neither is its token, for an hour. -/
theorem session_of_reach {s : State Token}
    (h : Reach (host B J config).step Opens (fun _ _ => True) s) {since : Shared Token}
    {n : ℕ} {dto : RegisterDto} {user : User} {password : String}
    {r : Except Failure (Reply Token)} (hg : ⟨n, .register dto, user⟩ ∈ since.registrations)
    (hkey : B.key password = B.key dto.password)
    (hlogin : s.Answered i (.login ⟨dto.email, password⟩) since r) :
    GetsIn config s user since r := by
  obtain ⟨hsound, hends⟩ := (judged _).ended_of_reach h
  obtain ⟨hsince, hgrows, hend⟩ := hends _ _ _ _ hlogin
  have huser := hsince.mem_rows hg
  have hemail := (mem_of_findBy (hsince.findByEmail_eq hg)).2
  have hfits := (hsince.compare_iff hg password).mpr hkey
  cases r with
  | error e =>
    refine .inl ?_
    rcases LoginEnds.refused hend e rfl with ⟨message, rfl⟩ | hnone
    · exact ⟨message, rfl⟩
    · rw [hnone user huser hemail] at hfits
      cases hfits
  | ok reply =>
    obtain ⟨e, he, hrequest, hiat, rfl⟩ := LoginEnds.signed hend reply rfl
    obtain ⟨hsigned, dto', account, haccount, hlogin', hemail', -, hpayload⟩ := hsound.signed e he
    -- The account of the login is the one that was registered.
    obtain rfl : account = user := by
      obtain rfl := Request.login.inj (hrequest.symm.trans hlogin')
      exact eq_of_column s.shared.users.emails haccount (hgrows.users user huser)
        (hemail'.trans hemail.symm)
    refine .inr ⟨e.token, rfl, fun j service req since' r' hpresents hsecret hold hans htime => ?_⟩
    obtain ⟨-, hgrows', hend'⟩ := hends _ _ _ _ hans
    have hlive : s.shared.now < e.iat + expiresIn := by omega
    exact (hend'.pass hpresents).admits (hsecret ▸ hsigned) hpayload hlive hold
      (hgrows'.users account hold)

/-! ## Runs -/

/-- Hashes that keep the salt and the first 72 characters. -/
def someBcrypt : Bcrypt where
  Salt := Char
  key p := String.ofList (p.toList.take 72)
  hash _ salt p := String.ofList (salt :: p.toList.take 72)
  compare p hash := p.toList.take 72 = hash.toList.drop 1
  compare_hash _ _ p p' := by simp [String.ofList_inj]

/-- Tokens that say what was signed under which secret. -/
def someJwt : Jwt (String × JwtPayload × ℕ) where
  sign secret payload _ exp := (secret, payload, exp)
  verify secret token now := if token.1 = secret ∧ now < token.2.2 then some token.2.1 else none
  verify_sign secret payload iat exp now h := if_pos ⟨rfl, h⟩
  of_verify secret secret' payload payload' iat exp now h := by
    split at h
    · rename_i hlive
      exact ⟨(Option.some.inj h).symm, hlive.2⟩
    · cases h

/-- No service has the variable set. -/
def someConfig : Config := fun _ => none

def emptyService : State (String × JwtPayload × ℕ) := ⟨⟨.empty, 0, [], []⟩, []⟩

theorem opens_emptyService : Opens emptyService := ⟨rfl, rfl, rfl, rfl⟩

/-- Two registrations of an email side by side, and then a login. -/
def someRun : List (Host.Move (Request (String × JwtPayload × ℕ)) (Choice Char) ℕ) :=
  [.arrive (.register ⟨"a@b.com", "secret"⟩), .arrive (.register ⟨"a@b.com", "other"⟩),
    .go 0 .go, .go 1 .go, .go 0 (.salt 'x'), .go 1 (.salt 'y'), .go 1 (.insert "u1"),
    .go 0 (.insert "u2"), .drift 30, .arrive (.login ⟨"a@b.com", "other"⟩), .go 2 .go, .go 2 .go,
    .go 2 .go]

def someToken : String × JwtPayload × ℕ :=
  ("dev-secret-change-me", ⟨"u1", "a@b.com", ["customer"]⟩, 3630)

/-- The second of them is faster. -/
theorem registered_once_of_race :
    ∃ s, Reach (host someBcrypt someJwt someConfig).step Opens (fun _ _ => True) s ∧
      (∃ since message, s.Answered 0 (.register ⟨"a@b.com", "secret"⟩) since
        (.error (.internal message))) ∧
      (∃ since, s.Answered 1 (.register ⟨"a@b.com", "other"⟩) since
        (.ok (.registered "u1" "a@b.com" ["customer"]))) ∧
      RegisteredOnce someBcrypt s := by
  obtain ⟨s, hreach, hs⟩ := Reach.exists_of_follow (host someBcrypt someJwt someConfig).step Opens
    (fun _ _ => True) opens_emptyService someRun
    (fun s => s.hasAnswered 0 (fun req _ r => req = .register ⟨"a@b.com", "secret"⟩ &&
        r = .error (.internal "duplicate key value violates unique constraint")) &&
      s.hasAnswered 1 fun req _ r => req = .register ⟨"a@b.com", "other"⟩ &&
        r = .ok (.registered "u1" "a@b.com" ["customer"])) (by decide +kernel)
  rw [Bool.and_eq_true] at hs
  obtain ⟨req, since, r, hans, hp⟩ := Host.State.answered_of_hasAnswered hs.1
  obtain ⟨req', since', r', hans', hp'⟩ := Host.State.answered_of_hasAnswered hs.2
  rw [Bool.and_eq_true, decide_eq_true_eq, decide_eq_true_eq] at hp hp'
  obtain ⟨rfl, rfl⟩ := hp
  obtain ⟨rfl, rfl⟩ := hp'
  exact ⟨s, hreach, ⟨since, _, hans⟩, ⟨since', hans'⟩, registered_once_of_reach hreach⟩

/-- The token of the login is presented to order-service. -/
theorem admitted_of_order :
    ∃ s since payload, Reach (host someBcrypt someJwt someConfig).step Opens (fun _ _ => True) s ∧
      s.Answered 3 (.guarded .order (some someToken)) since (.ok (.admitted payload)) ∧
      ∃ e ∈ since.issued, e.token = someToken ∧ since.now < e.iat + expiresIn ∧
        ∃ n dto user password, ⟨n, .register dto, user⟩ ∈ s.shared.registrations ∧
          e.request = .login ⟨dto.email, password⟩ ∧
          someBcrypt.key password = someBcrypt.key dto.password ∧
          (Reply.admitted payload : Reply (String × JwtPayload × ℕ)).Identifies user := by
  obtain ⟨s, hreach, hs⟩ := Reach.exists_of_follow (host someBcrypt someJwt someConfig).step Opens
    (fun _ _ => True) opens_emptyService
    (someRun ++ [.arrive (.guarded .order (some someToken)), .go 3 .go])
    (fun s => s.hasAnswered 3 fun req since r =>
      req = .guarded .order (some someToken) && (since.issued.any fun e => e.token = someToken) &&
        r = .ok (.admitted someToken.2.1)) (by decide +kernel)
  obtain ⟨req, since, r, hans, hp⟩ := Host.State.answered_of_hasAnswered hs
  rw [Bool.and_eq_true, Bool.and_eq_true, decide_eq_true_eq, decide_eq_true_eq] at hp
  obtain ⟨⟨rfl, hissued⟩, rfl⟩ := hp
  obtain ⟨e, he, htoken⟩ := List.any_eq_true.mp hissued
  have hgenuine : Genuine someJwt someConfig since .order someToken := fun _ _ _ =>
    ⟨e, he, of_decide_eq_true htoken⟩
  exact ⟨s, since, _, hreach, hans, admitted_of_reach hreach rfl hgenuine hans⟩

/-- And asked for the profile. -/
theorem session_of_login :
    ∃ s since, Reach (host someBcrypt someJwt someConfig).step Opens (fun _ _ => True) s ∧
      s.Answered 2 (.login ⟨"a@b.com", "other"⟩) since (.ok (.accessToken someToken)) ∧
      (∃ since', s.Answered 3 (.me (some someToken)) since'
        (.ok (.profile "u1" "a@b.com" ["customer"] 0))) ∧
      GetsIn someConfig s ⟨"u1", "a@b.com", "yother", ["customer"], 0⟩ since
        (.ok (.accessToken someToken)) := by
  obtain ⟨s, hreach, hs⟩ := Reach.exists_of_follow (host someBcrypt someJwt someConfig).step Opens
    (fun _ _ => True) opens_emptyService
    (someRun ++ [.arrive (.me (some someToken)), .go 3 .go, .go 3 .go])
    (fun s => (s.hasAnswered 2 fun req since r => req = .login ⟨"a@b.com", "other"⟩ &&
        ((⟨1, .register ⟨"a@b.com", "other"⟩, ⟨"u1", "a@b.com", "yother", ["customer"], 0⟩⟩ :
          Registration _) ∈ since.registrations) && r = .ok (.accessToken someToken)) &&
      s.hasAnswered 3 fun req _ r => req = .me (some someToken) &&
        r = .ok (.profile "u1" "a@b.com" ["customer"] 0)) (by decide +kernel)
  rw [Bool.and_eq_true] at hs
  obtain ⟨req, since, r, hans, hp⟩ := Host.State.answered_of_hasAnswered hs.1
  obtain ⟨req', since', r', hans', hp'⟩ := Host.State.answered_of_hasAnswered hs.2
  rw [Bool.and_eq_true, Bool.and_eq_true, decide_eq_true_eq, decide_eq_true_eq,
    decide_eq_true_eq] at hp
  rw [Bool.and_eq_true, decide_eq_true_eq, decide_eq_true_eq] at hp'
  obtain ⟨⟨rfl, hg⟩, rfl⟩ := hp
  obtain ⟨rfl, rfl⟩ := hp'
  exact ⟨s, since, hreach, hans, ⟨since', hans'⟩, session_of_reach hreach hg rfl hans⟩

end Auth

end Ecommerce
