import Mathlib.Data.List.DropRight
import RustRelay.Db

/-!
# Authentication

`auth.rs` and `POST /api/login`: who a token stands for. A token is a JWT that a login has given
out, or the token in the user's row. Writing and reading a JWT is `jsonwebtoken`, a parameter.

A client may send its token as it is or after `Bearer `, with white space around it:
`bearer_padded`. Which text is accepted for whom: `authenticate_ok_iff`.
-/

namespace RustRelay

/-! ## Users -/

/-- A row of `users`, with the columns that are read. -/
structure User where
  id : UserId
  username : String
  token : String
  deriving DecidableEq, Repr

/-- The table `users`, in the order of a scan. Two users may have the same token. -/
structure Users where
  rows : List User
  ids : (rows.map User.id).Nodup
  usernames : (rows.map User.username).Nodup

theorem find?_eq_some_iff_of_unique {α : Type*} {p : α → Bool} {l : List α}
    (h : ∀ a ∈ l, ∀ b ∈ l, p a → p b → a = b) {a : α} :
    l.find? p = some a ↔ a ∈ l ∧ p a := by
  constructor
  · intro hfind
    exact ⟨List.mem_of_find?_eq_some hfind, List.find?_some hfind⟩
  · rintro ⟨hmem, ha⟩
    have hsome : (l.find? p).isSome := List.find?_isSome.2 ⟨a, hmem, ha⟩
    obtain ⟨b, hb⟩ := Option.isSome_iff_exists.1 hsome
    rw [hb, h b (List.mem_of_find?_eq_some hb) a hmem (List.find?_some hb) ha]

namespace Users

variable (users : Users)

/-- `SELECT * FROM users WHERE id = $1`. -/
def byId (id : UserId) : Option User := users.rows.find? fun user => user.id = id

/-- `SELECT * FROM users WHERE token = $1`, and of that the first row. -/
def byToken (token : String) : Option User := users.rows.find? fun user => user.token = token

/-- `SELECT * FROM users WHERE username = $1 AND token = $2`. -/
def byCredentials (username token : String) : Option User :=
  users.rows.find? fun user => user.username = username ∧ user.token = token

variable {users}

theorem byId_eq_some_iff {id : UserId} {user : User} :
    users.byId id = some user ↔ user ∈ users.rows ∧ user.id = id := by
  rw [byId, find?_eq_some_iff_of_unique]
  · simp
  · intro a ha b hb hpa hpb
    simp only [decide_eq_true_eq] at hpa hpb
    exact List.inj_on_of_nodup_map users.ids ha hb (hpa.trans hpb.symm)

theorem byCredentials_eq_some_iff {username token : String} {user : User} :
    users.byCredentials username token = some user ↔
      user ∈ users.rows ∧ user.username = username ∧ user.token = token := by
  rw [byCredentials, find?_eq_some_iff_of_unique]
  · simp
  · intro a ha b hb hpa hpb
    simp only [decide_eq_true_eq] at hpa hpb
    exact List.inj_on_of_nodup_map users.usernames ha hb (hpa.1.trans hpb.1.symm)

theorem byToken_mem {token : String} {user : User} (h : users.byToken token = some user) :
    user ∈ users.rows ∧ user.token = token :=
  ⟨List.mem_of_find?_eq_some h, by simpa using List.find?_some h⟩

end Users

/-! ## The token of a client -/

/-- `char::is_whitespace`. -/
def isWhitespace (c : Char) : Bool :=
  let n := c.toNat
  (9 ≤ n && n ≤ 13) || n = 0x20 || n = 0x85 || n = 0xa0 || n = 0x1680 ||
    (0x2000 ≤ n && n ≤ 0x200a) || n = 0x2028 || n = 0x2029 || n = 0x202f || n = 0x205f || n = 0x3000

/-- `str::trim`. -/
def trim (cs : List Char) : List Char := (cs.dropWhile isWhitespace).rdropWhile isWhitespace

/-- `"Bearer "`. -/
def scheme : List Char := ['B', 'e', 'a', 'r', 'e', 'r', ' ']

/-- The token in the text: trimmed, without `Bearer ` if it starts with that. -/
def bearer (rawToken : String) : String :=
  let token := trim rawToken.toList
  .ofList ((List.isPrefixOf? scheme token).getD token)

theorem trim_padded {before text after : List Char} (hbefore : ∀ c ∈ before, isWhitespace c)
    (hafter : ∀ c ∈ after, isWhitespace c) (hne : text ≠ [])
    (hfirst : isWhitespace (text.head hne) = false)
    (hlast : isWhitespace (text.getLast hne) = false) :
    trim (before ++ text ++ after) = text := by
  have hleft : (before ++ text ++ after).dropWhile isWhitespace = text ++ after := by
    rw [List.append_assoc, List.dropWhile_append, List.dropWhile_eq_nil_iff.2 hbefore,
      if_pos List.isEmpty_nil]
    cases text with
    | nil => exact absurd rfl hne
    | cons c cs => exact List.dropWhile_cons_of_neg (by simpa using hfirst)
  have hright : (text ++ after).rdropWhile isWhitespace = text := by
    clear hleft
    induction after using List.reverseRecOn with
    | nil =>
      rw [List.append_nil]
      exact List.rdropWhile_eq_self_iff.2 fun _ => by simpa using hlast
    | append_singleton after c ih =>
      rw [← List.append_assoc, List.rdropWhile_concat_pos _ _ _ (hafter c (by simp))]
      exact ih fun c hc => hafter c (by simp [hc])
  rw [trim, hleft, hright]

/-- **A token may be sent as it is or after `Bearer `, with white space around it.** -/
theorem bearer_padded {before after : List Char} (hbefore : ∀ c ∈ before, isWhitespace c)
    (hafter : ∀ c ∈ after, isWhitespace c) {token : String} (hne : token ≠ "")
    (htoken : ∀ c ∈ token.toList, isWhitespace c = false) :
    bearer (.ofList (before ++ token.toList ++ after)) = token ∧
      bearer (.ofList (before ++ (scheme ++ token.toList) ++ after)) = token := by
  have hne' : token.toList ≠ [] := by simpa using hne
  have hlast : isWhitespace (token.toList.getLast hne') = false := htoken _ (List.getLast_mem hne')
  constructor
  · have htrim : trim (before ++ token.toList ++ after) = token.toList :=
      trim_padded hbefore hafter hne' (htoken _ (List.head_mem hne')) hlast
    have hplain : List.isPrefixOf? scheme token.toList = none := by
      cases h : List.isPrefixOf? scheme token.toList with
      | none => rfl
      | some rest =>
        have heq := List.isPrefixOf?_eq_some_iff_append_eq.1 h
        have hblank : ' ' ∈ token.toList := by simp [← heq, scheme]
        exact absurd (htoken ' ' hblank) (by decide)
    simp only [bearer, String.toList_ofList, htrim, hplain, Option.getD_none, String.ofList_toList]
  · have htrim : trim (before ++ (scheme ++ token.toList) ++ after) = scheme ++ token.toList := by
      refine trim_padded hbefore hafter (List.append_ne_nil_of_right_ne_nil scheme hne') (by rfl) ?_
      rw [List.getLast_append_of_ne_nil _ hne', hlast]
    have hstrip : List.isPrefixOf? scheme (scheme ++ token.toList) =
        some token.toList := List.isPrefixOf?_eq_some_iff_append_eq.2 rfl
    simp only [bearer, String.toList_ofList, htrim, hstrip, Option.getD_some, String.ofList_toList]

/-! ## JWT -/

/-- The contents of a JWT; `exp` is in seconds. -/
structure Claims where
  sub : UserId
  username : String
  exp : ℕ
  deriving DecidableEq, Repr

/-- `jsonwebtoken` with the secret of the nodes, `decode` at a time in seconds. -/
structure Jwt where
  encode : Claims → Except String String
  decode : ℕ → String → Except String Claims

/-- What is documented of it: a token is read back until it has been expired for longer than the
leeway of the default `Validation`, and it is text in base64url with dots between. -/
structure Jwt.Lawful (jwt : Jwt) : Prop where
  decode_encode : ∀ claims text now, jwt.encode claims = .ok text → now ≤ claims.exp + 60 →
    jwt.decode now text = .ok claims
  decode_expired : ∀ claims text now, jwt.encode claims = .ok text → claims.exp + 60 < now →
    ∃ e, jwt.decode now text = .error e
  plain : ∀ claims text, jwt.encode claims = .ok text →
    text ≠ "" ∧ ∀ c ∈ text.toList, isWhitespace c = false

/-- The errors of `error.rs` that are returned here. -/
inductive AppError
  | auth (message : String)
  | database (e : DbError)
  deriving DecidableEq, Repr

section
variable (jwt : Jwt) (now : ℕ)

/-- `create_token`: good for 24 hours. -/
def createToken (user : User) : Except AppError String :=
  let claims : Claims := ⟨user.id, user.username, now + 24 * 3600⟩
  match jwt.encode claims with
  | .error e => .error (.auth ("Token creation failed: " ++ e))
  | .ok token => .ok token

/-- `validate_token`. -/
def validateToken (token : String) : Except AppError Claims :=
  match jwt.decode now token with
  | .error e => .error (.auth ("Invalid token: " ++ e))
  | .ok claims => .ok claims

/-- `authenticate`, with the answer of the database to its query. -/
def authenticate (users : Users) (query : Except DbError Unit) (rawToken : String) :
    Except AppError User :=
  let token := bearer rawToken
  match validateToken jwt now token with
  | .ok claims => match query with
    | .error e => .error (.database e)
    | .ok () => match users.byId claims.sub with
      | none => .error (.auth "User not found")
      | some user => .ok user
  | .error _ => match query with
    | .error e => .error (.database e)
    | .ok () => match users.byToken token with
      | none => .error (.auth "Invalid token")
      | some user => .ok user

structure LoginRequest where
  username : String
  token : String
  deriving DecidableEq, Repr

/-- The response of `login`. -/
structure LoggedIn where
  token : String
  user : UserInfo
  deriving DecidableEq, Repr

/-- `login`, with the answer of the database to its query. -/
def login (users : Users) (query : Except DbError Unit) (req : LoginRequest) :
    Except AppError LoggedIn :=
  match query with
  | .error e => .error (.database e)
  | .ok () => match users.byCredentials req.username req.token with
    | none => .error (.auth "Invalid credentials")
    | some user => match createToken jwt now user with
      | .error e => .error e
      | .ok token => .ok ⟨token, ⟨user.id, user.username⟩⟩

end

variable {jwt : Jwt} {now : ℕ} {users : Users} {query : Except DbError Unit}

/-- **Who is authenticated**: the user of a JWT that can be read, or the first user with that
token. A JWT of a user who is gone is not tried as a token. -/
theorem authenticate_ok_iff {rawToken : String} {user : User} :
    authenticate jwt now users query rawToken = .ok user ↔ query = .ok () ∧
      ((∃ claims, jwt.decode now (bearer rawToken) = .ok claims ∧
          users.byId claims.sub = some user) ∨
        ((∃ e, jwt.decode now (bearer rawToken) = .error e) ∧
          users.byToken (bearer rawToken) = some user)) := by
  simp only [authenticate, validateToken]
  cases jwt.decode now (bearer rawToken) with
  | ok claims =>
    cases query with
    | error e => simp
    | ok _ => cases h : users.byId claims.sub <;> simp [h]
  | error e =>
    cases query with
    | error e => simp
    | ok _ => cases users.byToken (bearer rawToken) <;> simp

/-- **Who is logged in**: the user with that name, if the token is theirs. -/
theorem login_ok_iff {req : LoginRequest} {response : LoggedIn} :
    login jwt now users query req = .ok response ↔ query = .ok () ∧
      ∃ user ∈ users.rows, user.username = req.username ∧ user.token = req.token ∧
        jwt.encode ⟨user.id, user.username, now + 24 * 3600⟩ = .ok response.token ∧
        response.user = ⟨user.id, user.username⟩ := by
  simp only [login, createToken]
  constructor
  · intro h
    cases query with
    | error e => cases h
    | ok _ =>
      refine ⟨rfl, ?_⟩
      cases huser : users.byCredentials req.username req.token with
      | none => simp [huser] at h
      | some user =>
        obtain ⟨hmem, hname, htoken⟩ := Users.byCredentials_eq_some_iff.1 huser
        simp only [huser] at h
        cases hencode : jwt.encode ⟨user.id, user.username, now + 24 * 3600⟩ with
        | error e => simp [hencode] at h
        | ok token =>
          simp only [hencode, Except.ok.injEq] at h
          subst h
          exact ⟨user, hmem, hname, htoken, hencode, rfl⟩
  · rintro ⟨rfl, user, hmem, hname, htoken, hencode, huser⟩
    have hfound := Users.byCredentials_eq_some_iff.2 ⟨hmem, hname, htoken⟩
    simp only [hfound, hencode, ← huser]

end RustRelay
